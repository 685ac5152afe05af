import Mathlib.AlgebraicGeometry.EllipticCurve.Affine.Point
import SecureElement.Proofs.Crypto.Encodings
import SecureElement.Proofs.Crypto.Fields

/-!
The points of P-256 are those of an elliptic curve.

The addition of points is that of the group of the curve (`ofCurve_add`), and the multiples of a point are those
in the group (`ofCurve_nsmul`). The generator has the order that it should have (`addOrderOf_base`), so the public
half of a private key is always a point with two coordinates on the curve (`PrivateKey.exists_point`), and is read
from its octets (`PrivateKey.decode_publicOctets`).
-/

namespace SecureElement.Crypto.P256

open WeierstrassCurve.Affine (Nonsingular negY slope addX addY negAddY)

/-! ### The curve -/

/-- The curve on which the points lie. -/
def curve : WeierstrassCurve.Affine (ZMod prime) :=
  ⟨0, 0, 0, -3, b.toZMod⟩

theorem discriminant_ne_zero : curve.Δ ≠ 0 := by decide +kernel

theorem nonsingular_iff {x y : Field} :
    curve.Nonsingular x.toZMod y.toZMod ↔ Point.onCurve x y = true := by
  rw [← WeierstrassCurve.Affine.equation_iff_nonsingular_of_Δ_ne_zero discriminant_ne_zero,
    WeierstrassCurve.Affine.equation_iff, Point.onCurve, beq_iff_eq, ← Field.toZMod_inj, rightSide]
  simp only [curve, Field.toZMod_mul, Field.toZMod_add, Field.toZMod_sub, Field.toZMod_ofNat]
  constructor
  · intro h
    linear_combination h
  · intro h
    linear_combination h

/-- A point of the curve by its coordinates. -/
def ofCurve : curve.Point → Point
  | .zero => .infinity
  | .some x y _ => .affine (Field.ofZMod x) (Field.ofZMod y)

@[simp] theorem ofCurve_zero : ofCurve 0 = .infinity := rfl

@[simp] theorem ofCurve_some {x y : ZMod prime} (h : curve.Nonsingular x y) :
    ofCurve (.some x y h) = .affine (Field.ofZMod x) (Field.ofZMod y) := rfl

theorem ofZMod_injective : Function.Injective Field.ofZMod := by
  intro x y same
  rw [← Field.toZMod_ofZMod x, same, Field.toZMod_ofZMod]

theorem ofCurve_injective : Function.Injective ofCurve := by
  rintro (_ | ⟨x, y, h⟩) (_ | ⟨x', y', h'⟩) same
  · rfl
  · cases same
  · cases same
  · rw [ofCurve_some, ofCurve_some, Point.affine.injEq] at same
    obtain rfl := ofZMod_injective same.1
    obtain rfl := ofZMod_injective same.2
    rfl

theorem onCurve_ofCurve {P : curve.Point} {x y : Field} (same : ofCurve P = .affine x y) :
    Point.onCurve x y = true := by
  obtain _ | ⟨x', y', h⟩ := P
  · cases same
  · cases same
    rw [← nonsingular_iff, Field.toZMod_ofZMod, Field.toZMod_ofZMod]
    exact h

/-! ### Sums and multiples -/

section

variable {x₁ x₂ y₁ y₂ : Field}

theorem opposite_iff : x₁ = x₂ ∧ y₁ + y₂ = Field.ofNat 0 ↔
    x₁.toZMod = x₂.toZMod ∧ y₁.toZMod = curve.negY x₂.toZMod y₂.toZMod := by
  rw [← Field.toZMod_inj, ← Field.toZMod_inj (x := y₁ + y₂)]
  simp only [curve, negY, Field.toZMod_add, Field.toZMod_ofNat, Nat.cast_zero, zero_mul, sub_zero,
    eq_neg_iff_add_eq_zero]

/-- The slope of the line through two points, or of the tangent at one. -/
theorem slope_eq (other : ¬ (x₁ = x₂ ∧ y₁ + y₂ = Field.ofNat 0)) :
    curve.slope x₁.toZMod x₂.toZMod y₁.toZMod y₂.toZMod =
      (if x₁ = x₂ then (Field.ofNat 3 * x₁ * x₁ - Field.ofNat 3) * Field.inverse (y₁ + y₁)
        else (y₂ - y₁) * Field.inverse (x₂ - x₁)).toZMod := by
  by_cases same : x₁ = x₂
  · subst same
    have apart : y₁.toZMod ≠ curve.negY x₁.toZMod y₂.toZMod := fun h => other (opposite_iff.2 ⟨rfl, h⟩)
    rw [if_pos rfl, WeierstrassCurve.Affine.slope_of_Y_ne rfl apart]
    simp only [curve, negY, Field.toZMod_mul, Field.toZMod_sub, Field.toZMod_add, Field.toZMod_inverse,
      Field.toZMod_ofNat, div_eq_mul_inv]
    ring_nf
  · have apart : x₁.toZMod ≠ x₂.toZMod := fun h => same (Field.toZMod_inj.1 h)
    rw [if_neg same, WeierstrassCurve.Affine.slope_of_X_ne apart, ← neg_div_neg_eq, neg_sub, neg_sub]
    simp only [Field.toZMod_mul, Field.toZMod_sub, Field.toZMod_inverse, div_eq_mul_inv]

end

/-- Points are added as in the group of the curve. -/
theorem ofCurve_add (P Q : curve.Point) : ofCurve (P + Q) = (ofCurve P).add (ofCurve Q) := by
  obtain _ | ⟨x₁, y₁, h₁⟩ := P
  case zero =>
    rw [← WeierstrassCurve.Affine.Point.zero_def, zero_add]
    rfl
  obtain _ | ⟨x₂, y₂, h₂⟩ := Q
  case zero =>
    rw [← WeierstrassCurve.Affine.Point.zero_def, add_zero]
    rfl
  obtain ⟨x₁, rfl⟩ := Field.toZMod_surjective x₁
  obtain ⟨y₁, rfl⟩ := Field.toZMod_surjective y₁
  obtain ⟨x₂, rfl⟩ := Field.toZMod_surjective x₂
  obtain ⟨y₂, rfl⟩ := Field.toZMod_surjective y₂
  simp only [ofCurve_some, Field.ofZMod_toZMod, Point.add]
  by_cases opposite : x₁ = x₂ ∧ y₁ + y₂ = Field.ofNat 0
  · obtain ⟨xs, ys⟩ := opposite_iff.1 opposite
    rw [if_pos opposite, WeierstrassCurve.Affine.Point.add_of_Y_eq xs ys, ofCurve_zero]
  · rw [if_neg opposite, WeierstrassCurve.Affine.Point.add_some fun h => opposite (opposite_iff.2 h),
      ofCurve_some, slope_eq opposite]
    generalize (if x₁ = x₂ then (Field.ofNat 3 * x₁ * x₁ - Field.ofNat 3) * Field.inverse (y₁ + y₁)
        else (y₂ - y₁) * Field.inverse (x₂ - x₁)) = slope
    congr 1
    · refine Field.toZMod_injective ?_
      simp only [curve, addX, Field.toZMod_ofZMod, Field.toZMod_sub, Field.toZMod_mul]
      ring
    · refine Field.toZMod_injective ?_
      simp only [curve, addX, addY, negAddY, negY, Field.toZMod_ofZMod, Field.toZMod_sub, Field.toZMod_mul]
      ring

/-- Multiples are those in the group of the curve. -/
theorem ofCurve_nsmul (n : Nat) (P : curve.Point) : ofCurve (n • P) = Point.mul n (ofCurve P) := by
  induction n using Nat.strong_induction_on generalizing P with
  | _ n ih =>
      rw [Point.mul]
      split
      case isTrue zero => rw [zero, zero_nsmul, ofCurve_zero]
      case isFalse positive =>
        have half : Point.mul (n / 2) ((ofCurve P).add (ofCurve P)) = ofCurve ((2 * (n / 2)) • P) := by
          rw [← ofCurve_add, ← ih (n / 2) (by omega), ← two_nsmul, ← mul_nsmul]
        have whole := Nat.div_add_mod n 2
        simp only [half]
        split
        case isTrue odd => rw [← ofCurve_add, ← succ_nsmul', ← odd, whole]
        case isFalse even =>
          congr 2
          omega

/-! ### The generator -/

/-- The generator as a point of the curve. -/
def base : curve.Point :=
  .some _ _ (nonsingular_iff.2 (by decide +kernel : Point.onCurve
    (Field.ofNat 0x6b17d1f2e12c4247f8bce6e563a440f277037d812deb33a0f4a13945d898c296)
    (Field.ofNat 0x4fe342e2fe1a7f9b8ee7eb4a7c0f9e162bce33576b315ececbb6406837bf51f5) = true))

theorem ofCurve_base : ofCurve base = Point.generator := by
  rw [base, ofCurve_some, Field.ofZMod_toZMod, Field.ofZMod_toZMod]
  rfl

theorem mul_generator (n : Nat) : Point.mul n Point.generator = ofCurve (n • base) := by
  rw [ofCurve_nsmul, ofCurve_base]

theorem order_mul_generator : Point.mul order Point.generator = .infinity := by decide +kernel

theorem addOrderOf_base : addOrderOf base = order := by
  refine addOrderOf_eq_prime (ofCurve_injective ?_) (fun zero => ?_)
  · rw [← mul_generator, order_mul_generator, ofCurve_zero]
  · have same := ofCurve_base
    rw [zero] at same
    cases same

/-- Two multiples of the generator are the same point exactly if their numbers agree modulo the order. -/
theorem nsmul_base_inj {m n : Nat} : m • base = n • base ↔ (m : ZMod order) = n := by
  rw [nsmul_eq_nsmul_iff_modEq, addOrderOf_base, ZMod.natCast_eq_natCast_iff]

theorem nsmul_base_ne_zero {n : Nat} (positive : 0 < n) (less : n < order) : n • base ≠ 0 := by
  intro zero
  have divides := addOrderOf_dvd_of_nsmul_eq_zero zero
  rw [addOrderOf_base] at divides
  exact Nat.not_le.2 less (Nat.le_of_dvd positive divides)

/-- A multiple of the generator by a number below the order is a point with coordinates on the curve. -/
theorem exists_mul_generator {n : Nat} (positive : 0 < n) (less : n < order) :
    ∃ x y, Point.mul n Point.generator = .affine x y ∧ Point.onCurve x y = true := by
  rw [mul_generator]
  cases point : ofCurve (n • base) with
  | infinity => exact absurd (ofCurve_injective point) (nsmul_base_ne_zero positive less)
  | affine x y => exact ⟨x, y, rfl, onCurve_ofCurve point⟩

/-! ### Private keys -/

namespace PrivateKey

variable (k : PrivateKey)

theorem point_eq : k.point = ofCurve (k.scalar • base) :=
  mul_generator k.scalar

/-- The public half of a private key is a point with coordinates on the curve. -/
theorem exists_point : ∃ x y, k.point = .affine x y ∧ Point.onCurve x y = true :=
  exists_mul_generator k.pos k.lt_order

/-- The public half of a private key is read from its octets. -/
theorem decode_publicOctets : Point.decode k.publicOctets = some k.point := by
  obtain ⟨x, y, point, onCurve⟩ := k.exists_point
  rw [publicOctets, point, Point.decode_encode, if_pos onCurve]

end PrivateKey

end SecureElement.Crypto.P256
