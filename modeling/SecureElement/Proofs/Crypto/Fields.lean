import SecureElement.Proofs.Crypto.Primality

/-!
Arithmetic modulo a prime.

The algorithm of Euclid finds inverses (`Modular.inverse_mul`), and the field of P-256 is that of the integers
modulo its prime (`P256.Field.toZMod`).
-/

namespace SecureElement.Crypto

/-! ### Inverses -/

namespace Modular

/-- The coefficient belongs to the greatest common divisor, if those that it is found from belong to the two
numbers. -/
theorem coefficient_mul {m a b : Nat} {u v : Int} {x : ZMod m} (first : (u : ZMod m) * x = a)
    (second : (v : ZMod m) * x = b) : (coefficient a b u v : ZMod m) * x = (Nat.gcd b a : Nat) := by
  fun_induction coefficient a b u v with
  | case1 a u v =>
      rw [first, Nat.gcd_zero_left]
  | case2 a b u v positive _ ih =>
      rw [Nat.gcd_rec b a]
      refine ih second ?_
      have division : (a : ZMod m) = b * (a / b : Nat) + (a % b : Nat) := by
        rw [← Nat.cast_mul, ← Nat.cast_add, Nat.div_add_mod]
      rw [Int.cast_sub, Int.cast_mul, Int.cast_natCast, sub_mul, mul_assoc, first, second, division]
      ring

/-- A number times its inverse is one. -/
theorem inverse_mul {m x : Nat} (positive : 0 < m) (coprime : Nat.Coprime x m) :
    (inverse m x : ZMod m) * x = 1 := by
  have nonneg : 0 ≤ coefficient m x 0 1 % m := Int.emod_nonneg _ (by omega)
  have cast : (inverse m x : ZMod m) = (coefficient m x 0 1 : ZMod m) := by
    rw [← ZMod.intCast_mod, inverse, ← Int.cast_natCast, Int.toNat_of_nonneg nonneg]
  rw [cast, coefficient_mul (by simp) (by simp), coprime, Nat.cast_one]

/-- Below a prime, what is found is the inverse in its field, with zero for zero. -/
theorem cast_inverse {m x : Nat} [Fact m.Prime] (less : x < m) :
    (inverse m x : ZMod m) = (x : ZMod m)⁻¹ := by
  have prime : m.Prime := Fact.out
  cases x with
  | zero => simp [inverse, coefficient]
  | succ x =>
      have coprime : Nat.Coprime (x + 1) m :=
        (Nat.coprime_of_lt_prime (Nat.succ_ne_zero x) less prime).symm
      exact eq_inv_of_mul_eq_one_left (inverse_mul prime.pos coprime)

end Modular

/-! ### The field of P-256 -/

namespace P256

instance : Fact prime.Prime := ⟨prime_prime⟩

instance : Fact order.Prime := ⟨prime_order⟩

namespace Field

/-- A field element as an integer modulo the prime. -/
def toZMod (x : Field) : ZMod prime :=
  x.val

theorem toZMod_injective : Function.Injective toZMod := by
  intro x y same
  have values := (ZMod.natCast_eq_natCast_iff' _ _ _).1 same
  rw [Nat.mod_eq_of_lt x.isLt, Nat.mod_eq_of_lt y.isLt] at values
  exact Fin.ext values

@[simp] theorem toZMod_inj {x y : Field} : x.toZMod = y.toZMod ↔ x = y :=
  toZMod_injective.eq_iff

@[simp] theorem toZMod_ofNat (n : Nat) : (ofNat n).toZMod = n :=
  ZMod.natCast_mod n prime

@[simp] theorem toZMod_add (x y : Field) : (x + y).toZMod = x.toZMod + y.toZMod := by
  rw [toZMod, Fin.val_add, ZMod.natCast_mod, Nat.cast_add]
  rfl

@[simp] theorem toZMod_mul (x y : Field) : (x * y).toZMod = x.toZMod * y.toZMod := by
  rw [toZMod, Fin.val_mul, ZMod.natCast_mod, Nat.cast_mul]
  rfl

@[simp] theorem toZMod_sub (x y : Field) : (x - y).toZMod = x.toZMod - y.toZMod := by
  rw [toZMod, Fin.val_sub, ZMod.natCast_mod, Nat.cast_add, Nat.cast_sub (Nat.le_of_lt y.isLt),
    ZMod.natCast_self, zero_sub, neg_add_eq_sub]
  rfl

@[simp] theorem toZMod_inverse (x : Field) : (inverse x).toZMod = x.toZMod⁻¹ := by
  rw [inverse, toZMod_ofNat, Modular.cast_inverse x.isLt]
  rfl

/-- The field element that is an integer modulo the prime. -/
def ofZMod (z : ZMod prime) : Field :=
  ⟨z.val, ZMod.val_lt z⟩

@[simp] theorem toZMod_ofZMod (z : ZMod prime) : (ofZMod z).toZMod = z :=
  ZMod.natCast_zmod_val z

theorem toZMod_surjective : Function.Surjective toZMod :=
  fun z => ⟨ofZMod z, toZMod_ofZMod z⟩

@[simp] theorem ofZMod_toZMod (x : Field) : ofZMod x.toZMod = x :=
  toZMod_injective (toZMod_ofZMod _)

end Field

end P256

end SecureElement.Crypto
