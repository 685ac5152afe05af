import SecureElement.Crypto.Ecdsa
import SecureElement.Proofs.Der.Values

/-!
The octets of points and of signatures.

A point with coordinates on the curve is read from its octets (`P256.Point.decode_encode`), and octets that are read
as a point are those of the point or tell one of its coordinates only (`P256.Point.eq_encode_or_shortened`). A
signature is read from its octets if its numbers may stand in one (`Ecdsa.Signature.decode_encode`).
-/

namespace SecureElement.Crypto

open Der

namespace P256

/-! ### Points -/

theorem prime_le : prime ≤ 256 ^ 32 := by decide

theorem coordinate?_of_toNat {bytes : Octets} {x : Field} (length : bytes.length = 32)
    (value : Octets.toNat bytes = x.val) : Point.coordinate? bytes = some x := by
  obtain ⟨n, less⟩ := x
  obtain rfl : Octets.toNat bytes = n := value
  exact dif_pos ⟨length, less⟩

theorem coordinate?_ofNat (x : Field) : Point.coordinate? (Octets.ofNat 32 x.val) = some x :=
  coordinate?_of_toNat (Octets.length_ofNat _ _)
    (Octets.toNat_ofNat (Nat.lt_of_lt_of_le x.isLt prime_le))

theorem coordinate?_eq_some_iff {bytes : Octets} {x : Field} :
    Point.coordinate? bytes = some x ↔ bytes.length = 32 ∧ Octets.toNat bytes = x.val := by
  constructor
  · intro found
    obtain ⟨within, read⟩ := Option.dite_none_right_eq_some.1 found
    cases read
    exact ⟨within.1, rfl⟩
  · rintro ⟨size, value⟩
    exact coordinate?_of_toNat size value

/-- Octets that are read as a coordinate are those of the coordinate. -/
theorem ofNat_of_coordinate? {bytes : Octets} {x : Field}
    (found : Point.coordinate? bytes = some x) : Octets.ofNat 32 x.val = bytes := by
  obtain ⟨size, value⟩ := coordinate?_eq_some_iff.1 found
  rw [← value, ← size, Octets.ofNat_toNat]

/-- Octets are those of a point by its `x` coordinate alone: a mark, and the coordinate. -/
structure Point.Shortened (octets : Octets) : Prop where
  length : octets.length = 33
  mark : octets.head? = some 0x02 ∨ octets.head? = some 0x03 ∨ octets.head? = some 0x05

/-- The octets of a point have both coordinates or one of them. -/
theorem Point.eq_encode_or_shortened {octets : Octets} {p : Point} (found : decode octets = some p) :
    (octets = p.encode ∧ ∃ x y, p = .affine x y) ∨ Shortened octets := by
  cases octets with
  | nil => cases found
  | cons mark rest =>
      rw [decode] at found
      by_cases both : mark = 0x04
      · subst both
        simp only [if_true, Option.bind_eq_bind, Option.bind_eq_some_iff,
          Option.ite_none_right_eq_some, Option.some.injEq] at found
        obtain ⟨x, front, y, back, -, rfl⟩ := found
        left
        refine ⟨?_, x, y, rfl⟩
        rw [encode, ofNat_of_coordinate? front, ofNat_of_coordinate? back, List.cons_append,
          List.take_append_drop]
      · simp only [both, if_false, Option.bind_eq_bind, Option.bind_eq_some_iff] at found
        obtain ⟨x, coordinate, found⟩ := found
        have size := (coordinate?_eq_some_iff.1 coordinate).1
        right
        constructor
        · rw [List.length_cons, size]
        · rw [List.head?_cons]
          split at found
          · exact .inl rfl
          · exact .inr (.inl rfl)
          · exact .inr (.inr rfl)
          · cases found

/-- The octets of two coordinates are read as the point on the curve with them. -/
theorem Point.decode_encode (x y : Field) :
    decode (affine x y).encode = if onCurve x y then some (affine x y) else none := by
  have front : (Octets.ofNat 32 x.val ++ Octets.ofNat 32 y.val).take 32 = Octets.ofNat 32 x.val :=
    List.take_left' (Octets.length_ofNat _ _)
  have back : (Octets.ofNat 32 x.val ++ Octets.ofNat 32 y.val).drop 32 = Octets.ofNat 32 y.val :=
    List.drop_left' (Octets.length_ofNat _ _)
  simp only [encode, decode, List.cons_append, if_true, front, back, coordinate?_ofNat,
    Option.bind_eq_bind, Option.bind_some]

/-- The octets of a point tell no other point. -/
theorem Point.eq_of_decode_encode {p q : Point} (found : Point.decode p.encode = some q) : q = p := by
  cases p with
  | infinity => cases found
  | affine x y =>
      rw [decode_encode, Option.ite_none_right_eq_some] at found
      exact (Option.some.inj found.2).symm

end P256

namespace Ecdsa

/-! ### Signatures -/

/-- Octets are a signature of a message that holds under a public key. -/
def Accepts (point : P256.Point) (message signature : Octets) : Prop :=
  ∃ σ, Signature.decode signature = some σ ∧ verify point message σ = true

namespace Signature

theorem inRange_iff {n : Nat} : inRange n = true ↔ 0 < n ∧ n < P256.order := by
  simp [inRange, Nat.succ_le_iff]

variable {σ : Signature}

/-- The octets of a signature whose numbers are below the order. -/
theorem length_encode_le (r : σ.r < P256.order) (s : σ.s < P256.order) : σ.encode.length ≤ 84 := by
  have below : P256.order ≤ 256 ^ 32 := by decide
  have number : ∀ n, n < P256.order → (Element.ofNat n).encode.length ≤ 39 := fun n small =>
    Element.length_encode_le (Integer.length_ofNat_le (Nat.lt_of_lt_of_le small below)) (by decide)
  have first := number σ.r r
  have second := number σ.s s
  refine Element.length_encode_ofElements_le (n := 78) ?_ (by decide)
  rw [Element.length_encodeAll_cons, Element.length_encodeAll_cons, Element.length_encodeAll_nil]
  omega

/-- A signature whose numbers are below the order is read from its octets, if none of them is zero. -/
theorem decode_encode (r : σ.r < P256.order) (s : σ.s < P256.order) :
    decode σ.encode = if σ.r ≠ 0 ∧ σ.s ≠ 0 then some σ else none := by
  have fits : σ.element.Fits :=
    Element.fits_of_short (Nat.le_trans (length_encode_le r s) (by decide))
  have whole : Element.decode σ.encode = some σ.element := Element.decode_encode ⟨rfl, fits⟩
  have row : σ.element.sequence? = some [.ofNat σ.r, .ofNat σ.s] :=
    Element.sequence?_sequence (Element.sound_of_tags fits rfl)
  have number : ∀ n, (Element.ofNat n).nat? = some n := Integer.toNat?_ofNat
  have range : (inRange σ.r && inRange σ.s) = true ↔ σ.r ≠ 0 ∧ σ.s ≠ 0 := by
    rw [Bool.and_eq_true, inRange_iff, inRange_iff, and_iff_left r, and_iff_left s, Nat.pos_iff_ne_zero,
      Nat.pos_iff_ne_zero]
  simp only [decode, whole, row, number, range, Option.bind_eq_bind, Option.bind_some]

end Signature

theorem xModOrder_lt (p : P256.Point) : xModOrder p < P256.order := by
  have positive : 0 < P256.order := by decide
  unfold xModOrder
  split
  · exact positive
  · exact Nat.mod_lt _ positive

/-- Both numbers of a signature are below the order. -/
theorem sign_lt_order (key : P256.PrivateKey) (message : Octets) :
    (sign key message).r < P256.order ∧ (sign key message).s < P256.order := by
  obtain ⟨p, first⟩ : ∃ p, (sign key message).r = xModOrder p := ⟨_, rfl⟩
  obtain ⟨n, second⟩ : ∃ n, (sign key message).s = n % P256.order := ⟨_, rfl⟩
  rw [first, second]
  exact ⟨xModOrder_lt p, Nat.mod_lt n (by decide)⟩

end Ecdsa

end SecureElement.Crypto
