import SecureElement.Proofs.Crypto.Curve

/-!
What a key signs is accepted under its public half.

The secret number of a signature is one from one to below the order, whatever the key and the message
(`secretFor_inRange`). From a signature whose second number is not zero, the point of the secret number is found
again (`verify_sign`). So the octets of a signature are accepted exactly if none of its numbers is zero
(`accepts_sign_iff`).
-/

namespace SecureElement.Crypto.Ecdsa

open P256

/-! ### The secret number -/

theorem inRange_secret (attempts : Nat) (g : Generator) :
    Signature.inRange (g.secret attempts) = true := by
  induction attempts generalizing g with
  | zero =>
      have one : Signature.inRange 1 = true := by decide
      exact one
  | succ attempts ih =>
      simp only [Generator.secret]
      split
      case isTrue fits => exact fits
      case isFalse => exact ih _

theorem secretFor_inRange (key : PrivateKey) (number : Nat) :
    0 < secretFor key number ∧ secretFor key number < order :=
  Signature.inRange_iff.1 (inRange_secret _ _)

/-! ### Numbers modulo the order -/

theorem cast_ne_zero {n : Nat} (nonzero : n ≠ 0) (less : n < order) : (n : ZMod order) ≠ 0 := by
  rw [ne_eq, ZMod.natCast_eq_zero_iff]
  exact fun divides => Nat.not_le.2 less (Nat.le_of_dvd (Nat.pos_of_ne_zero nonzero) divides)

/-- From the two numbers `r` and `s` of a signature, the secret number is found again in terms of the private
key. -/
theorem secret_eq {k z r s d : ZMod order} (k_ne : k ≠ 0) (s_ne : s ≠ 0) (s_eq : s = k⁻¹ * (z + r * d)) :
    z * s⁻¹ + r * s⁻¹ * d = k := by
  have solved : z + r * d = k * s := by rw [s_eq, mul_inv_cancel_left₀ k_ne]
  calc z * s⁻¹ + r * s⁻¹ * d = (z + r * d) * s⁻¹ := by ring
    _ = k := by rw [solved, mul_inv_cancel_right₀ s_ne]

/-- A multiple of the generator and one of a public key add up to a multiple of the generator. -/
theorem add_mul_point (key : PrivateKey) (u₁ u₂ : Nat) :
    Point.add (Point.mul u₁ Point.generator) (Point.mul u₂ key.point) =
      ofCurve ((u₁ + u₂ * key.scalar) • base) := by
  rw [mul_generator, key.point_eq, ← ofCurve_nsmul, ← ofCurve_add, smul_smul, ← add_nsmul]

/-! ### Signatures -/

section

variable (key : PrivateKey) (message : Octets)

/-- The point that a signature of a key is checked with is that of the secret number. -/
theorem add_mul_sign (nonzero : (sign key message).s ≠ 0) :
    Point.add
        (Point.mul (messageNumber message * Modular.inverse order (sign key message).s % order) Point.generator)
        (Point.mul ((sign key message).r * Modular.inverse order (sign key message).s % order) key.point) =
      Point.mul (secretFor key (messageNumber message)) Point.generator := by
  obtain ⟨-, s_lt⟩ := sign_lt_order key message
  obtain ⟨positive, less⟩ := secretFor_inRange key (messageNumber message)
  have s_eq : ((sign key message).s : ZMod order) =
      (secretFor key (messageNumber message) : ZMod order)⁻¹ *
        (messageNumber message + (sign key message).r * key.scalar) := by
    have s_mod : (sign key message).s = Modular.inverse order (secretFor key (messageNumber message)) *
        (messageNumber message + (sign key message).r * key.scalar) % order := rfl
    rw [s_mod, ZMod.natCast_mod, Nat.cast_mul, Modular.cast_inverse less, Nat.cast_add, Nat.cast_mul]
  rw [add_mul_point, mul_generator, ofCurve_injective.eq_iff, nsmul_base_inj, Nat.cast_add, Nat.cast_mul,
    ZMod.natCast_mod, ZMod.natCast_mod, Nat.cast_mul, Nat.cast_mul, Modular.cast_inverse s_lt]
  exact secret_eq (cast_ne_zero (Nat.ne_of_gt positive) less) (cast_ne_zero nonzero s_lt) s_eq

/-- A signature whose second number is not zero holds under the public half of the key. -/
theorem verify_sign (nonzero : (sign key message).s ≠ 0) :
    verify key.point message (sign key message) = true := by
  obtain ⟨positive, less⟩ := secretFor_inRange key (messageNumber message)
  obtain ⟨x, y, point, -⟩ := exists_mul_generator positive less
  have r_eq : (sign key message).r =
      xModOrder (Point.mul (secretFor key (messageNumber message)) Point.generator) := rfl
  simp only [verify, add_mul_sign key message nonzero]
  rw [Bool.and_eq_true, bne_iff_ne, beq_iff_eq, r_eq]
  refine ⟨?_, rfl⟩
  rw [point]
  nofun

/-- For every key and message: the octets of the signature are accepted under the public half of the key exactly
if none of its two numbers is zero. -/
theorem accepts_sign_iff :
    Accepts key.point message (sign key message).encode ↔
      (sign key message).r ≠ 0 ∧ (sign key message).s ≠ 0 := by
  obtain ⟨r_lt, s_lt⟩ := sign_lt_order key message
  rw [Accepts, Signature.decode_encode r_lt s_lt]
  constructor
  · rintro ⟨σ, decoded, -⟩
    exact (Option.ite_none_right_eq_some.1 decoded).1
  · intro nonzero
    exact ⟨_, if_pos nonzero, verify_sign key message nonzero.2⟩

end

end SecureElement.Crypto.Ecdsa
