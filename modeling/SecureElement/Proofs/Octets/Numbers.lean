import Mathlib.Algebra.Group.Nat.Defs
import Mathlib.Data.List.Induction
import Mathlib.Tactic.Ring
import SecureElement.Octets
import SecureElement.Proofs.Octets.Trim

/-!
Numbers in octets.

A number that fits a width is read back from the octets of that width, and from its minimal ones
(`toNat_ofNat`, `toNat_ofNatMinimal`); octets are read back from their number and their width
(`ofNat_toNat`). The minimal octets begin with one that is not zero, and are the only ones of their number
that do (`eq_of_toNat`), so that they are what octets are without the zeros in front (`ofNatMinimal_toNat`).
-/

namespace SecureElement.Octets

theorem toNat_append_singleton (bytes : Octets) (b : UInt8) :
    toNat (bytes ++ [b]) = toNat bytes * 256 + b.toNat := by
  simp [toNat]

theorem toNat_zero_cons (bytes : Octets) : toNat (0 :: bytes) = toNat bytes := rfl

theorem toNat_cons (b : UInt8) (rest : Octets) :
    toNat (b :: rest) = b.toNat * 256 ^ rest.length + toNat rest := by
  induction rest using List.reverseRecOn with
  | nil => simp [toNat]
  | append_singleton front c ih =>
      rw [← List.cons_append, toNat_append_singleton, ih, toNat_append_singleton, List.length_append,
        List.length_singleton, Nat.pow_succ]
      ring

theorem toNat_dropWhile_zero (bytes : Octets) : toNat (bytes.dropWhile (· == 0)) = toNat bytes := by
  induction bytes with
  | nil => rfl
  | cons b rest ih =>
      by_cases zero : b = 0
      · subst zero
        rw [toNat_zero_cons]
        exact ih
      · rw [List.dropWhile_cons_of_neg (by simpa using zero)]

theorem length_ofNat (width n : Nat) : (ofNat width n).length = width := by
  induction width generalizing n with
  | zero => rfl
  | succ width ih => rw [ofNat, List.length_append, ih, List.length_singleton]

/-- A number that fits the width is read back. -/
theorem toNat_ofNat {width n : Nat} (fits : n < 256 ^ width) : toNat (ofNat width n) = n := by
  induction width generalizing n with
  | zero =>
      have none : n = 0 := by simpa using fits
      subst none
      rfl
  | succ width ih =>
      have less : n / 256 < 256 ^ width := by
        rw [Nat.div_lt_iff_lt_mul (by decide), ← Nat.pow_succ]
        exact fits
      rw [ofNat, toNat_append_singleton, ih less, UInt8.toNat_ofNat']
      omega

theorem toNat_lt (bytes : Octets) : toNat bytes < 256 ^ bytes.length := by
  induction bytes using List.reverseRecOn with
  | nil => decide
  | append_singleton front b ih =>
      have bound := b.toNat_lt
      rw [toNat_append_singleton, List.length_append, List.length_singleton, Nat.pow_succ]
      omega

/-- Octets are those of the number that they spell. -/
theorem ofNat_toNat (bytes : Octets) : ofNat bytes.length (toNat bytes) = bytes := by
  induction bytes using List.reverseRecOn with
  | nil => rfl
  | append_singleton front b ih =>
      have bound := b.toNat_lt
      have quotient : (toNat front * 256 + b.toNat) / 256 = toNat front := by omega
      have last : UInt8.ofNat (toNat front * 256 + b.toNat) = b := by
        apply UInt8.toNat_inj.1
        rw [UInt8.toNat_ofNat']
        omega
      rw [toNat_append_singleton, List.length_append, List.length_singleton, ofNat, quotient, last, ih]

theorem eq_replicate_of_toNat {bytes : Octets} (zero : toNat bytes = 0) :
    bytes = List.replicate bytes.length 0 := by
  induction bytes using List.reverseRecOn with
  | nil => rfl
  | append_singleton front b ih =>
      rw [toNat_append_singleton] at zero
      have last : b = 0 := UInt8.toNat_inj.1 (by simp only [UInt8.toNat_zero]; omega)
      subst last
      rw [List.length_append, List.length_singleton, List.replicate_succ', ← ih (by omega)]

/-! ### Minimal octets -/

theorem lt_pow_log2 (n : Nat) : n < 256 ^ (Nat.log2 n / 8 + 1) := by
  have whole : (256 : Nat) ^ (Nat.log2 n / 8 + 1) = 2 ^ (8 * (Nat.log2 n / 8 + 1)) := by
    rw [Nat.pow_mul]
  rw [whole]
  refine Nat.lt_of_lt_of_le Nat.lt_log2_self (Nat.pow_le_pow_right (by decide) ?_)
  omega

/-- A number is read back from its minimal octets. -/
theorem toNat_ofNatMinimal (n : Nat) : toNat (ofNatMinimal n) = n := by
  rw [ofNatMinimal, toNat_dropWhile_zero, toNat_ofNat (lt_pow_log2 n)]

theorem ofNatMinimal_ne_nil {n : Nat} (pos : n ≠ 0) : ofNatMinimal n ≠ [] := by
  intro none
  apply pos
  rw [← toNat_ofNatMinimal n, none]
  rfl

theorem head?_ofNatMinimal (n : Nat) : ∀ b ∈ (ofNatMinimal n).head?, b ≠ 0 := by
  intro b member
  simpa using Text.head_dropWhile b member

/-- Octets that begin with one that is not zero are as few as their number needs. -/
theorem length_le_of_toNat_lt {bytes : Octets} {width : Nat} (head : ∀ b ∈ bytes.head?, b ≠ 0)
    (fits : toNat bytes < 256 ^ width) : bytes.length ≤ width := by
  cases bytes with
  | nil => exact Nat.zero_le _
  | cons b rest =>
      have other : b ≠ 0 := head b rfl
      have first : 1 ≤ b.toNat := by
        rw [Nat.one_le_iff_ne_zero]
        intro zero
        exact other (UInt8.toNat_inj.1 zero)
      have least : 1 * 256 ^ rest.length ≤ b.toNat * 256 ^ rest.length := Nat.mul_le_mul_right _ first
      rw [toNat_cons] at fits
      have less : 256 ^ rest.length < 256 ^ width := by omega
      exact (Nat.pow_lt_pow_iff_right (by decide)).1 less

theorem length_ofNatMinimal_le {n width : Nat} (fits : n < 256 ^ width) :
    (ofNatMinimal n).length ≤ width :=
  length_le_of_toNat_lt (head?_ofNatMinimal n) (by rwa [toNat_ofNatMinimal])

/-- Octets that begin with one that is not zero are the only ones of their number. -/
theorem eq_of_toNat {a b : Octets} (first : ∀ x ∈ a.head?, x ≠ 0) (second : ∀ x ∈ b.head?, x ≠ 0)
    (same : toNat a = toNat b) : a = b := by
  have shorter : a.length ≤ b.length := length_le_of_toNat_lt first (same ▸ toNat_lt b)
  have longer : b.length ≤ a.length := length_le_of_toNat_lt second (same ▸ toNat_lt a)
  have length : a.length = b.length := Nat.le_antisymm shorter longer
  rw [← ofNat_toNat a, ← ofNat_toNat b, same, length]

/-- The minimal octets of the number of octets are these without the zeros in front. -/
theorem ofNatMinimal_toNat (bytes : Octets) : ofNatMinimal (toNat bytes) = bytes.dropWhile (· == 0) := by
  refine eq_of_toNat (head?_ofNatMinimal _) ?_ ?_
  · intro b member
    simpa using Text.head_dropWhile b member
  · rw [toNat_ofNatMinimal, toNat_dropWhile_zero]

/-- Octets that spell a number other than zero have a first one that is not zero. -/
theorem exists_first_of_toNat {bytes : Octets} (nonzero : toNat bytes ≠ 0) :
    ∃ zeros b rest, bytes = List.replicate zeros 0 ++ b :: rest ∧ b ≠ 0 := by
  induction bytes with
  | nil => exact absurd rfl nonzero
  | cons b rest ih =>
      by_cases zero : b = 0
      · subst zero
        obtain ⟨zeros, c, later, rfl, other⟩ := ih nonzero
        exact ⟨zeros + 1, c, later, rfl, other⟩
      · exact ⟨0, b, rest, rfl, zero⟩

theorem dropWhile_zeros (zeros : Nat) {b : UInt8} {rest : Octets} (other : b ≠ 0) :
    (List.replicate zeros 0 ++ b :: rest).dropWhile (· == 0) = b :: rest := by
  apply Text.dropWhile_append_of_head
  · intro x member
    rw [List.eq_of_mem_replicate member]
    rfl
  · rintro x ⟨⟩
    simpa using other

end SecureElement.Octets
