import Mathlib.Algebra.Group.Nat.Defs
import Mathlib.Data.List.Basic
import Mathlib.Data.List.Induction
import SecureElement.Text.Decimal

/-!
Decimal numerals are read back.

A numeral of a fixed width is read as the number modulo a power of ten (`parse?_fixed`), and no other numeral
of this width is (`fixed_of_parse?`). A numeral without leading zeros is read as the number
(`parse?_repr`).
-/

namespace SecureElement.Decimal

/-! ### Numerals of a fixed width -/

theorem length_fixed (width n : Nat) : (fixed width n).length = width := by
  induction width generalizing n with
  | zero => rfl
  | succ width ih => rw [fixed, List.length_append, ih, List.length_singleton]

/-- A digit of a numeral. -/
def digit (n : Nat) : Char := Char.ofNat ('0'.toNat + n % 10)

theorem digit_spec (n : Nat) :
    isDigit (digit n) = true ∧ (digit n).toNat - '0'.toNat = n % 10 ∧ (digit n).toNat < 128 := by
  have every : ∀ k : Fin 10, isDigit (Char.ofNat ('0'.toNat + k.val)) = true ∧
      (Char.ofNat ('0'.toNat + k.val)).toNat - '0'.toNat = k.val ∧
      (Char.ofNat ('0'.toNat + k.val)).toNat < 128 := by decide
  exact every ⟨n % 10, Nat.mod_lt _ (by decide)⟩

theorem mem_fixed {width n : Nat} {c : Char} (member : c ∈ fixed width n) :
    isDigit c = true ∧ c.toNat < 128 := by
  induction width generalizing n with
  | zero => cases member
  | succ width ih =>
      rcases List.mem_append.1 member with front | last
      · exact ih front
      · obtain rfl := List.mem_singleton.1 last
        exact ⟨(digit_spec n).1, (digit_spec n).2.2⟩

theorem valueOfDigits_fixed (width n : Nat) : valueOfDigits (fixed width n) = n % 10 ^ width := by
  induction width generalizing n with
  | zero => exact (Nat.mod_one n).symm
  | succ width ih =>
      have last : (digit n).toNat - '0'.toNat = n % 10 := (digit_spec n).2.1
      have front := ih (n / 10)
      have cut : valueOfDigits (fixed (width + 1) n) =
          valueOfDigits (fixed width (n / 10)) * 10 + ((digit n).toNat - '0'.toNat) := by
        rw [fixed, valueOfDigits, List.foldl_append]
        rfl
      rw [cut, front, last, Nat.pow_succ, Nat.mul_comm (10 ^ width) 10, Nat.mod_mul]
      omega

/-- A numeral of a fixed width is read back modulo a power of ten. -/
theorem parse?_fixed {width : Nat} (pos : 0 < width) (n : Nat) :
    parse? (fixed width n) = some (n % 10 ^ width) := by
  have some : fixed width n ≠ [] := by
    intro none
    have := length_fixed width n
    rw [none, List.length_nil] at this
    omega
  have digits : (fixed width n).all isDigit = true :=
    List.all_eq_true.2 fun c member => (mem_fixed member).1
  rw [parse?, if_pos ⟨some, digits⟩, valueOfDigits_fixed]

theorem toNat_of_isDigit {c : Char} (digit : isDigit c = true) : 48 ≤ c.toNat ∧ c.toNat ≤ 57 := by
  simp only [isDigit, Bool.and_eq_true, decide_eq_true_eq, Char.le_def, UInt32.le_iff_toNat_le] at digit
  exact digit

/-- A numeral is written again as it was read. -/
theorem fixed_valueOfDigits {cs : List Char} (digits : cs.all isDigit = true) :
    fixed cs.length (valueOfDigits cs) = cs := by
  induction cs using List.reverseRecOn with
  | nil => rfl
  | append_singleton front c ih =>
      simp only [List.all_append, Bool.and_eq_true, List.all_cons, List.all_nil, and_true] at digits
      obtain ⟨low, high⟩ := toNat_of_isDigit digits.2
      have value : valueOfDigits (front ++ [c]) = valueOfDigits front * 10 + (c.toNat - 48) := by
        rw [valueOfDigits, List.foldl_append]
        rfl
      have quotient : (valueOfDigits front * 10 + (c.toNat - 48)) / 10 = valueOfDigits front := by
        omega
      have last : '0'.toNat + (valueOfDigits front * 10 + (c.toNat - 48)) % 10 = c.toNat := by
        show 48 + _ = _
        omega
      rw [value, List.length_append, List.length_singleton, fixed, quotient, ih digits.1, last,
        Char.ofNat_toNat]

theorem fixed_of_parse? {cs : List Char} {n : Nat} (found : parse? cs = some n) :
    fixed cs.length n = cs := by
  unfold parse? at found
  obtain ⟨⟨-, digits⟩, value⟩ := Option.ite_none_right_eq_some.1 found
  cases value
  exact fixed_valueOfDigits digits

/-! ### Numerals without leading zeros -/

/-- A digit that is written for a number below ten is a digit, and has its value. -/
theorem digitChar_spec {n : Nat} (small : n < 10) :
    isDigit n.digitChar = true ∧ n.digitChar.toNat - '0'.toNat = n := by
  have every : ∀ n : Fin 10, isDigit n.val.digitChar = true ∧
      n.val.digitChar.toNat - '0'.toNat = n.val := by decide
  exact every ⟨n, small⟩

/-- The digits of a number are digits, have its value, and begin with zero for zero only. -/
theorem toDigits_spec (n : Nat) :
    (∀ c ∈ Nat.toDigits 10 n, isDigit c = true) ∧ valueOfDigits (Nat.toDigits 10 n) = n ∧
      Nat.toDigits 10 n ≠ [] ∧ ((Nat.toDigits 10 n).head? = some '0' → n = 0) := by
  induction n using Nat.strongRecOn with
  | _ n ih =>
      rw [Nat.toDigits_eq_if (by decide)]
      split
      case isTrue small =>
        obtain ⟨digit, value⟩ := digitChar_spec small
        refine ⟨by simp [digit], ?_, by simp, by simp⟩
        rw [valueOfDigits, List.foldl_cons, List.foldl_nil, value]
        omega
      case isFalse great =>
        obtain ⟨digits, value, some, zero⟩ := ih (n / 10) (by omega)
        obtain ⟨digit, last⟩ := digitChar_spec (Nat.mod_lt n (by decide : 10 > 0))
        refine ⟨?_, ?_, by simp, ?_⟩
        · intro c member
          rcases List.mem_append.1 member with early | late
          · exact digits c early
          · rw [List.mem_singleton.1 late]
            exact digit
        · rw [valueOfDigits] at value ⊢
          rw [List.foldl_append, value, List.foldl_cons, List.foldl_nil, last]
          omega
        · intro head
          rw [List.head?_append_of_ne_nil _ some] at head
          have := zero head
          omega

theorem isDigit_of_mem_repr {n : Nat} {c : Char} (member : c ∈ n.repr.toList) : isDigit c = true := by
  rw [Nat.repr_eq_ofList_toDigits, String.toList_ofList] at member
  exact (toDigits_spec n).1 c member

/-- A number is read back from its numeral. -/
theorem parse?_repr (n : Nat) : parse? n.repr.toList = some n := by
  obtain ⟨-, value, some, -⟩ := toDigits_spec n
  have digits : n.repr.toList.all isDigit = true :=
    List.all_eq_true.2 fun _ member => isDigit_of_mem_repr member
  rw [Nat.repr_eq_ofList_toDigits, String.toList_ofList] at digits ⊢
  rw [parse?, if_pos ⟨some, digits⟩, value]

end SecureElement.Decimal
