import Mathlib.Tactic.Linarith
import SecureElement.Proofs.Der.Values

/-!
Integers in two's complement.

The first octet of a row counts from -128 to 127 and the later ones from 0 to 255 (`signed`), so that an
integer is spelled by many rows of octets, of which one is the shortest (`Shortest.unique`). The content of
an integer in DER is the shortest row of its integer, and every shortest row is such a content
(`shortest_iff`); `ofNat` writes it (`shortest_ofNat`).
-/

namespace SecureElement.Der.Integer

/-- What an octet counts if it is the first one. -/
def leading (b : UInt8) : Int :=
  if b < 0x80 then b.toNat else b.toNat - 256

/-- The integer that octets spell in two's complement. -/
def signed : Octets → Int
  | [] => 0
  | b :: rest => leading b * 256 ^ rest.length + Octets.toNat rest

/-- Octets that spell an integer, if no fewer ones do. -/
structure Shortest (content : Octets) (n : Int) : Prop where
  some : content ≠ []
  value : signed content = n
  least : ∀ other : Octets, other ≠ [] → signed other = n → content.length ≤ other.length

/-! ### First octets -/

theorem leading_bounds (b : UInt8) : -128 ≤ leading b ∧ leading b ≤ 127 := by
  have bound := b.toNat_lt
  unfold leading
  split
  · next low =>
      have small : b.toNat < 128 := UInt8.lt_iff_toNat_lt.1 low
      omega
  · next high =>
      have large : 128 ≤ b.toNat := UInt8.le_iff_toNat_le.1 (UInt8.not_lt.1 high)
      omega

theorem leading_of_low {b : UInt8} (low : b < 0x80) : leading b = b.toNat :=
  if_pos low

theorem leading_of_high {b : UInt8} (high : ¬ b < 0x80) : leading b = b.toNat - 256 :=
  if_neg high

theorem leading_nonneg_iff {b : UInt8} : 0 ≤ leading b ↔ b < 0x80 := by
  have bound := b.toNat_lt
  constructor
  · intro nonneg
    by_contra high
    rw [leading_of_high high] at nonneg
    omega
  · intro low
    rw [leading_of_low low]
    exact Int.natCast_nonneg _

theorem leading_injective {a b : UInt8} (same : leading a = leading b) : a = b := by
  have first := a.toNat_lt
  have second := b.toNat_lt
  apply UInt8.toNat_inj.1
  by_cases low : a < 0x80
  · have other : b < 0x80 := leading_nonneg_iff.1 (same ▸ leading_nonneg_iff.2 low)
    rw [leading_of_low low, leading_of_low other] at same
    exact Int.natCast_inj.1 same
  · have other : ¬ b < 0x80 := fun h => low (leading_nonneg_iff.1 (same ▸ leading_nonneg_iff.2 h))
    rw [leading_of_high low, leading_of_high other] at same
    omega

/-! ### Rows of a length -/

/-- What the octets after the first one add is less than what the first one counts by. -/
theorem toNat_cast_lt (rest : Octets) : (Octets.toNat rest : Int) < 256 ^ rest.length := by
  exact_mod_cast Octets.toNat_lt rest

theorem signed_of_low {b : UInt8} {rest : Octets} (low : b < 0x80) :
    signed (b :: rest) = Octets.toNat (b :: rest) := by
  rw [signed, leading_of_low low, Octets.toNat_cons]
  push_cast
  rfl

/-- The integers that octets of one number spell lie in half their range on either side of zero. -/
theorem signed_bounds (b : UInt8) (rest : Octets) :
    -(128 * 256 ^ rest.length) ≤ signed (b :: rest) ∧ signed (b :: rest) < 128 * 256 ^ rest.length := by
  obtain ⟨least, greatest⟩ := leading_bounds b
  have power : (0 : Int) < 256 ^ rest.length := by positivity
  have lower := Int.mul_le_mul_of_nonneg_right least power.le
  have upper := Int.mul_le_mul_of_nonneg_right greatest power.le
  have later := toNat_cast_lt rest
  rw [signed]
  omega

/-- Octets of one number spell different integers. -/
theorem eq_of_signed {a b : Octets} (length : a.length = b.length) (same : signed a = signed b) :
    a = b := by
  cases a with
  | nil => exact (List.length_eq_zero_iff.1 length.symm).symm
  | cons x rest =>
      cases b with
      | nil => cases length
      | cons y later =>
          have tails : rest.length = later.length := Nat.succ.inj length
          have power : (0 : Int) < 256 ^ later.length := by positivity
          have first := toNat_cast_lt rest
          have second := toNat_cast_lt later
          rw [tails] at first
          simp only [signed, tails] at same
          have heads : leading x = leading y := by
            rcases Int.lt_trichotomy (leading x) (leading y) with less | equal | more
            · have product := Int.mul_le_mul_of_nonneg_right (Int.add_one_le_of_lt less) power.le
              rw [Int.add_mul] at product
              omega
            · exact equal
            · have product := Int.mul_le_mul_of_nonneg_right (Int.add_one_le_of_lt more) power.le
              rw [Int.add_mul] at product
              omega
          rw [heads] at same
          have values : Octets.toNat rest = Octets.toNat later := by omega
          rw [leading_injective heads, ← Octets.ofNat_toNat rest, ← Octets.ofNat_toNat later, values, tails]

/-! ### Shortest rows -/

/-- Of the rows that spell an integer one is the shortest. -/
theorem Shortest.unique {a b : Octets} {n : Int} (first : Shortest a n) (second : Shortest b n) :
    a = b := by
  have shorter := first.least b second.some second.value
  have longer := second.least a first.some first.value
  exact eq_of_signed (Nat.le_antisymm shorter longer) (first.value.trans second.value.symm)

theorem isInteger_cons_cons_iff {a b : UInt8} {rest : Octets} :
    isInteger (a :: b :: rest) = true ↔ ¬ (a = 0x00 ∧ b < 0x80 ∨ a = 0xFF ∧ 0x80 ≤ b) := by
  rw [isInteger, Bool.not_eq_true', ← Bool.not_eq_true, Bool.or_eq_true, Bool.and_eq_true,
    Bool.and_eq_true, beq_iff_eq, beq_iff_eq, decide_eq_true_iff, decide_eq_true_iff]

/-- A first octet that only repeats the sign of the second one can be done without. -/
theorem signed_eq_tail {a b : UInt8} {rest : Octets}
    (repeats : a = 0x00 ∧ b < 0x80 ∨ a = 0xFF ∧ 0x80 ≤ b) :
    signed (a :: b :: rest) = signed (b :: rest) := by
  rcases repeats with ⟨rfl, low⟩ | ⟨rfl, high⟩
  · rw [signed_of_low low, signed_of_low (by decide), Octets.toNat_zero_cons]
  · have first : leading 0xFF = -1 := by decide
    rw [signed, signed, first, leading_of_high (UInt8.not_lt.2 high), Octets.toNat_cons,
      List.length_cons, pow_succ]
    push_cast
    ring

/-- Content of more than one octet spells an integer for which one octet fewer has no room. -/
theorem signed_not_bounded {a b : UInt8} {rest : Octets} (integer : isInteger (a :: b :: rest) = true) :
    signed (a :: b :: rest) < -(128 * 256 ^ rest.length) ∨
      128 * 256 ^ rest.length ≤ signed (a :: b :: rest) := by
  have power : (0 : Int) < 256 ^ rest.length := by positivity
  have later := toNat_cast_lt rest
  have octet : (b.toNat : Int) ≤ 255 := by
    have := b.toNat_lt
    omega
  have second_nonneg : (0 : Int) ≤ b.toNat * 256 ^ rest.length := by positivity
  have second := Int.mul_le_mul_of_nonneg_right octet power.le
  have whole : signed (a :: b :: rest) =
      leading a * (256 * 256 ^ rest.length) + (b.toNat * 256 ^ rest.length + Octets.toNat rest) := by
    rw [signed, Octets.toNat_cons, List.length_cons, pow_succ]
    push_cast
    ring
  rw [whole]
  rcases Int.lt_trichotomy 0 (leading a) with positive | zero | negative
  · have product := Int.mul_le_mul_of_nonneg_right (Int.add_one_le_of_lt positive)
      (show (0 : Int) ≤ 256 * 256 ^ rest.length by omega)
    right
    omega
  · -- The second octet has the top bit set, for a zero in front of it to be needed.
    have first : a = 0x00 := leading_injective (zero.symm.trans (by decide))
    have high : ¬ b < 0x80 := fun low => isInteger_cons_cons_iff.1 integer (.inl ⟨first, low⟩)
    have large : (128 : Int) ≤ b.toNat := by
      exact_mod_cast UInt8.le_iff_toNat_le.1 (UInt8.not_lt.1 high)
    have product := Int.mul_le_mul_of_nonneg_right large power.le
    right
    rw [← zero]
    omega
  · by_cases least : leading a = -1
    · -- Nor has it here, for the sign would be the same without the octet in front of it.
      have first : a = 0xFF := leading_injective (least.trans (by decide))
      have low : b < 0x80 := by
        by_contra high
        exact isInteger_cons_cons_iff.1 integer (.inr ⟨first, UInt8.not_lt.1 high⟩)
      have small : (b.toNat : Int) ≤ 127 := by
        have := UInt8.lt_iff_toNat_lt.1 low
        exact_mod_cast Nat.le_of_lt_succ this
      have product := Int.mul_le_mul_of_nonneg_right small power.le
      left
      rw [least]
      omega
    · have product := Int.mul_le_mul_of_nonneg_right (show leading a ≤ -2 by omega)
        (show (0 : Int) ≤ 256 * 256 ^ rest.length by omega)
      left
      omega

/-- The shortest rows are the contents of integers. -/
theorem shortest_iff {content : Octets} {n : Int} :
    Shortest content n ↔ isInteger content = true ∧ signed content = n := by
  constructor
  · intro shortest
    refine ⟨?_, shortest.value⟩
    match content, shortest with
    | [], shortest => exact absurd rfl shortest.some
    | [_], _ => rfl
    | a :: b :: rest, shortest =>
        by_contra other
        have repeats := not_not.1 (mt isInteger_cons_cons_iff.2 other)
        have fewer := shortest.least (b :: rest) (List.cons_ne_nil _ _)
          ((signed_eq_tail repeats).symm.trans shortest.value)
        simp at fewer
  · rintro ⟨integer, value⟩
    refine ⟨?_, value, ?_⟩
    · rintro rfl
      cases integer
    · intro other some same
      match content, integer with
      | [_], _ => exact List.length_pos_iff.2 some
      | a :: b :: rest, integer =>
          by_contra fewer
          obtain ⟨x, later, rfl⟩ := List.exists_cons_of_ne_nil some
          have short : later.length ≤ rest.length := by
            simp only [List.length_cons] at fewer
            omega
          have room : (256 : Int) ^ later.length ≤ 256 ^ rest.length :=
            pow_le_pow_right₀ (by decide) short
          have bounds := signed_bounds x later
          have outside := signed_not_bounded integer
          rw [value, ← same] at outside
          omega

theorem signed_of_toNat? {content : Octets} {n : Nat} (found : toNat? content = some n) :
    signed content = n := by
  cases content with
  | nil => cases found
  | cons b rest =>
      simp only [toNat?, Option.ite_none_right_eq_some, Option.some.injEq] at found
      obtain ⟨⟨-, low⟩, value⟩ := found
      rw [signed_of_low low, value]

/-- The content of a number spells it. -/
theorem shortest_ofNat (n : Nat) : Shortest (ofNat n) n :=
  shortest_iff.2 ⟨isInteger_ofNat n, signed_of_toNat? (toNat?_ofNat n)⟩

end SecureElement.Der.Integer
