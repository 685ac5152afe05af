import SecureElement.Octets.Hex
import SecureElement.Text.Blank

/-!
Hexadecimal text is read back as the octets that it was written for, and holds no white space. Digits of
either case spell the octets whose upper-case text they are in upper case (`decode_eq_some_iff`), and the
number of these octets is the value of the digits (`value?_of_decode`).
-/

namespace SecureElement.Hex

/-- A digit is one of sixteen characters; what holds of each of them holds of it. -/
theorem upperDigit_spec {n : Nat} (small : n < 16) :
    digitValue? (upperDigit n) = some n ∧
      Octets.isAsciiBlank (UInt8.ofNat (upperDigit n).toNat) = false := by
  have every : ∀ n : Fin 16, digitValue? (upperDigit n.val) = some n.val ∧
      Octets.isAsciiBlank (UInt8.ofNat (upperDigit n.val).toNat) = false := by decide
  exact every ⟨n, small⟩

theorem mem_encodeWith {digit : Nat → Char} {bytes : Octets} {c : Char}
    (member : c ∈ encodeWith digit bytes) : ∃ n, n < 16 ∧ c = digit n := by
  simp only [encodeWith, List.mem_flatMap, List.mem_cons, List.not_mem_nil, or_false] at member
  obtain ⟨b, -, rfl | rfl⟩ := member
  · have bound := b.toNat_lt
    exact ⟨_, by omega, rfl⟩
  · exact ⟨_, Nat.mod_lt _ (by decide), rfl⟩

theorem length_encodeWith (digit : Nat → Char) (bytes : Octets) :
    (encodeWith digit bytes).length = 2 * bytes.length := by
  induction bytes with
  | nil => rfl
  | cons b rest ih =>
      rw [encodeWith] at ih ⊢
      rw [List.flatMap_cons, List.length_append, ih, List.length_cons]
      simp only [List.length_cons, List.length_nil]
      omega

theorem mem_encodeUpper {bytes : Octets} {c : Char} (member : c ∈ (encodeUpper bytes).toList) :
    ∃ n, n < 16 ∧ c = upperDigit n := by
  rw [encodeUpper, String.toList_ofList] at member
  exact mem_encodeWith member

/-- Lower-case text consists of the sixteen digits, two for each octet. -/
theorem encodeLower_digits (bytes : Octets) : (encodeLower bytes).toList.length = 2 * bytes.length ∧
    ∀ c ∈ (encodeLower bytes).toList, c ∈ "0123456789abcdef".toList := by
  rw [encodeLower, String.toList_ofList]
  refine ⟨length_encodeWith _ _, fun c member => ?_⟩
  obtain ⟨n, small, rfl⟩ := mem_encodeWith member
  have every : ∀ n : Fin 16, lowerDigit n.val ∈ "0123456789abcdef".toList := by decide
  exact every ⟨n, small⟩

/-- Upper-case text consists of the sixteen digits, two for each octet. -/
theorem encodeUpper_digits (bytes : Octets) : (encodeUpper bytes).toList.length = 2 * bytes.length ∧
    ∀ c ∈ (encodeUpper bytes).toList, c ∈ "0123456789ABCDEF".toList := by
  have every : ∀ n : Fin 16, upperDigit n.val ∈ "0123456789ABCDEF".toList := by decide
  refine ⟨?_, fun c member => ?_⟩
  · rw [encodeUpper, String.toList_ofList, length_encodeWith]
  · obtain ⟨n, small, rfl⟩ := mem_encodeUpper member
    exact every ⟨n, small⟩

theorem encodeUpper_plain (bytes : Octets) :
    ∀ c ∈ (encodeUpper bytes).toList, Octets.isAsciiBlank (UInt8.ofNat c.toNat) = false := by
  intro c member
  obtain ⟨n, small, rfl⟩ := mem_encodeUpper member
  exact (upperDigit_spec small).2

/-- The octets are read back from their text. -/
theorem decode_encodeUpper (bytes : Octets) : decode (encodeUpper bytes).toList = some bytes := by
  rw [encodeUpper, String.toList_ofList, encodeWith]
  induction bytes with
  | nil => rfl
  | cons b rest ih =>
      have bound := b.toNat_lt
      have high := (upperDigit_spec (show b.toNat / 16 < 16 by omega)).1
      have low := (upperDigit_spec (show b.toNat % 16 < 16 by omega)).1
      have whole : b.toNat / 16 * 16 + b.toNat % 16 = b.toNat := Nat.div_add_mod' _ _
      rw [List.flatMap_cons, List.cons_append, List.singleton_append, decode, high, low]
      simp only [Option.bind_eq_bind, Option.bind_some]
      rw [ih, whole, UInt8.ofNat_toNat]
      rfl

theorem length_of_decode {digits : List Char} {bytes : Octets} (found : decode digits = some bytes) :
    digits.length = 2 * bytes.length := by
  fun_induction decode digits generalizing bytes with
  | case1 =>
      cases found
      rfl
  | case2 => cases found
  | case3 high low rest ih =>
      simp only [Option.bind_eq_bind, Option.bind_eq_some_iff, Option.some.injEq] at found
      obtain ⟨h, -, l, -, tail, read, rfl⟩ := found
      have := ih read
      simp only [List.length_cons]
      omega

/-! ### Digits of either case -/

theorem ascii_of_isDigit {c : Char} (digit : isDigit c = true) : c.toNat < 128 := by
  simp only [isDigit, digitValue?, Char.le_def, UInt32.le_iff_toNat_le] at digit
  split at digit
  case isTrue decimal => exact Nat.lt_of_le_of_lt decimal.2 (by decide)
  case isFalse =>
    split at digit
    case isTrue lower => exact Nat.lt_of_le_of_lt lower.2 (by decide)
    case isFalse =>
      split at digit
      case isTrue upper => exact Nat.lt_of_le_of_lt upper.2 (by decide)
      case isFalse => cases digit

theorem ascii_of_toUpper {c : Char} {n : Nat} (small : n < 16) (upper : c.toUpper = upperDigit n) :
    c.toNat < 128 := by
  have ascii : ∀ n : Fin 16, (upperDigit n.val).toNat < 128 := by decide
  have bound := ascii ⟨n, small⟩
  rw [← upper] at bound
  by_cases lower : 97 ≤ c.val.toNat ∧ c.val.toNat ≤ 122
  · have := lower.2
    change c.val.toNat < 128
    omega
  · have kept : c.toUpper = c := by
      unfold Char.toUpper
      rw [dif_neg]
      intro h
      apply lower
      exact ⟨by simpa [UInt32.le_iff_toNat_le] using h.1, by simpa [UInt32.le_iff_toNat_le] using h.2⟩
    rwa [kept] at bound

/-- A digit has the value whose upper-case digit it is in upper case. -/
theorem digitValue?_eq_some_iff {c : Char} {n : Nat} :
    digitValue? c = some n ↔ n < 16 ∧ c.toUpper = upperDigit n := by
  have every : ∀ k : Fin 128, (∀ n ∈ digitValue? (Char.ofNat k.val), n < 16) ∧ ∀ n : Fin 16,
      (digitValue? (Char.ofNat k.val) = some n.val ↔
        (Char.ofNat k.val).toUpper = upperDigit n.val) := by decide
  constructor
  · intro value
    have ascii := ascii_of_isDigit (show isDigit c = true by rw [isDigit, value]; rfl)
    obtain ⟨small, same⟩ := every ⟨c.toNat, ascii⟩
    simp only [Char.ofNat_toNat] at small same
    exact ⟨small n value, (same ⟨n, small n value⟩).1 value⟩
  · rintro ⟨small, upper⟩
    obtain ⟨-, same⟩ := every ⟨c.toNat, ascii_of_toUpper small upper⟩
    simp only [Char.ofNat_toNat] at same
    exact (same ⟨n, small⟩).2 upper

/-- Digits spell the octets whose upper-case text they are in upper case. -/
theorem decode_eq_some_iff {digits : List Char} {octets : Octets} :
    decode digits = some octets ↔ digits.map Char.toUpper = (encodeUpper octets).toList := by
  rw [encodeUpper, String.toList_ofList, encodeWith]
  constructor
  · intro found
    fun_induction decode digits generalizing octets with
    | case1 =>
        cases found
        rfl
    | case2 => cases found
    | case3 high low rest ih =>
        simp only [Option.bind_eq_bind, Option.bind_eq_some_iff, Option.some.injEq] at found
        obtain ⟨h, first, l, second, tail, read, rfl⟩ := found
        obtain ⟨h_small, h_upper⟩ := digitValue?_eq_some_iff.1 first
        obtain ⟨l_small, l_upper⟩ := digitValue?_eq_some_iff.1 second
        have value : (UInt8.ofNat (h * 16 + l)).toNat = h * 16 + l := by
          rw [UInt8.toNat_ofNat']
          omega
        have quotient : (h * 16 + l) / 16 = h := by omega
        have remainder : (h * 16 + l) % 16 = l := by omega
        rw [List.map_cons, List.map_cons, List.flatMap_cons, value, quotient, remainder, h_upper, l_upper,
          ih read]
        rfl
  · intro upper
    induction octets generalizing digits with
    | nil =>
        obtain rfl := List.map_eq_nil_iff.1 upper
        rfl
    | cons b octets ih =>
        have bound := b.toNat_lt
        rw [List.flatMap_cons, List.cons_append, List.singleton_append] at upper
        obtain ⟨high, digits, rfl, first, upper⟩ := List.map_eq_cons_iff.1 upper
        obtain ⟨low, digits, rfl, second, upper⟩ := List.map_eq_cons_iff.1 upper
        have h_value := digitValue?_eq_some_iff.2 ⟨show b.toNat / 16 < 16 by omega, first⟩
        have l_value := digitValue?_eq_some_iff.2 ⟨show b.toNat % 16 < 16 by omega, second⟩
        have whole : b.toNat / 16 * 16 + b.toNat % 16 = b.toNat := Nat.div_add_mod' _ _
        rw [decode, h_value, l_value]
        simp only [Option.bind_eq_bind, Option.bind_some]
        rw [ih upper, whole, UInt8.ofNat_toNat]
        rfl

/-- Digits spell octets exactly if they can be taken in pairs. -/
theorem exists_decode_iff {digits : List Char} :
    (∃ octets, decode digits = some octets) ↔
      digits.length % 2 = 0 ∧ ∀ c ∈ digits, isDigit c = true := by
  constructor
  · rintro ⟨octets, found⟩
    refine ⟨by rw [length_of_decode found]; omega, ?_⟩
    intro c member
    have upper : c.toUpper ∈ (encodeUpper octets).toList := by
      rw [← decode_eq_some_iff.1 found]
      exact List.mem_map_of_mem member
    obtain ⟨n, small, same⟩ := mem_encodeUpper upper
    rw [isDigit, digitValue?_eq_some_iff.2 ⟨small, same⟩]
    rfl
  · rintro ⟨even, all⟩
    fun_induction decode digits with
    | case1 => exact ⟨[], rfl⟩
    | case2 => cases even
    | case3 high low rest ih =>
        simp only [List.length_cons] at even
        obtain ⟨h, first⟩ := Option.isSome_iff_exists.1 (all high (by simp))
        obtain ⟨l, second⟩ := Option.isSome_iff_exists.1 (all low (by simp))
        obtain ⟨octets, read⟩ := ih (by omega) fun c member => all c (by simp [member])
        rw [first, second, read]
        exact ⟨_, rfl⟩

/-- A digit is no white space. -/
theorem isBlank_of_isDigit {c : Char} (digit : isDigit c = true) : Text.isBlank c = false := by
  have every : ∀ k : Fin 128, isDigit (Char.ofNat k.val) = true →
      Text.isBlank (Char.ofNat k.val) = false := by decide
  have plain := every ⟨c.toNat, ascii_of_isDigit digit⟩
  rw [Char.ofNat_toNat] at plain
  exact plain digit

/-! ### The value of digits -/

/-- A number with one more digit at its end. -/
def appendDigit (n : Nat) (c : Char) : Option Nat :=
  (digitValue? c).map fun digit => n * 16 + digit

/-- The number that digits denote, most significant first. -/
def value? (digits : List Char) : Option Nat :=
  digits.foldlM appendDigit 0

theorem foldlM_appendDigit {digits : List Char} {octets : Octets} (found : decode digits = some octets)
    (n : Nat) :
    digits.foldlM appendDigit n = some (octets.foldl (fun acc b => acc * 256 + b.toNat) n) := by
  fun_induction decode digits generalizing octets n with
  | case1 =>
      cases found
      rfl
  | case2 => cases found
  | case3 high low rest ih =>
      simp only [Option.bind_eq_bind, Option.bind_eq_some_iff, Option.some.injEq] at found
      obtain ⟨h, first, l, second, tail, read, rfl⟩ := found
      have h_small := (digitValue?_eq_some_iff.1 first).1
      have l_small := (digitValue?_eq_some_iff.1 second).1
      have octet : (UInt8.ofNat (h * 16 + l)).toNat = h * 16 + l := by
        rw [UInt8.toNat_ofNat']
        omega
      have both : (n * 16 + h) * 16 + l = n * 256 + (h * 16 + l) := by omega
      simp only [List.foldlM_cons, appendDigit, first, second, Option.map_some, Option.bind_eq_bind,
        Option.bind_some, List.foldl_cons, octet, both]
      exact ih read _

/-- Digits denote the number that their octets spell. -/
theorem value?_of_decode {digits : List Char} {octets : Octets} (found : decode digits = some octets) :
    value? digits = some (Octets.toNat octets) :=
  foldlM_appendDigit found 0

theorem isDigit_of_foldlM {digits : List Char} {n m : Nat}
    (found : digits.foldlM appendDigit n = some m) : ∀ c ∈ digits, isDigit c = true := by
  induction digits generalizing n with
  | nil => exact List.forall_mem_nil _
  | cons d rest ih =>
      simp only [List.foldlM_cons, Option.bind_eq_bind, Option.bind_eq_some_iff, appendDigit,
        Option.map_eq_some_iff] at found
      obtain ⟨_, ⟨digit, value, rfl⟩, later⟩ := found
      refine List.forall_mem_cons.2 ⟨?_, ih later⟩
      rw [isDigit, value]
      rfl

/-- Pairs of digits that denote a number spell its octets. -/
theorem decode_of_value? {digits : List Char} {n : Nat} (even : digits.length % 2 = 0)
    (found : value? digits = some n) :
    ∃ octets, decode digits = some octets ∧ Octets.toNat octets = n := by
  obtain ⟨octets, read⟩ := exists_decode_iff.2 ⟨even, isDigit_of_foldlM found⟩
  refine ⟨octets, read, ?_⟩
  rw [value?_of_decode read] at found
  exact Option.some.inj found

/-! ### Zero octets in front -/

/-- Digits without the pairs of zeros in front. -/
def dropZeroPairs : List Char → List Char
  | '0' :: '0' :: rest => dropZeroPairs rest
  | digits => digits

theorem dropZeroPairs_of_other {a b : Char} {rest : List Char} (other : ¬ (a = '0' ∧ b = '0')) :
    dropZeroPairs (a :: b :: rest) = a :: b :: rest := by
  rw [dropZeroPairs.eq_2]
  rintro later ⟨⟩
  exact other ⟨rfl, rfl⟩

/-- The text of octets without the zeros in front is their text without the pairs of zeros in front. -/
theorem dropZeroPairs_encodeWith (octets : Octets) :
    dropZeroPairs (encodeWith upperDigit octets) =
      encodeWith upperDigit (octets.dropWhile (· == 0)) := by
  have zero : ∀ k : Fin 16, upperDigit k.val = '0' → k.val = 0 := by decide
  induction octets with
  | nil => rfl
  | cons b rest ih =>
      by_cases other : b = 0
      · subst other
        exact ih
      · have bound := b.toNat_lt
        have digits : ¬ (upperDigit (b.toNat / 16) = '0' ∧ upperDigit (b.toNat % 16) = '0') := by
          rintro ⟨high, low⟩
          have h : b.toNat / 16 = 0 := zero ⟨b.toNat / 16, by omega⟩ high
          have l : b.toNat % 16 = 0 := zero ⟨b.toNat % 16, by omega⟩ low
          exact other (UInt8.toNat_inj.1 (by rw [UInt8.toNat_zero]; omega))
        rw [List.dropWhile_cons_of_neg (by simpa using other)]
        exact dropZeroPairs_of_other digits

end SecureElement.Hex
