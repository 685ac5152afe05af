import SecureElement.Proofs.Authority.Serials
import SecureElement.Proofs.Chip.Reports
import SecureElement.Proofs.Text.Patterns

/-!
The serial number in a report.

Nine pairs of digits, with white space after any of them, spell a serial number. The pairs that stand furthest
to the left count, whatever stands around them, and nothing can go wrong once they are found: they are what
`serialPattern` finds, their digits are those of nine octets, and the serial number is those digits in upper
case (`serialNumber_leftmost`).
-/

namespace SecureElement.Report

open Text

/-! ### Pairs of digits -/

/-- A text is a row of pairs of digits, with white space after any of them. -/
inductive Paired : (digits written : List Char) → Prop
  | nil : Paired [] []
  | pair {a b : Char} {gap digits written : List Char} (high : Hex.isDigit a = true)
      (low : Hex.isDigit b = true) (blank : ∀ c ∈ gap, isBlank c = true) (later : Paired digits written) :
      Paired (a :: b :: digits) (a :: b :: (gap ++ written))

/-- A text spells octets in pairs of digits of either case, with white space after any of them. -/
inductive Spelling : Octets → List Char → Prop
  | nil : Spelling [] []
  | octet {b : UInt8} {high low : Char} {gap written : List Char} {octets : Octets}
      (first : Hex.digitValue? high = some (b.toNat / 16))
      (second : Hex.digitValue? low = some (b.toNat % 16)) (blank : ∀ c ∈ gap, isBlank c = true)
      (later : Spelling octets written) : Spelling (b :: octets) (high :: low :: (gap ++ written))

/-- The digits are what is not white space. -/
theorem Paired.filter_eq {digits written : List Char} (paired : Paired digits written) :
    (written.filter fun c => !isBlank c) = digits := by
  induction paired with
  | nil => rfl
  | @pair _ _ gap _ _ high low blank _ ih =>
      have none : gap.filter (fun c => !isBlank c) = [] :=
        List.filter_eq_nil_iff.2 fun c member => by simp [blank c member]
      rw [List.filter_cons_of_pos (by simp [isBlank_of_isDigit high]),
        List.filter_cons_of_pos (by simp [isBlank_of_isDigit low]), List.filter_append, none, ih,
        List.nil_append]

theorem spelling_iff {octets : Octets} {written : List Char} :
    Spelling octets written ↔ ∃ digits, Paired digits written ∧ Hex.decode digits = some octets := by
  constructor
  · intro spelling
    induction spelling with
    | nil => exact ⟨[], .nil, rfl⟩
    | @octet b high low _ _ _ first second blank _ ih =>
        obtain ⟨digits, paired, read⟩ := ih
        have whole : b.toNat / 16 * 16 + b.toNat % 16 = b.toNat := Nat.div_add_mod' _ _
        refine ⟨high :: low :: digits, .pair (by rw [Hex.isDigit, first]; rfl)
          (by rw [Hex.isDigit, second]; rfl) blank paired, ?_⟩
        rw [Hex.decode, first, second]
        simp only [Option.bind_eq_bind, Option.bind_some]
        rw [read, whole, UInt8.ofNat_toNat]
        rfl
  · rintro ⟨digits, paired, read⟩
    induction paired generalizing octets with
    | nil =>
        cases read
        exact .nil
    | @pair high low _ digits _ _ _ blank _ ih =>
        simp only [Hex.decode, Option.bind_eq_bind, Option.bind_eq_some_iff, Option.some.injEq] at read
        obtain ⟨h, first, l, second, octets, read, rfl⟩ := read
        have h_small := (Hex.digitValue?_eq_some_iff.1 first).1
        have l_small := (Hex.digitValue?_eq_some_iff.1 second).1
        have value : (UInt8.ofNat (h * 16 + l)).toNat = h * 16 + l := by
          rw [UInt8.toNat_ofNat']
          omega
        refine .octet ?_ ?_ blank (ih read)
        · rw [value, first]
          exact congrArg some (by omega)
        · rw [value, second]
          exact congrArg some (by omega)

/-! ### Reading pairs -/

/-- Pairs are read over the white space before them. -/
theorem trimStart_gap {count : Nat} {gap digits written rest : List Char}
    (blank : ∀ c ∈ gap, isBlank c = true) (paired : Paired digits written)
    (length : digits.length = 2 * (count + 1)) :
    trimStart (gap ++ (written ++ rest)) = written ++ rest := by
  rw [trimStart, List.dropWhile_append_of_pos blank]
  cases paired with
  | nil => cases length
  | pair high _ _ _ => exact List.dropWhile_cons_of_neg (by simp [isBlank_of_isDigit high])

/-- What comes after a number of pairs at the start of a text, and the white space after them. -/
def afterPairs : (count : Nat) → List Char → List Char
  | 0, cs => cs
  | count + 1, cs => afterPairs count (trimStart (cs.drop 2))

theorem exists_paired_of_pairsAt {count : Nat} {cs digits : List Char}
    (found : pairsAt count cs = some digits) :
    ∃ written, Paired digits written ∧ cs = written ++ afterPairs count cs := by
  fun_induction pairsAt count cs generalizing digits with
  | case1 cs =>
      cases found
      exact ⟨[], .nil, rfl⟩
  | case2 count a b rest pair ih =>
      obtain ⟨later, read, rfl⟩ := Option.map_eq_some_iff.1 found
      obtain ⟨written, paired, cut⟩ := ih read
      obtain ⟨high, low⟩ := Bool.and_eq_true_iff.1 pair
      refine ⟨a :: b :: (rest.takeWhile isBlank ++ written),
        .pair high low (fun c member => List.mem_takeWhile_imp member) paired, ?_⟩
      have same : afterPairs (count + 1) (a :: b :: rest) = afterPairs count (trimStart rest) := rfl
      rw [List.cons_append, List.cons_append, List.append_assoc, same, ← cut, trimStart,
        List.takeWhile_append_dropWhile]
  | case3 => cases found
  | case4 => cases found

/-- What is read from the start of a text is that many pairs. -/
theorem pairsAt_eq_some_iff {count : Nat} {cs digits : List Char} :
    pairsAt count cs = some digits ↔
      digits.length = 2 * count ∧ ∃ written rest, cs = written ++ rest ∧ Paired digits written := by
  constructor
  · intro found
    obtain ⟨written, paired, cut⟩ := exists_paired_of_pairsAt found
    exact ⟨length_of_pairsAt found, written, _, cut, paired⟩
  · rintro ⟨length, written, rest, rfl, paired⟩
    induction paired generalizing count with
    | nil =>
        obtain rfl : count = 0 := by
          simp only [List.length_nil] at length
          omega
        rfl
    | @pair a b gap digits written high low blank later ih =>
        obtain ⟨count, rfl⟩ : ∃ n, count = n + 1 :=
          Nat.exists_eq_succ_of_ne_zero (by rintro rfl; cases length)
        have shorter : digits.length = 2 * count := by
          simp only [List.length_cons] at length
          omega
        have read : pairsAt count (trimStart (gap ++ (written ++ rest))) = some digits := by
          cases count with
          | zero =>
              obtain rfl := List.eq_nil_of_length_eq_zero shorter
              rfl
          | succ count =>
              rw [trimStart_gap blank later shorter]
              exact ih shorter
        rw [List.cons_append, List.cons_append, List.append_assoc, pairsAt, high, low]
        simp [read]

/-- The digits of nine pairs that stand in a report, and nine further to the left nowhere. -/
structure SerialParts (report before digits written after : List Char) : Prop where
  whole : report = before ++ (written ++ after)
  paired : Paired digits written
  nine : digits.length = 2 * serialSize
  first : ∀ before' digits' written' after', report = before' ++ (written' ++ after') →
    Paired digits' written' → digits'.length = 2 * serialSize → before.length ≤ before'.length

theorem firstPairs_eq_leftmost (cs : List Char) : firstPairs cs = leftmost (pairsAt serialSize) cs := by
  induction cs with
  | nil => rfl
  | cons c rest ih =>
      rw [firstPairs, leftmost, ← ih]
      cases pairsAt serialSize (c :: rest) <;> rfl

theorem firstPairs_eq_some_iff {report digits : List Char} :
    firstPairs report = some digits ↔
      ∃ before written after, SerialParts report before digits written after := by
  rw [firstPairs_eq_leftmost, leftmost_eq_some_iff_of pairsAt_eq_some_iff]
  constructor
  · rintro ⟨before, _, rfl, ⟨nine, written, after, rfl, paired⟩, least⟩
    refine ⟨before, written, after, rfl, paired, nine, ?_⟩
    intro before' digits' written' after' whole paired' nine'
    exact least before' _ digits' whole ⟨nine', written', after', rfl, paired'⟩
  · rintro ⟨before, written, after, parts⟩
    refine ⟨before, written ++ after, parts.whole, ⟨parts.nine, written, after, rfl, parts.paired⟩, ?_⟩
    rintro before' _ digits' whole ⟨nine', written', after', rfl, paired'⟩
    exact parts.first before' digits' written' after' whole paired' nine'

/-! ### The pattern of a serial number -/

/-- Two digits, and the white space after them. -/
def pairPattern : Pattern := .next (.times 2 (.one Hex.isDigit)) (.many isBlank)

/-- Nine pairs of digits. -/
def serialPattern : Pattern := .times serialSize pairPattern

section

variable {go : List Char → Option (List Char)}

theorem run_pairPattern (a b : Char) (rest : List Char) :
    pairPattern.run go (a :: b :: rest) =
      if Hex.isDigit a && Hex.isDigit b then longestFirst isBlank go rest else none := by
  cases high : Hex.isDigit a <;> cases low : Hex.isDigit b <;>
    simp [pairPattern, Pattern.times, Pattern.run, high, low]

theorem run_pairPattern_of_blank {c : Char} {rest : List Char} (blank : isBlank c = true) :
    pairPattern.run go (c :: rest) = none := by
  have other : Hex.isDigit c = false := by
    by_contra digit
    rw [isBlank_of_isDigit (by simpa using digit)] at blank
    cases blank
  simp [pairPattern, Pattern.times, Pattern.run, other]

/-- White space before pairs is passed over as a whole. Before the end it may be given back, but need not
be. -/
theorem longestFirst_times_pairPattern (total : ∀ cs, go cs ≠ none) (count : Nat) (cs : List Char) :
    longestFirst isBlank ((Pattern.times count pairPattern).run go) cs =
      (Pattern.times count pairPattern).run go (trimStart cs) := by
  cases count with
  | zero =>
      obtain ⟨result, reached⟩ := Option.ne_none_iff_exists'.1 (total (trimStart cs))
      have same : (Pattern.times 0 pairPattern).run go = go := rfl
      rw [same, reached]
      exact longestFirst_of_some reached
  | succ count => exact longestFirst_of_refuses (fun c rest blank => run_pairPattern_of_blank blank) cs

/-- The way through a number of pairs leads to what comes after them. -/
theorem run_times_pairPattern (total : ∀ cs, go cs ≠ none) (count : Nat) (cs : List Char) :
    (Pattern.times count pairPattern).run go cs =
      (pairsAt count cs).bind fun _ => go (afterPairs count cs) := by
  induction count generalizing cs with
  | zero => rfl
  | succ count ih =>
      match cs with
      | [] => rfl
      | [a] => cases high : Hex.isDigit a <;> simp [Pattern.times, Pattern.run, pairPattern, pairsAt, high]
      | a :: b :: rest =>
          have same : afterPairs (count + 1) (a :: b :: rest) = afterPairs count (trimStart rest) := rfl
          rw [Pattern.times, Pattern.run, run_pairPattern, longestFirst_times_pairPattern total, ih, pairsAt,
            same]
          split
          · cases pairsAt count (trimStart rest) <;> rfl
          · rfl

end

/-- The digits of what the pattern matches are those of the nine pairs. -/
theorem capture_serialPattern (cs : List Char) :
    (Pattern.capture .empty serialPattern cs).map (fun pairs => pairs.filter fun c => !isBlank c) =
      pairsAt serialSize cs := by
  have total : ∀ rest, some (Pattern.matched cs rest) ≠ none := fun _ => Option.some_ne_none _
  rw [Pattern.capture, Pattern.run, serialPattern, run_times_pairPattern total]
  cases read : pairsAt serialSize cs with
  | none => rfl
  | some digits =>
      obtain ⟨written, paired, cut⟩ := exists_paired_of_pairsAt read
      rw [Option.bind_some, Option.map_some, Pattern.matched_of_append cut, paired.filter_eq]

theorem find?_serialPattern (cs : List Char) :
    (Pattern.find? .empty serialPattern cs).map (fun pairs => pairs.filter fun c => !isBlank c) =
      firstPairs cs := by
  rw [Pattern.find?, map_leftmost, firstPairs_eq_leftmost]
  exact congrArg (leftmost · cs) (funext capture_serialPattern)

/-! ### The serial number -/

/-- The serial number is the nine octets of the pattern's digits in upper case: there are always octets, and
always nine. -/
theorem serialNumber_eq_find? (report : String) :
    serialNumber report = (Pattern.find? .empty serialPattern report.toList).bind fun pairs =>
      (Hex.decode (pairs.filter fun c => !isBlank c)).bind fun octets =>
        if octets.length = serialSize then some (Hex.encodeUpper octets) else none := by
  have same := find?_serialPattern report.toList
  rw [serialNumber, ← same]
  cases found : Pattern.find? .empty serialPattern report.toList with
  | none => rfl
  | some pairs =>
      rw [found, Option.map_some] at same
      have length := length_of_firstPairs same.symm
      rw [Option.map_some]
      simp only [Option.bind_eq_bind, Option.bind_some]
      cases decoded : Hex.decode (pairs.filter fun c => !isBlank c) with
      | none => rfl
      | some octets =>
          have nine : octets.length = serialSize := by
            have := Hex.length_of_decode decoded
            omega
          rw [Option.bind_some, Option.bind_some, if_pos nine]

theorem Paired.isDigit {digits written : List Char} (paired : Paired digits written) :
    ∀ c ∈ digits, Hex.isDigit c = true := by
  induction paired with
  | nil => simp
  | pair high low _ _ ih => simpa [high, low] using ih

/-- Nine pairs of digits are always those of nine octets. -/
theorem SerialParts.exists_octets {report before digits written after : List Char}
    (parts : SerialParts report before digits written after) :
    ∃ octets, Hex.decode digits = some octets :=
  Hex.exists_decode_iff.2 ⟨by rw [parts.nine]; rfl, parts.paired.isDigit⟩

theorem serialNumber_eq_some_iff_parts {report serial : String} :
    serialNumber report = some serial ↔ ∃ before digits written after,
      SerialParts report.toList before digits written after ∧ serial.toList = digits.map Char.toUpper := by
  rw [serialNumber_eq_some_iff]
  constructor
  · rintro ⟨octets, ⟨digits, found, read⟩, rfl⟩
    obtain ⟨before, written, after, parts⟩ := firstPairs_eq_some_iff.1 found
    exact ⟨before, digits, written, after, parts, (Hex.decode_eq_some_iff.1 read).symm⟩
  · rintro ⟨before, digits, written, after, parts, upper⟩
    obtain ⟨octets, read⟩ := parts.exists_octets
    refine ⟨octets, ⟨digits, firstPairs_eq_some_iff.2 ⟨before, written, after, parts⟩, read⟩, ?_⟩
    exact String.toList_inj.1 (upper.trans (Hex.decode_eq_some_iff.1 read))

/-- Where nine pairs stand anywhere, some stand furthest to the left. -/
theorem exists_serialParts {report before digits written after : List Char}
    (whole : report = before ++ (written ++ after)) (paired : Paired digits written)
    (nine : digits.length = 2 * serialSize) :
    ∃ before digits written after, SerialParts report before digits written after := by
  cases found : firstPairs report with
  | none =>
      rw [firstPairs_eq_leftmost] at found
      have refused := leftmost_eq_none_iff.1 found before (written ++ after) whole
      rw [pairsAt_eq_some_iff.2 ⟨nine, written, after, rfl, paired⟩] at refused
      cases refused
  | some digits =>
      obtain ⟨before, written, after, parts⟩ := firstPairs_eq_some_iff.1 found
      exact ⟨before, digits, written, after, parts⟩

/-- There is no serial number only if there are no nine pairs. -/
theorem serialNumber_eq_none_iff {report : String} :
    serialNumber report = none ↔ Pattern.find? .empty serialPattern report.toList = none := by
  constructor
  · intro none
    cases found : firstPairs report.toList with
    | none =>
        rw [← find?_serialPattern] at found
        exact Option.map_eq_none_iff.1 found
    | some digits =>
        obtain ⟨before, written, after, parts⟩ := firstPairs_eq_some_iff.1 found
        obtain ⟨octets, read⟩ := parts.exists_octets
        have some := serialNumber_eq_some_iff.2 ⟨octets, ⟨digits, found, read⟩, rfl⟩
        rw [none] at some
        cases some
  · intro none
    rw [serialNumber_eq_find?, none]
    rfl

/-- The octets of a serial number are those that the leftmost nine pairs spell. -/
theorem serialNumber_eq_encodeUpper_iff {report : String} {octets : Octets} :
    serialNumber report = some (Hex.encodeUpper octets) ↔ octets.length = serialSize ∧
      ∃ before digits written after, SerialParts report.toList before digits written after ∧
        Spelling octets written := by
  rw [serialNumber_eq_some_iff_parts]
  constructor
  · rintro ⟨before, digits, written, after, parts, upper⟩
    have read := Hex.decode_eq_some_iff.2 upper.symm
    have length := Hex.length_of_decode read
    have nine := parts.nine
    exact ⟨by omega, before, digits, written, after, parts, spelling_iff.2 ⟨digits, parts.paired, read⟩⟩
  · rintro ⟨-, before, digits, written, after, parts, spelling⟩
    obtain ⟨digits', paired, read⟩ := spelling_iff.1 spelling
    obtain rfl : digits' = digits := paired.filter_eq.symm.trans parts.paired.filter_eq
    exact ⟨before, digits', written, after, parts, (Hex.decode_eq_some_iff.1 read).symm⟩

/-- For every report: the serial number is made of the digits, in upper case, of the leftmost nine pairs in
the report. There is one exactly if nine pairs stand anywhere in the report. It has eighteen upper-case digits,
and is what is made of the digits that the pattern of a serial number finds: once they are found, reading them
as nine octets never fails. It is the text of nine octets exactly if the leftmost nine pairs spell these
octets, in whatever case and with whatever white space in between. -/
theorem serialNumber_leftmost (report : String) :
    (∀ serial, serialNumber report = some serial ↔ ∃ before digits written after,
      SerialParts report.toList before digits written after ∧ serial.toList = digits.map Char.toUpper) ∧
    ((∃ serial, serialNumber report = some serial) ↔ ∃ before digits written after,
      report.toList = before ++ (written ++ after) ∧ Paired digits written ∧
        digits.length = 2 * serialSize) ∧
    (∀ serial ∈ serialNumber report, serial.toList.length = 18 ∧
      ∀ c ∈ serial.toList, c ∈ "0123456789ABCDEF".toList) ∧
    (serialNumber report = (Pattern.find? .empty serialPattern report.toList).bind fun pairs =>
      (Hex.decode (pairs.filter fun c => !isBlank c)).bind fun octets =>
        if octets.length = serialSize then some (Hex.encodeUpper octets) else none) ∧
    (serialNumber report = none ↔ Pattern.find? .empty serialPattern report.toList = none) ∧
    ∀ octets, serialNumber report = some (Hex.encodeUpper octets) ↔ octets.length = serialSize ∧
      ∃ before digits written after, SerialParts report.toList before digits written after ∧
        Spelling octets written := by
  refine ⟨fun serial => serialNumber_eq_some_iff_parts, ⟨?_, ?_⟩, ?_, serialNumber_eq_find? report,
    serialNumber_eq_none_iff, fun octets => serialNumber_eq_encodeUpper_iff⟩
  · rintro ⟨serial, found⟩
    obtain ⟨before, digits, written, after, parts, -⟩ := serialNumber_eq_some_iff_parts.1 found
    exact ⟨before, digits, written, after, parts.whole, parts.paired, parts.nine⟩
  · rintro ⟨_, _, _, _, whole, paired, nine⟩
    obtain ⟨before, digits, written, after, parts⟩ := exists_serialParts whole paired nine
    refine ⟨String.ofList (digits.map Char.toUpper), serialNumber_eq_some_iff_parts.2
      ⟨before, digits, written, after, parts, String.toList_ofList⟩⟩
  · intro serial found
    obtain ⟨octets, spells, rfl⟩ := serialNumber_eq_some_iff.1 found
    constructor
    · rw [Hex.encodeUpper, String.toList_ofList, Hex.length_encodeWith, spells.length]
      rfl
    · intro c member
      obtain ⟨n, small, rfl⟩ := Hex.mem_encodeUpper member
      have every : ∀ n : Fin 16, Hex.upperDigit n.val ∈ "0123456789ABCDEF".toList := by decide
      exact every ⟨n, small⟩

end SecureElement.Report
