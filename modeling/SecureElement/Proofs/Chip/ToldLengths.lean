import SecureElement.Proofs.Chip.Reports
import SecureElement.Proofs.Pem.Boundaries
import SecureElement.Proofs.Text.Patterns

/-!
The length that a report tells of a certificate.

A length is told by the first numeral that follows a mark before the certificate (`TellsLength`); it is what
`lengthLead` and `lengthGroup` find there. The certificate is refused if the numeral denotes another length,
but a numeral above `maxReported` is not compared at all (`certificate_outcomes`).
-/

namespace SecureElement.Report

open Text

/-! ### The first numeral after a mark -/

/-- A text begins with a mark of a length, white space and a numeral. All digits that follow one another
belong to the numeral. -/
structure NumeralStart (text digits : List Char) : Prop where
  cut : ∃ blanks rest, text = lengthMark ++ (blanks ++ (digits ++ rest)) ∧
    (∀ c ∈ blanks, isBlank c = true) ∧ ∀ c ∈ rest.head?, Decimal.isDigit c = false
  digit : ∀ c ∈ digits, Decimal.isDigit c = true
  some : digits ≠ []

/-- A text tells a length by the numeral after a mark, and by none further to the left. -/
def TellsLength (text digits : List Char) : Prop :=
  ∃ before after, text = before ++ after ∧ NumeralStart after digits ∧
    ∀ before' after' digits', text = before' ++ after' → NumeralStart after' digits' →
      before.length ≤ before'.length

/-- The numeral after a mark and white space at the start of a text. -/
def numeralAt (text : List Char) : Option (List Char) :=
  (withoutStart lengthMark text).bind fun after =>
    let digits := (trimStart after).takeWhile Decimal.isDigit
    if digits = [] then none else some digits

theorem lengthNumeral_eq_leftmost (text : List Char) : lengthNumeral text = leftmost numeralAt text := by
  induction text with
  | nil => rfl
  | cons c rest ih =>
      rw [lengthNumeral, leftmost, ← ih, numeralAt]
      cases withoutStart lengthMark (c :: rest) with
      | none => rfl
      | some after =>
          dsimp only [Option.bind_some]
          cases (trimStart after).takeWhile Decimal.isDigit with
          | nil => rfl
          | cons d digits => simp

theorem isBlank_of_isDecimal {c : Char} (digit : Decimal.isDigit c = true) : isBlank c = false := by
  apply isBlank_of_isDigit
  have decimal : '0' ≤ c ∧ c ≤ '9' := by simpa [Decimal.isDigit] using digit
  rw [Hex.isDigit, Hex.digitValue?, if_pos decimal]
  rfl

theorem numeralAt_eq_some_iff {text digits : List Char} :
    numeralAt text = some digits ↔ NumeralStart text digits := by
  simp only [numeralAt, Option.bind_eq_some_iff, withoutStart_eq_some_iff, Option.ite_none_left_eq_some,
    Option.some.injEq]
  constructor
  · rintro ⟨after, rfl, filled, rfl⟩
    refine ⟨⟨after.takeWhile isBlank, (trimStart after).dropWhile Decimal.isDigit, ?_, ?_, ?_⟩, ?_, filled⟩
    · rw [append_trimStart]
    · exact fun c member => List.mem_takeWhile_imp member
    · exact head_dropWhile
    · exact fun c member => List.mem_takeWhile_imp member
  · rintro ⟨⟨blanks, rest, rfl, blank, ends⟩, digit, filled⟩
    have taken := takeWhile_trimStart (fun _ => isBlank_of_isDecimal) blank digit filled ends
    exact ⟨_, rfl, by rw [taken]; exact filled, taken⟩

theorem lengthNumeral_eq_some_iff {text digits : List Char} :
    lengthNumeral text = some digits ↔ TellsLength text digits := by
  rw [lengthNumeral_eq_leftmost]
  exact leftmost_eq_some_iff_of numeralAt_eq_some_iff

/-! ### The pattern of a length -/

/-- The mark of a length and white space. -/
def lengthLead : Pattern := .next (.word lengthMark) (.many isBlank)

/-- A numeral. -/
def lengthGroup : Pattern := .oneOrMore Decimal.isDigit

/-- A numeral that is captured is all the digits at the start. -/
theorem run_lengthGroup (start : List Char) :
    lengthGroup.run (fun rest => some (Pattern.matched start rest)) start =
      if start.takeWhile Decimal.isDigit = [] then none else some (start.takeWhile Decimal.isDigit) := by
  cases start with
  | nil => rfl
  | cons c rest =>
      rw [lengthGroup, Pattern.oneOrMore, Pattern.run, Pattern.run]
      by_cases digit : Decimal.isDigit c = true
      · have cut : c :: rest = c :: rest.takeWhile Decimal.isDigit ++ rest.dropWhile Decimal.isDigit := by
          rw [List.cons_append, List.takeWhile_append_dropWhile]
        rw [if_pos digit, List.takeWhile_cons_of_pos digit, if_neg (List.cons_ne_nil _ _), Pattern.run]
        exact longestFirst_of_some (congrArg some (Pattern.matched_of_append cut))
      · rw [if_neg digit, List.takeWhile_cons_of_neg digit, if_pos rfl]

/-- The pattern of a length captures the numeral. -/
theorem capture_lengthGroup (text : List Char) :
    Pattern.capture lengthLead lengthGroup text = numeralAt text := by
  have refuses : ∀ c rest, isBlank c = true →
      lengthGroup.run (fun after => some (Pattern.matched (c :: rest) after)) (c :: rest) = none := by
    intro c rest blank
    have other : ¬ Decimal.isDigit c = true := by
      intro digit
      rw [isBlank_of_isDecimal digit] at blank
      cases blank
    rw [run_lengthGroup, List.takeWhile_cons_of_neg other, if_pos rfl]
  rw [Pattern.capture, lengthLead, Pattern.run, Pattern.run_word, numeralAt]
  refine congrArg _ (funext fun after => ?_)
  rw [Pattern.run, longestFirst_of_refuses refuses]
  exact run_lengthGroup (trimStart after)

theorem find?_lengthGroup (text : List Char) :
    Pattern.find? lengthLead lengthGroup text = lengthNumeral text := by
  rw [lengthNumeral_eq_leftmost, Pattern.find?]
  exact congrArg (leftmost · text) (funext capture_lengthGroup)

/-! ### What becomes of a report -/

/-- The length that is compared is the one that the first numeral denotes, if it is not too great. -/
theorem reportedLength_eq_some_iff {text : List Char} {n : Nat} :
    reportedLength text = some n ↔
      ∃ numeral, TellsLength text numeral ∧ Decimal.valueOfDigits numeral = n ∧ n ≤ maxReported := by
  simp only [reportedLength, Option.bind_eq_bind, Option.bind_eq_some_iff, lengthNumeral_eq_some_iff,
    Option.ite_none_right_eq_some, Option.some.injEq]
  refine exists_congr fun numeral => and_congr_right fun _ => ?_
  constructor
  · rintro ⟨small, rfl⟩
    exact ⟨rfl, small⟩
  · rintro ⟨rfl, small⟩
    exact ⟨small, rfl⟩

section

variable {command report : String} {before blanks digits rest : List Char} {octets : Octets}

/-- No certificate is found exactly if no digits follow the first mark, or an odd number of them. -/
theorem certificate_eq_error_certificate_iff :
    certificate command report = .error (.certificate command) ↔
      ∀ before blanks digits rest, CertificateParts report.toList before blanks digits rest →
        digits.length % 2 = 1 := by
  constructor
  · intro refused before blanks digits rest parts
    by_contra even
    obtain ⟨octets, read⟩ := Hex.exists_decode_iff.2 ⟨by omega, parts.digit⟩
    rw [parts.certificate_of_decode read] at refused
    cases told : reportedLength before with
    | none =>
        rw [told] at refused
        cases refused
    | some reported =>
        rw [told, Option.elim_some] at refused
        split at refused
        · cases refused
        · cases refused
  · intro odd
    by_cases found : ∃ before blanks digits rest, CertificateParts report.toList before blanks digits rest
    · obtain ⟨before, blanks, digits, rest, parts⟩ := found
      apply parts.certificate_of_decode_none
      cases read : Hex.decode digits with
      | none => rfl
      | some octets =>
          have even := (Hex.exists_decode_iff.1 ⟨octets, read⟩).1
          have := odd before blanks digits rest parts
          omega
    · simp only [not_exists] at found
      exact certificate_of_no_parts found

/-- A certificate that is spelled is refused exactly if another length is told that is compared. -/
theorem CertificateParts.certificate_eq_error_iff
    (parts : CertificateParts report.toList before blanks digits rest)
    (read : Hex.decode digits = Option.some octets) {e : ReportError} :
    certificate command report = .error e ↔ ∃ numeral, TellsLength before numeral ∧
      Decimal.valueOfDigits numeral ≤ maxReported ∧ Decimal.valueOfDigits numeral ≠ octets.length ∧
      e = .certificateLength command (Decimal.valueOfDigits numeral) octets.length := by
  rw [parts.certificate_of_decode read]
  constructor
  · intro refused
    cases told : reportedLength before with
    | none =>
        rw [told] at refused
        cases refused
    | some reported =>
        obtain ⟨numeral, tells, rfl, small⟩ := reportedLength_eq_some_iff.1 told
        rw [told, Option.elim_some] at refused
        split at refused
        case isTrue => cases refused
        case isFalse other =>
          cases refused
          exact ⟨numeral, tells, small, other, rfl⟩
  · rintro ⟨numeral, tells, small, other, rfl⟩
    rw [reportedLength_eq_some_iff.2 ⟨numeral, tells, rfl, small⟩]
    exact if_neg other

/-- For every response: it gives the octets that are spelled by the digits after the first mark of a
certificate, unless the first numeral after a mark of a length before them denotes another length. Then
it is refused with both lengths. If there are no such digits, or an odd number of them, there is no
certificate. A numeral above `maxReported` is not compared: the certificate is then as it would be if no length
was told. The numeral is what the pattern of a length finds. -/
theorem certificate_outcomes (command report : String) :
    (∀ octets, certificate command report = .ok octets ↔
      ∃ before blanks digits rest, CertificateParts report.toList before blanks digits rest ∧
        digits.map Char.toUpper = (Hex.encodeUpper octets).toList ∧
        ∀ numeral, TellsLength before numeral → Decimal.valueOfDigits numeral ≤ maxReported →
          Decimal.valueOfDigits numeral = octets.length) ∧
    (∀ e, certificate command report = .error e ↔
      (∃ before blanks digits rest octets numeral,
        CertificateParts report.toList before blanks digits rest ∧
        digits.map Char.toUpper = (Hex.encodeUpper octets).toList ∧ TellsLength before numeral ∧
        Decimal.valueOfDigits numeral ≤ maxReported ∧ Decimal.valueOfDigits numeral ≠ octets.length ∧
        e = .certificateLength command (Decimal.valueOfDigits numeral) octets.length) ∨
      ((∀ before blanks digits rest, CertificateParts report.toList before blanks digits rest →
        digits.length % 2 = 1) ∧ e = .certificate command)) ∧
    ∀ text numeral, TellsLength text numeral ↔
      Pattern.find? lengthLead lengthGroup text = some numeral := by
  refine ⟨fun octets => ?_, fun e => ⟨?_, ?_⟩, fun text numeral => ?_⟩
  · rw [certificate_eq_ok_iff]
    refine exists_congr fun before => exists_congr fun blanks => exists_congr fun digits =>
      exists_congr fun rest => and_congr_right fun _ => ?_
    rw [Hex.decode_eq_some_iff]
    refine and_congr_right fun _ => ?_
    constructor
    · intro same numeral tells small
      exact same _ (reportedLength_eq_some_iff.2 ⟨numeral, tells, rfl, small⟩)
    · intro same reported told
      obtain ⟨numeral, tells, rfl, small⟩ := reportedLength_eq_some_iff.1 told
      exact same numeral tells small
  · intro refused
    by_cases odd : ∀ before blanks digits rest, CertificateParts report.toList before blanks digits rest →
        digits.length % 2 = 1
    · rw [certificate_eq_error_certificate_iff.2 odd] at refused
      cases refused
      exact .inr ⟨odd, rfl⟩
    · simp only [not_forall] at odd
      obtain ⟨before, blanks, digits, rest, parts, even⟩ := odd
      obtain ⟨octets, read⟩ := Hex.exists_decode_iff.2 ⟨by omega, parts.digit⟩
      obtain ⟨numeral, tells, small, other, rfl⟩ := (parts.certificate_eq_error_iff read).1 refused
      exact .inl ⟨before, blanks, digits, rest, octets, numeral, parts, Hex.decode_eq_some_iff.1 read, tells,
        small, other, rfl⟩
  · rintro (⟨before, blanks, digits, rest, octets, numeral, parts, upper, tells, small, other, rfl⟩ |
      ⟨odd, rfl⟩)
    · exact (parts.certificate_eq_error_iff (Hex.decode_eq_some_iff.2 upper)).2
        ⟨numeral, tells, small, other, rfl⟩
    · exact certificate_eq_error_certificate_iff.2 odd
  · rw [find?_lengthGroup, lengthNumeral_eq_some_iff]

/-- A length that is too great to compare is passed over. -/
example : certificate "get-tngtls-device-cert"
    " Device Cert Len:99999999999999999999\nCertificate:\n3082abcd\n" = .ok [0x30, 0x82, 0xAB, 0xCD] := by
  rfl

end

end SecureElement.Report
