import Mathlib.Data.List.TakeWhile
import SecureElement.Chip.Report
import SecureElement.Proofs.Octets.Hex
import SecureElement.Proofs.Octets.Trim

/-!
The certificate in a report.

A report holds a certificate if digits stand after the first of its marks, with nothing but white space
between (`CertificateParts`). All digits that follow one another belong to it, and they have to be pairs; if a
length was told before the mark, it has to be the right one (`certificate_eq_ok_iff`).
-/

namespace SecureElement

namespace Text

/-- A list is cut at the first place where a part of it stands. -/
theorem cutAt_eq_some_iff {α : Type} [BEq α] [LawfulBEq α] {needle xs before after : List α} :
    cutAt needle xs = some (before, after) ↔ xs = before ++ (needle ++ after) ∧
      ∀ shorter later, xs = shorter ++ (needle ++ later) → before.length ≤ shorter.length := by
  induction xs generalizing before with
  | nil =>
      cases needle with
      | nil =>
          simp only [cutAt, List.isEmpty_nil, if_true, Option.some.injEq, Prod.mk.injEq, List.nil_append]
          constructor
          · rintro ⟨rfl, rfl⟩
            exact ⟨rfl, fun _ _ _ => Nat.zero_le _⟩
          · rintro ⟨whole, -⟩
            obtain ⟨rfl, rfl⟩ := List.append_eq_nil_iff.1 whole.symm
            exact ⟨rfl, rfl⟩
      | cons c needle => simp [cutAt]
  | cons c rest ih =>
      rw [cutAt]
      split
      case isTrue here =>
        obtain ⟨tail, whole⟩ := List.isPrefixOf_iff_prefix.1 here
        simp only [Option.some.injEq, Prod.mk.injEq]
        constructor
        · rintro ⟨rfl, rfl⟩
          refine ⟨?_, fun _ _ _ => Nat.zero_le _⟩
          rw [← whole, List.drop_left]
          rfl
        · rintro ⟨cut, first⟩
          have none := first [] tail whole.symm
          obtain rfl := List.eq_nil_of_length_eq_zero (Nat.le_zero.1 none)
          refine ⟨rfl, ?_⟩
          rw [cut]
          exact List.drop_left
      case isFalse elsewhere =>
        simp only [Option.map_eq_some_iff, Prod.mk.injEq, Prod.exists]
        have later : ∀ {front back : List α}, c :: rest = front ++ (needle ++ back) →
            ∃ front', front = c :: front' ∧ rest = front' ++ (needle ++ back) := by
          intro front back whole
          cases front with
          | nil => exact absurd (List.isPrefixOf_iff_prefix.2 ⟨back, whole.symm⟩) elsewhere
          | cons d front =>
              obtain ⟨rfl, same⟩ := List.cons.inj whole
              exact ⟨front, rfl, same⟩
        constructor
        · rintro ⟨front, back, found, rfl, rfl⟩
          obtain ⟨whole, first⟩ := ih.1 found
          refine ⟨by rw [whole]; rfl, fun shorter later' other => ?_⟩
          obtain ⟨shorter', rfl, same⟩ := later other
          exact Nat.succ_le_succ (first shorter' later' same)
        · rintro ⟨whole, first⟩
          obtain ⟨front, rfl, same⟩ := later whole
          refine ⟨front, after, ih.2 ⟨same, fun shorter later' other => ?_⟩, rfl, rfl⟩
          exact Nat.le_of_succ_le_succ (first (c :: shorter) later' (by rw [other]; rfl))

/-- White space, a run of characters of a class and the rest of a text are found again, if no white space is in
the class. -/
theorem takeWhile_trimStart {among : Char → Bool} {blanks run rest : List Char}
    (solid : ∀ c, among c = true → isBlank c = false) (blank : ∀ c ∈ blanks, isBlank c = true)
    (member : ∀ c ∈ run, among c = true) (some : run ≠ []) (ends : ∀ c ∈ rest.head?, among c = false) :
    (trimStart (blanks ++ (run ++ rest))).takeWhile among = run := by
  have start : ∀ c ∈ (run ++ rest).head?, isBlank c = false := by
    obtain ⟨first, later, rfl⟩ := List.exists_cons_of_ne_nil some
    rintro c ⟨⟩
    exact solid first (member first (by simp))
  rw [trimStart, dropWhile_append_of_head blank start, takeWhile_append_of_head member ends]

/-- A text is white space, a run of characters of a class, and the rest. -/
theorem append_trimStart (among : Char → Bool) (text : List Char) :
    text.takeWhile isBlank ++ ((trimStart text).takeWhile among ++ (trimStart text).dropWhile among) = text := by
  rw [List.takeWhile_append_dropWhile, trimStart, List.takeWhile_append_dropWhile]

end Text

namespace Report

open Text

/-- A report is taken apart at its first mark of a certificate: what stands before the mark, the white space
after it, all digits that follow, and the rest. -/
structure CertificateParts (report before blanks digits rest : List Char) : Prop where
  whole : report = before ++ (certificateMark ++ (blanks ++ (digits ++ rest)))
  first : ∀ shorter later, report = shorter ++ (certificateMark ++ later) → before.length ≤ shorter.length
  blank : ∀ c ∈ blanks, isBlank c = true
  digit : ∀ c ∈ digits, Hex.isDigit c = true
  some : digits ≠ []
  ends : ∀ c ∈ rest.head?, Hex.isDigit c = false

/-- These octets are spelled by the digits after the first mark of a certificate. -/
def SpellsCertificate (report : String) (octets : Octets) : Prop :=
  ∃ before blanks digits rest, CertificateParts report.toList before blanks digits rest ∧
    Hex.decode digits = some octets

/-- A digit is no white space. -/
theorem isBlank_of_isDigit {c : Char} (digit : Hex.isDigit c = true) : isBlank c = false := by
  have every : ∀ n : Fin 128, Hex.isDigit (Char.ofNat n.val) = true → isBlank (Char.ofNat n.val) = false := by
    decide
  have here := every ⟨c.toNat, Hex.ascii_of_isDigit digit⟩
  simp only [Char.ofNat_toNat] at here
  exact here digit

theorem CertificateParts.cutAt_eq {report before blanks digits rest : List Char}
    (parts : CertificateParts report before blanks digits rest) :
    cutAt certificateMark report = Option.some (before, blanks ++ (digits ++ rest)) :=
  cutAt_eq_some_iff.2 ⟨parts.whole, parts.first⟩

theorem CertificateParts.digits_eq {report before blanks digits rest : List Char}
    (parts : CertificateParts report before blanks digits rest) :
    (trimStart (blanks ++ (digits ++ rest))).takeWhile Hex.isDigit = digits :=
  takeWhile_trimStart (fun _ => isBlank_of_isDigit) parts.blank parts.digit parts.some parts.ends

/-- A report that is cut at a mark which digits follow is taken apart there. -/
theorem certificateParts_of_cutAt {report before after : List Char}
    (cut : cutAt certificateMark report = Option.some (before, after))
    (some : (trimStart after).takeWhile Hex.isDigit ≠ []) :
    CertificateParts report before (after.takeWhile isBlank) ((trimStart after).takeWhile Hex.isDigit)
      ((trimStart after).dropWhile Hex.isDigit) := by
  obtain ⟨whole, first⟩ := cutAt_eq_some_iff.1 cut
  constructor
  case whole => rw [append_trimStart, whole]
  case first => exact first
  case blank => exact fun c member => List.mem_takeWhile_imp member
  case digit => exact fun c member => List.mem_takeWhile_imp member
  case some => exact some
  case ends => exact head_dropWhile

section

variable {command report : String} {before blanks digits rest : List Char} {octets : Octets}

/-- A report without digits after the first mark holds no certificate. -/
theorem certificate_of_no_parts
    (none : ∀ before blanks digits rest, ¬ CertificateParts report.toList before blanks digits rest) :
    certificate command report = .error (.certificate command) := by
  unfold certificate
  cases cut : cutAt certificateMark report.toList with
  | none => rfl
  | some sides =>
      obtain ⟨before, after⟩ := sides
      by_cases empty : (trimStart after).takeWhile Hex.isDigit = []
      · exact if_pos empty
      · exact absurd (certificateParts_of_cutAt cut empty) (none _ _ _ _)

theorem CertificateParts.certificate_of_decode_none
    (parts : CertificateParts report.toList before blanks digits rest) (odd : Hex.decode digits = none) :
    certificate command report = .error (.certificate command) := by
  have some := parts.some
  unfold certificate
  rw [parts.cutAt_eq]
  simp only [parts.digits_eq, some, if_false, odd]

/-- A certificate that is spelled is refused only if another length is told that is compared. -/
theorem CertificateParts.certificate_of_decode
    (parts : CertificateParts report.toList before blanks digits rest)
    (read : Hex.decode digits = Option.some octets) :
    certificate command report = (reportedLength before).elim (.ok octets) fun reported =>
      if reported = octets.length then .ok octets
      else .error (.certificateLength command reported octets.length) := by
  have some := parts.some
  unfold certificate
  rw [parts.cutAt_eq]
  simp only [parts.digits_eq, some, if_false, read]
  cases reportedLength before <;> rfl

/-- The certificate in a report is what is spelled after the first mark, unless another length is told. -/
theorem certificate_eq_ok_iff :
    certificate command report = .ok octets ↔
      ∃ before blanks digits rest, CertificateParts report.toList before blanks digits rest ∧
        Hex.decode digits = some octets ∧
        ∀ reported, reportedLength before = Option.some reported → reported = octets.length := by
  constructor
  · intro found
    by_cases spelled : ∃ before blanks digits rest, CertificateParts report.toList before blanks digits rest
    · obtain ⟨before, blanks, digits, rest, parts⟩ := spelled
      refine ⟨before, blanks, digits, rest, parts, ?_⟩
      cases read : Hex.decode digits with
      | none =>
          rw [parts.certificate_of_decode_none read] at found
          cases found
      | some octets' =>
          rw [parts.certificate_of_decode read] at found
          cases told : reportedLength before with
          | none =>
              rw [told] at found
              cases found
              exact ⟨rfl, fun _ none => by cases none⟩
          | some reported =>
              rw [told, Option.elim_some] at found
              split at found
              case isTrue same =>
                cases found
                exact ⟨rfl, fun _ same' => by cases same'; exact same⟩
              case isFalse => cases found
    · simp only [not_exists] at spelled
      rw [certificate_of_no_parts spelled] at found
      cases found
  · rintro ⟨before, blanks, digits, rest, parts, read, length⟩
    rw [parts.certificate_of_decode read]
    cases told : reportedLength before with
    | none => rfl
    | some reported => exact if_pos (length reported told)

end

theorem spellsCertificate_of_certificate {command report : String} {octets : Octets}
    (found : certificate command report = .ok octets) : SpellsCertificate report octets := by
  obtain ⟨before, blanks, digits, rest, parts, decoded, -⟩ := certificate_eq_ok_iff.1 found
  exact ⟨before, blanks, digits, rest, parts, decoded⟩

/-- A report spells one certificate at most. -/
theorem SpellsCertificate.unique {report : String} {first second : Octets}
    (here : SpellsCertificate report first) (there : SpellsCertificate report second) : first = second := by
  obtain ⟨before, blanks, digits, rest, parts, decoded⟩ := here
  obtain ⟨before', blanks', digits', rest', parts', decoded'⟩ := there
  have cut := parts.cutAt_eq
  rw [parts'.cutAt_eq, Option.some.injEq, Prod.mk.injEq] at cut
  have same := parts.digits_eq
  rw [← cut.2, parts'.digits_eq] at same
  rw [same, decoded] at decoded'
  cases decoded'
  rfl

theorem SpellsCertificate.ne_nil {report : String} {octets : Octets}
    (spells : SpellsCertificate report octets) : octets ≠ [] := by
  obtain ⟨before, blanks, digits, rest, parts, decoded⟩ := spells
  have length := Hex.length_of_decode decoded
  rintro rfl
  exact parts.some (List.eq_nil_of_length_eq_zero length)

end Report

end SecureElement
