import Mathlib.Data.Option.Basic
import SecureElement.Proofs.Der.Elements
import SecureElement.Proofs.Octets.Ascii
import SecureElement.Proofs.Text.Decimal
import SecureElement.X509.Time

/-!
Dates are read back from the form that certificates must use, and are written again as they were read.

The year of a date may have two digits since the form with two is for the years 1950 to 2049 only. A date
has one spelling in each form, so that the element of a date that was read is known
(`Time.element_of_ofElement?`).
-/

namespace SecureElement

namespace Calendar

theorem daysInMonth_le (year month : Nat) : daysInMonth year month ≤ 31 := by
  have february : (if isLeap year = true then 29 else 28) ≤ 31 := by
    split <;> decide
  unfold daysInMonth
  split
  case h_12 => exact february
  all_goals decide

end Calendar

namespace X509

open Der

namespace Time

theorem numerals?_fixed {width : Nat} (pos : 0 < width) (widths : List Nat) (n : Nat)
    (rest : List Char) :
    numerals? (width :: widths) (Decimal.fixed width n ++ rest) =
      (numerals? widths rest).map (n % 10 ^ width :: ·) := by
  have size := Decimal.length_fixed width n
  rw [numerals?, List.take_left' size, List.drop_left' size, Decimal.parse?_fixed pos]
  simp only [size, guard_true, Option.bind_eq_bind, Option.pure_def, Option.bind_some]
  cases numerals? widths rest <;> rfl

/-- The characters of a date are those of ASCII. -/
theorem ascii_chars (t : Time) : ∀ c ∈ t.chars, c.toNat < 128 := by
  intro c member
  obtain ⟨form, date⟩ := t
  simp only [chars, List.mem_append, List.mem_singleton] at member
  rcases member with (((((year | month) | day) | hour) | minute) | second) | rfl
  · cases form
    · exact (Decimal.mem_fixed year).2
    · exact (Decimal.mem_fixed year).2
  · exact (Decimal.mem_fixed month).2
  · exact (Decimal.mem_fixed day).2
  · exact (Decimal.mem_fixed hour).2
  · exact (Decimal.mem_fixed minute).2
  · exact (Decimal.mem_fixed second).2
  · decide

theorem length_chars_le (t : Time) : t.chars.length ≤ 15 := by
  unfold chars
  cases t.form <;> simp [Decimal.length_fixed]

theorem make?_self (d : DateTime) :
    DateTime.make? d.year d.month d.day d.hour d.minute d.second = some d :=
  dif_pos d.valid

/-- A date is read back from its characters if the year is the one that its digits stand for. -/
theorem ofChars?_chars {t : Time}
    (year : t.form = .utc → fullYear (t.date.year % 100) = t.date.year) :
    ofChars? t.form t.chars = some t := by
  obtain ⟨form, d⟩ := t
  obtain ⟨-, late, -, month, -, day, hour, minute, second⟩ := d.valid
  have days := Calendar.daysInMonth_le d.year d.month
  have month_eq : d.month % 10 ^ 2 = d.month := by omega
  have day_eq : d.day % 10 ^ 2 = d.day := by omega
  have hour_eq : d.hour % 10 ^ 2 = d.hour := by omega
  have minute_eq : d.minute % 10 ^ 2 = d.minute := by omega
  have second_eq : d.second % 10 ^ 2 = d.second := by omega
  have four : d.year % 10 ^ 4 = d.year := by omega
  have ended : numerals? [] ['Z'] = some [] := rfl
  cases form with
  | utc =>
      have two : fullYear (d.year % 10 ^ 2) = d.year := year rfl
      simp only [ofChars?, chars, List.append_assoc, numerals?_fixed (Nat.zero_lt_succ _), ended,
        Option.map_some, Option.bind_eq_bind, Option.bind_some, month_eq, day_eq, hour_eq, minute_eq,
        second_eq, two, make?_self]
  | generalized =>
      simp only [ofChars?, chars, List.append_assoc, numerals?_fixed (Nat.zero_lt_succ _), ended,
        Option.map_some, Option.bind_eq_bind, Option.bind_some, month_eq, day_eq, hour_eq, minute_eq,
        second_eq, four, make?_self]

/-- The element of a date is read by its characters. -/
theorem ofElement?_element_eq (t : Time) : ofElement? t.element = ofChars? t.form t.chars := by
  have chars := Octets.chars_of_octets (ascii_chars t)
  obtain ⟨form, d⟩ := t
  unfold ofElement? element
  simp only
  rw [chars]
  cases form with
  | utc => rw [if_pos (show tag .utc = tagUtcTime from rfl)]
  | generalized =>
      rw [if_neg (show tag .generalized ≠ tagUtcTime by decide),
        if_pos (show tag .generalized = tagGeneralizedTime from rfl)]

theorem ofElement?_element {t : Time}
    (year : t.form = .utc → fullYear (t.date.year % 100) = t.date.year) :
    ofElement? t.element = some t := by
  rw [ofElement?_element_eq]
  exact ofChars?_chars year

theorem isTag_tag (t : Time) : isTag t.element.tag = true := by
  obtain ⟨form, d⟩ := t
  cases form <;> rfl

theorem form_of_ofChars? {form : TimeForm} {cs : List Char} {t : Time}
    (found : ofChars? form cs = some t) : t.form = form := by
  simp only [ofChars?, Option.bind_eq_bind, Option.bind_eq_some_iff] at found
  obtain ⟨numerals, -, found⟩ := found
  split at found
  · simp only [Option.bind_eq_some_iff, Option.some.injEq] at found
    obtain ⟨date, -, rfl⟩ := found
    rfl
  · cases found

/-- The form of a date that was read is that of its tag. -/
theorem tag_of_ofElement? {e : Element} {t : Time} (found : ofElement? e = some t) :
    e.tag = tag t.form := by
  unfold ofElement? at found
  simp only at found
  split at found
  · next utc =>
      rw [form_of_ofChars? found]
      exact utc
  · split at found
    · next generalized =>
        rw [form_of_ofChars? found]
        exact generalized
    · cases found

theorem tag_eq_utc_iff {form : TimeForm} : tag form = tagUtcTime ↔ form = .utc := by
  cases form <;> decide

/-- The form of its year is the one that is chosen for a date; there always is one, since no year that takes two
digits is refused with two digits. -/
theorem ofDateTime?_eq_some (d : DateTime) : ofDateTime? d = some (ofDateTime d) := by
  unfold ofDateTime? ofDateTime
  by_cases short : d.year < generalizedFrom
  · have fits : d.year ≤ lastUtcYear := Nat.le_of_lt_succ short
    rw [if_pos short, if_pos short, utc?, if_pos fits]
  · rw [if_neg short, if_neg short]

theorem date_ofDateTime (d : DateTime) : (ofDateTime d).date = d := by
  unfold ofDateTime
  split <;> rfl

theorem form_ofDateTime (d : DateTime) :
    (ofDateTime d).form = if d.year < 2050 then .utc else .generalized := by
  unfold ofDateTime
  by_cases short : d.year < 2050
  · rw [if_pos (show d.year < generalizedFrom from short), if_pos short]
  · rw [if_neg (show ¬ d.year < generalizedFrom from short), if_neg short]

/-- A date in the form that certificates must use is read back. -/
theorem ofElement?_ofDateTime (d : DateTime) :
    ofElement? (ofDateTime d).element = some (ofDateTime d) := by
  refine ofElement?_element ?_
  have early := d.valid.1
  unfold ofDateTime
  by_cases short : d.year < generalizedFrom
  · rw [if_pos short]
    intro _
    simp only [generalizedFrom] at short
    simp only [fullYear]
    split <;> omega
  · rw [if_neg short]
    intro other
    cases other

/-! ### Dates that were read -/

/-- What numerals are read from is the numerals of their widths, with a `Z` after them. -/
theorem fixed_of_numerals? {widths numbers : List Nat} {cs : List Char}
    (found : numerals? widths cs = some numbers) :
    (List.zipWith Decimal.fixed widths numbers).flatten ++ ['Z'] = cs := by
  induction widths generalizing cs numbers with
  | nil =>
      unfold numerals? at found
      split at found
      · cases found
        rfl
      · cases found
      · contradiction
  | cons width widths ih =>
      simp only [numerals?, Option.bind_eq_bind, Option.bind_eq_some_iff, Option.some.injEq,
        Option.guard_eq_some', exists_const] at found
      obtain ⟨size, n, read, rest, later, rfl⟩ := found
      have first := Decimal.fixed_of_parse? read
      rw [size] at first
      rw [List.zipWith_cons_cons, List.flatten_cons, List.append_assoc, ih later, first,
        List.take_append_drop]

theorem fixed_fullYear (n : Nat) : Decimal.fixed 2 (fullYear n) = Decimal.fixed 2 n := by
  have same : ∀ century, Decimal.fixed 2 (100 * century + n) = Decimal.fixed 2 n := by
    intro century
    have tens : (100 * century + n) / 10 % 10 = n / 10 % 10 := by omega
    have ones : (100 * century + n) % 10 = n % 10 := by omega
    simp only [Decimal.fixed, tens, ones]
  unfold fullYear
  split
  · exact same 20
  · exact same 19

/-- A date is written again as it was read. -/
theorem chars_of_ofChars? {form : TimeForm} {cs : List Char} {t : Time}
    (found : ofChars? form cs = some t) : t.chars = cs := by
  simp only [ofChars?, Option.bind_eq_bind, Option.bind_eq_some_iff] at found
  obtain ⟨numerals, read, found⟩ := found
  have written := fixed_of_numerals? read
  split at found
  · simp only [Option.bind_eq_some_iff, Option.some.injEq, DateTime.make?] at found
    obtain ⟨date, made, rfl⟩ := found
    obtain ⟨valid, whole⟩ := Option.dite_none_right_eq_some.1 made
    cases whole
    rw [← written]
    cases form with
    | utc =>
        simp only [chars, fixed_fullYear]
        simp
    | generalized =>
        simp only [chars]
        simp
  · cases found

/-- The element of a date is the one that it was read from. -/
theorem element_of_ofElement? {e : Element} {t : Time} (found : ofElement? e = some t) :
    t.element = e := by
  have tag := tag_of_ofElement? found
  have read : ofChars? t.form (e.content.map fun b => Char.ofNat b.toNat) = some t := by
    unfold ofElement? at found
    simp only at found
    split at found
    · rw [form_of_ofChars? found]
      exact found
    · split at found
      · rw [form_of_ofChars? found]
        exact found
      · cases found
  rw [element, chars_of_ofChars? read, Octets.octets_of_chars, ← tag]

end Time

namespace Validity

theorem ofElement?_element {v : Validity} (fits : v.element.Fits)
    (notBefore : Time.ofElement? v.notBefore.element = some v.notBefore)
    (notAfter : Time.ofElement? v.notAfter.element = some v.notAfter) :
    ofElement? v.element = some v := by
  have tags : ([v.notBefore.element, v.notAfter.element].all fun e => isTag e.tag) = true := by
    simp only [List.all_cons, List.all_nil, Time.isTag_tag, Bool.and_self]
  have row : v.element.sequence? = some [v.notBefore.element, v.notAfter.element] :=
    Element.sequence?_sequence (Element.sound_of_tags fits tags)
  simp only [ofElement?, row, notBefore, notAfter, Option.bind_eq_bind, Option.bind_some]

/-- The period between two dates, each in the form of its year. -/
def between (notBefore notAfter : DateTime) : Validity :=
  ⟨.ofDateTime notBefore, .ofDateTime notAfter⟩

theorem ofElement?_between {notBefore notAfter : DateTime} (fits : (between notBefore notAfter).element.Fits) :
    ofElement? (between notBefore notAfter).element = some (between notBefore notAfter) :=
  ofElement?_element fits (Time.ofElement?_ofDateTime notBefore) (Time.ofElement?_ofDateTime notAfter)

end Validity

end X509

end SecureElement
