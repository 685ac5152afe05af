import SecureElement.Proofs.Time.Seconds
import SecureElement.Proofs.X509.Times

/-!
The written forms of dates, digit by digit.

`TimeForm.Writes` says which octets are a date in a form: a tag, a length and the digits. In the form with
two digits for the year, 50 to 99 are the years from 1950 on and 00 to 49 those from 2000 on. Dates are read
by this rule (`Time.decode_eq_some_iff`), and every date is read back from the form that certificates must use
(`Time.decode_ofDateTime`).
-/

namespace SecureElement

/-- Only the last digits of a number are in a numeral of a fixed width. -/
theorem Decimal.fixed_mod (width n : Nat) : fixed width (n % 10 ^ width) = fixed width n := by
  have digits : (fixed width n).all isDigit = true :=
    List.all_eq_true.2 fun c member => (mem_fixed member).1
  have written := fixed_valueOfDigits digits
  rwa [length_fixed, valueOfDigits_fixed] at written

namespace X509

open Der

namespace TimeForm

/-- The number of digits of the year. -/
def yearWidth : TimeForm → Nat
  | .utc => 2
  | .generalized => 4

/-- The year that its digits stand for. -/
def yearOf : TimeForm → Nat → Nat
  | .utc, digits => if 50 ≤ digits then 1900 + digits else 2000 + digits
  | .generalized, digits => digits

/-- The characters of a date in a form: the digits of the year, two for each of the other five numbers, and
a `Z`. -/
def Spells (form : TimeForm) (cs : List Char) (d : DateTime) : Prop :=
  ∃ digits < 10 ^ form.yearWidth, d.year = form.yearOf digits ∧
    cs = Decimal.fixed form.yearWidth digits ++ Decimal.fixed 2 d.month ++ Decimal.fixed 2 d.day ++
      Decimal.fixed 2 d.hour ++ Decimal.fixed 2 d.minute ++ Decimal.fixed 2 d.second ++ ['Z']

/-- The octets of a date in a form: the tag of the form, and the characters with their number before them. -/
def Writes (form : TimeForm) (d : DateTime) (octets : Octets) : Prop :=
  ∃ cs, form.Spells cs d ∧
    octets = Time.tag form :: UInt8.ofNat cs.length :: cs.map fun c => UInt8.ofNat c.toNat

end TimeForm

namespace Time

/-- The octets of a date in a form. -/
def encode (t : Time) : Octets :=
  t.element.encode

/-- The date that octets are, and its form. -/
def decode (octets : Octets) : Option Time := do
  ofElement? (← Element.decode octets)

theorem yearOf_eq_fullYear (digits : Nat) : TimeForm.yearOf .utc digits = fullYear digits := by
  show (if 50 ≤ digits then 1900 + digits else 2000 + digits) = _
  rw [fullYear]
  by_cases late : digits < 50
  · rw [if_pos late, if_neg (Nat.not_le.2 late)]
  · rw [if_neg late, if_pos (Nat.not_lt.1 late)]

theorem fullYear_mod {digits : Nat} (small : digits < 100) : fullYear digits % 100 = digits := by
  unfold fullYear
  split <;> omega

/-- A date that is read back from its characters is in a year that the digits stand for. -/
theorem year_of_ofChars?_chars {t : Time} (read : ofChars? t.form t.chars = some t) :
    t.date.year = t.form.yearOf (t.date.year % 10 ^ t.form.yearWidth) := by
  obtain ⟨form, d⟩ := t
  have ended : numerals? [] ['Z'] = some [] := rfl
  cases form with
  | utc =>
      simp only [ofChars?, chars, List.append_assoc, numerals?_fixed (Nat.zero_lt_succ _), ended,
        Option.map_some, Option.bind_eq_bind, Option.bind_some, Option.bind_eq_some_iff,
        Option.some.injEq, Time.mk.injEq, true_and] at read
      obtain ⟨same, made, rfl⟩ := read
      rw [yearOf_eq_fullYear]
      exact (DateTime.make?_eq_some_iff.1 made).1
  | generalized =>
      have last := d.valid.2.1
      exact (Nat.mod_eq_of_lt (Nat.lt_succ_of_le last)).symm

theorem chars_of_spells {form : TimeForm} {cs : List Char} {d : DateTime} (spells : form.Spells cs d) :
    (⟨form, d⟩ : Time).chars = cs := by
  obtain ⟨digits, -, year, rfl⟩ := spells
  cases form with
  | utc =>
      rw [yearOf_eq_fullYear] at year
      simp only [chars, year, fixed_fullYear]
      rfl
  | generalized =>
      simp only [chars, year]
      rfl

/-- Characters are read as the date whose digits they are. -/
theorem ofChars?_eq_some_iff {form : TimeForm} {cs : List Char} {t : Time} :
    ofChars? form cs = some t ↔ t.form = form ∧ form.Spells cs t.date := by
  constructor
  · intro read
    have written := chars_of_ofChars? read
    obtain rfl := form_of_ofChars? read
    rw [← written] at read ⊢
    refine ⟨rfl, t.date.year % 10 ^ t.form.yearWidth, Nat.mod_lt _ (Nat.pow_pos (by decide)),
      year_of_ofChars?_chars read, ?_⟩
    rw [Decimal.fixed_mod]
    obtain ⟨form, d⟩ := t
    cases form <;> rfl
  · rintro ⟨rfl, spells⟩
    have written := chars_of_spells spells
    obtain ⟨digits, small, year, -⟩ := spells
    rw [← written]
    refine ofChars?_chars fun utc => ?_
    rw [utc] at small year
    rw [year, yearOf_eq_fullYear, fullYear_mod small]

/-! ### Octets -/

theorem encode_eq (t : Time) : t.encode =
    tag t.form :: UInt8.ofNat t.chars.length :: t.chars.map fun c => UInt8.ofNat c.toNat := by
  have few := t.length_chars_le
  have length : encodeLength t.chars.length = [UInt8.ofNat t.chars.length] := if_pos (by omega)
  simp only [encode, Element.encode, Header.encode, element, List.length_map, length, List.cons_append,
    List.nil_append]

/-- Octets are read as the date that is written in them. -/
theorem decode_eq_some_iff {octets : Octets} {t : Time} :
    decode octets = some t ↔ t.form.Writes t.date octets := by
  simp only [decode, Option.bind_eq_bind, Option.bind_eq_some_iff]
  constructor
  · rintro ⟨e, whole, read⟩
    obtain rfl := element_of_ofElement? read
    rw [ofElement?_element_eq, ofChars?_eq_some_iff] at read
    exact ⟨t.chars, read.2, (Element.encode_of_decode whole).symm.trans t.encode_eq⟩
  · rintro ⟨cs, spells, rfl⟩
    have sound : t.element.Sound := by
      refine ⟨isTag_tag t, ?_⟩
      show (t.chars.map _).length ≤ maxLength
      rw [List.length_map]
      exact Nat.le_trans t.length_chars_le (by decide)
    refine ⟨t.element, ?_, ?_⟩
    · rw [← chars_of_spells spells, ← encode_eq]
      exact Element.decode_encode sound
    · rw [ofElement?_element_eq, ofChars?_eq_some_iff, chars_of_spells spells]
      exact ⟨rfl, spells⟩

example : decode (0x17 :: 0x0D :: Octets.ofAscii "700101000000Z") =
    some ⟨.utc, ⟨1970, 1, 1, 0, 0, 0, by decide⟩⟩ := by decide

/-- Octets are one date at most, in one form. -/
theorem eq_of_writes {form form' : TimeForm} {d d' : DateTime} {octets : Octets}
    (first : form.Writes d octets) (second : form'.Writes d' octets) : form = form' ∧ d = d' := by
  have read := decode_eq_some_iff (t := ⟨form, d⟩).2 first
  rw [decode_eq_some_iff (t := ⟨form', d'⟩).2 second] at read
  cases read
  exact ⟨rfl, rfl⟩

/-- A date is written in the form that certificates must use, and read back from it. -/
theorem decode_ofDateTime (d : DateTime) : decode (ofDateTime d).encode = some (ofDateTime d) := by
  have read := ofElement?_ofDateTime d
  rw [ofElement?_element_eq, ofChars?_eq_some_iff] at read
  exact decode_eq_some_iff.2 ⟨_, read.2, encode_eq _⟩

end Time

end X509

end SecureElement
