import SecureElement.Proofs.Authority.Demands
import SecureElement.Proofs.Authority.SerialTexts
import SecureElement.Proofs.Time.Hours

/-!
When two tasks give the same certificate.

Of a moment only its hour matters, of the text of a serial number only the number, and of the text of a request
only what is left of it without the white space around it. Tasks that agree in these give one text or none
(`Task.Alike.signed_iff`). Tasks that differ in the hour or in the serial number do not, since both are told by
the certificate (`Task.eq_of_signed`). So a certificate is the same exactly if these are
(`signed_alike_iff`).
-/

namespace SecureElement.Authority

open Der X509

/-! ### Hours -/

/-- The full hours from the start of 1970 to a moment. -/
def Moment.hour (now : Moment) : Int :=
  now / (3600 * nanosPerSecond : Nat)

/-- A moment lies from the start of 1970 to the last second of 9999, and not after it by any part of a second. -/
def Moment.InRange (now : Moment) : Prop :=
  0 ≤ now ∧ now ≤ (lastDate.toSeconds * nanosPerSecond : Nat)

section

variable {now later : Moment} {date laterDate : DateTime}

/-- A certificate is issued from the start of the hour on. -/
theorem issuanceTime_eq_ok_iff_hour :
    issuanceTime now = .ok date ↔ now.InRange ∧ (date.toSeconds : Int) = now.hour * 3600 := by
  rw [issuanceTime_eq_ok_iff, ← toSeconds_lastDate, ← and_assoc]
  refine and_congr_right fun range => ?_
  have whole : (now.toNat : Int) = now := Int.toNat_of_nonneg range.1
  simp only [Moment.seconds, Moment.hour, nanosPerSecond]
  omega

/-- In one hour certificates are issued from one date on. -/
theorem issuanceTime_congr (range : now.InRange) (range' : later.InRange) (same : now.hour = later.hour) :
    issuanceTime now = .ok date ↔ issuanceTime later = .ok date := by
  rw [issuanceTime_eq_ok_iff_hour, issuanceTime_eq_ok_iff_hour, same]
  exact and_congr_left fun _ => iff_of_true range range'

theorem hour_eq_of_issuanceTime (issued : issuanceTime now = .ok date)
    (issued' : issuanceTime later = .ok date) : now.hour = later.hour := by
  have first := (issuanceTime_eq_ok_iff_hour.1 issued).2
  have second := (issuanceTime_eq_ok_iff_hour.1 issued').2
  omega

end

/-! ### Serial numbers -/

/-- Two texts denote a number by hexadecimal digits that differ in their case, in the white space around them
and in the pairs of zeros in front of them at most. -/
def SerialsAlike (a b : String) (n : Nat) : Prop :=
  ∃ digits digits', Text.StandsIn digits a ∧ Text.StandsIn digits' b ∧ Hex.value? digits = some n ∧
    Hex.value? digits' = some n ∧ digits.length % 2 = digits'.length % 2

section

variable {a b text : String} {digits : List Char} {n : Nat} {s : Serial}

theorem SerialsAlike.symm (alike : SerialsAlike a b n) : SerialsAlike b a n := by
  obtain ⟨digits, digits', here, there, value, value', parity⟩ := alike
  exact ⟨digits', digits, there, here, value', value, parity.symm⟩

example : SerialsAlike " 00fF" "Ff\n" 255 :=
  ⟨['0', '0', 'f', 'F'], ['F', 'f'],
    ⟨[' '], [], rfl, List.forall_mem_singleton.2 (by decide), List.forall_mem_nil _⟩,
    ⟨[], ['\n'], rfl, List.forall_mem_nil _, List.forall_mem_singleton.2 (by decide)⟩,
    by decide, by decide, by decide⟩

/-- The digits in a text that is a serial number can be taken in pairs. -/
theorem even_of_parseSerial (found : parseSerial text = .ok s) (stands : Text.StandsIn digits text)
    (value : Hex.value? digits = some n) : digits.length % 2 = 0 := by
  obtain ⟨digits', m, read, -⟩ := parseSerial_iff_hexText.1 found
  have trimmed := (hexText_iff.1 read).1
  rw [trimChars_of_standsIn stands value] at trimmed
  rw [← trimmed]
  exact read.even

theorem SerialsAlike.parseSerial (alike : SerialsAlike a b n) (found : parseSerial a = .ok s) :
    Authority.parseSerial b = .ok s := by
  obtain ⟨digits, digits', here, there, value, value', parity⟩ := alike
  have even := even_of_parseSerial found here value
  have first : HexText a digits n := ⟨here, even, value⟩
  have second : HexText b digits' n := ⟨there, parity ▸ even, value'⟩
  obtain ⟨digits₀, n₀, read, positive, shortest, short⟩ := parseSerial_iff_hexText.1 found
  obtain ⟨-, rfl⟩ := read.unique first
  exact parseSerial_iff_hexText.2 ⟨digits', n₀, second, positive, shortest, short⟩

/-- Texts that denote one number are read as one serial number, or both as none. -/
theorem SerialsAlike.parseSerial_iff (alike : SerialsAlike a b n) :
    Authority.parseSerial a = .ok s ↔ Authority.parseSerial b = .ok s :=
  ⟨alike.parseSerial, alike.symm.parseSerial⟩

end

/-! ### Tasks -/

namespace Task

variable {t u : Task}

/-- What is signed for a task. -/
def signed (t : Task) : Except SigningError Octets :=
  signRequest t.requestText t.issuer t.key t.serialText t.years t.now

/-- Two tasks are for one request of one issuer: all but the serial number and the moment is the same, up to
the white space around the request. -/
structure SameRequest (t u : Task) : Prop where
  request : Text.Alike t.requestText u.requestText
  issuer : t.issuer = u.issuer
  key : t.key = u.key
  years : t.years = u.years

/-- Two tasks are for one request in one hour, under one serial number. -/
structure Alike (t u : Task) : Prop extends SameRequest t u where
  serial : ∃ n, SerialsAlike t.serialText u.serialText n
  range : t.now.InRange ∧ u.now.InRange
  hour : t.now.hour = u.now.hour

theorem SameRequest.parseRequest_eq (same : t.SameRequest u) :
    parseRequest t.requestText = parseRequest u.requestText := by
  simp only [parseRequest, Text.alike_iff.1 same.request]

/-- Tasks that are alike give one text, or both none. -/
theorem Alike.signed_iff (alike : t.Alike u) {text : Octets} : t.signed = .ok text ↔ u.signed = .ok text := by
  obtain ⟨n, serials⟩ := alike.serial
  have dates : ∀ date, issuanceTime t.now = .ok date ↔ issuanceTime u.now = .ok date := fun _ =>
    issuanceTime_congr alike.range.1 alike.range.2 alike.hour
  have numbers : ∀ serial, parseSerial t.serialText = .ok serial ↔ parseSerial u.serialText = .ok serial :=
    fun _ => serials.parseSerial_iff
  simp only [signed, signRequest_eq_ok_iff, issue_eq_ok_iff, alike.parseRequest_eq, alike.issuer, alike.key,
    alike.years, dates, numbers]

/-- A certificate tells the hour and the serial number that it was signed for. -/
theorem eq_of_signed {text : Octets} (first : t.signed = .ok text) (second : u.signed = .ok text) :
    t.now.hour = u.now.hour ∧ parseSerial t.serialText = parseSerial u.serialText := by
  obtain ⟨_, notBefore, _, serial, certificate, -, -, -, dated, -, numbered, -, -, back⟩ :=
    signRequest_eq_ok_iff_readsBack.1 first
  obtain ⟨_, notBefore', _, serial', certificate', -, -, -, dated', -, numbered', -, -, back'⟩ :=
    signRequest_eq_ok_iff_readsBack.1 second
  have same : certificate = certificate' := Except.ok.inj (back.parsed.symm.trans back'.parsed)
  subst same
  have date : notBefore = notBefore' := back.built.dates.1.symm.trans back'.built.dates.1
  have number : serial = serial' := back.built.serial.symm.trans back'.built.serial
  subst date number
  exact ⟨hour_eq_of_issuanceTime dated dated', numbered.trans numbered'.symm⟩

/-- What is signed is the text of a certificate, for a serial number from one on and a moment in range. -/
theorem exists_of_signed {text : Octets} (signed : t.signed = .ok text) :
    t.now.InRange ∧ (∃ digits n, HexText t.serialText digits n ∧ 0 < n) ∧
      ∃ certificate, parseCertificate text = .ok certificate ∧ text = certificateText certificate := by
  obtain ⟨_, _, _, _, certificate, -, -, -, dated, -, numbered, -, written, back⟩ :=
    signRequest_eq_ok_iff_readsBack.1 signed
  obtain ⟨digits, n, read, positive, -⟩ := parseSerial_iff_hexText.1 numbered
  exact ⟨(issuanceTime_eq_ok_iff_hour.1 dated).1, ⟨digits, n, read, positive⟩, certificate, back.parsed, written⟩

/-- For one request the texts are the same exactly if the hours and the serial numbers are. -/
theorem SameRequest.text_eq_iff (same : t.SameRequest u) {text text' : Octets} (first : t.signed = .ok text)
    (second : u.signed = .ok text') {digits digits' : List Char} {n n' : Nat}
    (read : HexText t.serialText digits n) (read' : HexText u.serialText digits' n') :
    text = text' ↔ n = n' ∧ t.now.hour = u.now.hour := by
  constructor
  · rintro rfl
    obtain ⟨hour, numbers⟩ := eq_of_signed first second
    refine ⟨?_, hour⟩
    obtain ⟨_, _, _, serial, _, -, -, -, -, -, numbered, -⟩ := signRequest_eq_ok_iff_readsBack.1 first
    have shortest := shortest_of_parseSerial numbered read
    have shortest' := shortest_of_parseSerial (numbers ▸ numbered) read'
    exact Int.natCast_inj.1 (shortest.value.symm.trans shortest'.value)
  · rintro ⟨rfl, hour⟩
    have serial : SerialsAlike t.serialText u.serialText n :=
      ⟨digits, digits', read.around, read'.around, read.value, read'.value, read.even.trans read'.even.symm⟩
    have alike : t.Alike u :=
      ⟨same, ⟨n, serial⟩, ⟨(exists_of_signed first).1, (exists_of_signed second).1⟩, hour⟩
    exact Except.ok.inj ((alike.signed_iff.1 first).symm.trans second)

end Task

/-- Two tasks for one request of one issuer, with the same key and number of years: if they are for moments in one
hour and their texts of the serial number denote one number, differing in case, in white space around the digits
and in pairs of zeros at most, then one is signed exactly if the other is, and as the same text. If both are signed,
the texts are the same only then, and hold the same certificate only then. -/
theorem signed_alike_iff :
    (∀ t u : Task, t.Alike u → ∀ text, t.signed = .ok text ↔ u.signed = .ok text) ∧
    ∀ (t u : Task) (text text' : Octets), t.SameRequest u → t.signed = .ok text → u.signed = .ok text' →
      ∃ digits n digits' n', HexText t.serialText digits n ∧ 0 < n ∧ HexText u.serialText digits' n' ∧ 0 < n' ∧
        (text = text' ↔ n = n' ∧ t.now.hour = u.now.hour) ∧
        ∃ certificate certificate', parseCertificate text = .ok certificate ∧
          parseCertificate text' = .ok certificate' ∧
          (certificate = certificate' ↔ n = n' ∧ t.now.hour = u.now.hour) := by
  refine ⟨fun t u alike text => alike.signed_iff, ?_⟩
  intro t u text text' same first second
  obtain ⟨-, ⟨digits, n, read, positive⟩, certificate, parsed, written⟩ := Task.exists_of_signed first
  obtain ⟨-, ⟨digits', n', read', positive'⟩, certificate', parsed', written'⟩ := Task.exists_of_signed second
  have texts := same.text_eq_iff first second read read'
  refine ⟨digits, n, digits', n', read, positive, read', positive', texts, certificate, certificate', parsed,
    parsed', ?_⟩
  rw [← texts]
  constructor
  · rintro rfl
    exact written.trans written'.symm
  · rintro rfl
    exact Except.ok.inj (parsed.symm.trans parsed')

end SecureElement.Authority
