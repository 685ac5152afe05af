import SecureElement.Proofs.Authority.Lengths
import SecureElement.Proofs.Time.Years
import SecureElement.Proofs.X509.DateForms

/-!
The dates of certificates and the periods between them.

Every date is read back from the form that is chosen for its year, and two dates are never written alike. A
period may begin in one form and end in the other; as it is read, it still does not end before it begins
(`certificate_dates_lossless`).
-/

namespace SecureElement.Authority

open Der X509 Crypto

/-- A period is the one of a certificate that is issued at a moment for a number of years. -/
def IsPeriodFrom (now : Moment) (years : Nat) (period : Validity) : Prop :=
  ∃ notBefore notAfter, issuanceTime now = .ok notBefore ∧ addYears notBefore years = .ok notAfter ∧
    period = ⟨.ofDateTime notBefore, .ofDateTime notAfter⟩

section

variable {now : Moment} {years : Nat} {period : Validity}

theorem IsPeriodFrom.ordered (from_ : IsPeriodFrom now years period) :
    period.notBefore.date.toSeconds ≤ period.notAfter.date.toSeconds := by
  obtain ⟨notBefore, notAfter, -, later, rfl⟩ := from_
  simp only [Time.date_ofDateTime]
  exact (addYears_eq_ok_iff.1 later).le

theorem IsPeriodFrom.read_back (from_ : IsPeriodFrom now years period) :
    Validity.ofElement? period.element = some period := by
  have fits := Element.fits_of_short (Nat.le_trans (length_validity_le period) (by decide))
  obtain ⟨notBefore, notAfter, -, -, rfl⟩ := from_
  exact Validity.ofElement?_between fits

end

/-- The period in the text that is signed is the one from the moment of signing on. -/
theorem isPeriodFrom_of_signRequest {requestText serialText : String} {issuer : Certificate}
    {key : P256.PrivateKey} {years : Nat} {now : Moment} {text : Octets}
    (signed : signRequest requestText issuer key serialText years now = .ok text) :
    ∃ certificate, parseCertificate text = .ok certificate ∧
      IsPeriodFrom now years certificate.body.validity := by
  obtain ⟨request, notBefore, notAfter, serial, certificate, -, -, -, dated, later, -, -, -, back⟩ :=
    signRequest_eq_ok_iff_readsBack.1 signed
  exact ⟨certificate, back.parsed, notBefore, notAfter, dated, later, back.built.validity⟩

/-- Dates in certificates are lossless. Every date is written, with two digits for its year exactly up to 2049; what
is written is that date and no other, by the rule that 50 to 99 are the years from 1950 on and 00 to 49 those
from 2000 on, and this rule is how dates are read; two dates are never written alike. A period that a
certificate is issued for is read back and does not end before it begins, and so it is in every text that is
signed. -/
theorem certificate_dates_lossless :
    (∀ d, x509Time d = .ok (.ofDateTime d)) ∧
    (∀ d, (Time.ofDateTime d).form = .utc ↔ d.year < 2050) ∧
    (∀ d form d', TimeForm.Writes form d' (Time.ofDateTime d).encode ↔
      form = (Time.ofDateTime d).form ∧ d' = d) ∧
    (∀ octets t, Time.decode octets = some t ↔ t.form.Writes t.date octets) ∧
    (∀ d d', (Time.ofDateTime d).encode = (Time.ofDateTime d').encode ↔ d = d') ∧
    (∀ now years period, IsPeriodFrom now years period →
      Validity.ofElement? period.element = some period ∧
      period.notBefore.date.toSeconds ≤ period.notAfter.date.toSeconds) ∧
    ∀ requestText issuer key serialText years now text,
      signRequest requestText issuer key serialText years now = .ok text →
      ∃ certificate, parseCertificate text = .ok certificate ∧
        IsPeriodFrom now years certificate.body.validity ∧
        certificate.body.validity.notBefore.date.toSeconds ≤
          certificate.body.validity.notAfter.date.toSeconds := by
  have written : ∀ d, (Time.ofDateTime d).form.Writes d (Time.ofDateTime d).encode := by
    intro d
    have written := Time.decode_eq_some_iff.1 (Time.decode_ofDateTime d)
    rwa [Time.date_ofDateTime] at written
  refine ⟨x509Time_eq_ok, ?_, ?_, fun octets t => Time.decode_eq_some_iff, ?_, ?_, ?_⟩
  · intro d
    rw [Time.form_ofDateTime]
    split
    case isTrue short => exact iff_of_true rfl short
    case isFalse long => exact iff_of_false (by decide) long
  · intro d form d'
    constructor
    · intro other
      exact Time.eq_of_writes other (written d)
    · rintro ⟨rfl, rfl⟩
      exact written d'
  · intro d d'
    constructor
    · intro same
      exact (Time.eq_of_writes (written d) (same ▸ written d')).2
    · rintro rfl
      rfl
  · intro now years period from_
    exact ⟨from_.read_back, from_.ordered⟩
  · intro requestText issuer key serialText years now text signed
    obtain ⟨certificate, parsed, from_⟩ := isPeriodFrom_of_signRequest signed
    exact ⟨certificate, parsed, from_, from_.ordered⟩

end SecureElement.Authority
