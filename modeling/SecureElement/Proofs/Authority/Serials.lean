import SecureElement.Chip.Report
import SecureElement.Proofs.Authority.Texts
import SecureElement.Proofs.Der.Values
import SecureElement.Proofs.Octets.Hex

/-!
Serial numbers of chips as serial numbers of certificates.

The serial number that a chip reports is the hexadecimal text of nine octets
(`Report.serialNumber_eq_some_iff`), so that it is one that a certificate can carry unless it is zero
(`parseSerial_of_serialNumber`), and has the same value there (`toNat?_of_parseSerial`).
-/

namespace SecureElement

namespace Report

theorem length_of_pairsAt {count : Nat} {cs digits : List Char} (found : pairsAt count cs = some digits) :
    digits.length = 2 * count := by
  fun_induction pairsAt count cs generalizing digits with
  | case1 =>
      cases found
      rfl
  | case2 count a b rest pair ih =>
      obtain ⟨later, read, rfl⟩ := Option.map_eq_some_iff.1 found
      have := ih read
      simp only [List.length_cons]
      omega
  | case3 => cases found
  | case4 => cases found

theorem length_of_firstPairs {cs digits : List Char} (found : firstPairs cs = some digits) :
    digits.length = 2 * serialSize := by
  induction cs with
  | nil => cases found
  | cons c rest ih =>
      rw [firstPairs] at found
      split at found
      · next here =>
          cases found
          exact length_of_pairsAt here
      · exact ih found

/-- The octets that the first run of nine pairs in a report spells. -/
def Spells (report : String) (octets : Octets) : Prop :=
  ∃ digits, firstPairs report.toList = some digits ∧ Hex.decode digits = some octets

theorem Spells.length {report : String} {octets : Octets} (spells : Spells report octets) :
    octets.length = serialSize := by
  obtain ⟨digits, pairs, read⟩ := spells
  have digits_length := length_of_firstPairs pairs
  have octets_length := Hex.length_of_decode read
  omega

/-- A reported serial number is the text of the nine octets that the report spells. -/
theorem serialNumber_eq_some_iff {report serial : String} :
    serialNumber report = some serial ↔
      ∃ octets, Spells report octets ∧ serial = Hex.encodeUpper octets := by
  simp only [serialNumber, Option.bind_eq_bind, Option.bind_eq_some_iff, Option.some.injEq, Spells]
  constructor
  · rintro ⟨digits, pairs, octets, read, rfl⟩
    exact ⟨octets, ⟨digits, pairs, read⟩, rfl⟩
  · rintro ⟨octets, ⟨digits, pairs, read⟩, rfl⟩
    exact ⟨digits, pairs, octets, read, rfl⟩

end Report

namespace Authority

open Der X509

theorem isBlank_upperDigit {n : Nat} (small : n < 16) :
    Text.isBlank (Hex.upperDigit n) = false := by
  have every : ∀ n : Fin 16, Text.isBlank (Hex.upperDigit n.val) = false := by decide
  exact every ⟨n, small⟩

/-- There is no white space around a text of digits. -/
theorem trimChars_encodeUpper (octets : Octets) :
    Text.trimChars (Hex.encodeUpper octets).toList = (Hex.encodeUpper octets).toList := by
  refine Text.trimChars_of_plain fun c member => ?_
  obtain ⟨n, small, rfl⟩ := Hex.mem_encodeUpper member
  exact isBlank_upperDigit small

/-- A text spells a serial number if its value is positive and takes few enough octets. -/
theorem parseSerial_eq_ok_iff {text : String} {s : Serial} :
    parseSerial text = .ok s ↔
      ∃ octets, Hex.decode (Text.trimChars text.toList) = some octets ∧ Octets.toNat octets ≠ 0 ∧
        s.content = Integer.ofNat (Octets.toNat octets) ∧ s.content.length ≤ Serial.maxIssued := by
  obtain ⟨content⟩ := s
  simp only [parseSerial, bind_eq_ok_iff, orRefuse_eq_ok_iff]
  refine exists_congr fun octets => and_congr_right fun _ => ?_
  by_cases zero : Octets.toNat octets = 0
  · simp [zero, refuse]
  · rw [if_neg zero, orRefuse_eq_ok_iff, Serial.ofNat?]
    constructor
    · intro found
      obtain ⟨short, made⟩ := Option.ite_none_right_eq_some.1 found
      cases made
      exact ⟨zero, rfl, short⟩
    · rintro ⟨-, rfl, short⟩
      exact if_pos short

theorem content_of_parseSerial {text : String} {s : Serial} (found : parseSerial text = .ok s) :
    isInteger s.content = true ∧ s.content.length ≤ Serial.maxIssued := by
  obtain ⟨octets, -, -, content, short⟩ := parseSerial_eq_ok_iff.1 found
  rw [content] at short ⊢
  exact ⟨Integer.isInteger_ofNat _, short⟩

/-- The serial number in the certificate of a chip has the value that the chip's report spells. -/
theorem toNat?_of_parseSerial {octets : Octets} {s : Serial}
    (found : parseSerial (Hex.encodeUpper octets) = .ok s) :
    Integer.toNat? s.content = some (Octets.toNat octets) := by
  obtain ⟨read, decoded, -, content, -⟩ := parseSerial_eq_ok_iff.1 found
  rw [trimChars_encodeUpper, Hex.decode_encodeUpper] at decoded
  cases decoded
  rw [content, Integer.toNat?_ofNat]

/-- The serial number of a chip, unless it is zero, is one that a certificate can carry. -/
theorem parseSerial_of_serialNumber {report serial : String}
    (found : Report.serialNumber report = some serial) (nonzero : serial ≠ "000000000000000000") :
    ∃ s, parseSerial serial = .ok s := by
  obtain ⟨octets, spells, rfl⟩ := Report.serialNumber_eq_some_iff.1 found
  have nine := spells.length
  have positive : Octets.toNat octets ≠ 0 := by
    intro zero
    apply nonzero
    rw [Octets.eq_replicate_of_toNat zero, nine]
    decide
  have few : (Integer.ofNat (Octets.toNat octets)).length ≤ 9 + 1 := by
    refine Integer.length_ofNat_le ?_
    have bound := Octets.toNat_lt octets
    rw [nine] at bound
    exact bound
  refine ⟨⟨Integer.ofNat (Octets.toNat octets)⟩, parseSerial_eq_ok_iff.2 ⟨octets, ?_, positive, rfl, ?_⟩⟩
  · rw [trimChars_encodeUpper, Hex.decode_encodeUpper]
  · exact Nat.le_trans few (by decide)

end Authority

end SecureElement
