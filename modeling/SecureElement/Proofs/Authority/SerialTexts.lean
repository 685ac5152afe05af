import SecureElement.Proofs.Authority.Serials
import SecureElement.Proofs.Der.TwosComplement

/-!
Serial numbers as hexadecimal text.

A text is a serial number if it is pairs of digits, within white space at most, that denote a number from
one on whose integer takes few enough octets (`exists_parseSerial_iff`). The content of the serial number is
the shortest one of that number; its text is the digits in upper case without the pairs of zeros in front
(`toHex_of_parseSerial`), which are read as the same serial number again (`parseSerial_toHex`).
-/

namespace SecureElement.Authority

open Der X509

/-- A text that is pairs of hexadecimal digits with white space around them at most, by the digits and the
number that they denote. -/
structure HexText (text : String) (digits : List Char) (n : Nat) : Prop where
  around : Text.StandsIn digits text
  even : digits.length % 2 = 0
  value : Hex.value? digits = some n

/-- Nothing but the white space around them is trimmed from digits. -/
theorem trimChars_of_standsIn {text : String} {digits : List Char} {n : Nat}
    (stands : Text.StandsIn digits text) (value : Hex.value? digits = some n) :
    Text.trimChars text.toList = digits := by
  have plain : ∀ c ∈ digits, Text.isBlank c = false := by
    intro c member
    exact Hex.isBlank_of_isDigit (Hex.isDigit_of_foldlM value c member)
  rw [stands.trimChars_eq, Text.trimChars_of_plain plain]

/-- The digits of a text are what is left of it without the white space. -/
theorem hexText_iff {text : String} {digits : List Char} {n : Nat} :
    HexText text digits n ↔ digits = Text.trimChars text.toList ∧
      ∃ octets, Hex.decode digits = some octets ∧ Octets.toNat octets = n := by
  constructor
  · intro h
    exact ⟨(trimChars_of_standsIn h.around h.value).symm, Hex.decode_of_value? h.even h.value⟩
  · rintro ⟨rfl, octets, read, rfl⟩
    exact ⟨Text.standsIn_trimChars text, (Hex.exists_decode_iff.1 ⟨octets, read⟩).1, Hex.value?_of_decode read⟩

/-- A text has one reading. -/
theorem HexText.unique {text : String} {digits digits' : List Char} {n n' : Nat}
    (first : HexText text digits n) (second : HexText text digits' n') : digits = digits' ∧ n = n' := by
  have same : digits = digits' := (hexText_iff.1 first).1.trans (hexText_iff.1 second).1.symm
  refine ⟨same, ?_⟩
  have values := first.value
  rw [same, second.value] at values
  exact (Option.some.inj values).symm

/-- A text is read as a serial number with the shortest content of the number that it denotes. -/
theorem parseSerial_iff_hexText {text : String} {s : Serial} :
    parseSerial text = .ok s ↔ ∃ digits n, HexText text digits n ∧ 0 < n ∧
      Integer.Shortest s.content n ∧ s.content.length ≤ Serial.maxIssued := by
  rw [parseSerial_eq_ok_iff]
  constructor
  · rintro ⟨octets, read, nonzero, content, short⟩
    refine ⟨_, _, hexText_iff.2 ⟨rfl, octets, read, rfl⟩, Nat.pos_of_ne_zero nonzero, ?_, short⟩
    rw [content]
    exact Integer.shortest_ofNat _
  · rintro ⟨digits, n, spelled, positive, shortest, short⟩
    obtain ⟨rfl, octets, read, rfl⟩ := hexText_iff.1 spelled
    exact ⟨octets, read, positive.ne', shortest.unique (Integer.shortest_ofNat _), short⟩

theorem exists_parseSerial_iff {text : String} :
    (∃ s, parseSerial text = .ok s) ↔ ∃ digits n, HexText text digits n ∧ 0 < n ∧
      ∃ content, Integer.Shortest content n ∧ content.length ≤ Serial.maxIssued := by
  constructor
  · rintro ⟨s, found⟩
    obtain ⟨digits, n, spelled, positive, shortest, short⟩ := parseSerial_iff_hexText.1 found
    exact ⟨digits, n, spelled, positive, s.content, shortest, short⟩
  · rintro ⟨digits, n, spelled, positive, content, shortest, short⟩
    exact ⟨⟨content⟩, parseSerial_iff_hexText.2 ⟨digits, n, spelled, positive, shortest, short⟩⟩

section

variable {text : String} {s : Serial} {digits : List Char} {n : Nat}

theorem shortest_of_parseSerial (found : parseSerial text = .ok s) (spelled : HexText text digits n) :
    Integer.Shortest s.content n := by
  obtain ⟨digits', n', spelled', -, shortest, -⟩ := parseSerial_iff_hexText.1 found
  rw [(spelled.unique spelled').2]
  exact shortest

/-- The content is the octets that the digits spell from the first one on that is not zero, with a zero
octet in front if that one has the top bit set. -/
theorem content_of_hexText (found : parseSerial text = .ok s) (spelled : HexText text digits n) :
    ∃ zeros b rest, Hex.decode digits = some (List.replicate zeros 0 ++ b :: rest) ∧ b ≠ 0 ∧
      s.content = if b < 0x80 then b :: rest else 0 :: b :: rest := by
  obtain ⟨rfl, -⟩ := hexText_iff.1 spelled
  obtain ⟨octets, read, nonzero, content, -⟩ := parseSerial_eq_ok_iff.1 found
  obtain ⟨zeros, b, rest, rfl, other⟩ := Octets.exists_first_of_toNat nonzero
  refine ⟨zeros, b, rest, read, other, ?_⟩
  rw [content, Integer.ofNat, Octets.ofNatMinimal_toNat, Octets.dropWhile_zeros zeros other]

example : (parseSerial " 00Ff ").toOption = some ⟨[0x00, 0xFF]⟩ := by decide

/-- The text of a serial number is the digits that it was read from, in upper case and without the pairs of
zeros in front. -/
theorem toHex_of_parseSerial (found : parseSerial text = .ok s) (spelled : HexText text digits n) :
    s.toHex = String.ofList (Hex.dropZeroPairs (digits.map Char.toUpper)) := by
  obtain ⟨zeros, b, rest, read, other, content⟩ := content_of_hexText found spelled
  have significant : s.content.dropWhile (· == 0) = b :: rest := by
    rw [content]
    split
    · exact Octets.dropWhile_zeros 0 other
    · exact Octets.dropWhile_zeros 1 other
  rw [Serial.toHex, significant, Hex.decode_eq_some_iff.1 read, Hex.encodeUpper, Hex.encodeUpper, String.toList_ofList,
    Hex.dropZeroPairs_encodeWith, Octets.dropWhile_zeros zeros other]

end

/-- A positive serial number of few enough octets is read from its own text. -/
theorem parseSerial_toHex {s : Serial} {n : Nat} (positive : 0 < n)
    (shortest : Integer.Shortest s.content n) (short : s.content.length ≤ Serial.maxIssued) :
    parseSerial s.toHex = .ok s := by
  have content : s.content = Integer.ofNat n := shortest.unique (Integer.shortest_ofNat n)
  have value : Octets.toNat (s.content.dropWhile (· == 0)) = n := by
    rw [Octets.toNat_dropWhile_zero, content, Integer.toNat_ofNat]
  refine parseSerial_eq_ok_iff.2 ⟨s.content.dropWhile (· == 0), ?_, ?_, ?_, short⟩
  · rw [Serial.toHex, trimChars_encodeUpper, Hex.decode_encodeUpper]
  · rw [value]
    exact positive.ne'
  · rw [value, content]

/-- Serial numbers survive their integers: a text is read exactly if it is pairs of hexadecimal digits,
within white space at most, that denote a number from one on whose integer takes 20 octets or fewer; its
content is then the one shortest row of octets for that number, with a zero octet in front exactly if the
first one of the others has the top bit set; it is written as the digits in upper case without the pairs of
zeros in front; two texts are read as one serial number exactly if they denote one number; and each
positive serial number of 20 octets or fewer is read from its own text. -/
theorem parseSerial_shortest :
    (∀ text, (∃ s, parseSerial text = .ok s) ↔ ∃ digits n, HexText text digits n ∧ 0 < n ∧
      ∃ content, Integer.Shortest content n ∧ content.length ≤ 20) ∧
    (∀ text s digits n, parseSerial text = .ok s → HexText text digits n →
      (∀ content, Integer.Shortest content n ↔ content = s.content) ∧
      (∃ zeros b rest, Hex.decode digits = some (List.replicate zeros 0 ++ b :: rest) ∧ b ≠ 0 ∧
        s.content = if b < 0x80 then b :: rest else 0 :: b :: rest) ∧
      s.toHex = String.ofList (Hex.dropZeroPairs (digits.map Char.toUpper))) ∧
    (∀ text text' s s' digits digits' n n', parseSerial text = .ok s → parseSerial text' = .ok s' →
      HexText text digits n → HexText text' digits' n' → (s = s' ↔ n = n')) ∧
    ∀ (s : Serial) (n : Int), 0 < n → Integer.Shortest s.content n → s.content.length ≤ 20 →
      parseSerial s.toHex = .ok s := by
  refine ⟨fun text => exists_parseSerial_iff, ?_, ?_, ?_⟩
  · intro text s digits n found spelled
    have shortest := shortest_of_parseSerial found spelled
    refine ⟨?_, content_of_hexText found spelled, toHex_of_parseSerial found spelled⟩
    intro content
    constructor
    · intro other
      exact other.unique shortest
    · rintro rfl
      exact shortest
  · intro text text' s s' digits digits' n n' found found' spelled spelled'
    have shortest := shortest_of_parseSerial found spelled
    have shortest' := shortest_of_parseSerial found' spelled'
    constructor
    · rintro rfl
      exact Int.natCast_inj.1 (shortest.value.symm.trans shortest'.value)
    · rintro rfl
      have contents := shortest.unique shortest'
      cases s
      cases s'
      rw [Serial.mk.injEq]
      exact contents
  · intro s n positive shortest short
    obtain ⟨m, rfl⟩ := Int.eq_ofNat_of_zero_le positive.le
    exact parseSerial_toHex (Int.natCast_pos.1 positive) shortest short

end SecureElement.Authority
