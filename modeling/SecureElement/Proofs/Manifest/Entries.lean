import SecureElement.Manifest.Entry
import SecureElement.Proofs.Manifest.Reading
import SecureElement.Proofs.Octets.Base64
import SecureElement.Proofs.Octets.Hex
import SecureElement.Proofs.Octets.Trim
import SecureElement.Proofs.Octets.Utf8

/-!
What a manifest tells of a chip.

The octets of a manifest are the text of one document with one entry. `Tells` looks into the entry by the
names of its fields and decodes what it finds there; what it finds is what the entry was made of
(`tells_of_ofCertificates`).
-/

namespace SecureElement.Manifest

namespace Json

/-- The value of the field with a name. -/
def field? (name : String) : Json → Option Json
  | record fields => fields.lookup name
  | _ => none

/-- The item at a place in a list. -/
def item? (n : Nat) : Json → Option Json
  | list items => items[n]?
  | _ => none

end Json

/-- The key in an entry. -/
def key? (entry : Json) : Option Json := do
  let keys ← entry.field? "publicKeySet"
  let list ← keys.field? "keys"
  list.item? 0

/-- A certificate in an entry. -/
def certificate? (n : Nat) (entry : Json) : Option Json := do
  let key ← key? entry
  let chain ← key.field? "x5c"
  chain.item? n

/-- A coordinate of the key in an entry. -/
def coordinate? (name : String) (entry : Json) : Option Json := do
  let key ← key? entry
  key.field? name

/-- A document is the text of base 64 symbols that spell these octets. -/
def SpellsPadded (j : Option Json) (octets : Octets) : Prop :=
  ∃ symbols, j = some (.text symbols) ∧ Base64.decode (Utf8.encode symbols) = some octets

/-- A document is the text of 43 symbols without padding that spell these octets in the alphabet for
addresses. -/
def SpellsCoordinate (j : Option Json) (octets : Octets) : Prop :=
  ∃ symbols, j = some (.text symbols) ∧ symbols.toList.length = 43 ∧ '=' ∉ symbols.toList ∧
    Base64.decodeUnpadded Base64.urlSafe (Utf8.encode symbols) = some octets

/-- An entry tells of a chip what it is called, of which kind it is, which certificates it has, and both
coordinates of the point of its key. -/
structure Tells (entry : Json) (chip : ChipKind) (uniqueId : String) (device signer point : Octets) :
    Prop where
  uniqueId : entry.field? "uniqueId" = some (.text uniqueId)
  partNumber : entry.field? "partNumber" = some (.text chip.partNumber)
  device : SpellsPadded (certificate? 0 entry) device
  signer : SpellsPadded (certificate? 1 entry) signer
  coordinates : ∃ x y, SpellsCoordinate (coordinate? "x" entry) x ∧
    SpellsCoordinate (coordinate? "y" entry) y ∧ x ++ y = (point.drop 1).take 64

/-- The octets of a file are the text of a document with these entries. -/
def ReadsAs (content : Octets) (entries : List Json) : Prop :=
  ∃ t, Utf8.decode content = some t ∧ Json.read? t = some (.list entries)

/-! ### What was recorded -/

/-- A manifest is read back as the entries that it was made of. -/
theorem readsAs_text (entries : List Entry) : ReadsAs (Utf8.encode (text entries)) (entries.map Entry.json) :=
  ⟨text entries, Utf8.decode_encode _, Json.read?_pretty _⟩

theorem spellsPadded_encode {j : Option Json} {octets : Octets}
    (written : j = some (.text (Octets.toAscii (Base64.encode octets)))) : SpellsPadded j octets := by
  refine ⟨_, written, ?_⟩
  rw [Octets.encode_toAscii fun b member => (Base64.plain_encode octets b member).1, Base64.decode_encode]

theorem equals_not_mem_toAscii {octets : Octets} (plain : ∀ b ∈ octets, b < 0x80 ∧ b ≠ Base64.pad) :
    '=' ∉ (Octets.toAscii octets).toList := by
  rw [Octets.toAscii, String.toList_ofList]
  intro member
  obtain ⟨b, here, same⟩ := List.mem_map.1 member
  obtain ⟨ascii, unfilled⟩ := plain b here
  have every : ∀ n : Fin 128, Char.ofNat n.val = '=' → UInt8.ofNat n.val = Base64.pad := by decide
  have filled := every ⟨b.toNat, UInt8.lt_iff_toNat_lt.1 ascii⟩ same
  simp only [UInt8.ofNat_toNat] at filled
  exact unfilled filled

theorem spellsCoordinate_encode {j : Option Json} {octets : Octets} (size : octets.length = 32)
    (written : j = some (.text (Octets.toAscii (Base64.encodeUrlSafe octets)))) :
    SpellsCoordinate j octets := by
  have plain := Base64.plain_encodeUrlSafe octets
  refine ⟨_, written, ?_, equals_not_mem_toAscii plain, ?_⟩
  · rw [Octets.toAscii, String.toList_ofList, List.length_map, Base64.length_encodeUrlSafe, size]
  · rw [Octets.encode_toAscii fun b member => (plain b member).1]
    exact Base64.decodeUnpadded_encodeWith (.inr rfl) octets

theorem Entry.ofCertificates_eq_ok_iff {chip : ChipKind} {serial : String} {device signer : Octets}
    {e : Entry} :
    Entry.ofCertificates chip serial device signer = .ok e ↔
      ∃ certificate, X509.Certificate.decode device = some certificate ∧
        (X509.Certificate.decode signer).isSome ∧
        CertDefinition.isUncompressedPoint certificate.body.publicKey.key.octets = true ∧
        e = ⟨chip, Entry.lowerAscii serial, (certificate.body.publicKey.key.octets.drop 1).take 32,
          certificate.body.publicKey.key.octets.drop 33, device, signer⟩ := by
  unfold Entry.ofCertificates
  cases X509.Certificate.decode device with
  | none =>
      constructor
      · intro made
        cases made
      · rintro ⟨certificate, ⟨⟩, -⟩
  | some certificate =>
      cases X509.Certificate.decode signer with
      | none =>
          constructor
          · intro made
            cases made
          · rintro ⟨-, -, ⟨⟩, -⟩
      | some other =>
          cases point : CertDefinition.isUncompressedPoint certificate.body.publicKey.key.octets with
          | false =>
              constructor
              · intro made
                simp [bind, Except.bind, point] at made
              · rintro ⟨certificate', ⟨⟩, -, point', -⟩
                rw [point] at point'
                cases point'
          | true =>
              constructor
              · intro made
                simp only [bind, Except.bind, point, not_true_eq_false, if_false] at made
                cases made
                exact ⟨certificate, rfl, rfl, point, rfl⟩
              · rintro ⟨certificate', ⟨⟩, -, -, rfl⟩
                simp only [bind, Except.bind, point, not_true_eq_false, if_false]
                rfl

theorem uniqueId_of_ofCertificates {chip : ChipKind} {serial : String} {device signer : Octets} {e : Entry}
    (made : Entry.ofCertificates chip serial device signer = .ok e) :
    e.uniqueId = Entry.lowerAscii serial := by
  obtain ⟨certificate, -, -, -, rfl⟩ := Entry.ofCertificates_eq_ok_iff.1 made
  rfl

/-- A serial number in lower case is written with lower-case digits. -/
theorem lowerAscii_encodeUpper (octets : Octets) :
    Entry.lowerAscii (Hex.encodeUpper octets) = Hex.encodeLower octets := by
  have every : ∀ n : Fin 16, (if 'A' ≤ Hex.upperDigit n.val ∧ Hex.upperDigit n.val ≤ 'Z'
      then Char.ofNat ((Hex.upperDigit n.val).toNat + 32) else Hex.upperDigit n.val) =
        Hex.lowerDigit n.val := by decide
  apply String.toList_inj.1
  rw [Entry.lowerAscii, String.toList_map, Hex.encodeUpper, Hex.encodeLower, String.toList_ofList,
    String.toList_ofList, Hex.encodeWith, Hex.encodeWith, List.map_flatMap]
  refine List.flatMap_congr fun b _ => ?_
  have bound := b.toNat_lt
  have high := every ⟨b.toNat / 16, by omega⟩
  have low := every ⟨b.toNat % 16, Nat.mod_lt _ (by decide)⟩
  rw [List.map_cons, List.map_cons, List.map_nil, high, low]

/-- An entry tells what it was made of. -/
theorem tells_of_ofCertificates {chip : ChipKind} {serial : String} {device signer : Octets} {e : Entry}
    (made : Entry.ofCertificates chip serial device signer = .ok e) :
    ∃ certificate, X509.Certificate.decode device = some certificate ∧
      Tells e.json chip (Entry.lowerAscii serial) device signer certificate.body.publicKey.key.octets := by
  obtain ⟨certificate, decoded, -, point, rfl⟩ := Entry.ofCertificates_eq_ok_iff.1 made
  refine ⟨certificate, decoded, ?_⟩
  have size : certificate.body.publicKey.key.octets.length = 65 := by
    simp only [CertDefinition.isUncompressedPoint, Bool.and_eq_true, beq_iff_eq] at point
    exact point.1
  constructor
  case uniqueId => rfl
  case partNumber => rfl
  case device => exact spellsPadded_encode rfl
  case signer => exact spellsPadded_encode rfl
  case coordinates =>
    refine ⟨_, _, spellsCoordinate_encode ?_ rfl, spellsCoordinate_encode ?_ rfl, ?_⟩
    · simp [size]
    · simp [size]
    · generalize certificate.body.publicKey.key.octets = point at size
      have rest : (point.drop 1).take 64 = point.drop 1 := List.take_of_length_le (by simp [size])
      rw [rest, show point.drop 33 = (point.drop 1).drop 32 by rw [List.drop_drop], List.take_append_drop]

end SecureElement.Manifest
