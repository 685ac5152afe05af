import SecureElement.Definition.Describe
import SecureElement.Proofs.Authority.Texts
import SecureElement.Proofs.Definition.Spots
import SecureElement.Proofs.X509.Fields

/-!
Where the parts of certificates stand.

Every certificate that is read has a layout: its parts, each with its place (`Layout.exists_of_decode`).
What a definition looks for is found in the layout, so that a certificate has a definition exactly if its
key is a point with both coordinates and its key identifiers are found
(`CertDefinition.ofCertificate_eq_ok_iff`).
-/

namespace SecureElement

open Der X509 Authority Definition

/-! ### Layouts -/

/-- An extension where it stands. Its value is its last element. -/
structure Definition.ExtensionSpot (bytes : Octets) where
  extension : Extension
  whole : Spot bytes
  front : List (Spot bytes)
  value : Spot bytes
  packs : whole.Packs (front ++ [value])
  read : Extension.ofElement? whole.element = some extension
  holds : value.element = .octetString extension.value

/-- The field of the extensions holds a list, and the list holds them. -/
def Definition.Lists {bytes : Octets} : Option (Spot bytes) → List (ExtensionSpot bytes) → Prop
  | none, xs => xs = []
  | some field, xs => ∃ list, field.Packs [list] ∧ list.Packs (xs.map (·.whole))

/-- The parts of a certificate where they stand. -/
structure Definition.Layout (bytes : Octets) (c : Certificate) where
  whole : Spot bytes
  body : Spot bytes
  algorithm : Spot bytes
  signature : Spot bytes
  row : ToBeSigned.Row (Spot bytes)
  notBefore : Spot bytes
  notAfter : Spot bytes
  keyAlgorithm : Spot bytes
  keyBits : Spot bytes
  extensions : List (ExtensionSpot bytes)
  fills : whole.place.whole = ⟨0, bytes.length⟩
  parts : whole.Packs [body, algorithm, signature]
  fields : body.Packs row.toList
  dates : row.validity.Packs [notBefore, notAfter]
  key : row.publicKey.Packs [keyAlgorithm, keyBits]
  listed : Lists row.extensions extensions
  body_read : ToBeSigned.ofElement? body.element = some c.body
  algorithm_read : AlgorithmId.ofElement? algorithm.element = some c.algorithm
  signature_holds : signature.element = c.signature.element
  row_reads : (row.map Spot.element).Reads c.body
  notBefore_read : Time.ofElement? notBefore.element = some c.body.validity.notBefore
  notAfter_read : Time.ofElement? notAfter.element = some c.body.validity.notAfter
  keyBits_holds : keyBits.element = c.body.publicKey.key.element
  extensions_read : extensions.map (·.extension) = c.body.extensions.getD []

namespace Definition

variable {bytes : Octets}

theorem Spot.exists_packs_of_elements? {s : Spot bytes} {tag : UInt8} {es : List Element}
    (held : s.element.elements? tag = some es) : ∃ inner, inner.map Spot.element = es ∧ s.Packs inner := by
  simp only [Element.elements?, Option.bind_eq_bind, Option.bind_eq_some_iff,
    Element.content?_eq_some_iff] at held
  obtain ⟨content, same, read⟩ := held
  refine Spot.exists_packs ?_
  rw [same]
  exact read

namespace ExtensionSpot

/-- An element that is read as an extension is one. -/
theorem exists_of_ofElement? {s : Spot bytes} {x : Extension}
    (read : Extension.ofElement? s.element = some x) :
    ∃ spot : ExtensionSpot bytes, spot.whole = s ∧ spot.extension = x := by
  obtain ⟨front, row⟩ := Extension.exists_parts read
  obtain ⟨inner, elements, packs⟩ := Spot.exists_packs_of_elements? row
  obtain ⟨before, last, rfl, rfl, single⟩ := List.map_eq_append_iff.1 elements
  obtain ⟨value, rest, rfl, holds, none⟩ := List.map_eq_cons_iff.1 single
  obtain rfl := List.map_eq_nil_iff.1 none
  exact ⟨⟨x, s, before, value, packs, read, holds⟩, rfl, rfl⟩

theorem exists_of_forall₂ {spots : List (Spot bytes)} {extensions : List Extension}
    (reads : List.Forall₂ (fun e x => Extension.ofElement? e = some x) (spots.map Spot.element)
      extensions) :
    ∃ xs : List (ExtensionSpot bytes),
      xs.map (·.whole) = spots ∧ xs.map (·.extension) = extensions := by
  induction spots generalizing extensions with
  | nil =>
      cases reads
      exact ⟨[], rfl, rfl⟩
  | cons s rest ih =>
      cases reads with
      | cons first later =>
          obtain ⟨spot, rfl, rfl⟩ := exists_of_ofElement? first
          obtain ⟨xs, rfl, rfl⟩ := ih later
          exact ⟨spot :: xs, rfl, rfl⟩

/-- What the field of the extensions is read as is listed in it. -/
theorem exists_lists {field : Option (Spot bytes)} {extensions : Option (List Extension)}
    (read : ToBeSigned.extensionsOfField? (field.map Spot.element) = some extensions) :
    ∃ xs, Lists field xs ∧ xs.map (·.extension) = extensions.getD [] := by
  cases field with
  | none =>
      cases read
      exact ⟨[], rfl, rfl⟩
  | some field =>
      obtain ⟨listElement, members, held, row, reads⟩ := ToBeSigned.exists_of_extensionsOfField? read
      obtain ⟨inner, elements, wraps⟩ := Spot.exists_packs_of_elements? held
      simp only [List.map_eq_cons_iff, List.map_eq_nil_iff] at elements
      obtain ⟨list, -, rfl, rfl, rfl⟩ := elements
      obtain ⟨spots, rfl, packs⟩ := Spot.exists_packs_of_elements? row
      obtain ⟨xs, rfl, same⟩ := exists_of_forall₂ reads
      exact ⟨xs, ⟨list, wraps, packs⟩, same⟩

end ExtensionSpot

namespace Layout

/-- Every certificate that is read has a layout. -/
theorem exists_of_decode {c : Certificate} (decoded : Certificate.decode bytes = some c) :
    Nonempty (Layout bytes c) := by
  obtain ⟨e, bodyElement, algorithmElement, whole_read, sequence, body_read, algorithm_read⟩ :=
    Certificate.exists_parts decoded
  obtain ⟨whole, rfl, fills⟩ := Spot.exists_of_decode whole_read
  obtain ⟨parts_inner, parts_elements, parts⟩ := Spot.exists_packs_of_elements? sequence
  simp only [List.map_eq_cons_iff, List.map_eq_nil_iff] at parts_elements
  obtain ⟨body, -, rfl, rfl, algorithm, -, rfl, rfl, signature, -, rfl, signature_holds, rfl⟩ :=
    parts_elements
  -- The fields are packed into the first of its parts.
  obtain ⟨r, body_sequence, reads⟩ := ToBeSigned.exists_row body_read
  obtain ⟨row_inner, row_elements, fields⟩ := Spot.exists_packs_of_elements? body_sequence
  obtain ⟨row, rfl, rfl⟩ := ToBeSigned.Row.exists_of_map_eq row_elements
  obtain ⟨first, last, dates_sequence, notBefore_read, notAfter_read⟩ :=
    Validity.exists_parts reads.validity
  obtain ⟨dates_inner, dates_elements, dates⟩ := Spot.exists_packs_of_elements? dates_sequence
  simp only [List.map_eq_cons_iff, List.map_eq_nil_iff] at dates_elements
  obtain ⟨notBefore, -, rfl, rfl, notAfter, -, rfl, rfl, rfl⟩ := dates_elements
  obtain ⟨keyAlgorithmElement, key_sequence⟩ := PublicKeyInfo.exists_parts reads.publicKey
  obtain ⟨key_inner, key_elements, key⟩ := Spot.exists_packs_of_elements? key_sequence
  simp only [List.map_eq_cons_iff, List.map_eq_nil_iff] at key_elements
  obtain ⟨keyAlgorithm, -, rfl, rfl, keyBits, -, rfl, keyBits_holds, rfl⟩ := key_elements
  obtain ⟨extensions, listed, extensions_read⟩ := ExtensionSpot.exists_lists reads.extensions
  exact ⟨{
    whole, body, algorithm, signature, row, notBefore, notAfter, keyAlgorithm, keyBits, extensions
    fills, parts, fields, dates, key, listed, body_read, algorithm_read, signature_holds
    notBefore_read, notAfter_read, keyBits_holds, extensions_read
    row_reads := reads }⟩

variable {c : Certificate} (l : Layout bytes c)

theorem read_whole : Placed.read bytes 0 bytes.length = .ok l.whole.place := by
  have start : l.whole.place.offset = 0 := congrArg Location.offset l.fills
  have stop : l.whole.place.whole.stop = bytes.length := by
    rw [l.fills, Location.stop, Nat.zero_add]
  rw [← start]
  exact l.whole.read_place (Nat.le_of_eq stop) (Nat.le_refl _)

theorem decode_whole : Element.decode bytes = some l.whole.element := by
  have spelled : l.whole.element.encode = bytes := by
    rw [← l.whole.whole_holds.slice, l.fills]
    exact List.take_length
  conv => lhs; rw [← spelled]
  exact Element.decode_encode l.whole.sound

/-- What is signed of a certificate that was written stands in it as it was signed. -/
theorem body_element {c : Certificate} (l : Layout c.encode c) (fits : c.element.Fits) :
    l.body.element = c.body.element := by
  have decoded : Element.decode c.encode = some c.element := Element.decode_encode ⟨rfl, fits⟩
  have whole : l.whole.element = c.element := Option.some.inj (l.decode_whole.symm.trans decoded)
  have parts := l.parts.readAll
  have written : Element.readAll c.element.content =
      some [c.body.element, c.algorithm.element, c.signature.element] :=
    Element.readAll_encodeAll (Element.sound_of_tags fits rfl)
  rw [whole, written] at parts
  exact (List.cons.inj (Option.some.inj parts)).1.symm

/-- The fields that are counted begin with the serial number. -/
theorem withoutVersion_eq :
    CertDefinition.withoutVersion bytes (l.row.toList.map Spot.place) = l.row.later.map Spot.place := by
  unfold ToBeSigned.Row.toList
  cases here : l.row.version with
  | none =>
      have integer : l.row.serial.element.tag = tagInteger := l.row_reads.tag_serial
      have serial : l.row.serial.place.tag bytes ≠ contextConstructed 0 := by
        rw [l.row.serial.tag_eq, integer]
        decide
      exact if_neg serial
  | some version =>
      have tag : version.place.tag bytes = contextConstructed 0 := by
        rw [version.tag_eq]
        exact l.row_reads.tag_version version.element (Option.mem_map_of_mem _ here)
      exact if_pos tag

/-- The extensions are found by the tag of their field. -/
theorem placedExtensions_eq :
    CertDefinition.placedExtensions bytes (l.row.toList.map Spot.place) =
      .ok (l.extensions.map (·.whole.place)) := by
  have passed : (l.row.front.map Spot.place).find? (fun f => f.tag bytes = contextConstructed 3) =
      none := by
    rw [List.find?_eq_none]
    intro p member
    obtain ⟨s, inside, rfl⟩ := List.mem_map.1 member
    rw [s.tag_eq, decide_eq_true_eq]
    exact l.row_reads.tag_front s.element (ToBeSigned.Row.mem_front_map inside)
  have listed := l.listed
  unfold CertDefinition.placedExtensions
  rw [ToBeSigned.Row.toList_eq, List.map_append, List.find?_append, passed, Option.none_or]
  cases here : l.row.extensions with
  | none =>
      rw [here] at listed
      have empty : l.extensions = [] := listed
      rw [empty]
      rfl
  | some field =>
      rw [here] at listed
      obtain ⟨list, wraps, packs⟩ := listed
      have tag : field.place.tag bytes = contextConstructed 3 := by
        rw [field.tag_eq]
        exact l.row_reads.tag_extensions field.element (Option.mem_map_of_mem _ here)
      have wrapped := wraps.children
      have members := packs.children
      rw [List.map_map] at members
      simp only [List.map_cons, List.map_nil] at wrapped
      simp only [Option.toList_some, List.map_cons, List.map_nil, tag, List.find?_cons, decide_true, bind,
        Except.bind, wrapped]
      exact members

theorem signature_count : l.signature.place.value.count = c.signature.octets.length + 1 := by
  rw [l.signature.value_count, l.signature_holds]
  rfl

theorem signature_ne_zero : l.signature.place.value.count ≠ 0 := by
  rw [l.signature_count]
  exact Nat.succ_ne_zero _

/-- As many extensions are found as are read. -/
theorem length_extensions :
    (l.extensions.map (·.whole.place)).length = (c.body.extensions.getD []).length := by
  rw [← l.extensions_read, List.length_map, List.length_map]

/-- The definition of the certificate, for the places of its key identifiers. -/
def definition (kind : CertKind) (places : CertDefinition.KeyIdPlaces) : CertDefinition where
  kind := kind
  template := bytes
  tbsCert := l.body.place.whole
  serialNumber := l.row.serial.place.value
  issueDate := l.notBefore.place.value
  issueForm := c.body.validity.notBefore.form
  expireDate := l.notAfter.place.value
  expireForm := c.body.validity.notAfter.form
  publicKey := ⟨l.keyBits.place.value.offset + 2, 64⟩
  signature := ⟨l.signature.place.value.offset + 1, l.signature.place.value.count - 1⟩
  subjectKeyId := places.subject
  authorityKeyId := places.authority
  expireYears := c.body.validity.notAfter.date.year - c.body.validity.notBefore.date.year

/-- The definition of a certificate is made from the places of its key identifiers, if its key is a point
with both coordinates. -/
theorem ofCertificate_eq {kind : CertKind} (decoded : Certificate.decode bytes = some c) :
    CertDefinition.ofCertificate bytes kind =
      if CertDefinition.isUncompressedPoint c.body.publicKey.key.octets = true then
        (CertDefinition.keyIdPlaces bytes (c.body.extensions.getD [])
          (l.extensions.map (·.whole.place))).map (l.definition kind)
      else refuse .pointForm := by
  have parts := l.parts.children
  have dates := l.dates.children
  have key := l.key.children
  have serial : CertDefinition.fieldAt (l.row.later.map Spot.place) 0 = .ok l.row.serial.place := rfl
  have validity : CertDefinition.fieldAt (l.row.later.map Spot.place) 3 = .ok l.row.validity.place := rfl
  have publicKey : CertDefinition.fieldAt (l.row.later.map Spot.place) 5 = .ok l.row.publicKey.place := rfl
  simp only [List.map_cons, List.map_nil] at parts dates key
  unfold CertDefinition.ofCertificate
  simp only [decoded, orRefuse, bind, Except.bind, l.read_whole, parts, l.fields.children,
    l.withoutVersion_eq, serial, validity, dates, publicKey, key, l.placedExtensions_eq,
    l.length_extensions, l.signature_ne_zero, ne_eq, not_true_eq_false, if_false]
  by_cases point : CertDefinition.isUncompressedPoint c.body.publicKey.key.octets = true
  · rw [if_neg (not_not_intro point), if_pos point]
    cases CertDefinition.keyIdPlaces bytes (c.body.extensions.getD [])
        (l.extensions.map (·.whole.place)) with
    | error e => rfl
    | ok places => rfl
  · rw [if_pos point, if_neg point]
    rfl

/-- A certificate has a definition exactly if its key is a point with both coordinates and its key
identifiers are found. -/
theorem ofCertificate_eq_ok_iff {kind : CertKind} {d : CertDefinition}
    (decoded : Certificate.decode bytes = some c) :
    CertDefinition.ofCertificate bytes kind = .ok d ↔
      CertDefinition.isUncompressedPoint c.body.publicKey.key.octets = true ∧
      ∃ places, CertDefinition.keyIdPlaces bytes (c.body.extensions.getD [])
          (l.extensions.map (·.whole.place)) = .ok places ∧ d = l.definition kind places := by
  rw [l.ofCertificate_eq decoded]
  by_cases point : CertDefinition.isUncompressedPoint c.body.publicKey.key.octets = true
  · rw [if_pos point]
    cases CertDefinition.keyIdPlaces bytes (c.body.extensions.getD [])
        (l.extensions.map (·.whole.place)) with
    | error e => simp [Except.map]
    | ok places =>
        simp only [Except.map, Except.ok.injEq, point, true_and, exists_eq_left']
        exact eq_comm
  · simp [point, refuse]

end Layout

end Definition

end SecureElement
