import SecureElement.Proofs.Definition.Describable
import SecureElement.Proofs.Definition.Guarded

/-!
Which certificates are described.

A certificate is described exactly if it is one that is read, its key is a point with both coordinates, and
the identifiers in its extensions are elements (`CertDefinition.ofCertificate_accepts`). The walk finds
every part of a certificate that is read, so that nothing but an identifier can be out of place.
-/

namespace SecureElement

open Der X509 Authority Definition

/-- A certificate can be described. -/
structure X509.Certificate.Describable (c : Certificate) : Prop where
  size : c.body.publicKey.key.octets.length = 65
  form : c.body.publicKey.key.octets.head? = some 0x04
  placeable : ∀ x ∈ c.body.extensions.getD [], x.Placeable

namespace Definition

variable {bytes : Octets}

/-- The content of an element is read as the element that it begins with. -/
theorem Spot.Begins.exists_read {s inner : Spot bytes} (begins : s.Begins inner) :
    ∃ rest, Element.read s.element.content = some (inner.element, rest) := by
  obtain ⟨here, room⟩ := begins
  have width : inner.place.whole.count ≤ s.place.value.count := by
    simp only [Location.stop] at room
    have same : inner.place.whole.offset = s.place.value.offset := here
    omega
  have front : s.element.content.take inner.place.whole.count = inner.element.encode := by
    rw [← s.value_holds.slice, ← inner.whole_holds.slice, Location.slice, Location.slice, List.take_take,
      Nat.min_eq_left width]
    exact congrArg (fun offset => (bytes.drop offset).take _) here.symm
  refine ⟨s.element.content.drop inner.place.whole.count, ?_⟩
  conv => lhs; rw [← List.take_append_drop inner.place.whole.count s.element.content, front]
  exact Element.read_encode inner.sound _

/-- What goes wrong when an element is read by its place: its header is malformed, or its content does
not fit. -/
def ReadFault (e : SigningError) : Prop :=
  e = .input .encoding ∨ e = .input (.malformedPart .element)

theorem Placed.readFault_of_read {offset stop : Nat} {e : SigningError}
    (failed : read bytes offset stop = .error e) : ReadFault e := by
  unfold read at failed
  dsimp only at failed
  split at failed
  · split at failed
    · cases failed
      exact .inl rfl
    · split at failed
      · cases failed
        exact .inr rfl
      · cases failed
  · cases failed
    exact .inr rfl

theorem Placed.readFault_of_row {offset stop : Nat} {e : SigningError}
    (failed : row bytes offset stop = .error e) : ReadFault e := by
  fun_induction row bytes offset stop with
  | case1 offset more e' unread =>
      cases failed
      exact readFault_of_read unread
  | case2 offset more child read progress ih =>
      cases later : row bytes child.whole.stop stop with
      | error e' =>
          rw [later] at failed
          cases failed
          exact ih later
      | ok ps =>
          rw [later] at failed
          cases failed
  | case3 => cases failed

namespace ExtensionSpot

variable {x : ExtensionSpot bytes} {places : CertDefinition.KeyIdPlaces}

/-- An extension whose identifier is found has an element there. -/
theorem placeable_of_notePlaces {places' : CertDefinition.KeyIdPlaces}
    (noted : CertDefinition.notePlaces bytes places x.extension x.whole.place = .ok places') :
    x.extension.Placeable := by
  unfold CertDefinition.notePlaces at noted
  constructor
  · intro subject
    rw [if_pos subject] at noted
    obtain ⟨p, found, -⟩ := bind_eq_ok_iff.1 noted
    obtain ⟨inner, rfl, begins⟩ := placedValue_eq_ok_iff.1 found
    obtain ⟨rest, read⟩ := begins.exists_read
    rw [x.content_value] at read
    exact ⟨inner.element, rest, read⟩
  · intro authority
    have subject : x.extension.oid ≠ Extension.oidSubjectKeyId := by
      rw [authority]
      exact Extension.oidSubjectKeyId_ne.symm
    rw [if_neg subject, if_pos authority] at noted
    obtain ⟨p, found, noted⟩ := bind_eq_ok_iff.1 noted
    obtain ⟨inner, rfl, begins⟩ := placedValue_eq_ok_iff.1 found
    obtain ⟨ps, children, -⟩ := bind_eq_ok_iff.1 noted
    obtain ⟨members, rfl, packs⟩ := Spot.children_eq_ok_iff.1 children
    obtain ⟨rest, read⟩ := begins.exists_read
    rw [x.content_value] at read
    exact ⟨inner.element, rest, _, read, packs.readAll⟩

theorem readFault_of_notePlaces {e : SigningError}
    (failed : CertDefinition.notePlaces bytes places x.extension x.whole.place = .error e) :
    ReadFault e := by
  have value : ∀ {e}, CertDefinition.placedValue bytes x.whole.place = .error e → ReadFault e := by
    intro e failed
    rw [x.placedValue_eq] at failed
    exact Placed.readFault_of_read failed
  unfold CertDefinition.notePlaces at failed
  split at failed
  · rcases bind_eq_error_iff.1 failed with failed | ⟨p, -, failed⟩
    · exact value failed
    · cases failed
  · split at failed
    · rcases bind_eq_error_iff.1 failed with failed | ⟨p, -, failed⟩
      · exact value failed
      · rcases bind_eq_error_iff.1 failed with failed | ⟨ps, -, failed⟩
        · exact Placed.readFault_of_row failed
        · split at failed <;> cases failed
    · cases failed

end ExtensionSpot

end Definition

namespace CertDefinition

variable {bytes : Octets} {xs : List (ExtensionSpot bytes)}

theorem placeable_of_keyIdPlaces {places : KeyIdPlaces}
    (found : keyIdPlaces bytes (xs.map (·.extension)) (xs.map (·.whole.place)) = .ok places) :
    ∀ x ∈ xs, x.extension.Placeable := by
  unfold keyIdPlaces at found
  generalize KeyIdPlaces.mk .absent .absent = start at found
  induction xs generalizing start with
  | nil =>
      intro x member
      cases member
  | cons x rest ih =>
      rw [List.map_cons, List.map_cons, List.zip_cons_cons, List.foldlM_cons] at found
      obtain ⟨next, noted, found⟩ := bind_eq_ok_iff.1 found
      exact List.forall_mem_cons.2 ⟨ExtensionSpot.placeable_of_notePlaces noted, ih next found⟩

theorem readFault_of_keyIdPlaces {e : SigningError}
    (failed : keyIdPlaces bytes (xs.map (·.extension)) (xs.map (·.whole.place)) = .error e) :
    ReadFault e := by
  unfold keyIdPlaces at failed
  generalize KeyIdPlaces.mk .absent .absent = start at failed
  induction xs generalizing start with
  | nil => cases failed
  | cons x rest ih =>
      rw [List.map_cons, List.map_cons, List.zip_cons_cons, List.foldlM_cons] at failed
      rcases bind_eq_error_iff.1 failed with failed | ⟨next, -, failed⟩
      · exact ExtensionSpot.readFault_of_notePlaces failed
      · exact ih next failed

theorem isUncompressedPoint_iff {point : Octets} :
    isUncompressedPoint point = true ↔ point.length = 65 ∧ point.head? = some 0x04 := by
  simp [isUncompressedPoint]

/-- The places of all identifiers are found exactly if they are elements. -/
theorem exists_keyIdPlaces_iff :
    (∃ places, keyIdPlaces bytes (xs.map (·.extension)) (xs.map (·.whole.place)) = .ok places) ↔
      ∀ x ∈ xs.map (·.extension), x.Placeable := by
  rw [List.forall_mem_map]
  constructor
  · rintro ⟨places, found⟩
    exact placeable_of_keyIdPlaces found
  · intro placeable
    exact exists_keyIdPlaces placeable

/-- A certificate that is read is described exactly if it can be. -/
theorem exists_ofCertificate_iff {c : Certificate} {kind : CertKind}
    (decoded : Certificate.decode bytes = some c) :
    (∃ d, ofCertificate bytes kind = .ok d) ↔ c.Describable := by
  constructor
  · rintro ⟨d, described⟩
    obtain ⟨l⟩ := Layout.exists_of_decode decoded
    obtain ⟨point, places, found, -⟩ := (l.ofCertificate_eq_ok_iff decoded).1 described
    obtain ⟨size, form⟩ := isUncompressedPoint_iff.1 point
    refine ⟨size, form, ?_⟩
    rw [← l.extensions_read] at found ⊢
    exact exists_keyIdPlaces_iff.1 ⟨places, found⟩
  · rintro ⟨size, form, placeable⟩
    exact exists_ofCertificate decoded (isUncompressedPoint_iff.2 ⟨size, form⟩) placeable kind

/-- A certificate that is read is refused for the form of its key, or for an identifier that is no element. -/
theorem fault_of_ofCertificate {c : Certificate} {kind : CertKind} {e : SigningError}
    (decoded : Certificate.decode bytes = some c) (refused : ofCertificate bytes kind = .error e) :
    e = .input .pointForm ∨ ¬ (∀ x ∈ c.body.extensions.getD [], x.Placeable) ∧ ReadFault e := by
  obtain ⟨l⟩ := Layout.exists_of_decode decoded
  rw [l.ofCertificate_eq decoded, ← l.extensions_read] at refused
  split at refused
  · cases found : keyIdPlaces bytes (l.extensions.map (·.extension)) (l.extensions.map (·.whole.place)) with
    | ok places =>
        rw [found] at refused
        cases refused
    | error e' =>
        rw [found] at refused
        cases refused
        right
        refine ⟨?_, readFault_of_keyIdPlaces found⟩
        rw [← l.extensions_read, ← exists_keyIdPlaces_iff]
        rintro ⟨places, other⟩
        rw [found] at other
        cases other
  · cases refused
    exact .inl rfl

theorem ofCertificate_of_unread {kind : CertKind} (unread : Certificate.decode bytes = none) :
    ofCertificate bytes kind = refuse .encoding := by
  unfold ofCertificate
  rw [unread]
  rfl

/-- A certificate is described exactly if it is one that is read, its key is a point with both coordinates
and its identifiers are elements. If they are, nothing but the form of the key is refused; no other part of
a certificate is ever found malformed, and nothing outside the octets is looked up. -/
theorem ofCertificate_accepts (bytes : Octets) (kind : CertKind) :
    ((∃ d, ofCertificate bytes kind = .ok d) ↔
      ∃ c, Certificate.decode bytes = some c ∧ c.Describable) ∧
    (∀ c, Certificate.decode bytes = some c → (∀ x ∈ c.body.extensions.getD [], x.Placeable) →
      ∀ e, ofCertificate bytes kind = .error e → e = .input .pointForm) ∧
    (∀ part, ofCertificate bytes kind = refuse (.malformedPart part) → part = .element) ∧
    guardedCertificate bytes kind = .always (ofCertificate bytes kind) := by
  refine ⟨⟨?_, ?_⟩, ?_, ?_, guardedCertificate_eq bytes kind⟩
  · rintro ⟨d, described⟩
    cases decoded : Certificate.decode bytes with
    | none =>
        rw [ofCertificate_of_unread decoded] at described
        cases described
    | some c => exact ⟨c, rfl, (exists_ofCertificate_iff decoded).1 ⟨d, described⟩⟩
  · rintro ⟨c, decoded, describable⟩
    exact (exists_ofCertificate_iff decoded).2 describable
  · intro c decoded placeable e refused
    rcases fault_of_ofCertificate decoded refused with same | ⟨other, -⟩
    · exact same
    · exact absurd placeable other
  · intro part refused
    cases decoded : Certificate.decode bytes with
    | none =>
        rw [ofCertificate_of_unread decoded] at refused
        cases refused
    | some c =>
        rcases fault_of_ofCertificate decoded refused with same | ⟨-, same | same⟩
        · cases same
        · cases same
        · cases same
          rfl

end CertDefinition

end SecureElement
