import SecureElement.Proofs.Definition.KeyIds

/-!
Certificates that can be described.

A certificate has a definition if its key is a point with both coordinates and the identifiers in its
extensions are elements (`CertDefinition.exists_ofCertificate`).
-/

namespace SecureElement

open Der X509 Definition

/-- The values in which identifiers are looked for are elements. -/
structure X509.Extension.Placeable (x : Extension) : Prop where
  subject : x.oid = oidSubjectKeyId → ∃ inner rest, Element.read x.value = some (inner, rest)
  authority : x.oid = oidAuthorityKeyId → ∃ inner rest members,
    Element.read x.value = some (inner, rest) ∧ Element.readAll inner.content = some members

namespace CertDefinition

variable {bytes : Octets}

theorem exists_placedValue {x : ExtensionSpot bytes} {e : Element} {rest : Octets}
    (read : Element.read x.extension.value = some (e, rest)) :
    ∃ inner : Spot bytes, inner.element = e ∧
      placedValue bytes x.whole.place = .ok inner.place := by
  rw [← x.content_value] at read
  obtain ⟨inner, same, begins⟩ := Spot.exists_begins read
  exact ⟨inner, same, ExtensionSpot.placedValue_eq_ok_iff.2 ⟨inner, rfl, begins⟩⟩

theorem exists_notePlaces {x : ExtensionSpot bytes} (placeable : x.extension.Placeable)
    (places : KeyIdPlaces) :
    ∃ places', notePlaces bytes places x.extension x.whole.place = .ok places' := by
  unfold notePlaces
  by_cases subject : x.extension.oid = Extension.oidSubjectKeyId
  · obtain ⟨e, rest, read⟩ := placeable.subject subject
    obtain ⟨inner, -, found⟩ := exists_placedValue read
    rw [if_pos subject, found]
    exact ⟨_, rfl⟩
  · rw [if_neg subject]
    by_cases authority : x.extension.oid = Extension.oidAuthorityKeyId
    · obtain ⟨e, rest, es, read, members_read⟩ := placeable.authority authority
      obtain ⟨inner, rfl, found⟩ := exists_placedValue read
      obtain ⟨members, -, packs⟩ := Spot.exists_packs members_read
      rw [if_pos authority, found]
      simp only [bind, Except.bind, packs.children]
      split <;> exact ⟨_, rfl⟩
    · rw [if_neg authority]
      exact ⟨_, rfl⟩

theorem exists_keyIdPlaces {xs : List (ExtensionSpot bytes)}
    (placeable : ∀ x ∈ xs, x.extension.Placeable) :
    ∃ places, keyIdPlaces bytes (xs.map (·.extension)) (xs.map (·.whole.place)) = .ok places := by
  unfold keyIdPlaces
  generalize KeyIdPlaces.mk .absent .absent = places
  induction xs generalizing places with
  | nil => exact ⟨places, rfl⟩
  | cons x rest ih =>
      obtain ⟨noted, note⟩ := exists_notePlaces (placeable x (by simp)) places
      obtain ⟨places', later⟩ := ih (fun y member => placeable y (by simp [member])) noted
      refine ⟨places', ?_⟩
      rw [List.map_cons, List.map_cons, List.zip_cons_cons, List.foldlM_cons]
      dsimp only
      rw [note]
      exact later

/-- A certificate can be described if its key is a point and its identifiers are elements. -/
theorem exists_ofCertificate {c : Certificate} (decoded : Certificate.decode bytes = some c)
    (point : isUncompressedPoint c.body.publicKey.key.octets = true)
    (placeable : ∀ x ∈ c.body.extensions.getD [], x.Placeable) (kind : CertKind) :
    ∃ definition, ofCertificate bytes kind = .ok definition := by
  obtain ⟨l⟩ := Layout.exists_of_decode decoded
  have each : ∀ x ∈ l.extensions, x.extension.Placeable := by
    intro x member
    apply placeable
    rw [← l.extensions_read]
    exact List.mem_map_of_mem member
  obtain ⟨places, found⟩ := exists_keyIdPlaces each
  rw [l.extensions_read] at found
  exact ⟨_, (l.ofCertificate_eq_ok_iff decoded).2 ⟨point, places, found, rfl⟩⟩

end CertDefinition

end SecureElement
