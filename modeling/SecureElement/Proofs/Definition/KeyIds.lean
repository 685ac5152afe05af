import SecureElement.Proofs.Definition.Layout

/-!
Where the identifiers of keys stand.

An extension that identifies the subject's key does so by the content of the element that its value begins
with; one that identifies the authority's key, by the content of the first element with the tag of such
identifiers that is packed into the one its value begins with. Of several extensions the last one that
holds an identifier counts (`ExtensionSpot.latest_of_keyIdPlaces`).
-/

namespace SecureElement

open Der X509 Definition

/-- Extensions that identify the subject's key are told from those that identify the authority's. -/
theorem X509.Extension.oidSubjectKeyId_ne : oidSubjectKeyId ≠ oidAuthorityKeyId := by decide

/-- A stretch is the content of what the last of the elements that count holds, or the given one if none
counts. -/
def Definition.Latest {α : Type} {bytes : Octets} (counts : α → Prop) (holds : α → Spot bytes → Prop)
    (start : Location) (xs : List α) (l : Location) : Prop :=
  (∃ front x back id, xs = front ++ x :: back ∧ holds x id ∧ (∀ y ∈ back, ¬ counts y) ∧
    l = id.place.value) ∨
  (∀ x ∈ xs, ¬ counts x) ∧ l = start

namespace Definition.Latest

variable {α : Type} {bytes : Octets} {counts : α → Prop} {holds : α → Spot bytes → Prop}
  {start l : Location} {x : α} {xs : List α}

theorem cons_of_holds {id : Spot bytes} (here : holds x id)
    (later : Latest counts holds id.place.value xs l) : Latest counts holds start (x :: xs) l := by
  left
  rcases later with ⟨front, y, back, id', rfl, held, last, rfl⟩ | ⟨none, rfl⟩
  · exact ⟨x :: front, y, back, id', rfl, held, last, rfl⟩
  · exact ⟨[], x, xs, id, rfl, here, none, rfl⟩

theorem cons_of_not_counts (here : ¬ counts x) (later : Latest counts holds start xs l) :
    Latest counts holds start (x :: xs) l := by
  rcases later with ⟨front, y, back, id, rfl, held, last, rfl⟩ | ⟨none, rfl⟩
  · exact .inl ⟨x :: front, y, back, id, rfl, held, last, rfl⟩
  · right
    refine ⟨?_, rfl⟩
    intro y member
    rcases List.mem_cons.1 member with rfl | inside
    · exact here
    · exact none y inside

/-- The stretch is inside the octets. -/
theorem inside (latest : Latest counts holds .absent xs l) : l.stop ≤ bytes.length := by
  rcases latest with ⟨front, y, back, id, -, -, -, rfl⟩ | ⟨-, rfl⟩
  · exact id.value_holds.inside
  · exact Nat.zero_le _

end Definition.Latest

namespace Definition.ExtensionSpot

open CertDefinition

variable {bytes : Octets}

/-- An extension identifies the subject's key by the content of an element. -/
def HoldsSubjectId (x : ExtensionSpot bytes) (id : Spot bytes) : Prop :=
  x.extension.oid = Extension.oidSubjectKeyId ∧ x.value.Begins id

/-- An extension identifies the authority's key by the content of an element. -/
def HoldsAuthorityId (x : ExtensionSpot bytes) (id : Spot bytes) : Prop :=
  x.extension.oid = Extension.oidAuthorityKeyId ∧
    ∃ inner members, x.value.Begins inner ∧ inner.Packs members ∧
      members.find? (·.element.tag = contextPrimitive 0) = some id

theorem content_value (x : ExtensionSpot bytes) : x.value.element.content = x.extension.value := by
  rw [x.holds]
  rfl

theorem getLast?_places (x : ExtensionSpot bytes) :
    ((x.front ++ [x.value]).map Spot.place).getLast? = some x.value.place := by
  rw [List.map_append, List.map_singleton, List.getLast?_concat]

/-- What is looked for in an extension is read from the content of its value. -/
theorem placedValue_eq (x : ExtensionSpot bytes) :
    placedValue bytes x.whole.place =
      Placed.read bytes x.value.place.value.offset x.value.place.value.stop := by
  unfold placedValue
  rw [x.packs.children]
  simp only [bind, Except.bind, x.getLast?_places]

/-- What is found in an extension is the element that its value begins with. -/
theorem placedValue_eq_ok_iff {x : ExtensionSpot bytes} {p : Placed} :
    placedValue bytes x.whole.place = .ok p ↔ ∃ inner, inner.place = p ∧ x.value.Begins inner := by
  rw [x.placedValue_eq]
  exact Spot.read_eq_ok_iff x.value.value_holds.inside

/-- What an extension tells is noted, and nothing else. -/
structure Noted (x : ExtensionSpot bytes) (places places' : KeyIdPlaces) : Prop where
  subject : (∃ id, x.HoldsSubjectId id ∧ places'.subject = id.place.value) ∨
    x.extension.oid ≠ Extension.oidSubjectKeyId ∧ places'.subject = places.subject
  authority : (∃ id, x.HoldsAuthorityId id ∧ places'.authority = id.place.value) ∨
    (∀ id, ¬ x.HoldsAuthorityId id) ∧ places'.authority = places.authority

theorem noted_of_notePlaces {x : ExtensionSpot bytes} {places places' : KeyIdPlaces}
    (noted : notePlaces bytes places x.extension x.whole.place = .ok places') :
    Noted x places places' := by
  unfold notePlaces at noted
  by_cases subject : x.extension.oid = Extension.oidSubjectKeyId
  · rw [if_pos subject] at noted
    obtain ⟨p, found, rest⟩ := Authority.bind_eq_ok_iff.1 noted
    obtain ⟨id, rfl, begins⟩ := placedValue_eq_ok_iff.1 found
    cases rest
    constructor
    · exact .inl ⟨id, ⟨subject, begins⟩, rfl⟩
    · right
      refine ⟨fun id holds => Extension.oidSubjectKeyId_ne ?_, rfl⟩
      rw [← subject, holds.1]
  · rw [if_neg subject] at noted
    by_cases authority : x.extension.oid = Extension.oidAuthorityKeyId
    · rw [if_pos authority] at noted
      obtain ⟨p, found, rest⟩ := Authority.bind_eq_ok_iff.1 noted
      obtain ⟨inner, rfl, begins⟩ := placedValue_eq_ok_iff.1 found
      obtain ⟨ps, children, rest⟩ := Authority.bind_eq_ok_iff.1 rest
      obtain ⟨members, rfl, packs⟩ := Spot.children_eq_ok_iff.1 children
      -- Tags are told by the octets.
      have tags : (fun f : Placed => decide (f.tag bytes = contextPrimitive 0)) ∘ Spot.place =
          fun s : Spot bytes => decide (s.element.tag = contextPrimitive 0) := by
        funext s
        simp only [Function.comp_apply, s.tag_eq]
      rw [List.find?_map, tags] at rest
      cases first : members.find? (·.element.tag = contextPrimitive 0) with
      | none =>
          rw [first] at rest
          cases rest
          constructor
          · exact .inr ⟨subject, rfl⟩
          · right
            refine ⟨?_, rfl⟩
            rintro id ⟨-, inner', members', begins', packs', found'⟩
            obtain rfl := begins.unique begins'
            obtain rfl := packs.unique packs'
            rw [first] at found'
            cases found'
      | some id =>
          rw [first] at rest
          cases rest
          constructor
          · exact .inr ⟨subject, rfl⟩
          · exact .inl ⟨id, ⟨authority, inner, members, begins, packs, first⟩, rfl⟩
    · rw [if_neg authority] at noted
      cases noted
      constructor
      · exact .inr ⟨subject, rfl⟩
      · exact .inr ⟨fun id holds => authority holds.1, rfl⟩

/-- The identifiers that are found are the last ones. -/
theorem latest_of_keyIdPlaces {xs : List (ExtensionSpot bytes)} {places : KeyIdPlaces}
    (found : keyIdPlaces bytes (xs.map (·.extension)) (xs.map (·.whole.place)) = .ok places) :
    Latest (fun x => x.extension.oid = Extension.oidSubjectKeyId) HoldsSubjectId .absent xs
        places.subject ∧
      Latest (fun x => ∃ id, x.HoldsAuthorityId id) HoldsAuthorityId .absent xs places.authority := by
  -- The induction is on the extensions that are left, for any places that were noted before.
  have from_ : ∀ start : KeyIdPlaces,
      ((xs.map (·.extension)).zip (xs.map (·.whole.place))).foldlM
          (fun places pair => notePlaces bytes places pair.1 pair.2) start = .ok places →
        Latest (fun x => x.extension.oid = Extension.oidSubjectKeyId) HoldsSubjectId start.subject xs
            places.subject ∧
          Latest (fun x => ∃ id, x.HoldsAuthorityId id) HoldsAuthorityId start.authority xs
            places.authority := by
    clear found
    induction xs with
    | nil =>
        intro start found
        cases found
        exact ⟨.inr ⟨by simp, rfl⟩, .inr ⟨by simp, rfl⟩⟩
    | cons x rest ih =>
        intro start found
        rw [List.map_cons, List.map_cons, List.zip_cons_cons, List.foldlM_cons] at found
        obtain ⟨next, noted, found⟩ := Authority.bind_eq_ok_iff.1 found
        obtain ⟨subject, authority⟩ := noted_of_notePlaces noted
        obtain ⟨laterSubject, laterAuthority⟩ := ih next found
        constructor
        · rcases subject with ⟨id, holds, same⟩ | ⟨other, same⟩
          · rw [same] at laterSubject
            exact .cons_of_holds holds laterSubject
          · rw [same] at laterSubject
            exact .cons_of_not_counts other laterSubject
        · rcases authority with ⟨id, holds, same⟩ | ⟨none, same⟩
          · rw [same] at laterAuthority
            exact .cons_of_holds holds laterAuthority
          · rw [same] at laterAuthority
            refine .cons_of_not_counts ?_ laterAuthority
            rintro ⟨id, holds⟩
            exact none id holds
  exact from_ ⟨.absent, .absent⟩ found

end Definition.ExtensionSpot

end SecureElement
