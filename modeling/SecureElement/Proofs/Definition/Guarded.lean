import SecureElement.Proofs.Definition.KeyIds

/-!
Walks that look up only what is there.

The walk that describes a certificate takes an octet outside for zero, and refuses a stretch that ends
outside. Here each of its steps is guarded: it has no outcome if what it looks up is not there.
For all octets the guarded walk has the outcome of the walk (`CertDefinition.guardedCertificate_eq`), so
that nothing outside is ever looked up.
-/

namespace SecureElement

open Der X509 Authority Definition

/-- An outcome, or none at all if something was looked up that is not there. -/
abbrev Guarded := ExceptT SigningError Option

namespace Guarded

variable {α β : Type}

/-- The outcome of a step that looks up nothing, or only what is there. -/
def always (outcome : Except SigningError α) : Guarded α := ExceptT.mk (some outcome)

/-- What is looked up, if it is there. -/
def lookUp (found : Option α) : Guarded α := ExceptT.lift found

@[simp] theorem always_ok_bind (a : α) (next : α → Guarded β) :
    always (.ok a) >>= next = next a := rfl

/-- One step after another has the outcome of both, if each has its own. -/
theorem always_bind {outcome : Except SigningError α} {next : α → Guarded β}
    {later : α → Except SigningError β} (each : ∀ a, outcome = .ok a → next a = always (later a)) :
    always outcome >>= next = always (outcome >>= later) := by
  cases outcome with
  | error e => rfl
  | ok a => exact each a rfl

end Guarded

open Guarded

/-! ### Guarded steps -/

namespace Definition.Placed

/-- The tag of an element, if it is there. -/
def guardedTag (p : Placed) (bytes : Octets) : Guarded UInt8 :=
  lookUp bytes[p.offset]?

/-- The element that starts at an offset and ends before another, if the octets between them are there. -/
def guardedRead (bytes : Octets) (offset stop : Nat) : Guarded Placed :=
  if offset ≤ stop ∧ stop ≤ bytes.length then always (read bytes offset stop) else lookUp none

theorem read_of_guardedRead {bytes : Octets} {offset stop : Nat} {p : Placed}
    (found : guardedRead bytes offset stop = always (.ok p)) : read bytes offset stop = .ok p := by
  unfold guardedRead at found
  split at found
  · exact Option.some.inj found
  · cases found

/-- The elements that tile the octets from an offset to another. -/
def guardedRow (bytes : Octets) (offset stop : Nat) : Guarded (List Placed) :=
  if offset < stop then
    match h : (guardedRead bytes offset stop).run with
    | none => lookUp none
    | some (.error e) => always (.error e)
    | some (.ok child) =>
        have := headerLength_pos_of_read (read_of_guardedRead h)
        (guardedRow bytes child.whole.stop stop).map (child :: ·)
  else always (.ok [])
termination_by stop - offset
decreasing_by
  simp only [whole, Location.stop]
  omega

/-- The elements packed into the content of an element, in order. -/
def guardedChildren (p : Placed) (bytes : Octets) : Guarded (List Placed) :=
  guardedRow bytes p.value.offset p.value.stop

end Definition.Placed

namespace CertDefinition

/-- The first of some elements with a tag. -/
def guardedFind (bytes : Octets) (tag : UInt8) : List Placed → Guarded (Option Placed)
  | [] => pure none
  | p :: rest => do
      if (← p.guardedTag bytes) = tag then pure (some p) else guardedFind bytes tag rest

/-- The fields of the signed part after its version. -/
def guardedWithoutVersion (bytes : Octets) : List Placed → Guarded (List Placed)
  | [] => pure []
  | first :: rest => do
      if (← first.guardedTag bytes) = contextConstructed 0 then pure rest else pure (first :: rest)

/-- The elements of the extensions, among the fields of the signed part. -/
def guardedExtensions (bytes : Octets) (fields : List Placed) : Guarded (List Placed) := do
  match ← guardedFind bytes (contextConstructed 3) fields with
  | none => pure []
  | some wrapper =>
      match ← wrapper.guardedChildren bytes with
      | [list] => list.guardedChildren bytes
      | _ => always (refuse (.malformedPart .extensions))

/-- The element in the value of an extension. -/
def guardedValue (bytes : Octets) (extension : Placed) : Guarded Placed := do
  match (← extension.guardedChildren bytes).getLast? with
  | none => always (refuse (.malformedPart .extensionValue))
  | some octets => Placed.guardedRead bytes octets.value.offset octets.value.stop

/-- The places of key identifiers after one more extension. -/
def guardedNote (bytes : Octets) (places : KeyIdPlaces) (extension : Extension) (placed : Placed) :
    Guarded KeyIdPlaces := do
  if extension.oid = Extension.oidSubjectKeyId then
    let inner ← guardedValue bytes placed
    pure { places with subject := inner.value }
  else if extension.oid = Extension.oidAuthorityKeyId then
    let inner ← guardedValue bytes placed
    match ← guardedFind bytes (contextPrimitive 0) (← inner.guardedChildren bytes) with
    | some id => pure { places with authority := id.value }
    | none => pure places
  else pure places

/-- The places of the key identifiers in all extensions. -/
def guardedKeyIdPlaces (bytes : Octets) (extensions : List Extension) (placed : List Placed) :
    Guarded KeyIdPlaces :=
  (extensions.zip placed).foldlM (fun places (x, p) => guardedNote bytes places x p)
    ⟨.absent, .absent⟩

/-- Whether the octets of a public key are those of a point with both coordinates. The first of them is
looked up if there are as many as such a point has. -/
def guardedPoint (point : Octets) : Guarded Bool :=
  if point.length ≠ 65 then pure false
  else return (← lookUp point[0]?) = 0x04

/-- The definition of a certificate. -/
def guardedCertificate (bytes : Octets) (kind : CertKind) : Guarded CertDefinition := do
  let certificate ← always (orRefuse .encoding (Certificate.decode bytes))
  let body := certificate.body
  let outer ← Placed.guardedRead bytes 0 bytes.length
  match ← outer.guardedChildren bytes with
  | [placedBody, _, placedSignature] =>
      let fields ← placedBody.guardedChildren bytes
      let known ← guardedWithoutVersion bytes fields
      let serial ← always (fieldAt known 0)
      let validity ← always (fieldAt known 3)
      match ← validity.guardedChildren bytes with
      | [notBefore, notAfter] =>
          if ¬ (← guardedPoint body.publicKey.key.octets) then always (refuse .pointForm)
          else
          let keyInfo ← always (fieldAt known 5)
          match ← keyInfo.guardedChildren bytes with
          | [_, keyBits] =>
              let extensions := body.extensions.getD []
              let placed ← guardedExtensions bytes fields
              if placed.length ≠ extensions.length then always (refuse (.malformedPart .extensions))
              else
              let places ← guardedKeyIdPlaces bytes extensions placed
              let bits := placedSignature.value
              if bits.count = 0 then always (refuse (.malformedPart .signature))
              else
              pure {
                kind
                template := bytes
                tbsCert := placedBody.whole
                serialNumber := serial.value
                issueDate := notBefore.value
                issueForm := body.validity.notBefore.form
                expireDate := notAfter.value
                expireForm := body.validity.notAfter.form
                publicKey := ⟨keyBits.value.offset + 2, 64⟩
                signature := ⟨bits.offset + 1, bits.count - 1⟩
                subjectKeyId := places.subject
                authorityKeyId := places.authority
                expireYears := body.validity.notAfter.date.year - body.validity.notBefore.date.year }
          | _ => always (refuse (.malformedPart .subjectPublicKeyInfo))
      | _ => always (refuse (.malformedPart .validity))
  | _ => always (refuse (.malformedPart .certificate))

end CertDefinition

/-! ### What is looked up is there -/

namespace Definition

variable {bytes : Octets}

theorem Placed.guardedRead_eq {offset stop : Nat} (ordered : offset ≤ stop) (inside : stop ≤ bytes.length) :
    guardedRead bytes offset stop = always (read bytes offset stop) :=
  if_pos ⟨ordered, inside⟩

/-- Elements that are read in a row are read from what is there. -/
theorem Placed.guardedRow_eq {offset stop : Nat} (inside : stop ≤ bytes.length) :
    guardedRow bytes offset stop = always (row bytes offset stop) := by
  induction size : stop - offset using Nat.strongRecOn generalizing offset with
  | ind n ih =>
      subst size
      by_cases more : offset < stop
      · rw [guardedRow, if_pos more, Spot.row_of_lt more]
        have here := guardedRead_eq (Nat.le_of_lt more) inside
        split
        · next missing =>
            rw [here] at missing
            cases missing
        · next e failed =>
            rw [here] at failed
            obtain failed : read bytes offset stop = .error e := Option.some.inj failed
            rw [failed]
            rfl
        · next child found =>
            rw [here] at found
            obtain found : read bytes offset stop = .ok child := Option.some.inj found
            have progress := headerLength_pos_of_read found
            have shorter : stop - child.whole.stop < stop - offset := by
              simp only [whole, Location.stop]
              omega
            rw [ih _ shorter rfl, found, Except.bind]
            cases row bytes child.whole.stop stop with
            | error e => rfl
            | ok later => rfl
      · rw [guardedRow, if_neg more, row, if_neg more]

namespace Spot

theorem guardedTag_eq (s : Spot bytes) :
    s.place.guardedTag bytes = always (.ok (s.place.tag bytes)) := by
  have inside : s.place.offset < bytes.length :=
    Nat.lt_of_lt_of_le s.offset_lt_stop s.whole_holds.inside
  unfold Placed.guardedTag Placed.tag
  rw [List.getD_eq_getElem?_getD, List.getElem?_eq_getElem inside]
  rfl

theorem guardedChildren_eq (s : Spot bytes) :
    s.place.guardedChildren bytes = always (s.place.children bytes) :=
  Placed.guardedRow_eq s.value_holds.inside

theorem guardedFind_eq (tag : UInt8) (spots : List (Spot bytes)) :
    CertDefinition.guardedFind bytes tag (spots.map place) =
      always (.ok ((spots.map place).find? (·.tag bytes = tag))) := by
  induction spots with
  | nil => rfl
  | cons s rest ih =>
      rw [List.map_cons, CertDefinition.guardedFind, s.guardedTag_eq, always_ok_bind, ih, List.find?_cons]
      by_cases found : s.place.tag bytes = tag
      · rw [if_pos found, decide_eq_true found]
        rfl
      · rw [if_neg found, decide_eq_false found]

end Spot

namespace ExtensionSpot

theorem guardedValue_eq (x : ExtensionSpot bytes) :
    CertDefinition.guardedValue bytes x.whole.place =
      always (CertDefinition.placedValue bytes x.whole.place) := by
  unfold CertDefinition.guardedValue
  rw [x.placedValue_eq, x.whole.guardedChildren_eq, x.packs.children, always_ok_bind, x.getLast?_places]
  exact Placed.guardedRead_eq (Nat.le_add_right _ _) x.value.value_holds.inside

theorem guardedNote_eq (x : ExtensionSpot bytes) (places : CertDefinition.KeyIdPlaces) :
    CertDefinition.guardedNote bytes places x.extension x.whole.place =
      always (CertDefinition.notePlaces bytes places x.extension x.whole.place) := by
  unfold CertDefinition.guardedNote CertDefinition.notePlaces
  rw [x.guardedValue_eq]
  by_cases subject : x.extension.oid = Extension.oidSubjectKeyId
  · rw [if_pos subject, if_pos subject]
    apply always_bind
    intro inner _
    rfl
  · rw [if_neg subject, if_neg subject]
    by_cases authority : x.extension.oid = Extension.oidAuthorityKeyId
    · rw [if_pos authority, if_pos authority]
      apply always_bind
      intro p found
      obtain ⟨inner, rfl, -⟩ := placedValue_eq_ok_iff.1 found
      rw [inner.guardedChildren_eq]
      apply always_bind
      intro ps children
      obtain ⟨members, rfl, -⟩ := Spot.children_eq_ok_iff.1 children
      rw [Spot.guardedFind_eq, always_ok_bind]
      cases (members.map Spot.place).find? (·.tag bytes = contextPrimitive 0) with
      | none => rfl
      | some id => rfl
    · rw [if_neg authority, if_neg authority]
      rfl

theorem guardedKeyIdPlaces_eq (xs : List (ExtensionSpot bytes)) :
    CertDefinition.guardedKeyIdPlaces bytes (xs.map (·.extension)) (xs.map (·.whole.place)) =
      always (CertDefinition.keyIdPlaces bytes (xs.map (·.extension)) (xs.map (·.whole.place))) := by
  unfold CertDefinition.guardedKeyIdPlaces CertDefinition.keyIdPlaces
  generalize CertDefinition.KeyIdPlaces.mk .absent .absent = start
  induction xs generalizing start with
  | nil => rfl
  | cons x rest ih =>
      rw [List.map_cons, List.map_cons, List.zip_cons_cons, List.foldlM_cons, List.foldlM_cons]
      dsimp only
      rw [x.guardedNote_eq]
      apply always_bind
      intro places _
      exact ih places

end ExtensionSpot

namespace Layout

variable {c : Certificate} (l : Layout bytes c)

theorem guardedWithoutVersion_eq :
    CertDefinition.guardedWithoutVersion bytes (l.row.toList.map Spot.place) =
      always (.ok (CertDefinition.withoutVersion bytes (l.row.toList.map Spot.place))) := by
  cases l.row.toList with
  | nil => rfl
  | cons first rest =>
      rw [List.map_cons, CertDefinition.guardedWithoutVersion, first.guardedTag_eq, always_ok_bind,
        CertDefinition.withoutVersion]
      split <;> rfl

theorem guardedExtensions_eq :
    CertDefinition.guardedExtensions bytes (l.row.toList.map Spot.place) =
      always (CertDefinition.placedExtensions bytes (l.row.toList.map Spot.place)) := by
  unfold CertDefinition.guardedExtensions CertDefinition.placedExtensions
  rw [Spot.guardedFind_eq, always_ok_bind, List.find?_map]
  cases l.row.toList.find? ((fun p : Placed => p.tag bytes = contextConstructed 3) ∘ Spot.place) with
  | none => rfl
  | some wrapper =>
      dsimp only [Option.map_some]
      rw [wrapper.guardedChildren_eq]
      apply always_bind
      intro ps children
      obtain ⟨members, rfl, -⟩ := Spot.children_eq_ok_iff.1 children
      match members with
      | [] => rfl
      | [list] => exact list.guardedChildren_eq
      | _ :: _ :: _ => rfl

end Layout

end Definition

namespace CertDefinition

theorem guardedPoint_eq (point : Octets) :
    guardedPoint point = always (.ok (isUncompressedPoint point)) := by
  unfold guardedPoint isUncompressedPoint
  by_cases size : point.length = 65
  · obtain ⟨first, rest, rfl⟩ := List.exists_cons_of_length_eq_add_one size
    rw [if_neg (not_not_intro size), size]
    show always (.ok (decide (first = 0x04))) = always (.ok (some first == some 0x04))
    congr 2
  · rw [if_pos size]
    show always (.ok false) = always (.ok (point.length == 65 && _))
    rw [beq_false_of_ne size, Bool.false_and]

/-- No walk looks up anything outside: the guarded walk has the outcome of the walk. -/
theorem guardedCertificate_eq (bytes : Octets) (kind : CertKind) :
    guardedCertificate bytes kind = always (ofCertificate bytes kind) := by
  cases decoded : Certificate.decode bytes with
  | none =>
      unfold guardedCertificate ofCertificate
      rw [decoded]
      rfl
  | some c =>
      obtain ⟨l⟩ := Layout.exists_of_decode decoded
      have keyIds := ExtensionSpot.guardedKeyIdPlaces_eq l.extensions
      rw [l.extensions_read] at keyIds
      have outer := Placed.guardedRead_eq (Nat.zero_le _) (Nat.le_refl bytes.length)
      have parts := l.parts.children
      have dates := l.dates.children
      have key := l.key.children
      have serial : fieldAt (l.row.later.map Spot.place) 0 = .ok l.row.serial.place := rfl
      have validity : fieldAt (l.row.later.map Spot.place) 3 = .ok l.row.validity.place := rfl
      have publicKey : fieldAt (l.row.later.map Spot.place) 5 = .ok l.row.publicKey.place := rfl
      simp only [List.map_cons, List.map_nil] at parts dates key
      rw [l.ofCertificate_eq decoded]
      unfold guardedCertificate
      simp only [decoded, orRefuse, always_ok_bind, outer, l.read_whole, Spot.guardedChildren_eq, parts,
        l.fields.children, l.guardedWithoutVersion_eq, l.withoutVersion_eq, serial, validity, dates,
        guardedPoint_eq, publicKey, key, l.guardedExtensions_eq, l.placedExtensions_eq, l.length_extensions,
        l.signature_ne_zero, ne_eq, not_true_eq_false, if_false, keyIds]
      by_cases point : isUncompressedPoint c.body.publicKey.key.octets = true
      · rw [if_neg (not_not_intro point), if_pos point]
        cases keyIdPlaces bytes (c.body.extensions.getD []) (l.extensions.map (·.whole.place)) with
        | error e => rfl
        | ok places => rfl
      · rw [if_pos point, if_neg point]

end CertDefinition
end SecureElement
