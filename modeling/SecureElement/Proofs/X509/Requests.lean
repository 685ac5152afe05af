import Mathlib.Data.Option.Basic
import SecureElement.Proofs.X509.Names
import SecureElement.X509.Request

/-!
The elements that requests are read from.

A request is read with the members of its sets in the order of their encodings, in whatever order they were
received (`RequestInfo.exists_received`). So what was received is what a request is written as exactly if
its sets were in order (`ReceivedInfo.Arranged.encode_eq_iff`).
-/

namespace SecureElement.X509

open Der

/-! ### Sets as they were received -/

section

variable {α β : Type} {write : β → Element} {R : β → α → Prop}

/-- If each element is what some value is written as, a row of them is what a row of values is. -/
theorem exists_map_of_forall₂ {reads : Element → α → Prop} {es : List Element} {xs : List α}
    (each : List.Forall₂ reads es xs) (written : ∀ e x, reads e x → ∃ y, e = write y ∧ R y x) :
    ∃ ys, es = ys.map write ∧ List.Forall₂ R ys xs := by
  induction each with
  | nil => exact ⟨[], rfl, .nil⟩
  | cons head tail ih =>
      obtain ⟨y, rfl, related⟩ := written _ _ head
      obtain ⟨ys, rfl, later⟩ := ih
      exact ⟨y :: ys, rfl, .cons related later⟩

theorem forall_of_forall₂ {P : α → Prop} {xs : List β} {ys : List α} (each : List.Forall₂ R xs ys)
    (holds : ∀ x y, R x y → P y) : ∀ y ∈ ys, P y := by
  induction each with
  | nil => simp
  | cons head tail ih => exact List.forall_mem_cons.2 ⟨holds _ _ head, ih⟩

theorem eq_iff_of_forall₂ {P : α → Prop} {S : α → α → Prop} {xs ys : List α}
    (each : List.Forall₂ S xs ys) (iff : ∀ x y, S x y → (y = x ↔ P x)) :
    ys = xs ↔ ∀ x ∈ xs, P x := by
  induction each with
  | nil => simp
  | cons head tail ih =>
      rw [List.cons.injEq, iff _ _ head, ih, List.forall_mem_cons]

end

namespace NameAttribute

theorem element_inj (a b : NameAttribute) (fits : a.element.Fits) (same : a.element = b.element) :
    a = b := by
  obtain ⟨⟨oid⟩, value⟩ := a
  obtain ⟨⟨oid'⟩, value'⟩ := b
  have members := Element.ofElements_inj fits same
  cases members
  rfl

end NameAttribute

namespace Name

theorem partElement_inj (part other : List NameAttribute) (fits : (partElement part).Fits)
    (same : partElement part = partElement other) : part = other :=
  Element.ofElements_map_inj NameAttribute.element_inj fits same

theorem exists_of_partOfElement? {e : Element} {part : List NameAttribute}
    (found : partOfElement? e = some part) :
    ∃ received, e = partElement received ∧ Arranges NameAttribute.encode received part := by
  simp only [partOfElement?, Option.bind_eq_bind, Option.bind_eq_some_iff] at found
  obtain ⟨members, held, received, read, sorted⟩ := found
  refine ⟨received, ?_, arranges_of_sortMembers sorted⟩
  rw [← Element.ofElements_of_elements? held,
    ← map_of_mapM read fun _ _ => NameAttribute.element_of_ofElement?]
  rfl

end Name

namespace RequestAttribute

theorem element_inj (a b : RequestAttribute) (fits : a.element.Fits) (same : a.element = b.element) :
    a = b := by
  obtain ⟨⟨oid⟩, values⟩ := a
  obtain ⟨⟨oid'⟩, values'⟩ := b
  have members := Element.ofElements_inj fits same
  simp only [List.cons.injEq, and_true] at members
  obtain ⟨oids, sets⟩ := members
  obtain rfl := Element.ofElements_inj (fits.of_mem (by simp)) sets
  cases oids
  rfl

/-- The values of the second attribute are those of the first in the order of their encodings. -/
structure Arranges (a b : RequestAttribute) : Prop where
  oid : b.oid = a.oid
  values : Der.Arranges Element.encode a.values b.values

theorem Arranges.eq_iff {a b : RequestAttribute} (arranges : Arranges a b) :
    b = a ↔ Ascending Element.encode a.values := by
  rw [← arranges.values.eq_iff]
  obtain ⟨oid, values⟩ := a
  obtain ⟨oid', values'⟩ := b
  obtain rfl := arranges.oid
  simp

theorem exists_of_ofElement? {e : Element} {a : RequestAttribute} (found : ofElement? e = some a) :
    ∃ received : RequestAttribute, e = received.element ∧ Arranges received a := by
  simp only [ofElement?, Option.bind_eq_bind, Option.bind_eq_some_iff] at found
  obtain ⟨es, row, found⟩ := found
  rw [← Element.ofElements_of_elements? row]
  split at found
  · next oid values =>
      simp only [Option.bind_eq_some_iff, Option.some.injEq] at found
      obtain ⟨o, oid_read, members, held, sorted, sort, rfl⟩ := found
      refine ⟨⟨o, members⟩, ?_, rfl, arranges_of_sortMembers sort⟩
      rw [element, ObjectId.ofElement?_element oid_read, Element.ofElements_of_elements? held]
      rfl
  · cases found

end RequestAttribute

/-! ### Signed parts -/

/-- The signed part of a request as it was received: the members of its sets stand in any order. -/
structure ReceivedInfo where
  parts : List (List NameAttribute)
  publicKey : PublicKeyInfo
  attributes : List RequestAttribute

namespace ReceivedInfo

/-- What was received as an element. -/
def element (r : ReceivedInfo) : Element :=
  .sequence [.ofNat 0, .sequence (r.parts.map Name.partElement), r.publicKey.element,
    .ofElements (contextConstructed 0) (r.attributes.map RequestAttribute.element)]

/-- The members of every set stand in the order of their encodings. -/
structure Ordered (r : ReceivedInfo) : Prop where
  parts : ∀ part ∈ r.parts, Ascending NameAttribute.encode part
  values : ∀ a ∈ r.attributes, Ascending Element.encode a.values
  attributes : Ascending RequestAttribute.encode r.attributes

/-- A signed part holds what was received, with the members of every set in the order of their encodings:
the values of each attribute first, and then the attributes. -/
structure Arranged (r : ReceivedInfo) (i : RequestInfo) : Prop where
  publicKey : i.publicKey = r.publicKey
  parts : List.Forall₂ (Arranges NameAttribute.encode) r.parts i.subject.parts
  attributes : ∃ each, List.Forall₂ RequestAttribute.Arranges r.attributes each ∧
    Arranges RequestAttribute.encode each i.attributes

variable {r : ReceivedInfo} {i : RequestInfo}

/-- Nothing was moved exactly if every set was in order. -/
theorem Arranged.eq_iff (arranged : r.Arranged i) :
    i.subject.parts = r.parts ∧ i.attributes = r.attributes ↔ r.Ordered := by
  obtain ⟨each, values, attributes⟩ := arranged.attributes
  have parts := eq_iff_of_forall₂ arranged.parts fun _ _ part => part.eq_iff
  have values_iff := eq_iff_of_forall₂ values fun _ _ a => a.eq_iff
  constructor
  · rintro ⟨sameParts, sameAttributes⟩
    -- The attributes that were received are the arranged ones, so that their values ascend.
    have ascend : ∀ a ∈ r.attributes, Ascending Element.encode a.values := by
      intro a member
      rw [← sameAttributes] at member
      exact forall_of_forall₂ values (fun _ _ b => b.values.ascending) a
        (attributes.perm.mem_iff.1 member)
    obtain rfl := values_iff.2 ascend
    exact ⟨parts.1 sameParts, ascend, attributes.eq_iff.1 sameAttributes⟩
  · intro ordered
    obtain rfl := values_iff.2 ordered.values
    exact ⟨parts.2 ordered.parts, attributes.eq_iff.2 ordered.attributes⟩

/-- A signed part is written as it was received exactly if every set was in order. -/
theorem Arranged.encode_eq_iff (arranged : r.Arranged i) (short : r.element.encode.length ≤ maxLength) :
    i.encode = r.element.encode ↔ r.Ordered := by
  rw [← arranged.eq_iff]
  constructor
  · intro same
    have whole : i.element = r.element := Element.encode_inj short same
    have written : i.element.Fits := by
      rw [whole]
      exact Element.fits_of_short short
    have fields := Element.ofElements_inj written whole
    simp only [List.cons.injEq, and_true, true_and] at fields
    obtain ⟨names, -, attributes⟩ := fields
    have name : i.subject.element.Fits := written.of_mem (by simp)
    have set := written.of_mem (List.mem_of_getElem? (i := 3) rfl)
    exact ⟨Element.ofElements_map_inj Name.partElement_inj name names,
      Element.ofElements_map_inj RequestAttribute.element_inj set attributes⟩
  · rintro ⟨parts, attributes⟩
    simp only [RequestInfo.encode, RequestInfo.element, Name.element, element, parts, attributes,
      arranged.publicKey]

end ReceivedInfo

/-! ### Requests -/

theorem RequestInfo.exists_parts {e : Element} {i : RequestInfo} (found : ofElement? e = some i) :
    ∃ version subject attributes members read,
      e.sequence? = some [version, subject, i.publicKey.element, attributes] ∧
      version.nat? = some 0 ∧ Name.ofElement? subject = some i.subject ∧
      PublicKeyInfo.ofElement? i.publicKey.element = some i.publicKey ∧
      attributes.elements? (contextConstructed 0) = some members ∧
      members.mapM RequestAttribute.ofElement? = some read ∧
      sortMembers RequestAttribute.encode read = some i.attributes := by
  simp only [ofElement?, Option.bind_eq_bind, Option.bind_eq_some_iff] at found
  obtain ⟨es, row, found⟩ := found
  split at found
  · next version subject publicKey attributes =>
      simp only [Option.bind_eq_some_iff, Option.some.injEq, Option.guard_eq_some'] at found
      obtain ⟨-, first, members, held, name, name_read, key, key_read, read, each, sorted, sort,
        rfl⟩ := found
      have written := PublicKeyInfo.element_of_ofElement? key_read
      refine ⟨version, subject, attributes, members, read, ?_, first, name_read, ?_, held, each, sort⟩
      · rw [written]
        exact row
      · rw [written]
        exact key_read
  · cases found

/-- The signed part of a request is what was received with every set in order. -/
theorem RequestInfo.exists_received {e : Element} {i : RequestInfo} (found : ofElement? e = some i) :
    ∃ r : ReceivedInfo, e = r.element ∧ r.Arranged i := by
  obtain ⟨version, subject, attributes, members, read, row, first, name_read, -, held, each, sort⟩ :=
    exists_parts found
  obtain ⟨parts, part_row, parts_read⟩ := Name.ofElement?_eq_some_iff.1 name_read
  obtain ⟨received, rfl, arranges⟩ := exists_map_of_forall₂ (forall₂_of_mapM parts_read)
    fun _ _ part => Name.exists_of_partOfElement? part
  obtain ⟨set, rfl, values⟩ := exists_map_of_forall₂ (forall₂_of_mapM each)
    fun _ _ a => RequestAttribute.exists_of_ofElement? a
  refine ⟨⟨received, i.publicKey, set⟩, ?_, rfl, arranges, read, values, arranges_of_sortMembers sort⟩
  simp only [Element.nat?, Option.bind_eq_bind, Option.bind_eq_some_iff,
    Element.content?_eq_some_iff] at first
  obtain ⟨content, rfl, zero⟩ := first
  rw [← Element.ofElements_of_elements? row, ← Element.ofElements_of_elements? part_row,
    ← Element.ofElements_of_elements? held, Integer.eq_ofNat_zero zero]
  rfl

theorem Request.exists_parts {bytes : Octets} {r : Request} (found : decode bytes = some r) :
    ∃ e info, Element.decode bytes = some e ∧
      e.sequence? = some [info, r.algorithm.element, r.signature.element] ∧
      RequestInfo.ofElement? info = some r.info := by
  simp only [decode, Option.bind_eq_bind, Option.bind_eq_some_iff] at found
  obtain ⟨e, whole, es, row, found⟩ := found
  split at found
  · next info algorithm signature =>
      simp only [Option.bind_eq_some_iff, Option.some.injEq] at found
      obtain ⟨i, info_read, a, algorithm_read, bits, bits_read, rfl⟩ := found
      refine ⟨e, info, whole, ?_, info_read⟩
      rw [AlgorithmId.element_of_ofElement? algorithm_read, BitString.ofElement?_element bits_read]
      exact row
  · cases found

/-! ### Requests as they are written -/

/-- A signed part that is not too long is read back, if each of its fields is. -/
theorem RequestInfo.ofElement?_element {i : RequestInfo} (fits : i.element.Fits)
    (publicKey : PublicKeyInfo.ofElement? i.publicKey.element = some i.publicKey)
    (attributes : ∀ a ∈ i.attributes, RequestAttribute.ofElement? a.element = some a)
    (ascending : Ascending RequestAttribute.encode i.attributes) : ofElement? i.element = some i := by
  have set : isTag (contextConstructed 0) = true := by decide
  have row : i.element.sequence? = some [.ofNat 0, i.subject.element, i.publicKey.element,
      .ofElements (contextConstructed 0) (i.attributes.map RequestAttribute.element)] := by
    refine Element.sequence?_sequence (Element.sound_of_tags fits ?_)
    have tags : (true && (true && (true && (isTag (contextConstructed 0) && true)))) = true := by
      rw [set]
      rfl
    exact tags
  have version : (Element.ofNat 0).nat? = some 0 := by decide
  have subject : Name.ofElement? i.subject.element = some i.subject :=
    Name.ofElement?_element (fits.of_mem (by simp))
  have members := fits.of_mem (List.mem_of_getElem? (i := 3) rfl)
  have held : (Element.ofElements (contextConstructed 0)
      (i.attributes.map RequestAttribute.element)).elements? (contextConstructed 0) =
        some (i.attributes.map RequestAttribute.element) := by
    refine Element.elements?_ofElements (Element.sound_of_tags members ?_)
    refine List.all_eq_true.2 fun e member => ?_
    obtain ⟨a, -, rfl⟩ := List.mem_map.1 member
    rfl
  simp only [ofElement?, row, version, guard_true, held, subject, publicKey,
    mapM_map_of_forall attributes, sortMembers_of_ascending ascending, Option.bind_eq_bind,
    Option.bind_some, Option.pure_def]

/-- A request that is not too long is read back, if each of its parts is. -/
theorem Request.decode_encode {r : Request} (short : r.encode.length ≤ maxLength)
    (info : r.info.element.Fits → RequestInfo.ofElement? r.info.element = some r.info)
    (algorithm : r.algorithm.element.Fits →
      AlgorithmId.ofElement? r.algorithm.element = some r.algorithm)
    (signature : BitString.ofElement? r.signature.element = some r.signature) :
    decode r.encode = some r := by
  have fits : r.element.Fits := Element.fits_of_short short
  have whole : Element.decode r.encode = some r.element := Element.decode_encode ⟨rfl, fits⟩
  have row : r.element.sequence? = some [r.info.element, r.algorithm.element, r.signature.element] :=
    Element.sequence?_sequence (Element.sound_of_tags fits rfl)
  simp only [decode, whole, row, info (fits.of_mem (by simp)), algorithm (fits.of_mem (by simp)),
    signature, Option.bind_eq_bind, Option.bind_some]

end SecureElement.X509
