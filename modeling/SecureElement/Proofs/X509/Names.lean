import SecureElement.Proofs.Der.Values
import SecureElement.X509.Name
import SecureElement.X509.PublicKeyInfo

/-!
Names, and algorithms and public keys that were read, are read back once they are written.

An algorithm or a public key is written as the element that it was read from. A name need not be, since
its attributes are sorted when it is read; but sorted attributes stay as they are.
-/

namespace SecureElement.X509

open Der

/-! ### Rows of parts -/

section

variable {α : Type} {write : α → Element} {read : Element → Option α}

theorem forall₂_of_mapM {es : List Element} {xs : List α} (found : es.mapM read = some xs) :
    List.Forall₂ (fun e x => read e = some x) es xs := by
  induction es generalizing xs with
  | nil =>
      cases found
      exact .nil
  | cons e es ih =>
      simp only [List.mapM_cons, Option.bind_eq_bind, Option.bind_eq_some_iff, Option.pure_def,
        Option.some.injEq] at found
      obtain ⟨x, head, rest, tail, rfl⟩ := found
      exact .cons head (ih tail)

theorem map_of_mapM {es : List Element} {xs : List α} (found : es.mapM read = some xs)
    (written : ∀ e x, read e = some x → write x = e) : xs.map write = es := by
  have pairs := forall₂_of_mapM found
  clear found
  induction pairs with
  | nil => rfl
  | cons head tail ih => rw [List.map_cons, written _ _ head, ih]

theorem mapM_map_of_forall {xs : List α} (back : ∀ x ∈ xs, read (write x) = some x) :
    (xs.map write).mapM read = some xs := by
  induction xs with
  | nil => rfl
  | cons x xs ih =>
      have later := ih fun y member => back y (List.mem_cons_of_mem _ member)
      rw [List.map_cons, List.mapM_cons, back x (by simp), later]
      rfl

end

/-! ### Algorithms and public keys -/

theorem AlgorithmId.element_of_ofElement? {e : Element} {a : AlgorithmId}
    (found : ofElement? e = some a) : a.element = e := by
  simp only [ofElement?, Option.bind_eq_bind, Option.bind_eq_some_iff] at found
  obtain ⟨es, row, found⟩ := found
  rw [← Element.ofElements_of_elements? row]
  split at found
  · simp only [Option.bind_eq_some_iff, Option.some.injEq] at found
    obtain ⟨oid, oid_read, rfl⟩ := found
    rw [element, ObjectId.ofElement?_element oid_read]
    rfl
  · simp only [Option.bind_eq_some_iff, Option.some.injEq] at found
    obtain ⟨oid, oid_read, rfl⟩ := found
    rw [element, ObjectId.ofElement?_element oid_read]
    rfl
  · cases found

theorem PublicKeyInfo.element_of_ofElement? {e : Element} {k : PublicKeyInfo}
    (found : ofElement? e = some k) : k.element = e := by
  simp only [ofElement?, Option.bind_eq_bind, Option.bind_eq_some_iff] at found
  obtain ⟨es, row, found⟩ := found
  rw [← Element.ofElements_of_elements? row]
  split at found
  · simp only [Option.bind_eq_some_iff, Option.some.injEq] at found
    obtain ⟨algorithm, algorithm_read, key, key_read, rfl⟩ := found
    rw [element, AlgorithmId.element_of_ofElement? algorithm_read,
      BitString.ofElement?_element key_read]
    rfl
  · cases found

theorem AlgorithmId.ofElement?_element {a : AlgorithmId}
    (parameters : ∀ e ∈ a.parameters, isTag e.tag = true)
    (oid : ObjectId.ofElement? a.oid.element = some a.oid) (fits : a.element.Fits) :
    ofElement? a.element = some a := by
  obtain ⟨oid', parameters'⟩ := a
  cases parameters' with
  | none =>
      have row : (element ⟨oid', none⟩).sequence? = some [oid'.element] :=
        Element.sequence?_sequence (Element.sound_of_tags fits rfl)
      simp only [ofElement?, row, Option.bind_eq_bind, Option.bind_some]
      rw [oid]
      rfl
  | some e =>
      have tags : ([oid'.element, e].all fun e => isTag e.tag) = true := by
        rw [List.all_cons, List.all_cons, parameters e rfl]
        rfl
      have row : (element ⟨oid', some e⟩).sequence? = some [oid'.element, e] :=
        Element.sequence?_sequence (Element.sound_of_tags fits tags)
      simp only [ofElement?, row, Option.bind_eq_bind, Option.bind_some]
      rw [oid]
      rfl

theorem PublicKeyInfo.ofElement?_element {k : PublicKeyInfo}
    (algorithm : AlgorithmId.ofElement? k.algorithm.element = some k.algorithm)
    (key : BitString.ofElement? k.key.element = some k.key) (fits : k.element.Fits) :
    ofElement? k.element = some k := by
  have row : k.element.sequence? = some [k.algorithm.element, k.key.element] :=
    Element.sequence?_sequence (Element.sound_of_tags fits rfl)
  simp only [ofElement?, row, algorithm, key, Option.bind_eq_bind, Option.bind_some]

/-- A public key that was read is read back. -/
theorem PublicKeyInfo.reread {e : Element} {k : PublicKeyInfo} (found : ofElement? e = some k) :
    ofElement? k.element = some k := by
  rw [element_of_ofElement? found, found]

/-! ### Names -/

namespace NameAttribute

theorem element_of_ofElement? {e : Element} {a : NameAttribute}
    (found : ofElement? e = some a) : a.element = e := by
  simp only [ofElement?, Option.bind_eq_bind, Option.bind_eq_some_iff] at found
  obtain ⟨es, row, found⟩ := found
  rw [← Element.ofElements_of_elements? row]
  split at found
  · simp only [Option.bind_eq_some_iff, Option.some.injEq] at found
    obtain ⟨oid, oid_read, rfl⟩ := found
    rw [element, ObjectId.ofElement?_element oid_read]
    rfl
  · cases found

theorem ofElement?_element {a : NameAttribute} (wellFormed : a.WellFormed)
    (fits : a.element.Fits) : ofElement? a.element = some a := by
  obtain ⟨arcs, tag, -⟩ := wellFormed
  have tags : ([a.oid.element, a.value].all fun e => isTag e.tag) = true := by
    rw [List.all_cons, List.all_cons, tag]
    rfl
  have row : a.element.sequence? = some [a.oid.element, a.value] :=
    Element.sequence?_sequence (Element.sound_of_tags fits tags)
  simp only [ofElement?, row, ObjectId.ofElement?_of_arcs arcs, Option.bind_eq_bind,
    Option.bind_some]

end NameAttribute

namespace Name

/-- A name is read as its parts are. -/
theorem ofElement?_eq_some_iff {e : Element} {n : Name} :
    ofElement? e = some n ↔
      ∃ es, e.sequence? = some es ∧ es.mapM partOfElement? = some n.parts := by
  simp only [ofElement?, make?, Option.bind_eq_bind, Option.bind_eq_some_iff]
  constructor
  · rintro ⟨es, row, parts, read, made⟩
    split at made
    · cases made
      exact ⟨es, row, read⟩
    · cases made
  · rintro ⟨es, row, read⟩
    exact ⟨es, row, n.parts, read, dif_pos n.wellFormed⟩

theorem partOfElement?_partElement {part : List NameAttribute} (isPart : IsPart part)
    (fits : (partElement part).Fits) : partOfElement? (partElement part) = some part := by
  have tags : ((part.map NameAttribute.element).all fun e => isTag e.tag) = true := by
    refine List.all_eq_true.2 fun e member => ?_
    obtain ⟨a, -, rfl⟩ := List.mem_map.1 member
    rfl
  simp only [partOfElement?, Option.bind_eq_bind, Option.bind_eq_some_iff]
  refine ⟨_, Element.elements?_ofElements (Element.sound_of_tags fits tags), part, ?_,
    sortMembers_of_ascending isPart.1⟩
  exact mapM_map_of_forall fun a member =>
    NameAttribute.ofElement?_element (isPart.2 a member) (fits.of_mem (List.mem_map_of_mem member))

/-- A name is read back, if it is not too long. -/
theorem ofElement?_element {n : Name} (fits : n.element.Fits) : ofElement? n.element = some n := by
  have tags : ((n.parts.map partElement).all fun e => isTag e.tag) = true := by
    refine List.all_eq_true.2 fun e member => ?_
    obtain ⟨part, -, rfl⟩ := List.mem_map.1 member
    rfl
  rw [ofElement?_eq_some_iff]
  refine ⟨_, Element.sequence?_sequence (Element.sound_of_tags fits tags), ?_⟩
  exact mapM_map_of_forall fun part member =>
    partOfElement?_partElement (n.wellFormed part member) (fits.of_mem (List.mem_map_of_mem member))

end Name

end SecureElement.X509
