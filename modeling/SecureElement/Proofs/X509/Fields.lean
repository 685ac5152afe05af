import Mathlib.Data.Option.Basic
import SecureElement.Proofs.X509.Names
import SecureElement.Proofs.X509.Times
import SecureElement.X509.Certificate

/-!
The elements that certificates are read from.

A certificate is read from three elements (`Certificate.exists_parts`), and what is signed of it from a
version that need not be there, six fields that always are, and optional ones of the context class, with
the extensions last (`ToBeSigned.exists_row`).
-/

namespace SecureElement.X509

open Der

theorem Serial.element_of_ofElement? {e : Element} {s : Serial} (found : ofElement? e = some s) :
    s.element = e := by
  simp only [ofElement?, Option.bind_eq_bind, Option.bind_eq_some_iff,
    Element.content?_eq_some_iff] at found
  obtain ⟨content, rfl, -, -, same⟩ := found
  cases same
  rfl

theorem Validity.exists_parts {e : Element} {v : Validity} (found : ofElement? e = some v) :
    ∃ notBefore notAfter, e.sequence? = some [notBefore, notAfter] ∧
      Time.ofElement? notBefore = some v.notBefore ∧ Time.ofElement? notAfter = some v.notAfter := by
  simp only [ofElement?, Option.bind_eq_bind, Option.bind_eq_some_iff] at found
  obtain ⟨es, row, found⟩ := found
  split at found
  · next notBefore notAfter =>
      simp only [Option.bind_eq_some_iff, Option.some.injEq] at found
      obtain ⟨first, first_read, last, last_read, rfl⟩ := found
      exact ⟨notBefore, notAfter, row, first_read, last_read⟩
  · cases found

/-- The bits of a key stand last. -/
theorem PublicKeyInfo.exists_parts {e : Element} {k : PublicKeyInfo} (found : ofElement? e = some k) :
    ∃ algorithm, e.sequence? = some [algorithm, k.key.element] := by
  simp only [ofElement?, Option.bind_eq_bind, Option.bind_eq_some_iff] at found
  obtain ⟨es, row, found⟩ := found
  split at found
  · next algorithm key =>
      simp only [Option.bind_eq_some_iff, Option.some.injEq] at found
      obtain ⟨a, -, bits, bits_read, rfl⟩ := found
      exact ⟨algorithm, by rw [BitString.ofElement?_element bits_read]; exact row⟩
  · cases found

/-- The value of an extension stands last. -/
theorem Extension.exists_parts {e : Element} {x : Extension} (found : ofElement? e = some x) :
    ∃ front, e.sequence? = some (front ++ [Element.octetString x.value]) := by
  simp only [ofElement?, Option.bind_eq_bind, Option.bind_eq_some_iff] at found
  obtain ⟨es, row, found⟩ := found
  split at found
  · next oid value =>
      simp only [Option.bind_eq_some_iff, Option.some.injEq, Element.octetString?,
        Element.content?_eq_some_iff] at found
      obtain ⟨o, -, octets, rfl, rfl⟩ := found
      exact ⟨[oid], row⟩
  · next oid critical value =>
      simp only [Option.bind_eq_some_iff, Option.some.injEq, Element.octetString?,
        Element.content?_eq_some_iff] at found
      obtain ⟨o, -, c, -, octets, rfl, rfl⟩ := found
      exact ⟨[oid, critical], row⟩
  · cases found

/-- The field of a version has a tag of its own. -/
theorem Version.tag_of_ofField? {field : Element} {v : Version}
    (found : ofField? (some field) = some v) : field.tag = contextConstructed 0 := by
  simp only [ofField?, Option.bind_eq_bind, Option.bind_eq_some_iff] at found
  obtain ⟨inner, wrapped, -⟩ := found
  obtain rfl := Element.ofElements_of_wrapped? wrapped
  rfl

namespace ToBeSigned

/-- The field of the extensions has a tag of its own, and wraps a row of extensions. -/
theorem exists_of_extensionsOfField? {field : Element} {extensions : Option (List Extension)}
    (found : extensionsOfField? (some field) = some extensions) :
    ∃ list members, field.elements? (contextConstructed 3) = some [list] ∧
      list.sequence? = some members ∧
      List.Forall₂ (fun e x => Extension.ofElement? e = some x) members (extensions.getD []) := by
  simp only [extensionsOfField?, Option.bind_eq_bind, Option.bind_eq_some_iff,
    Option.some.injEq] at found
  obtain ⟨list, wrapped, members, row, xs, read, rfl⟩ := found
  unfold Element.wrapped? at wrapped
  split at wrapped
  · next held =>
      cases wrapped
      exact ⟨list, members, held, row, forall₂_of_mapM read⟩
  · cases wrapped

/-- The fields of what is signed, by the elements that they are read from or by their spots. -/
structure Row (α : Type) where
  version : Option α
  serial : α
  algorithm : α
  issuer : α
  validity : α
  subject : α
  publicKey : α
  /-- The optional fields before the extensions. -/
  others : List α
  extensions : Option α

namespace Row

variable {α β : Type}

/-- The fields after the version. -/
def later (r : Row α) : List α :=
  [r.serial, r.algorithm, r.issuer, r.validity, r.subject, r.publicKey] ++
    (r.others ++ r.extensions.toList)

/-- The fields before the extensions. -/
def front (r : Row α) : List α :=
  r.version.toList ++
    ([r.serial, r.algorithm, r.issuer, r.validity, r.subject, r.publicKey] ++ r.others)

/-- The fields in their order. -/
def toList (r : Row α) : List α :=
  r.version.toList ++ r.later

theorem toList_eq (r : Row α) : r.toList = r.front ++ r.extensions.toList := by
  simp only [toList, later, front, List.append_assoc]

/-- The fields with each of them changed. -/
def map (f : α → β) (r : Row α) : Row β where
  version := r.version.map f
  serial := f r.serial
  algorithm := f r.algorithm
  issuer := f r.issuer
  validity := f r.validity
  subject := f r.subject
  publicKey := f r.publicKey
  others := r.others.map f
  extensions := r.extensions.map f

theorem mem_front_map {f : α → β} {r : Row α} {a : α} (member : a ∈ r.front) :
    f a ∈ (r.map f).front := by
  have whole : (r.map f).front = r.front.map f := by
    cases version : r.version <;> simp [front, map, version]
  rw [whole]
  exact List.mem_map_of_mem member

theorem exists_of_map_eq {f : α → β} {xs : List α} {r : Row β} (same : xs.map f = r.toList) :
    ∃ r' : Row α, r'.toList = xs ∧ r'.map f = r := by
  have option : ∀ {ys : List α} {o : Option β}, ys.map f = o.toList →
      ∃ o' : Option α, o'.toList = ys ∧ o'.map f = o := by
    intro ys o equal
    cases o with
    | none =>
        cases ys with
        | nil => exact ⟨none, rfl, rfl⟩
        | cons y rest => cases equal
    | some b =>
        cases ys with
        | nil => cases equal
        | cons y rest =>
            cases rest with
            | nil =>
                cases equal
                exact ⟨some y, rfl, rfl⟩
            | cons z others => cases equal
  obtain ⟨version, serial, algorithm, issuer, validity, subject, publicKey, others, extensions⟩ := r
  obtain ⟨front, back, rfl, first, rest⟩ := List.map_eq_append_iff.1 same
  obtain ⟨version, rfl, rfl⟩ := option first
  obtain ⟨six, back, rfl, fixed, rest⟩ := List.map_eq_append_iff.1 rest
  obtain ⟨others, last, rfl, rfl, extended⟩ := List.map_eq_append_iff.1 rest
  obtain ⟨extensions, rfl, rfl⟩ := option extended
  simp only [List.map_eq_cons_iff, List.map_eq_nil_iff] at fixed
  obtain ⟨s, -, rfl, rfl, a, -, rfl, rfl, i, -, rfl, rfl, v, -, rfl, rfl, n, -, rfl, rfl, k, -, rfl, rfl,
    rfl⟩ := fixed
  exact ⟨⟨version, s, a, i, v, n, k, others, extensions⟩, rfl, rfl⟩

/-- What the fields are read as. -/
structure Reads (r : Row Element) (b : ToBeSigned) : Prop where
  version : Version.ofField? r.version = some b.version
  serial : Serial.ofElement? r.serial = some b.serial
  algorithm : AlgorithmId.ofElement? r.algorithm = some b.algorithm
  issuer : Name.ofElement? r.issuer = some b.issuer
  validity : Validity.ofElement? r.validity = some b.validity
  subject : Name.ofElement? r.subject = some b.subject
  publicKey : PublicKeyInfo.ofElement? r.publicKey = some b.publicKey
  others : ∀ f ∈ r.others, ∃ n, contextNumber? f.tag = some n ∧ n < 3
  extensions : extensionsOfField? r.extensions = some b.extensions

section

variable {r : Row Element} {b : ToBeSigned}

theorem Reads.tag_version (reads : r.Reads b) : ∀ v ∈ r.version, v.tag = contextConstructed 0 := by
  intro v here
  have read := reads.version
  rw [Option.mem_def.1 here] at read
  exact Version.tag_of_ofField? read

theorem Reads.tag_serial (reads : r.Reads b) : r.serial.tag = tagInteger := by
  rw [← Serial.element_of_ofElement? reads.serial]
  rfl

theorem Reads.tag_extensions (reads : r.Reads b) :
    ∀ x ∈ r.extensions, x.tag = contextConstructed 3 := by
  intro x here
  have read := reads.extensions
  rw [Option.mem_def.1 here] at read
  obtain ⟨list, members, held, -, -⟩ := exists_of_extensionsOfField? read
  exact Element.tag_of_elements? held

/-- No field before the extensions has their tag. -/
theorem Reads.tag_front (reads : r.Reads b) : ∀ f ∈ r.front, f.tag ≠ contextConstructed 3 := by
  have sequence : ∀ {e : Element}, e.tag = tagSequence → e.tag ≠ contextConstructed 3 := by
    intro e same
    rw [same]
    decide
  intro f member
  simp only [front, List.mem_append, List.mem_cons, List.not_mem_nil, or_false] at member
  rcases member with version | ((rfl | rfl | rfl | rfl | rfl | rfl) | other)
  · rw [reads.tag_version f (Option.mem_toList.1 version)]
    decide
  · rw [reads.tag_serial]
    decide
  · apply sequence
    rw [← AlgorithmId.element_of_ofElement? reads.algorithm]
    rfl
  · obtain ⟨es, row, -⟩ := Name.ofElement?_eq_some_iff.1 reads.issuer
    exact sequence (Element.tag_of_elements? row)
  · obtain ⟨notBefore, notAfter, row, -⟩ := Validity.exists_parts reads.validity
    exact sequence (Element.tag_of_elements? row)
  · obtain ⟨es, row, -⟩ := Name.ofElement?_eq_some_iff.1 reads.subject
    exact sequence (Element.tag_of_elements? row)
  · obtain ⟨algorithm, row⟩ := PublicKeyInfo.exists_parts reads.publicKey
    exact sequence (Element.tag_of_elements? row)
  · obtain ⟨n, numbered, below⟩ := reads.others f other
    intro same
    have three : contextNumber? (contextConstructed 3) = some 3 := by decide
    rw [same, three] at numbered
    cases numbered
    exact absurd below (by decide)

end

end Row

/-- What is signed is read from its fields. -/
theorem exists_row {e : Element} {b : ToBeSigned} (found : ofElement? e = some b) :
    ∃ r : Row Element, e.sequence? = some r.toList ∧ r.Reads b := by
  simp only [ofElement?, Option.bind_eq_bind, Option.bind_eq_some_iff] at found
  obtain ⟨es, row, found⟩ := found
  -- No field has a number below the one of the version.
  obtain ⟨passed, cut, lower, -⟩ := takeContext_spec 0 es
  have none : passed = [] := by
    cases passed with
    | nil => rfl
    | cons f rest =>
        obtain ⟨n, -, below⟩ := lower f (by simp)
        exact absurd (UInt8.lt_iff_toNat_lt.1 below) (Nat.not_lt_zero _)
  subst none
  split at found
  · next fields serial algorithm issuer validity subject publicKey rest first =>
      rw [first] at cut
      obtain ⟨passed₁, cut₁, numbers₁⟩ := exists_passed 1 rest
      obtain ⟨passed₂, cut₂, numbers₂⟩ := exists_passed 2 (takeContext 1 rest).2
      obtain ⟨passed₃, cut₃, numbers₃, -⟩ := takeContext_spec 3 (takeContext 2 (takeContext 1 rest).2).2
      simp only [Option.bind_eq_some_iff, Option.some.injEq, Option.guard_eq_some'] at found
      obtain ⟨-, ended, v, v_read, s, s_read, a, a_read, i, i_read, p, p_read, n, n_read, k, k_read,
        i₁, -, i₂, -, xs, xs_read, rfl⟩ := found
      rw [ended, List.append_nil] at cut₃
      have whole : rest = passed₁ ++ (passed₂ ++ (passed₃ ++
          (takeContext 3 (takeContext 2 (takeContext 1 rest).2).2).1.toList)) :=
        cut₁.trans (congrArg _ (cut₂.trans (congrArg _ cut₃)))
      let r : Row Element :=
        ⟨(takeContext 0 es).1, serial, algorithm, issuer, validity, subject, publicKey,
          passed₁ ++ (passed₂ ++ passed₃), (takeContext 3 (takeContext 2 (takeContext 1 rest).2).2).1⟩
      have listed : es = r.toList := by
        show es = (takeContext 0 es).1.toList ++ ([serial, algorithm, issuer, validity, subject,
          publicKey] ++ (passed₁ ++ (passed₂ ++ passed₃) ++
            (takeContext 3 (takeContext 2 (takeContext 1 rest).2).2).1.toList))
        rw [List.append_assoc passed₁, List.append_assoc passed₂, ← whole]
        exact cut
      refine ⟨r, by rw [row, listed], v_read, s_read, a_read, i_read, p_read, n_read, k_read, ?_, xs_read⟩
      intro f member
      rcases List.mem_append.1 member with first | member
      · obtain ⟨n, numbered, bound⟩ := numbers₁ f first
        exact ⟨n, numbered, UInt8.lt_of_le_of_lt bound (by decide)⟩
      rcases List.mem_append.1 member with second | third
      · obtain ⟨n, numbered, bound⟩ := numbers₂ f second
        exact ⟨n, numbered, UInt8.lt_of_le_of_lt bound (by decide)⟩
      · exact numbers₃ f third
  · cases found

end ToBeSigned

theorem Certificate.exists_parts {bytes : Octets} {c : Certificate} (found : decode bytes = some c) :
    ∃ e body algorithm, Element.decode bytes = some e ∧
      e.sequence? = some [body, algorithm, c.signature.element] ∧
      ToBeSigned.ofElement? body = some c.body ∧
      AlgorithmId.ofElement? algorithm = some c.algorithm := by
  simp only [decode, ofElement?, Option.bind_eq_bind, Option.bind_eq_some_iff] at found
  obtain ⟨e, whole, es, row, found⟩ := found
  split at found
  · next body algorithm signature =>
      simp only [Option.bind_eq_some_iff, Option.some.injEq] at found
      obtain ⟨b, body_read, a, algorithm_read, bits, bits_read, rfl⟩ := found
      refine ⟨e, body, algorithm, whole, ?_, body_read, algorithm_read⟩
      rw [BitString.ofElement?_element bits_read]
      exact row
  · cases found

end SecureElement.X509
