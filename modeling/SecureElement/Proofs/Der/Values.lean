import SecureElement.Der.BitString
import SecureElement.Der.Integer
import SecureElement.Der.ObjectId
import SecureElement.Der.SetOf
import SecureElement.Proofs.Der.Elements

/-!
Values of the basic types are read back as they were written, and so are the sorted members of a set.
The members of a set that is read are those that it was received with, in the order of their encodings
(`arranges_of_sortMembers`).
-/

namespace SecureElement.Der

/-! ### Bit strings and object identifiers -/

namespace BitString

theorem ofContent?_content {content : Octets} {b : BitString} (found : ofContent? content = some b) :
    b.content = content := by
  cases content with
  | nil => cases found
  | cons unused octets =>
      simp only [ofContent?] at found
      split at found
      · cases found
      · cases found
        rfl

theorem ofElement?_element {e : Element} {b : BitString} (found : ofElement? e = some b) :
    b.element = e := by
  simp only [ofElement?, Option.bind_eq_bind, Option.bind_eq_some_iff,
    Element.content?_eq_some_iff] at found
  obtain ⟨content, rfl, found⟩ := found
  rw [element, ofContent?_content found]

theorem ofElement?_ofOctets (octets : Octets) :
    ofElement? (ofOctets octets).element = some (ofOctets octets) := rfl

end BitString

namespace ObjectId

theorem ofElement?_element {e : Element} {oid : ObjectId} (found : ofElement? e = some oid) :
    oid.element = e := by
  simp only [ofElement?, Option.bind_eq_bind, Option.bind_eq_some_iff,
    Element.content?_eq_some_iff] at found
  obtain ⟨content, rfl, found⟩ := found
  unfold ofContent? at found
  split at found
  · cases found
    rfl
  · cases found

theorem ofElement?_of_arcs {oid : ObjectId} (arcs : (arcs? oid.content).isSome) :
    ofElement? oid.element = some oid := by
  have content : oid.element.content? tagObjectId = some oid.content := rfl
  simp only [ofElement?, content, ofContent?, arcs, Option.bind_eq_bind,
    Option.bind_some, if_true]

end ObjectId

/-! ### Integers -/

namespace Integer

theorem isInteger_ofNat (n : Nat) : isInteger (ofNat n) = true := by
  have head := Octets.head?_ofNatMinimal n
  unfold ofNat
  cases octets : Octets.ofNatMinimal n with
  | nil => rfl
  | cons b rest =>
      rw [octets] at head
      have first : b ≠ 0 := head b rfl
      by_cases low : b < 0x80
      · simp only [low, if_true]
        cases rest with
        | nil => rfl
        | cons c later =>
            have other : b ≠ 0xFF := by
              rintro rfl
              exact absurd low (by decide)
            simp [isInteger, first, other]
      · simp [low, isInteger]

theorem toNat?_ofNat (n : Nat) : toNat? (ofNat n) = some n := by
  have value := Octets.toNat_ofNatMinimal n
  have integer := isInteger_ofNat n
  unfold ofNat at integer ⊢
  cases octets : Octets.ofNatMinimal n with
  | nil =>
      rw [octets] at value
      rw [← value]
      rfl
  | cons b rest =>
      rw [octets] at value integer
      simp only at integer ⊢
      by_cases low : b < 0x80
      · rw [if_pos low] at integer ⊢
        rw [toNat?, if_pos ⟨integer, low⟩, value]
      · rw [if_neg low] at integer ⊢
        rw [toNat?, if_pos ⟨integer, by decide⟩, Octets.toNat_zero_cons, value]

theorem toNat_of_toNat? {content : Octets} {n : Nat} (found : toNat? content = some n) :
    Octets.toNat content = n := by
  cases content with
  | nil => cases found
  | cons b rest =>
      simp only [toNat?, Option.ite_none_right_eq_some, Option.some.injEq] at found
      exact found.2

theorem toNat_ofNat (n : Nat) : Octets.toNat (ofNat n) = n :=
  toNat_of_toNat? (toNat?_ofNat n)

/-- Zero has one spelling. -/
theorem eq_ofNat_zero {content : Octets} (found : toNat? content = some 0) : content = ofNat 0 := by
  cases content with
  | nil => cases found
  | cons b rest =>
      simp only [toNat?, Option.ite_none_right_eq_some, Option.some.injEq] at found
      obtain ⟨⟨integer, -⟩, value⟩ := found
      have zeros := Octets.eq_replicate_of_toNat value
      cases rest with
      | nil =>
          rw [zeros]
          rfl
      | cons c later =>
          simp only [List.length_cons, List.replicate_succ, List.cons.injEq] at zeros
          obtain ⟨rfl, rfl, -⟩ := zeros
          cases integer

theorem length_ofNat_le {n width : Nat} (fits : n < 256 ^ width) :
    (ofNat n).length ≤ width + 1 := by
  have short := Octets.length_ofNatMinimal_le fits
  unfold ofNat
  cases octets : Octets.ofNatMinimal n with
  | nil => exact Nat.le_add_left _ _
  | cons b rest =>
      rw [octets] at short
      simp only
      split
      · omega
      · simp only [List.length_cons] at short ⊢
        omega

end Integer

/-! ### Sets -/

attribute [local simp] octetsLt insertMember sortMembers

theorem octetsLt_irrefl (a : Octets) : octetsLt a a = false := by
  induction a with
  | nil => rfl
  | cons b rest ih => simp [ih]

theorem octetsLt_total {a b : Octets} (other : a ≠ b) (more : octetsLt a b = false) :
    octetsLt b a = true := by
  induction a generalizing b with
  | nil =>
      cases b with
      | nil => exact absurd rfl other
      | cons d later => cases more
  | cons c rest ih =>
      cases b with
      | nil => rfl
      | cons d later =>
          by_cases same : c = d
          · subst same
            simp only [octetsLt, if_true] at more ⊢
            exact ih (fun tails => other (by rw [tails])) more
          · have turned : ¬ d = c := fun h => same h.symm
            simp only [octetsLt, same, turned, if_false, decide_eq_false_iff_not,
              decide_eq_true_eq] at more ⊢
            exact UInt8.lt_of_le_of_ne (UInt8.not_lt.1 more) turned

theorem octetsLt_trans {a b c : Octets} (first : octetsLt a b = true) (second : octetsLt b c = true) :
    octetsLt a c = true := by
  induction a generalizing b c with
  | nil =>
      cases c with
      | nil => cases b <;> cases second
      | cons z rest => rfl
  | cons x as ih =>
      cases b with
      | nil => cases first
      | cons y bs =>
          cases c with
          | nil => cases second
          | cons z cs =>
              by_cases same : x = y
              · subst same
                by_cases next : x = z
                · subst next
                  simp only [octetsLt, if_true] at first second ⊢
                  exact ih first second
                · simp only [octetsLt, next, if_false] at second ⊢
                  exact second
              · simp only [octetsLt, same, if_false, decide_eq_true_eq] at first
                by_cases next : y = z
                · subst next
                  simp only [octetsLt, same, if_false, decide_eq_true_eq]
                  exact first
                · simp only [octetsLt, next, if_false, decide_eq_true_eq] at second
                  have less := UInt8.lt_trans first second
                  simp only [octetsLt, UInt8.ne_of_lt less, if_false, decide_eq_true_eq]
                  exact less

section

variable {α : Type} {encode : α → Octets}

theorem head?_of_insertMember {x : α} {ys zs : List α} (found : insertMember encode x ys = some zs) :
    ∀ z ∈ zs.head?, z = x ∨ z ∈ ys.head? := by
  intro z member
  cases ys with
  | nil =>
      cases found
      cases member
      exact .inl rfl
  | cons y rest =>
      simp only [insertMember] at found
      split at found
      · cases found
      · split at found
        · cases found
          cases member
          exact .inl rfl
        · obtain ⟨tail, -, rfl⟩ := Option.map_eq_some_iff.1 found
          cases member
          exact .inr rfl

/-- A member is added and none is lost. -/
theorem perm_of_insertMember {x : α} {ys zs : List α} (found : insertMember encode x ys = some zs) :
    zs.Perm (x :: ys) := by
  induction ys generalizing zs with
  | nil =>
      cases found
      exact .refl _
  | cons y rest ih =>
      simp only [insertMember] at found
      split at found
      · cases found
      · split at found
        · cases found
          exact .refl _
        · obtain ⟨tail, inserted, rfl⟩ := Option.map_eq_some_iff.1 found
          exact ((ih inserted).cons y).trans (.swap x y rest)

theorem ascending_insertMember {x : α} {ys zs : List α} (ascending : Ascending encode ys)
    (found : insertMember encode x ys = some zs) : Ascending encode zs := by
  induction ys generalizing zs with
  | nil =>
      cases found
      exact ⟨by simp, trivial⟩
  | cons y rest ih =>
      simp only [insertMember] at found
      split at found
      · cases found
      · next other =>
          split at found
          · next less =>
              cases found
              refine ⟨?_, ascending⟩
              intro z member
              cases member
              exact less
          · next more =>
              obtain ⟨tail, inserted, rfl⟩ := Option.map_eq_some_iff.1 found
              refine ⟨?_, ih ascending.2 inserted⟩
              intro z member
              rcases head?_of_insertMember inserted z member with rfl | here
              · exact octetsLt_total other (by simpa using more)
              · exact ascending.1 z here

theorem ascending_sortMembers {xs ys : List α} (found : sortMembers encode xs = some ys) :
    Ascending encode ys := by
  induction xs generalizing ys with
  | nil =>
      cases found
      trivial
  | cons x rest ih =>
      simp only [sortMembers, Option.bind_eq_bind, Option.bind_eq_some_iff] at found
      obtain ⟨sorted, tail, inserted⟩ := found
      exact ascending_insertMember (ih tail) inserted

theorem perm_of_sortMembers {xs ys : List α} (found : sortMembers encode xs = some ys) :
    ys.Perm xs := by
  induction xs generalizing ys with
  | nil =>
      cases found
      exact .refl _
  | cons x rest ih =>
      simp only [sortMembers, Option.bind_eq_bind, Option.bind_eq_some_iff] at found
      obtain ⟨sorted, tail, inserted⟩ := found
      exact (perm_of_insertMember inserted).trans ((ih tail).cons x)

theorem insertMember_of_ascending {x : α} {rest : List α} (ascending : Ascending encode (x :: rest)) :
    insertMember encode x rest = some (x :: rest) := by
  cases rest with
  | nil => rfl
  | cons y later =>
      have less : octetsLt (encode x) (encode y) = true := ascending.1 y rfl
      have other : encode x ≠ encode y := by
        intro same
        rw [same, octetsLt_irrefl] at less
        cases less
      rw [insertMember, if_neg other, if_pos less]

/-- Sorted members are left as they are. -/
theorem sortMembers_of_ascending {xs : List α} (ascending : Ascending encode xs) :
    sortMembers encode xs = some xs := by
  induction xs with
  | nil => rfl
  | cons x rest ih =>
      rw [sortMembers, ih ascending.2]
      exact insertMember_of_ascending ascending

/-- Of ascending members each comes before all later ones. -/
theorem Ascending.pairwise {xs : List α} (ascending : Ascending encode xs) :
    xs.Pairwise fun x y => octetsLt (encode x) (encode y) = true := by
  induction xs with
  | nil => exact .nil
  | cons x rest ih =>
      have later := ih ascending.2
      refine .cons ?_ later
      cases rest with
      | nil => simp
      | cons y rest =>
          have next : octetsLt (encode x) (encode y) = true := ascending.1 y rfl
          intro z member
          rcases List.mem_cons.1 member with rfl | further
          · exact next
          · exact octetsLt_trans next ((List.pairwise_cons.1 later).1 z further)

/-- The second row holds the members of the first in the order of their encodings. -/
structure Arranges (encode : α → Octets) (xs ys : List α) : Prop where
  perm : ys.Perm xs
  ascending : Ascending encode ys

theorem arranges_of_sortMembers {xs ys : List α} (found : sortMembers encode xs = some ys) :
    Arranges encode xs ys :=
  ⟨perm_of_sortMembers found, ascending_sortMembers found⟩

/-- There is one such row. -/
theorem Arranges.unique {xs ys zs : List α} (first : Arranges encode xs ys)
    (second : Arranges encode xs zs) : ys = zs := by
  refine List.Perm.eq_of_pairwise (fun x y _ _ less more => ?_) first.ascending.pairwise
    second.ascending.pairwise (first.perm.trans second.perm.symm)
  have cycle := octetsLt_trans less more
  rw [octetsLt_irrefl] at cycle
  cases cycle

/-- A row is left as it is exactly if its members ascend. -/
theorem Arranges.eq_iff {xs ys : List α} (arranges : Arranges encode xs ys) :
    ys = xs ↔ Ascending encode xs := by
  constructor
  · rintro rfl
    exact arranges.ascending
  · intro ascending
    exact arranges.unique ⟨.refl _, ascending⟩

end

end SecureElement.Der
