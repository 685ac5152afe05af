import Mathlib.Data.List.Basic

/-!
Cuts of lists.

Of two cuts of a list one is the later (`exists_of_append_le`). A list that is put together from parts, and cut
at a member, is cut within one of the parts: the one in which the member stands (`exists_of_flatMap_append`), or
the one that is left if the others do not hold it (`exists_of_not_mem_front`, `exists_of_not_mem_back`).
-/

namespace SecureElement.Lists

variable {α β : Type} {before after : List α} {x : α}

/-- Of two cuts of a list, the later one leaves a part of what the earlier one leaves. -/
theorem exists_of_append_le {xs ys zs ws : List α} (same : xs ++ ys = zs ++ ws)
    (le : xs.length ≤ zs.length) : ∃ between, zs = xs ++ between ∧ ys = between ++ ws := by
  obtain ⟨between, rfl⟩ : xs <+: zs :=
    List.prefix_of_prefix_length_le (List.prefix_append xs ys) (same ▸ List.prefix_append zs ws) le
  rw [List.append_assoc] at same
  exact ⟨between, rfl, List.append_cancel_left same⟩

/-- A list is cut at its last member, or in what is before that. -/
theorem cut_append_singleton {xs : List α} {last : α} (cut : xs ++ [last] = before ++ x :: after) :
    (xs = before ∧ last = x ∧ after = []) ∨ ∃ rest, xs = before ++ x :: rest ∧ after = rest ++ [last] := by
  rcases List.eq_nil_or_concat after with rfl | ⟨rest, final, rfl⟩
  · obtain ⟨rfl, same⟩ := List.append_inj' cut rfl
    cases same
    exact .inl ⟨rfl, rfl, rfl⟩
  · rw [List.concat_eq_append, ← List.cons_append, ← List.append_assoc] at cut
    obtain ⟨rfl, same⟩ := List.append_inj' cut rfl
    cases same
    exact .inr ⟨rest, rfl, by simp⟩

/-- What stands in a list but not in its front part stands in the rest. -/
theorem exists_of_not_mem_front {front rest : List α} (cut : front ++ rest = before ++ x :: after)
    (absent : x ∉ front) : ∃ inner, before = front ++ inner ∧ rest = inner ++ x :: after := by
  rcases List.append_eq_append_iff.1 cut with ⟨inner, rfl, later⟩ | ⟨part, rfl, later⟩
  · exact ⟨inner, rfl, later⟩
  · cases part with
    | nil => exact ⟨[], by simp, later.symm⟩
    | cons y part =>
        obtain ⟨rfl, -⟩ := List.cons.inj later
        simp at absent

/-- What stands in a list but not in its back part stands in what is before that. -/
theorem exists_of_not_mem_back {rest back : List α} (cut : rest ++ back = before ++ x :: after)
    (absent : x ∉ back) : ∃ later, rest = before ++ x :: later := by
  rcases List.append_eq_append_iff.1 cut with ⟨inner, -, rfl⟩ | ⟨part, rfl, later⟩
  · simp at absent
  · cases part with
    | nil =>
        rw [List.nil_append] at later
        rw [← later] at absent
        simp at absent
    | cons y part =>
        obtain ⟨rfl, -⟩ := List.cons.inj later
        exact ⟨part, rfl⟩

/-- What stands in a row of parts and a rest stands in one of the parts, after those before it, or in the
rest. -/
theorem exists_of_flatMap_append {f : β → List α} {ys : List β} {rest : List α}
    (cut : ys.flatMap f ++ rest = before ++ x :: after) :
    (∃ front y back, ys = front ++ y :: back ∧ front.flatMap f <+: before ∧ x ∈ f y) ∨ x ∈ rest := by
  induction ys generalizing before with
  | nil =>
      right
      rw [List.flatMap_nil, List.nil_append] at cut
      rw [cut]
      exact List.mem_append_right _ List.mem_cons_self
  | cons y ys ih =>
      rw [List.flatMap_cons, List.append_assoc] at cut
      by_cases here : x ∈ f y
      · exact .inl ⟨[], y, ys, rfl, List.nil_prefix, here⟩
      · obtain ⟨inner, rfl, later⟩ := exists_of_not_mem_front cut here
        rcases ih later with ⟨front, z, back, rfl, start, there⟩ | last
        · refine .inl ⟨y :: front, z, back, rfl, ?_, there⟩
          rw [List.flatMap_cons]
          exact (List.prefix_append_right_inj _).2 start
        · exact .inr last

/-- Some member is the first for which a test holds, or it holds for none. -/
theorem none_or_exists_first (test : α → Bool) (xs : List α) :
    (∀ x ∈ xs, test x = false) ∨ ∃ before first later, xs = before ++ first :: later ∧
      (∀ x ∈ before, test x = false) ∧ test first = true := by
  cases found : xs.find? test with
  | none => exact .inl (by simpa using found)
  | some first =>
      obtain ⟨here, before, later, cut, earlier⟩ := List.find?_eq_some_iff_append.1 found
      exact .inr ⟨before, first, later, cut, by simpa using earlier, here⟩

end SecureElement.Lists
