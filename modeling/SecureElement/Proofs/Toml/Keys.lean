import Mathlib.Data.List.Nodup
import SecureElement.Toml.Document

/-!
Each key of a document is given one value (`nodup_of_parse?`): a change of a table keeps its keys, or adds
one that was not there.
-/

namespace SecureElement.Toml

namespace Fields

/-- The keys of a table are all different. -/
def Distinct (fields : Fields) : Prop := (fields.map Prod.fst).Nodup

theorem distinct_nil : Distinct [] := List.nodup_nil

/-- A change of one key leaves the others as they are, and adds no other. -/
theorem keys_of_modify {key : String} {change : Option Item → Option Item} {fields changed : Fields}
    (made : modify key change fields = some changed) :
    changed.map Prod.fst = fields.map Prod.fst ∧ key ∈ fields.map Prod.fst ∨
      changed.map Prod.fst = fields.map Prod.fst ++ [key] ∧ key ∉ fields.map Prod.fst := by
  induction fields generalizing changed with
  | nil =>
      obtain ⟨item, -, rfl⟩ := Option.map_eq_some_iff.1 made
      exact .inr ⟨rfl, by simp⟩
  | cons field rest ih =>
      obtain ⟨k, item⟩ := field
      rw [modify] at made
      by_cases same : k = key
      · rw [if_pos same] at made
        obtain ⟨item', -, rfl⟩ := Option.map_eq_some_iff.1 made
        exact .inl ⟨rfl, by simp [same]⟩
      · rw [if_neg same] at made
        obtain ⟨later, changed', rfl⟩ := Option.map_eq_some_iff.1 made
        rcases ih changed' with ⟨kept, here⟩ | ⟨added, absent⟩
        · exact .inl ⟨by simp [kept], by simp [here]⟩
        · refine .inr ⟨by simp [added], ?_⟩
          rw [List.map_cons, List.mem_cons, not_or]
          exact ⟨fun other => same other.symm, absent⟩

theorem Distinct.modify {key : String} {change : Option Item → Option Item} {fields changed : Fields}
    (distinct : Distinct fields) (made : Fields.modify key change fields = some changed) :
    Distinct changed := by
  unfold Distinct at distinct ⊢
  rcases keys_of_modify made with ⟨kept, -⟩ | ⟨added, absent⟩
  · rw [kept]
    exact distinct
  · rw [added]
    exact List.nodup_append.2 ⟨distinct, List.nodup_singleton key, by grind⟩

/-- What is changed below a table changes one of its keys. -/
theorem Distinct.within {missing : TableForm} {mayEnter : TableForm → Bool}
    {change : TableForm → Fields → Option Fields} {path : List String} {form : TableForm}
    {fields changed : Fields} (distinct : Distinct fields)
    (keeps : ∀ form fields changed, Distinct fields → change form fields = some changed →
      Distinct changed)
    (made : Fields.within missing mayEnter change path form fields = some changed) :
    Distinct changed := by
  cases path with
  | nil => exact keeps form fields changed distinct made
  | cons key path => exact distinct.modify made

theorem Distinct.assign {path : List String} {key : String} {item : Item} {form : TableForm}
    {fields changed : Fields} (distinct : Distinct fields)
    (made : Fields.assign path key item form fields = some changed) : Distinct changed := by
  refine distinct.within ?_ made
  intro form fields changed distinct made
  split at made
  · cases made
  · exact distinct.modify made

theorem Distinct.assignUnder {header path : List String} {key : String} {item : Item}
    {document changed : Fields} (distinct : Distinct document)
    (made : Fields.assignUnder header path key item document = some changed) : Distinct changed :=
  distinct.within (fun _ _ _ distinct made => distinct.assign made) made

theorem Distinct.openTable {path : List String} {key : String} {document changed : Fields}
    (distinct : Distinct document) (made : Fields.openTable path key document = some changed) :
    Distinct changed :=
  distinct.within (fun _ _ _ distinct made => distinct.modify made) made

end Fields

/-- Every line of a document keeps the keys different. -/
theorem distinct_of_lines {fuel : Nat} {header : List String} {document fields : Fields}
    {cs : List Char} (distinct : document.Distinct) (read : lines fuel header document cs = some fields) :
    fields.Distinct := by
  induction fuel generalizing header document cs with
  | zero => cases read
  | succ fuel ih =>
      rw [lines] at read
      split at read
      · cases read
        exact distinct
      · exact ih distinct read
      · split at read
        · simp only [Option.bind_eq_bind, Option.bind_eq_some_iff] at read
          obtain ⟨⟨⟨path, key⟩, rest⟩, -, read⟩ := read
          simp only at read
          split at read
          · simp only [Option.bind_eq_some_iff] at read
            obtain ⟨opened, made, next, -, later⟩ := read
            exact ih (distinct.openTable made) later
          · cases read
        · simp only [Option.bind_eq_bind, Option.bind_eq_some_iff] at read
          obtain ⟨⟨⟨path, key⟩, item, rest⟩, -, assigned, made, next, -, later⟩ := read
          exact ih (distinct.assignUnder made) later

/-- The keys of a document are all different. -/
theorem distinct_of_parse? {text : String} {fields : Fields} (read : parse? text = some fields) :
    fields.Distinct :=
  distinct_of_lines Fields.distinct_nil read

end SecureElement.Toml
