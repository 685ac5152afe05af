import SecureElement.Proofs.Toml.Keys
import SecureElement.Settings.File

/-!
What settings say of the slots.

A file sets the slots to be locked exactly if it gives the key the value true (`lockSlots_of_ofFile`). What
is said above goes before what the file says, and if neither says anything the slots are not locked
(`lockSlots_of_resolve`).
-/

namespace SecureElement.Settings

open Toml

/-- The key for the slots in a file. -/
def lockKey : String := "lock_slots"

/-- One more key says something of the slots only if it is the key for them. -/
theorem lockSlots_of_withKey? {s s' : Settings} {key : String} {item : Item}
    (made : s.withKey? key item = some s') :
    key = lockKey ∧ (∃ b, item = .boolean b ∧ s'.lockSlots = some b) ∨
      key ≠ lockKey ∧ s'.lockSlots = s.lockSlots := by
  unfold withKey? at made
  split at made
  case h_8 =>
    obtain ⟨b, boolean, rfl⟩ := Option.map_eq_some_iff.1 made
    left
    refine ⟨rfl, b, ?_, rfl⟩
    cases item <;> cases boolean
    rfl
  case h_11 => cases made
  all_goals
    obtain ⟨value, -, rfl⟩ := Option.map_eq_some_iff.1 made
    exact .inr ⟨by decide, rfl⟩

/-- What the fields that are left say of the slots, if their keys are all different. -/
theorem lockSlots_of_fields {s s' : Settings} {fields : Fields} {b : Bool} (distinct : fields.Distinct)
    (made : fields.foldlM (fun s field => s.withKey? field.1 field.2) s = some s') :
    s'.lockSlots = some b ↔
      (lockKey, .boolean b) ∈ fields ∨ lockKey ∉ fields.map Prod.fst ∧ s.lockSlots = some b := by
  induction fields generalizing s with
  | nil =>
      cases made
      simp
  | cons field rest ih =>
      obtain ⟨key, item⟩ := field
      obtain ⟨fresh, later⟩ := List.nodup_cons.1 distinct
      rw [List.foldlM_cons] at made
      obtain ⟨next, changed, made⟩ := Option.bind_eq_some_iff.1 made
      rw [ih later made]
      rcases lockSlots_of_withKey? changed with ⟨rfl, value, rfl, said⟩ | ⟨other, kept⟩
      · have absent : ∀ item, (lockKey, item) ∉ rest := by
          intro item member
          exact fresh (List.mem_map.2 ⟨(lockKey, item), member, rfl⟩)
        simp only [absent, said, Option.some.injEq, List.mem_cons, Prod.mk.injEq, Item.boolean.injEq,
          true_and, false_or, or_false, List.map_cons, true_or, not_true_eq_false, false_and]
        constructor
        · rintro ⟨-, rfl⟩
          rfl
        · rintro rfl
          exact ⟨fresh, rfl⟩
      · simp [kept, Ne.symm other]

/-- A file says this of the slots. -/
def FileSays (content : Octets) (b : Bool) : Prop :=
  ∃ text fields, Utf8.decode content = some text ∧ Toml.parse? text = some fields ∧
    (lockKey, .boolean b) ∈ fields

theorem lockSlots_of_ofFile {path : String} {content : Option Octets} {s : Settings}
    (read : ofFile path content = .ok s) :
    ∃ octets, content = some octets ∧ ∀ b, s.lockSlots = some b ↔ FileSays octets b := by
  unfold ofFile at read
  split at read
  · cases read
  · next text decoded =>
      obtain ⟨octets, rfl, spelled⟩ := Option.bind_eq_some_iff.1 decoded
      split at read
      · cases read
      · next settings parsed =>
          cases read
          obtain ⟨fields, document, made⟩ := Option.bind_eq_some_iff.1 parsed
          refine ⟨octets, rfl, fun b => ?_⟩
          rw [lockSlots_of_fields (distinct_of_parse? document) made]
          constructor
          · rintro (member | ⟨-, ⟨⟩⟩)
            exact ⟨text, fields, spelled, document, member⟩
          · rintro ⟨text', fields', decoded', document', member⟩
            rw [spelled] at decoded'
            cases decoded'
            rw [document] at document'
            cases document'
            exact .inl member

theorem lockSlots_of_resolve {s : Settings} {flags : RunFlags} {config : RunConfig}
    (resolved : s.resolve flags = .ok config) : config.lockSlots = s.lockSlots.getD false := by
  obtain ⟨_ | port, _ | targetChip, _ | signerCert, _ | signerKey, _⟩ := s <;> cases resolved
  rfl

end SecureElement.Settings
