import SecureElement.Bench.World
import SecureElement.Proofs.Provisioning.Footprint

/-!
The files of a tree.

Where a path leads is settled by its components alone, as long as they lead anywhere
(`step?_of_enter?`). So a write changes the one file that its path leads to, or none; making the
directories for it changes no file (`Files.write_spec`). This makes the tree a view of the files of the
world (`World.fileView`), and what a run changes in it are the files that it may write for its chip
(`World.writable_of_changed`).
-/

namespace SecureElement.Bench

namespace Files

variable {files made : Files} {route above : Route}

/-! ### Where paths lead -/

/-- The route one component further on, whatever stands there. -/
def step? (route : Route) (component : String) : Option Route :=
  if component = "" ∨ component = "." then some route
  else if component = ".." then (if route = [] then none else some route.dropLast)
  else some (route ++ [component])

/-- The route that a path takes, if all its directories are there. -/
def leadsTo? (path : String) : Option Route := do
  let parts ← components? path
  let above ← parts.dropLast.foldlM step? []
  step? above (parts.getLastD "")

theorem step?_of_enter? {component : String} (entered : files.enter? above component = some route) :
    step? above component = some route := by
  unfold enter? at entered
  split at entered
  · cases entered
  · exact entered

/-! ### What files hold -/

/-- The content of the file at a route. -/
def content? (files : Files) (route : Route) : Option Octets :=
  match files.node? route with
  | some (.file content) => some content
  | _ => none

theorem node?_set {node : Node} (below : route ≠ []) (other : Route) :
    (files.set route node).node? other = if other = route then some node else files.node? other := by
  by_cases same : other = route
  · subst same
    simp [node?, set, below]
  · by_cases top : other = []
    · simp [node?, top, Ne.symm below]
    · have skipped : (files.entries.filter (·.1 ≠ route)).find? (·.1 = other) =
          files.entries.find? (·.1 = other) := by
        rw [List.find?_filter]
        congr 1
        funext entry
        by_cases here : entry.1 = other
        · simp [here, same]
        · simp [here]
      simp only [node?, set, top, if_false, same]
      rw [List.find?_cons_of_neg (by simpa using Ne.symm same), skipped]

theorem content?_ensureDirectory (ensured : files.ensureDirectory? route = some made) (other : Route) :
    made.content? other = files.content? other := by
  unfold ensureDirectory? at ensured
  cases here : files.node? route with
  | some node =>
      rw [here] at ensured
      cases node with
      | file content => cases ensured
      | directory =>
          cases ensured
          rfl
  | none =>
      rw [here] at ensured
      cases ensured
      have below : route ≠ [] := by
        rintro rfl
        cases here
      rw [content?, node?_set below]
      by_cases same : other = route
      · subst same
        simp [content?, here]
      · rw [if_neg same, content?]

/-- Making directories changes no file. -/
theorem content?_ensureDirectories {parts : List String} {start : Route}
    (ensured : parts.foldlM (fun (files, route) component => do
      let route ← enter? files route component
      some (← ensureDirectory? files route, route)) (files, start) = some (made, above)) :
    parts.foldlM step? start = some above ∧ ∀ other, made.content? other = files.content? other := by
  induction parts generalizing files start with
  | nil =>
      cases ensured
      exact ⟨rfl, fun _ => rfl⟩
  | cons component parts ih =>
      simp only [List.foldlM_cons, Option.bind_eq_bind, Option.bind_eq_some_iff, Option.some.injEq] at ensured
      obtain ⟨⟨between, next⟩, ⟨route, entered, directory, here, same⟩, later⟩ := ensured
      cases same
      obtain ⟨leads, kept⟩ := ih later
      refine ⟨?_, fun other => (kept other).trans (content?_ensureDirectory here other)⟩
      rw [List.foldlM_cons, step?_of_enter? entered]
      exact leads

/-- A write that succeeds changes the file that its path leads to, and no other; one that fails changes
none. -/
theorem write_spec (files : Files) (path : String) (content : Octets) :
    ((files.write path content).2 = true ∧ ∃ route, leadsTo? path = some route ∧
      ∀ other, (files.write path content).1.content? other =
        if other = route then some content else files.content? other) ∨
    ((files.write path content).2 = false ∧
      ∀ other, (files.write path content).1.content? other = files.content? other) := by
  unfold write leadsTo?
  cases cut : components? path with
  | none => exact .inr ⟨rfl, fun _ => rfl⟩
  | some parts =>
      simp only [Option.bind_eq_bind, Option.bind_some]
      cases ensured : files.ensureDirectories? parts.dropLast with
      | none => exact .inr ⟨rfl, fun _ => rfl⟩
      | some result =>
          obtain ⟨made, above⟩ := result
          obtain ⟨leads, kept⟩ := content?_ensureDirectories ensured
          simp only
          cases entered : made.enter? above (parts.getLastD "") with
          | none => exact .inr ⟨rfl, kept⟩
          | some route =>
              simp only
              by_cases directory : made.isDirectory route = true
              · rw [if_pos directory]
                exact .inr ⟨rfl, kept⟩
              · have below : route ≠ [] := by
                  rintro rfl
                  exact directory rfl
                rw [if_neg directory]
                refine .inl ⟨rfl, route, ?_, fun other => ?_⟩
                · rw [leads, Option.bind_some, step?_of_enter? entered]
                · rw [content?, node?_set below]
                  by_cases same : other = route
                  · rw [if_pos same, if_pos same]
                  · rw [if_neg same, if_neg same]
                    exact kept other

end Files

namespace World

/-- Reading from the device changes no file. -/
theorem files_readLine (w : World) : w.readLine.2.files = w.files := by
  unfold readLine
  cases w.pace with
  | none => rfl
  | some pace =>
      simp only [readPaced]
      split
      · rfl
      · split
        · rfl
        · split <;> rfl
        · rfl

/-- The files of the world are those of its tree. -/
def fileView : Provisioning.FileView surroundings where
  File := Route
  content w route := w.files.content? route
  names path route := Files.leadsTo? path = some route
  kept := by
    intro q w route keeps
    cases q with
    | writeFile path content => exact absurd rfl (keeps path content)
    | readLine => exact congrArg (Files.content? · route) (files_readLine w)
    | _ => rfl
  written := by
    intro path octets w route
    rcases Files.write_spec w.files path octets with ⟨-, there, leads, content⟩ | ⟨-, content⟩
    · by_cases same : route = there
      · subst same
        exact .inr ⟨leads, (content route).trans (if_pos rfl)⟩
      · exact .inl ((content route).trans (if_neg same))
    · exact .inl (content route)
  succeeded := by
    intro path octets w done
    rcases Files.write_spec w.files path octets with ⟨-, there, leads, content⟩ | ⟨failed, -⟩
    · exact ⟨there, leads, (content there).trans (if_pos rfl)⟩
    · have refused : (surroundings.answer (.writeFile path octets) w).1 = false := failed
      rw [refused] at done
      cases done

/-- A run in the world changes only files that the paths lead to which it may write for its chip. -/
theorem writable_of_changed (config : RunConfig) (reads : Nat) (w : World) :
    ∃ rounds tail,
      Dialogue.transcript surroundings (Provisioning.run config reads).run w =
        rounds.flatMap Provisioning.Round.steps ++ tail ∧
      ∀ route, (Dialogue.run surroundings (Provisioning.run config reads).run w).2.files.content? route ≠
          w.files.content? route →
        ∃ path, Provisioning.Writable config rounds path ∧ Files.leadsTo? path = some route := by
  obtain ⟨rounds, tail, steps, ended⟩ := Provisioning.ended_of_run config reads surroundings w
  refine ⟨rounds, tail, steps, ?_⟩
  intro route changed
  obtain ⟨saving, member, leads, -⟩ := fileView.exists_saving (Provisioning.run config reads).run w changed
  rw [steps] at member
  exact ⟨saving.path, ended.footprint.writable saving member, leads⟩

end World

end SecureElement.Bench
