import SecureElement.CommandLine.Options

/-!
Which switches a command line has.

In a list of arguments that is accepted, an argument that begins like an option is never the value of
another. So the slots are to be locked exactly if one of the two names of that switch is an argument
(`lockSlots_of_ofArguments`).
-/

namespace SecureElement.CommandLine

/-! ### How an option is named -/

/-- An argument is one of the two names of the switch that locks the slots. -/
def IsLockSwitch (argument : String) : Prop :=
  argument = "--lock-slots" ∨ argument = "--lock_slots"

instance (argument : String) : Decidable (IsLockSwitch argument) := by
  unfold IsLockSwitch
  infer_instance

theorem entry_of_lockSlots : ∀ entry ∈ entries, entry.option = .lockSlots →
    entry.names = ["lock-slots", "lock_slots"] ∧ entry.letter = none ∧ entry.value = none := by
  decide

theorem takeWhile_of_dropWhile_eq_nil {p : Char → Bool} {cs : List Char} (none : cs.dropWhile p = []) :
    cs.takeWhile p = cs := by
  have whole := List.takeWhile_append_dropWhile (p := p) (l := cs)
  rw [none, List.append_nil] at whole
  exact whole

theorem of_entryOfName? {name : String} {entry : OptEntry} (found : entryOfName? name = some entry) :
    entry ∈ entries ∧ name ∈ entry.names := by
  refine ⟨List.mem_of_find?_eq_some found, ?_⟩
  have named := List.find?_some found
  exact List.contains_iff_mem.1 named

theorem of_entryOfLetter? {letter : Char} {entry : OptEntry}
    (found : entryOfLetter? letter = some entry) : entry ∈ entries ∧ entry.letter = some letter := by
  refine ⟨List.mem_of_find?_eq_some found, ?_⟩
  have lettered := List.find?_some found
  exact of_decide_eq_true lettered

/-- An option without a value attached is written with one of its names, unless it has a letter. -/
theorem Token.exists_name_of_ofText {argument : String} {entry : OptEntry}
    (read : Token.ofText argument = .option (some entry) none) :
    entry ∈ entries ∧ (entry.letter = none → ∃ name ∈ entry.names, argument = "--" ++ name) := by
  unfold Token.ofText at read
  split at read
  · cases read
  · next rest _ spelled =>
      simp only at read
      split at read
      · next unattached =>
          simp only [Token.option.injEq] at read
          obtain ⟨listed, named⟩ := of_entryOfName? read.1
          rw [takeWhile_of_dropWhile_eq_nil unattached] at named
          refine ⟨listed, fun _ => ⟨_, named, ?_⟩⟩
          apply String.toList_inj.1
          rw [spelled, String.toList_append, String.toList_ofList (l := rest)]
          rfl
      · simp at read
  · next letter rest _ _ _ =>
      have lettered : entryOfLetter? letter = some entry := by
        simp only at read
        split at read
        · exact (Token.option.inj read).1
        · exact (Token.option.inj read).1
      obtain ⟨listed, some⟩ := of_entryOfLetter? lettered
      refine ⟨listed, fun none => ?_⟩
      rw [none] at some
      cases some
  · cases read

/-- The switch that locks the slots is written with one of its names. -/
theorem isLockSwitch_iff {argument : String} :
    IsLockSwitch argument ↔
      ∃ entry, Token.ofText argument = .option (some entry) none ∧ entry.option = .lockSlots := by
  constructor
  · rintro (rfl | rfl)
    · exact ⟨_, rfl, rfl⟩
    · exact ⟨_, rfl, rfl⟩
  · rintro ⟨entry, read, lock⟩
    obtain ⟨listed, named⟩ := Token.exists_name_of_ofText read
    obtain ⟨names, letter, -⟩ := entry_of_lockSlots entry listed lock
    obtain ⟨name, member, rfl⟩ := named letter
    rw [names] at member
    simp only [List.mem_cons, List.not_mem_nil, or_false] at member
    rcases member with rfl | rfl
    · exact .inl rfl
    · exact .inr rfl

/-! ### What is made of the switch -/

theorem Arguments.lockSlots_withSwitch (a : Arguments) (option : Opt) :
    (a.withSwitch option).settings.lockSlots =
      if option = .lockSlots then some true else a.settings.lockSlots := by
  cases option <;> rfl

/-- The value of an option says nothing of the slots. -/
theorem Arguments.lockSlots_of_withValue? {a a' : Arguments} {option : Opt} {value : String}
    (made : a.withValue? option value = some a') : a'.settings.lockSlots = a.settings.lockSlots := by
  unfold Arguments.withValue? at made
  cases option <;> simp only [Option.map_eq_some_iff, Option.some.injEq, reduceCtorEq] at made <;> grind

namespace Gathered

theorem lockSlots_of_put {g g' : Gathered} {option : Opt} {value : Option String}
    (put : g.put option value = .ok g') :
    g'.arguments.settings.lockSlots =
      if option = .lockSlots ∧ value = none then some true else g.arguments.settings.lockSlots := by
  unfold Gathered.put at put
  split at put
  · cases put
  · cases value with
    | none =>
        cases put
        rw [Arguments.lockSlots_withSwitch]
        simp
    | some value =>
        simp only at put
        split at put
        · next made =>
            cases put
            rw [Arguments.lockSlots_of_withValue? made]
            simp
        · cases put

/-- A command line goes on only if its option could be put. -/
theorem exists_put {g : Gathered} {option : Opt} {value : Option String} {rest : List String}
    {invocation : Invocation}
    (read : (g.put option value >>= fun g' => g'.readOn rest) = .ok invocation) :
    ∃ g', g.put option value = .ok g' ∧ g'.readOn rest = .ok invocation := by
  cases put : g.put option value with
  | error e =>
      rw [put] at read
      cases read
  | ok g' =>
      rw [put] at read
      exact ⟨g', rfl, read⟩

/-- An option that takes no value is put for the switch if it is written as the switch. -/
theorem lockSlots_of_put_none {g g' : Gathered} {argument : String} {entry : OptEntry}
    (read : Token.ofText argument = .option (some entry) none)
    (put : g.put entry.option none = .ok g') :
    g'.arguments.settings.lockSlots =
      if IsLockSwitch argument then some true else g.arguments.settings.lockSlots := by
  have same : entry.option = .lockSlots ↔ IsLockSwitch argument := by
    rw [isLockSwitch_iff]
    constructor
    · intro lock
      exact ⟨entry, read, lock⟩
    · rintro ⟨entry', read', lock⟩
      rw [read] at read'
      cases read'
      exact lock
  rw [lockSlots_of_put put]
  simp only [and_true, same]

/-- An option that takes a value is not written as the switch. -/
theorem not_isLockSwitch_of_value {argument value : String} {entry : OptEntry}
    {attached : Option String} (read : Token.ofText argument = .option (some entry) attached)
    (valued : entry.value = some value) : ¬ IsLockSwitch argument := by
  rw [isLockSwitch_iff]
  rintro ⟨entry', read', lock⟩
  have listed := (Token.exists_name_of_ofText read').1
  rw [read] at read'
  cases read'
  have unvalued := (entry_of_lockSlots entry listed lock).2.2
  rw [valued] at unvalued
  cases unvalued

/-- The value of an option is not the switch. -/
theorem not_isLockSwitch_of_isValue {argument : String} (value : isValue argument = true) :
    ¬ IsLockSwitch argument := by
  rw [isLockSwitch_iff]
  rintro ⟨entry, read, -⟩
  rw [isValue, read] at value
  cases value

/-- What is said of the slots after more arguments. -/
def lockAfter (arguments : List String) (before : Option Bool) : Option Bool :=
  if ∃ argument ∈ arguments, IsLockSwitch argument then some true else before

theorem lockAfter_cons (argument : String) (rest : List String) (before : Option Bool) :
    lockAfter (argument :: rest) before =
      lockAfter rest (if IsLockSwitch argument then some true else before) := by
  unfold lockAfter
  by_cases here : IsLockSwitch argument
  · simp [here]
  · simp [here]

theorem lockAfter_cons_of_not {argument : String} (other : ¬ IsLockSwitch argument) (rest : List String)
    (before : Option Bool) : lockAfter (argument :: rest) before = lockAfter rest before := by
  rw [lockAfter_cons, if_neg other]

/-- What the rest of a command line says of the slots. -/
theorem lockSlots_of_readOn {g : Gathered} {arguments : List String} {a : Arguments}
    (read : g.readOn arguments = .ok (.run a)) :
    a.settings.lockSlots = lockAfter arguments g.arguments.settings.lockSlots := by
  -- The induction is on the arguments that are left; those that are refused or end the reading say nothing.
  fun_induction Gathered.readOn g arguments with
  | case1 g =>
      cases read
      rfl
  | case3 g argument ended =>
      cases read
      have other : ¬ IsLockSwitch argument := by
        rw [isLockSwitch_iff]
        rintro ⟨entry, read', -⟩
        rw [ended] at read'
        cases read'
      rw [lockAfter_cons_of_not other]
      rfl
  | case9 g argument rest entry unvalued here notHelp notVersion ih =>
      obtain ⟨g', put, later⟩ := exists_put read
      rw [ih g' later, lockAfter_cons, lockSlots_of_put_none here put]
  | case10 g argument rest entry kind value valued here ih =>
      obtain ⟨g', put, later⟩ := exists_put read
      rw [ih g' later, lockAfter_cons_of_not (not_isLockSwitch_of_value here valued),
        lockSlots_of_put put]
      simp
  | case12 g argument entry kind valued value rest plain here ih =>
      obtain ⟨g', put, later⟩ := exists_put read
      rw [ih g' later, lockAfter_cons_of_not (not_isLockSwitch_of_value here valued),
        lockAfter_cons_of_not (not_isLockSwitch_of_isValue plain), lockSlots_of_put put]
      simp
  | case2 | case4 | case5 | case6 | case7 | case8 | case11 | case13 => cases read

end Gathered

/-- A command line asks for the slots to be locked exactly if the switch is one of its arguments; it
cannot ask for them not to be. -/
theorem lockSlots_of_ofArguments {arguments : List String} {a : Arguments}
    (read : Invocation.ofArguments arguments = .ok (.run a)) :
    a.settings.lockSlots =
      if ∃ argument ∈ arguments, IsLockSwitch argument then some true else none :=
  Gathered.lockSlots_of_readOn read

end SecureElement.CommandLine
