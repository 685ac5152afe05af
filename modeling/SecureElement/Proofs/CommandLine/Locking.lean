import SecureElement.CommandLine.Program
import SecureElement.Proofs.CommandLine.Switches
import SecureElement.Proofs.Provisioning.Locking
import SecureElement.Proofs.Settings.LockSlots

/-!
Slots are locked if this was asked for, and not otherwise.

The arguments of the program and the file that they name ask for it (`LockAsked`). From there it comes to
the lines that give certificates to the chip: each of them says whether to lock a slot, and says it as it
was asked for, after the chip was found to be a blank one and after the lock was announced
(`program_locks_as_asked`).
-/

namespace SecureElement.CommandLine

open Dialogue (Step)
open Provisioning (IsProgramLine Detected lockAnnouncement)

/-! ### Where the settings are from -/

/-- The slots are to be locked: the switch is one of the arguments, or the file that they name was read and
says so. -/
def LockAsked (arguments : List String) (steps : List Step) : Prop :=
  (∃ argument ∈ arguments, IsLockSwitch argument) ∨
  ∃ asked path content, Invocation.ofArguments arguments = .ok (.run asked) ∧
    asked.config = some path ∧ steps.head? = some ⟨.readFile path, some content⟩ ∧
    Settings.FileSays content true

/-- The settings of the file are those of a file that was read, or there is none. -/
theorem cases_of_path_fileSettings {name : Option String} {steps : List Step} {file : Settings}
    (path : Session.Path (fileSettings name) steps (.ok file)) :
    name = none ∧ steps = [] ∧ file = {} ∨
    ∃ p content, name = some p ∧ steps = [⟨.readFile p, some content⟩] ∧
      ∀ b, file.lockSlots = some b ↔ Settings.FileSays content b := by
  cases name with
  | none =>
      obtain ⟨rfl, same⟩ := Session.path_pure_iff.1 path
      cases same
      exact .inl ⟨rfl, rfl, rfl⟩
  | some p =>
      obtain ⟨answer, rest, rfl, later⟩ := Session.path_query_bind_iff.1 path
      obtain ⟨rfl, read⟩ := Dialogue.path_done_iff.1 later
      cases made : Settings.ofFile p answer with
      | error e =>
          rw [made] at read
          cases read
      | ok settings =>
          rw [made] at read
          cases read
          obtain ⟨content, rfl, told⟩ := Settings.lockSlots_of_ofFile made
          exact .inr ⟨p, content, rfl, rfl, told⟩

/-- A run locks the slots if the switch is one of the arguments or the file says so. -/
theorem lockSlots_of_path_configOf {arguments : List String} {asked : Arguments} {config : RunConfig}
    {reading : List Step} (read : Invocation.ofArguments arguments = .ok (.run asked))
    (path : Session.Path (configOf asked) reading (.ok config)) (more : List Step) :
    config.lockSlots = true ↔ LockAsked arguments (reading ++ more) := by
  rcases Session.path_bind_iff.1 path with ⟨e, -, ⟨⟩⟩ | ⟨first, file, rest, rfl, loaded, later⟩
  obtain ⟨rfl, resolved⟩ := Dialogue.path_done_iff.1 later
  have settled : config.lockSlots = (asked.settings.lockSlots.or file.lockSlots).getD false := by
    cases made : (asked.settings.layeredOver file).resolve asked.flags with
    | error e =>
        rw [made] at resolved
        cases resolved
    | ok config' =>
        rw [made] at resolved
        cases resolved
        exact Settings.lockSlots_of_resolve made
  rw [settled, lockSlots_of_ofArguments read, List.append_nil]
  by_cases switched : ∃ argument ∈ arguments, IsLockSwitch argument
  · rw [if_pos switched]
    exact ⟨fun _ => .inl switched, fun _ => rfl⟩
  · rw [if_neg switched, Option.none_or]
    rcases cases_of_path_fileSettings loaded with ⟨unnamed, -, rfl⟩ | ⟨p, content, named, rfl, told⟩
    · refine ⟨fun locks => (by cases locks), ?_⟩
      rintro (switch | ⟨asked', p, content, read', named, -⟩)
      · exact absurd switch switched
      · rw [read] at read'
        cases read'
        rw [unnamed] at named
        cases named
    · have locks : file.lockSlots.getD false = true ↔ Settings.FileSays content true := by
        rw [← told true]
        cases file.lockSlots with
        | none => simp
        | some b => simp
      rw [locks]
      constructor
      · intro fileSays
        exact .inr ⟨asked, p, content, read, named, rfl, fileSays⟩
      · rintro (switch | ⟨asked', p', content', -, -, first, fileSays⟩)
        · exact absurd switch switched
        · cases first
          exact fileSays

/-! ### What a run of the program does -/

/-- Nothing is sent while a port is opened. -/
theorem silent_openWithRetry (name : String) (attempts : Nat) :
    (SerialLine.openWithRetry name attempts).Asks Dialogue.Silent := by
  have retry : ∀ attempts, (SerialLine.retryOpen name attempts).Asks Dialogue.Silent := by
    intro attempts
    induction attempts with
    | zero => exact .done _
    | succ attempts ih =>
        refine .ask (by simp [Dialogue.Silent]) fun opened => ?_
        cases opened with
        | true => exact .done _
        | false => exact .ask (by simp [Dialogue.Silent]) fun _ => .ask (by simp [Dialogue.Silent]) fun _ => ih
  refine .ask (by simp [Dialogue.Silent]) fun _ => (retry attempts).bind fun opened => ?_
  cases opened with
  | true => exact .ask (by simp [Dialogue.Silent]) fun _ => .done _
  | false => exact .done _

theorem silent_fileSettings (name : Option String) : Session.Silent (fileSettings name) := by
  cases name with
  | none => exact Session.asks_pure _
  | some path =>
      exact Session.asks_bind (Session.asks_query (by simp [Dialogue.Silent])) fun _ =>
        Session.asks_ofExcept _

theorem silent_configOf (asked : Arguments) : Session.Silent (configOf asked) :=
  Session.asks_bind (silent_fileSettings _) fun _ => Session.asks_ofExcept _

/-- The entries in the log before a port is opened. -/
def openingLog (config : RunConfig) : List Step :=
  Provisioning.logged .info ("Target chip: " ++ config.targetChip.logName) ::
    if config.lockSlots then [Provisioning.logged .warning lockWarning] else []

theorem silent_openingLog (config : RunConfig) : ∀ step ∈ openingLog config, Dialogue.Silent step.query := by
  unfold openingLog
  split <;> simp [Provisioning.logged, Dialogue.Silent]

/-- A session makes up its settings, says what it is going to do and opens the port. Then it deals with the
chip, if there is a port. -/
theorem cases_of_path_session {asked : Arguments} {limits : Limits} {steps : List Step}
    {result : Except ProgramError Unit} (path : Session.Path (session asked limits) steps result) :
    (∃ e, Session.Path (configOf asked) steps (.error e)) ∨
    ∃ config reading first opened later, steps = reading ++ (openingLog config ++ first) ++ later ∧
      Session.Path (configOf asked) reading (.ok config) ∧
      Dialogue.Path (SerialLine.openWithRetry config.port limits.attempts) first opened ∧
      Session.Path (if opened then do
          let outcome ← Session.mapError .run (Provisioning.run config limits.reads)
          Session.log .info (outcomeText outcome)
        else throw (.portAbsent config.port)) later result := by
  rcases Session.path_bind_iff.1 path with ⟨e, failed, -⟩ | ⟨reading, config, rest, rfl, read, announcing⟩
  · exact .inl ⟨e, failed⟩
  · right
    obtain ⟨rest, rfl, logged⟩ := Session.path_log_bind_iff.1 announcing
    unfold openingLog
    cases locks : config.lockSlots with
    | true =>
        rw [locks] at logged
        obtain ⟨rest, rfl, warned⟩ := Session.path_log_bind_iff.1 logged
        obtain ⟨first, opened, later, rfl, here, worked⟩ := Session.path_ofDialogue_bind_iff.1 warned
        exact ⟨config, reading, first, opened, later, by simp [locks, Provisioning.logged], read, here, worked⟩
    | false =>
        rw [locks] at logged
        obtain ⟨first, opened, later, rfl, here, worked⟩ := Session.path_ofDialogue_bind_iff.1 logged
        exact ⟨config, reading, first, opened, later, by simp [locks, Provisioning.logged], read, here, worked⟩

/-- Nothing is sent in a session but while it deals with the chip. -/
theorem exists_of_path_session {asked : Arguments} {limits : Limits} {steps : List Step}
    {result : Except ProgramError Unit} (path : Session.Path (session asked limits) steps result) :
    (∀ step ∈ steps, Dialogue.Silent step.query) ∨
    ∃ config reading opening work closing outcome,
      Session.Path (configOf asked) reading (.ok config) ∧
      Session.Path (Provisioning.run config limits.reads) work outcome ∧
      steps = (reading ++ opening) ++ (work ++ closing) ∧
      (∀ step ∈ reading ++ opening, Dialogue.Silent step.query) ∧
      ∀ step ∈ closing, Dialogue.Silent step.query := by
  rcases cases_of_path_session path with
    ⟨e, failed⟩ | ⟨config, reading, first, opened, later, rfl, read, here, worked⟩
  · exact .inl (failed.asks (silent_configOf _))
  have quiet := read.asks (silent_configOf _)
  have logs := silent_openingLog config
  have opens := here.asks (silent_openWithRetry _ _)
  have before : ∀ step ∈ reading ++ (openingLog config ++ first), Dialogue.Silent step.query := by
    simp only [List.mem_append]
    rintro step (member | member | member)
    · exact quiet step member
    · exact logs step member
    · exact opens step member
  cases opened with
  | false =>
      obtain ⟨rfl, -⟩ := Session.path_throw_iff.1 worked
      rw [List.append_nil]
      exact .inl before
  | true =>
      right
      rcases Session.path_bind_iff.1 worked with ⟨e, failed, -⟩ | ⟨work, outcome, closing, rfl, went, told⟩
      · obtain ⟨outcome, ran, -⟩ := Session.path_mapError_iff.1 failed
        exact ⟨config, reading, openingLog config ++ first, later, [], outcome, read, ran, by simp, before,
          by simp⟩
      · obtain ⟨outcome, ran, -⟩ := Session.path_mapError_iff.1 went
        have closes : ∀ step ∈ closing, Dialogue.Silent step.query :=
          told.asks (Session.asks_log (by simp [Dialogue.Silent]))
        exact ⟨config, reading, openingLog config ++ first, work, closing, outcome, read, ran, rfl, before,
          closes⟩

/-- A chip is programmed as the arguments and the file ask for it. -/
theorem locks_of_path_session {arguments : List String} {asked : Arguments} {limits : Limits}
    {before after : List Step} {rest : String} {result : Except ProgramError Unit}
    (read : Invocation.ofArguments arguments = .ok (.run asked))
    (path : Session.Path (session asked limits)
      (before ++ ⟨.write (Exchange.commandLine ("program-" ++ rest)), ()⟩ :: after) result) :
    ∃ lock, (∀ flag, IsProgramLine flag (Exchange.commandLine ("program-" ++ rest)) ↔ flag = lock) ∧
      (lock = true ↔ LockAsked arguments before) ∧ Detected before .trustCustom ∧
      (lock = true → lockAnnouncement ∈ before) := by
  have unsilent : ¬ Dialogue.Silent (.write (Exchange.commandLine ("program-" ++ rest))) :=
    fun silent => silent _ rfl
  rcases exists_of_path_session path with
    silent | ⟨config, reading, opening, work, closing, outcome, settled, worked, cut, opens, closes⟩
  · exact absurd (silent _ (List.mem_append_right _ List.mem_cons_self)) unsilent
  · obtain ⟨inner, rfl, here⟩ :=
      Lists.exists_of_not_mem_front cut.symm fun member => unsilent (opens _ member)
    obtain ⟨later, rfl⟩ :=
      Lists.exists_of_not_mem_back here fun member => unsilent (closes _ member)
    obtain ⟨rounds, tail, steps, ended⟩ := Provisioning.ended_of_path worked
    obtain ⟨flags, announced⟩ := ended.locks steps.symm
    have whole : inner <:+: reading ++ opening ++ inner := (List.suffix_append _ _).isInfix
    refine ⟨config.lockSlots, flags, ?_, announced.chip.within whole, ?_⟩
    · rw [List.append_assoc]
      exact lockSlots_of_path_configOf read settled _
    · intro lock
      exact whole.subset (announced.warned lock)

/-- A program is over at once, or it goes through a session and tells how that ended. -/
theorem program_cases (arguments : List String) (limits : Limits) :
    (∃ ending, program arguments limits = .done ending ∧
      ∀ asked, Invocation.ofArguments arguments ≠ .ok (.run asked)) ∨
    ∃ asked, Invocation.ofArguments arguments = .ok (.run asked) ∧
      program arguments limits = ((session asked limits).run.keepLog asked.level).bind fun
        | .ok () => .done .succeeded
        | .error error => .done (.failed error) := by
  unfold program
  cases Invocation.ofArguments arguments with
  | error e => exact .inl ⟨_, rfl, by simp⟩
  | ok invocation =>
      cases invocation with
      | help | version => exact .inl ⟨_, rfl, by simp⟩
      | run asked => exact .inr ⟨asked, rfl, rfl⟩

/-- What is shown of a run of the program are the steps of a session without the entries in the log that
were not asked for; or there is nothing to show. -/
theorem exists_path_of_program {σ : Type} (arguments : List String) (limits : Limits)
    (surroundings : Dialogue.Surroundings σ) (s : σ) :
    (Dialogue.transcript surroundings (program arguments limits) s = [] ∧
      ∀ asked, Invocation.ofArguments arguments ≠ .ok (.run asked)) ∨
    ∃ asked whole result, Invocation.ofArguments arguments = .ok (.run asked) ∧
      Dialogue.transcript surroundings (program arguments limits) s =
        whole.filter (Step.isShown asked.level) ∧
      Session.Path (session asked limits) whole result := by
  have path := Dialogue.path_transcript surroundings (program arguments limits) s
  rcases program_cases arguments limits with ⟨ending, ends, other⟩ | ⟨asked, read, kept⟩
  · rw [ends]
    exact .inl ⟨rfl, other⟩
  · right
    rw [kept] at path ⊢
    obtain ⟨first, result, last, steps, went, ends⟩ := Dialogue.path_bind_iff.1 path
    obtain ⟨whole, here, rfl⟩ := Dialogue.exists_path_of_keepLog went
    have nothing : last = [] := by
      cases result with
      | ok => exact (Dialogue.path_done_iff.1 ends).1
      | error => exact (Dialogue.path_done_iff.1 ends).1
    rw [nothing, List.append_nil] at steps
    exact ⟨asked, whole, result, read, steps, here⟩

/-- For every list of arguments, every device and every content of the files: a line by which a chip is to
be programmed says whether to lock a slot. It locks it if and only if this was asked for; before it the
chip was found to be a blank one, and a lock was announced. -/
theorem program_locks_as_asked {σ : Type} (arguments : List String) (limits : Limits)
    (surroundings : Dialogue.Surroundings σ) (s : σ) :
    ∃ least whole,
      Dialogue.transcript surroundings (program arguments limits) s = whole.filter (Step.isShown least) ∧
      (∀ asked, Invocation.ofArguments arguments = .ok (.run asked) →
        least = asked.level ∧ ∃ result, Session.Path (session asked limits) whole result) ∧
      ∀ before rest after,
        whole = before ++ ⟨.write (Exchange.commandLine ("program-" ++ rest)), ()⟩ :: after →
        ∃ lock, (∀ flag, IsProgramLine flag (Exchange.commandLine ("program-" ++ rest)) ↔ flag = lock) ∧
          (lock = true ↔ LockAsked arguments before) ∧ Detected before .trustCustom ∧
          (lock = true → lockAnnouncement ∈ before) := by
  rcases exists_path_of_program arguments limits surroundings s with
    ⟨none, other⟩ | ⟨asked, whole, result, read, shown, path⟩
  · exact ⟨.info, [], none, fun asked read => absurd read (other asked), by simp⟩
  · refine ⟨asked.level, whole, shown, ?_, ?_⟩
    · intro asked' read'
      rw [read] at read'
      cases read'
      exact ⟨rfl, result, path⟩
    · rintro before rest after rfl
      exact locks_of_path_session read path

end SecureElement.CommandLine
