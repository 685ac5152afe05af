import SecureElement.Proofs.Lists.Cuts
import SecureElement.Proofs.Octets.Utf8
import SecureElement.Proofs.Provisioning.Payloads

/-!
When the slots of a chip are locked.

A line that gives a certificate to the chip says whether its slot is locked, and says what the settings of
the run say. Before it the chip was found to be a blank one, and if the slot is locked there was a warning
(`Ended.locks`), whatever the device answers and whatever the files hold.
-/

namespace SecureElement.Provisioning

open Dialogue (sent)

/-! ### Lines that lock -/

/-- The starts of the commands that give a certificate to the chip: the digit 1 has its slot locked, and the
digit 0 does not. -/
def programStarts : Bool → List String
  | true => ["program-dev-cert 1 ", "program-signer-cert 1 "]
  | false => ["program-dev-cert 0 ", "program-signer-cert 0 "]

/-- A line is that of a command that gives a certificate to the chip, and says whether to lock its
slot. -/
def IsProgramLine (lock : Bool) (line : Octets) : Prop :=
  ∃ start ∈ programStarts lock, ∃ length : Nat, line = Exchange.commandLine (start ++ length.repr)

/-- A command gives a certificate to the chip, and says whether to lock its slot. -/
def Command.Programs (lock : Bool) : Command → Prop
  | .programDeviceCert flag _ | .programSignerCert flag _ => flag = lock
  | _ => False

theorem commandLine_injective {first second : String}
    (same : Exchange.commandLine first = Exchange.commandLine second) : first = second :=
  Utf8.encode_injective (List.append_cancel_right same)

theorem lockText_append_inj {first second : Bool} {rest rest' : List Char}
    (same : (lockText first).toList ++ rest = (lockText second).toList ++ rest') : first = second := by
  cases first <;> cases second
  case false.false | true.true => rfl
  all_goals simp [lockText] at same

/-- Only the commands that give a certificate to the chip are said to program it. -/
theorem Command.exists_programs_of_text {command : Command} {rest : String}
    (text : command.text = "program-" ++ rest) : ∃ lock, command.Programs lock := by
  have opening := congrArg String.toList text
  rw [String.toList_append] at opening
  cases command with
  | programDeviceCert lock length => exact ⟨lock, rfl⟩
  | programSignerCert lock length => exact ⟨lock, rfl⟩
  | _ =>
      unfold Command.text at opening
      simp [String.toList_append] at opening

/-- The digit that a command says is the one that the flag is written as. -/
theorem mem_programStarts_iff {lock : Bool} {start : String} :
    start ∈ programStarts lock ↔
      start = "program-dev-cert " ++ lockText lock ++ " " ∨
      start = "program-signer-cert " ++ lockText lock ++ " " := by
  cases lock <;> simp [programStarts, lockText]

/-- A command that gives a certificate to the chip is told by its text. -/
theorem Command.programs_of_text {command : Command} {start : String} {lock : Bool} {length : Nat}
    (known : start ∈ programStarts lock) (text : command.text = start ++ length.repr) :
    command.Programs lock := by
  have chars := congrArg String.toList text
  rw [mem_programStarts_iff] at known
  unfold Command.text at chars
  cases command with
  | programDeviceCert flag length' =>
      rcases known with rfl | rfl
      · simp only [String.toList_append, List.append_assoc] at chars
        exact lockText_append_inj (List.append_cancel_left chars)
      · simp [String.toList_append] at chars
  | programSignerCert flag length' =>
      rcases known with rfl | rfl
      · simp [String.toList_append] at chars
      · simp only [String.toList_append, List.append_assoc] at chars
        exact lockText_append_inj (List.append_cancel_left chars)
  | _ => rcases known with rfl | rfl <;> simp [String.toList_append] at chars

/-- A line that gives a certificate to the chip is the line of no other command. -/
theorem isProgramLine_iff {lock : Bool} {command : Command} :
    IsProgramLine lock (Exchange.commandLine command.text) ↔ command.Programs lock := by
  constructor
  · rintro ⟨start, known, length, line⟩
    exact Command.programs_of_text known (commandLine_injective line)
  · intro programs
    cases command with
    | programDeviceCert flag length =>
        cases programs
        exact ⟨_, mem_programStarts_iff.2 (.inl rfl), length, rfl⟩
    | programSignerCert flag length =>
        cases programs
        exact ⟨_, mem_programStarts_iff.2 (.inr rfl), length, rfl⟩
    | _ => cases programs

theorem Command.Programs.unique {command : Command} {first second : Bool} (here : command.Programs first)
    (there : command.Programs second) : first = second := by
  cases command with
  | programDeviceCert | programSignerCert => exact here.symm.trans there
  | _ => cases here

/-- A command line ends with a line feed. -/
theorem not_bare_commandLine (command : String) : ¬ Octets.Bare (Exchange.commandLine command) := by
  intro bare
  have last : (Exchange.commandLine command).getLast? = some 0x0A := by
    simp [Exchange.commandLine]
  have blank := bare.last 0x0A last
  cases blank

/-! ### What comes before such a line -/

/-- In these steps the device was asked for the kind of its chip, and told it. -/
def Detected (steps : List Dialogue.Step) (chip : ChipKind) : Prop :=
  ∃ sdaPin sclPin settings reads during body, during <:+: steps ∧
    Session.Path (Exchange.exec settings reads (Command.init sdaPin sclPin).text none) during
      (.ok ⟨true, body⟩) ∧
    ChipKind.ofReport? body = some chip

theorem Detected.within {steps whole : List Dialogue.Step} {chip : ChipKind} (detected : Detected steps chip)
    (inside : steps <:+: whole) : Detected whole chip := by
  obtain ⟨sdaPin, sclPin, settings, reads, during, body, here, exchanged, kind⟩ := detected
  exact ⟨sdaPin, sclPin, settings, reads, during, body, here.trans inside, exchanged, kind⟩

/-- The entry in the log by which a run announces that slots are going to be locked. -/
def lockAnnouncement : Dialogue.Step :=
  logged .warning "certificate slots will be permanently locked"

/-- What has to be so before a certificate is given to the chip. -/
structure Announced (config : RunConfig) (steps : List Dialogue.Step) : Prop where
  chip : Detected steps .trustCustom
  warned : config.lockSlots = true → lockAnnouncement ∈ steps

theorem Announced.mono {config : RunConfig} {steps more : List Dialogue.Step}
    (announced : Announced config steps) (start : steps <+: more) : Announced config more := by
  constructor
  · exact announced.chip.within start.isInfix
  · intro lock
    exact start.subset (announced.warned lock)

variable {config : RunConfig} {reads : Nat} {rounds : List Round}

theorem Reached.detected {chip : ChipKind} (reached : Reached config reads rounds (.detected chip)) :
    Detected (rounds.flatMap Round.steps) chip := by
  obtain ⟨round, body, rfl, -, went, kind⟩ := reached.of_detected
  have exchanged := went.exchanged
  rw [went.command, went.payload, Round.body?_eq_some.1 went.told] at exchanged
  refine ⟨_, _, _, _, round.during, body, ?_, exchanged, kind⟩
  rw [List.flatMap_singleton]
  exact (List.suffix_append _ _).isInfix

/-- The chip is a blank one, and a lock was announced, before the chip is told of a certificate. -/
theorem Reached.announced {serial path : String} {signer : Signer} {deviceText : Octets}
    (reached : Reached config reads rounds (.deviceDefined serial signer deviceText path)) :
    Announced config (rounds.flatMap Round.steps) := by
  obtain ⟨rest, define, request, issuing, definition, body, rfl, reached, -, -, -, went⟩ :=
    reached.of_deviceDefined
  constructor
  case chip =>
    obtain ⟨rest, ask, report, rfl, reached, -⟩ := reached.of_requested
    obtain ⟨rest, generate, loading, body, rfl, reached, -⟩ := reached.of_keyed
    obtain ⟨rest, inform, report, rfl, reached, -⟩ := reached.of_identified
    refine reached.detected.within ?_
    simp only [List.flatMap_append, List.append_assoc]
    exact (List.prefix_append _ _).isInfix
  case warned =>
    intro lock
    have warning : lockAnnouncement ∈ lockWarning config := by
      rw [lockWarning, if_pos lock]
      exact List.mem_singleton_self _
    have before : lockAnnouncement ∈ define.before := by
      rw [went.before]
      simp [warning]
    rw [List.flatMap_append, List.flatMap_singleton, Round.steps]
    exact List.mem_append_right _ (List.mem_append_left _ before)

/-- A command that gives a certificate to the chip says what the settings say, and was announced. -/
theorem Due.locks {earlier : List Round} {round : Round} {lock : Bool}
    (due : Due config reads earlier round) (programs : round.command.Programs lock) :
    lock = config.lockSlots ∧ Announced config (earlier.flatMap Round.steps) := by
  rcases due.cases with ⟨-, announced⟩ | ⟨slot, definition, command, -⟩ |
    ⟨serial, signer, deviceText, path, reached, -, command, -⟩ |
    ⟨serial, signer, path, reached, command, -⟩
  · cases said : round.command with
    | programDeviceCert | programSignerCert =>
        rw [said] at announced
        cases announced
    | _ =>
        rw [said] at programs
        cases programs
  · rw [command] at programs
    cases programs
  · rw [command] at programs
    exact ⟨programs.symm, reached.announced⟩
  · rw [command] at programs
    obtain ⟨rest, define, definition, body, rfl, reached, -⟩ := reached.of_signerDefined
    obtain ⟨rest, program, deviceText, body, rfl, reached, -⟩ := reached.of_deviceProgrammed
    refine ⟨programs.symm, reached.announced.mono ?_⟩
    simp only [List.flatMap_append, List.append_assoc]
    exact List.prefix_append _ _

/-! ### Whole runs -/

/-- What a run sends is a line or a payload of one of its rounds, after those before it. -/
theorem Ended.exists_round_of_write {tail before after : List Dialogue.Step} {line : Octets}
    {result : Except ProvisioningFailure Outcome} (ended : Ended config reads rounds tail result)
    (cut : rounds.flatMap Round.steps ++ tail = before ++ ⟨.write line, ()⟩ :: after) :
    ∃ earlier round, Due config reads earlier round ∧ earlier.flatMap Round.steps <+: before ∧
      line ∈ round.sent := by
  have sentBy : ∀ {steps : List Dialogue.Step}, (⟨.write line, ()⟩ : Dialogue.Step) ∈ steps →
      line ∈ sent steps := by
    intro steps member
    exact List.mem_filterMap.2 ⟨_, member, rfl⟩
  rcases Lists.exists_of_flatMap_append cut with ⟨earlier, round, later, whole, start, member⟩ | member
  · have due := ended.due whole
    refine ⟨earlier, round, due, start, ?_⟩
    obtain ⟨n, stage, learn, -, sends⟩ := due
    rw [← sends.sent_steps]
    exact sentBy member
  · have inTail := sentBy member
    rw [ended.sent_tail] at inTail
    cases inTail

/-- A line by which a chip is to be programmed gives it a certificate and says what the settings say of
the slot. It comes after the chip was found to be blank and after the lock, if there is one, was
announced. -/
theorem Ended.locks {tail before after : List Dialogue.Step} {rest : String}
    {result : Except ProvisioningFailure Outcome} (ended : Ended config reads rounds tail result)
    (cut : rounds.flatMap Round.steps ++ tail =
      before ++ ⟨.write (Exchange.commandLine ("program-" ++ rest)), ()⟩ :: after) :
    (∀ flag, IsProgramLine flag (Exchange.commandLine ("program-" ++ rest)) ↔ flag = config.lockSlots) ∧
      Announced config before := by
  obtain ⟨earlier, round, due, start, sends⟩ := ended.exists_round_of_write cut
  rcases List.mem_cons.1 sends with line | payload
  · have text := commandLine_injective line
    obtain ⟨lock, programs⟩ := Command.exists_programs_of_text text.symm
    obtain ⟨rfl, announced⟩ := due.locks programs
    rw [line]
    refine ⟨fun flag => ⟨fun said => ?_, fun same => ?_⟩, announced.mono start⟩
    · exact (isProgramLine_iff.1 said).unique programs
    · exact isProgramLine_iff.2 (same ▸ programs)
  · exact absurd (due.framed.bare _ (by simpa using payload)) (not_bare_commandLine _)

end SecureElement.Provisioning
