import SecureElement.Proofs.Link.Exchanges
import SecureElement.Proofs.Provisioning.History
import SecureElement.Proofs.Provisioning.Preparations

/-!
The order of commands in a run.

What a run sends is settled by the kind of the chip: its commands are the first ones of a fixed list
(`commandsFor`), whatever the device, the files and the clock answer. A command is sent only after all
commands before it succeeded, with responses that hold what they were asked for, and after what lies
between them was done (`Gate`). The device's certificate is reported as provisioned exactly if all
eight commands of a blank chip succeeded.
-/

namespace SecureElement.Provisioning

open Dialogue (sent)

/-! ### The fixed lists -/

/-- A command without the length that it announces. -/
def Command.withoutLength : Command → Command
  | .provideDefinition slot _ => .provideDefinition slot 0
  | .programDeviceCert lock _ => .programDeviceCert lock 0
  | .programSignerCert lock _ => .programSignerCert lock 0
  | command => command

/-- The commands of a run, without lengths, for what the response to the first says of the chip. -/
def commandsFor (config : RunConfig) : Option ChipKind → List Command
  | none => [.init config.sdaPin config.sclPin]
  | some .trustCustom =>
      [.init config.sdaPin config.sclPin, .printChipInfo, .generateKeys keySlot, .generateRequest,
        .provideDefinition deviceSlot 0, .programDeviceCert config.lockSlots 0,
        .provideDefinition signerSlot 0, .programSignerCert config.lockSlots 0]
  | some .trustAndGo | some .trustFlex =>
      [.init config.sdaPin config.sclPin, .printChipInfo, .getRootCert, .getSignerCert,
        .getDeviceCert]

theorem commandsFor_other {config : RunConfig} {chip : ChipKind} (other : chip ≠ .trustCustom) :
    commandsFor config (some chip) =
      [.init config.sdaPin config.sclPin, .printChipInfo, .getRootCert, .getSignerCert,
        .getDeviceCert] := by
  cases chip with
  | trustCustom => exact absurd rfl other
  | trustAndGo | trustFlex => rfl

theorem take_one_commandsFor (config : RunConfig) (chip : Option ChipKind) :
    (commandsFor config chip).take 1 = [.init config.sdaPin config.sclPin] := by
  rcases chip with _ | _ | _ | _ <;> rfl

/-- Keys are generated by the third command, if at all. -/
theorem generateKeys_place {config : RunConfig} {chip : Option ChipKind} {place slot : Nat}
    (listed : (commandsFor config chip)[place]? = some (.generateKeys slot)) : place = 2 := by
  rcases chip with _ | _ | _ | _ <;> simp only [commandsFor] at listed <;> grind

/-- The body of a response to a command holds what the run needs of it. -/
def Command.Answered (body : String) : Command → Prop
  | .init _ _ => ∃ chip, ChipKind.ofReport? body = some chip
  | .printChipInfo => ∃ serial, Report.serialNumber body = some serial
  | .generateRequest => ∃ request, Report.requestBlock body = some request
  | .getRootCert => ∃ root, Report.certificate Command.getRootCert.text body = .ok root
  | .getSignerCert => ∃ signer, Report.certificate Command.getSignerCert.text body = .ok signer
  | .getDeviceCert => ∃ device, Report.certificate Command.getDeviceCert.text body = .ok device
  | _ => True

/-- The kind of chip that the response to the first command tells of. -/
def chipOf (rounds : List Round) : Option ChipKind :=
  (rounds.head?.bind Round.body?).bind ChipKind.ofReport?

/-- What a round sends to the device: the line of its command and its payload. -/
def Round.sent (round : Round) : List Octets :=
  Exchange.commandLine round.command.text :: round.payload.toList

/-- What comes before a round. -/
structure Gate (config : RunConfig) (reads : Nat) (earlier : List Round) (round : Round) : Prop where
  /-- Every earlier response tells success and holds what its command asked for. -/
  answered : ∀ e ∈ earlier, ∃ body, e.body? = some body ∧ e.command.Answered body
  /-- The earlier rounds lead to a stage at which this command is due, once the steps between them
  have succeeded. -/
  due : Due config reads earlier round
  /-- The device was waited for before the first command. -/
  awaited : earlier = [] →
    config.noWait = true ∧ round.before = [] ∨
    Session.Path (Exchange.waitForReady config.exchange reads) round.before (.ok true)
  /-- What the authority signs with was loaded before the key was generated. -/
  loaded : ∀ slot, round.command = .generateKeys slot →
    ∃ loading signer, loading <:+: round.before ∧ LoadedBy config loading signer

/-! ### What a round adds -/

/-- The kind of the chip, once it is known. -/
def Stage.chip? : {n : Nat} → Stage n → Option ChipKind
  | _, .start => none
  | _, .detected chip | _, .identified chip _ => some chip
  | _, .rootRead chip .. | _, .signerRead chip .. | _, .deviceRead chip .. => some chip
  | _, _ => some .trustCustom

/-- Only a chip that came with certificates is recorded. -/
def Stage.Fits : {n : Nat} → Stage n → Prop
  | _, .rootRead chip .. | _, .signerRead chip .. | _, .deviceRead chip .. => chip ≠ .trustCustom
  | _, _ => True

variable {config : RunConfig} {reads : Nat}

/-- What a round does to a stage: its command is the next one of the list, and a response that takes
the run on holds what the command asked for. -/
theorem Stage.Sends.next {n : Nat} {stage : Stage (n + 1)} {round : Round}
    {learn : String → Except ProvisioningFailure (Stage n)}
    (sends : stage.Sends config reads round learn) (fits : stage.Fits) :
    (commandsFor config stage.chip?)[7 - n]? = some round.command.withoutLength ∧
    ∀ body after, learn body = .ok after →
      round.command.Answered body ∧ after.Fits ∧
        after.chip? = stage.chip?.or (ChipKind.ofReport? body) := by
  obtain ⟨before, command, payload, during, outcome⟩ := round
  have prepared := Stage.prepared_of_path sends.prepared
  cases prepared with
  | start waited =>
      refine ⟨rfl, fun body after learnt => ?_⟩
      obtain ⟨chip, kind, rfl⟩ := found_eq_ok.1 learnt
      exact ⟨⟨chip, kind⟩, trivial, kind.symm⟩
  | detected chip =>
      refine ⟨by cases chip <;> rfl, fun body after learnt => ?_⟩
      obtain ⟨serial, report, rfl⟩ := found_eq_ok.1 learnt
      exact ⟨⟨serial, report⟩, trivial, rfl⟩
  | keyed serial signer =>
      refine ⟨rfl, fun body after learnt => ?_⟩
      obtain ⟨request, report, rfl⟩ := found_eq_ok.1 learnt
      exact ⟨⟨request, report⟩, trivial, rfl⟩
  | blank | requested | deviceDefined | deviceProgrammed | signerDefined =>
      refine ⟨rfl, fun body after learnt => ?_⟩
      cases learnt
      exact ⟨trivial, trivial, rfl⟩
  | provisioned serial goesOn other =>
      refine ⟨by rw [Stage.chip?, commandsFor_other other]; rfl, fun body after learnt => ?_⟩
      obtain ⟨root, certificate, rfl⟩ := foundCert_eq_ok.1 learnt
      exact ⟨⟨root, certificate⟩, other, rfl⟩
  | rootRead chip serial root =>
      refine ⟨by rw [Stage.chip?, commandsFor_other fits]; rfl, fun body after learnt => ?_⟩
      obtain ⟨signer, certificate, rfl⟩ := foundCert_eq_ok.1 learnt
      exact ⟨⟨signer, certificate⟩, fits, rfl⟩
  | signerRead chip serial root signer =>
      refine ⟨by rw [Stage.chip?, commandsFor_other fits]; rfl, fun body after learnt => ?_⟩
      obtain ⟨device, certificate, rfl⟩ := foundCert_eq_ok.1 learnt
      exact ⟨⟨device, certificate⟩, fits, rfl⟩

/-! ### What the rounds before a stage were -/

/-- What is known of the rounds that lead to a stage. -/
structure Follows (config : RunConfig) (rounds : List Round) {n : Nat} (stage : Stage n) : Prop where
  length : rounds.length + n = 8
  chip : chipOf rounds = stage.chip?
  fits : stage.Fits
  commands : rounds.map (·.command.withoutLength) =
    (commandsFor config stage.chip?).take rounds.length
  answered : ∀ e ∈ rounds, ∃ body, e.body? = some body ∧ e.command.Answered body

theorem chipOf_append {rounds : List Round} (some : rounds ≠ []) (later : List Round) :
    chipOf (rounds ++ later) = chipOf rounds := by
  cases rounds with
  | nil => exact absurd rfl some
  | cons round rest => rfl

/-- With a further round the commands are still the first ones of the list. -/
theorem Follows.commands_append {rounds : List Round} {n : Nat} {stage : Stage (n + 1)}
    {round : Round} {learn : String → Except ProvisioningFailure (Stage n)}
    (follows : Follows config rounds stage) (sends : stage.Sends config reads round learn) :
    (rounds ++ [round]).map (·.command.withoutLength) =
      (commandsFor config stage.chip?).take (rounds ++ [round]).length := by
  have next := (sends.next follows.fits).1
  have place : 7 - n = rounds.length := by have := follows.length; omega
  rw [place] at next
  rw [List.map_append, follows.commands, List.length_append, List.length_singleton,
    List.take_add_one, next]
  rfl

theorem Reached.follows {rounds : List Round} {n : Nat} {stage : Stage n}
    (reached : Reached config reads rounds stage) : Follows config rounds stage := by
  induction reached with
  | start => exact ⟨rfl, rfl, trivial, rfl, by simp⟩
  | @next rounds n stage round learn body after reached sends told learnt ih =>
      obtain ⟨answered, fits, chip⟩ := (sends.next ih.fits).2 body after learnt
      have commands := ih.commands_append sends
      have every : ∀ e ∈ rounds ++ [round], ∃ body, e.body? = some body ∧ e.command.Answered body := by
        intro e member
        rcases List.mem_append.1 member with earlier | last
        · exact ih.answered e earlier
        · cases List.mem_singleton.1 last
          exact ⟨body, told, answered⟩
      have length : (rounds ++ [round]).length + n = 8 := by
        have := ih.length
        simp only [List.length_append, List.length_singleton]
        omega
      -- Only the first round tells of the chip.
      by_cases none : rounds = []
      · subst none
        refine ⟨length, ?_, fits, ?_, every⟩
        · rw [chip, ← ih.chip]
          simp [chipOf, told]
        · rw [commands]
          simp only [List.nil_append, List.length_singleton, take_one_commandsFor]
      · have same : after.chip? = stage.chip? := by
          rw [chip]
          cases stage with
          | start => exact absurd (List.eq_nil_of_length_eq_zero (by have := ih.length; omega)) none
          | _ => rfl
        refine ⟨length, ?_, fits, ?_, every⟩
        · rw [chipOf_append none, ih.chip, same]
        · rw [commands, same]

/-! ### What comes before a round -/

theorem awaited_of_path {steps : List Dialogue.Step}
    (path : Session.Path (awaitDevice config reads) steps (.ok ())) :
    config.noWait = true ∧ steps = [] ∨
      Session.Path (Exchange.waitForReady config.exchange reads) steps (.ok true) := by
  unfold awaitDevice at path
  split at path
  · next noWait => exact .inl ⟨noWait, (Session.path_pure_iff.1 path).1⟩
  · rcases Session.path_bind_iff.1 path with
      ⟨e, -, ⟨⟩⟩ | ⟨first, ready, rest, rfl, waiting, decided⟩
    obtain ⟨inner, polled, mapped⟩ := Session.path_mapError_iff.1 waiting
    cases ready with
    | false => cases (Session.path_throw_iff.1 decided).2
    | true =>
        obtain ⟨rfl, -⟩ := Session.path_pure_iff.1 decided
        cases inner with
        | error e => cases mapped
        | ok ready =>
            cases mapped
            exact .inr (by simpa using polled)

theorem Due.gate {earlier : List Round} {round : Round} (due : Due config reads earlier round) :
    Gate config reads earlier round := by
  have whole := due
  obtain ⟨before, command, payload, during, outcome⟩ := round
  obtain ⟨n, stage, learn, reached, sends⟩ := due
  have follows := reached.follows
  have listed := (sends.next follows.fits).1
  have prepared := Stage.prepared_of_path sends.prepared
  refine ⟨follows.answered, whole, ?_, ?_⟩
  · intro first
    subst first
    have start : n = 7 := by have := follows.length; simp at this; omega
    subst start
    cases stage with
    | start =>
        cases prepared with
        | start waited => exact awaited_of_path waited
  · intro slot keys
    rw [keys] at listed prepared
    have third : n = 5 := by
      have place := generateKeys_place listed
      omega
    subst third
    cases stage with
    | identified chip serial =>
        cases prepared with
        | @blank _ loading signer goesOn loaded =>
            refine ⟨loading, signer, ?_, loaded⟩
            exact (List.prefix_append loading _).isInfix.trans (List.suffix_cons _ _).isInfix

/-! ### What a run sends -/

theorem Stage.Sends.sent_steps {n : Nat} {stage : Stage (n + 1)} {round : Round}
    {learn : String → Except ProvisioningFailure (Stage n)}
    (sends : stage.Sends config reads round learn) : sent round.steps = round.sent := by
  rw [Round.steps, Dialogue.sent_append,
    sends.prepared.sent_eq_nil (silent_prepare config reads stage), List.nil_append]
  exact Exchange.sent_eq sends.exchanged

theorem sent_rounds {rounds : List Round} (each : ∀ e ∈ rounds, sent e.steps = e.sent) :
    sent (rounds.flatMap Round.steps) = rounds.flatMap Round.sent := by
  induction rounds with
  | nil => rfl
  | cons round later ih =>
      rw [List.flatMap_cons, Dialogue.sent_append, each round (by simp),
        ih fun e member => each e (by simp [member]), List.flatMap_cons]

/-- Nothing is sent after the last round. -/
theorem Ended.sent_tail {rounds : List Round} {tail : List Dialogue.Step}
    {result : Except ProvisioningFailure Outcome} (ended : Ended config reads rounds tail result) :
    sent tail = [] := by
  cases ended with
  | finished reached path => exact path.sent_eq_nil (silent_prepare config reads _)
  | stopped reached path => exact path.sent_eq_nil (silent_prepare config reads _)
  | broken | refused | unlearnt => rfl

/-- A run sends what its rounds send, and nothing after them. -/
theorem Ended.sent_eq {rounds : List Round} {tail : List Dialogue.Step}
    {result : Except ProvisioningFailure Outcome} (ended : Ended config reads rounds tail result) :
    sent (rounds.flatMap Round.steps ++ tail) = rounds.flatMap Round.sent := by
  have each : ∀ e ∈ rounds, sent e.steps = e.sent := by
    intro e member
    obtain ⟨earlier, later, cut⟩ := List.append_of_mem member
    obtain ⟨n, stage, learn, -, sends⟩ := ended.due cut
    exact sends.sent_steps
  rw [Dialogue.sent_append, sent_rounds each, ended.sent_tail, List.append_nil]

/-- The commands of a run are the first ones of the list for its chip. -/
theorem Ended.commands_listed {rounds : List Round} {tail : List Dialogue.Step}
    {result : Except ProvisioningFailure Outcome} (ended : Ended config reads rounds tail result) :
    rounds.map (·.command.withoutLength) <+: commandsFor config (chipOf rounds) := by
  have beyond : ∀ {rounds n} {stage : Stage (n + 1)} {round learn},
      Reached config reads rounds stage → stage.Sends config reads round learn →
      (rounds ++ [round]).map (·.command.withoutLength) <+:
        commandsFor config (chipOf (rounds ++ [round])) := by
    intro rounds n stage round learn reached sends
    have follows := reached.follows
    rw [follows.commands_append sends]
    by_cases none : rounds = []
    · subst none
      rw [List.nil_append, List.length_singleton, take_one_commandsFor,
        ← take_one_commandsFor config (chipOf [round])]
      exact List.take_prefix _ _
    · rw [chipOf_append none, follows.chip]
      exact List.take_prefix _ _
  cases ended with
  | finished reached path | stopped reached path =>
      rw [reached.follows.commands, reached.follows.chip]
      exact List.take_prefix _ _
  | broken reached sends | refused reached sends | unlearnt reached sends =>
      exact beyond reached sends

/-- Only the last stage of a blank chip ends with a provisioned one. -/
theorem last_of_finish_provisioned {n : Nat} {stage : Stage n} {steps : List Dialogue.Step}
    {serial path : String}
    (prepared : Session.Path (stage.prepare config reads) steps
      (.ok (.finish (.provisioned serial path)))) : n = 0 := by
  cases Stage.prepared_of_path prepared with
  | signerProgrammed => rfl

/-- Nothing is learnt from the response to the last command. -/
theorem Stage.Sends.learns_last {stage : Stage 1} {round : Round}
    {learn : String → Except ProvisioningFailure (Stage 0)}
    (sends : stage.Sends config reads round learn) (body : String) : ∃ after, learn body = .ok after := by
  obtain ⟨before, command, payload, during, outcome⟩ := round
  cases Stage.prepared_of_path sends.prepared with
  | signerDefined serial signer path => exact ⟨_, rfl⟩

/-- If only the chip is asked for, nothing follows the serial number. -/
theorem Ended.length_le_two {rounds : List Round} {tail : List Dialogue.Step}
    {result : Except ProvisioningFailure Outcome} (ended : Ended config reads rounds tail result)
    (print : config.printChipKind = true) : rounds.length ≤ 2 := by
  match rounds, ended with
  | [], _ | [_], _ | [_, _], _ => simp
  | first :: second :: third :: later, ended =>
      have due : Due config reads [first, second] third := ended.due rfl
      obtain ⟨n, stage, learn, reached, sends⟩ := due
      have place : n = 5 := by have := reached.follows.length; simp at this; omega
      subst place
      obtain ⟨before, command, payload, during, outcome⟩ := third
      cases stage with
      | identified chip serial =>
          cases Stage.prepared_of_path sends.prepared with
          | blank serial goesOn loaded => rw [print] at goesOn; cases goesOn
          | provisioned serial goesOn other => rw [print] at goesOn; cases goesOn

/-- After a wait that failed nothing is sent. -/
theorem Ended.eq_nil_of_wait_failed {rounds : List Round} {tail waiting : List Dialogue.Step}
    {result : Except ProvisioningFailure Outcome} {failure : ProvisioningFailure}
    (ended : Ended config reads rounds tail result)
    (start : waiting <+: rounds.flatMap Round.steps ++ tail)
    (failed : Session.Path (awaitDevice config reads) waiting (.error failure)) : rounds = [] := by
  match rounds, ended with
  | [], _ => rfl
  | first :: later, ended =>
      have due : Due config reads [] first := ended.due rfl
      obtain ⟨n, stage, learn, reached, sends⟩ := due
      have place : n = 7 := by have := reached.follows.length; simp at this; omega
      subst place
      cases stage with
      | start =>
          have awaited : Session.Path (awaitDevice config reads) first.before (.ok ()) := by
            obtain ⟨before, command, payload, during, outcome⟩ := first
            cases Stage.prepared_of_path sends.prepared with
            | start waited => exact waited
          have before : first.before <+: (first :: later).flatMap Round.steps ++ tail := by
            rw [List.flatMap_cons, Round.steps, List.append_assoc, List.append_assoc]
            exact List.prefix_append _ _
          rcases List.prefix_or_prefix_of_prefix start before with less | less
          · cases (Dialogue.Path.eq_of_prefix failed awaited less).2
          · cases (Dialogue.Path.eq_of_prefix awaited failed less).2

/-- A device's certificate is reported as provisioned exactly if all commands for a blank chip were
sent and succeeded. -/
theorem Ended.provisioned_iff {rounds : List Round} {tail : List Dialogue.Step}
    {result : Except ProvisioningFailure Outcome} (ended : Ended config reads rounds tail result) :
    (∃ serial path, result = .ok (.provisioned serial path)) ↔
      rounds.map (·.command.withoutLength) = commandsFor config (some .trustCustom) ∧
        ∀ e ∈ rounds, ∃ body, e.body? = some body := by
  constructor
  · rintro ⟨serial, path, rfl⟩
    cases ended with
    | @finished _ n stage _ _ reached prepared =>
        refine ⟨?_, fun e member => ?_⟩
        · have last : n = 0 := last_of_finish_provisioned prepared
          subst last
          have follows := reached.follows
          rw [follows.commands, List.take_of_length_le]
          · cases stage; rfl
          · have := follows.length
            rcases stage.chip? with _ | _ | _ | _ <;> simp [commandsFor] <;> omega
        · obtain ⟨body, told, -⟩ := reached.follows.answered e member
          exact ⟨body, told⟩
  · rintro ⟨commands, succeeded⟩
    have eight : rounds.length = 8 := by
      simpa [commandsFor] using congrArg List.length commands
    rcases ended.cases_of_succeeded succeeded with
      ⟨n, stage, outcome, reached, path, rfl⟩ | ⟨n, stage, failure, reached, path, rfl⟩ |
      ⟨n, stage, earlier, round, learn, body, failure, rfl, reached, sends, told, learnt⟩
    · have last : n = 0 := by have := reached.follows.length; omega
      subst last
      cases Stage.prepared_of_path path with
      | signerProgrammed serial certPath => exact ⟨serial, certPath, rfl⟩
    · have last : n = 0 := by have := reached.follows.length; omega
      subst last
      cases stage with
      | signerProgrammed serial certPath => cases (Session.path_pure_iff.1 path).2
    · have last : n = 0 := by
        have := reached.follows.length
        simp only [List.length_append, List.length_singleton] at eight
        omega
      subst last
      obtain ⟨after, learnt'⟩ := sends.learns_last body
      rw [learnt] at learnt'
      cases learnt'

/-- For every device, file system and clock: what a run sends are the lines and payloads of its
rounds; their commands are the first ones of the list for the chip that the first response tells of;
each round comes after its gate; nothing is sent once the wait for the device has failed, or after the
serial number if only the chip is asked for; and the outcome is that the chip was provisioned exactly
if all eight commands for a blank chip succeeded. -/
theorem run_commands_in_order {σ : Type} (config : RunConfig) (reads : Nat)
    (surroundings : Dialogue.Surroundings σ) (s : σ) :
    ∃ rounds tail,
      Dialogue.transcript surroundings (run config reads).run s =
        rounds.flatMap Round.steps ++ tail ∧
      sent (Dialogue.transcript surroundings (run config reads).run s) =
        rounds.flatMap Round.sent ∧
      rounds.map (·.command.withoutLength) <+: commandsFor config (chipOf rounds) ∧
      (∀ earlier round later, rounds = earlier ++ round :: later →
        Gate config reads earlier round) ∧
      (∀ waiting failure,
        waiting <+: Dialogue.transcript surroundings (run config reads).run s →
        Session.Path (awaitDevice config reads) waiting (.error failure) → rounds = []) ∧
      (config.printChipKind = true → rounds.length ≤ 2) ∧
      ((∃ serial path, (Dialogue.run surroundings (run config reads).run s).1 =
          .ok (.provisioned serial path)) ↔
        rounds.map (·.command.withoutLength) = commandsFor config (some .trustCustom) ∧
          ∀ e ∈ rounds, ∃ body, e.body? = some body) := by
  have path : Session.Path (run config reads) _ _ :=
    Dialogue.path_transcript surroundings (run config reads).run s
  obtain ⟨rounds, tail, steps, ended⟩ := ended_of_path path
  refine ⟨rounds, tail, steps, ?_, ended.commands_listed, ?_, ?_, ended.length_le_two,
    ended.provisioned_iff⟩
  · rw [steps]
    exact ended.sent_eq
  · intro earlier round later cut
    exact (ended.due cut).gate
  · intro waiting failure start failed
    rw [steps] at start
    exact ended.eq_nil_of_wait_failed start failed

end SecureElement.Provisioning
