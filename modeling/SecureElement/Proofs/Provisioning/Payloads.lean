import SecureElement.Proofs.Authority.Texts
import SecureElement.Proofs.Definition.Wire
import SecureElement.Proofs.Provisioning.CommandOrder
import SecureElement.Proofs.Provisioning.Origins

/-!
What is sent with a command.

A payload is announced by the last number of its command line, is not empty and has no white space
around it (`Round.Framed`). A certificate is given to the chip right after its definition. The
device's certificate is described by that definition and is what was saved; so is the signer's, which
is its file without the white space around it, unless that file is indented (`run_payloads`).
-/

namespace SecureElement.Provisioning

open Authority
open Dialogue (sent)

/-! ### Files -/

/-- What a step writes to a file, if it succeeds. -/
def written? (path : String) : Dialogue.Step → Option Octets
  | ⟨.writeFile other content, true⟩ => if other = path then some content else none
  | _ => none

/-- The content of a file after these steps, if they wrote it. -/
def stored (path : String) (steps : List Dialogue.Step) : Option Octets :=
  (steps.filterMap (written? path)).getLast?

theorem stored_append (path : String) (first second : List Dialogue.Step) :
    stored path (first ++ second) = (stored path second).or (stored path first) := by
  rw [stored, List.filterMap_append, List.getLast?_append]
  rfl

/-- The questions other than to write a file. -/
def KeepsFiles (q : Query) : Prop := ∀ path content, q ≠ .writeFile path content

theorem stored_eq_none {path : String} {steps : List Dialogue.Step}
    (keeps : ∀ step ∈ steps, KeepsFiles step.query) : stored path steps = none := by
  have unwritten : steps.filterMap (written? path) = [] := by
    refine List.filterMap_eq_nil_iff.2 fun step member => ?_
    have other := keeps step member
    obtain ⟨q, answer⟩ := step
    cases q with
    | writeFile other' content => exact absurd rfl (other _ content)
    | _ => rfl
  rw [stored, unwritten]
  rfl

/-- No file is written in an exchange. -/
theorem keepsFiles_exec (settings : ExchangeSettings) (reads : Nat) (command : String)
    (payload : Option Octets) :
    Session.Asks KeepsFiles (Exchange.exec settings reads command payload) := by
  apply Exchange.asks_exec <;> simp [KeepsFiles]

/-- An issued certificate is what was saved. -/
theorem stored_of_issuedBy {config : RunConfig} {steps : List Dialogue.Step} {signer : Signer}
    {serial request : String} {deviceText : Octets}
    (issued : IssuedBy config steps signer serial request deviceText) :
    stored (joinPath config.outputDir deviceCertName) steps =
      some (Utf8.encode (Text.trim (Octets.toAscii deviceText))) := by
  obtain ⟨now, -, rfl⟩ := issued
  have saved : written? (joinPath config.outputDir deviceCertName)
      ⟨.writeFile (joinPath config.outputDir deviceCertName)
        (Utf8.encode (Text.trim (Octets.toAscii deviceText))), true⟩ =
      some (Utf8.encode (Text.trim (Octets.toAscii deviceText))) := if_pos rfl
  simp only [stored, List.filterMap_cons, saved]
  rfl

theorem stored_lockWarning (path : String) (config : RunConfig) :
    stored path (lockWarning config) = none := by
  unfold lockWarning
  split <;> rfl

/-! ### Commands with payloads -/

/-- The length that a command announces, if a payload follows it. -/
def Command.announced? : Command → Option Nat
  | .provideDefinition _ length | .programDeviceCert _ length | .programSignerCert _ length =>
      some length
  | _ => none

/-- The announced length ends the command line. -/
theorem Command.exists_text_start {command : Command} {length : Nat}
    (announced : command.announced? = some length) :
    ∃ start, command.text = start ++ " " ++ length.repr := by
  cases command with
  | provideDefinition slot length' | programDeviceCert lock length' | programSignerCert lock length' =>
      cases announced
      exact ⟨_, rfl⟩
  | _ => cases announced

/-- A payload follows exactly the commands that announce one. It has the announced length, which ends
the command line, is not empty and has no white space around it. -/
structure Round.Framed (round : Round) : Prop where
  announced : round.command.announced? = round.payload.map List.length
  text : ∀ payload ∈ round.payload, ∃ start,
    round.command.text = start ++ " " ++ payload.length.repr
  nonempty : ∀ payload ∈ round.payload, payload ≠ []
  bare : ∀ payload ∈ round.payload, Octets.Bare payload

theorem Round.framed_of_none {round : Round} (payload : round.payload = none)
    (announced : round.command.announced? = none) : round.Framed := by
  refine ⟨?_, ?_, ?_, ?_⟩
  · rw [announced, payload]
    rfl
  all_goals
    intro octets member
    rw [payload] at member
    cases member

theorem Round.framed_of_some {round : Round} {octets : Octets} (payload : round.payload = some octets)
    (announced : round.command.announced? = some octets.length) (nonempty : octets ≠ [])
    (bare : Octets.Bare octets) : round.Framed := by
  refine ⟨?_, ?_, ?_, ?_⟩
  · rw [announced, payload]
    rfl
  all_goals
    intro other member
    rw [payload] at member
    cases member
  · exact Command.exists_text_start announced
  · exact nonempty
  · exact bare

/-! ### Certificates and their definitions -/

/-- A text holds a certificate with this definition. -/
def Describes (text : Octets) (kind : CertKind) (definition : CertDefinition) : Prop :=
  ∃ content, decodePem text certificateLabel = .ok content ∧
    CertDefinition.ofCertificate content kind = .ok definition

theorem ofText_eq_ok_iff {text : Octets} {kind : CertKind} {definition : CertDefinition} :
    CertDefinition.ofText text kind = .ok definition ↔ Describes text kind definition :=
  bind_eq_ok_iff

/-- Without the white space around it a text is described alike exactly if it is not indented. -/
theorem Describes.trimAscii_iff {text : Octets} {kind : CertKind} {definition : CertDefinition}
    (describes : Describes text kind definition) :
    Describes (Octets.trimAscii text) kind definition ↔ ¬ Pem.Indented text := by
  obtain ⟨content, found, described⟩ := describes
  constructor
  · rintro ⟨content', trimmed, -⟩ indented
    exact decodePem_trimAscii_of_indented found indented trimmed
  · intro unindented
    exact ⟨content, decodePem_trimAscii found unindented, described⟩

/-- The rounds end with one that gives a definition for a slot. -/
def EndsWithDefinition (rounds : List Round) (slot : Nat) (definition : CertDefinition) : Prop :=
  ∃ before define, rounds = before ++ [define] ∧
    define.command = .provideDefinition slot definition.encode.length ∧
    define.payload = some definition.encode

variable {config : RunConfig} {reads : Nat} {earlier : List Round} {round : Round}

/-- What is due with a payload: a definition, or one of the two certificates after theirs. -/
theorem Due.cases (due : Due config reads earlier round) :
    (round.payload = none ∧ round.command.announced? = none) ∨
    (∃ (slot : Nat) (definition : CertDefinition),
      round.command = .provideDefinition slot definition.encode.length ∧
      round.payload = some definition.encode) ∨
    (∃ serial signer deviceText path,
      Reached config reads earlier (.deviceDefined serial signer deviceText path) ∧
      round.before = [] ∧
      round.command = .programDeviceCert config.lockSlots (Octets.trimAscii deviceText).length ∧
      round.payload = some (Octets.trimAscii deviceText)) ∨
    ∃ serial signer path,
      Reached config reads earlier (.signerDefined serial signer path) ∧
      round.command = .programSignerCert config.lockSlots
        (Octets.trimAscii signer.certificateText).length ∧
      round.payload = some (Octets.trimAscii signer.certificateText) := by
  obtain ⟨n, stage, learn, reached, sends⟩ := due
  obtain ⟨before, command, payload, during, outcome⟩ := round
  cases Stage.prepared_of_path sends.prepared with
  | start | detected | blank | provisioned | keyed | rootRead | signerRead => exact .inl ⟨rfl, rfl⟩
  | @requested _ _ _ issuing deviceText definition issued described =>
      exact .inr (.inl ⟨deviceSlot, definition, rfl, rfl⟩)
  | deviceDefined serial signer deviceText path =>
      exact .inr (.inr (.inl ⟨serial, signer, deviceText, path, reached, rfl, rfl, rfl⟩))
  | @deviceProgrammed serial path signer definition described =>
      exact .inr (.inl ⟨signerSlot, definition, rfl, rfl⟩)
  | signerDefined serial signer path =>
      exact .inr (.inr (.inr ⟨serial, signer, path, reached, rfl, rfl⟩))

/-- What leads to a round is part of all steps. -/
theorem Round.before_within {rounds : List Round} (member : round ∈ rounds) :
    round.before <:+: rounds.flatMap Round.steps := by
  obtain ⟨front, back, rfl⟩ := List.append_of_mem member
  rw [List.flatMap_append, List.flatMap_cons, Round.steps, List.append_assoc, ← List.append_assoc]
  exact List.infix_append _ _ _

/-- What stands among the steps before a command is part of all steps. -/
theorem Round.Went.middle_within {rounds : List Round} {first : Dialogue.Step}
    {middle last : List Dialogue.Step} {command : Command} {payload : Option Octets} {body : String}
    (went : round.Went config reads (first :: middle ++ last) command payload body)
    (member : round ∈ rounds) : middle <:+: rounds.flatMap Round.steps := by
  have inside : middle <:+: round.before := by
    rw [went.before, ← List.singleton_append]
    exact List.infix_append _ _ _
  exact inside.trans (Round.before_within member)

/-- The device's certificate comes after its definition, and is what was saved. -/
theorem Reached.device_given {serial path : String} {signer : Signer} {deviceText : Octets}
    (reached : Reached config reads earlier (.deviceDefined serial signer deviceText path)) :
    ∃ definition, EndsWithDefinition earlier deviceSlot definition ∧
      Describes (Octets.trimAscii deviceText) .device definition ∧
      stored (joinPath config.outputDir deviceCertName) (earlier.flatMap Round.steps) =
        some (Octets.trimAscii deviceText) := by
  obtain ⟨before, define, request, issuing, definition, body, rfl, -, issued, -, described, went⟩ :=
    reached.of_deviceDefined
  have saved := stored_of_issuedBy issued
  obtain ⟨now, signed, -⟩ := issued
  obtain ⟨certificate, -, rfl⟩ := signRequest_eq_ok_iff.1 signed
  refine ⟨definition, ⟨before, define, rfl, went.command, went.payload⟩, ?_, ?_⟩
  · rw [(ofText_eq_ok_iff.1 described).trimAscii_iff]
    exact not_indented_certificateText certificate
  · rw [Octets.encode_trim_toAscii (plain_certificateText certificate)] at saved
    have quiet : stored (joinPath config.outputDir deviceCertName) define.during = none :=
      stored_eq_none (went.exchanged.asks (keepsFiles_exec _ _ _ _))
    have announced : stored (joinPath config.outputDir deviceCertName)
        [logged .info "program device cert"] = none := rfl
    rw [List.flatMap_append, List.flatMap_singleton, Round.steps, went.before, ← List.singleton_append]
    simp only [stored_append, quiet, announced, stored_lockWarning, saved, Option.none_or,
      Option.some_or]

/-- The signer's certificate comes after its definition, and is the one of the file that was read. -/
theorem Reached.signer_given {serial path : String} {signer : Signer}
    (reached : Reached config reads earlier (.signerDefined serial signer path)) :
    ∃ definition loading, EndsWithDefinition earlier signerSlot definition ∧
      Describes signer.certificateText .signer definition ∧
      LoadedBy config loading signer ∧ loading <:+: earlier.flatMap Round.steps := by
  obtain ⟨before, define, definition, body, rfl, reached, described, went⟩ :=
    reached.of_signerDefined
  obtain ⟨rest, program, deviceText, body, rfl, reached, -⟩ := reached.of_deviceProgrammed
  obtain ⟨rest, announce, request, issuing, deviceDefinition, body, rfl, reached, -⟩ :=
    reached.of_deviceDefined
  obtain ⟨rest, ask, body, rfl, reached, -⟩ := reached.of_requested
  obtain ⟨rest, generate, loading, body, rfl, -, loaded, generated⟩ := reached.of_keyed
  refine ⟨definition, loading, ⟨_, define, rfl, went.command, went.payload⟩,
    ofText_eq_ok_iff.1 described, loaded, ?_⟩
  exact generated.middle_within (by simp)

theorem Due.framed (due : Due config reads earlier round) : round.Framed := by
  rcases due.cases with ⟨payload, announced⟩ | ⟨slot, definition, command, payload⟩ |
    ⟨serial, signer, deviceText, path, reached, -, command, payload⟩ |
    ⟨serial, signer, path, reached, command, payload⟩
  · exact Round.framed_of_none payload announced
  · refine Round.framed_of_some payload ?_ definition.encode_ne_nil definition.bare_encode
    rw [command]
    rfl
  · obtain ⟨definition, -, ⟨content, found, -⟩, -⟩ := reached.device_given
    refine Round.framed_of_some payload ?_ ?_ (Octets.bare_trimAscii _)
    · rw [command]
      rfl
    · intro none
      rw [none] at found
      cases found
  · obtain ⟨definition, loading, -, ⟨content, found, -⟩, -⟩ := reached.signer_given
    refine Round.framed_of_some payload ?_ (trimAscii_ne_nil found) (Octets.bare_trimAscii _)
    rw [command]
    rfl

/-- A program round for the device's certificate comes right after one for its definition; the payload
is described by that definition and is what was saved. -/
theorem Due.device_given {lock : Bool} {length : Nat} (due : Due config reads earlier round)
    (device : round.command = .programDeviceCert lock length) :
    ∃ definition payload, EndsWithDefinition earlier deviceSlot definition ∧
      round.payload = some payload ∧ Describes payload .device definition ∧
      stored (joinPath config.outputDir deviceCertName)
        (earlier.flatMap Round.steps ++ round.before) = some payload := by
  rcases due.cases with ⟨-, announced⟩ | ⟨slot, definition, command, -⟩ |
    ⟨serial, signer, deviceText, path, reached, before, command, payload⟩ |
    ⟨serial, signer, path, reached, command, -⟩
  · rw [device] at announced
    cases announced
  · rw [device] at command
    cases command
  · obtain ⟨definition, ends, describes, saved⟩ := reached.device_given
    refine ⟨definition, _, ends, payload, describes, ?_⟩
    rw [before, List.append_nil]
    exact saved
  · rw [device] at command
    cases command

theorem Due.signer_given {lock : Bool} {length : Nat} (due : Due config reads earlier round)
    (given : round.command = .programSignerCert lock length) :
    ∃ definition loading signer, EndsWithDefinition earlier signerSlot definition ∧
      LoadedBy config loading signer ∧ loading <:+: earlier.flatMap Round.steps ∧
      round.payload = some (Octets.trimAscii signer.certificateText) ∧
      Describes signer.certificateText .signer definition := by
  rcases due.cases with ⟨-, announced⟩ | ⟨slot, definition, command, -⟩ |
    ⟨serial, signer, deviceText, path, reached, before, command, -⟩ |
    ⟨serial, signer, path, reached, command, payload⟩
  · rw [given] at announced
    cases announced
  · rw [given] at command
    cases command
  · rw [given] at command
    cases command
  · obtain ⟨definition, loading, ends, describes, loaded, inside⟩ := reached.signer_given
    exact ⟨definition, loading, signer, ends, loaded, inside, payload, describes⟩

/-- For every device, file system and clock: what a run sends are the lines of its commands, each with
the payload that it announces right after it. Each of the two certificates follows its definition. The
device's is described by it and is what was saved. The signer's is the file that was read without the
white space around it; it holds a document exactly if the file is not indented, and is then described
by the definition. -/
theorem run_payloads {σ : Type} (config : RunConfig) (reads : Nat)
    (surroundings : Dialogue.Surroundings σ) (s : σ) :
    ∃ rounds tail,
      Dialogue.transcript surroundings (run config reads).run s =
        rounds.flatMap Round.steps ++ tail ∧
      sent (Dialogue.transcript surroundings (run config reads).run s) =
        rounds.flatMap Round.sent ∧
      (∀ earlier round later, rounds = earlier ++ round :: later → Due config reads earlier round) ∧
      (∀ round ∈ rounds, round.Framed) ∧
      (∀ earlier program later lock length, rounds = earlier ++ program :: later →
        program.command = .programDeviceCert lock length →
        ∃ definition payload, EndsWithDefinition earlier deviceSlot definition ∧
          program.payload = some payload ∧ Describes payload .device definition ∧
          stored (joinPath config.outputDir deviceCertName)
            (earlier.flatMap Round.steps ++ program.before) = some payload) ∧
      (∀ earlier program later lock length, rounds = earlier ++ program :: later →
        program.command = .programSignerCert lock length →
        ∃ definition payload loading signer, EndsWithDefinition earlier signerSlot definition ∧
          LoadedBy config loading signer ∧ loading <:+: earlier.flatMap Round.steps ∧
          program.payload = some payload ∧ payload = Octets.trimAscii signer.certificateText ∧
          ((∃ content, decodePem payload certificateLabel = .ok content) ↔
            ¬ Pem.Indented signer.certificateText) ∧
          (Describes payload .signer definition ↔ ¬ Pem.Indented signer.certificateText)) := by
  have path : Session.Path (run config reads) _ _ :=
    Dialogue.path_transcript surroundings (run config reads).run s
  obtain ⟨rounds, tail, steps, ended⟩ := ended_of_path path
  refine ⟨rounds, tail, steps, ?_, fun _ _ _ cut => ended.due cut, ?_, ?_, ?_⟩
  · rw [steps]
    exact ended.sent_eq
  · intro round member
    obtain ⟨earlier, later, cut⟩ := List.append_of_mem member
    exact (ended.due cut).framed
  · intro earlier program later lock length cut device
    exact (ended.due cut).device_given device
  · intro earlier program later lock length cut given
    obtain ⟨definition, loading, signer, ends, loaded, inside, payload, describes⟩ :=
      (ended.due cut).signer_given given
    refine ⟨definition, _, loading, signer, ends, loaded, inside, payload, rfl, ?_,
      describes.trimAscii_iff⟩
    constructor
    · rintro ⟨content, trimmed⟩ indented
      obtain ⟨content', found, -⟩ := describes
      exact decodePem_trimAscii_of_indented found indented trimmed
    · intro unindented
      obtain ⟨content, found, -⟩ := describes.trimAscii_iff.2 unindented
      exact ⟨content, found⟩

end SecureElement.Provisioning
