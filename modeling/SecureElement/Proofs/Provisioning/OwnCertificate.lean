import SecureElement.Proofs.Authority.ReadBack
import SecureElement.Proofs.Authority.Serials
import SecureElement.Proofs.Provisioning.Payloads
import SecureElement.Proofs.Time.Seconds

/-!
The certificate that a chip is given is its own.

A run that ends with a provisioned chip has asked it for its serial number and its request, has read the
clock once, and has sent it one certificate of its own. `OwnCertificate` lists what that certificate says
and where the run has it from; it holds whatever the device answers (`run_gives_own_certificate`).
-/

namespace SecureElement.Provisioning

open Authority X509 Crypto
open Dialogue (sent)

/-! ### The clock -/

/-- The time that a step tells. -/
def clock? : Dialogue.Step → Option Moment
  | ⟨.wallClock, now⟩ => some now
  | _ => none

/-- The times that these steps tell. -/
def times (steps : List Dialogue.Step) : List Moment := steps.filterMap clock?

theorem times_append (first second : List Dialogue.Step) :
    times (first ++ second) = times first ++ times second :=
  List.filterMap_append

theorem times_eq_nil {steps : List Dialogue.Step} (timeless : ∀ step ∈ steps, step.query ≠ .wallClock) :
    times steps = [] := by
  refine List.filterMap_eq_nil_iff.2 fun step member => ?_
  have other := timeless step member
  obtain ⟨q, answer⟩ := step
  cases q with
  | wallClock => exact absurd rfl other
  | _ => rfl

theorem times_logged (level : Level) (text : String) (steps : List Dialogue.Step) :
    times (logged level text :: steps) = times steps := rfl

theorem times_lockWarning (config : RunConfig) : times (lockWarning config) = [] := by
  unfold lockWarning
  split <;> rfl

variable {config : RunConfig} {reads : Nat} {rounds : List Round}

/-- No time is told in an exchange. -/
theorem timeless_exec (settings : ExchangeSettings) (reads : Nat) (command : String)
    (payload : Option Octets) :
    Session.Asks (· ≠ .wallClock) (Exchange.exec settings reads command payload) := by
  apply Exchange.asks_exec <;> simp

/-- A round tells the times of the steps before its command. -/
theorem Round.Went.times_steps {round : Round} {before : List Dialogue.Step} {command : Command}
    {payload : Option Octets} {body : String}
    (went : round.Went config reads before command payload body) : times round.steps = times before := by
  have quiet := times_eq_nil (went.exchanged.asks (timeless_exec _ _ _ _))
  rw [Round.steps, times_append, went.before, quiet, List.append_nil]

theorem times_of_loadedBy {loading : List Dialogue.Step} {signer : Signer}
    (loaded : LoadedBy config loading signer) : times loading = [] := by
  obtain ⟨keyContent, keyText, rfl, -⟩ := loaded
  rfl

/-- A request is signed at the one time that is told. -/
theorem exists_of_issuedBy {steps : List Dialogue.Step} {signer : Signer} {serial request : String}
    {deviceText : Octets} (issued : IssuedBy config steps signer serial request deviceText) :
    ∃ now, times steps = [now] ∧
      signRequest request signer.certificate signer.key serial config.validForYears now =
        .ok deviceText := by
  obtain ⟨now, signed, rfl⟩ := issued
  exact ⟨now, rfl, signed⟩

/-! ### What a chip is given -/

/-- A command was sent, and the body of the response told success. -/
def Answered (rounds : List Round) (command : Command) (body : String) : Prop :=
  ∃ round ∈ rounds, round.command = command ∧ round.body? = some body

/-- The chip reported the octets of its serial number. -/
def ToldSerial (rounds : List Round) (octets : Octets) : Prop :=
  ∃ report, Answered rounds .printChipInfo report ∧ Report.Spells report octets

/-- The chip reported a request that is signed by the key that it carries. -/
def ToldRequest (rounds : List Round) (request : Request) : Prop :=
  ∃ report text, Answered rounds .generateRequest report ∧ Report.requestBlock report = some text ∧
    parseRequest text = .ok request ∧ verifyRequest request = .ok ()

/-- The chip was sent this text as its certificate. -/
def Given (config : RunConfig) (rounds : List Round) (text : Octets) : Prop :=
  ∃ program ∈ rounds, program.command = .programDeviceCert config.lockSlots text.length ∧
    program.payload = some text

/-- The text that a chip was given holds its own certificate. The serial number has the value that the chip
reported; the name and the key are those of its request; the issuer is the authority whose files were
read. The certificate starts with the last full hour before the one time that the clock told and lasts a
number of calendar years; it is signed by the authority over the octets that stand in the text. -/
structure OwnCertificate (config : RunConfig) (rounds : List Round) (steps : List Dialogue.Step)
    (octets : Octets) (request : Request) (signer : Signer) (now : Moment) (text : Octets)
    (certificate : Certificate) : Prop where
  /-- Each of the eight commands was sent once, so that there is one report of each kind. -/
  commands : rounds.map (·.command.withoutLength) = commandsFor config (some .trustCustom)
  toldSerial : ToldSerial rounds octets
  nine : octets.length = Report.serialSize
  toldRequest : ToldRequest rounds request
  loaded : ∃ loading, LoadedBy config loading signer ∧ loading <:+: steps
  clock : times steps = [now]
  given : Given config rounds text
  reads : ReadsBack text request signer.certificate signer.key certificate.body.serial
    certificate.body.validity.notBefore.date certificate.body.validity.notAfter.date certificate
  serial : Der.Integer.toNat? certificate.body.serial.content = some (Octets.toNat octets)
  started : 0 ≤ now
  notBefore : certificate.body.validity.notBefore.date.toSeconds = now.seconds / 3600 * 3600
  notAfter : certificate.body.validity.notBefore.date.YearsLater config.validForYears
    certificate.body.validity.notAfter.date

theorem Round.Went.answered {round : Round} {before : List Dialogue.Step} {command : Command}
    {payload : Option Octets} {body : String}
    (went : round.Went config reads before command payload body) (member : round ∈ rounds) :
    Answered rounds command body :=
  ⟨round, member, went.command, went.told⟩

/-- When the last command has been answered, the chip has its own certificate. -/
theorem Reached.ownCertificate {serial path : String}
    (reached : Reached config reads rounds (.signerProgrammed serial path)) :
    ∃ octets request signer now text certificate, serial = Hex.encodeUpper octets ∧
      OwnCertificate config rounds (rounds.flatMap Round.steps) octets request signer now text
        certificate := by
  have commands := reached.follows.commands
  obtain ⟨rest₁, programSigner, signer, body₁, rfl, reached, last⟩ := reached.of_signerProgrammed
  obtain ⟨rest₂, defineSigner, signerDefinition, body₂, rfl, reached, -, seventh⟩ :=
    reached.of_signerDefined
  obtain ⟨rest₃, program, deviceText, body₃, rfl, reached, sixth⟩ := reached.of_deviceProgrammed
  obtain ⟨rest₄, define, requestText, issuing, definition, body₄, rfl, reached, issued, -, -, fifth⟩ :=
    reached.of_deviceDefined
  obtain ⟨rest₅, ask, requestReport, rfl, reached, fourth, block⟩ := reached.of_requested
  obtain ⟨rest₆, generate, loading, body₆, rfl, reached, loaded, third⟩ := reached.of_keyed
  obtain ⟨rest₇, inform, report, rfl, reached, second, found⟩ := reached.of_identified
  obtain ⟨init, body₈, rfl, waited, first, -⟩ := reached.of_detected
  obtain ⟨octets, spells, rfl⟩ := Report.serialNumber_eq_some_iff.1 found
  obtain ⟨now, told, signed⟩ := exists_of_issuedBy issued
  obtain ⟨certificate, made, rfl⟩ := signRequest_eq_ok_iff.1 signed
  obtain ⟨request, notBefore, notAfter, number, parsed, verified, -, dated, later, numbered, -, back⟩ :=
    readsBack_of_issue made
  obtain ⟨started, -, hour⟩ := issuanceTime_eq_ok_iff.1 dated
  obtain rfl := back.built.serial
  obtain ⟨rfl, rfl⟩ := back.built.dates
  refine ⟨octets, request, signer, now, Octets.trimAscii (certificateText certificate), certificate, rfl,
    ?_⟩
  constructor
  case commands =>
    rw [commands]
    exact List.take_of_length_le (by simp [commandsFor, Stage.chip?])
  case toldSerial => exact ⟨report, second.answered (by simp), spells⟩
  case nine => exact spells.length
  case toldRequest =>
    exact ⟨requestReport, requestText, fourth.answered (by simp), block, parsed, verified⟩
  case loaded => exact ⟨loading, loaded, third.middle_within (by simp)⟩
  case clock =>
    have timeless : Session.Asks (· ≠ .wallClock) (awaitDevice config reads) :=
      asks_awaitDevice config reads (by simp) (by simp) (by simp)
    have waiting := times_eq_nil (waited.asks timeless)
    simp only [List.flatMap_append, List.flatMap_singleton, times_append, first.times_steps,
      second.times_steps, third.times_steps, fourth.times_steps, fifth.times_steps, sixth.times_steps,
      seventh.times_steps, last.times_steps]
    simp only [waiting, List.cons_append, times_logged, times_of_loadedBy loaded, told,
      times_lockWarning]
    rfl
  case given => exact ⟨program, by simp, sixth.command, sixth.payload⟩
  case reads => exact back.trimAscii (not_indented_certificateText certificate)
  case serial => exact toNat?_of_parseSerial numbered
  case started => exact started
  case notBefore => exact hour
  case notAfter => exact addYears_eq_ok_iff.1 later

/-- For every device, file system and clock: a run ends with a provisioned chip exactly if all eight
commands were sent and succeeded, and then it has given the chip its own certificate. -/
theorem run_gives_own_certificate {σ : Type} (config : RunConfig) (reads : Nat)
    (surroundings : Dialogue.Surroundings σ) (s : σ) :
    ∃ rounds tail,
      Dialogue.transcript surroundings (run config reads).run s =
        rounds.flatMap Round.steps ++ tail ∧
      sent (Dialogue.transcript surroundings (run config reads).run s) =
        rounds.flatMap Round.sent ∧
      (∀ earlier round later, rounds = earlier ++ round :: later → Due config reads earlier round) ∧
      ((∃ serial path, (Dialogue.run surroundings (run config reads).run s).1 =
          .ok (.provisioned serial path)) ↔
        rounds.map (·.command.withoutLength) = commandsFor config (some .trustCustom) ∧
          ∀ e ∈ rounds, ∃ body, e.body? = some body) ∧
      ∀ serial path,
        (Dialogue.run surroundings (run config reads).run s).1 = .ok (.provisioned serial path) →
        ∃ octets request signer now text certificate, serial = Hex.encodeUpper octets ∧
          OwnCertificate config rounds
            (Dialogue.transcript surroundings (run config reads).run s) octets request signer now text
            certificate := by
  have path : Session.Path (run config reads) _ _ :=
    Dialogue.path_transcript surroundings (run config reads).run s
  obtain ⟨rounds, tail, steps, ended⟩ := ended_of_path path
  refine ⟨rounds, tail, steps, ?_, fun _ _ _ cut => ended.due cut, ended.provisioned_iff, ?_⟩
  · rw [steps]
    exact ended.sent_eq
  · intro serial path provisioned
    rw [provisioned] at ended
    cases ended with
    | @finished _ n stage _ _ reached prepared =>
        have last : n = 0 := last_of_finish_provisioned prepared
        subst last
        cases Stage.prepared_of_path prepared with
        | signerProgrammed =>
            rw [steps, List.append_nil]
            exact reached.ownCertificate

end SecureElement.Provisioning
