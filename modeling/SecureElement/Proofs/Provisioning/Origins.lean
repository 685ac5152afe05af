import SecureElement.Proofs.Provisioning.History
import SecureElement.Proofs.Provisioning.Preparations

/-!
Where a stage comes from.

A stage that was reached tells which round came last, from which stage it was sent and what its response
was. Read backwards from the last stage, these lemmas give the whole history of a chip.
-/

namespace SecureElement.Provisioning

variable {config : RunConfig} {reads : Nat}

/-- A round that succeeded: the steps before its command, the command with its payload, and the body of
the response. -/
structure Round.Went (config : RunConfig) (reads : Nat) (round : Round)
    (before : List Dialogue.Step) (command : Command) (payload : Option Octets) (body : String) :
    Prop where
  before : round.before = before
  command : round.command = command
  payload : round.payload = payload
  exchanged : Session.Path
    (Exchange.exec config.exchange reads round.command.text round.payload)
    round.during round.outcome
  told : round.body? = some body

theorem Stage.Sends.went {n : Nat} {stage : Stage (n + 1)} {before during : List Dialogue.Step}
    {command : Command} {payload : Option Octets} {outcome : Except ExchangeError Response}
    {learn : String → Except ProvisioningFailure (Stage n)} {body : String}
    (sends : stage.Sends config reads ⟨before, command, payload, during, outcome⟩ learn)
    (told : (⟨before, command, payload, during, outcome⟩ : Round).body? = some body) :
    Round.Went config reads ⟨before, command, payload, during, outcome⟩ before command payload body :=
  ⟨rfl, rfl, rfl, sends.exchanged, told⟩

/-- What all questions before a round and in its exchange satisfy, all questions of the round satisfy. -/
theorem Round.Went.asks {P : Query → Prop} {round : Round} {before : List Dialogue.Step}
    {command : Command} {payload : Option Octets} {body : String}
    (went : round.Went config reads before command payload body)
    (exchange : ∀ line octets, Session.Asks P (Exchange.exec config.exchange reads line octets))
    (earlier : ∀ step ∈ before, P step.query) : ∀ step ∈ round.steps, P step.query := by
  intro step member
  rcases List.mem_append.1 member with inside | inside
  · rw [went.before] at inside
    exact earlier step inside
  · exact went.exchanged.asks (exchange _ _) step inside

variable {rounds : List Round} {serial path : String} {signer : Signer}

namespace Reached

theorem of_start (reached : Reached config reads rounds .start) : rounds = [] := by
  cases reached with
  | start => rfl
  | @next earlier _ stage => cases stage

theorem of_detected {chip : ChipKind} (reached : Reached config reads rounds (.detected chip)) :
    ∃ round body, rounds = [round] ∧
      Session.Path (awaitDevice config reads) round.before (.ok ()) ∧
      round.Went config reads round.before (.init config.sdaPin config.sclPin) none body ∧
      ChipKind.ofReport? body = some chip := by
  cases reached with
  | @next earlier _ stage round learn body _ reached sends told learnt =>
      obtain ⟨before, command, payload, during, outcome⟩ := round
      cases stage with
      | start =>
          cases Stage.prepared_of_path sends.prepared with
          | start waited =>
              obtain ⟨chip, kind, ⟨⟩⟩ := found_eq_ok.1 learnt
              cases reached.of_start
              exact ⟨_, body, rfl, waited, sends.went told, kind⟩

theorem of_identified {chip : ChipKind}
    (reached : Reached config reads rounds (.identified chip serial)) :
    ∃ earlier round body, rounds = earlier ++ [round] ∧
      Reached config reads earlier (.detected chip) ∧
      round.Went config reads [logged .info ("ATECC608 chip is of type " ++ chip.name)]
        .printChipInfo none body ∧
      Report.serialNumber body = some serial := by
  cases reached with
  | @next earlier _ stage round learn body _ reached sends told learnt =>
      obtain ⟨before, command, payload, during, outcome⟩ := round
      cases stage with
      | detected chip =>
          cases Stage.prepared_of_path sends.prepared with
          | detected =>
              obtain ⟨serial, report, ⟨⟩⟩ := found_eq_ok.1 learnt
              exact ⟨earlier, _, body, rfl, reached, sends.went told, report⟩

/-- The key was generated after the authority's material had been loaded. -/
theorem of_keyed (reached : Reached config reads rounds (.keyed serial signer)) :
    ∃ earlier round loading body, rounds = earlier ++ [round] ∧
      Reached config reads earlier (.identified .trustCustom serial) ∧
      LoadedBy config loading signer ∧
      round.Went config reads
        (logged .info ("Serial Number: " ++ serial) :: loading ++
          [logged .info "Provisioning the Device"])
        (.generateKeys keySlot) none body := by
  cases reached with
  | @next earlier _ stage round learn body _ reached sends told learnt =>
      obtain ⟨before, command, payload, during, outcome⟩ := round
      cases stage with
      | identified chip serial =>
          cases Stage.prepared_of_path sends.prepared with
          | @blank _ loading signer goesOn loaded =>
              cases learnt
              exact ⟨earlier, _, loading, body, rfl, reached, loaded, sends.went told⟩
          | provisioned serial goesOn other =>
              obtain ⟨root, -, ⟨⟩⟩ := foundCert_eq_ok.1 learnt

theorem of_requested {request : String}
    (reached : Reached config reads rounds (.requested serial signer request)) :
    ∃ earlier round body, rounds = earlier ++ [round] ∧
      Reached config reads earlier (.keyed serial signer) ∧
      round.Went config reads [] .generateRequest none body ∧
      Report.requestBlock body = some request := by
  cases reached with
  | @next earlier _ stage round learn body _ reached sends told learnt =>
      obtain ⟨before, command, payload, during, outcome⟩ := round
      cases stage with
      | keyed serial signer =>
          cases Stage.prepared_of_path sends.prepared with
          | keyed =>
              obtain ⟨request, report, ⟨⟩⟩ := found_eq_ok.1 learnt
              exact ⟨earlier, _, body, rfl, reached, sends.went told, report⟩
      | rootRead chip serial root =>
          cases Stage.prepared_of_path sends.prepared with
          | rootRead => obtain ⟨signer, -, ⟨⟩⟩ := foundCert_eq_ok.1 learnt

/-- The device's certificate was issued, saved and described before the chip was told of it. -/
theorem of_deviceDefined {deviceText : Octets}
    (reached : Reached config reads rounds (.deviceDefined serial signer deviceText path)) :
    ∃ earlier round request issuing definition body, rounds = earlier ++ [round] ∧
      Reached config reads earlier (.requested serial signer request) ∧
      IssuedBy config issuing signer serial request deviceText ∧
      path = joinPath config.outputDir deviceCertName ∧
      CertDefinition.ofText deviceText .device = .ok definition ∧
      round.Went config reads
        (logged .info ("CSR obtained from device is:\n" ++ request) :: issuing ++
          lockWarning config ++ [logged .info "program device cert"])
        (.provideDefinition deviceSlot definition.encode.length) (some definition.encode) body := by
  cases reached with
  | @next earlier _ stage round learn body _ reached sends told learnt =>
      obtain ⟨before, command, payload, during, outcome⟩ := round
      cases stage with
      | requested serial signer request =>
          cases Stage.prepared_of_path sends.prepared with
          | @requested _ _ _ issuing deviceText definition issued described =>
              cases learnt
              exact ⟨earlier, _, request, issuing, definition, body, rfl, reached, issued, rfl,
                described, sends.went told⟩
      | signerRead chip serial root signer =>
          cases Stage.prepared_of_path sends.prepared with
          | signerRead => obtain ⟨device, -, ⟨⟩⟩ := foundCert_eq_ok.1 learnt

theorem of_deviceProgrammed
    (reached : Reached config reads rounds (.deviceProgrammed serial signer path)) :
    ∃ earlier round deviceText body, rounds = earlier ++ [round] ∧
      Reached config reads earlier (.deviceDefined serial signer deviceText path) ∧
      round.Went config reads []
        (.programDeviceCert config.lockSlots (Octets.trimAscii deviceText).length)
        (some (Octets.trimAscii deviceText)) body := by
  cases reached with
  | @next earlier _ stage round learn body _ reached sends told learnt =>
      obtain ⟨before, command, payload, during, outcome⟩ := round
      cases stage with
      | deviceDefined serial signer deviceText path =>
          cases Stage.prepared_of_path sends.prepared with
          | deviceDefined =>
              cases learnt
              exact ⟨earlier, _, deviceText, body, rfl, reached, sends.went told⟩
      | deviceRead chip serial root signer device =>
          cases Stage.prepared_of_path sends.prepared

theorem of_signerDefined
    (reached : Reached config reads rounds (.signerDefined serial signer path)) :
    ∃ earlier round definition body, rounds = earlier ++ [round] ∧
      Reached config reads earlier (.deviceProgrammed serial signer path) ∧
      CertDefinition.ofText signer.certificateText .signer = .ok definition ∧
      round.Went config reads
        [logged .info
          ("Signer cert is:\n" ++ Text.trim (Utf8.decodeLossy signer.certificateText)),
          logged .info "Programming signer certificate"]
        (.provideDefinition signerSlot definition.encode.length) (some definition.encode) body := by
  cases reached with
  | @next earlier _ stage round learn body _ reached sends told learnt =>
      obtain ⟨before, command, payload, during, outcome⟩ := round
      cases stage with
      | deviceProgrammed serial signer path =>
          cases Stage.prepared_of_path sends.prepared with
          | @deviceProgrammed _ _ _ definition described =>
              cases learnt
              exact ⟨earlier, _, definition, body, rfl, reached, described, sends.went told⟩

theorem of_signerProgrammed (reached : Reached config reads rounds (.signerProgrammed serial path)) :
    ∃ earlier round signer body, rounds = earlier ++ [round] ∧
      Reached config reads earlier (.signerDefined serial signer path) ∧
      round.Went config reads []
        (.programSignerCert config.lockSlots (Octets.trimAscii signer.certificateText).length)
        (some (Octets.trimAscii signer.certificateText)) body := by
  cases reached with
  | @next earlier _ stage round learn body _ reached sends told learnt =>
      obtain ⟨before, command, payload, during, outcome⟩ := round
      cases stage with
      | signerDefined serial signer path =>
          cases Stage.prepared_of_path sends.prepared with
          | signerDefined =>
              cases learnt
              exact ⟨earlier, _, signer, body, rfl, reached, sends.went told⟩

/-! ### Chips that come with certificates -/

variable {chip : ChipKind} {root signerCert device : Octets}

/-- The chip's certificates were asked for because it is not a blank one. -/
theorem of_rootRead (reached : Reached config reads rounds (.rootRead chip serial root)) :
    ∃ earlier round body, rounds = earlier ++ [round] ∧
      Reached config reads earlier (.identified chip serial) ∧ chip ≠ .trustCustom ∧
      round.Went config reads [logged .info ("Serial Number: " ++ serial)] .getRootCert none body ∧
      Report.certificate Command.getRootCert.text body = .ok root := by
  cases reached with
  | @next earlier _ stage round learn body _ reached sends told learnt =>
      obtain ⟨before, command, payload, during, outcome⟩ := round
      cases stage with
      | identified chip serial =>
          cases Stage.prepared_of_path sends.prepared with
          | blank => cases learnt
          | provisioned serial goesOn other =>
              obtain ⟨root, report, ⟨⟩⟩ := foundCert_eq_ok.1 learnt
              exact ⟨earlier, _, body, rfl, reached, other, sends.went told, report⟩

theorem of_signerRead (reached : Reached config reads rounds (.signerRead chip serial root signerCert)) :
    ∃ earlier round body, rounds = earlier ++ [round] ∧
      Reached config reads earlier (.rootRead chip serial root) ∧
      round.Went config reads [] .getSignerCert none body ∧
      Report.certificate Command.getSignerCert.text body = .ok signerCert := by
  cases reached with
  | @next earlier _ stage round learn body _ reached sends told learnt =>
      obtain ⟨before, command, payload, during, outcome⟩ := round
      cases stage with
      | keyed serial signer =>
          cases Stage.prepared_of_path sends.prepared with
          | keyed => obtain ⟨request, -, ⟨⟩⟩ := found_eq_ok.1 learnt
      | rootRead chip serial root =>
          cases Stage.prepared_of_path sends.prepared with
          | rootRead =>
              obtain ⟨signer, report, ⟨⟩⟩ := foundCert_eq_ok.1 learnt
              exact ⟨earlier, _, body, rfl, reached, sends.went told, report⟩

theorem of_deviceRead
    (reached : Reached config reads rounds (.deviceRead chip serial root signerCert device)) :
    ∃ earlier round body, rounds = earlier ++ [round] ∧
      Reached config reads earlier (.signerRead chip serial root signerCert) ∧
      round.Went config reads [] .getDeviceCert none body ∧
      Report.certificate Command.getDeviceCert.text body = .ok device := by
  cases reached with
  | @next earlier _ stage round learn body _ reached sends told learnt =>
      obtain ⟨before, command, payload, during, outcome⟩ := round
      cases stage with
      | requested serial signer request =>
          cases Stage.prepared_of_path sends.prepared with
          | requested => cases learnt
      | signerRead chip serial root signer =>
          cases Stage.prepared_of_path sends.prepared with
          | signerRead =>
              obtain ⟨device, report, ⟨⟩⟩ := foundCert_eq_ok.1 learnt
              exact ⟨earlier, _, body, rfl, reached, sends.went told, report⟩

end Reached

end SecureElement.Provisioning
