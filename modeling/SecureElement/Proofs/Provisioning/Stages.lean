import SecureElement.Provisioning.Run
import SecureElement.Proofs.Link.Paths

/-!
The stages of a run.

Between two commands a run does what its stage tells it to (`Stage.prepare`): it reads files and the
clock, signs, saves, and then either sends the next command or finishes. The body of a response that
tells success takes it to the next stage or ends it. Going from stage to stage in this way is the run
(`run_eq_drive`), so what holds at every stage and is kept by every command holds throughout
(`Reached`), and the ways in which a run can end are those of `Ended` (`path_run_iff`).
-/

namespace SecureElement.Provisioning

open Authority

/-- What a run knows between two commands. The index is the number of commands still to be sent at
most. -/
inductive Stage : Nat → Type where
  | start : Stage 8
  | detected (chip : ChipKind) : Stage 7
  | identified (chip : ChipKind) (serial : String) : Stage 6
  | keyed (serial : String) (signer : Signer) : Stage 5
  | requested (serial : String) (signer : Signer) (request : String) : Stage 4
  | deviceDefined (serial : String) (signer : Signer) (deviceText : Octets) (path : String) : Stage 3
  | deviceProgrammed (serial : String) (signer : Signer) (path : String) : Stage 2
  | signerDefined (serial : String) (signer : Signer) (path : String) : Stage 1
  | signerProgrammed (serial : String) (path : String) : Stage 0
  | rootRead (chip : ChipKind) (serial : String) (root : Octets) : Stage 5
  | signerRead (chip : ChipKind) (serial : String) (root signer : Octets) : Stage 4
  | deviceRead (chip : ChipKind) (serial : String) (root signer device : Octets) : Stage 3

/-- What follows a stage: a command, with what the body of its response teaches, or the end. -/
inductive Next : Nat → Type where
  | send {n : Nat} (command : Command) (payload : Option Octets)
      (learn : String → Except ProvisioningFailure (Stage n)) : Next (n + 1)
  | finish {n : Nat} (outcome : Outcome) : Next n

/-- What the body of a response holds, if it is there. -/
def found {α : Type} {n : Nat} (value : Option α) (failure : ProvisioningFailure)
    (stage : α → Stage n) : Except ProvisioningFailure (Stage n) :=
  match value with
  | none => .error failure
  | some a => .ok (stage a)

/-- The certificate that the body of a response to a command holds. -/
def foundCert {n : Nat} (command : Command) (body : String) (stage : Octets → Stage n) :
    Except ProvisioningFailure (Stage n) :=
  ((Report.certificate command.text body).mapError .report).map stage

/-- The command that announces a definition. -/
def sendDefinition {n : Nat} (slot : Nat) (definition : CertDefinition) (stage : Stage n) :
    Next (n + 1) :=
  .send (.provideDefinition slot definition.encode.length) (some definition.encode) fun _ => .ok stage

/-- The command that gives a certificate to the chip. -/
def sendCert {n : Nat} (program : Nat → Command) (text : Octets) (stage : Stage n) : Next (n + 1) :=
  .send (program (Octets.trimAscii text).length) (some (Octets.trimAscii text)) fun _ => .ok stage

theorem found_eq_ok {α : Type} {n : Nat} {value : Option α} {failure : ProvisioningFailure}
    {stage : α → Stage n} {after : Stage n} :
    found value failure stage = .ok after ↔ ∃ a, value = some a ∧ stage a = after := by
  cases value <;> simp [found]

theorem foundCert_eq_ok {n : Nat} {command : Command} {body : String} {stage : Octets → Stage n}
    {after : Stage n} :
    foundCert command body stage = .ok after ↔
      ∃ octets, Report.certificate command.text body = .ok octets ∧ stage octets = after := by
  unfold foundCert
  cases Report.certificate command.text body with
  | error e =>
      constructor
      · intro found
        cases found
      · rintro ⟨octets, ⟨⟩, -⟩
  | ok octets =>
      constructor
      · intro found
        cases found
        exact ⟨octets, rfl, rfl⟩
      · rintro ⟨_, ⟨⟩, rfl⟩
        rfl

/-- What a run does between two commands. -/
def Stage.prepare (config : RunConfig) (reads : Nat) : {n : Nat} → Stage n →
    Step (Next n)
  | _, .start => do
      awaitDevice config reads
      return .send (.init config.sdaPin config.sclPin) none fun body =>
        found (ChipKind.ofReport? body) (.unknownChip (Text.trim body)) .detected
  | _, .detected chip => do
      Session.log .info ("ATECC608 chip is of type " ++ chip.name)
      return .send .printChipInfo none fun body =>
        found (Report.serialNumber body) (.report .serialNumber) (.identified chip)
  | _, .identified chip serial => do
      Session.log .info ("Serial Number: " ++ serial)
      if config.printChipKind then return .finish (.chipInfo chip serial)
      match chip with
      | .trustCustom => do
          let signer ← loadSigner config
          Session.log .info "Provisioning the Device"
          return .send (.generateKeys keySlot) none fun _ => .ok (.keyed serial signer)
      | .trustAndGo | .trustFlex =>
          return .send .getRootCert none fun body =>
            foundCert .getRootCert body (.rootRead chip serial)
  | _, .keyed serial signer =>
      return .send .generateRequest none fun body =>
        found (Report.requestBlock body) (.report .request) (.requested serial signer)
  | _, .requested serial signer request => do
      Session.log .info ("CSR obtained from device is:\n" ++ request)
      let (deviceText, path) ← issueDeviceCert config signer serial request
      if config.lockSlots then
        Session.log .warning "certificate slots will be permanently locked"
      Session.log .info "program device cert"
      let definition ← signing (CertDefinition.ofText deviceText .device)
      return sendDefinition deviceSlot definition (.deviceDefined serial signer deviceText path)
  | _, .deviceDefined serial signer deviceText path =>
      return sendCert (.programDeviceCert config.lockSlots) deviceText
        (.deviceProgrammed serial signer path)
  | _, .deviceProgrammed serial signer path => do
      Session.log .info
        ("Signer cert is:\n" ++ Text.trim (Utf8.decodeLossy signer.certificateText))
      Session.log .info "Programming signer certificate"
      let definition ← signing (CertDefinition.ofText signer.certificateText .signer)
      return sendDefinition signerSlot definition (.signerDefined serial signer path)
  | _, .signerDefined serial signer path =>
      return sendCert (.programSignerCert config.lockSlots) signer.certificateText
        (.signerProgrammed serial path)
  | _, .signerProgrammed serial path => return .finish (.provisioned serial path)
  | _, .rootRead chip serial root =>
      return .send .getSignerCert none fun body =>
        foundCert .getSignerCert body (.signerRead chip serial root)
  | _, .signerRead chip serial root signer =>
      return .send .getDeviceCert none fun body =>
        foundCert .getDeviceCert body (.deviceRead chip serial root signer)
  | _, .deviceRead chip serial root signer device => do
      let entry ← Session.ofExcept
        ((Manifest.Entry.ofCertificates chip serial device signer).mapError .manifest)
      let manifestPath := joinPath config.outputDir (manifestName entry.uniqueId)
      writeFile manifestPath (Utf8.encode (Manifest.text [entry]))
      writeFile (joinPath config.outputDir (rootCertName entry.uniqueId))
        (Pem.encode ⟨certificateLabel, root⟩)
      Session.log .info "Manifest written"
      return .finish (.recorded chip serial manifestPath)

/-- A run from a stage on. -/
def drive (config : RunConfig) (reads : Nat) : (n : Nat) → Stage n →
    Step Outcome
  | 0, stage => do
      match ← stage.prepare config reads with
      | .finish outcome => return outcome
  | n + 1, stage => do
      match ← stage.prepare config reads with
      | .finish outcome => return outcome
      | .send command payload learn =>
          let body ← execOk config reads command payload
          let stage ← Session.ofExcept (learn body)
          drive config reads n stage

section

variable (config : RunConfig) (reads : Nat)

-- Every proof of this section unfolds both.
attribute [local simp] drive Stage.prepare

theorem ofExcept_foundCert_bind {β : Type} {n : Nat} (command : Command) (body : String)
    (stage : Octets → Stage n) (next : Stage n → Step β) :
    (Session.ofExcept (foundCert command body stage) >>= next) =
      (Session.ofExcept ((Report.certificate command.text body).mapError .report) >>=
        fun octets => next (stage octets)) := by
  unfold foundCert
  cases Report.certificate command.text body <;> rfl

theorem ofExcept_ok_bind {α β : Type} (a : α) (next : α → Step β) :
    (Session.ofExcept (.ok a) >>= next) = next a := rfl

theorem discard_bind {α β : Type} (s : Step α)
    (next : Unit → Step β) :
    (discard s >>= next) = s >>= fun _ => next () := by
  simp only [discard, LawfulFunctor.map_const, Function.comp_apply, bind_map_left, Function.const]

/-! #### Blank chips -/

theorem drive_deviceProgrammed (serial : String) (signer : Signer) (path : String) :
    drive config reads 2 (.deviceProgrammed serial signer path) = do
      Session.log .info
        ("Signer cert is:\n" ++ Text.trim (Utf8.decodeLossy signer.certificateText))
      Session.log .info "Programming signer certificate"
      programCert config reads signer.certificateText .signer signerSlot
        (.programSignerCert config.lockSlots)
      return .provisioned serial path := by
  simp only [drive, Stage.prepare, sendDefinition, sendCert, programCert, bind_assoc, pure_bind,
    discard_bind, ofExcept_ok_bind]

theorem drive_deviceDefined (serial : String) (signer : Signer) (deviceText : Octets)
    (path : String) :
    drive config reads 3 (.deviceDefined serial signer deviceText path) = (do
      discard <| execOk config reads
        (.programDeviceCert config.lockSlots (Octets.trimAscii deviceText).length)
        (some (Octets.trimAscii deviceText))
      drive config reads 2 (.deviceProgrammed serial signer path)) := by
  rw [drive]
  simp only [Stage.prepare, sendCert, pure_bind, discard_bind, ofExcept_ok_bind]

theorem drive_requested (serial : String) (signer : Signer) (request : String) :
    drive config reads 4 (.requested serial signer request) = do
      Session.log .info ("CSR obtained from device is:\n" ++ request)
      let (deviceText, path) ← issueDeviceCert config signer serial request
      programCerts config reads signer deviceText
      return .provisioned serial path := by
  rw [drive]
  cases lock : config.lockSlots <;>
    simp only [Stage.prepare, sendDefinition, programCerts, programCert, lock, if_true, if_false,
      Bool.false_eq_true, bind_assoc, pure_bind, discard_bind, ofExcept_ok_bind,
      drive_deviceDefined, drive_deviceProgrammed]

theorem drive_keyed (serial : String) (signer : Signer) :
    drive config reads 5 (.keyed serial signer) = (do
      let report ← execOk config reads .generateRequest none
      match Report.requestBlock report with
      | none => throw (.report .request)
      | some request => drive config reads 4 (.requested serial signer request)) := by
  rw [drive]
  simp only [Stage.prepare, pure_bind]
  refine bind_congr fun report => ?_
  cases Report.requestBlock report <;> rfl

theorem drive_identified_trustCustom (serial : String) :
    drive config reads 6 (.identified .trustCustom serial) = (do
      Session.log .info ("Serial Number: " ++ serial)
      if config.printChipKind then return .chipInfo .trustCustom serial
      provisionBlank config reads serial) := by
  rw [drive]
  cases print : config.printChipKind
  · simp only [Stage.prepare, provisionBlank, obtainRequest, print, if_false, Bool.false_eq_true,
      bind_assoc, pure_bind, discard_bind, ofExcept_ok_bind, drive_keyed, drive_requested]
    refine bind_congr fun _ => bind_congr fun signer => bind_congr fun _ => bind_congr fun _ =>
      bind_congr fun report => ?_
    cases Report.requestBlock report with
    | none => rfl
    | some request => simp only [bind_assoc, pure_bind]
  · simp only [Stage.prepare, print, if_true, pure_bind, bind_assoc]

/-! #### Chips that come with certificates -/

theorem drive_rootRead (chip : ChipKind) (serial : String) (root : Octets) :
    drive config reads 5 (.rootRead chip serial root) = (do
      let signer ← readCert config reads .getSignerCert
      let device ← readCert config reads .getDeviceCert
      drive config reads 3 (.deviceRead chip serial root signer device)) := by
  rw [drive]
  simp only [Stage.prepare, readCert, pure_bind, bind_assoc, ofExcept_foundCert_bind]
  refine bind_congr fun _ => bind_congr fun signer => ?_
  rw [drive]
  simp only [Stage.prepare, pure_bind, ofExcept_foundCert_bind]

theorem drive_identified_other {chip : ChipKind} (other : chip ≠ .trustCustom) (serial : String) :
    drive config reads 6 (.identified chip serial) = (do
      Session.log .info ("Serial Number: " ++ serial)
      if config.printChipKind then return .chipInfo chip serial
      recordChip config reads chip serial) := by
  have recorded : ∀ root signer device,
      drive config reads 3 (.deviceRead chip serial root signer device) = (do
        let entry ← Session.ofExcept
          ((Manifest.Entry.ofCertificates chip serial device signer).mapError .manifest)
        let manifestPath := joinPath config.outputDir (manifestName entry.uniqueId)
        writeFile manifestPath (Utf8.encode (Manifest.text [entry]))
        let rootPath := joinPath config.outputDir (rootCertName entry.uniqueId)
        writeFile rootPath (Pem.encode ⟨certificateLabel, root⟩)
        Session.log .info "Manifest written"
        return .recorded chip serial manifestPath) := by
    intro root signer device
    rw [drive]
    simp only [Stage.prepare, bind_assoc, pure_bind]
  rw [drive]
  cases print : config.printChipKind
  · cases chip with
    | trustCustom => exact absurd rfl other
    | trustAndGo | trustFlex =>
        simp only [Stage.prepare, recordChip, readCert, print, if_false, Bool.false_eq_true, bind_assoc,
          pure_bind, ofExcept_foundCert_bind, drive_rootRead, recorded]
  · simp only [Stage.prepare, print, if_true, pure_bind, bind_assoc]

/-! #### Whole runs -/

/-- A run goes from stage to stage. -/
theorem run_eq_drive : run config reads = drive config reads 8 .start := by
  have named : ∀ chip, drive config reads 7 (.detected chip) = (do
      Session.log .info ("ATECC608 chip is of type " ++ chip.name)
      let report ← execOk config reads .printChipInfo none
      match Report.serialNumber report with
      | none => throw (.report .serialNumber)
      | some serial => drive config reads 6 (.identified chip serial)) := by
    intro chip
    rw [drive]
    simp only [Stage.prepare, bind_assoc, pure_bind]
    refine bind_congr fun _ => bind_congr fun report => ?_
    cases Report.serialNumber report <;> rfl
  rw [drive]
  simp only [run, detectChip, readSerial, Stage.prepare, bind_assoc, pure_bind]
  refine bind_congr fun _ => bind_congr fun report => ?_
  cases ChipKind.ofReport? report with
  | none => rfl
  | some chip =>
      simp only [found, ofExcept_ok_bind, named, bind_assoc, pure_bind]
      refine bind_congr fun _ => bind_congr fun report => ?_
      cases Report.serialNumber report with
      | none => rfl
      | some serial =>
          cases chip with
          | trustCustom => simp only [drive_identified_trustCustom, bind_assoc, pure_bind]
          | trustAndGo | trustFlex =>
              simp only [drive_identified_other, bind_assoc, pure_bind, ne_eq, reduceCtorEq,
                not_false_eq_true]

end

end SecureElement.Provisioning
