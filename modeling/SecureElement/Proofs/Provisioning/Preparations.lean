import SecureElement.Proofs.Link.Exchanges
import SecureElement.Proofs.Provisioning.Stages

/-!
What happens between two commands, stage by stage.

Each lemma takes the steps that a stage prepares its next command with apart: the files that were read,
the time that was told, what was signed and saved, and the command that follows.
-/

namespace SecureElement.Provisioning

open Authority

variable {config : RunConfig} {reads : Nat} {steps : List Dialogue.Step}

theorem path_signing_bind_iff {α β : Type} {x : Except SigningError α} {f : α → Step β}
    {result : Except ProvisioningFailure β} :
    Session.Path (signing x >>= f) steps result ↔
      (∃ e, x = .error e ∧ steps = [] ∧ result = .error (.signing e)) ∨
      ∃ a, x = .ok a ∧ Session.Path (f a) steps result :=
  Session.path_ofExcept_mapError_bind_iff

theorem path_writeFile_bind_iff {β : Type} {path : String} {content : Octets} {f : Unit → Step β}
    {result : Except ProvisioningFailure β} :
    Session.Path (writeFile path content >>= f) steps result ↔
      (steps = [⟨.writeFile path content, false⟩] ∧ result = .error (.file path)) ∨
      ∃ rest, steps = ⟨.writeFile path content, true⟩ :: rest ∧ Session.Path (f ()) rest result := by
  simp only [writeFile, bind_assoc]
  refine Session.path_query_bind_iff.trans ⟨?_, ?_⟩
  · rintro ⟨answer, rest, rfl, later⟩
    cases answer with
    | false =>
        obtain ⟨rfl, rfl⟩ := Session.path_throw_iff.1 later
        exact .inl ⟨rfl, rfl⟩
    | true => exact .inr ⟨rest, rfl, later⟩
  · rintro (⟨rfl, rfl⟩ | ⟨rest, rfl, later⟩)
    · exact ⟨false, [], rfl, Session.path_throw_iff.2 ⟨rfl, rfl⟩⟩
    · exact ⟨true, rest, rfl, later⟩

/-- An entry in the log, as a step. -/
def logged (level : Level) (text : String) : Dialogue.Step := ⟨.log ⟨level, text⟩, ()⟩

/-! ### The authority's material -/

/-- The files of the authority were read in these steps, and hold what it signs with. -/
def LoadedBy (config : RunConfig) (steps : List Dialogue.Step) (signer : Signer) : Prop :=
  ∃ keyContent keyText,
    steps = [⟨.readFile config.signerKey, keyContent⟩,
      ⟨.readFile config.signerCert, some signer.certificateText⟩] ∧
    contentOf config.signerKey keyContent = .ok keyText ∧
    parsePrivateKey config.signerKey keyText (config.password.map Utf8.encode) = .ok signer.key ∧
    parseCertificate signer.certificateText = .ok signer.certificate

theorem path_loadSigner_ok {signer : Signer}
    (loading : Session.Path (loadSigner config) steps (.ok signer)) :
    LoadedBy config steps signer := by
  obtain ⟨keyContent, rest, rfl, path⟩ := Session.path_query_bind_iff.1 loading
  rcases path_signing_bind_iff.1 path with ⟨e, -, -, ⟨⟩⟩ | ⟨keyText, content, path⟩
  rcases path_signing_bind_iff.1 path with ⟨e, -, -, ⟨⟩⟩ | ⟨key, parsed, path⟩
  obtain ⟨certContent, last, rfl, later⟩ := Session.path_query_bind_iff.1 path
  cases certContent with
  | none => cases (Session.path_throw_iff.1 later).2
  | some certificateText =>
      rcases path_signing_bind_iff.1 later with ⟨e, -, -, ⟨⟩⟩ | ⟨certificate, accepted, whole⟩
      obtain ⟨rfl, same⟩ := Session.path_pure_iff.1 whole
      cases same
      exact ⟨keyContent, keyText, rfl, content, parsed, accepted⟩

/-! ### The device's certificate -/

/-- The request was signed and the certificate saved in these steps. -/
def IssuedBy (config : RunConfig) (steps : List Dialogue.Step) (signer : Signer)
    (serial request : String) (deviceText : Octets) : Prop :=
  ∃ now,
    signRequest request signer.certificate signer.key serial config.validForYears now =
      .ok deviceText ∧
    steps = [⟨.wallClock, now⟩,
      logged .info ("Device cert generated:\n" ++ Text.trim (Octets.toAscii deviceText)),
      ⟨.writeFile (joinPath config.outputDir deviceCertName)
        (Utf8.encode (Text.trim (Octets.toAscii deviceText))), true⟩,
      logged .info ("Saved device cert to " ++ joinPath config.outputDir deviceCertName)]

theorem path_issueDeviceCert_ok {signer : Signer} {serial request path : String}
    {deviceText : Octets}
    (issuing : Session.Path (issueDeviceCert config signer serial request) steps
      (.ok (deviceText, path))) :
    IssuedBy config steps signer serial request deviceText ∧
      path = joinPath config.outputDir deviceCertName := by
  obtain ⟨now, rest, rfl, path⟩ := Session.path_query_bind_iff.1 issuing
  rcases path_signing_bind_iff.1 path with ⟨e, -, -, ⟨⟩⟩ | ⟨text, signed, path⟩
  obtain ⟨rest, rfl, saving⟩ := Session.path_log_bind_iff.1 path
  rcases path_writeFile_bind_iff.1 saving with ⟨-, ⟨⟩⟩ | ⟨rest, rfl, saved⟩
  obtain ⟨rest, rfl, finished⟩ := Session.path_log_bind_iff.1 saved
  obtain ⟨rfl, same⟩ := Session.path_pure_iff.1 finished
  cases same
  exact ⟨⟨now, signed, rfl⟩, rfl⟩

/-! ### What is asked for between two commands -/

section

open Session (Silent asks_bind asks_pure asks_throw asks_query asks_ofExcept asks_log)

theorem asks_signing {P : Query → Prop} {α : Type} (x : Except SigningError α) :
    Session.Asks P (signing x) :=
  asks_ofExcept _

variable {P : Query → Prop} (log : ∀ entry, P (.log entry))
  (write : ∀ path content, P (.writeFile path content))

include write in
theorem asks_writeFile (path : String) (content : Octets) : Session.Asks P (writeFile path content) := by
  refine asks_bind (asks_query (write path content)) fun answer => ?_
  cases answer
  · exact asks_throw _
  · exact asks_pure _

variable (config reads)

theorem asks_loadSigner (read : ∀ path, P (.readFile path)) : Session.Asks P (loadSigner config) := by
  refine asks_bind (asks_query (read _)) fun keyContent => ?_
  refine asks_bind (asks_signing _) fun keyText => ?_
  refine asks_bind (asks_signing _) fun key => ?_
  refine asks_bind (asks_query (read _)) fun certContent => ?_
  cases certContent with
  | none => exact asks_throw _
  | some text => exact asks_bind (asks_signing _) fun certificate => asks_pure _

include log

include write in
theorem asks_issueDeviceCert (wallClock : P .wallClock) (signer : Signer) (serial request : String) :
    Session.Asks P (issueDeviceCert config signer serial request) := by
  refine asks_bind (asks_query wallClock) fun now => ?_
  refine asks_bind (asks_signing _) fun text => ?_
  refine asks_bind (asks_log (log _)) fun _ => ?_
  refine asks_bind (asks_writeFile write _ _) fun _ => ?_
  exact asks_bind (asks_log (log _)) fun _ => asks_pure _

/-- To wait for the device is to listen to it, with an eye on the clock. -/
theorem asks_awaitDevice (readLine : P .readLine) (elapsed : P .elapsed) :
    Session.Asks P (awaitDevice config reads) := by
  unfold awaitDevice
  split
  · exact asks_pure _
  · have waiting := Exchange.asks_waitForReady log readLine elapsed config.exchange reads
    refine asks_bind (Session.asks_mapError waiting) fun ready => ?_
    cases ready
    · exact asks_throw _
    · exact asks_pure _

/-- At these stages a file is written, if nothing fails. -/
def Stage.Writes : {n : Nat} → Stage n → Prop
  | _, .requested .. | _, .deviceRead .. => True
  | _, _ => False

/-- Between two commands the device is listened to, if at all, and files are read. The wall clock is read
and files are written at two stages only. -/
theorem asks_prepare (readLine : P .readLine) (elapsed : P .elapsed) (read : ∀ path, P (.readFile path))
    {n : Nat} {stage : Stage n}
    (writes : stage.Writes → P .wallClock ∧ ∀ path content, P (.writeFile path content)) :
    Session.Asks P (stage.prepare config reads) := by
  have note : ∀ level text, Session.Asks P (Session.log level text : Step Unit) := fun _ _ =>
    asks_log (log _)
  cases stage with
  | start => exact asks_bind (asks_awaitDevice config reads log readLine elapsed) fun _ => asks_pure _
  | detected chip => exact asks_bind (note _ _) fun _ => asks_pure _
  | identified chip serial =>
      refine asks_bind (note _ _) fun _ => ?_
      split
      · exact asks_pure _
      · cases chip with
        | trustCustom =>
            refine asks_bind (asks_loadSigner config read) fun signer => ?_
            exact asks_bind (note _ _) fun _ => asks_pure _
        | trustAndGo | trustFlex => exact asks_pure _
  | requested serial signer request =>
      obtain ⟨wallClock, write⟩ := writes trivial
      have described : ∀ deviceText path, Session.Asks P (do
          Session.log .info "program device cert"
          let definition ← signing (CertDefinition.ofText deviceText .device)
          return sendDefinition deviceSlot definition
            (.deviceDefined serial signer deviceText path) : Step (Next 4)) := fun _ _ =>
        asks_bind (note _ _) fun _ => asks_bind (asks_signing _) fun _ => asks_pure _
      refine asks_bind (note _ _) fun _ => ?_
      have issues := asks_issueDeviceCert config log write wallClock signer serial request
      refine asks_bind issues fun issued => ?_
      obtain ⟨deviceText, path⟩ := issued
      cases lock : config.lockSlots with
      | false =>
          simp only [if_false, Bool.false_eq_true]
          exact described deviceText path
      | true =>
          simp only [if_true]
          exact asks_bind (note _ _) fun _ => described deviceText path
  | deviceProgrammed serial signer path =>
      refine asks_bind (note _ _) fun _ => asks_bind (note _ _) fun _ => ?_
      exact asks_bind (asks_signing _) fun _ => asks_pure _
  | deviceRead chip serial root signer device =>
      obtain ⟨-, write⟩ := writes trivial
      refine asks_bind (asks_ofExcept _) fun entry => ?_
      refine asks_bind (asks_writeFile write _ _) fun _ => ?_
      refine asks_bind (asks_writeFile write _ _) fun _ => ?_
      exact asks_bind (note _ _) fun _ => asks_pure _
  | keyed | deviceDefined | signerDefined | signerProgrammed | rootRead | signerRead =>
      exact asks_pure _

omit log in
/-- Between two commands nothing is sent. -/
theorem silent_prepare {n : Nat} (stage : Stage n) : Silent (stage.prepare config reads) := by
  apply asks_prepare <;> simp [Dialogue.Silent]

end

/-! ### From stage to stage -/

/-- The warning before certificate slots are locked. -/
def lockWarning (config : RunConfig) : List Dialogue.Step :=
  if config.lockSlots then [logged .warning "certificate slots will be permanently locked"] else []

/-- The warning comes first; the rest is the same with and without it. -/
theorem path_lockWarning_iff {β : Type} {next : Step β} {result : Except ProvisioningFailure β} :
    Session.Path
        (if config.lockSlots then do
          Session.log .warning "certificate slots will be permanently locked"
          next
        else next) steps result ↔
      ∃ rest, steps = lockWarning config ++ rest ∧ Session.Path next rest result := by
  unfold lockWarning
  cases config.lockSlots with
  | false => simp
  | true => exact Session.path_log_bind_iff

/-- What happens at a stage if nothing fails: the steps, and what follows them. -/
inductive Stage.Prepared (config : RunConfig) (reads : Nat) :
    {n : Nat} → Stage n → List Dialogue.Step → Next n → Prop where
  | start {waiting : List Dialogue.Step}
      (waited : Session.Path (awaitDevice config reads) waiting (.ok ())) :
      Prepared config reads .start waiting
        (.send (.init config.sdaPin config.sclPin) none fun body =>
          found (ChipKind.ofReport? body) (.unknownChip (Text.trim body)) .detected)
  | detected (chip : ChipKind) :
      Prepared config reads (.detected chip)
        [logged .info ("ATECC608 chip is of type " ++ chip.name)]
        (.send .printChipInfo none fun body =>
          found (Report.serialNumber body) (.report .serialNumber) (.identified chip))
  /-- The run ends here if it is told to. -/
  | chipInfo (chip : ChipKind) (serial : String) (print : config.printChipKind = true) :
      Prepared config reads (.identified chip serial) [logged .info ("Serial Number: " ++ serial)]
        (.finish (.chipInfo chip serial))
  /-- The authority's material is loaded for a blank chip. -/
  | blank (serial : String) {loading : List Dialogue.Step} {signer : Signer}
      (goesOn : config.printChipKind = false) (loaded : LoadedBy config loading signer) :
      Prepared config reads (.identified .trustCustom serial)
        (logged .info ("Serial Number: " ++ serial) :: loading ++
          [logged .info "Provisioning the Device"])
        (.send (.generateKeys keySlot) none fun _ => .ok (.keyed serial signer))
  /-- A chip that came with certificates is read. -/
  | provisioned {chip : ChipKind} (serial : String) (goesOn : config.printChipKind = false)
      (other : chip ≠ .trustCustom) :
      Prepared config reads (.identified chip serial) [logged .info ("Serial Number: " ++ serial)]
        (.send .getRootCert none fun body => foundCert .getRootCert body (.rootRead chip serial))
  | keyed (serial : String) (signer : Signer) :
      Prepared config reads (.keyed serial signer) []
        (.send .generateRequest none fun body =>
          found (Report.requestBlock body) (.report .request) (.requested serial signer))
  /-- The device's certificate is issued and described before the chip is told of it, and the locking
  of its slots is announced. -/
  | requested {serial request : String} {signer : Signer} {issuing : List Dialogue.Step}
      {deviceText : Octets} {definition : CertDefinition}
      (issued : IssuedBy config issuing signer serial request deviceText)
      (described : CertDefinition.ofText deviceText .device = .ok definition) :
      Prepared config reads (.requested serial signer request)
        (logged .info ("CSR obtained from device is:\n" ++ request) :: issuing ++
          lockWarning config ++ [logged .info "program device cert"])
        (sendDefinition deviceSlot definition
          (.deviceDefined serial signer deviceText (joinPath config.outputDir deviceCertName)))
  | deviceDefined (serial : String) (signer : Signer) (deviceText : Octets) (path : String) :
      Prepared config reads (.deviceDefined serial signer deviceText path) []
        (sendCert (.programDeviceCert config.lockSlots) deviceText
          (.deviceProgrammed serial signer path))
  | deviceProgrammed {serial path : String} {signer : Signer} {definition : CertDefinition}
      (described : CertDefinition.ofText signer.certificateText .signer = .ok definition) :
      Prepared config reads (.deviceProgrammed serial signer path)
        [logged .info
          ("Signer cert is:\n" ++ Text.trim (Utf8.decodeLossy signer.certificateText)),
          logged .info "Programming signer certificate"]
        (sendDefinition signerSlot definition (.signerDefined serial signer path))
  | signerDefined (serial : String) (signer : Signer) (path : String) :
      Prepared config reads (.signerDefined serial signer path) []
        (sendCert (.programSignerCert config.lockSlots) signer.certificateText
          (.signerProgrammed serial path))
  | signerProgrammed (serial path : String) :
      Prepared config reads (.signerProgrammed serial path) []
        (.finish (.provisioned serial path))
  | rootRead (chip : ChipKind) (serial : String) (root : Octets) :
      Prepared config reads (.rootRead chip serial root) []
        (.send .getSignerCert none fun body =>
          foundCert .getSignerCert body (.signerRead chip serial root))
  | signerRead (chip : ChipKind) (serial : String) (root signer : Octets) :
      Prepared config reads (.signerRead chip serial root signer) []
        (.send .getDeviceCert none fun body =>
          foundCert .getDeviceCert body (.deviceRead chip serial root signer))
  /-- A chip that came with certificates is recorded in two files, the manifest first. -/
  | deviceRead {chip : ChipKind} {serial : String} {root signer device : Octets}
      {entry : Manifest.Entry}
      (built : Manifest.Entry.ofCertificates chip serial device signer = .ok entry) :
      Prepared config reads (.deviceRead chip serial root signer device)
        [⟨.writeFile (joinPath config.outputDir (manifestName entry.uniqueId))
            (Utf8.encode (Manifest.text [entry])), true⟩,
          ⟨.writeFile (joinPath config.outputDir (rootCertName entry.uniqueId))
            (Pem.encode ⟨certificateLabel, root⟩), true⟩,
          logged .info "Manifest written"]
        (.finish
          (.recorded chip serial (joinPath config.outputDir (manifestName entry.uniqueId))))

section

variable {serial path : String} {signer : Signer} {chip : ChipKind}

theorem prepared_identified {next : Next 6}
    (path : Session.Path ((Stage.identified chip serial).prepare config reads) steps (.ok next)) :
    (Stage.identified chip serial).Prepared config reads steps next := by
  obtain ⟨rest, rfl, going⟩ := Session.path_log_bind_iff.1 path
  cases print : config.printChipKind with
  | true =>
      rw [print] at going
      obtain ⟨rfl, same⟩ := Session.path_pure_iff.1 going
      cases same
      exact .chipInfo chip serial print
  | false =>
      rw [print] at going
      cases chip with
      | trustCustom =>
          rcases Session.path_bind_iff.1 going with
            ⟨e, -, ⟨⟩⟩ | ⟨loading, signer, later, rfl, loaded, logging⟩
          obtain ⟨last, rfl, finished⟩ := Session.path_log_bind_iff.1 logging
          obtain ⟨rfl, same⟩ := Session.path_pure_iff.1 finished
          cases same
          exact .blank serial print (path_loadSigner_ok loaded)
      | trustAndGo | trustFlex =>
          obtain ⟨rfl, same⟩ := Session.path_pure_iff.1 going
          cases same
          exact .provisioned serial print (by decide)

theorem prepared_requested {request : String} {next : Next 4}
    (path : Session.Path ((Stage.requested serial signer request).prepare config reads) steps
      (.ok next)) :
    (Stage.requested serial signer request).Prepared config reads steps next := by
  obtain ⟨rest, rfl, going⟩ := Session.path_log_bind_iff.1 path
  rcases Session.path_bind_iff.1 going with
    ⟨e, -, ⟨⟩⟩ | ⟨issuing, ⟨deviceText, certPath⟩, later, rfl, certified, locking⟩
  obtain ⟨issued, rfl⟩ := path_issueDeviceCert_ok certified
  obtain ⟨rest, rfl, announcing⟩ := path_lockWarning_iff.1 locking
  obtain ⟨last, rfl, describing⟩ := Session.path_log_bind_iff.1 announcing
  rcases path_signing_bind_iff.1 describing with ⟨e, -, -, ⟨⟩⟩ | ⟨definition, found, finished⟩
  obtain ⟨rfl, same⟩ := Session.path_pure_iff.1 finished
  cases same
  have whole : (Stage.requested serial signer request).Prepared config reads _ _ :=
    .requested issued found
  simpa [logged] using whole

theorem prepared_deviceProgrammed {next : Next 2}
    (prepared : Session.Path ((Stage.deviceProgrammed serial signer path).prepare config reads)
      steps (.ok next)) :
    (Stage.deviceProgrammed serial signer path).Prepared config reads steps next := by
  obtain ⟨rest, rfl, announcing⟩ := Session.path_log_bind_iff.1 prepared
  obtain ⟨last, rfl, describing⟩ := Session.path_log_bind_iff.1 announcing
  rcases path_signing_bind_iff.1 describing with ⟨e, -, -, ⟨⟩⟩ | ⟨definition, found, finished⟩
  obtain ⟨rfl, same⟩ := Session.path_pure_iff.1 finished
  cases same
  exact .deviceProgrammed found

theorem prepared_deviceRead {root signerCert device : Octets} {next : Next 3}
    (prepared : Session.Path
      ((Stage.deviceRead chip serial root signerCert device).prepare config reads) steps (.ok next)) :
    (Stage.deviceRead chip serial root signerCert device).Prepared config reads steps next := by
  rcases Session.path_ofExcept_mapError_bind_iff.1 prepared with
    ⟨e, -, -, ⟨⟩⟩ | ⟨entry, built, writing⟩
  rcases path_writeFile_bind_iff.1 writing with ⟨-, ⟨⟩⟩ | ⟨rest, rfl, writingRoot⟩
  rcases path_writeFile_bind_iff.1 writingRoot with ⟨-, ⟨⟩⟩ | ⟨last, rfl, wrote⟩
  obtain ⟨none, rfl, finished⟩ := Session.path_log_bind_iff.1 wrote
  obtain ⟨rfl, same⟩ := Session.path_pure_iff.1 finished
  cases same
  exact .deviceRead built

end

/-- A stage that was gone through without a failure was gone through in this way. -/
theorem Stage.prepared_of_path {n : Nat} {stage : Stage n} {next : Next n}
    (path : Session.Path (stage.prepare config reads) steps (.ok next)) :
    stage.Prepared config reads steps next := by
  cases stage with
  | start =>
      rcases Session.path_bind_iff.1 path with ⟨e, -, ⟨⟩⟩ | ⟨first, ⟨⟩, rest, rfl, waiting, finished⟩
      obtain ⟨rfl, same⟩ := Session.path_pure_iff.1 finished
      cases same
      rw [List.append_nil]
      exact .start waiting
  | detected chip =>
      obtain ⟨rest, rfl, finished⟩ := Session.path_log_bind_iff.1 path
      obtain ⟨rfl, same⟩ := Session.path_pure_iff.1 finished
      cases same
      exact .detected chip
  | identified chip serial => exact prepared_identified path
  | requested serial signer request => exact prepared_requested path
  | deviceProgrammed serial signer certPath => exact prepared_deviceProgrammed path
  | deviceRead chip serial root signer device => exact prepared_deviceRead path
  | keyed serial signer =>
      obtain ⟨rfl, same⟩ := Session.path_pure_iff.1 path
      cases same
      exact .keyed serial signer
  | deviceDefined serial signer deviceText certPath =>
      obtain ⟨rfl, same⟩ := Session.path_pure_iff.1 path
      cases same
      exact .deviceDefined serial signer deviceText certPath
  | signerDefined serial signer certPath =>
      obtain ⟨rfl, same⟩ := Session.path_pure_iff.1 path
      cases same
      exact .signerDefined serial signer certPath
  | signerProgrammed serial certPath =>
      obtain ⟨rfl, same⟩ := Session.path_pure_iff.1 path
      cases same
      exact .signerProgrammed serial certPath
  | rootRead chip serial root =>
      obtain ⟨rfl, same⟩ := Session.path_pure_iff.1 path
      cases same
      exact .rootRead chip serial root
  | signerRead chip serial root signer =>
      obtain ⟨rfl, same⟩ := Session.path_pure_iff.1 path
      cases same
      exact .signerRead chip serial root signer

end SecureElement.Provisioning
