import SecureElement.Proofs.Authority.Issuing
import SecureElement.Proofs.Provisioning.CommandOrder
import SecureElement.Proofs.Provisioning.Payloads

/-!
Refusals after a key was generated.

The authority's material is loaded before the chip is changed, but not all of it is looked at then. When
a chip that does everything right has generated its key, a run can still end because nothing is issued
(`Authority.Unsignable`), or, with the device's certificate already in its slot, because the signer's
certificate cannot be described; and it ends with an error of signing for no other reason
(`run_signing_failure_iff`).
-/

namespace SecureElement.Provisioning

open Authority X509
open Dialogue (sent)

/-! ### Stages with a key -/

/-- The stages after a key was generated. -/
def Stage.Keyed : {n : Nat} → Stage n → Prop
  | _, .keyed .. | _, .requested .. | _, .deviceDefined .. | _, .deviceProgrammed ..
  | _, .signerDefined .. | _, .signerProgrammed .. => True
  | _, _ => False

variable {config : RunConfig} {reads : Nat} {rounds : List Round} {tail : List Dialogue.Step}
  {result : Except ProvisioningFailure Outcome}

/-- The chip has a key if it was told to generate one. -/
theorem Reached.keyed_of_mem {n : Nat} {stage : Stage n} (reached : Reached config reads rounds stage)
    {generate : Round} {slot : Nat} (member : generate ∈ rounds)
    (keys : generate.command = .generateKeys slot) : stage.Keyed := by
  have follows := reached.follows
  obtain ⟨place, bound, here⟩ := List.getElem_of_mem member
  have listed : (commandsFor config stage.chip?)[place]? = some (.generateKeys slot) := by
    have mapped := congrArg (·[place]?) follows.commands
    simp only [List.getElem?_map, List.getElem?_eq_getElem bound, here, Option.map_some, keys,
      Command.withoutLength, List.getElem?_take_of_lt bound] at mapped
    exact mapped.symm
  have third := generateKeys_place listed
  subst third
  have length := follows.length
  have fits := follows.fits
  cases stage with
  | start | detected | identified => omega
  | keyed | requested | deviceDefined | deviceProgrammed | signerDefined | signerProgrammed =>
      trivial
  | rootRead | signerRead | deviceRead =>
      rw [Stage.chip?, commandsFor_other fits] at listed
      cases listed

/-- With a key every response takes the run on, if the one to the command for the request holds it. -/
theorem Stage.Sends.learns_of_keys {n : Nat} {stage : Stage (n + 1)} {round generate : Round}
    {learn : String → Except ProvisioningFailure (Stage n)} {slot : Nat} {body : String}
    (sends : stage.Sends config reads round learn) (reached : Reached config reads rounds stage)
    (member : generate ∈ rounds ++ [round]) (keys : generate.command = .generateKeys slot)
    (holds : round.command = .generateRequest →
      ∃ request, Report.requestBlock body = some request) :
    ∃ after, learn body = .ok after := by
  obtain ⟨before, command, payload, during, outcome⟩ := round
  rcases List.mem_append.1 member with inside | last
  · have keyed := reached.keyed_of_mem inside keys
    cases Stage.prepared_of_path sends.prepared with
    | start | detected | blank | provisioned | rootRead | signerRead => cases keyed
    | keyed serial signer =>
        obtain ⟨request, answered⟩ := holds rfl
        exact ⟨.requested serial signer request, found_eq_ok.2 ⟨request, answered, rfl⟩⟩
    | requested | deviceDefined | deviceProgrammed | signerDefined => exact ⟨_, rfl⟩
  · obtain rfl := List.mem_singleton.1 last
    have listed := (sends.next reached.follows.fits).1
    rw [keys] at listed
    have third : n = 5 := by
      have place := generateKeys_place listed
      omega
    subst third
    cases keys
    cases stage with
    | identified chip serial =>
        cases Stage.prepared_of_path sends.prepared with
        | blank => exact ⟨_, rfl⟩

/-- With a key and a device that does everything right, a run ends between two commands: before one of
the definitions, or with the chip provisioned. -/
theorem Ended.cases_of_keys (ended : Ended config reads rounds tail result)
    {generate : Round} {slot : Nat} (member : generate ∈ rounds)
    (keys : generate.command = .generateKeys slot)
    (succeeded : ∀ round ∈ rounds, ∃ body, round.body? = some body)
    (requests : ∀ round ∈ rounds, ∀ body, round.command = .generateRequest →
      round.body? = some body → ∃ request, Report.requestBlock body = some request) :
    (∃ serial signer request failure,
      Reached config reads rounds (.requested serial signer request) ∧ result = .error failure ∧
      Session.Path ((Stage.requested serial signer request).prepare config reads) tail
        (.error failure)) ∨
    (∃ serial signer path failure,
      Reached config reads rounds (.deviceProgrammed serial signer path) ∧
      result = .error failure ∧
      Session.Path ((Stage.deviceProgrammed serial signer path).prepare config reads) tail
        (.error failure)) ∨
    ∃ serial path outcome,
      Reached config reads rounds (.signerProgrammed serial path) ∧ result = .ok outcome := by
  rcases ended.cases_of_succeeded succeeded with
    ⟨n, stage, outcome, reached, path, rfl⟩ | ⟨n, stage, failure, reached, path, rfl⟩ |
    ⟨n, stage, earlier, round, learn, body, failure, rfl, reached, sends, told, learnt⟩
  · have keyed := reached.keyed_of_mem member keys
    cases Stage.prepared_of_path path with
    | chipInfo | deviceRead => cases keyed
    | signerProgrammed serial certPath => exact .inr (.inr ⟨serial, certPath, _, reached, rfl⟩)
  · have keyed := reached.keyed_of_mem member keys
    cases stage with
    | start | detected | identified | rootRead | signerRead | deviceRead => cases keyed
    | keyed | deviceDefined | signerDefined | signerProgrammed =>
        cases (Session.path_pure_iff.1 path).2
    | requested serial signer request =>
        exact .inl ⟨serial, signer, request, failure, reached, rfl, path⟩
    | deviceProgrammed serial signer certPath =>
        exact .inr (.inl ⟨serial, signer, certPath, failure, reached, rfl, path⟩)
  · exfalso
    obtain ⟨after, learnt'⟩ := sends.learns_of_keys reached member keys fun asked =>
      requests round (by simp) body asked told
    rw [learnt] at learnt'
    cases learnt'

/-! ### A chip that does everything right -/

/-- Every response tells success. The serial number that the chip reports is not zero; its request is
well formed, signed by the key that it carries, and that key is a point with both coordinates. -/
structure SoundDevice (rounds : List Round) (serial : String) (request : Request) : Prop where
  succeeded : ∀ round ∈ rounds, ∃ body, round.body? = some body
  reported : ∀ round ∈ rounds, ∀ body, round.command = .printChipInfo → round.body? = some body →
    Report.serialNumber body = some serial
  nonzero : serial ≠ "000000000000000000"
  requested : ∀ round ∈ rounds, ∀ body, round.command = .generateRequest →
    round.body? = some body →
    ∃ text, Report.requestBlock body = some text ∧ parseRequest text = .ok request
  verified : verifyRequest request = .ok ()
  point : CertDefinition.isUncompressedPoint request.info.publicKey.key.octets = true

theorem SoundDevice.of_subset {rounds fewer : List Round} {serial : String} {request : Request}
    (sound : SoundDevice rounds serial request) (subset : ∀ round ∈ fewer, round ∈ rounds) :
    SoundDevice fewer serial request where
  succeeded := fun round member => sound.succeeded round (subset round member)
  reported := fun round member => sound.reported round (subset round member)
  nonzero := sound.nonzero
  requested := fun round member => sound.requested round (subset round member)
  verified := sound.verified
  point := sound.point

/-- What is known when a sound request has been obtained: the request itself, what the authority signs
with, and that no file has been written. -/
theorem Reached.sound_of_requested {serial reported text : String} {request : Request}
    {signer : Signer} (reached : Reached config reads rounds (.requested serial signer text))
    (sound : SoundDevice rounds reported request) :
    serial = reported ∧ parseRequest text = .ok request ∧
      (∃ s, parseSerial serial = .ok s) ∧
      (∃ loading, LoadedBy config loading signer ∧ loading <:+: rounds.flatMap Round.steps) ∧
      ∀ step ∈ rounds.flatMap Round.steps, KeepsFiles step.query := by
  obtain ⟨rest₁, ask, body₁, rfl, reached, asked, found⟩ := reached.of_requested
  obtain ⟨rest₂, generate, loading, body₂, rfl, reached, loaded, generated⟩ := reached.of_keyed
  obtain ⟨rest₃, report, body₃, rfl, reached, told, number⟩ := reached.of_identified
  obtain ⟨init, body₄, rfl, waited, started, -⟩ := reached.of_detected
  have same : Report.serialNumber body₃ = some reported :=
    sound.reported report (by simp) body₃ told.command told.told
  rw [number] at same
  cases same
  obtain ⟨text', block, parsed⟩ := sound.requested ask (by simp) body₁ asked.command asked.told
  rw [found] at block
  cases block
  refine ⟨rfl, parsed, parseSerial_of_serialNumber number sound.nonzero, ⟨loading, loaded, ?_⟩, ?_⟩
  · exact generated.middle_within (by simp)
  · have waiting : Session.Asks KeepsFiles (awaitDevice config reads) :=
      asks_awaitDevice config reads (by simp [KeepsFiles]) (by simp [KeepsFiles])
        (by simp [KeepsFiles])
    have exchange := keepsFiles_exec config.exchange reads
    have first := started.asks exchange (waited.asks waiting)
    have second := told.asks exchange (by simp [KeepsFiles, logged])
    have third := generated.asks exchange (by
      obtain ⟨keyContent, keyText, rfl, -⟩ := loaded
      simp [KeepsFiles, logged])
    have fourth := asked.asks exchange (by simp)
    intro step member
    simp only [List.flatMap_append, List.flatMap_singleton, List.mem_append] at member
    rcases member with ((inside | inside) | inside) | inside
    · exact first step inside
    · exact second step inside
    · exact third step inside
    · exact fourth step inside

/-! ### How a run fails between two commands -/

/-- Before the first definition a run fails because nothing is issued, because the certificate cannot
be saved, or because it cannot be described. -/
theorem failed_requested {serial text : String} {signer : Signer} {steps : List Dialogue.Step}
    {failure : ProvisioningFailure}
    (failed : Session.Path ((Stage.requested serial signer text).prepare config reads) steps
      (.error failure)) :
    ∃ now, (⟨.wallClock, now⟩ : Dialogue.Step) ∈ steps ∧
      ((∃ e, issue text signer.certificate signer.key serial config.validForYears now = .error e ∧
          failure = .signing e ∧ stored (joinPath config.outputDir deviceCertName) steps = none) ∨
        ∃ certificate,
          issue text signer.certificate signer.key serial config.validForYears now =
            .ok certificate ∧
          ((failure = .file (joinPath config.outputDir deviceCertName) ∧
              stored (joinPath config.outputDir deviceCertName) steps = none) ∨
            ∃ e, CertDefinition.ofText (certificateText certificate) .device = .error e)) := by
  obtain ⟨rest, rfl, path⟩ := Session.path_log_bind_iff.1 failed
  rcases Session.path_bind_iff.1 path with
    ⟨failure, issuing, same⟩ | ⟨issuing, ⟨deviceText, certPath⟩, later, rfl, certified, locking⟩
  · cases same
    obtain ⟨now, rest, rfl, signing⟩ := Session.path_query_bind_iff.1 issuing
    refine ⟨now, by simp, ?_⟩
    rcases path_signing_bind_iff.1 signing with ⟨e, refused, rfl, same⟩ | ⟨deviceText, signed, logging⟩
    · cases same
      exact .inl ⟨e, signRequest_eq_error_iff.1 refused, rfl, rfl⟩
    · obtain ⟨certificate, issued, rfl⟩ := signRequest_eq_ok_iff.1 signed
      obtain ⟨last, rfl, saving⟩ := Session.path_log_bind_iff.1 logging
      rcases path_writeFile_bind_iff.1 saving with ⟨rfl, same⟩ | ⟨rest, rfl, saved⟩
      · cases same
        exact .inr ⟨certificate, issued, .inl ⟨rfl, rfl⟩⟩
      · obtain ⟨rest, rfl, finished⟩ := Session.path_log_bind_iff.1 saved
        cases (Session.path_pure_iff.1 finished).2
  · obtain ⟨⟨now, signed, rfl⟩, rfl⟩ := path_issueDeviceCert_ok certified
    obtain ⟨certificate, issued, rfl⟩ := signRequest_eq_ok_iff.1 signed
    refine ⟨now, by simp, .inr ⟨certificate, issued, .inr ?_⟩⟩
    obtain ⟨rest, rfl, announcing⟩ := path_lockWarning_iff.1 locking
    obtain ⟨last, rfl, describing⟩ := Session.path_log_bind_iff.1 announcing
    rcases path_signing_bind_iff.1 describing with ⟨e, refused, -, -⟩ | ⟨definition, -, finished⟩
    · exact ⟨e, refused⟩
    · cases (Session.path_pure_iff.1 finished).2

/-- After a sound request a run that fails before the first definition fails with an error of signing
exactly if the authority cannot sign, and nothing is saved. -/
theorem Reached.signing_failure_of_requested {serial reported text : String} {request : Request}
    {signer : Signer} {failure : ProvisioningFailure}
    (reached : Reached config reads rounds (.requested serial signer text))
    (sound : SoundDevice rounds reported request)
    (failed : Session.Path ((Stage.requested serial signer text).prepare config reads) tail
      (.error failure)) :
    ∃ loading now, LoadedBy config loading signer ∧
      loading <:+: rounds.flatMap Round.steps ∧ (⟨.wallClock, now⟩ : Dialogue.Step) ∈ tail ∧
      ((∃ e, failure = .signing e) ↔
        Unsignable request signer.certificate signer.key reported config.validForYears now) ∧
      stored (joinPath config.outputDir deviceCertName) (rounds.flatMap Round.steps ++ tail) =
        none := by
  obtain ⟨rfl, parsed, ⟨s, numbered⟩, ⟨loading, loaded, inside⟩, keeps⟩ :=
    reached.sound_of_requested sound
  obtain ⟨now, clock, outcome⟩ := failed_requested failed
  refine ⟨loading, now, loaded, inside, clock, ?_⟩
  rw [stored_append, stored_eq_none keeps, Option.or_none]
  rcases outcome with ⟨e, refused, rfl, unsaved⟩ | ⟨certificate, issued, ⟨rfl, unsaved⟩ | ⟨e, refused⟩⟩
  · refine ⟨iff_of_true ⟨e, rfl⟩ ?_, unsaved⟩
    exact (issue_eq_error_iff parsed sound.verified numbered).1 ⟨e, refused⟩
  · refine ⟨iff_of_false ?_ (not_unsignable_of_issue parsed issued), unsaved⟩
    rintro ⟨e, ⟨⟩⟩
  · -- The certificate was issued, so it can be described.
    exfalso
    obtain ⟨-, -, -, -, -, accepted⟩ := loaded
    obtain ⟨definition, described⟩ :=
      exists_definition_of_issue parsed sound.point issued .device
    have text := ofText_eq_ok_iff.2 ⟨_, decodePem_certificateText certificate, described⟩
    rw [refused] at text
    cases text

/-- Before the second definition a run fails because the signer's certificate cannot be described. -/
theorem failed_deviceProgrammed {serial path : String} {signer : Signer}
    {steps : List Dialogue.Step} {failure : ProvisioningFailure}
    (failed : Session.Path ((Stage.deviceProgrammed serial signer path).prepare config reads) steps
      (.error failure)) :
    ∃ e, CertDefinition.ofText signer.certificateText .signer = .error e ∧ failure = .signing e := by
  obtain ⟨rest, rfl, announcing⟩ := Session.path_log_bind_iff.1 failed
  obtain ⟨last, rfl, describing⟩ := Session.path_log_bind_iff.1 announcing
  rcases path_signing_bind_iff.1 describing with ⟨e, refused, -, same⟩ | ⟨definition, -, finished⟩
  · cases same
    exact ⟨e, refused, rfl⟩
  · cases (Session.path_pure_iff.1 finished).2

/-- What is known once the device's certificate is in its slot: it was issued and saved. -/
theorem Reached.sound_of_deviceProgrammed {serial reported path : String} {request : Request}
    {signer : Signer} (reached : Reached config reads rounds (.deviceProgrammed serial signer path))
    (sound : SoundDevice rounds reported request) :
    (∃ loading, LoadedBy config loading signer ∧ loading <:+: rounds.flatMap Round.steps) ∧
      (∃ now, (⟨.wallClock, now⟩ : Dialogue.Step) ∈ rounds.flatMap Round.steps ∧
        ¬ Unsignable request signer.certificate signer.key reported config.validForYears now) ∧
      (stored (joinPath config.outputDir deviceCertName) (rounds.flatMap Round.steps)).isSome := by
  obtain ⟨earlier, program, deviceText, -, rfl, reached, -⟩ := reached.of_deviceProgrammed
  obtain ⟨-, -, -, saved⟩ := reached.device_given
  obtain ⟨first, define, text, issuing, definition, body, rfl, reached, issued, -, -, defined⟩ :=
    reached.of_deviceDefined
  obtain ⟨rfl, parsed, ⟨s, numbered⟩, ⟨loading, loaded, inside⟩, -⟩ :=
    reached.sound_of_requested (sound.of_subset (by simp +contextual))
  obtain ⟨now, signed, listed⟩ := issued
  obtain ⟨certificate, issue, -⟩ := signRequest_eq_ok_iff.1 signed
  refine ⟨⟨loading, loaded, ?_⟩, ⟨now, ?_, ?_⟩, ?_⟩
  · rw [List.flatMap_append, List.flatMap_append, List.append_assoc]
    exact inside.trans (List.prefix_append _ _).isInfix
  · have clock : (⟨.wallClock, now⟩ : Dialogue.Step) ∈ define.before := by
      rw [defined.before, listed]
      simp
    exact (Round.before_within (by simp)).subset clock
  · exact not_unsignable_of_issue parsed issue
  · rw [List.flatMap_append, stored_append, saved]
    simp

/-! ### Runs -/

theorem Ended.signing_failure_iff (ended : Ended config reads rounds tail result)
    {generate : Round} {slot : Nat} (member : generate ∈ rounds)
    (keys : generate.command = .generateKeys slot) {serial : String} {request : Request}
    (sound : SoundDevice rounds serial request) :
    ∃ loading signer now, LoadedBy config loading signer ∧
      loading <:+: rounds.flatMap Round.steps ∧
      (⟨.wallClock, now⟩ : Dialogue.Step) ∈ rounds.flatMap Round.steps ++ tail ∧
      ((∃ e, result = .error (.signing e)) ↔
        Unsignable request signer.certificate signer.key serial config.validForYears now ∨
        (stored (joinPath config.outputDir deviceCertName)
            (rounds.flatMap Round.steps ++ tail)).isSome ∧
          ∀ definition, ¬ Describes signer.certificateText .signer definition) := by
  have requests : ∀ round ∈ rounds, ∀ body, round.command = .generateRequest →
      round.body? = some body → ∃ text, Report.requestBlock body = some text := by
    intro round inside body command answered
    obtain ⟨text, block, -⟩ := sound.requested round inside body command answered
    exact ⟨text, block⟩
  rcases ended.cases_of_keys member keys sound.succeeded requests with
    ⟨reported, signer, text, failure, reached, rfl, failed⟩ |
    ⟨reported, signer, path, failure, reached, rfl, failed⟩ |
    ⟨reported, path, outcome, reached, rfl⟩
  · obtain ⟨loading, now, loaded, inside, clock, refused, unsaved⟩ :=
      reached.signing_failure_of_requested sound failed
    refine ⟨loading, signer, now, loaded, inside, List.mem_append_right _ clock, ?_⟩
    rw [unsaved]
    simpa using refused
  · obtain ⟨⟨loading, loaded, inside⟩, ⟨now, clock, signable⟩, saved⟩ :=
      reached.sound_of_deviceProgrammed sound
    obtain ⟨e, refused, rfl⟩ := failed_deviceProgrammed failed
    refine ⟨loading, signer, now, loaded, inside, List.mem_append_left _ clock, ?_⟩
    refine iff_of_true ⟨e, rfl⟩ (.inr ⟨?_, ?_⟩)
    · rw [stored_append, Option.isSome_or, saved, Bool.or_true]
    · intro definition describes
      rw [ofText_eq_ok_iff.2 describes] at refused
      cases refused
  · obtain ⟨first, program, signer, -, rfl, reached, -⟩ := reached.of_signerProgrammed
    obtain ⟨second, define, definition, -, rfl, reached, described, -⟩ := reached.of_signerDefined
    obtain ⟨⟨loading, loaded, inside⟩, ⟨now, clock, signable⟩, -⟩ :=
      reached.sound_of_deviceProgrammed (sound.of_subset (by simp +contextual))
    have part : second.flatMap Round.steps <:+:
        (second ++ [define] ++ [program]).flatMap Round.steps := by
      rw [List.flatMap_append, List.flatMap_append, List.append_assoc]
      exact (List.prefix_append _ _).isInfix
    refine ⟨loading, signer, now, loaded, inside.trans part,
      List.mem_append_left _ (part.subset clock), iff_of_false ?_ ?_⟩
    · rintro ⟨e, ⟨⟩⟩
    · rintro (unsignable | ⟨-, undescribed⟩)
      · exact signable unsignable
      · exact undescribed definition (ofText_eq_ok_iff.1 described)

/-- For every device, file system and clock: if the chip was told to generate its key and does
everything right, a run that goes on ends with an error of signing exactly if the authority cannot sign
with what was loaded, or if the device's certificate was saved and the signer's cannot be described. -/
theorem run_signing_failure_iff {σ : Type} (config : RunConfig) (reads : Nat)
    (surroundings : Dialogue.Surroundings σ) (s : σ) :
    ∃ rounds tail,
      Dialogue.transcript surroundings (run config reads).run s =
        rounds.flatMap Round.steps ++ tail ∧
      sent (Dialogue.transcript surroundings (run config reads).run s) =
        rounds.flatMap Round.sent ∧
      (∀ earlier round later, rounds = earlier ++ round :: later → Due config reads earlier round) ∧
      ∀ generate ∈ rounds, ∀ slot, generate.command = .generateKeys slot →
        ∀ serial request, SoundDevice rounds serial request →
          ∃ loading signer now, LoadedBy config loading signer ∧
            loading <:+: rounds.flatMap Round.steps ∧
            ⟨.wallClock, now⟩ ∈ Dialogue.transcript surroundings (run config reads).run s ∧
            ((∃ e, (Dialogue.run surroundings (run config reads).run s).1 = .error (.signing e)) ↔
              Unsignable request signer.certificate signer.key serial config.validForYears now ∨
              (stored (joinPath config.outputDir deviceCertName)
                  (Dialogue.transcript surroundings (run config reads).run s)).isSome ∧
                ∀ definition, ¬ Describes signer.certificateText .signer definition) := by
  have path : Session.Path (run config reads) _ _ :=
    Dialogue.path_transcript surroundings (run config reads).run s
  obtain ⟨rounds, tail, steps, ended⟩ := ended_of_path path
  refine ⟨rounds, tail, steps, ?_, fun _ _ _ cut => ended.due cut, ?_⟩
  · rw [steps]
    exact ended.sent_eq
  · intro generate member slot keys serial request sound
    rw [steps]
    exact ended.signing_failure_iff member keys sound

end SecureElement.Provisioning
