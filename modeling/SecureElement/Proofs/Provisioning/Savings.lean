import SecureElement.Proofs.Provisioning.Payloads

/-!
What a run writes to files.

Files are written at two stages only. A request that has come is signed at the time that the clock then
tells, and the certificate is saved at once (`savings_of_path_requested`); certificates that have been read are
recorded in two files, the manifest first (`savings_of_path_deviceRead`). Everywhere else nothing is written, so
these are all files that a run writes (`Ended.savings_of_requested`, `Ended.savings_of_deviceRead`,
`Ended.savings_eq_nil`).
-/

namespace SecureElement.Provisioning

open Authority
open Dialogue (sent)

/-! ### Tries to write a file -/

/-- A try to write a file, and whether it was written. -/
structure Saving where
  path : String
  content : Octets
  done : Bool
  deriving DecidableEq, Repr

/-- The try to write a file in a step. -/
def saving? : Dialogue.Step → Option Saving
  | ⟨.writeFile path content, done⟩ => some ⟨path, content, done⟩
  | _ => none

/-- The tries to write a file in these steps, in their order. -/
def savings (steps : List Dialogue.Step) : List Saving :=
  steps.filterMap saving?

theorem savings_append (first second : List Dialogue.Step) :
    savings (first ++ second) = savings first ++ savings second :=
  List.filterMap_append

theorem savings_logged (level : Level) (text : String) (steps : List Dialogue.Step) :
    savings (logged level text :: steps) = savings steps := rfl

theorem savings_writeFile (path : String) (content : Octets) (done : Bool)
    (steps : List Dialogue.Step) :
    savings (⟨.writeFile path content, done⟩ :: steps) = ⟨path, content, done⟩ :: savings steps := rfl

theorem savings_eq_nil {steps : List Dialogue.Step} (keeps : ∀ step ∈ steps, KeepsFiles step.query) :
    savings steps = [] := by
  refine List.filterMap_eq_nil_iff.2 fun step member => ?_
  have other := keeps step member
  obtain ⟨q, answer⟩ := step
  cases q with
  | writeFile path content => exact absurd rfl (other path content)
  | _ => rfl

variable {config : RunConfig} {reads : Nat} {rounds : List Round} {steps tail : List Dialogue.Step}

/-! ### Between two commands -/

/-- Nothing is written but at two stages. -/
theorem keepsFiles_prepare {n : Nat} {stage : Stage n} (quiet : ¬ stage.Writes) :
    Session.Asks KeepsFiles (stage.prepare config reads) := by
  apply asks_prepare
  case writes => exact fun writes => absurd writes quiet
  all_goals simp [KeepsFiles]

/-- The path of the file for the device's certificate. -/
def deviceCertPath (config : RunConfig) : String :=
  joinPath config.outputDir deviceCertName

/-- The path of the file for a manifest. -/
def manifestPath (config : RunConfig) (uniqueId : String) : String :=
  joinPath config.outputDir (manifestName uniqueId)

/-- The path of the file for the root certificate of a recorded chip. -/
def rootCertPath (config : RunConfig) (uniqueId : String) : String :=
  joinPath config.outputDir (rootCertName uniqueId)

/-- Once a request has come, the clock is read; if the request can be signed then, there is one try to
save the certificate. -/
theorem savings_of_path_requested {serial request : String} {signer : Signer}
    {result : Except ProvisioningFailure (Next 4)}
    (path : Session.Path ((Stage.requested serial signer request).prepare config reads) steps result) :
    ∃ now rest, steps =
        logged .info ("CSR obtained from device is:\n" ++ request) :: ⟨.wallClock, now⟩ :: rest ∧
      ((∃ e, signRequest request signer.certificate signer.key serial config.validForYears now =
            .error e ∧ rest = []) ∨
        ∃ text title done later,
          signRequest request signer.certificate signer.key serial config.validForYears now =
            .ok text ∧
          rest = logged .info title ::
            ⟨.writeFile (deviceCertPath config) (Octets.trimAscii text), done⟩ :: later ∧
          savings later = []) := by
  obtain ⟨rest, rfl, going⟩ := Session.path_log_bind_iff.1 path
  rcases Session.path_bind_iff.1 going with
    ⟨failure, issuing, -⟩ | ⟨issuing, ⟨deviceText, certPath⟩, later, rfl, certified, locking⟩
  · obtain ⟨now, rest, rfl, signing⟩ := Session.path_query_bind_iff.1 issuing
    refine ⟨now, rest, rfl, ?_⟩
    rcases path_signing_bind_iff.1 signing with ⟨e, refused, rfl, -⟩ | ⟨text, signed, logging⟩
    · exact .inl ⟨e, refused, rfl⟩
    · obtain ⟨certificate, -, rfl⟩ := signRequest_eq_ok_iff.1 signed
      have content := Octets.encode_trim_toAscii (plain_certificateText certificate)
      obtain ⟨last, rfl, saving⟩ := Session.path_log_bind_iff.1 logging
      rw [content] at saving
      rcases path_writeFile_bind_iff.1 saving with ⟨rfl, -⟩ | ⟨rest, rfl, saved⟩
      · exact .inr ⟨_, _, false, [], signed, rfl, rfl⟩
      · obtain ⟨rest, rfl, finished⟩ := Session.path_log_bind_iff.1 saved
        cases (Session.path_pure_iff.1 finished).2
  · obtain ⟨⟨now, signed, rfl⟩, -⟩ := path_issueDeviceCert_ok certified
    obtain ⟨certificate, -, rfl⟩ := signRequest_eq_ok_iff.1 signed
    obtain ⟨rest, rfl, announcing⟩ := path_lockWarning_iff.1 locking
    obtain ⟨last, rfl, describing⟩ := Session.path_log_bind_iff.1 announcing
    have described : savings last = [] := by
      refine savings_eq_nil (describing.asks ?_)
      exact Session.asks_bind (asks_signing _) fun _ => Session.asks_pure _
    have warning : savings (lockWarning config) = [] := by
      unfold lockWarning
      split <;> rfl
    rw [Octets.encode_trim_toAscii (plain_certificateText certificate)]
    refine ⟨now, _, rfl, .inr ⟨_, _, true,
      logged .info ("Saved device cert to " ++ joinPath config.outputDir deviceCertName) ::
        (lockWarning config ++ logged .info "program device cert" :: last), signed, rfl, ?_⟩⟩
    rw [savings_logged, savings_append, warning, List.nil_append]
    exact described

/-- Certificates that have been read are recorded in two files, if those of the device and its signer are
certificates. -/
theorem savings_of_path_deviceRead {chip : ChipKind} {serial : String} {root signer device : Octets}
    {result : Except ProvisioningFailure (Next 3)}
    (path : Session.Path ((Stage.deviceRead chip serial root signer device).prepare config reads) steps
      result) :
    (∃ e, Manifest.Entry.ofCertificates chip serial device signer = .error e ∧ savings steps = [] ∧
      result = .error (.manifest e)) ∨
    ∃ entry, Manifest.Entry.ofCertificates chip serial device signer = .ok entry ∧
      ((savings steps =
          [⟨manifestPath config entry.uniqueId, Utf8.encode (Manifest.text [entry]), false⟩] ∧
        result = .error (.file (manifestPath config entry.uniqueId))) ∨
      (savings steps =
          [⟨manifestPath config entry.uniqueId, Utf8.encode (Manifest.text [entry]), true⟩,
            ⟨rootCertPath config entry.uniqueId, Pem.encode ⟨certificateLabel, root⟩, false⟩] ∧
        result = .error (.file (rootCertPath config entry.uniqueId))) ∨
      (savings steps =
          [⟨manifestPath config entry.uniqueId, Utf8.encode (Manifest.text [entry]), true⟩,
            ⟨rootCertPath config entry.uniqueId, Pem.encode ⟨certificateLabel, root⟩, true⟩] ∧
        result = .ok (.finish (.recorded chip serial (manifestPath config entry.uniqueId))))) := by
  rcases Session.path_ofExcept_mapError_bind_iff.1 path with ⟨e, refused, rfl, rfl⟩ | ⟨entry, built, writing⟩
  · exact .inl ⟨e, refused, rfl, rfl⟩
  · refine .inr ⟨entry, built, ?_⟩
    rcases path_writeFile_bind_iff.1 writing with ⟨rfl, rfl⟩ | ⟨rest, rfl, writingRoot⟩
    · exact .inl ⟨rfl, rfl⟩
    · rcases path_writeFile_bind_iff.1 writingRoot with ⟨rfl, rfl⟩ | ⟨last, rfl, wrote⟩
      · exact .inr (.inl ⟨rfl, rfl⟩)
      · obtain ⟨none, rfl, finished⟩ := Session.path_log_bind_iff.1 wrote
        obtain ⟨rfl, rfl⟩ := Session.path_pure_iff.1 finished
        exact .inr (.inr ⟨rfl, rfl⟩)

/-! ### Whole runs -/

theorem savings_rounds_eq_nil (each : ∀ round ∈ rounds, savings round.steps = []) :
    savings (rounds.flatMap Round.steps) = [] := by
  induction rounds with
  | nil => rfl
  | cons round later ih =>
      rw [List.flatMap_cons, savings_append, each round (by simp),
        ih fun other member => each other (by simp [member])]
      rfl

/-- Only a round that comes from a request writes a file. -/
theorem Due.savings_eq_nil {earlier : List Round} {round : Round} (due : Due config reads earlier round)
    (unrequested : ∀ serial signer request,
      ¬ Reached config reads earlier (.requested serial signer request)) :
    savings round.steps = [] := by
  obtain ⟨n, stage, learn, reached, sends⟩ := due
  obtain ⟨earlierSteps, command, payload, during, outcome⟩ := round
  have quiet : ¬ stage.Writes := by
    intro writes
    cases stage with
    | requested serial signer request => exact unrequested serial signer request reached
    | deviceRead chip serial root signer device => cases Stage.prepared_of_path sends.prepared
    | _ => exact writes
  have before := Provisioning.savings_eq_nil (sends.prepared.asks (keepsFiles_prepare quiet))
  have exchange := Provisioning.savings_eq_nil (sends.exchanged.asks (keepsFiles_exec _ _ _ _))
  rw [Round.steps, savings_append, before, exchange]
  rfl

theorem not_requested_of_length {earlier : List Round} (place : earlier.length ≠ 4) :
    ∀ serial signer request, ¬ Reached config reads earlier (.requested serial signer request) := by
  intro serial signer request reached
  have := reached.length
  omega

/-- Nothing is written after the last round, unless the run ends at one of the two stages. -/
theorem Ended.savings_tail {result : Except ProvisioningFailure Outcome}
    (ended : Ended config reads rounds tail result)
    (unrequested : ∀ serial signer request,
      ¬ Reached config reads rounds (.requested serial signer request))
    (unread : ∀ chip serial root signer device,
      ¬ Reached config reads rounds (.deviceRead chip serial root signer device)) :
    savings tail = [] := by
  have quiet : ∀ {n : Nat} {stage : Stage n}, Reached config reads rounds stage → ¬ stage.Writes := by
    intro n stage reached writes
    cases stage with
    | requested serial signer request => exact unrequested _ _ _ reached
    | deviceRead chip serial root signer device => exact unread _ _ _ _ _ reached
    | _ => exact writes
  cases ended with
  | finished reached path => exact savings_eq_nil (path.asks (keepsFiles_prepare (quiet reached)))
  | stopped reached path => exact savings_eq_nil (path.asks (keepsFiles_prepare (quiet reached)))
  | broken | refused | unlearnt => rfl

/-- A chip that has made a request is not one that came with certificates. -/
theorem Reached.not_deviceRead {first : List Round} {serial request : String} {signer : Signer}
    (reached : Reached config reads first (.requested serial signer request)) (start : first <+: rounds) :
    ∀ chip serial root signer device,
      ¬ Reached config reads rounds (.deviceRead chip serial root signer device) := by
  intro chip serial' root signerCert device recorded
  obtain ⟨rest, round, body, rfl, again, -⟩ := recorded.of_deviceRead
  have here := reached.length
  have there := again.length
  have same : first = rest := by
    rcases List.prefix_concat_iff.1 start with whole | inside
    · have lengths := congrArg List.length whole
      rw [List.length_append, List.length_singleton] at lengths
      omega
    · exact inside.eq_of_length (by omega)
  subst same
  cases reached.unique again

/-- Nothing is written before a request has come. -/
theorem Reached.savings_eq_nil {first : List Round} {serial request : String} {signer : Signer}
    (reached : Reached config reads first (.requested serial signer request)) :
    savings (first.flatMap Round.steps) = [] := by
  refine savings_rounds_eq_nil fun round member => ?_
  obtain ⟨earlier, later, cut⟩ := List.append_of_mem member
  refine (reached.due cut).savings_eq_nil (not_requested_of_length ?_)
  have here := reached.length
  rw [cut, List.length_append, List.length_cons] at here
  omega

/-- A run in which a request has come reads the clock and tries to save the certificate, if the request
can be signed then. It writes nothing else. -/
theorem Ended.savings_of_requested {result : Except ProvisioningFailure Outcome} {first : List Round}
    {serial request : String} {signer : Signer} (ended : Ended config reads rounds tail result)
    (reached : Reached config reads first (.requested serial signer request)) (start : first <+: rounds) :
    ∃ now after, rounds.flatMap Round.steps ++ tail = first.flatMap Round.steps ++
        logged .info ("CSR obtained from device is:\n" ++ request) :: ⟨.wallClock, now⟩ :: after ∧
      ((∃ e, signRequest request signer.certificate signer.key serial config.validForYears now =
            .error e ∧ savings (rounds.flatMap Round.steps ++ tail) = []) ∨
        ∃ text title done later,
          signRequest request signer.certificate signer.key serial config.validForYears now =
            .ok text ∧
          after = logged .info title ::
            ⟨.writeFile (deviceCertPath config) (Octets.trimAscii text), done⟩ :: later ∧
          savings (rounds.flatMap Round.steps ++ tail) =
            [⟨deviceCertPath config, Octets.trimAscii text, done⟩]) := by
  -- The stage is gone through, and nothing is written in what comes after it.
  have gone : ∃ steps more result, rounds.flatMap Round.steps ++ tail =
      first.flatMap Round.steps ++ (steps ++ more) ∧ savings more = [] ∧
      Session.Path ((Stage.requested serial signer request).prepare config reads) steps result := by
    rcases ended.at_stage reached start with
      ⟨rfl, ⟨outcome, path, -⟩ | ⟨failure, path, -⟩⟩ | ⟨round, later, next, rfl, path⟩
    · exact ⟨tail, [], _, by simp, rfl, path⟩
    · exact ⟨tail, [], _, by simp, rfl, path⟩
    · have four := reached.length
      have each : ∀ other ∈ later, savings other.steps = [] := by
        intro other member
        obtain ⟨between, rest, rfl⟩ := List.append_of_mem member
        have cut : first ++ round :: (between ++ other :: rest) =
            (first ++ round :: between) ++ other :: rest := by simp
        refine (ended.due cut).savings_eq_nil (not_requested_of_length ?_)
        rw [List.length_append, List.length_cons]
        omega
      have last : savings tail = [] := by
        refine ended.savings_tail (not_requested_of_length ?_) (reached.not_deviceRead start)
        rw [List.length_append, List.length_cons]
        omega
      obtain ⟨n, stage, learn, -, sends⟩ := ended.due rfl
      have during := Provisioning.savings_eq_nil (sends.exchanged.asks (keepsFiles_exec _ _ _ _))
      refine ⟨round.before, round.during ++ later.flatMap Round.steps ++ tail, _, ?_, ?_, path⟩
      · simp [Round.steps]
      · rw [savings_append, savings_append, during, savings_rounds_eq_nil each, last]
        rfl
  obtain ⟨steps, more, result, cut, quiet, path⟩ := gone
  obtain ⟨now, rest, rfl, outcome⟩ := savings_of_path_requested path
  refine ⟨now, rest ++ more, cut, ?_⟩
  rw [cut, savings_append, reached.savings_eq_nil, List.nil_append, savings_append, quiet, List.append_nil,
    savings_logged]
  rcases outcome with ⟨e, refused, rfl⟩ | ⟨text, title, done, later, signed, rfl, nothing⟩
  · exact .inl ⟨e, refused, rfl⟩
  · refine .inr ⟨text, title, done, later ++ more, signed, rfl, ?_⟩
    have whole : savings (⟨.wallClock, now⟩ :: logged .info title ::
        ⟨.writeFile (deviceCertPath config) (Octets.trimAscii text), done⟩ :: later) =
        ⟨deviceCertPath config, Octets.trimAscii text, done⟩ :: savings later := rfl
    rw [whole, nothing]

/-- A run in which the certificates of a chip have been read writes what it writes at its last stage. -/
theorem Ended.savings_of_deviceRead {result : Except ProvisioningFailure Outcome} {chip : ChipKind}
    {serial : String} {root signer device : Octets} (ended : Ended config reads rounds tail result)
    (reached : Reached config reads rounds (.deviceRead chip serial root signer device)) :
    savings (rounds.flatMap Round.steps) = [] ∧
      ∃ next, Session.Path ((Stage.deviceRead chip serial root signer device).prepare config reads) tail
        next ∧ ∀ outcome, result = .ok outcome ↔ next = .ok (.finish outcome) := by
  constructor
  · refine savings_rounds_eq_nil fun round member => ?_
    obtain ⟨earlier, later, cut⟩ := List.append_of_mem member
    refine (reached.due cut).savings_eq_nil fun serial' signer' request requested => ?_
    exact requested.not_deviceRead ⟨round :: later, cut.symm⟩ _ _ _ _ _ reached
  · rcases ended.at_stage reached (List.prefix_refl _) with
      ⟨-, ⟨outcome, path, rfl⟩ | ⟨failure, path, rfl⟩⟩ | ⟨round, later, next, cut, -⟩
    · exact ⟨_, path, by simp⟩
    · exact ⟨_, path, by simp⟩
    · simp at cut

/-- A run that comes to neither stage writes nothing. -/
theorem Ended.savings_eq_nil {result : Except ProvisioningFailure Outcome}
    (ended : Ended config reads rounds tail result)
    (unrequested : ∀ first serial signer request, first <+: rounds →
      ¬ Reached config reads first (.requested serial signer request))
    (unread : ∀ chip serial root signer device,
      ¬ Reached config reads rounds (.deviceRead chip serial root signer device)) :
    savings (rounds.flatMap Round.steps ++ tail) = [] := by
  have each : ∀ round ∈ rounds, savings round.steps = [] := by
    intro round member
    obtain ⟨earlier, later, rfl⟩ := List.append_of_mem member
    exact (ended.due rfl).savings_eq_nil fun _ _ _ => unrequested _ _ _ _ (List.prefix_append _ _)
  rw [savings_append, savings_rounds_eq_nil each,
    ended.savings_tail (fun _ _ _ => unrequested _ _ _ _ (List.prefix_refl _)) unread]
  rfl

end SecureElement.Provisioning
