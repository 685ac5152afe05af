import Mathlib.Data.List.Nodup
import SecureElement.Proofs.Provisioning.Footprint

/-!
Which octets pass for a certificate.

Three certificates are taken from what a chip that came with them reports. Those of the device and its
signer are decoded before anything is written, and a report in which there is none ends the run
(`Ended.refuses_unusable`). The root certificate is not decoded: whether the chip is recorded depends on
the octets of the other two alone (`Ended.recorded_iff`), and the root's are stored as they are. So for every
run it is said when a chip is recorded, and what is recorded of it then (`run_records_chip`).
-/

namespace SecureElement.Provisioning

open Authority X509
open Dialogue (sent)

variable {config : RunConfig} {reads : Nat} {rounds : List Round} {tail : List Dialogue.Step}
  {result : Except ProvisioningFailure Outcome}

/-! ### One report on each command -/

/-- No command is sent twice. -/
theorem nodup_commandsFor (config : RunConfig) (chip : Option ChipKind) :
    (commandsFor config chip).Nodup := by
  rcases chip with _ | _ | _ | _ <;> simp [commandsFor, deviceSlot, signerSlot]

theorem Ended.answered_unique {command : Command} {report other : String}
    (ended : Ended config reads rounds tail result) (here : Answered rounds command report)
    (there : Answered rounds command other) : report = other := by
  obtain ⟨round, member, sent, told⟩ := here
  obtain ⟨round', member', sent', told'⟩ := there
  have once := ended.commands_listed.sublist.nodup (nodup_commandsFor config (chipOf rounds))
  obtain rfl := List.inj_on_of_nodup_map once member member' (by rw [sent, sent'])
  rw [told] at told'
  cases told'
  rfl

/-- A command that was answered is on the list for the chip. -/
theorem Ended.listed_of_answered {command : Command} {report : String}
    (ended : Ended config reads rounds tail result) (answered : Answered rounds command report) :
    command.withoutLength ∈ commandsFor config (chipOf rounds) := by
  obtain ⟨round, member, sent, -⟩ := answered
  exact ended.commands_listed.subset (List.mem_map.2 ⟨round, member, by rw [sent]⟩)

/-! ### What is taken and what is checked -/

/-- The commands that ask for a certificate. -/
def certificateCommands : List Command :=
  [.getRootCert, .getSignerCert, .getDeviceCert]

/-- These octets were taken as a certificate from the report on a command. -/
def TookCertificate (rounds : List Round) (command : Command) (octets : Octets) : Prop :=
  ∃ report, Answered rounds command report ∧ Report.certificate command.text report = .ok octets

/-- A report on a command can be used: octets stand in it as a certificate, and they are one. As root
certificate any octets can be used. -/
def Usable (command : Command) (report : String) : Prop :=
  ∃ octets, Report.certificate command.text report = .ok octets ∧
    (command = .getRootCert ∨ (Certificate.decode octets).isSome)

/-- The three certificates of a chip were taken, those of the device and its signer were decoded, and the
key of the device can be recorded. -/
structure Checked (rounds : List Round) (root signer device : Octets) (certificate : Certificate) :
    Prop where
  tookRoot : TookCertificate rounds .getRootCert root
  tookSigner : TookCertificate rounds .getSignerCert signer
  tookDevice : TookCertificate rounds .getDeviceCert device
  accepted : (Certificate.decode signer).isSome
  decoded : Certificate.decode device = some certificate
  point : CertDefinition.isUncompressedPoint certificate.body.publicKey.key.octets = true

theorem TookCertificate.told {command : Command} {octets : Octets}
    (took : TookCertificate rounds command octets) : ToldCertificate rounds command octets := by
  obtain ⟨report, answered, found⟩ := took
  exact ⟨report, answered, Report.spellsCertificate_of_certificate found⟩

theorem Ended.told_unique {command : Command} {octets other : Octets}
    (ended : Ended config reads rounds tail result) (here : ToldCertificate rounds command octets)
    (there : ToldCertificate rounds command other) : octets = other := by
  obtain ⟨report, answered, spells⟩ := here
  obtain ⟨report', answered', spells'⟩ := there
  obtain rfl := ended.answered_unique answered answered'
  exact spells.unique spells'

/-- What was checked can be used. -/
theorem Checked.usable {root signer device : Octets} {certificate : Certificate} {command : Command}
    (checked : Checked rounds root signer device certificate) (asks : command ∈ certificateCommands) :
    ∃ report, Answered rounds command report ∧ Usable command report := by
  have usable : ∀ {octets : Octets}, TookCertificate rounds command octets →
      (command = .getRootCert ∨ (Certificate.decode octets).isSome) →
      ∃ report, Answered rounds command report ∧ Usable command report := by
    rintro octets ⟨report, answered, found⟩ passes
    exact ⟨report, answered, octets, found, passes⟩
  simp only [certificateCommands, List.mem_cons, List.not_mem_nil, or_false] at asks
  rcases asks with rfl | rfl | rfl
  · exact usable checked.tookRoot (.inl rfl)
  · exact usable checked.tookSigner (.inr checked.accepted)
  · exact usable checked.tookDevice (.inr (Option.isSome_of_eq_some checked.decoded))

/-! ### The stage at which the certificates are checked -/

section

variable {chip : ChipKind} {serial : String} {root signer device : Octets}

theorem Round.Went.tookCertificate {round : Round} {before : List Dialogue.Step} {command : Command}
    {payload : Option Octets} {body : String} {octets : Octets}
    (went : round.Went config reads before command payload body) (member : round ∈ rounds)
    (found : Report.certificate command.text body = .ok octets) : TookCertificate rounds command octets :=
  ⟨body, went.answered member, found⟩

theorem Reached.tookCertificates
    (reached : Reached config reads rounds (.deviceRead chip serial root signer device)) :
    TookCertificate rounds .getRootCert root ∧ TookCertificate rounds .getSignerCert signer ∧
      TookCertificate rounds .getDeviceCert device := by
  obtain ⟨rest₁, askDevice, body₁, rfl, reached, fifth, foundDevice⟩ := reached.of_deviceRead
  obtain ⟨rest₂, askSigner, body₂, rfl, reached, fourth, foundSigner⟩ := reached.of_signerRead
  obtain ⟨rest₃, askRoot, body₃, rfl, -, -, third, foundRoot⟩ := reached.of_rootRead
  exact ⟨third.tookCertificate (by simp) foundRoot, fourth.tookCertificate (by simp) foundSigner,
    fifth.tookCertificate (by simp) foundDevice⟩

/-- Certificates that pass the check lead to an entry, and only they do. -/
theorem Reached.checked_iff
    (reached : Reached config reads rounds (.deviceRead chip serial root signer device)) :
    (∃ certificate, Checked rounds root signer device certificate) ↔
      ∃ entry, Manifest.Entry.ofCertificates chip serial device signer = .ok entry := by
  constructor
  · rintro ⟨certificate, checked⟩
    exact ⟨_, Manifest.Entry.ofCertificates_eq_ok_iff.2
      ⟨certificate, checked.decoded, checked.accepted, checked.point, rfl⟩⟩
  · rintro ⟨entry, built⟩
    obtain ⟨certificate, decoded, accepted, point, -⟩ := Manifest.Entry.ofCertificates_eq_ok_iff.1 built
    obtain ⟨tookRoot, tookSigner, tookDevice⟩ := reached.tookCertificates
    exact ⟨certificate, tookRoot, tookSigner, tookDevice, accepted, decoded, point⟩

/-- A run in which the device's certificate was taken has come to this stage. -/
theorem Ended.reached_of_took (ended : Ended config reads rounds tail result)
    (took : TookCertificate rounds .getDeviceCert device) :
    ∃ chip serial root signer,
      Reached config reads rounds (.deviceRead chip serial root signer device) := by
  obtain ⟨report, ⟨round, member, sent, told⟩, found⟩ := took
  obtain ⟨earlier, later, rfl⟩ := List.append_of_mem member
  obtain ⟨n, stage, learn, reached, sends⟩ := ended.due rfl
  obtain ⟨before, command, payload, during, outcome⟩ := round
  subst sent
  -- Of all stages only the one after the signer's certificate sends this command.
  obtain ⟨chip, serial, root, signer, reached⟩ : ∃ chip serial root signer, Reached config reads
      (earlier ++ [⟨before, .getDeviceCert, payload, during, outcome⟩])
      (.deviceRead chip serial root signer device) := by
    have prepared := Stage.prepared_of_path sends.prepared
    generalize asked : Command.getDeviceCert = command at prepared
    cases prepared with
    | signerRead chip serial root signer =>
        exact ⟨chip, serial, root, signer,
          reached.next sends told (foundCert_eq_ok.2 ⟨device, found, rfl⟩)⟩
    | _ => cases asked
  -- Nothing is sent at the stage that follows.
  cases later with
  | nil => exact ⟨chip, serial, root, signer, reached⟩
  | cons next later =>
      obtain ⟨m, stage, learn, again, sends⟩ :=
        ended.due (List.append_cons earlier _ (next :: later))
      obtain rfl : m = 2 := by
        have here := reached.length
        have there := again.length
        omega
      obtain rfl := again.unique reached
      obtain ⟨before, command, payload, during, outcome⟩ := next
      cases Stage.prepared_of_path sends.prepared

end

/-! ### Whole runs -/

/-- A run that was told of a certificate, and then writes a file or ends well, has checked them all. -/
theorem Ended.checked_of_went_on {command : Command} {report : String}
    (ended : Ended config reads rounds tail result) (asks : command ∈ certificateCommands)
    (answered : Answered rounds command report)
    (went : savings (rounds.flatMap Round.steps ++ tail) ≠ [] ∨ ∃ outcome, result = .ok outcome) :
    ∃ root signer device certificate, Checked rounds root signer device certificate := by
  have listed := ended.listed_of_answered answered
  simp only [certificateCommands, List.mem_cons, List.not_mem_nil, or_false] at asks
  have came : chipOf rounds ≠ some .trustCustom := by
    intro blank
    rw [blank] at listed
    rcases asks with rfl | rfl | rfl <;> simp [commandsFor, Command.withoutLength] at listed
  rcases went with wrote | ⟨outcome, rfl⟩
  · by_cases read : ∃ chip serial root signer device,
        Reached config reads rounds (.deviceRead chip serial root signer device)
    · obtain ⟨chip, serial, root, signer, device, reached⟩ := read
      obtain ⟨late, next, path, -⟩ := ended.savings_of_deviceRead reached
      rw [savings_append, late, List.nil_append] at wrote
      rcases savings_of_path_deviceRead path with ⟨e, -, nothing, -⟩ | ⟨entry, built, -⟩
      · exact absurd nothing wrote
      · exact ⟨root, signer, device, reached.checked_iff.2 ⟨entry, built⟩⟩
    · refine absurd (ended.savings_eq_nil ?_ ?_) wrote
      · exact fun first serial signer request start reached => came (reached.chipOf_eq start)
      · exact fun chip serial root signer device reached =>
          read ⟨chip, serial, root, signer, device, reached⟩
  · cases ended with
    | finished reached path =>
        have follows := reached.follows
        cases Stage.prepared_of_path path with
        | chipInfo chip serial print =>
            -- Only the serial number was asked for.
            obtain ⟨round, member, sent, -⟩ := answered
            have early : command.withoutLength ∈ rounds.map (·.command.withoutLength) :=
              List.mem_map.2 ⟨round, member, by rw [sent]⟩
            have two : rounds.length = 2 := by have := follows.length; omega
            rw [follows.commands, two] at early
            rcases asks with rfl | rfl | rfl <;>
              cases chip <;> simp [commandsFor, Stage.chip?, Command.withoutLength] at early
        | signerProgrammed serial certPath => exact absurd follows.chip came
        | deviceRead built => exact ⟨_, _, _, reached.checked_iff.2 ⟨_, built⟩⟩

/-- A report that cannot be used ends the run before anything is written. -/
theorem Ended.refuses_unusable {command : Command} {report : String}
    (ended : Ended config reads rounds tail result) (asks : command ∈ certificateCommands)
    (answered : Answered rounds command report) (unusable : ¬ Usable command report) :
    savings (rounds.flatMap Round.steps ++ tail) = [] ∧ ∃ failure, result = .error failure := by
  have stopped :
      ¬ (savings (rounds.flatMap Round.steps ++ tail) ≠ [] ∨ ∃ outcome, result = .ok outcome) := by
    intro went
    obtain ⟨root, signer, device, certificate, checked⟩ := ended.checked_of_went_on asks answered went
    obtain ⟨report', answered', usable⟩ := checked.usable asks
    obtain rfl := ended.answered_unique answered answered'
    exact unusable usable
  refine ⟨by_contra fun wrote => stopped (.inl wrote), ?_⟩
  cases result with
  | ok outcome => exact absurd (.inr ⟨outcome, rfl⟩) stopped
  | error failure => exact ⟨failure, rfl⟩

/-- A chip is recorded exactly if three certificates were taken, those of the device and its signer pass
the check, and both files can be written. Of the root certificate nothing is asked but that it was taken. -/
theorem Ended.recorded_iff (ended : Ended config reads rounds tail result) :
    (∃ chip serial path, result = .ok (.recorded chip serial path)) ↔
      (∃ root signer device certificate, Checked rounds root signer device certificate) ∧
        ∀ saving ∈ savings (rounds.flatMap Round.steps ++ tail), saving.done = true := by
  constructor
  · rintro ⟨chip, serial, path, rfl⟩
    obtain ⟨root, signer, device, entry, reached, built, rfl, rfl⟩ := ended.of_recorded
    refine ⟨⟨root, signer, device, reached.checked_iff.2 ⟨entry, built⟩⟩, ?_⟩
    rw [savings_append, (ended.savings_of_deviceRead reached).1, List.nil_append, savings_writeFile,
      savings_writeFile, savings_logged]
    intro saving member
    rcases List.mem_cons.1 member with rfl | last
    · rfl
    · cases List.mem_singleton.1 last
      rfl
  · rintro ⟨⟨root, signer, device, certificate, checked⟩, done⟩
    obtain ⟨chip, serial, root', signer', reached⟩ := ended.reached_of_took checked.tookDevice
    obtain ⟨late, next, path, ends⟩ := ended.savings_of_deviceRead reached
    rw [savings_append, late, List.nil_append] at done
    -- The stage was reached with the certificates that were checked.
    obtain ⟨tookRoot, tookSigner, -⟩ := reached.tookCertificates
    obtain rfl := ended.told_unique tookRoot.told checked.tookRoot.told
    obtain rfl := ended.told_unique tookSigner.told checked.tookSigner.told
    obtain ⟨entry, built⟩ := reached.checked_iff.1 ⟨certificate, checked⟩
    rcases savings_of_path_deviceRead path with
      ⟨e, refused, -⟩ | ⟨entry, -, ⟨saved, -⟩ | ⟨saved, -⟩ | ⟨-, finished⟩⟩
    · rw [built] at refused
      cases refused
    · rw [saved] at done
      cases done _ (List.mem_singleton.2 rfl)
    · rw [saved] at done
      cases done _ (List.mem_cons_of_mem _ (List.mem_singleton.2 rfl))
    · exact ⟨chip, serial, _, (ends _).2 finished⟩

/-- For every device, file system and clock: a run that ends with a recorded chip has recorded what the chip
reported, in a form in which it can be read back. It ends so exactly if three certificates were taken from the
reports, those of the device and its signer pass the check, and both files can be written. However it ends, it is
in one of the ways that `Ended` lists: with the first step that fails, or after the last one that there is. -/
theorem run_records_chip {σ : Type} (config : RunConfig) (reads : Nat)
    (surroundings : Dialogue.Surroundings σ) (s : σ) :
    ∃ rounds tail,
      Dialogue.transcript surroundings (run config reads).run s =
        rounds.flatMap Round.steps ++ tail ∧
      sent (Dialogue.transcript surroundings (run config reads).run s) =
        rounds.flatMap Round.sent ∧
      (∀ earlier round later, rounds = earlier ++ round :: later → Due config reads earlier round) ∧
      Ended config reads rounds tail (Dialogue.run surroundings (run config reads).run s).1 ∧
      (∀ chip serial path,
        (Dialogue.run surroundings (run config reads).run s).1 = .ok (.recorded chip serial path) →
        ∃ octets root signer device certificate, serial = Hex.encodeUpper octets ∧
          path = joinPath config.outputDir (manifestName (Hex.encodeLower octets)) ∧
          RecordedChip config rounds (Dialogue.transcript surroundings (run config reads).run s) chip octets
            root signer device certificate) ∧
      ((∃ chip serial path,
          (Dialogue.run surroundings (run config reads).run s).1 = .ok (.recorded chip serial path)) ↔
        (∃ root signer device certificate, Checked rounds root signer device certificate) ∧
          ∀ saving ∈ savings (Dialogue.transcript surroundings (run config reads).run s),
            saving.done = true) := by
  obtain ⟨rounds, tail, steps, ended⟩ := ended_of_run config reads surroundings s
  refine ⟨rounds, tail, steps, ?_, fun _ _ _ cut => ended.due cut, ended, ?_, ?_⟩
  · rw [steps]
    exact ended.sent_eq
  · intro chip serial path recorded
    rw [recorded] at ended
    rw [steps]
    exact ended.recordedChip
  · rw [steps]
    exact ended.recorded_iff

/-- What is recorded of a chip has passed the check. -/
theorem Ended.recordedChip_checked {chip : ChipKind} {serial path : String}
    (ended : Ended config reads rounds tail (.ok (.recorded chip serial path))) :
    ∃ octets root signer device certificate, serial = Hex.encodeUpper octets ∧
      path = joinPath config.outputDir (manifestName (Hex.encodeLower octets)) ∧
      RecordedChip config rounds (rounds.flatMap Round.steps ++ tail) chip octets root signer device
        certificate ∧
      Checked rounds root signer device certificate := by
  obtain ⟨octets, root, signer, device, certificate, spelled, file, recorded⟩ := ended.recordedChip
  obtain ⟨⟨root', signer', device', certificate', checked⟩, -⟩ := ended.recorded_iff.1 ⟨_, _, _, rfl⟩
  obtain rfl := ended.told_unique checked.tookRoot.told recorded.toldRoot
  obtain rfl := ended.told_unique checked.tookSigner.told recorded.toldSigner
  obtain rfl := ended.told_unique checked.tookDevice.told recorded.toldDevice
  have same := checked.decoded
  rw [recorded.decoded] at same
  cases same
  exact ⟨octets, root', signer', device', certificate, spelled, file, recorded, checked⟩

/-- For every device, file system and clock: the certificates of the device and its signer in the manifest
of a recorded chip are certificates, and a report in which there is none ends the run before anything is
written. The root certificate is stored as it was reported, and decides nothing: the chip is recorded
exactly if a root certificate was taken, the other two pass the check, and what is written is written. -/
theorem run_checks_device_and_signer {σ : Type} (config : RunConfig) (reads : Nat)
    (surroundings : Dialogue.Surroundings σ) (s : σ) :
    ∃ rounds tail,
      Dialogue.transcript surroundings (run config reads).run s =
        rounds.flatMap Round.steps ++ tail ∧
      sent (Dialogue.transcript surroundings (run config reads).run s) =
        rounds.flatMap Round.sent ∧
      (∀ earlier round later, rounds = earlier ++ round :: later → Due config reads earlier round) ∧
      (∀ chip serial path,
        (Dialogue.run surroundings (run config reads).run s).1 = .ok (.recorded chip serial path) →
        ∃ octets root signer device certificate, serial = Hex.encodeUpper octets ∧
          path = joinPath config.outputDir (manifestName (Hex.encodeLower octets)) ∧
          RecordedChip config rounds (Dialogue.transcript surroundings (run config reads).run s) chip octets
            root signer device certificate ∧
          Checked rounds root signer device certificate) ∧
      (∀ command ∈ certificateCommands, ∀ report, Answered rounds command report →
        ¬ Usable command report →
        savings (Dialogue.transcript surroundings (run config reads).run s) = [] ∧
          ∃ failure, (Dialogue.run surroundings (run config reads).run s).1 = .error failure) ∧
      ((∃ chip serial path,
          (Dialogue.run surroundings (run config reads).run s).1 = .ok (.recorded chip serial path)) ↔
        (∃ root signer device certificate, Checked rounds root signer device certificate) ∧
          ∀ saving ∈ savings (Dialogue.transcript surroundings (run config reads).run s),
            saving.done = true) := by
  obtain ⟨rounds, tail, steps, ended⟩ := ended_of_run config reads surroundings s
  refine ⟨rounds, tail, steps, ?_, fun _ _ _ cut => ended.due cut, ?_, ?_, ?_⟩
  · rw [steps]
    exact ended.sent_eq
  · intro chip serial path recorded
    rw [recorded] at ended
    rw [steps]
    exact ended.recordedChip_checked
  · intro command asks report answered unusable
    rw [steps]
    exact ended.refuses_unusable asks answered unusable
  · rw [steps]
    exact ended.recorded_iff

end SecureElement.Provisioning
