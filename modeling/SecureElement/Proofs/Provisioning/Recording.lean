import SecureElement.Proofs.Chip.Reports
import SecureElement.Proofs.Manifest.Entries
import SecureElement.Proofs.Provisioning.OwnCertificate

/-!
What is recorded of a chip that came with certificates.

A run that ends with a recorded chip has asked it for its serial number and for three certificates, and has
written two files. Read back, the manifest has one entry, which tells of the chip what it reported, and the
other file holds the root certificate (`RecordedChip`), whatever the device answers (`Ended.recordedChip`).
-/

namespace SecureElement.Provisioning

open Authority X509
open Dialogue (sent)

variable {config : RunConfig} {reads : Nat} {rounds : List Round}

/-! ### Files -/

/-- Files with different names in a directory have different paths. -/
theorem joinPath_inj {directory first second : String} :
    joinPath directory first = joinPath directory second ↔ first = second := by
  refine ⟨fun same => ?_, congrArg _⟩
  have chars := congrArg String.toList same
  unfold joinPath at chars
  split at chars <;> simpa [String.toList_append, String.toList_inj] using chars

/-- The two files of a chip have different names. -/
theorem manifest_ne_root (directory uniqueId : String) :
    joinPath directory (manifestName uniqueId) ≠ joinPath directory (rootCertName uniqueId) := by
  intro same
  have chars := congrArg String.toList (joinPath_inj.1 same)
  simp [manifestName, rootCertName, String.toList_append] at chars

theorem stored_cons (path : String) (step : Dialogue.Step) (later : List Dialogue.Step) :
    stored path (step :: later) = (stored path later).or (stored path [step]) :=
  stored_append path [step] later

theorem stored_logged (path : String) (level : Level) (text : String) :
    stored path [logged level text] = none := rfl

theorem stored_writeFile (path : String) (content : Octets) :
    stored path [⟨.writeFile path content, true⟩] = some content := by
  have saved : written? path ⟨.writeFile path content, true⟩ = some content := if_pos rfl
  rw [stored, List.filterMap_cons, saved]
  rfl

theorem stored_writeFile_of_ne {path other : String} (different : other ≠ path) (content : Octets) :
    stored path [⟨.writeFile other content, true⟩] = none := by
  have kept : written? path ⟨.writeFile other content, true⟩ = none := if_neg different
  rw [stored, List.filterMap_cons, kept]
  rfl

/-! ### What is recorded -/

/-- A report on a command spelled these octets as a certificate. -/
def ToldCertificate (rounds : List Round) (command : Command) (octets : Octets) : Prop :=
  ∃ report, Answered rounds command report ∧ Report.SpellsCertificate report octets

/-- A chip was recorded. Its kind, its serial number and its certificates are those of its reports. The
manifest has one entry, which tells of them and of the key in the certificate of the device; a second file
holds the root certificate. -/
structure RecordedChip (config : RunConfig) (rounds : List Round) (steps : List Dialogue.Step)
    (chip : ChipKind) (octets root signer device : Octets) (certificate : Certificate) : Prop where
  /-- Each of the five commands was sent once, so that there is one report of each kind. -/
  commands : rounds.map (·.command.withoutLength) = commandsFor config (some chip)
  came : chip ≠ .trustCustom
  toldChip : ∃ report, Answered rounds (.init config.sdaPin config.sclPin) report ∧
    ChipKind.ofReport? report = some chip
  toldSerial : ToldSerial rounds octets
  nine : octets.length = Report.serialSize
  toldRoot : ToldCertificate rounds .getRootCert root
  toldSigner : ToldCertificate rounds .getSignerCert signer
  toldDevice : ToldCertificate rounds .getDeviceCert device
  decoded : Certificate.decode device = some certificate
  manifest : ∃ content entry,
    stored (joinPath config.outputDir (manifestName (Hex.encodeLower octets))) steps = some content ∧
      Manifest.ReadsAs content [entry] ∧
      Manifest.Tells entry chip (Hex.encodeLower octets) device signer certificate.body.publicKey.key.octets
  rootFile : ∃ content,
    stored (joinPath config.outputDir (rootCertName (Hex.encodeLower octets))) steps = some content ∧
      decodePem content certificateLabel = .ok root

theorem Round.Went.toldCertificate {round : Round} {before : List Dialogue.Step} {command : Command}
    {payload : Option Octets} {body : String} {octets : Octets}
    (went : round.Went config reads before command payload body) (member : round ∈ rounds)
    (found : Report.certificate command.text body = .ok octets) : ToldCertificate rounds command octets :=
  ⟨body, went.answered member, Report.spellsCertificate_of_certificate found⟩

/-- Only a chip whose certificates were all read is recorded. -/
theorem Ended.of_recorded {tail : List Dialogue.Step} {chip : ChipKind} {serial path : String}
    (ended : Ended config reads rounds tail (.ok (.recorded chip serial path))) :
    ∃ root signer device entry,
      Reached config reads rounds (.deviceRead chip serial root signer device) ∧
      Manifest.Entry.ofCertificates chip serial device signer = .ok entry ∧
      path = joinPath config.outputDir (manifestName entry.uniqueId) ∧
      tail = [⟨.writeFile path (Utf8.encode (Manifest.text [entry])), true⟩,
        ⟨.writeFile (joinPath config.outputDir (rootCertName entry.uniqueId))
          (Pem.encode ⟨certificateLabel, root⟩), true⟩,
        logged .info "Manifest written"] := by
  cases ended with
  | finished reached path =>
      cases Stage.prepared_of_path path with
      | deviceRead built => exact ⟨_, _, _, _, reached, built, rfl, rfl⟩

/-- When the certificates have been read and both files written, the chip is recorded. -/
theorem Ended.recordedChip {tail : List Dialogue.Step} {chip : ChipKind} {serial path : String}
    (ended : Ended config reads rounds tail (.ok (.recorded chip serial path))) :
    ∃ octets root signer device certificate, serial = Hex.encodeUpper octets ∧
      path = joinPath config.outputDir (manifestName (Hex.encodeLower octets)) ∧
      RecordedChip config rounds (rounds.flatMap Round.steps ++ tail) chip octets root signer device
        certificate := by
  obtain ⟨root, signer, device, entry, reached, built, rfl, rfl⟩ := ended.of_recorded
  have commands := reached.follows.commands
  obtain ⟨rest₁, askDevice, body₁, rfl, reached, fifth, foundDevice⟩ := reached.of_deviceRead
  obtain ⟨rest₂, askSigner, body₂, rfl, reached, fourth, foundSigner⟩ := reached.of_signerRead
  obtain ⟨rest₃, askRoot, body₃, rfl, reached, came, third, foundRoot⟩ := reached.of_rootRead
  obtain ⟨rest₄, inform, report, rfl, reached, second, found⟩ := reached.of_identified
  obtain ⟨init, body₅, rfl, waited, first, kind⟩ := reached.of_detected
  obtain ⟨octets, spells, rfl⟩ := Report.serialNumber_eq_some_iff.1 found
  obtain ⟨certificate, decoded, tells⟩ := Manifest.tells_of_ofCertificates built
  have named : entry.uniqueId = Hex.encodeLower octets := by
    rw [Manifest.uniqueId_of_ofCertificates built, Manifest.lowerAscii_encodeUpper]
  rw [Manifest.lowerAscii_encodeUpper] at tells
  rw [named]
  refine ⟨octets, root, signer, device, certificate, rfl, rfl, ?_⟩
  have files := manifest_ne_root config.outputDir (Hex.encodeLower octets)
  constructor
  case commands =>
    rw [commands]
    exact List.take_of_length_le (by simp [commandsFor_other came, Stage.chip?])
  case came => exact came
  case toldChip => exact ⟨body₅, first.answered (by simp), kind⟩
  case toldSerial => exact ⟨report, second.answered (by simp), spells⟩
  case nine => exact spells.length
  case toldRoot => exact third.toldCertificate (by simp) foundRoot
  case toldSigner => exact fourth.toldCertificate (by simp) foundSigner
  case toldDevice => exact fifth.toldCertificate (by simp) foundDevice
  case decoded => exact decoded
  case manifest =>
    refine ⟨_, _, ?_, Manifest.readsAs_text [entry], tells⟩
    rw [stored_append, stored_cons, stored_cons _ _ [_], stored_logged, stored_writeFile,
      stored_writeFile_of_ne files.symm]
    rfl
  case rootFile =>
    refine ⟨Pem.encode ⟨certificateLabel, root⟩, ?_, ?_⟩
    · rw [stored_append, stored_cons, stored_cons _ _ [_], stored_logged, stored_writeFile]
      rfl
    · exact decodePem_encode (Report.spellsCertificate_of_certificate foundRoot).ne_nil

end SecureElement.Provisioning
