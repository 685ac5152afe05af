import SecureElement.Proofs.Provisioning.Recording
import SecureElement.Proofs.Provisioning.Savings

/-!
The files that a run touches.

The device decides neither where a run writes nor how often. A blank chip leaves the certificate that was
signed for it, written once and before the chip is told of it; a chip that came with certificates leaves
its manifest and its root certificate, named after its serial number, and only if all of them were read
and those of the device and its signer are certificates (`Footprint`). If every write changes the file
that it names, or nothing, then no other file is changed (`run_footprint`).
-/

namespace SecureElement.Provisioning

open Authority X509
open Dialogue (sent)

/-! ### Files of the surroundings -/

/-- The files in the surroundings of a dialogue. A write happens completely or leaves all files as they
are, and one that succeeds has happened; nothing else changes a file. -/
structure FileView {σ : Type} (surroundings : Dialogue.Surroundings σ) where
  File : Type
  /-- The content of a file, if there is one. -/
  content : σ → File → Option Octets
  /-- A path may lead to a file. -/
  names : String → File → Prop
  kept : ∀ q s file, KeepsFiles q → content (surroundings.answer q s).2 file = content s file
  written : ∀ path octets s file,
    content (surroundings.answer (.writeFile path octets) s).2 file = content s file ∨
      names path file ∧ content (surroundings.answer (.writeFile path octets) s).2 file = some octets
  succeeded : ∀ path octets s, (surroundings.answer (.writeFile path octets) s).1 = true →
    ∃ file, names path file ∧
      content (surroundings.answer (.writeFile path octets) s).2 file = some octets

/-- A file that a dialogue has changed was named by one of its tries to write, and has that content. -/
theorem FileView.exists_saving {α σ : Type} {surroundings : Dialogue.Surroundings σ}
    (view : FileView surroundings) (d : Dialogue α) (s : σ) {file : view.File}
    (changed : view.content (d.run surroundings s).2 file ≠ view.content s file) :
    ∃ saving ∈ savings (d.transcript surroundings s),
      view.names saving.path file ∧
        view.content (d.run surroundings s).2 file = some saving.content := by
  induction d generalizing s with
  | done a => exact absurd rfl changed
  | ask q next ih =>
      let after := (surroundings.answer q s).2
      have ran : ((Dialogue.ask q next).run surroundings s).2 =
          ((next (surroundings.answer q s).1).run surroundings after).2 := rfl
      have steps : (Dialogue.ask q next).transcript surroundings s =
          ⟨q, (surroundings.answer q s).1⟩ ::
            (next (surroundings.answer q s).1).transcript surroundings after := rfl
      rw [ran] at changed ⊢
      rw [steps, ← List.singleton_append, savings_append]
      by_cases later : view.content ((next (surroundings.answer q s).1).run surroundings after).2 file =
          view.content after file
      · -- The first question changed the file.
        rw [later] at changed ⊢
        by_cases keeps : KeepsFiles q
        · exact absurd (view.kept q s file keeps) changed
        · cases q with
          | writeFile path octets =>
              rcases view.written path octets s file with same | ⟨named, here⟩
              · exact absurd same changed
              · exact ⟨_, List.mem_append_left _ (List.mem_singleton.2 rfl), named, here⟩
          | _ => exact absurd (by simp [KeepsFiles]) keeps
      · obtain ⟨saving, member, found⟩ := ih _ after later
        exact ⟨saving, List.mem_append_right _ member, found⟩

/-- If the last try to write succeeded, the file that it names keeps what was written. -/
theorem FileView.exists_file {α σ : Type} {surroundings : Dialogue.Surroundings σ}
    (view : FileView surroundings) (d : Dialogue α) (s : σ) {saving : Saving}
    (last : (savings (d.transcript surroundings s)).getLast? = some saving)
    (done : saving.done = true) :
    ∃ file, view.names saving.path file ∧
      view.content (d.run surroundings s).2 file = some saving.content := by
  induction d generalizing s with
  | done a => cases last
  | ask q next ih =>
      let after := (surroundings.answer q s).2
      have steps : (Dialogue.ask q next).transcript surroundings s =
          ⟨q, (surroundings.answer q s).1⟩ ::
            (next (surroundings.answer q s).1).transcript surroundings after := rfl
      rw [steps, ← List.singleton_append, savings_append, List.getLast?_append] at last
      cases later : (savings ((next (surroundings.answer q s).1).transcript surroundings after)).getLast? with
      | some other =>
          rw [later, Option.some_or] at last
          cases last
          exact ih _ after later
      | none =>
          rw [later, Option.none_or] at last
          have nothing := List.getLast?_eq_none_iff.1 later
          have kept : ∀ file, view.content ((Dialogue.ask q next).run surroundings s).2 file =
              view.content after file := by
            intro file
            by_contra changed
            obtain ⟨other, member, -⟩ :=
              view.exists_saving (next (surroundings.answer q s).1) after changed
            rw [nothing] at member
            cases member
          cases q with
          | writeFile path octets =>
              cases last
              obtain ⟨file, named, here⟩ := view.succeeded path octets s done
              exact ⟨file, named, (kept file).trans here⟩
          | _ => cases last

variable {config : RunConfig} {reads : Nat} {rounds : List Round} {steps tail : List Dialogue.Step}

/-! ### What may be written -/

/-- The name under which a chip is recorded: the serial number that it reported, in eighteen lower-case
hexadecimal digits. -/
structure NamedBySerial (rounds : List Round) (uniqueId : String) : Prop where
  reported : ∃ octets, ToldSerial rounds octets ∧ uniqueId = Hex.encodeLower octets
  length : uniqueId.toList.length = 18
  digits : ∀ c ∈ uniqueId.toList, c ∈ "0123456789abcdef".toList

theorem namedBySerial_encodeLower {octets : Octets} (told : ToldSerial rounds octets)
    (nine : octets.length = Report.serialSize) : NamedBySerial rounds (Hex.encodeLower octets) := by
  obtain ⟨length, digits⟩ := Hex.encodeLower_digits octets
  exact ⟨⟨octets, told, rfl⟩, by rw [length, nine]; rfl, digits⟩

/-- The paths that a run may write to, by the kind of the chip that it found. -/
inductive Writable (config : RunConfig) (rounds : List Round) : String → Prop where
  | deviceCert (blank : chipOf rounds = some .trustCustom) :
      Writable config rounds (deviceCertPath config)
  | manifest {chip : ChipKind} {uniqueId : String} (kind : chipOf rounds = some chip)
      (other : chip ≠ .trustCustom) (named : NamedBySerial rounds uniqueId) :
      Writable config rounds (manifestPath config uniqueId)
  | rootCert {chip : ChipKind} {uniqueId : String} (kind : chipOf rounds = some chip)
      (other : chip ≠ .trustCustom) (named : NamedBySerial rounds uniqueId) :
      Writable config rounds (rootCertPath config uniqueId)

/-- When the request of the chip had come, the clock was read, and the request could be signed at that
time with what the authority's files hold. -/
def Signed (config : RunConfig) (reads : Nat) (rounds : List Round) (steps : List Dialogue.Step)
    (text : Octets) : Prop :=
  ∃ first serial signer request now after, first <+: rounds ∧
    Reached config reads first (.requested serial signer request) ∧
    steps = first.flatMap Round.steps ++
      logged .info ("CSR obtained from device is:\n" ++ request) :: ⟨.wallClock, now⟩ :: after ∧
    signRequest request signer.certificate signer.key serial config.validForYears now = .ok text

/-- The chip came with certificates, reported its serial number and all of them, and those of the device
and its signer are certificates, the device's with a key that can be recorded. -/
structure Recordable (rounds : List Round) (chip : ChipKind) (root : Octets) (entry : Manifest.Entry) :
    Prop where
  kind : chipOf rounds = some chip
  came : chip ≠ .trustCustom
  named : NamedBySerial rounds entry.uniqueId
  toldRoot : ToldCertificate rounds .getRootCert root
  toldSigner : ToldCertificate rounds .getSignerCert entry.signer
  toldDevice : ToldCertificate rounds .getDeviceCert entry.device
  signer : (Certificate.decode entry.signer).isSome
  device : (Certificate.decode entry.device).isSome

/-- The commands that come before the certificate of a blank chip is saved. -/
def commandsToRequest (config : RunConfig) : List Command :=
  [.init config.sdaPin config.sclPin, .printChipInfo, .generateKeys keySlot, .generateRequest]

/-- All tries of a run to write a file, in their order. -/
inductive Footprint (config : RunConfig) (reads : Nat) (rounds : List Round)
    (steps : List Dialogue.Step) : List Saving → Prop where
  | untouched : Footprint config reads rounds steps []
  /-- The device's certificate is saved before the chip is sent any definition. -/
  | issued {text : Octets} {first : List Round} {before after : List Dialogue.Step} {done : Bool}
      (blank : chipOf rounds = some .trustCustom) (signed : Signed config reads rounds steps text)
      (start : first <+: rounds) (commands : first.map Round.command = commandsToRequest config)
      (place : steps = before ++ ⟨.writeFile (deviceCertPath config) (Octets.trimAscii text), done⟩ :: after)
      (early : sent before = first.flatMap Round.sent) :
      Footprint config reads rounds steps [⟨deviceCertPath config, Octets.trimAscii text, done⟩]
  /-- The manifest cannot be written. -/
  | unrecorded {chip : ChipKind} {root : Octets} {entry : Manifest.Entry}
      (recordable : Recordable rounds chip root entry)
      (late : savings (rounds.flatMap Round.steps) = []) :
      Footprint config reads rounds steps
        [⟨manifestPath config entry.uniqueId, Utf8.encode (Manifest.text [entry]), false⟩]
  | recorded {chip : ChipKind} {root : Octets} {entry : Manifest.Entry} {done : Bool}
      (recordable : Recordable rounds chip root entry)
      (late : savings (rounds.flatMap Round.steps) = []) :
      Footprint config reads rounds steps
        [⟨manifestPath config entry.uniqueId, Utf8.encode (Manifest.text [entry]), true⟩,
          ⟨rootCertPath config entry.uniqueId, Pem.encode ⟨certificateLabel, root⟩, done⟩]

theorem Footprint.writable {saved : List Saving} (footprint : Footprint config reads rounds steps saved) :
    ∀ saving ∈ saved, Writable config rounds saving.path := by
  intro saving member
  cases footprint with
  | untouched => cases member
  | issued blank =>
      cases List.mem_singleton.1 member
      exact .deviceCert blank
  | unrecorded recordable =>
      cases List.mem_singleton.1 member
      exact .manifest recordable.kind recordable.came recordable.named
  | recorded recordable =>
      rcases List.mem_cons.1 member with rfl | last
      · exact .manifest recordable.kind recordable.came recordable.named
      · cases List.mem_singleton.1 last
        exact .rootCert recordable.kind recordable.came recordable.named

/-! ### Runs -/

/-- The chip is recorded as what it reported, if it can be. -/
theorem Reached.recordable {chip : ChipKind} {serial : String} {root signer device : Octets}
    {entry : Manifest.Entry}
    (reached : Reached config reads rounds (.deviceRead chip serial root signer device))
    (built : Manifest.Entry.ofCertificates chip serial device signer = .ok entry) :
    Recordable rounds chip root entry := by
  have kind := reached.follows.chip
  obtain ⟨rest₁, askDevice, body₁, rfl, reached, fifth, foundDevice⟩ := reached.of_deviceRead
  obtain ⟨rest₂, askSigner, body₂, rfl, reached, fourth, foundSigner⟩ := reached.of_signerRead
  obtain ⟨rest₃, askRoot, body₃, rfl, reached, came, third, foundRoot⟩ := reached.of_rootRead
  obtain ⟨rest₄, inform, report, rfl, reached, second, found⟩ := reached.of_identified
  obtain ⟨octets, spells, rfl⟩ := Report.serialNumber_eq_some_iff.1 found
  have told : ToldSerial (rest₄ ++ [inform] ++ [askRoot] ++ [askSigner] ++ [askDevice]) octets :=
    ⟨report, second.answered (by simp), spells⟩
  have named := Manifest.uniqueId_of_ofCertificates built
  rw [Manifest.lowerAscii_encodeUpper] at named
  obtain ⟨certificate, decoded, accepted, -, rfl⟩ := Manifest.Entry.ofCertificates_eq_ok_iff.1 built
  constructor
  case kind => exact kind
  case came => exact came
  case named =>
    rw [named]
    exact namedBySerial_encodeLower told spells.length
  case toldRoot => exact third.toldCertificate (by simp) foundRoot
  case toldSigner => exact fourth.toldCertificate (by simp) foundSigner
  case toldDevice => exact fifth.toldCertificate (by simp) foundDevice
  case signer => exact accepted
  case device => exact Option.isSome_of_eq_some decoded

/-- Four commands lead to a request. -/
theorem Reached.commands_of_requested {serial request : String} {signer : Signer}
    (reached : Reached config reads rounds (.requested serial signer request)) :
    rounds.map Round.command = commandsToRequest config := by
  obtain ⟨rest₁, ask, body₁, rfl, reached, fourth, -⟩ := reached.of_requested
  obtain ⟨rest₂, generate, loading, body₂, rfl, reached, -, third⟩ := reached.of_keyed
  obtain ⟨rest₃, inform, body₃, rfl, reached, second, -⟩ := reached.of_identified
  obtain ⟨init, body₄, rfl, -, first, -⟩ := reached.of_detected
  simp [first.command, second.command, third.command, fourth.command, commandsToRequest]

theorem Reached.chipOf_eq {first : List Round} {serial request : String} {signer : Signer}
    (reached : Reached config reads first (.requested serial signer request)) (start : first <+: rounds) :
    chipOf rounds = some .trustCustom := by
  obtain ⟨later, rfl⟩ := start
  have some : first ≠ [] := by
    rintro rfl
    have four := reached.length
    simp at four
  rw [chipOf_append some]
  exact reached.follows.chip

/-- Rounds that lead to a stage send their lines and payloads, and nothing else. -/
theorem Reached.sent_eq {n : Nat} {stage : Stage n} (reached : Reached config reads rounds stage) :
    sent (rounds.flatMap Round.steps) = rounds.flatMap Round.sent := by
  refine sent_rounds fun round member => ?_
  obtain ⟨earlier, later, cut⟩ := List.append_of_mem member
  obtain ⟨n, stage, learn, -, sends⟩ := reached.due cut
  exact sends.sent_steps

theorem Ended.footprint {result : Except ProvisioningFailure Outcome}
    (ended : Ended config reads rounds tail result) :
    Footprint config reads rounds (rounds.flatMap Round.steps ++ tail)
      (savings (rounds.flatMap Round.steps ++ tail)) := by
  by_cases asked : ∃ first serial signer request, first <+: rounds ∧
      Reached config reads first (.requested serial signer request)
  · obtain ⟨first, serial, signer, request, start, reached⟩ := asked
    obtain ⟨now, after, cut, outcome⟩ := ended.savings_of_requested reached start
    rcases outcome with ⟨e, refused, nothing⟩ | ⟨text, title, done, later, signed, rfl, saved⟩
    · rw [nothing]
      exact .untouched
    · rw [saved]
      have place : rounds.flatMap Round.steps ++ tail =
          (first.flatMap Round.steps ++
            [logged .info ("CSR obtained from device is:\n" ++ request), ⟨.wallClock, now⟩,
              logged .info title]) ++
          ⟨.writeFile (deviceCertPath config) (Octets.trimAscii text), done⟩ :: later := by
        rw [cut]
        simp
      refine .issued (reached.chipOf_eq start)
        ⟨first, serial, signer, request, now, _, start, reached, cut, signed⟩ start
        reached.commands_of_requested place ?_
      rw [Dialogue.sent_append, reached.sent_eq]
      exact List.append_nil _
  · have unrequested : ∀ first serial signer request, first <+: rounds →
        ¬ Reached config reads first (.requested serial signer request) :=
      fun first serial signer request start reached =>
        asked ⟨first, serial, signer, request, start, reached⟩
    by_cases told : ∃ chip serial root signer device,
        Reached config reads rounds (.deviceRead chip serial root signer device)
    · obtain ⟨chip, serial, root, signer, device, reached⟩ := told
      obtain ⟨late, next, path, -⟩ := ended.savings_of_deviceRead reached
      rw [savings_append, late, List.nil_append]
      rcases savings_of_path_deviceRead path with
        ⟨e, -, nothing, -⟩ | ⟨entry, built, ⟨saved, -⟩ | ⟨saved, -⟩ | ⟨saved, -⟩⟩
      · rw [nothing]
        exact .untouched
      · rw [saved]
        exact .unrecorded (reached.recordable built) late
      · rw [saved]
        exact .recorded (reached.recordable built) late
      · rw [saved]
        exact .recorded (reached.recordable built) late
    · rw [ended.savings_eq_nil unrequested fun chip serial root signer device reached =>
        told ⟨chip, serial, root, signer, device, reached⟩]
      exact .untouched

theorem deviceCertPath_ne_manifestPath (config : RunConfig) (uniqueId : String) :
    deviceCertPath config ≠ manifestPath config uniqueId := by
  intro same
  have chars := congrArg (fun name : String => name.toList.reverse) (joinPath_inj.1 same)
  simp [deviceCertName, manifestName, String.toList_append] at chars

theorem deviceCertPath_ne_rootCertPath (config : RunConfig) (uniqueId : String) :
    deviceCertPath config ≠ rootCertPath config uniqueId := by
  intro same
  have chars := congrArg (fun name : String => name.toList.reverse) (joinPath_inj.1 same)
  simp [deviceCertName, rootCertName, String.toList_append] at chars

/-- The certificate of a blank chip is tried to be saved exactly if it was signed. -/
theorem Ended.saves_iff_signed {result : Except ProvisioningFailure Outcome}
    (ended : Ended config reads rounds tail result) (content : Octets) :
    (∃ done, ⟨deviceCertPath config, content, done⟩ ∈ savings (rounds.flatMap Round.steps ++ tail)) ↔
      ∃ text, Signed config reads rounds (rounds.flatMap Round.steps ++ tail) text ∧
        content = Octets.trimAscii text := by
  constructor
  · rintro ⟨done, member⟩
    have footprint := ended.footprint
    generalize savings (rounds.flatMap Round.steps ++ tail) = saved at footprint member
    cases footprint with
    | untouched => cases member
    | issued blank signed =>
        cases List.mem_singleton.1 member
        exact ⟨_, signed, rfl⟩
    | unrecorded recordable =>
        obtain ⟨path, -⟩ := Saving.mk.inj (List.mem_singleton.1 member)
        exact absurd path (deviceCertPath_ne_manifestPath _ _)
    | recorded recordable =>
        rcases List.mem_cons.1 member with first | last
        · exact absurd (Saving.mk.inj first).1 (deviceCertPath_ne_manifestPath _ _)
        · exact absurd (Saving.mk.inj (List.mem_singleton.1 last)).1 (deviceCertPath_ne_rootCertPath _ _)
  · rintro ⟨text, ⟨first, serial, signer, request, now, after, start, reached, cut, signed⟩, rfl⟩
    obtain ⟨now', after', cut', outcome⟩ := ended.savings_of_requested reached start
    rw [cut] at cut'
    obtain ⟨-, same⟩ := List.append_inj cut' rfl
    cases same
    rcases outcome with ⟨e, refused, -⟩ | ⟨text', title, done, later, signed', rfl, saved⟩
    · rw [signed] at refused
      cases refused
    · rw [signed] at signed'
      cases signed'
      rw [cut, ← cut, saved]
      exact ⟨done, List.mem_singleton.2 rfl⟩

theorem Ended.savings_eq_nil_of_print {result : Except ProvisioningFailure Outcome}
    (ended : Ended config reads rounds tail result) (print : config.printChipKind = true) :
    savings (rounds.flatMap Round.steps ++ tail) = [] := by
  have short := ended.length_le_two print
  refine ended.savings_eq_nil ?_ ?_
  · intro first serial signer request start reached
    have four := reached.length
    have bound := start.length_le
    omega
  · intro chip serial root signer device reached
    have five := reached.length
    omega

/-- For every device, file system and clock, whether a run succeeds or fails: the certificate of a blank
chip is saved exactly if it was signed, once and before any definition is sent; the files of a chip that
came with certificates are written after all of them were read, and if they can be recorded; nothing is
written if only the chip is asked for. If a write happens completely or leaves all files as they are, the
run changes no other file, and what it wrote last, if that succeeded, is there in the end. -/
theorem run_footprint {σ : Type} (config : RunConfig) (reads : Nat)
    (surroundings : Dialogue.Surroundings σ) (s : σ) :
    ∃ rounds tail,
      Dialogue.transcript surroundings (run config reads).run s =
        rounds.flatMap Round.steps ++ tail ∧
      sent (Dialogue.transcript surroundings (run config reads).run s) =
        rounds.flatMap Round.sent ∧
      (∀ earlier round later, rounds = earlier ++ round :: later → Due config reads earlier round) ∧
      Footprint config reads rounds (Dialogue.transcript surroundings (run config reads).run s)
        (savings (Dialogue.transcript surroundings (run config reads).run s)) ∧
      (∀ content, (∃ done, ⟨deviceCertPath config, content, done⟩ ∈
          savings (Dialogue.transcript surroundings (run config reads).run s)) ↔
        ∃ text, Signed config reads rounds
            (Dialogue.transcript surroundings (run config reads).run s) text ∧
          content = Octets.trimAscii text) ∧
      (config.printChipKind = true →
        savings (Dialogue.transcript surroundings (run config reads).run s) = []) ∧
      ∀ view : FileView surroundings,
        (∀ file, view.content (Dialogue.run surroundings (run config reads).run s).2 file ≠
            view.content s file →
          ∃ saving ∈ savings (Dialogue.transcript surroundings (run config reads).run s),
            Writable config rounds saving.path ∧ view.names saving.path file ∧
              view.content (Dialogue.run surroundings (run config reads).run s).2 file =
                some saving.content) ∧
        ∀ saving,
          (savings (Dialogue.transcript surroundings (run config reads).run s)).getLast? = some saving →
          saving.done = true →
          ∃ file, view.names saving.path file ∧
            view.content (Dialogue.run surroundings (run config reads).run s).2 file =
              some saving.content := by
  obtain ⟨rounds, tail, steps, ended⟩ := ended_of_run config reads surroundings s
  refine ⟨rounds, tail, steps, ?_, fun _ _ _ cut => ended.due cut, ?_, ?_, ?_, ?_⟩
  · rw [steps]
    exact ended.sent_eq
  · rw [steps]
    exact ended.footprint
  · rw [steps]
    exact ended.saves_iff_signed
  · rw [steps]
    exact ended.savings_eq_nil_of_print
  · intro view
    refine ⟨fun file changed => ?_, fun saving last done => view.exists_file _ s last done⟩
    obtain ⟨saving, member, named, content⟩ := view.exists_saving (run config reads).run s changed
    have writable : Writable config rounds saving.path := by
      rw [steps] at member
      exact ended.footprint.writable saving member
    exact ⟨saving, member, writable, named, content⟩

end SecureElement.Provisioning
