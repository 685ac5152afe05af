import SecureElement.Bench.World
import SecureElement.Proofs.Bench.Answers
import SecureElement.Proofs.Link.Listening
import SecureElement.Proofs.Pem.Boundaries

/-!
Sessions with a scripted device.

Each exchange takes the next answer for the first word of its command, reads it to its last line and no
further, and comes to the response that the answer was given for. So a session of any length stays in
step with its script, however the commands are interleaved (`converse_in_step`).
-/

namespace SecureElement.Bench

open Exchange Reading
open Dialogue (Surroundings run)

/-- A command and the answer that it is to get. A payload does not end like a command, and nothing in the
body ends the response. -/
structure Turn where
  command : String
  payload : Option Octets := none
  success : Bool := true
  body : String
  unframed : ∀ octets ∈ payload, ¬ [0x0D, 0x0A] <:+ octets := by decide
  endless : Text.contains body endMark = false := by decide

namespace Turn

/-- The word under which the answer is found. -/
def word (turn : Turn) : String :=
  Text.firstWord turn.command

/-- A device with one more answer, for this command. -/
def queue (d : Device) (turn : Turn) : Device :=
  if turn.success then d.respondOk turn.word turn.body else d.respondFailure turn.word turn.body

/-- The texts of the lines of the answer. -/
def texts (turn : Turn) : List String :=
  responseTexts turn.word (statusMark turn.success) turn.body

/-- The lines of the answer. -/
def lines (turn : Turn) : List Octets :=
  turn.texts.map Utf8.encode

/-- The response that the answer is given for. -/
def response (turn : Turn) : Response :=
  ⟨turn.success, String.ofList (closed turn.body.toList)⟩

theorem queue_answers (d : Device) (turn : Turn) :
    (queue d turn).answers = d.answers ++ [(turn.word, turn.lines)] := by
  rw [lines, texts, ← responseLines_eq]
  cases status : turn.success <;> simp [queue, status, Device.respondOk, Device.respondFailure,
    Device.respond, statusMark]

theorem blank_not_mem_word (turn : Turn) : ' ' ∉ turn.word.toList := by
  intro member
  rw [word, Text.firstWord, String.toList_ofList] at member
  have unbroken := List.mem_takeWhile_imp member
  simp [Text.isBlank] at unbroken

theorem completes (turn : Turn) : Completes turn.texts turn.response :=
  completes_responseTexts turn.success turn.blank_not_mem_word turn.endless

theorem ne_empty_of_mem_texts {turn : Turn} {text : String} (member : text ∈ turn.texts) :
    text ≠ "" := by
  obtain ⟨front, rfl⟩ := exists_of_mem_responseTexts member
  simp

end Turn

/-! ### Reading an answer -/

/-- What reading an answer line after line brings. -/
def Turn.reads (turn : Turn) (n : Nat) : Except LinkFault Octets :=
  .ok (turn.lines[n]?.getD [])

theorem counted?_encode {text : String} (some : text ≠ "") :
    counted? (.ok (Utf8.encode text)) = Option.some (.ok text) := by
  have octets : Utf8.encode text ≠ [] := fun none => some (Utf8.encode_injective none)
  rw [counted?, if_neg octets, Utf8.decode_encode, Option.map_some]

theorem remaining_reads (turn : Turn) (n : Nat) :
    remaining turn.reads n = (turn.texts.take n).map .ok := by
  induction n with
  | zero => rfl
  | succ n ih =>
      rw [remaining_succ, ih, List.take_add_one, List.map_append, Turn.reads, Turn.lines, List.getElem?_map]
      congr 1
      cases here : turn.texts[n]? with
      | none => rfl
      | some text =>
          have some := Turn.ne_empty_of_mem_texts (List.mem_of_getElem? here)
          rw [Option.map_some, Option.getD_some, counted?_encode some]
          rfl

/-- The last line of an answer decides, and no line before it. -/
theorem decides_reads (turn : Turn) :
    Decides turn.command turn.reads turn.lines.length (.ok turn.response) := by
  have whole : remaining turn.reads turn.lines.length = turn.texts.map .ok := by
    rw [remaining_reads, Turn.lines, List.length_map, List.take_length]
  have settles : Settles turn.command (remaining turn.reads turn.lines.length) (.ok turn.response) :=
    whole ▸ .completed turn.completes
  refine ⟨settles, fun m less other => ?_⟩
  have start : remaining turn.reads m <+: remaining turn.reads turn.lines.length := by
    rw [whole, remaining_reads]
    exact (List.take_prefix _ _).map _
  have shorter : remaining turn.reads m ≠ remaining turn.reads turn.lines.length := by
    intro same
    have lengths := congrArg List.length same
    rw [whole, remaining_reads] at lengths
    simp only [Turn.lines, List.length_map, List.length_take] at lengths less
    omega
  obtain ⟨reading, undecided⟩ := settles.undecided_of_prefix start shorter
  exact undecided.not_settles

/-- The device is being read from, and this many lines of an answer have come. -/
structure Answering (turn : Turn) (answers : List (String × List Octets)) (w : World) (n : Nat) :
    Prop where
  unpaced : w.pace = none
  sound : w.device.faults = 0
  pending : w.device.pending = turn.lines.drop n
  kept : w.device.answers = answers

theorem supplies_answering (turn : Turn) (answers : List (String × List Octets)) :
    Supplies World.surroundings turn.reads (Answering turn answers) where
  read := by
    rintro w n ⟨unpaced, sound, pending, kept⟩
    have same : World.surroundings.answer .readLine w =
        (w.device.readLine.1, { w with device := w.device.readLine.2 }) := by
      simp [World.surroundings, World.answer, World.readLine, unpaced]
    rw [same, Turn.reads]
    cases left : turn.lines.drop n with
    | nil =>
        have past : turn.lines.length ≤ n := List.drop_eq_nil_iff.1 left
        have nothing : w.device.readLine = (.ok [], w.device) := by
          simp [Device.readLine, sound, pending, left]
        rw [nothing, List.getElem?_eq_none past]
        refine ⟨rfl, unpaced, sound, ?_, kept⟩
        rw [pending, left, List.drop_eq_nil_iff.2 (Nat.le_succ_of_le past)]
    | cons line lines =>
        have line_read : w.device.readLine = (.ok line, { w.device with pending := lines }) := by
          simp [Device.readLine, sound, pending, left]
        have next : turn.lines.drop (n + 1) = lines := by
          rw [← List.drop_drop, left, List.drop_one, List.tail_cons]
        have here : turn.lines[n]? = some line := by
          rw [← List.head?_drop, left, List.head?_cons]
        rw [line_read, here]
        exact ⟨rfl, unpaced, sound, next.symm, kept⟩
  log := by
    rintro w n entry ⟨unpaced, sound, pending, kept⟩
    exact ⟨unpaced, sound, pending, kept⟩

/-! ### One exchange -/

/-- A device that is silent, and whose answers for each word begin with those of the turns to come. -/
structure Ready (turns : List Turn) (w : World) : Prop where
  unpaced : w.pace = none
  sound : w.device.faults = 0
  silent : w.device.pending = []
  rehearsed : ∀ word, (turns.filter fun turn => turn.word = word).map Turn.lines <+:
    queued w.device.answers word

variable {turn : Turn} {turns : List Turn} {w : World}

theorem write_commandLine {d : Device} {command : String} {lines : List Octets}
    {rest : List (String × List Octets)} (silent : d.pending = [])
    (taken : Device.takeAnswer (Text.firstWord command) d.answers = some (lines, rest)) :
    (d.write (commandLine command)).faults = d.faults ∧
      (d.write (commandLine command)).pending = lines ∧
      (d.write (commandLine command)).answers = rest := by
  have line : Device.beforeLineEnd (commandLine command) = some (Utf8.encode command) :=
    Text.withoutEnd_eq_some_iff.2 rfl
  simp [Device.write, line, Device.receive, Utf8.decodeLossy_of_decode (Utf8.decode_encode command),
    taken, silent]

theorem write_payload {d : Device} {octets : Octets} (unframed : ¬ [0x0D, 0x0A] <:+ octets) :
    (d.write octets).faults = d.faults ∧ (d.write octets).pending = d.pending ∧
      (d.write octets).answers = d.answers := by
  have whole : Device.beforeLineEnd octets = none := by
    rw [Device.beforeLineEnd, Text.withoutEnd, if_neg]
    rwa [List.isSuffixOf_iff_suffix]
  simp [Device.write, whole]

/-- Once a command has been sent, its answer can be read, and the other answers are as they were. -/
theorem Ready.opened (ready : Ready (turn :: turns) w) (settings : ExchangeSettings) :
    ∃ rest, Answering turn rest
        (World.surroundings.after w (preamble settings turn.command turn.payload)) 0 ∧
      ∀ word, (turns.filter fun turn => turn.word = word).map Turn.lines <+: queued rest word := by
  obtain ⟨unpaced, sound, silent, rehearsed⟩ := ready
  have own := rehearsed turn.word
  simp only [List.filter_cons, decide_true, if_true, List.map_cons] at own
  obtain ⟨later, whole⟩ := own
  obtain ⟨rest, taken, left, others⟩ := takeAnswer_of_queued whole.symm
  let heard : Device := { w.device with readTimeout := some settings.commandReadTimeout }
  obtain ⟨faults, pending, answers⟩ := write_commandLine (d := heard) silent taken
  refine ⟨rest, ?_, fun word => ?_⟩
  · cases paid : turn.payload with
    | none => exact ⟨unpaced, faults.trans sound, pending, answers⟩
    | some octets =>
        obtain ⟨faults', pending', answers'⟩ :=
          write_payload (d := heard.write (commandLine turn.command)) (turn.unframed octets paid)
        exact ⟨unpaced, (faults'.trans faults).trans sound, pending'.trans pending,
          answers'.trans answers⟩
  · by_cases same : turn.word = word
    · subst same
      exact ⟨later, left.symm⟩
    · have other := rehearsed word
      rw [List.filter_cons_of_neg (by simpa using same)] at other
      rwa [others word (Ne.symm same)]

/-- An exchange takes its answer and nothing else. -/
theorem Ready.exec (ready : Ready (turn :: turns) w) (settings : ExchangeSettings) {reads : Nat}
    (enough : turn.lines.length ≤ reads) :
    let outcome := w.run
      (Exchange.exec { settings with commandDeadline := none } reads turn.command turn.payload).run
    outcome.1 = .ok turn.response ∧ Ready turns outcome.2 := by
  intro outcome
  obtain ⟨rest, opened, rehearsed⟩ := ready.opened settings
  obtain ⟨count, steps, ⟨unpaced, sound, pending, kept⟩, -, listens⟩ :=
    exec_listens (supplies_answering turn rest) settings reads turn.command turn.payload opened
  obtain ⟨result, rfl, -⟩ := (listens.decides_iff _ _).2 ⟨enough, decides_reads turn⟩
  rw [List.drop_length] at pending
  exact ⟨result, unpaced, sound, pending, kept ▸ rehearsed⟩

/-! ### Sessions -/

/-- Exchanges one after another: what each comes to, and the world after it. -/
def converse (settings : ExchangeSettings) (reads : Nat) :
    List Turn → World → List (Except ExchangeError Response × World)
  | [], _ => []
  | turn :: turns, w =>
      let outcome := w.run (exec settings reads turn.command turn.payload).run
      outcome :: converse settings reads turns outcome.2

theorem Ready.converse {settings : ExchangeSettings} {reads : Nat}
    (ready : Ready turns w) (enough : ∀ turn ∈ turns, turn.lines.length ≤ reads) :
    (Bench.converse { settings with commandDeadline := none } reads turns w).map
        (fun outcome => (outcome.1, outcome.2.device.pending)) =
      turns.map fun turn => (.ok turn.response, []) := by
  induction turns generalizing w with
  | nil => rfl
  | cons turn turns ih =>
      obtain ⟨result, later⟩ := ready.exec settings (enough turn (by simp))
      rw [Bench.converse, List.map_cons, List.map_cons, result, later.silent,
        ih later fun other member => enough other (by simp [member])]

theorem queued_foldl_queue (d : Device) (script : List Turn) (word : String) :
    queued (script.foldl Turn.queue d).answers word =
      queued d.answers word ++ (script.filter fun turn => turn.word = word).map Turn.lines := by
  induction script generalizing d with
  | nil => simp
  | cons turn script ih =>
      rw [List.foldl_cons, ih, Turn.queue_answers, queued_append, List.append_assoc]
      by_cases same : turn.word = word <;> simp [queued, same]

theorem foldl_queue_keeps (d : Device) (script : List Turn) :
    (script.foldl Turn.queue d).pending = d.pending ∧ (script.foldl Turn.queue d).faults = d.faults := by
  induction script generalizing d with
  | nil => exact ⟨rfl, rfl⟩
  | cons turn script ih =>
      have kept : (Turn.queue d turn).pending = d.pending ∧ (Turn.queue d turn).faults = d.faults := by
        unfold Turn.queue
        split <;> exact ⟨rfl, rfl⟩
      obtain ⟨pending, faults⟩ := ih (Turn.queue d turn)
      exact ⟨pending.trans kept.1, faults.trans kept.2⟩

/-- A session stays in step with its script. The device is silent, no read of it fails, and it has
answers to the first words of the commands from a script; for each word the script has them in the order
of the commands. Then each command gets its own answer, and nothing is left unread after it. -/
theorem converse_in_step (settings : ExchangeSettings) {reads : Nat} {d : Device} (w : World)
    {script turns : List Turn} (silent : d.pending = []) (sound : d.faults = 0)
    (fresh : ∀ turn ∈ turns, ∀ answer ∈ d.answers, answer.1 ≠ turn.word)
    (rehearsed : ∀ word, (turns.filter fun turn => turn.word = word) <+:
      script.filter fun turn => turn.word = word)
    (enough : ∀ turn ∈ turns, turn.lines.length ≤ reads) :
    (converse { settings with commandDeadline := none } reads turns
        { w with device := script.foldl Turn.queue d, pace := none }).map
        (fun outcome => (outcome.1, outcome.2.device.pending)) =
      turns.map fun turn => (.ok turn.response, []) := by
  obtain ⟨pending, faults⟩ := foldl_queue_keeps d script
  refine Ready.converse ⟨rfl, faults.trans sound, pending.trans silent, fun word => ?_⟩ enough
  have order := (rehearsed word).map Turn.lines
  have answers := queued_foldl_queue d script word
  cases asked : turns.filter fun turn => turn.word = word with
  | nil => simp
  | cons turn later =>
      have among : turn ∈ turns.filter fun turn => turn.word = word := by simp [asked]
      obtain ⟨member, named⟩ := List.mem_filter.1 among
      have none : queued d.answers word = [] := by
        rw [queued, List.filter_eq_nil_iff.2, List.map_nil]
        intro answer known same
        exact fresh turn member answer known ((of_decide_eq_true same).trans (of_decide_eq_true named).symm)
      rw [none, List.nil_append] at answers
      rw [← asked, answers]
      exact order

/-- Answers that were given in another order, with what looks like a status in a body. -/
theorem converse_interleaved :
    let first : Turn := { command := "init 21 22", body := "Status: Failure\n\nlast" }
    let second : Turn := { command := "lock", payload := some [0x0D], success := false, body := "" }
    let third : Turn := { command := "init", success := false, body := "COMMAND\n" }
    (converse { ExchangeSettings.standard with commandDeadline := none } 6 [first, second, third]
        { device := [first, third, second].foldl Turn.queue {}, pace := none }).map
        (fun outcome => (outcome.1, outcome.2.device.pending)) =
      [(.ok ⟨true, "Status: Failure\n\nlast\n"⟩, []), (.ok ⟨false, ""⟩, []),
        (.ok ⟨false, "COMMAND\n"⟩, [])] := by
  intro first second third
  have inits : first.word = "init" ∧ third.word = "init" ∧ second.word = "lock" := by decide
  obtain ⟨same, again, other⟩ := inits
  have rehearsed : ∀ word, ([first, second, third].filter fun turn => turn.word = word) <+:
      [first, third, second].filter fun turn => turn.word = word := by
    intro word
    by_cases init : "init" = word
    · subst init
      simp [same, again, other]
    · by_cases lock : "lock" = word <;> simp [same, again, other, init, lock]
  have fresh : ∀ turn ∈ [first, second, third], ∀ answer ∈ ({} : Device).answers,
      answer.1 ≠ turn.word := by simp
  have enough : ∀ turn ∈ [first, second, third], turn.lines.length ≤ 6 := by
    simp only [List.forall_mem_cons, List.not_mem_nil, false_implies, implies_true, and_true]
    exact ⟨by decide, by decide, by decide⟩
  have responses : first.response = ⟨true, "Status: Failure\n\nlast\n"⟩ ∧
      second.response = ⟨false, ""⟩ ∧ third.response = ⟨false, "COMMAND\n"⟩ := by decide
  obtain ⟨one, two, three⟩ := responses
  rw [← one, ← two, ← three]
  exact converse_in_step .standard { device := {} } rfl rfl fresh rehearsed enough

end SecureElement.Bench
