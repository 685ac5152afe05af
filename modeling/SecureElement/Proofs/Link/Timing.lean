import SecureElement.Link.Exchange
import SecureElement.Proofs.Link.Legible
import SecureElement.Proofs.Link.Paths
import SecureElement.Proofs.Link.Pieces

/-!
Exchanges over a serial port.

A port hands out a line as far as it has come when the wait is over, and an exchange takes each such
piece as a line. So the result depends on where the response was cut: it is the one that the device sent
exactly if the pieces make it (`Legible`). Cuts between lines, within the lines of progress and between
the characters of the body do no harm; a cut in one of the marks does, and every response can be cut so
that no mark is left (`exec_over_port`).
-/

namespace SecureElement

open SerialLine

/-! ### Ports in use -/

/-- A port in use. -/
structure Listener where
  /-- The outcomes of the reads to come. -/
  events : List PortEvent
  /-- How many lines have been read. -/
  count : Nat
  /-- The wait for a line. -/
  timeout : Duration

/-- The answer to a query over a port, and the port afterwards. After the last outcome nothing more
comes, and every read is over by its timeout. -/
def Listener.answer (begins : Nat → Duration) (q : Query) (l : Listener) : q.Answer × Listener :=
  match q with
  | .readLine =>
      match SerialLine.readLine (begins l.count) l.timeout l.events with
      | (.finished line, rest) => (.ok line, ⟨rest, l.count + 1, l.timeout⟩)
      | (.more line, rest) => (.ok line, ⟨rest, l.count + 1, l.timeout⟩)
      | (.failed, rest) => (.error readFault, ⟨rest, l.count + 1, l.timeout⟩)
  | .setReadTimeout timeout => ((), { l with timeout })
  | .elapsed => (begins l.count, l)
  | .openPort _ => (true, l)
  | .write _ => ((), l)
  | .sleep _ => ((), l)
  | .wallClock => (0, l)
  | .readFile _ => (none, l)
  | .writeFile _ _ => (false, l)
  | .log _ => ((), l)

/-- A port as the surroundings of an exchange. `begins` tells when the reading of each line begins. -/
def overPort (begins : Nat → Duration) : Dialogue.Surroundings Listener := ⟨Listener.answer begins⟩

namespace Exchange

variable {begins : Nat → Duration} {command : String} {start : Duration}

/-- The result of an exchange, from what the pieces did to the response. -/
def verdict (command : String) : Progress → Except ExchangeError Response
  | .more _ => .error .outOfReads
  | .finished response => .ok response
  | .missingStatus => .error (.missingStatus command)

theorem run_collect_succ {l l' : Listener} {piece : Octets}
    (read : Listener.answer begins .readLine l = (.ok piece, l')) (reads : Nat) (reading : Reading) :
    (Dialogue.run (overPort begins) (collect command none start (reads + 1) reading).run l).1 =
      match reading.hear piece with
      | .more reading =>
          (Dialogue.run (overPort begins) (collect command none start reads reading).run l').1
      | progress => verdict command progress := by
  have answered : (overPort begins).answer .readLine l = (.ok piece, l') := read
  simp only [collect, checkDeadline, readLine, pure_bind, bind_assoc]
  rw [Session.run_query_bind, answered]
  simp only [pure_bind]
  by_cases none : piece = []
  · subst none
    simp only [if_true, Reading.hear_nil]
  · simp only [none, if_false, Reading.hear]
    cases decoded : Utf8.decode piece with
    | none =>
        simp only
        rfl
    | some line =>
        simp only
        cases reading.feed line with
        | more reading => rfl
        | finished response => rfl
        | missingStatus => rfl

/-- Once nothing more comes a response stays as it is. -/
theorem run_collect_of_silent {l : Listener} (silent : l.events = []) (reads : Nat)
    (reading : Reading) :
    (Dialogue.run (overPort begins) (collect command none start reads reading).run l).1 =
      .error .outOfReads := by
  induction reads generalizing l with
  | zero => rfl
  | succ reads ih =>
      obtain ⟨events, count, timeout⟩ := l
      cases silent
      have read : Listener.answer begins .readLine ⟨[], count, timeout⟩ =
          (.ok [], ⟨[], count + 1, timeout⟩) := rfl
      rw [run_collect_succ read, Reading.hear_nil]
      exact ih rfl

/-- Collecting a response over a port is listening to the pieces, as far as there are reads. -/
theorem run_collect {l : Listener} (unfailing : Unfailing l.events) (reads : Nat)
    (reading : Reading) :
    (Dialogue.run (overPort begins) (collect command none start reads reading).run l).1 =
      verdict command
        (reading.listen ((pieces begins l.timeout l.count [] l.events).take reads)) := by
  induction reads generalizing l reading with
  | zero => rfl
  | succ reads ih =>
      obtain ⟨events, count, timeout⟩ := l
      have later := unfailing.readOn ⟨(begins count).nanos + timeout.nanos⟩ []
      have fine := unfailing.readOn_ne_failed ⟨(begins count).nanos + timeout.nanos⟩ []
      rw [pieces_eq]
      cases outcome : readOn ⟨(begins count).nanos + timeout.nanos⟩ [] events with
      | mk progress rest =>
          rw [outcome] at later fine
          cases progress with
          | failed => exact absurd rfl fine
          | finished whole =>
              have read : Listener.answer begins .readLine ⟨events, count, timeout⟩ =
                  (.ok whole, ⟨rest, count + 1, timeout⟩) := by
                simp [Listener.answer, SerialLine.readLine, outcome]
              rw [run_collect_succ read, List.take_succ_cons, Reading.listen]
              cases reading.hear whole with
              | more reading => exact ih later reading
              | finished response => rfl
              | missingStatus => rfl
          | more part =>
              obtain rfl := readOn_more_rest outcome
              have read : Listener.answer begins .readLine ⟨events, count, timeout⟩ =
                  (.ok part, ⟨[], count + 1, timeout⟩) := by
                simp [Listener.answer, SerialLine.readLine, outcome]
              rw [run_collect_succ read, List.take_succ_cons, List.take_nil, Reading.listen]
              cases reading.hear part with
              | more reading => exact run_collect_of_silent rfl reads reading
              | finished response => rfl
              | missingStatus => rfl

/-- The result of an exchange without a deadline over a port with these outcomes. It may read until
nothing more comes, and `spare` times more. -/
def resultOver (begins : Nat → Duration) (settings : ExchangeSettings) (command : String)
    (payload : Option Octets) (events : List PortEvent) (spare : Nat) :
    Except ExchangeError Response :=
  (Dialogue.run (overPort begins)
    (exec { settings with commandDeadline := none } (events.length + 1 + spare) command payload).run
    ⟨events, 0, (PortSettings.standard "").readTimeout⟩).1

variable {settings : ExchangeSettings} {payload : Option Octets} {events : List PortEvent}
  {spare : Nat}

theorem resultOver_eq (unfailing : Unfailing events) :
    resultOver begins settings command payload events spare =
      verdict command (Reading.awaitingStatus.listen
        (pieces begins settings.commandReadTimeout 0 [] events)) := by
  have opened : resultOver begins settings command payload events spare =
      (Dialogue.run (overPort begins)
        (collect command none (begins 0) (events.length + 1 + spare) .awaitingStatus).run
        ⟨events, 0, settings.commandReadTimeout⟩).1 := by
    cases payload <;> rfl
  rw [opened, run_collect unfailing, List.take_of_length_le]
  exact Nat.le_trans (length_pieces_le _ _ _) (Nat.le_add_right _ _)

/-- A response is the result exactly if the pieces make it. -/
theorem resultOver_eq_ok_iff (unfailing : Unfailing events) {response : Response} :
    resultOver begins settings command payload events spare = .ok response ↔
      Legible (pieces begins settings.commandReadTimeout 0 [] events) response := by
  rw [resultOver_eq unfailing, ← Reading.listen_eq_finished_iff]
  cases Reading.awaitingStatus.listen (pieces begins settings.commandReadTimeout 0 [] events) <;>
    simp [verdict]

end Exchange

/-! ### Whole responses -/

/-- A whole response as a device sends it: lines of progress without marks, a line with a status, the
lines of the body, and the first line from there with the end mark. -/
structure Reply where
  progress : List Octets
  statusLine : Octets
  body : List Octets
  endLine : Octets
  each : ∀ line ∈ progress ++ statusLine :: body ++ [endLine],
    IsLine line ∧ ∃ text, Utf8.decode line = some text
  quiet : ∀ line ∈ progress, ¬ Marked line
  status : shows successMark statusLine = true ∨ shows failureMark statusLine = true
  endless : ∀ line ∈ body, shows endMark line = false
  ends : shows endMark endLine = true

/-- The shortest response. -/
instance : Inhabited Reply where
  default :=
    { progress := []
      statusLine := Octets.ofAscii (successMark ++ "\n")
      body := []
      endLine := Octets.ofAscii (endMark ++ "\n")
      each := by
        intro line member
        simp only [List.nil_append, List.cons_append, List.mem_cons, List.not_mem_nil,
          or_false] at member
        rcases member with rfl | rfl
        · exact ⟨⟨Octets.ofAscii successMark, by decide, by decide⟩,
            successMark ++ "\n", by decide⟩
        · exact ⟨⟨Octets.ofAscii endMark, by decide, by decide⟩,
            endMark ++ "\n", by decide⟩
      quiet := by simp
      status := .inl (by decide)
      endless := by simp
      ends := by decide }

namespace Reply

/-- The lines of a response. -/
def lines (reply : Reply) : List Octets :=
  reply.progress ++ reply.statusLine :: reply.body ++ [reply.endLine]

/-- What a device sends. -/
def octets (reply : Reply) : Octets := reply.lines.flatten

/-- What is to be made of it. -/
def response (reply : Reply) : Response :=
  ⟨shows successMark reply.statusLine, Utf8.texts reply.body⟩

variable (reply : Reply)

theorem tells_status : Tells reply.statusLine reply.response.success := by
  refine ⟨rfl, fun failed => ?_⟩
  rcases reply.status with success | failure
  · have failed : shows successMark reply.statusLine = false := failed
    rw [success] at failed
    cases failed
  · exact failure

/-- The pieces make the response if the line with the status is whole, the end mark too, and the body
is cut only between characters. The lines of progress may be cut anywhere. -/
theorem legible_of_cut {pieces before between after : List Octets} {last : Octets}
    (cut : pieces = before ++ reply.statusLine :: between ++ last :: after)
    (feeds : ∀ piece ∈ pieces, 0x0A ∉ piece.dropLast)
    (progress : before.flatten = reply.progress.flatten)
    (body : between.flatten = reply.body.flatten)
    (readable : ∀ piece ∈ between, ∃ text, Utf8.decode piece = some text)
    (ends : shows endMark last = true) : Legible pieces reply.response := by
  subst cut
  refine ⟨before, reply.statusLine, between ++ last :: after, by simp, ?_, reply.tells_status,
    between, last, after, rfl, ?_, ?_, ends⟩
  · intro piece member marked
    obtain ⟨line, listed, part⟩ := exists_line_of_mem
      (fun line listed => (reply.each line (by simp [listed])).1) progress member marked.ne_nil
      (feeds piece (by simp [member]))
    exact reply.quiet line listed (marked.of_within part (reply.each line (by simp [listed])).2)
  · intro piece member
    rw [← Bool.not_eq_true]
    intro shown
    have marked : Marked piece := .inr (.inr shown)
    obtain ⟨line, listed, part⟩ := exists_line_of_mem
      (fun line listed => (reply.each line (by simp [listed])).1) body member marked.ne_nil
      (feeds piece (by simp [member]))
    have hidden := reply.endless line listed
    rw [shows_of_within part (reply.each line (by simp [listed])).2 shown] at hidden
    cases hidden
  · have whole : Utf8.decode reply.body.flatten = some (Utf8.texts reply.body) :=
      Utf8.decode_flatten fun line listed => (reply.each line (by simp [listed])).2
    have pieced := Utf8.decode_flatten readable
    rw [body, whole] at pieced
    exact (Option.some.inj pieced).symm

theorem legible_lines : Legible reply.lines reply.response :=
  ⟨reply.progress, reply.statusLine, reply.body ++ [reply.endLine], by simp [lines], reply.quiet,
    reply.tells_status, reply.body, reply.endLine, [], rfl, reply.endless, rfl, reply.ends⟩

end Reply

/-! ### Deliveries -/

/-- One way in which octets come over a port: what each read brings and when. No read fails. -/
structure Delivery (octets : Octets) where
  events : List PortEvent
  brings : octetsOf events = octets
  unfailing : Unfailing events

/-- All octets are there before the first read. -/
def Delivery.atOnce (octets : Octets) : Delivery octets where
  events := octets.map fun b => ⟨.octet b, ⟨0⟩⟩
  brings := by
    induction octets with
    | nil => rfl
    | cons b octets ih => exact congrArg (b :: ·) ih
  unfailing := by
    intro event member
    obtain ⟨b, -, rfl⟩ := List.mem_map.1 member
    simp

theorem Delivery.prompt_atOnce (begins : Nat → Duration) {timeout : Duration}
    (long : 0 < timeout.nanos) (octets : Octets) :
    Prompt begins timeout (Delivery.atOnce octets).events := by
  intro event member
  obtain ⟨b, -, rfl⟩ := List.mem_map.1 member
  refine ⟨⟨b, rfl⟩, fun count => ?_⟩
  have soon : 0 < (begins count).nanos + timeout.nanos := Nat.add_pos_right _ long
  exact soon

/-- Each octet comes by itself, and the wait is over before the next. -/
def Delivery.slow (octets : Octets) : Delivery octets where
  events := octets.flatMap fun b => [⟨.octet b, ⟨0⟩⟩, ⟨.timedOut, ⟨0⟩⟩]
  brings := by
    induction octets with
    | nil => rfl
    | cons b octets ih =>
        rw [List.flatMap_cons]
        exact congrArg (b :: ·) ih
  unfailing := by
    intro event member
    obtain ⟨b, -, one⟩ := List.mem_flatMap.1 member
    simp only [List.mem_cons, List.not_mem_nil, or_false] at one
    rcases one with rfl | rfl <;> simp

theorem length_le_one_of_slow {begins : Nat → Duration} {timeout : Duration} {octets : Octets}
    {count : Nat} {piece : Octets}
    (member : piece ∈ pieces begins timeout count [] (Delivery.slow octets).events) :
    piece.length ≤ 1 := by
  induction octets generalizing count with
  | nil =>
      obtain rfl := List.mem_singleton.1 member
      simp
  | cons b octets ih =>
      have events : (Delivery.slow (b :: octets)).events =
          ⟨.octet b, ⟨0⟩⟩ :: ⟨.timedOut, ⟨0⟩⟩ :: (Delivery.slow octets).events := rfl
      rw [events, pieces] at member
      by_cases late : b = 0x0A ∨ (begins count).nanos + timeout.nanos ≤ 0
      · simp only [step, late, if_true, pieces, List.nil_append, List.mem_cons] at member
        rcases member with rfl | rfl | member
        · exact Nat.le_refl 1
        · exact Nat.zero_le 1
        · exact ih member
      · simp only [step, late, if_false, pieces, List.nil_append, List.mem_cons] at member
        rcases member with rfl | member
        · exact Nat.le_refl 1
        · exact ih member

/-- The result of an exchange without a deadline, for every response and every way in which it comes
over a port that does not fail. If no wait is over before its line is, the result is the response; so it
is if all octets are there before the first read, as long as lines are waited for at all. In general a
response is the result exactly if the pieces that were read make it, whatever they are: they put together
are what was sent, and a line feed stands only at the end of a piece. The line with the status whole, the
end mark too and the body cut only between characters is enough. But every response can come so that it
is waited for in vain. -/
theorem exec_over_port (begins : Nat → Duration) (settings : ExchangeSettings) (command : String)
    (payload : Option Octets) (reply : Reply) (delivery : Delivery reply.octets) (spare : Nat) :
    let read := pieces begins settings.commandReadTimeout 0 [] delivery.events
    let result := fun (delivery : Delivery reply.octets) =>
      Exchange.resultOver begins settings command payload delivery.events spare
    (∀ prompt : Delivery reply.octets, Prompt begins settings.commandReadTimeout prompt.events →
      result prompt = .ok reply.response) ∧
    (0 < settings.commandReadTimeout.nanos → result (.atOnce reply.octets) = .ok reply.response) ∧
    read.flatten = reply.octets ∧
    (∀ piece ∈ read, 0x0A ∉ piece.dropLast) ∧
    (∀ response, result delivery = .ok response ↔ Legible read response) ∧
    (∀ before between last after,
      read = before ++ reply.statusLine :: between ++ last :: after →
      before.flatten = reply.progress.flatten →
      between.flatten = reply.body.flatten →
      (∀ piece ∈ between, ∃ text, Utf8.decode piece = some text) →
      shows endMark last = true →
      result delivery = .ok reply.response) ∧
    result (.slow reply.octets) = .error .outOfReads := by
  intro read result
  have made : ∀ response, result delivery = .ok response ↔ Legible read response := fun response =>
    Exchange.resultOver_eq_ok_iff delivery.unfailing
  have feeds : ∀ piece ∈ read, 0x0A ∉ piece.dropLast := fun piece member =>
    not_mem_dropLast_of_mem_pieces delivery.unfailing (by simp) member
  have prompts : ∀ prompt : Delivery reply.octets,
      Prompt begins settings.commandReadTimeout prompt.events → result prompt = .ok reply.response := by
    intro prompt early
    have whole : ∀ line ∈ reply.lines, IsLine line := fun line member => (reply.each line member).1
    refine (Exchange.resultOver_eq_ok_iff prompt.unfailing).2 ?_
    rw [pieces_eq_linesFrom early, prompt.brings, Reply.octets, linesFrom_flatten whole]
    exact reply.legible_lines.append _
  refine ⟨prompts, ?_, ?_, feeds, made, ?_, ?_⟩
  · intro long
    exact prompts _ (Delivery.prompt_atOnce begins long reply.octets)
  · have whole : read.flatten = [] ++ octetsOf delivery.events :=
      flatten_pieces delivery.unfailing 0 []
    rw [delivery.brings] at whole
    exact whole
  · intro before between last after cut progress body readable ends
    exact (made _).2 (reply.legible_of_cut cut feeds progress body readable ends)
  · have quiet : ∀ piece ∈ pieces begins settings.commandReadTimeout 0 []
        (Delivery.slow reply.octets).events, ¬ Marked piece := fun piece member =>
      not_marked_of_length_le_one (length_le_one_of_slow member)
    have unheard := Reading.listen_of_not_marked quiet
    exact (Exchange.resultOver_eq (Delivery.slow reply.octets).unfailing).trans (by rw [unheard]; rfl)

end SecureElement
