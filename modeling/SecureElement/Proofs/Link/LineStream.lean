import SecureElement.Link.OpenLine
import SecureElement.Proofs.Link.Timing

/-!
The octets of an open line.

Whatever a line is asked for and however its port delivers, what is returned line by line is what the port
delivered: no octet is lost, none comes twice, and none changes its place (`serve_keeps_stream`). A line ends
with the outcome of a read that is a line feed, that is a timeout, or that comes when the wait is over, and
with the first such outcome (`PortEvent.Ends`).
-/

namespace SecureElement.SerialLine

/-! ### Outcomes that end a line -/

/-- The outcome of a read ends a line that is to be over by a deadline. -/
def PortEvent.Ends (deadline : Duration) (event : PortEvent) : Prop :=
  event.read = .octet 0x0A ∨ event.read = .timedOut ∨ deadline.nanos ≤ event.time.nanos

variable {deadline : Duration} {event : PortEvent} {events : List PortEvent}

theorem step_of_ends (fine : event.read ≠ .failed) (ends : event.Ends deadline) (line : Octets) :
    step deadline line event = .finished (line ++ event.read.octet?.toList) := by
  obtain ⟨read, time⟩ := event
  cases read with
  | failed => exact absurd rfl fine
  | timedOut => simp [step, PortRead.octet?]
  | nothing | interrupted =>
      have late : deadline.nanos ≤ time.nanos := by simpa [PortEvent.Ends] using ends
      simp [step, late, PortRead.octet?]
  | octet b =>
      have late : b = 0x0A ∨ deadline.nanos ≤ time.nanos := by simpa [PortEvent.Ends] using ends
      simp [step, late, PortRead.octet?]

theorem step_of_not_ends (fine : event.read ≠ .failed) (open_ : ¬ event.Ends deadline)
    (line : Octets) : step deadline line event = .more (line ++ event.read.octet?.toList) := by
  obtain ⟨read, time⟩ := event
  cases read with
  | failed => exact absurd rfl fine
  | timedOut => exact absurd (.inr (.inl rfl)) open_
  | nothing | interrupted =>
      have early : ¬ deadline.nanos ≤ time.nanos := by simpa [PortEvent.Ends] using open_
      simp [step, early, PortRead.octet?]
  | octet b =>
      have early : ¬ (b = 0x0A ∨ deadline.nanos ≤ time.nanos) := by
        simpa [PortEvent.Ends] using open_
      simp [step, early, PortRead.octet?]

theorem octetsOf_append (first second : List PortEvent) :
    octetsOf (first ++ second) = octetsOf first ++ octetsOf second :=
  List.filterMap_append

/-- A line is over with the first outcome that ends one, and goes on if there is none. -/
theorem readOn_cases (unfailing : Unfailing events) (deadline : Duration) (line : Octets) :
    (∃ before last rest, events = before ++ last :: rest ∧ (∀ e ∈ before, ¬ e.Ends deadline) ∧
      last.Ends deadline ∧
      readOn deadline line events = (.finished (line ++ octetsOf (before ++ [last])), rest)) ∨
    readOn deadline line events = (.more (line ++ octetsOf events), []) := by
  induction events generalizing line with
  | nil => exact .inr (by simp [readOn, octetsOf])
  | cons event events ih =>
      have fine := unfailing event (by simp)
      have later : Unfailing events := fun other member => unfailing other (by simp [member])
      by_cases ends : event.Ends deadline
      · refine .inl ⟨[], event, events, rfl, by simp, ends, ?_⟩
        rw [readOn, step_of_ends fine ends, List.nil_append, octetsOf_cons]
        simp [octetsOf]
      · rw [readOn, step_of_not_ends fine ends]
        simp only [octetsOf_cons, ← List.append_assoc]
        rcases ih later (line ++ event.read.octet?.toList) with
          ⟨before, last, rest, rfl, open_, closes, read⟩ | read
        · refine .inl ⟨event :: before, last, rest, rfl, ?_, closes, ?_⟩
          · rintro e (_ | ⟨_, member⟩)
            · exact ends
            · exact open_ e member
          · rw [read, List.cons_append, octetsOf_cons, ← List.append_assoc]
        · exact .inr read

/-! ### Calls -/

/-- What an open line is asked for, and what its port makes of it. -/
inductive Call where
  /-- The next line, begun at a time. -/
  | readLine (start : Duration)
  | write (octets : Octets) (outcome : WriteOutcome)
  | setReadTimeout (timeout : Duration) (taken : Bool)

/-- A line that was returned. -/
structure Returned where
  start : Duration
  /-- The read timeout that was in force. -/
  timeout : Duration
  /-- The outcomes of the reads that were made for it. -/
  events : List PortEvent
  octets : Octets

/-- The time at which the wait for a line is over. -/
def Returned.due (r : Returned) : Duration :=
  ⟨r.start.nanos + r.timeout.nanos⟩

/-- The lines that calls return, what a call has read that has not returned when there are no more outcomes,
and the open line afterwards. -/
def serve : OpenLine → List Call → List Returned × Option Octets × OpenLine
  | l, [] => ([], none, l)
  | l, .write octets outcome :: calls => serve (l.write octets outcome) calls
  | l, .setReadTimeout timeout taken :: calls => serve (l.setReadTimeout timeout taken) calls
  | l, .readLine start :: calls =>
      match l.readLine start with
      | (.finished octets, after) =>
          let used := l.events.take (l.events.length - after.events.length)
          let (lines, rest) := serve after calls
          (⟨start, l.readTimeout, used, octets⟩ :: lines, rest)
      | (.more part, after) => ([], some part, after)
      | (.failed, after) => serve after calls

/-- The beginnings of the lines that are asked for, each with the read timeout then in force. -/
def waits (timeout : Duration) : List Call → List (Duration × Duration)
  | [] => []
  | .readLine start :: calls => (start, timeout) :: waits timeout calls
  | .write _ _ :: calls => waits timeout calls
  | .setReadTimeout timeout _ :: calls => waits timeout calls

namespace OpenLine

variable {l : OpenLine}

@[simp] theorem events_offerTimeout (timeout : Duration) (taken : Bool) (complaint : String) :
    (l.offerTimeout timeout taken complaint).events = l.events := by
  cases taken <;> rfl

@[simp] theorem readTimeout_offerTimeout (timeout : Duration) (taken : Bool) (complaint : String) :
    (l.offerTimeout timeout taken complaint).readTimeout = l.readTimeout := by
  cases taken <;> rfl

@[simp] theorem events_write (octets : Octets) (outcome : WriteOutcome) :
    (l.write octets outcome).events = l.events := by
  rw [write, events_offerTimeout]
  split <;> exact events_offerTimeout _ _ _

@[simp] theorem readTimeout_write (octets : Octets) (outcome : WriteOutcome) :
    (l.write octets outcome).readTimeout = l.readTimeout := by
  rw [write, readTimeout_offerTimeout]
  split <;> exact readTimeout_offerTimeout _ _ _

@[simp] theorem events_setReadTimeout (timeout : Duration) (taken : Bool) :
    (l.setReadTimeout timeout taken).events = l.events :=
  events_offerTimeout _ _ _

@[simp] theorem readTimeout_setReadTimeout (timeout : Duration) (taken : Bool) :
    (l.setReadTimeout timeout taken).readTimeout = timeout :=
  readTimeout_offerTimeout _ _ _

end OpenLine

/-- A line as it came: what the reads brought, up to the first outcome that ends it. -/
structure Returned.AsItCame (r : Returned) : Prop where
  brings : r.octets = octetsOf r.events
  ends : ∃ before last, r.events = before ++ [last] ∧ (∀ e ∈ before, ¬ e.Ends r.due) ∧
    last.Ends r.due

variable {l : OpenLine} {calls : List Call}

/-- A call for a line returns one as it came, or waits for more than there is. -/
theorem serve_readLine (unfailing : Unfailing l.events) (start : Duration) (calls : List Call) :
    (∃ r : Returned, ∃ rest, l.events = r.events ++ rest ∧ r.AsItCame ∧ r.start = start ∧
      r.timeout = l.readTimeout ∧
      serve l (.readLine start :: calls) =
        (r :: (serve { l with events := rest } calls).1, (serve { l with events := rest } calls).2)) ∨
    serve l (.readLine start :: calls) = ([], some (octetsOf l.events), { l with events := [] }) := by
  rw [serve, OpenLine.readLine, SerialLine.readLine]
  rcases readOn_cases unfailing ⟨start.nanos + l.readTimeout.nanos⟩ [] with
    ⟨before, last, rest, events, open_, ends, read⟩ | read
  · refine .inl ⟨⟨start, l.readTimeout, before ++ [last], octetsOf (before ++ [last])⟩, rest, ?_,
      ⟨rfl, before, last, rfl, open_, ends⟩, rfl, rfl, ?_⟩
    · rw [events, List.append_assoc, List.singleton_append]
    · have used : l.events.take (l.events.length - rest.length) = before ++ [last] := by
        have whole : l.events = (before ++ [last]) ++ rest := by simp [events]
        rw [whole, List.length_append, Nat.add_sub_cancel, List.take_left]
      simp only [read, used, List.nil_append]
  · exact .inr (by simp only [read, List.nil_append])

/-- What calls bring about, in terms of the outcomes that were there before and afterwards. -/
structure Serves (l : OpenLine) (calls : List Call) (lines : List Returned) (part : Option Octets)
    (after : OpenLine) : Prop where
  stream : ∃ waiting, (lines.map Returned.events).flatten ++ waiting ++ after.events = l.events ∧
    part.getD [] = octetsOf waiting
  each : ∀ r ∈ lines, r.AsItCame
  inForce : lines.map (fun r => (r.start, r.timeout)) <+: waits l.readTimeout calls
  returns : part = none → lines.length = (waits l.readTimeout calls).length
  exhausted : part ≠ none → after.events = []

theorem serve_serves (unfailing : Unfailing l.events) (calls : List Call) :
    Serves l calls (serve l calls).1 (serve l calls).2.1 (serve l calls).2.2 := by
  induction calls generalizing l with
  | nil =>
      exact ⟨⟨[], rfl, rfl⟩, by simp [serve], List.prefix_refl _, fun _ => rfl,
        fun open_ => absurd rfl open_⟩
  | cons call calls ih =>
      cases call with
      | write octets outcome =>
          have later := ih (l := l.write octets outcome) (by rwa [OpenLine.events_write])
          obtain ⟨stream, each, inForce, returns, exhausted⟩ := later
          rw [OpenLine.events_write] at stream
          rw [OpenLine.readTimeout_write] at inForce returns
          exact ⟨stream, each, inForce, returns, exhausted⟩
      | setReadTimeout timeout taken =>
          have later := ih (l := l.setReadTimeout timeout taken) (by rwa [OpenLine.events_setReadTimeout])
          obtain ⟨stream, each, inForce, returns, exhausted⟩ := later
          rw [OpenLine.events_setReadTimeout] at stream
          rw [OpenLine.readTimeout_setReadTimeout] at inForce returns
          exact ⟨stream, each, inForce, returns, exhausted⟩
      | readLine start =>
          rcases serve_readLine unfailing start calls with
            ⟨r, rest, events, came, rfl, timeout, served⟩ | served
          · have later : Unfailing rest := fun e member => unfailing e (by simp [events, member])
            obtain ⟨⟨waiting, cut, brought⟩, each, inForce, returns, exhausted⟩ :=
              ih (l := { l with events := rest }) later
            rw [served]
            refine ⟨⟨waiting, ?_, brought⟩, ?_, ?_, ?_, exhausted⟩
            · rw [List.map_cons, List.flatten_cons, List.append_assoc, List.append_assoc,
                ← List.append_assoc _ waiting, cut, events]
            · exact List.forall_mem_cons.2 ⟨came, each⟩
            · rw [List.map_cons, timeout, waits]
              exact (List.prefix_cons_inj _).2 inForce
            · exact fun none => congrArg (· + 1) (returns none)
          · rw [served]
            refine ⟨⟨l.events, ?_, rfl⟩, by simp, List.nil_prefix, ?_, fun _ => rfl⟩
            · simp
            · exact fun none => absurd none (by simp)

/-- Lines as they came are together what was brought. -/
theorem flatten_octets {lines : List Returned} (each : ∀ r ∈ lines, r.AsItCame) :
    (lines.map Returned.octets).flatten = octetsOf (lines.map Returned.events).flatten := by
  induction lines with
  | nil => rfl
  | cons r lines ih =>
      obtain ⟨came, others⟩ := List.forall_mem_cons.1 each
      rw [List.map_cons, List.map_cons, List.flatten_cons, List.flatten_cons, octetsOf_append,
        came.brings, ih others]

/-! ### Lines as they came -/

/-- A line feed stands only at the end of a line. -/
theorem Returned.AsItCame.feed {r : Returned} (came : r.AsItCame) : 0x0A ∉ r.octets.dropLast := by
  obtain ⟨brings, before, last, events, open_, -⟩ := came
  have plain : 0x0A ∉ octetsOf before := by
    intro member
    obtain ⟨e, listed, octet⟩ := List.mem_filterMap.1 member
    refine open_ e listed (.inl ?_)
    cases read : e.read <;> simp_all [PortRead.octet?]
  rw [brings, events, octetsOf_append, octetsOf_cons]
  cases octet : last.read.octet? with
  | none =>
      simp only [octetsOf, Option.toList_none, List.filterMap_nil, List.append_nil]
      exact fun inside => plain (List.dropLast_subset _ inside)
  | some b =>
      simp only [octetsOf, Option.toList_some, List.singleton_append, List.filterMap_nil,
        List.dropLast_concat]
      exact plain

/-- A line that does not end with a line feed is over by a timeout, or because the wait is over. -/
theorem Returned.AsItCame.late {r : Returned} (came : r.AsItCame)
    (unended : r.octets.getLast? ≠ some 0x0A) :
    ∃ last, r.events.getLast? = some last ∧
      (last.read = .timedOut ∨ r.due.nanos ≤ last.time.nanos) := by
  obtain ⟨brings, before, last, events, -, feed | late⟩ := came
  · refine absurd ?_ unended
    rw [brings, events, octetsOf_append, octetsOf_cons, feed]
    simp [octetsOf, PortRead.octet?]
  · exact ⟨last, by rw [events, List.getLast?_concat], late⟩

/-- Without a wait one read is made. -/
theorem Returned.AsItCame.length_le_one {r : Returned} (came : r.AsItCame)
    (none : r.timeout.nanos = 0) (forward : ∀ e ∈ r.events, r.start.nanos ≤ e.time.nanos) :
    r.octets.length ≤ 1 := by
  obtain ⟨brings, before, last, events, open_, -⟩ := came
  cases before with
  | nil =>
      rw [brings, events]
      exact List.length_filterMap_le _ _
  | cons e before =>
      have late : r.due.nanos ≤ e.time.nanos := by
        have begun := forward e (by simp [events])
        rw [Returned.due, none]
        exact begun
      exact absurd (.inr (.inr late)) (open_ e (by simp))

/-! ### The timeout of the port -/

/-- The port takes the timeout for reading that the call leaves behind. -/
def Call.Taken : Call → Prop
  | .readLine _ => True
  | .write _ outcome => outcome.restored = true
  | .setReadTimeout _ taken => taken = true

/-- Between calls the port waits as long as reading is to wait, if it takes that timeout. -/
theorem portTimeout_serve (taken : ∀ call ∈ calls, call.Taken)
    (same : l.portTimeout = l.readTimeout) :
    (serve l calls).2.2.portTimeout = (serve l calls).2.2.readTimeout := by
  induction calls generalizing l with
  | nil => exact same
  | cons call calls ih =>
      obtain ⟨here, later⟩ := List.forall_mem_cons.1 taken
      cases call with
      | write octets outcome =>
          refine ih (l := l.write octets outcome) later ?_
          rw [OpenLine.readTimeout_write, OpenLine.write, OpenLine.offerTimeout,
            show outcome.restored = true from here, if_pos rfl]
          split <;> exact OpenLine.readTimeout_offerTimeout _ _ _
      | setReadTimeout timeout accepted =>
          refine ih (l := l.setReadTimeout timeout accepted) later ?_
          rw [OpenLine.readTimeout_setReadTimeout, OpenLine.setReadTimeout, OpenLine.offerTimeout,
            show accepted = true from here, if_pos rfl]
      | readLine start =>
          rw [serve, OpenLine.readLine]
          cases readLine start l.readTimeout l.events with
          | mk progress rest =>
              cases progress with
              | finished octets => exact ih (l := { l with events := rest }) later same
              | more part => exact same
              | failed => exact ih (l := { l with events := rest }) later same

/-! ### Octets that are there -/

/-- The outcomes of reads if all octets are there and the clock stands still: the octets, and then nothing
more as often as is said. -/
def allThere (now : Duration) (octets : Octets) (spare : Nat) : List PortEvent :=
  octets.map (fun b => ⟨.octet b, now⟩) ++ List.replicate spare ⟨.timedOut, now⟩

/-- A call at a time, under a timeout that leaves time to read. -/
def Call.Leaves (now : Duration) : Call → Prop
  | .readLine start => start = now
  | .write _ _ => True
  | .setReadTimeout timeout _ => 0 < timeout.nanos

/-- Octets without a line feed that come before the wait is over leave a line open. -/
theorem readOn_of_plain {now : Duration} (early : now.nanos < deadline.nanos) {content : Octets}
    (plain : 0x0A ∉ content) (line : Octets) (events : List PortEvent) :
    readOn deadline line (content.map (fun b => ⟨.octet b, now⟩) ++ events) =
      readOn deadline (line ++ content) events := by
  induction content generalizing line with
  | nil => simp
  | cons b content ih =>
      simp only [List.mem_cons, not_or] at plain
      have open_ : ¬ PortEvent.Ends deadline ⟨.octet b, now⟩ := by
        rintro (feed | timeout | late)
        · cases feed
          exact plain.1 rfl
        · cases timeout
        · exact Nat.not_le.2 early late
      rw [List.map_cons, List.cons_append, readOn, step_of_not_ends (by simp) open_]
      simp only [PortRead.octet?, Option.toList_some]
      rw [ih plain.2, List.append_assoc, List.singleton_append]

theorem readLine_of_line (now : Duration) {timeout : Duration} (positive : 0 < timeout.nanos) {line : Octets}
    (whole : IsLine line) (rest : Octets) (spare : Nat) :
    readLine now timeout (allThere now (line ++ rest) spare) =
      (.finished line, allThere now rest spare) := by
  obtain ⟨content, rfl, plain⟩ := whole
  have early : now.nanos < (⟨now.nanos + timeout.nanos⟩ : Duration).nanos :=
    Nat.lt_add_of_pos_right positive
  have ends : PortEvent.Ends ⟨now.nanos + timeout.nanos⟩ ⟨.octet 0x0A, now⟩ := .inl rfl
  rw [readLine, allThere, List.map_append, List.map_append, List.append_assoc, List.append_assoc,
    readOn_of_plain early plain, List.map_singleton, List.singleton_append, readOn,
    step_of_ends (by simp) ends]
  rfl

theorem readLine_of_rest (now : Duration) {timeout : Duration} (positive : 0 < timeout.nanos) {rest : Octets}
    (plain : 0x0A ∉ rest) (spare : Nat) :
    readLine now timeout (allThere now rest (spare + 1)) =
      (.finished rest, allThere now [] spare) := by
  have early : now.nanos < (⟨now.nanos + timeout.nanos⟩ : Duration).nanos :=
    Nat.lt_add_of_pos_right positive
  have ends : PortEvent.Ends ⟨now.nanos + timeout.nanos⟩ ⟨.timedOut, now⟩ := .inr (.inl rfl)
  rw [readLine, allThere, readOn_of_plain early plain, List.replicate_succ, readOn,
    step_of_ends (by simp) ends]
  simp [allThere, PortRead.octet?]

theorem serve_of_finished {start : Duration} {octets : Octets} {rest : List PortEvent}
    (read : readLine start l.readTimeout l.events = (.finished octets, rest)) (calls : List Call) :
    ∃ r : Returned, r.octets = octets ∧
      serve l (.readLine start :: calls) =
        (r :: (serve { l with events := rest } calls).1, (serve { l with events := rest } calls).2) := by
  rw [serve, OpenLine.readLine, read]
  exact ⟨⟨start, l.readTimeout, _, octets⟩, rfl, rfl⟩

/-- Calls return the lines that are there, then what follows the last line feed, and then nothing. -/
theorem serve_allThere {now : Duration} (calls : List Call) (still : ∀ call ∈ calls, call.Leaves now)
    (positive : 0 < l.readTimeout.nanos) {whole : List Octets} (each : ∀ line ∈ whole, IsLine line)
    {rest : Octets} (plain : 0x0A ∉ rest) {spare : Nat} (enough : calls.length ≤ spare)
    (there : l.events = allThere now (whole.flatten ++ rest) spare) :
    (serve l calls).2.1 = none ∧
      (serve l calls).1.map Returned.octets =
        (List.range (serve l calls).1.length).map fun n => (whole ++ [rest]).getD n [] := by
  induction calls generalizing l whole rest spare with
  | nil => exact ⟨rfl, rfl⟩
  | cons call calls ih =>
      obtain ⟨here, later⟩ := List.forall_mem_cons.1 still
      rw [List.length_cons] at enough
      have fewer : calls.length ≤ spare := Nat.le_of_succ_le enough
      cases call with
      | write octets outcome =>
          exact ih (l := l.write octets outcome) later (by rwa [OpenLine.readTimeout_write]) each plain
            fewer (by rwa [OpenLine.events_write])
      | setReadTimeout timeout taken =>
          exact ih (l := l.setReadTimeout timeout taken) later
            (by rwa [OpenLine.readTimeout_setReadTimeout]) each plain fewer
            (by rwa [OpenLine.events_setReadTimeout])
      | readLine start =>
          obtain rfl : start = now := here
          cases whole with
          | cons line whole =>
              obtain ⟨first, others⟩ := List.forall_mem_cons.1 each
              rw [List.flatten_cons, List.append_assoc] at there
              have read := readLine_of_line start positive first (whole.flatten ++ rest) spare
              obtain ⟨r, octets, served⟩ := serve_of_finished (there ▸ read) calls
              obtain ⟨returns, lines⟩ := ih
                (l := { l with events := allThere start (whole.flatten ++ rest) spare })
                later positive others plain fewer rfl
              rw [served]
              refine ⟨returns, ?_⟩
              rw [List.map_cons, lines, octets, List.length_cons, List.range_succ_eq_map, List.map_cons,
                List.map_map]
              rfl
          | nil =>
              obtain ⟨spare, rfl⟩ : ∃ k, spare = k + 1 := ⟨spare - 1, by omega⟩
              have read := readLine_of_rest start positive plain spare
              obtain ⟨r, octets, served⟩ := serve_of_finished (there ▸ read) calls
              have no_lines : ∀ line ∈ ([] : List Octets), IsLine line := by simp
              have no_rest : 0x0A ∉ ([] : Octets) := by simp
              obtain ⟨returns, lines⟩ := ih (l := { l with events := allThere start [] spare })
                later positive no_lines no_rest (Nat.le_of_succ_le_succ enough) rfl
              rw [served]
              refine ⟨returns, ?_⟩
              rw [List.map_cons, lines, octets, List.length_cons, List.range_succ_eq_map, List.map_cons,
                List.map_map]
              refine congrArg (rest :: ·) (List.map_congr_left fun n _ => ?_)
              cases n <;> rfl

/-! ### The stream -/

/-- For every open line, every delivery over its port without a failed read, whatever the clock shows, and all
calls: the lines that are returned, and what a call has read that still waits, are together what the port
delivered, and the outcomes that are left are those after it. A line feed stands only at the end of a line. A
line without one is returned only after a timeout of the port, or once the read timeout is over that was set
last before the call. A call waits only when there are no more outcomes. With no read timeout at most one octet
is returned, if the clock does not go back. The port waits as long as reading is to wait after the calls, if it
did before them and takes what it is told. And if all octets are there and the clock stands still, the lines
that are returned are those that are there, then what follows them, and then nothing. -/
theorem serve_keeps_stream (l : OpenLine) {octets : Octets} (delivery : Delivery octets)
    (calls : List Call) :
    let (lines, part, after) := serve { l with events := delivery.events } calls
    (∃ waiting, (lines.map Returned.events).flatten ++ waiting ++ after.events = delivery.events ∧
      part.getD [] = octetsOf waiting ∧ ∀ r ∈ lines, r.octets = octetsOf r.events) ∧
    (lines.map Returned.octets).flatten ++ part.getD [] ++ octetsOf after.events = octets ∧
    (∀ r ∈ lines, 0x0A ∉ r.octets.dropLast) ∧
    lines.map (fun r => (r.start, r.timeout)) <+: waits l.readTimeout calls ∧
    (∀ r ∈ lines, r.octets.getLast? ≠ some 0x0A → ∃ last, r.events.getLast? = some last ∧
      (last.read = .timedOut ∨ r.start.nanos + r.timeout.nanos ≤ last.time.nanos)) ∧
    (part = none → lines.length = (waits l.readTimeout calls).length) ∧
    (part ≠ none → after.events = []) ∧
    (∀ r ∈ lines, r.timeout.nanos = 0 → (∀ e ∈ r.events, r.start.nanos ≤ e.time.nanos) →
      r.octets.length ≤ 1) ∧
    ((∀ call ∈ calls, call.Taken) → l.portTimeout = l.readTimeout →
      after.portTimeout = after.readTimeout) ∧
    ∀ now whole rest, (∀ line ∈ whole, IsLine line) → 0x0A ∉ rest →
      (∀ call ∈ calls, call.Leaves now) → 0 < l.readTimeout.nanos →
      let there := { l with events := allThere now (whole.flatten ++ rest) calls.length }
      (serve there calls).2.1 = none ∧
        (serve there calls).1.map Returned.octets =
          (List.range (serve there calls).1.length).map fun n => (whole ++ [rest]).getD n [] := by
  obtain ⟨⟨waiting, cut, open_⟩, each, inForce, returns, exhausted⟩ :=
    serve_serves (l := { l with events := delivery.events }) delivery.unfailing calls
  refine ⟨⟨waiting, cut, open_, fun r member => (each r member).brings⟩, ?_,
    fun r member => (each r member).feed, inForce, fun r member => (each r member).late, returns, exhausted,
    fun r member => (each r member).length_le_one, ?_, ?_⟩
  · rw [flatten_octets each, open_, ← octetsOf_append, ← octetsOf_append, cut, delivery.brings]
  · intro taken same
    exact portTimeout_serve (l := { l with events := delivery.events }) taken same
  intro now whole rest lines plain still positive
  exact serve_allThere (l := { l with events := allThere now (whole.flatten ++ rest) calls.length })
    calls still positive lines plain (Nat.le_refl _) rfl

end SecureElement.SerialLine
