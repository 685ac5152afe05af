import SecureElement.Proofs.Link.Exchanges
import SecureElement.Proofs.Link.Lines

/-!
Exchanges that listen to a sequence of reads.

Reads that bring nothing and reads that bring no text do not count; what is left is a row of lines, and of
failed reads (`remaining`). An exchange without a deadline ends with what that row comes to, at the first
read with which it comes to anything, and makes no further read (`collect_listens`). What it asks for
besides is settled by the command and its payload (`exec_follows_reads`).
-/

namespace SecureElement

/-- Whether a question is an entry in the log. -/
def Query.isLog : Query → Bool
  | .log _ => true
  | _ => false

namespace Dialogue

variable {σ : Type}

/-- The state after questions have been answered one after another. -/
def Surroundings.after (surroundings : Surroundings σ) (s : σ) (questions : List Query) : σ :=
  questions.foldl (fun s q => (surroundings.answer q s).2) s

/-- The questions in these steps, without the entries in the log. -/
def asked (steps : List Step) : List Query :=
  (steps.map Step.query).filter fun q => !q.isLog

theorem asked_append (first second : List Step) :
    asked (first ++ second) = asked first ++ asked second := by
  simp [asked]

theorem asked_cons_readLine (answer : Except LinkFault Octets) (steps : List Step) :
    asked (⟨.readLine, answer⟩ :: steps) = .readLine :: asked steps := rfl

end Dialogue

namespace Exchange

open Dialogue (Surroundings asked run transcript)

variable {σ : Type} {surroundings : Surroundings σ} {answers : Nat → Except LinkFault Octets}
  {At : σ → Nat → Prop} {command : String} {start : Duration}

/-! ### Reads that count -/

/-- What a read adds to a response, if it counts. -/
def counted? : Except LinkFault Octets → Option (Except LinkFault String)
  | .error fault => some (.error fault)
  | .ok raw => if raw = [] then none else (Utf8.decode raw).map .ok

/-- What remains of the first members of a sequence of reads. -/
def remaining (answers : Nat → Except LinkFault Octets) (count : Nat) :
    List (Except LinkFault String) :=
  ((List.range count).map answers).filterMap counted?

theorem remaining_succ (answers : Nat → Except LinkFault Octets) (count : Nat) :
    remaining answers (count + 1) = remaining answers count ++ (counted? (answers count)).toList := by
  cases here : counted? (answers count) <;> simp [remaining, List.range_succ, here]

/-! ### Listening -/

/-- Reads in these surroundings bring the members of a sequence. `At` tells how many of them have been
brought; an entry in the log brings none. -/
structure Supplies (surroundings : Surroundings σ) (answers : Nat → Except LinkFault Octets)
    (At : σ → Nat → Prop) : Prop where
  read : ∀ {s n}, At s n → (surroundings.answer .readLine s).1 = answers n ∧
    At (surroundings.answer .readLine s).2 (n + 1)
  log : ∀ {s n} entry, At s n → At (surroundings.answer (.log entry) s).2 n

/-- How it goes to collect a response after some reads: how many more are made, what they come to, and the
state afterwards. Nothing is asked for but these reads, and only the last of them decides. -/
structure Listens (command : String) (answers : Nat → Except LinkFault Octets) (earlier reads : Nat)
    (result : Except ExchangeError Response) (count : Nat) (steps : List Dialogue.Step) : Prop where
  within : count ≤ reads
  asks : asked steps = List.replicate count .readLine
  open_ : ∀ m < count, ∃ reading, Undecided (remaining answers (earlier + m)) reading
  decides : Settles command (remaining answers (earlier + count)) result ∨
    result = .error .outOfReads ∧ count = reads ∧
      ∃ reading, Undecided (remaining answers (earlier + count)) reading

/-- Entries in the log do not count. -/
theorem Listens.of_asked {earlier reads count : Nat} {result : Except ExchangeError Response}
    {steps steps' : List Dialogue.Step}
    (listens : Listens command answers earlier reads result count steps)
    (same : asked steps' = asked steps) :
    Listens command answers earlier reads result count steps' :=
  ⟨listens.within, same.trans listens.asks, listens.open_, listens.decides⟩

/-- After a read that decides nothing the rest is listened to. -/
theorem Listens.after_read {earlier reads count : Nat} {result : Except ExchangeError Response}
    {steps : List Dialogue.Step} {reading : Reading} {answer : Except LinkFault Octets}
    (listens : Listens command answers (earlier + 1) reads result count steps)
    (undecided : Undecided (remaining answers earlier) reading) :
    Listens command answers earlier (reads + 1) result (count + 1) (⟨.readLine, answer⟩ :: steps) := by
  obtain ⟨within, asks, open_, decides⟩ := listens
  have place : earlier + 1 + count = earlier + (count + 1) := by omega
  rw [place] at decides
  refine ⟨Nat.succ_le_succ within, ?_, ?_, ?_⟩
  · rw [Dialogue.asked_cons_readLine, asks, List.replicate_succ]
  · intro m less
    cases m with
    | zero => exact ⟨reading, undecided⟩
    | succ m =>
        have here := open_ m (Nat.lt_of_succ_lt_succ less)
        rwa [show earlier + 1 + m = earlier + (m + 1) by omega] at here
  · rcases decides with settles | ⟨rfl, rfl, undecided⟩
    · exact .inl settles
    · exact .inr ⟨rfl, rfl, undecided⟩

/-- The read that decides is the last. -/
theorem listens_of_settles {earlier reads : Nat} {result : Except ExchangeError Response}
    {steps : List Dialogue.Step} {reading : Reading}
    (undecided : Undecided (remaining answers earlier) reading)
    (asks : asked steps = [.readLine])
    (settles : Settles command (remaining answers (earlier + 1)) result) :
    Listens command answers earlier (reads + 1) result 1 steps := by
  refine ⟨by omega, asks, ?_, .inl settles⟩
  intro m less
  obtain rfl : m = 0 := by omega
  exact ⟨reading, undecided⟩

/-- A session after some entries in the log. -/
def logged {α : Type} (entries : List LogEntry) (rest : Session ExchangeError α) :
    Session ExchangeError α :=
  entries.foldr (fun entry rest => Session.log entry.level entry.text >>= fun _ => rest) rest

/-- Entries in the log bring no read, and ask for nothing else. -/
theorem Supplies.run_logged {α : Type} (supplies : Supplies surroundings answers At)
    (entries : List LogEntry) (rest : Session ExchangeError α) {s : σ} {count : Nat}
    (here : At s count) :
    ∃ s', At s' count ∧
      run surroundings (logged entries rest).run s = run surroundings rest.run s' ∧
      asked (transcript surroundings (logged entries rest).run s) =
        asked (transcript surroundings rest.run s') := by
  induction entries generalizing s with
  | nil => exact ⟨s, here, rfl, rfl⟩
  | cons entry entries ih => exact ih (supplies.log entry here)

/-- What is done with a read. -/
def receive (command : String) (deadline : Option Duration) (start : Duration) (reads : Nat)
    (reading : Reading) : Except LinkFault Octets → Session ExchangeError Response
  | .error fault => throw (.link fault)
  | .ok raw =>
      if raw = [] then collect command deadline start reads reading
      else
        match Utf8.decode raw with
        | none => do
            Session.log .warning "ignoring undecodable line"
            collect command deadline start reads reading
        | some line => do
            Session.log .debug (Text.trimRight line)
            match reading.feed line with
            | .more reading => collect command deadline start reads reading
            | .finished response => return response
            | .missingStatus => throw (.missingStatus command)

theorem collect_succ (deadline : Option Duration) (reads : Nat) (reading : Reading) :
    collect command deadline start (reads + 1) reading =
      checkDeadline command deadline start >>= fun _ =>
        Session.query .readLine >>= receive command deadline start reads reading := by
  simp only [collect, readLine, bind_assoc]
  refine bind_congr fun _ => bind_congr fun answer => ?_
  cases answer with
  | error fault => rfl
  | ok raw => rfl

theorem collect_succ_of_none (reads : Nat) (reading : Reading) :
    collect command none start (reads + 1) reading =
      Session.query .readLine >>= receive command none start reads reading := by
  rw [collect_succ, checkDeadline, pure_bind]

/-- What a read does after lines that decide nothing, entries in the log apart: the rest is listened to and
still nothing is decided, or the row comes to something. -/
theorem receive_cases {earlier : Nat} {reading : Reading}
    (undecided : Undecided (remaining answers earlier) reading) (command : String) :
    ∃ entries,
      (∃ after, Undecided (remaining answers (earlier + 1)) after ∧ ∀ deadline start reads,
        receive command deadline start reads reading (answers earlier) =
          logged entries (collect command deadline start reads after)) ∨
      ∃ result, Settles command (remaining answers (earlier + 1)) result ∧ ∀ deadline start reads,
        receive command deadline start reads reading (answers earlier) =
          logged entries (Session.ofExcept result) := by
  have grows := remaining_succ answers earlier
  cases read : answers earlier with
  | error fault =>
      rw [read, counted?] at grows
      have settles := undecided.next command (.error fault)
      exact ⟨[], .inr ⟨_, grows ▸ settles, fun _ _ _ => rfl⟩⟩
  | ok raw =>
      rw [read, counted?] at grows
      by_cases empty : raw = []
      · rw [if_pos empty, Option.toList_none, List.append_nil] at grows
        refine ⟨[], .inl ⟨reading, grows ▸ undecided, fun _ _ _ => ?_⟩⟩
        rw [receive, if_pos empty]
        rfl
      · rw [if_neg empty] at grows
        cases decoded : Utf8.decode raw with
        | none =>
            rw [decoded, Option.map_none, Option.toList_none, List.append_nil] at grows
            refine ⟨[⟨.warning, "ignoring undecodable line"⟩],
              .inl ⟨reading, grows ▸ undecided, fun _ _ _ => ?_⟩⟩
            simp only [receive, if_neg empty, decoded]
            rfl
        | some line =>
            rw [decoded, Option.map_some, Option.toList_some] at grows
            have heard := undecided.next command (.ok line)
            rw [← grows] at heard
            refine ⟨[⟨.debug, Text.trimRight line⟩], ?_⟩
            cases fed : reading.feed line with
            | more after =>
                simp only [fed] at heard
                refine .inl ⟨after, heard, fun _ _ _ => ?_⟩
                simp only [receive, if_neg empty, decoded, fed]
                rfl
            | finished response =>
                simp only [fed] at heard
                refine .inr ⟨_, heard, fun _ _ _ => ?_⟩
                simp only [receive, if_neg empty, decoded, fed]
                rfl
            | missingStatus =>
                simp only [fed] at heard
                refine .inr ⟨_, heard, fun _ _ _ => ?_⟩
                simp only [receive, if_neg empty, decoded, fed]
                rfl

/-- Collecting a response is listening to the reads. -/
theorem collect_listens (command : String) (start : Duration)
    (supplies : Supplies surroundings answers At) {s : σ} {earlier : Nat} {reading : Reading}
    (here : At s earlier) (undecided : Undecided (remaining answers earlier) reading) (reads : Nat) :
    ∃ count, At (run surroundings (collect command none start reads reading).run s).2 (earlier + count) ∧
      Listens command answers earlier reads
        (run surroundings (collect command none start reads reading).run s).1 count
        (transcript surroundings (collect command none start reads reading).run s) := by
  induction reads generalizing s earlier reading with
  | zero => exact ⟨0, here, Nat.le_refl 0, rfl, by simp, .inr ⟨rfl, rfl, reading, undecided⟩⟩
  | succ reads ih =>
      obtain ⟨answered, next⟩ := supplies.read here
      rw [collect_succ_of_none, Session.run_query_bind, Session.transcript_query_bind, answered]
      obtain ⟨entries, ⟨after, open_, goesOn⟩ | ⟨result, settles, ends⟩⟩ :=
        receive_cases undecided command
      · rw [goesOn]
        obtain ⟨s', there, ran, asks⟩ :=
          supplies.run_logged entries (collect command none start reads after) next
        obtain ⟨count, later, listens⟩ := ih there open_
        rw [ran]
        rw [show earlier + 1 + count = earlier + (count + 1) by omega] at later
        exact ⟨count + 1, later, (listens.of_asked asks).after_read undecided⟩
      · rw [ends]
        obtain ⟨s', there, ran, asks⟩ := supplies.run_logged entries (Session.ofExcept result) next
        rw [ran]
        refine ⟨1, there, listens_of_settles undecided ?_ settles⟩
        rw [Dialogue.asked_cons_readLine, asks]
        rfl

/-! ### The read that decides -/

/-- A row comes to something with this many reads, and with no fewer. -/
structure Decides (command : String) (answers : Nat → Except LinkFault Octets) (count : Nat)
    (result : Except ExchangeError Response) : Prop where
  settles : Settles command (remaining answers count) result
  first : ∀ m < count, ∀ other, ¬ Settles command (remaining answers m) other

theorem Settles.ne_outOfReads {heard : List (Except LinkFault String)}
    {result : Except ExchangeError Response} (settles : Settles command heard result) :
    result ≠ .error .outOfReads := by
  cases settles <;> simp

/-- No two reads decide. -/
theorem Decides.unique {first second : Nat} {here there : Except ExchangeError Response}
    (decides : Decides command answers first here) (other : Decides command answers second there) :
    first = second ∧ here = there := by
  obtain rfl : first = second := by
    rcases Nat.lt_trichotomy first second with less | same | less
    · exact absurd decides.settles (other.first _ less _)
    · exact same
    · exact absurd other.settles (decides.first _ less _)
  exact ⟨rfl, decides.settles.unique other.settles⟩

variable {reads count : Nat} {result : Except ExchangeError Response} {steps : List Dialogue.Step}

theorem Listens.not_settles (listens : Listens command answers 0 reads result count steps) :
    ∀ m < count, ∀ other, ¬ Settles command (remaining answers m) other := by
  intro m less other
  obtain ⟨reading, undecided⟩ := listens.open_ m less
  rw [Nat.zero_add] at undecided
  exact undecided.not_settles

/-- What listening from the start comes to is what the row comes to at the read that decides. -/
theorem Listens.decides_iff (listens : Listens command answers 0 reads result count steps) (n : Nat)
    (outcome : Except ExchangeError Response) :
    result = outcome ∧ count = n ∧ outcome ≠ .error .outOfReads ↔
      n ≤ reads ∧ Decides command answers n outcome := by
  have before := listens.not_settles
  have decides := listens.decides
  rw [Nat.zero_add] at decides
  constructor
  · rintro ⟨rfl, rfl, within⟩
    rcases decides with settles | ⟨out, -, -⟩
    · exact ⟨listens.within, settles, before⟩
    · exact absurd out within
  · rintro ⟨within, there⟩
    rcases decides with settles | ⟨rfl, rfl, reading, undecided⟩
    · obtain ⟨rfl, rfl⟩ := Decides.unique ⟨settles, before⟩ there
      exact ⟨rfl, rfl, settles.ne_outOfReads⟩
    · rcases Nat.lt_or_eq_of_le within with less | rfl
      · exact absurd there.settles (before n less _)
      · exact absurd there.settles undecided.not_settles

/-- The reads that are allowed are used up exactly if none of them decides. -/
theorem Listens.outOfReads_iff (listens : Listens command answers 0 reads result count steps) :
    result = .error .outOfReads ∧ count = reads ↔
      ∀ n ≤ reads, ∀ outcome, ¬ Decides command answers n outcome := by
  constructor
  · rintro ⟨rfl, -⟩ n within outcome decides
    obtain ⟨rfl, -, out⟩ := (listens.decides_iff n outcome).2 ⟨within, decides⟩
    exact out rfl
  · intro never
    rcases listens.decides with settles | ⟨out, all, -⟩
    · rw [Nat.zero_add] at settles
      exact absurd ⟨settles, listens.not_settles⟩ (never count listens.within result)
    · exact ⟨out, all⟩

/-! ### Exchanges over a sequence of reads -/

/-- Surroundings in which reads bring the members of a sequence, and others answer everything else. The
number tells how many reads there were. -/
def overReads (answers : Nat → Except LinkFault Octets) (others : Surroundings σ) :
    Surroundings (Nat × σ) where
  answer q s :=
    match q with
    | .readLine => (answers s.1, s.1 + 1, s.2)
    | q =>
        let (answer, other) := others.answer q s.2
        (answer, s.1, other)

theorem supplies_overReads (answers : Nat → Except LinkFault Octets) (others : Surroundings σ) :
    Supplies (overReads answers others) answers fun s count => s.1 = count where
  read := by
    rintro s n rfl
    exact ⟨rfl, rfl⟩
  log := by
    rintro s n entry rfl
    rfl

/-- What an exchange asks for before its first read. -/
def preamble (settings : ExchangeSettings) (command : String) (payload : Option Octets) : List Query :=
  (opening settings command payload).map Dialogue.Step.query ++ [.elapsed]

/-- What the clock shows once an exchange has opened. -/
def startOf (surroundings : Surroundings σ) (settings : ExchangeSettings) (command : String)
    (payload : Option Octets) (s : σ) : Duration :=
  (surroundings.answer .elapsed
    (surroundings.after s ((opening settings command payload).map Dialogue.Step.query))).1

/-- An exchange opens, reads the clock and listens. -/
theorem exec_eq_listening (surroundings : Surroundings σ) (settings : ExchangeSettings) (reads : Nat)
    (command : String) (payload : Option Octets) (s : σ) :
    let start := startOf surroundings settings command payload s
    ∃ opened,
      opened.map Dialogue.Step.query = preamble settings command payload ∧
      run surroundings (exec settings reads command payload).run s =
        run surroundings (collect command settings.commandDeadline start reads .awaitingStatus).run
          (surroundings.after s (preamble settings command payload)) ∧
      transcript surroundings (exec settings reads command payload).run s =
        opened ++
          transcript surroundings (collect command settings.commandDeadline start reads .awaitingStatus).run
            (surroundings.after s (preamble settings command payload)) := by
  intro start
  refine ⟨opening settings command payload ++ [⟨.elapsed, start⟩], ?_, ?_, ?_⟩
  · cases payload <;> rfl
  · cases payload <;> rfl
  · cases payload <;> rfl

/-- An exchange without a deadline listens from the start, once it has opened. -/
theorem exec_listens (supplies : Supplies surroundings answers At) (settings : ExchangeSettings)
    (reads : Nat) (command : String) (payload : Option Octets) {s : σ}
    (here : At (surroundings.after s (preamble settings command payload)) 0) :
    let exchange := (exec { settings with commandDeadline := none } reads command payload).run
    ∃ count rest, At (run surroundings exchange s).2 count ∧
      asked (transcript surroundings exchange s) =
        (preamble settings command payload).filter (fun q => !q.isLog) ++ asked rest ∧
      Listens command answers 0 reads (run surroundings exchange s).1 count rest := by
  intro exchange
  obtain ⟨opened, asks, ran, steps⟩ := exec_eq_listening surroundings
    { settings with commandDeadline := none } reads command payload s
  have same : preamble { settings with commandDeadline := none } command payload =
      preamble settings command payload := by
    cases payload <;> rfl
  rw [same] at asks ran steps
  obtain ⟨count, after, listens⟩ :=
    collect_listens command (startOf surroundings { settings with commandDeadline := none } command
      payload s) supplies here undecided_nil reads
  rw [Nat.zero_add] at after
  refine ⟨count, _, ran ▸ after, ?_, ran ▸ listens⟩
  rw [steps, Dialogue.asked_append, Dialogue.asked, asks]

/-- Without a deadline an exchange sets the wait for lines, writes its command line and, after a pause,
its payload, if it has one, and looks at the clock; then it makes one read after another and nothing
else. It ends at the first read with which the row of lines and failed reads comes to something, and
with that. If none of the reads that are allowed decides, it makes them all. -/
theorem exec_follows_reads (answers : Nat → Except LinkFault Octets) (others : Surroundings σ)
    (settings : ExchangeSettings) (reads : Nat) (command : String) (payload : Option Octets) (s : σ) :
    let exchange := (exec { settings with commandDeadline := none } reads command payload).run
    let (result, count, _) := run (overReads answers others) exchange (0, s)
    asked (transcript (overReads answers others) exchange (0, s)) =
      .setReadTimeout settings.commandReadTimeout ::
        .write (Utf8.encode command ++ [0x0D, 0x0A]) ::
        payload.elim [] (fun octets => [.sleep settings.payloadSettle, .write octets]) ++
        .elapsed :: List.replicate count .readLine ∧
    (∀ n outcome, result = outcome ∧ count = n ∧ outcome ≠ .error .outOfReads ↔
      n ≤ reads ∧ Decides command answers n outcome) ∧
    (result = .error .outOfReads ∧ count = reads ↔
      ∀ n ≤ reads, ∀ outcome, ¬ Decides command answers n outcome) := by
  intro exchange
  have opened : ((overReads answers others).after (0, s) (preamble settings command payload)).1 = 0 := by
    cases payload <;> rfl
  obtain ⟨count, rest, counted, asks, listens⟩ :=
    exec_listens (supplies_overReads answers others) settings reads command payload opened
  obtain rfl : (run (overReads answers others) exchange (0, s)).2.1 = count := counted
  refine ⟨?_, listens.decides_iff, listens.outOfReads_iff⟩
  rw [asks, listens.asks]
  cases payload <;> rfl

end Exchange

end SecureElement
