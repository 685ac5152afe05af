import SecureElement.Proofs.Link.Paces

/-!
Exchanges that must be over by a deadline.

The clock is looked at before each read, and no read begins once the deadline has come. A read that began
before it is taken in as it is, however long it took; so a response that is then whole is the result
(`exec_keeps_deadline`). The deadline is told exactly if it comes while nothing is decided, and it comes at
some time unless a read decides, if reads take time.
-/

namespace SecureElement.Exchange

open Dialogue (Surroundings asked run transcript)

variable {σ : Type} {surroundings : Surroundings σ} {reads : Nat → PacedRead} {At : σ → Nat → Prop}
  {command : String} {deadline start : Duration}

/-- What a sequence of reads brings. -/
def brought (reads : Nat → PacedRead) (n : Nat) : Except LinkFault Octets :=
  (reads n).answer

/-- After some reads nothing is decided. -/
def Pending (reads : Nat → PacedRead) (count : Nat) : Prop :=
  ∃ reading, Undecided (remaining (brought reads) count) reading

/-- What is asked for around some reads: the clock before each of them. -/
def timedReads (count : Nat) : List Query :=
  (List.replicate count [Query.elapsed, Query.readLine]).flatten

/-- How it goes to collect a response by a deadline after some reads: how many more are made and what they
come to. -/
structure Keeps (command : String) (deadline : Duration) (reads : Nat → PacedRead)
    (earlier allowed : Nat) (result : Except ExchangeError Response) (count : Nat)
    (steps : List Dialogue.Step) : Prop where
  within : count ≤ allowed
  asks : asked steps = timedReads count ++
    if result = .error (.deadlineExceeded command deadline) then [.elapsed] else []
  /-- Each read begins before the deadline, and with nothing decided. -/
  begun : ∀ m < count,
    elapsed reads (earlier + m) < deadline.nanos ∧ Pending reads (earlier + m)
  ends : Settles command (remaining (brought reads) (earlier + count)) result ∨
    Pending reads (earlier + count) ∧
      (result = .error .outOfReads ∧ count = allowed ∨
        result = .error (.deadlineExceeded command deadline) ∧ count < allowed ∧
          deadline.nanos ≤ elapsed reads (earlier + count))

theorem Keeps.after_read {earlier allowed count : Nat} {result : Except ExchangeError Response}
    {steps steps' : List Dialogue.Step}
    (keeps : Keeps command deadline reads (earlier + 1) allowed result count steps)
    (early : elapsed reads earlier < deadline.nanos) (pending : Pending reads earlier)
    (asks : asked steps' = .elapsed :: .readLine :: asked steps) :
    Keeps command deadline reads earlier (allowed + 1) result (count + 1) steps' := by
  obtain ⟨within, before, begun, ends⟩ := keeps
  have place : earlier + 1 + count = earlier + (count + 1) := by omega
  rw [place] at ends
  refine ⟨Nat.succ_le_succ within, ?_, ?_, ?_⟩
  · rw [asks, before]
    rfl
  · intro m less
    cases m with
    | zero => exact ⟨early, pending⟩
    | succ m =>
        have there := begun m (Nat.lt_of_succ_lt_succ less)
        rwa [show earlier + 1 + m = earlier + (m + 1) by omega] at there
  · rcases ends with settles | ⟨open_, ⟨out, all⟩ | ⟨overdue, some, late⟩⟩
    · exact .inl settles
    · exact .inr ⟨open_, .inl ⟨out, congrArg (· + 1) all⟩⟩
    · exact .inr ⟨open_, .inr ⟨overdue, Nat.succ_lt_succ some, late⟩⟩

theorem Settles.ne_deadlineExceeded {heard : List (Except LinkFault String)}
    {result : Except ExchangeError Response} (settles : Settles command heard result) :
    result ≠ .error (.deadlineExceeded command deadline) := by
  cases settles <;> simp

/-- A read that begins before the deadline and decides is the last. -/
theorem keeps_of_settles {earlier allowed : Nat} {result : Except ExchangeError Response}
    {steps : List Dialogue.Step} (early : elapsed reads earlier < deadline.nanos)
    (pending : Pending reads earlier) (asks : asked steps = [.elapsed, .readLine])
    (settles : Settles command (remaining (brought reads) (earlier + 1)) result) :
    Keeps command deadline reads earlier (allowed + 1) result 1 steps := by
  refine ⟨by omega, ?_, ?_, .inl settles⟩
  · rw [if_neg settles.ne_deadlineExceeded, asks]
    rfl
  · intro m less
    obtain rfl : m = 0 := by omega
    exact ⟨early, pending⟩

theorem collect_succ_of_some (allowed : Nat) (reading : Reading) :
    collect command (some deadline) start (allowed + 1) reading =
      Session.query .elapsed >>= fun now =>
        if deadline.nanos ≤ now.nanos - start.nanos then
          Session.ofExcept (.error (.deadlineExceeded command deadline))
        else
          Session.query .readLine >>= receive command (some deadline) start allowed reading := by
  rw [collect_succ, checkDeadline, since]
  simp only [bind_assoc, pure_bind]
  refine bind_congr fun now => ?_
  split
  · rfl
  · rfl

/-- Collecting a response keeps to the deadline. -/
theorem collect_keeps (command : String) (deadline : Duration)
    (paces : Paces surroundings reads start At) {s : σ} {earlier : Nat} {reading : Reading}
    (here : At s earlier) (undecided : Undecided (remaining (brought reads) earlier) reading)
    (allowed : Nat) :
    ∃ count,
      At (run surroundings (collect command (some deadline) start allowed reading).run s).2
        (earlier + count) ∧
      Keeps command deadline reads earlier allowed
        (run surroundings (collect command (some deadline) start allowed reading).run s).1 count
        (transcript surroundings (collect command (some deadline) start allowed reading).run s) := by
  induction allowed generalizing s earlier reading with
  | zero =>
      exact ⟨0, here, Nat.le_refl 0, rfl, by simp, .inr ⟨⟨reading, undecided⟩, .inl ⟨rfl, rfl⟩⟩⟩
  | succ allowed ih =>
      obtain ⟨passed, looked⟩ := paces.clock here
      rw [collect_succ_of_some, Session.run_query_bind, Session.transcript_query_bind]
      simp only [passed]
      by_cases late : deadline.nanos ≤ elapsed reads earlier
      · simp only [if_pos late]
        refine ⟨0, looked, Nat.zero_le _, ?_, by simp, .inr ⟨⟨reading, undecided⟩,
          .inr ⟨rfl, Nat.succ_pos _, late⟩⟩⟩
        exact (if_pos rfl).symm
      · simp only [if_neg late]
        have early := Nat.not_le.1 late
        obtain ⟨answered, next⟩ := paces.read looked
        rw [Session.run_query_bind, Session.transcript_query_bind, answered]
        obtain ⟨entries, ⟨after, open_, goesOn⟩ | ⟨result, settles, ends⟩⟩ :=
          receive_cases undecided command
        · have goesOn := goesOn (some deadline) start allowed
          rw [brought] at goesOn
          rw [goesOn]
          obtain ⟨s', there, ran, asks⟩ := paces.toSupplies.run_logged entries
            (collect command (some deadline) start allowed after) next
          obtain ⟨count, later, keeps⟩ := ih there open_
          rw [ran]
          rw [show earlier + 1 + count = earlier + (count + 1) by omega] at later
          refine ⟨count + 1, later, keeps.after_read early ⟨reading, undecided⟩ ?_⟩
          rw [← asks]
          rfl
        · have ends := ends (some deadline) start allowed
          rw [brought] at ends
          rw [ends]
          obtain ⟨s', there, ran, asks⟩ :=
            paces.toSupplies.run_logged entries (Session.ofExcept result) next
          rw [ran]
          refine ⟨1, there, keeps_of_settles early ⟨reading, undecided⟩ ?_ settles⟩
          exact congrArg (fun rest => [Query.elapsed, Query.readLine] ++ rest) asks

/-! ### What ends an exchange -/

/-- None of the first reads decides. -/
def Open (command : String) (reads : Nat → PacedRead) (count : Nat) : Prop :=
  ∀ n ≤ count, ∀ outcome, ¬ Settles command (remaining (brought reads) n) outcome

theorem Pending.not_settles {count : Nat} (pending : Pending reads count)
    (outcome : Except ExchangeError Response) :
    ¬ Settles command (remaining (brought reads) count) outcome := by
  obtain ⟨reading, undecided⟩ := pending
  exact undecided.not_settles

section Outcome

variable {allowed count : Nat} {result : Except ExchangeError Response} {steps : List Dialogue.Step}

theorem Keeps.early (keeps : Keeps command deadline reads 0 allowed result count steps) :
    ∀ m < count, elapsed reads m < deadline.nanos := by
  intro m less
  have begun := (keeps.begun m less).1
  rwa [Nat.zero_add] at begun

theorem Keeps.not_settles (keeps : Keeps command deadline reads 0 allowed result count steps) :
    ∀ m < count, ∀ outcome, ¬ Settles command (remaining (brought reads) m) outcome := by
  intro m less outcome
  have pending := (keeps.begun m less).2
  rw [Nat.zero_add] at pending
  exact pending.not_settles outcome

/-- An exchange that ends with nothing decided was open all the time. -/
theorem Keeps.open_ (keeps : Keeps command deadline reads 0 allowed result count steps)
    (pending : Pending reads count) : Open command reads count := by
  intro n le outcome
  rcases Nat.lt_or_eq_of_le le with less | rfl
  · exact keeps.not_settles n less outcome
  · exact pending.not_settles outcome

/-- Nothing is decided before the first read. -/
theorem Keeps.pending_of_count_eq_zero
    (keeps : Keeps command deadline reads 0 allowed result 0 steps) :
    result = .error .outOfReads ∧ allowed = 0 ∨
      result = .error (.deadlineExceeded command deadline) := by
  rcases keeps.ends with settles | ⟨-, ⟨out, all⟩ | ⟨overdue, -⟩⟩
  · exact absurd settles undecided_nil.not_settles
  · exact .inl ⟨out, all.symm⟩
  · exact .inr overdue

/-- An exchange ends with what the row of lines and failed reads comes to exactly if the read that decides
begins before the deadline. -/
theorem Keeps.decides_iff (keeps : Keeps command deadline reads 0 allowed result count steps)
    (n : Nat) (outcome : Except ExchangeError Response) :
    result = outcome ∧ count = n ∧ outcome ≠ .error .outOfReads ∧
        outcome ≠ .error (.deadlineExceeded command deadline) ↔
      n ≤ allowed ∧ Decides command (brought reads) n outcome ∧
        ∀ m < n, elapsed reads m < deadline.nanos := by
  have ends := keeps.ends
  rw [Nat.zero_add] at ends
  constructor
  · rintro ⟨rfl, rfl, within, intime⟩
    rcases ends with settles | ⟨-, ⟨out, -⟩ | ⟨overdue, -⟩⟩
    · exact ⟨keeps.within, ⟨settles, keeps.not_settles⟩, keeps.early⟩
    · exact absurd out within
    · exact absurd overdue intime
  · rintro ⟨within, decides, early⟩
    rcases ends with settles | ⟨pending, out⟩
    · obtain ⟨rfl, rfl⟩ := Decides.unique ⟨settles, keeps.not_settles⟩ decides
      exact ⟨rfl, rfl, settles.ne_outOfReads, settles.ne_deadlineExceeded⟩
    · -- The read that decides would have been made.
      have before : count < n := Nat.not_le.1 fun le =>
        keeps.open_ pending n le outcome decides.settles
      rcases out with ⟨-, rfl⟩ | ⟨-, -, late⟩
      · exact absurd before (Nat.not_lt.2 within)
      · exact absurd (early count before) (Nat.not_lt.2 late)

/-- The deadline is told exactly if it has come before some read while nothing is decided. -/
theorem Keeps.deadlineExceeded_iff
    (keeps : Keeps command deadline reads 0 allowed result count steps) :
    result = .error (.deadlineExceeded command deadline) ↔
      ∃ n < allowed, deadline.nanos ≤ elapsed reads n ∧ Open command reads n := by
  have ends := keeps.ends
  rw [Nat.zero_add] at ends
  constructor
  · rintro rfl
    rcases ends with settles | ⟨pending, ⟨out, -⟩ | ⟨-, some, late⟩⟩
    · exact absurd rfl settles.ne_deadlineExceeded
    · cases out
    · exact ⟨count, some, late, keeps.open_ pending⟩
  · rintro ⟨n, within, late, open_⟩
    have before : count ≤ n := Nat.not_lt.1 fun less =>
      absurd (keeps.early n less) (Nat.not_lt.2 late)
    rcases ends with settles | ⟨-, ⟨-, rfl⟩ | ⟨overdue, -⟩⟩
    · exact absurd settles (open_ count before result)
    · exact absurd before (Nat.not_le.2 within)
    · exact overdue

/-- The reads that are allowed are used up exactly if all of them begin before the deadline and none
decides. -/
theorem Keeps.outOfReads_iff (keeps : Keeps command deadline reads 0 allowed result count steps) :
    result = .error .outOfReads ↔
      (∀ m < allowed, elapsed reads m < deadline.nanos) ∧ Open command reads allowed := by
  have ends := keeps.ends
  rw [Nat.zero_add] at ends
  constructor
  · rintro rfl
    rcases ends with settles | ⟨pending, ⟨-, rfl⟩ | ⟨overdue, -⟩⟩
    · exact absurd rfl settles.ne_outOfReads
    · exact ⟨keeps.early, keeps.open_ pending⟩
    · cases overdue
  · rintro ⟨early, open_⟩
    rcases ends with settles | ⟨-, ⟨out, -⟩ | ⟨-, some, late⟩⟩
    · exact absurd settles (open_ count keeps.within result)
    · exact out
    · exact absurd (early count some) (Nat.not_lt.2 late)

/-- Reads that take some time each and decide nothing are ended by the deadline. -/
theorem Keeps.decides_of_tick (keeps : Keeps command deadline reads 0 allowed result count steps)
    {tick : Nat} (some : 0 < tick)
    (each : ∀ n, Open command reads (n + 1) → tick ≤ (reads n).span.nanos)
    (enough : deadline.nanos / tick + 1 < allowed) : result ≠ .error .outOfReads := by
  intro spent
  obtain ⟨early, open_⟩ := keeps.outOfReads_iff.1 spent
  have last := early _ enough
  have long : tick * (deadline.nanos / tick + 1) ≤ elapsed reads (deadline.nanos / tick + 1) :=
    mul_le_elapsed fun n less => each n fun m le => open_ m (by omega)
  exact absurd (Nat.lt_of_le_of_lt long last)
    (Nat.not_lt.2 (Nat.le_of_lt (Nat.lt_mul_div_succ _ some)))

end Outcome

/-! ### Exchanges with a deadline -/

/-- For every sequence of reads, whatever they bring and however long they take, every deadline and however
many reads are allowed, with the time counted from when the command and its payload have been written. The
clock is looked at before each read, and no read begins once the deadline has come. The deadline is told
exactly if it has come before some read and none of the reads before that one decides. What the row of lines
and failed reads comes to is the result exactly if the read that decides begins before the deadline, however
long that read takes. With a deadline of no time nothing is read, though the command has been written. If
each read that decides nothing takes a time, the exchange ends. -/
theorem exec_keeps_deadline (reads : Nat → PacedRead) (others : Surroundings (Duration × σ))
    (settings : ExchangeSettings) (deadline : Duration) (allowed : Nat) (command : String)
    (payload : Option Octets) (clock : Duration) (other : σ) :
    let exchange := (exec { settings with commandDeadline := some deadline } allowed command payload).run
    let (result, after) := run (overPacedReads reads others) exchange ⟨0, clock, other⟩
    asked (transcript (overPacedReads reads others) exchange ⟨0, clock, other⟩) =
      .setReadTimeout settings.commandReadTimeout ::
        .write (Utf8.encode command ++ [0x0D, 0x0A]) ::
        payload.elim [] (fun octets => [.sleep settings.payloadSettle, .write octets]) ++
        .elapsed :: timedReads after.count ++
        (if result = .error (.deadlineExceeded command deadline) then [.elapsed] else []) ∧
    (∀ m < after.count, elapsed reads m < deadline.nanos) ∧
    (result = .error (.deadlineExceeded command deadline) ↔
      ∃ n < allowed, deadline.nanos ≤ elapsed reads n ∧ Open command reads n) ∧
    (∀ n outcome,
      result = outcome ∧ after.count = n ∧ outcome ≠ .error .outOfReads ∧
          outcome ≠ .error (.deadlineExceeded command deadline) ↔
        n ≤ allowed ∧ Decides command (brought reads) n outcome ∧
          ∀ m < n, elapsed reads m < deadline.nanos) ∧
    (result = .error .outOfReads ↔
      (∀ m < allowed, elapsed reads m < deadline.nanos) ∧ Open command reads allowed) ∧
    (deadline.nanos = 0 → 0 < allowed →
      after.count = 0 ∧ result = .error (.deadlineExceeded command deadline)) ∧
    ∀ tick, 0 < tick → (∀ n, Open command reads (n + 1) → tick ≤ (reads n).span.nanos) →
      deadline.nanos / tick + 1 < allowed → result ≠ .error .outOfReads := by
  intro exchange
  let withDeadline := { settings with commandDeadline := some deadline }
  let surroundings := overPacedReads reads others
  let start := startOf surroundings withDeadline command payload ⟨0, clock, other⟩
  let opened := surroundings.after ⟨0, clock, other⟩ (preamble withDeadline command payload)
  have here : opened.count = 0 ∧ opened.clock.nanos = start.nanos + elapsed reads 0 := by
    cases payload <;> exact ⟨rfl, rfl⟩
  obtain ⟨steps, asks, ran, whole⟩ := exec_eq_listening surroundings withDeadline allowed command
    payload ⟨0, clock, other⟩
  obtain ⟨count, ⟨counted, -⟩, keeps⟩ :=
    collect_keeps command deadline (paces_overPacedReads reads others start) here undecided_nil allowed
  have same : run surroundings exchange ⟨0, clock, other⟩ =
      run surroundings (collect command (some deadline) start allowed .awaitingStatus).run opened := ran
  rw [Nat.zero_add] at counted
  rw [same]
  simp only [surroundings] at counted keeps ⊢
  simp only [counted]
  refine ⟨?_, keeps.early, keeps.deadlineExceeded_iff, keeps.decides_iff, keeps.outOfReads_iff, ?_,
    fun tick some each enough => keeps.decides_of_tick some each enough⟩
  · have first : asked steps =
        (preamble withDeadline command payload).filter (fun q => !q.isLog) := by
      rw [Dialogue.asked, asks]
    have questions := congrArg asked whole
    rw [Dialogue.asked_append, first] at questions
    refine questions.trans ((congrArg _ keeps.asks).trans ?_)
    rw [← List.append_assoc]
    cases payload <;> rfl
  · intro none some
    obtain rfl : count = 0 := Nat.eq_zero_of_not_pos fun pos => by
      have early := keeps.early 0 pos
      rw [none] at early
      exact Nat.not_lt_zero _ early
    rcases keeps.pending_of_count_eq_zero with ⟨-, rfl⟩ | overdue
    · exact absurd some (Nat.lt_irrefl 0)
    · exact ⟨rfl, overdue⟩

end SecureElement.Exchange
