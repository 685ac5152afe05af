import SecureElement.Proofs.Link.Legible
import SecureElement.Proofs.Link.Paces

/-!
Waiting for the device to start.

Of the reads that bring something or fail, the first decides that holds the mark, that fails, or that ends
when the window is over (`Tells`); the mark and the failure are looked for before the window. All reads before
it are quiet, and none is made after it (`waitForReady_follows_reads`).
-/

namespace SecureElement.Exchange

open Dialogue (Surroundings asked run transcript)

variable {σ : Type} {surroundings : Surroundings σ} {reads : Nat → PacedRead} {At : σ → Nat → Prop}
  {window start : Duration}

/-! ### Reads -/

/-- A read brings octets among which the mark of readiness stands. -/
def PacedRead.Announces (read : PacedRead) : Prop :=
  ∃ raw, read.answer = .ok raw ∧ Octets.ofAscii readyMark <:+: raw

/-- A read brings octets without the mark of readiness, or none at all. -/
def PacedRead.Idle (read : PacedRead) : Prop :=
  ∃ raw, read.answer = .ok raw ∧ ¬ Octets.ofAscii readyMark <:+: raw

/-- A read after which the wait goes on. -/
structure Quiet (window : Duration) (reads : Nat → PacedRead) (n : Nat) : Prop where
  idle : (reads n).Idle
  early : elapsed reads (n + 1) < window.nanos

/-- What a read ends the wait with. -/
inductive Tells (window : Duration) (reads : Nat → PacedRead) (n : Nat) :
    Except ExchangeError Bool → Prop where
  | ready (announces : (reads n).Announces) : Tells window reads n (.ok true)
  | late (idle : (reads n).Idle) (expired : window.nanos ≤ elapsed reads (n + 1)) :
      Tells window reads n (.ok false)
  | failed {fault : LinkFault} (fails : (reads n).answer = .error fault) :
      Tells window reads n (.error (.link fault))

theorem PacedRead.Idle.not_announces {read : PacedRead} (idle : read.Idle) : ¬ read.Announces := by
  rintro ⟨raw, brings, marked⟩
  obtain ⟨raw', brings', unmarked⟩ := idle
  rw [brings] at brings'
  cases brings'
  exact unmarked marked

theorem Tells.not_quiet {n : Nat} {result : Except ExchangeError Bool}
    (tells : Tells window reads n result) : ¬ Quiet window reads n := by
  rintro ⟨idle, early⟩
  cases tells with
  | ready announces => exact idle.not_announces announces
  | late _ expired => exact Nat.not_lt.2 expired early
  | failed fails =>
      obtain ⟨raw, brings, -⟩ := idle
      rw [fails] at brings
      cases brings

theorem Tells.unique {n : Nat} {first second : Except ExchangeError Bool}
    (here : Tells window reads n first) (there : Tells window reads n second) : first = second := by
  cases here with
  | ready announces =>
      cases there with
      | ready => rfl
      | late idle => exact absurd announces idle.not_announces
      | failed fails =>
          obtain ⟨raw, brings, -⟩ := announces
          rw [fails] at brings
          cases brings
  | late idle =>
      cases there with
      | ready announces => exact absurd announces idle.not_announces
      | late => rfl
      | failed fails =>
          obtain ⟨raw, brings, -⟩ := idle
          rw [fails] at brings
          cases brings
  | failed fails =>
      cases there with
      | ready announces =>
          obtain ⟨raw, brings, -⟩ := announces
          rw [fails] at brings
          cases brings
      | late idle =>
          obtain ⟨raw, brings, -⟩ := idle
          rw [fails] at brings
          cases brings
      | failed fails' =>
          rw [fails] at fails'
          cases fails'
          rfl

/-- A read after which the wait does not go on ends it. -/
theorem exists_tells_of_not_quiet {n : Nat} (loud : ¬ Quiet window reads n) :
    ∃ result, Tells window reads n result := by
  cases read : (reads n).answer with
  | error fault => exact ⟨_, .failed read⟩
  | ok raw =>
      by_cases marked : Octets.ofAscii readyMark <:+: raw
      · exact ⟨_, .ready ⟨raw, read, marked⟩⟩
      · have idle : (reads n).Idle := ⟨raw, read, marked⟩
        exact ⟨_, .late idle (Nat.not_lt.1 fun early => loud ⟨idle, early⟩)⟩

/-! ### Polling -/

/-- How polling goes after some reads: the first read that is not quiet ends it, or all reads that are allowed
are quiet. The number of reads that are made comes last. -/
inductive Polls (window : Duration) (reads : Nat → PacedRead) (earlier allowed : Nat) :
    Except ExchangeError Bool → Nat → Prop where
  | told {n : Nat} {result : Except ExchangeError Bool} (within : n < allowed)
      (quiet : ∀ m < n, Quiet window reads (earlier + m))
      (tells : Tells window reads (earlier + n) result) :
      Polls window reads earlier allowed result (n + 1)
  | spent (quiet : ∀ m < allowed, Quiet window reads (earlier + m)) :
      Polls window reads earlier allowed (.error .outOfReads) allowed

theorem Polls.of_tells {earlier allowed : Nat} {result : Except ExchangeError Bool}
    (tells : Tells window reads earlier result) : Polls window reads earlier (allowed + 1) result 1 :=
  .told (Nat.succ_pos allowed) (by simp) tells

theorem Polls.after_quiet {earlier allowed count : Nat} {result : Except ExchangeError Bool}
    (polls : Polls window reads (earlier + 1) allowed result count)
    (quiet : Quiet window reads earlier) :
    Polls window reads earlier (allowed + 1) result (count + 1) := by
  have shift : ∀ {count}, (∀ m < count, Quiet window reads (earlier + 1 + m)) →
      ∀ m < count + 1, Quiet window reads (earlier + m) := by
    intro count later m less
    cases m with
    | zero => exact quiet
    | succ m =>
        have there := later m (Nat.lt_of_succ_lt_succ less)
        rwa [show earlier + 1 + m = earlier + (m + 1) by omega] at there
  cases polls with
  | @told n _ within later tells =>
      rw [show earlier + 1 + n = earlier + (n + 1) by omega] at tells
      exact .told (Nat.succ_lt_succ within) (shift later) tells
  | spent later => exact .spent (shift later)

/-- The entries in the log for what is read while the device starts. -/
def bootEntries (raw : Octets) : List LogEntry :=
  if raw = [] then []
  else
    match Utf8.decode raw with
    | some line => [⟨.info, Text.trimRight line⟩]
    | none => [⟨.info, octetsText raw⟩]

theorem logBoot_bind {α : Type} (raw : Octets) (rest : Unit → Session ExchangeError α) :
    logBoot raw >>= rest = logged (bootEntries raw) (rest ()) := by
  unfold logBoot bootEntries
  by_cases empty : raw = []
  · rw [if_pos empty, if_pos empty, pure_bind]
    rfl
  · rw [if_neg empty, if_neg empty]
    cases Utf8.decode raw <;> rfl

/-- What is done with octets that were read. -/
def judge (window start : Duration) (allowed : Nat) (raw : Octets) : Session ExchangeError Bool :=
  if Text.occursIn (Octets.ofAscii readyMark) raw then
    logged [⟨.info, "Connected to CLI"⟩] (Session.ofExcept (.ok true))
  else
    Session.query .elapsed >>= fun now =>
      if window.nanos ≤ now.nanos - start.nanos then
        logged [⟨.info, "connection timed out"⟩] (Session.ofExcept (.ok false))
      else pollReady window start allowed

theorem pollReady_succ (allowed : Nat) :
    pollReady window start (allowed + 1) =
      Session.query .readLine >>= fun
        | .error fault => Session.ofExcept (.error (.link fault))
        | .ok raw => logged (bootEntries raw) (judge window start allowed raw) := by
  rw [pollReady, readLine, bind_assoc]
  refine bind_congr fun answer => ?_
  cases answer with
  | error fault => rfl
  | ok raw =>
      simp only [pure_bind]
      rw [logBoot_bind, judge]
      split
      · rfl
      · rfl

/-- What is asked for besides the log and the clock. -/
def askedOfOthers (steps : List Dialogue.Step) : List Query :=
  (asked steps).filter (· ≠ .elapsed)

/-- Polling makes one read after another and asks for nothing else. -/
theorem pollReady_polls (window : Duration) (paces : Paces surroundings reads start At) {s : σ}
    {earlier : Nat} (here : At s earlier) (allowed : Nat) :
    ∃ count,
      At (run surroundings (pollReady window start allowed).run s).2 (earlier + count) ∧
      askedOfOthers (transcript surroundings (pollReady window start allowed).run s) =
        List.replicate count .readLine ∧
      Polls window reads earlier allowed
        (run surroundings (pollReady window start allowed).run s).1 count := by
  induction allowed generalizing s earlier with
  | zero => exact ⟨0, here, rfl, .spent (by simp)⟩
  | succ allowed ih =>
      obtain ⟨answered, next⟩ := paces.read here
      rw [pollReady_succ, Session.run_query_bind, Session.transcript_query_bind, answered]
      cases read : (reads earlier).answer with
      | error fault => exact ⟨1, next, rfl, .of_tells (.failed read)⟩
      | ok raw =>
          simp only
          obtain ⟨s', there, ran, asks⟩ := paces.toSupplies.run_logged (bootEntries raw)
            (judge window start allowed raw) next
          rw [ran, askedOfOthers, Dialogue.asked_cons_readLine, asks, judge]
          by_cases marked : Text.occursIn (Octets.ofAscii readyMark) raw = true
          · rw [if_pos marked]
            exact ⟨1, paces.log _ there, rfl, .of_tells (.ready ⟨raw, read, Text.occursIn_iff.1 marked⟩)⟩
          · obtain ⟨passed, after⟩ := paces.clock there
            have idle : (reads earlier).Idle := ⟨raw, read, fun inside => marked (Text.occursIn_iff.2 inside)⟩
            rw [if_neg marked, Session.run_query_bind, Session.transcript_query_bind]
            simp only [passed]
            by_cases expired : window.nanos ≤ elapsed reads (earlier + 1)
            · simp only [if_pos expired]
              exact ⟨1, paces.log _ after, rfl, .of_tells (.late idle expired)⟩
            · simp only [if_neg expired]
              obtain ⟨count, later, asks, polls⟩ := ih after
              rw [show earlier + 1 + count = earlier + (count + 1) by omega] at later
              refine ⟨count + 1, later, ?_, polls.after_quiet ⟨idle, Nat.not_le.1 expired⟩⟩
              rw [List.replicate_succ, ← asks]
              rfl

/-! ### The read that ends the wait -/

section Outcome

variable {allowed count : Nat} {result : Except ExchangeError Bool}

theorem Polls.tells_iff (polls : Polls window reads 0 allowed result count) (n : Nat)
    (outcome : Except ExchangeError Bool) :
    count = n + 1 ∧ result = outcome ∧ outcome ≠ .error .outOfReads ↔
      n < allowed ∧ (∀ m < n, Quiet window reads m) ∧ Tells window reads n outcome := by
  cases polls with
  | @told k _ within quiet tells =>
      simp only [Nat.zero_add] at quiet tells
      constructor
      · rintro ⟨same, rfl, -⟩
        cases same
        exact ⟨within, quiet, tells⟩
      · rintro ⟨-, quiet', tells'⟩
        obtain rfl : k = n := by
          rcases Nat.lt_trichotomy k n with less | same | less
          · exact absurd (quiet' k less) tells.not_quiet
          · exact same
          · exact absurd (quiet n less) tells'.not_quiet
        refine ⟨rfl, tells.unique tells', ?_⟩
        rintro rfl
        cases tells'
  | spent quiet =>
      simp only [Nat.zero_add] at quiet
      constructor
      · rintro ⟨-, rfl, out⟩
        exact absurd rfl out
      · rintro ⟨within, -, tells⟩
        exact absurd (quiet n within) tells.not_quiet

theorem Polls.eq_iff (polls : Polls window reads 0 allowed result count)
    {outcome : Except ExchangeError Bool} (decided : outcome ≠ .error .outOfReads) :
    result = outcome ↔
      ∃ n < allowed, Tells window reads n outcome ∧ ∀ m < n, Quiet window reads m := by
  constructor
  · rintro rfl
    cases polls with
    | @told n _ within quiet tells =>
        simp only [Nat.zero_add] at quiet tells
        exact ⟨n, within, tells, quiet⟩
    | spent => exact absurd rfl decided
  · rintro ⟨n, within, tells, quiet⟩
    exact ((polls.tells_iff n outcome).2 ⟨within, quiet, tells⟩).2.1

/-- The reads that are allowed are used up exactly if all of them are quiet. -/
theorem Polls.outOfReads_iff (polls : Polls window reads 0 allowed result count) :
    result = .error .outOfReads ↔ ∀ n < allowed, Quiet window reads n := by
  cases polls with
  | told within _ tells =>
      rw [Nat.zero_add] at tells
      constructor
      · rintro rfl
        cases tells
      · intro quiet
        exact absurd (quiet _ within) tells.not_quiet
  | spent quiet =>
      simp only [Nat.zero_add] at quiet
      exact ⟨fun _ => quiet, fun _ => rfl⟩

/-- Polling ends with the first read that is not quiet. -/
theorem Polls.count_iff (polls : Polls window reads 0 allowed result count) (n : Nat) :
    count = n + 1 ∧ result ≠ .error .outOfReads ↔
      n < allowed ∧ ¬ Quiet window reads n ∧ ∀ m < n, Quiet window reads m := by
  constructor
  · rintro ⟨last, decided⟩
    obtain ⟨within, quiet, tells⟩ := (polls.tells_iff n result).1 ⟨last, rfl, decided⟩
    exact ⟨within, tells.not_quiet, quiet⟩
  · rintro ⟨within, loud, quiet⟩
    obtain ⟨outcome, tells⟩ := exists_tells_of_not_quiet loud
    obtain ⟨last, rfl, decided⟩ := (polls.tells_iff n outcome).2 ⟨within, quiet, tells⟩
    exact ⟨last, decided⟩

theorem Polls.count_pos (polls : Polls window reads 0 allowed result count) (some : 0 < allowed) :
    0 < count := by
  cases polls with
  | told => exact Nat.succ_pos _
  | spent => exact some

/-- Earlier reads may announce too: the first that does is the one that decides. -/
theorem exists_first_announcing :
    (∃ n < allowed, Tells window reads n (.ok true) ∧ ∀ m < n, Quiet window reads m) ↔
      ∃ n < allowed, (reads n).Announces ∧
        ∀ m < n, (∃ raw, (reads m).answer = .ok raw) ∧ elapsed reads (m + 1) < window.nanos := by
  constructor
  · rintro ⟨n, within, tells, quiet⟩
    cases tells with
    | ready announces =>
        refine ⟨n, within, announces, fun m less => ⟨?_, (quiet m less).early⟩⟩
        obtain ⟨raw, brings, -⟩ := (quiet m less).idle
        exact ⟨raw, brings⟩
  · rintro ⟨n, within, announces, earlier⟩
    induction n using Nat.strongRecOn with
    | ind n ih =>
        by_cases before : ∃ m < n, (reads m).Announces
        · obtain ⟨m, less, announces'⟩ := before
          exact ih m less (Nat.lt_trans less within) announces' fun k less' =>
            earlier k (Nat.lt_trans less' less)
        · refine ⟨n, within, .ready announces, fun m less => ?_⟩
          obtain ⟨⟨raw, brings⟩, early⟩ := earlier m less
          exact ⟨⟨raw, brings, fun marked => before ⟨m, less, raw, brings, marked⟩⟩, early⟩

/-- Quiet reads that take some time each are soon over. -/
theorem Polls.decides_of_tick (polls : Polls window reads 0 allowed result count) {tick : Nat}
    (some : 0 < tick) (each : ∀ n, (reads n).Idle → tick ≤ (reads n).span.nanos)
    (enough : window.nanos / tick < allowed) : result ≠ .error .outOfReads := by
  intro spent
  have quiet := polls.outOfReads_iff.1 spent
  have last := (quiet _ enough).early
  have long : tick * (window.nanos / tick + 1) ≤ elapsed reads (window.nanos / tick + 1) :=
    mul_le_elapsed fun n less =>
      each n (quiet n (Nat.lt_of_le_of_lt (Nat.le_of_lt_succ less) enough)).idle
  exact absurd (Nat.lt_of_le_of_lt long last) (Nat.not_lt.2 (Nat.le_of_lt (Nat.lt_mul_div_succ _ some)))

end Outcome

/-! ### The wait for the device -/

/-- For every sequence of reads, whatever they bring and however long they take, and however many are
allowed. At least one read is made. The device is ready exactly if some read holds the mark and no read
before it failed or ended after the window; it is not exactly if a read without the mark, which the first
that is not quiet, ends after the window; and a failed read is told exactly if all before it are quiet. The
reads end with the first that is not quiet. Besides reads only the log and the clock are asked for. If each
read without the mark takes a time, as many reads as fit into the window and one more are enough. -/
theorem waitForReady_follows_reads (reads : Nat → PacedRead) (others : Surroundings (Duration × σ))
    (settings : ExchangeSettings) (allowed : Nat) (clock : Duration) (other : σ) :
    let wait := (waitForReady settings allowed).run
    let window := settings.readyWindow
    let (result, after) := run (overPacedReads reads others) wait ⟨0, clock, other⟩
    (0 < allowed → 0 < after.count) ∧
    (result = .ok true ↔ ∃ n < allowed, (reads n).Announces ∧
      ∀ m < n, (∃ raw, (reads m).answer = .ok raw) ∧ elapsed reads (m + 1) < window.nanos) ∧
    (result = .ok false ↔ ∃ n < allowed, (reads n).Idle ∧ window.nanos ≤ elapsed reads (n + 1) ∧
      ∀ m < n, Quiet window reads m) ∧
    (∀ fault, result = .error (.link fault) ↔ ∃ n < allowed, (reads n).answer = .error fault ∧
      ∀ m < n, Quiet window reads m) ∧
    (result = .error .outOfReads ↔ ∀ n < allowed, Quiet window reads n) ∧
    (∀ n, after.count = n + 1 ∧ result ≠ .error .outOfReads ↔
      n < allowed ∧ ¬ Quiet window reads n ∧ ∀ m < n, Quiet window reads m) ∧
    askedOfOthers (transcript (overPacedReads reads others) wait ⟨0, clock, other⟩) =
      List.replicate after.count .readLine ∧
    ∀ tick, 0 < tick → (∀ n, (reads n).Idle → tick ≤ (reads n).span.nanos) →
      window.nanos / tick < allowed → result ≠ .error .outOfReads := by
  intro wait window
  have opened : run (overPacedReads reads others) wait ⟨0, clock, other⟩ =
      run (overPacedReads reads others) (pollReady window clock allowed).run
        ⟨0, clock, (others.answer (.log ⟨.info, "Wait for init"⟩) (clock, other)).2.2⟩ := rfl
  have asks : asked (transcript (overPacedReads reads others) wait ⟨0, clock, other⟩) =
      .elapsed :: asked (transcript (overPacedReads reads others) (pollReady window clock allowed).run
        ⟨0, clock, (others.answer (.log ⟨.info, "Wait for init"⟩) (clock, other)).2.2⟩) := rfl
  obtain ⟨count, ⟨counted, -⟩, questions, polls⟩ :=
    pollReady_polls window (paces_overPacedReads reads others clock)
      (s := ⟨0, clock, (others.answer (.log ⟨.info, "Wait for init"⟩) (clock, other)).2.2⟩)
      ⟨rfl, rfl⟩ allowed
  rw [askedOfOthers, asks, List.filter_cons_of_neg (by simp), opened]
  rw [Nat.zero_add] at counted
  simp only [counted]
  refine ⟨polls.count_pos, ?_, ?_, fun fault => ?_, polls.outOfReads_iff, polls.count_iff,
    questions, fun tick some each enough => polls.decides_of_tick some each enough⟩
  · rw [polls.eq_iff (by simp), exists_first_announcing]
  · rw [polls.eq_iff (by simp)]
    constructor
    · rintro ⟨n, within, tells, quiet⟩
      cases tells with
      | late idle expired => exact ⟨n, within, idle, expired, quiet⟩
    · rintro ⟨n, within, idle, expired, quiet⟩
      exact ⟨n, within, .late idle expired, quiet⟩
  · rw [polls.eq_iff (by simp)]
    constructor
    · rintro ⟨n, within, tells, quiet⟩
      cases tells with
      | failed fails => exact ⟨n, within, fails, quiet⟩
    · rintro ⟨n, within, fails, quiet⟩
      exact ⟨n, within, .failed fails, quiet⟩

end SecureElement.Exchange
