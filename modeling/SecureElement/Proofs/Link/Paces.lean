import SecureElement.Proofs.Link.Listening

/-!
Reads that take time.

A sequence of reads tells what each of them brings and how long it takes. Nothing else is known of the
surroundings: what is asked for besides is answered by others, at any pace. Once an exchange has opened, or
the wait for the device has begun, only reads take time, so the clock tells how long they took together
(`Paces`).
-/

namespace SecureElement.Exchange

open Dialogue (Surroundings run)

variable {σ : Type} {surroundings : Surroundings σ} {At : σ → Nat → Prop}

/-- A read of the link: what it brings, and how long it takes. -/
structure PacedRead where
  answer : Except LinkFault Octets
  span : Duration

/-- The nanoseconds that the first members of a sequence of reads take together. -/
def elapsed (reads : Nat → PacedRead) : Nat → Nat
  | 0 => 0
  | count + 1 => elapsed reads count + (reads count).span.nanos

theorem elapsed_succ (reads : Nat → PacedRead) (count : Nat) :
    elapsed reads (count + 1) = elapsed reads count + (reads count).span.nanos := rfl

/-- If each of the first reads takes some time, so do they together. -/
theorem mul_le_elapsed {reads : Nat → PacedRead} {tick count : Nat}
    (each : ∀ n < count, tick ≤ (reads n).span.nanos) : tick * count ≤ elapsed reads count := by
  induction count with
  | zero => exact Nat.le_refl 0
  | succ count ih =>
      have before := ih fun n less => each n (Nat.lt_succ_of_lt less)
      have last := each count (Nat.lt_succ_self count)
      rw [elapsed_succ, Nat.mul_succ]
      exact Nat.add_le_add before last

/-- A link in use. -/
structure PacedLink (σ : Type) where
  /-- How many reads there were. -/
  count : Nat
  clock : Duration
  other : σ

/-- Surroundings in which reads bring the members of a sequence and take their time. The log and the clock
take none, and everything else is answered by others, who may set the clock. -/
def overPacedReads (reads : Nat → PacedRead) (others : Surroundings (Duration × σ)) :
    Surroundings (PacedLink σ) where
  answer q s :=
    match q with
    | .readLine =>
        ((reads s.count).answer,
          ⟨s.count + 1, ⟨s.clock.nanos + (reads s.count).span.nanos⟩, s.other⟩)
    | .elapsed => (s.clock, s)
    | .log entry =>
        ((), { s with other := (others.answer (.log entry) (s.clock, s.other)).2.2 })
    | q =>
        let (answer, clock, other) := others.answer q (s.clock, s.other)
        (answer, ⟨s.count, clock, other⟩)

/-- Reads in these surroundings bring the members of a sequence, and the clock tells how long they took since
it was read at the start. -/
structure Paces (surroundings : Surroundings σ) (reads : Nat → PacedRead) (start : Duration)
    (At : σ → Nat → Prop) : Prop extends Supplies surroundings (fun n => (reads n).answer) At where
  clock : ∀ {s n}, At s n →
    (surroundings.answer .elapsed s).1.nanos - start.nanos = elapsed reads n ∧
      At (surroundings.answer .elapsed s).2 n

theorem paces_overPacedReads (reads : Nat → PacedRead) (others : Surroundings (Duration × σ))
    (start : Duration) :
    Paces (overPacedReads reads others) reads start
      fun s count => s.count = count ∧ s.clock.nanos = start.nanos + elapsed reads count where
  read := by
    rintro s n ⟨rfl, clock⟩
    refine ⟨rfl, rfl, ?_⟩
    rw [elapsed_succ, ← Nat.add_assoc, ← clock]
    rfl
  log := fun _ here => here
  clock := by
    rintro s n ⟨rfl, clock⟩
    refine ⟨?_, rfl, clock⟩
    show s.clock.nanos - start.nanos = elapsed reads s.count
    omega

end SecureElement.Exchange
