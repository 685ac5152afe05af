import Mathlib.Data.List.Induction
import SecureElement.Link.SerialLine

/-!
Lines over a serial port, one after another.

Whatever the times of the reads, what is read is what the port delivers, in pieces (`flatten_pieces`),
and a line feed stands only at the end of a piece (`not_mem_dropLast_of_mem_pieces`). If no wait is over
before the line is, the pieces are the lines (`pieces_eq_linesFrom`).
-/

namespace SecureElement.SerialLine

/-- What the reading of one line after another brings, from within a line on. `begins` tells when the
reading of each line begins. After the last outcome nothing more comes. -/
def pieces (begins : Nat → Duration) (timeout : Duration) :
    (count : Nat) → (line : Octets) → List PortEvent → List Octets
  | _, line, [] => [line]
  | count, line, event :: events =>
      match step ⟨(begins count).nanos + timeout.nanos⟩ line event with
      | .more line => pieces begins timeout count line events
      | .finished line => line :: pieces begins timeout (count + 1) [] events
      | .failed => []

/-- The lines of an octet string, from within a line on; the last one is what follows the last line
feed. -/
def linesFrom : (line : Octets) → Octets → List Octets
  | line, [] => [line]
  | line, b :: rest =>
      if b = 0x0A then (line ++ [b]) :: linesFrom [] rest else linesFrom (line ++ [b]) rest

/-- No read of the port fails. -/
def Unfailing (events : List PortEvent) : Prop :=
  ∀ event ∈ events, event.read ≠ .failed

/-- Every read brings an octet, before any wait for a line is over. -/
def Prompt (begins : Nat → Duration) (timeout : Duration) (events : List PortEvent) : Prop :=
  ∀ event ∈ events, (∃ b, event.read = .octet b) ∧
    ∀ count, event.time.nanos < (begins count).nanos + timeout.nanos

attribute [local simp] readOn pieces linesFrom

theorem octetsOf_cons (event : PortEvent) (events : List PortEvent) :
    octetsOf (event :: events) = event.read.octet?.toList ++ octetsOf events := by
  cases octet : event.read.octet? <;> simp [octetsOf, octet]

/-- A read that does not fail adds its octet to the line, and ends it if that is a line feed. -/
theorem step_cases {event : PortEvent} (fine : event.read ≠ .failed) (deadline : Duration)
    (line : Octets) :
    step deadline line event = .finished (line ++ event.read.octet?.toList) ∨
      step deadline line event = .more (line ++ event.read.octet?.toList) ∧
        event.read.octet? ≠ some 0x0A := by
  obtain ⟨read, time⟩ := event
  cases read with
  | failed => exact absurd rfl fine
  | timedOut => exact .inl (by simp [step, PortRead.octet?])
  | nothing | interrupted =>
      by_cases late : deadline.nanos ≤ time.nanos
      · exact .inl (by simp [step, late, PortRead.octet?])
      · exact .inr (by simp [step, late, PortRead.octet?])
  | octet b =>
      by_cases late : b = 0x0A ∨ deadline.nanos ≤ time.nanos
      · exact .inl (by simp [step, late, PortRead.octet?])
      · refine .inr ⟨by simp [step, late, PortRead.octet?], ?_⟩
        intro feed
        cases feed
        exact late (.inl rfl)

variable {begins : Nat → Duration} {timeout : Duration} {events : List PortEvent}

/-! ### One read after another -/

theorem readOn_suffix (deadline : Duration) (line : Octets) (events : List PortEvent) :
    (readOn deadline line events).2 <:+ events := by
  induction events generalizing line with
  | nil => exact List.suffix_refl _
  | cons event events ih =>
      rw [readOn]
      split
      · exact (ih _).trans (List.suffix_cons _ _)
      · exact List.suffix_cons _ _

theorem Unfailing.readOn (unfailing : Unfailing events) (deadline : Duration) (line : Octets) :
    Unfailing (readOn deadline line events).2 := fun event member =>
  unfailing event ((readOn_suffix deadline line events).subset member)

theorem Unfailing.readOn_ne_failed (unfailing : Unfailing events) (deadline : Duration)
    (line : Octets) : (SerialLine.readOn deadline line events).1 ≠ .failed := by
  induction events generalizing line with
  | nil => simp
  | cons event events ih =>
      have later : Unfailing events := fun other member => unfailing other (by simp [member])
      rw [SerialLine.readOn]
      rcases step_cases (unfailing event (by simp)) deadline line with finished | ⟨more, -⟩
      · rw [finished]
        simp
      · rw [more]
        exact ih later _

/-- A line that goes on is the last one. -/
theorem readOn_more_rest {deadline : Duration} {line part : Octets} {rest : List PortEvent}
    (more : readOn deadline line events = (.more part, rest)) : rest = [] := by
  induction events generalizing line with
  | nil =>
      cases more
      rfl
  | cons event events ih =>
      rw [readOn] at more
      cases progress : step deadline line event with
      | more line' =>
          rw [progress] at more
          exact ih more
      | finished whole =>
          rw [progress] at more
          cases more
      | failed =>
          rw [progress] at more
          cases more

/-- The pieces are what reading line after line brings. -/
theorem pieces_eq (count : Nat) (line : Octets) (events : List PortEvent) :
    pieces begins timeout count line events =
      match readOn ⟨(begins count).nanos + timeout.nanos⟩ line events with
      | (.finished whole, rest) => whole :: pieces begins timeout (count + 1) [] rest
      | (.more part, _) => [part]
      | (.failed, _) => [] := by
  induction events generalizing line with
  | nil => rfl
  | cons event events ih =>
      rw [pieces, readOn]
      cases step ⟨(begins count).nanos + timeout.nanos⟩ line event with
      | more line' => exact ih line'
      | finished whole => rfl
      | failed => rfl

/-! ### What the pieces are -/

theorem flatten_pieces (unfailing : Unfailing events) (count : Nat) (line : Octets) :
    (pieces begins timeout count line events).flatten = line ++ octetsOf events := by
  induction events generalizing count line with
  | nil => simp [octetsOf]
  | cons event events ih =>
      have later : Unfailing events := fun other member => unfailing other (by simp [member])
      rw [pieces, octetsOf_cons, ← List.append_assoc]
      rcases step_cases (unfailing event (by simp)) ⟨(begins count).nanos + timeout.nanos⟩ line with
        finished | ⟨more, -⟩
      · rw [finished]
        simp only [List.flatten_cons, ih later, List.nil_append]
      · rw [more]
        exact ih later count _

/-- A line feed stands only at the end of a piece. -/
theorem not_mem_dropLast_of_mem_pieces (unfailing : Unfailing events) {count : Nat} {line : Octets}
    (start : 0x0A ∉ line) {piece : Octets} (member : piece ∈ pieces begins timeout count line events) :
    0x0A ∉ piece.dropLast := by
  induction events generalizing count line with
  | nil =>
      obtain rfl := List.mem_singleton.1 member
      exact fun inside => start (List.dropLast_subset _ inside)
  | cons event events ih =>
      have later : Unfailing events := fun other member => unfailing other (by simp [member])
      rw [pieces] at member
      rcases step_cases (unfailing event (by simp)) ⟨(begins count).nanos + timeout.nanos⟩ line with
        finished | ⟨more, goes_on⟩
      · rw [finished] at member
        rcases List.mem_cons.1 member with rfl | member
        · cases event.read.octet? with
          | none =>
              rw [Option.toList_none, List.append_nil]
              exact fun inside => start (List.dropLast_subset _ inside)
          | some b =>
              rw [Option.toList_some, List.dropLast_concat]
              exact start
        · exact ih later (by simp) member
      · rw [more] at member
        refine ih later ?_ member
        cases octet : event.read.octet? with
        | none => simpa using start
        | some b =>
            rw [octet] at goes_on
            simp only [Option.toList_some, List.mem_append, List.mem_singleton, not_or]
            exact ⟨start, fun same => goes_on (by rw [same])⟩

theorem length_pieces_le (count : Nat) (line : Octets) (events : List PortEvent) :
    (pieces begins timeout count line events).length ≤ events.length + 1 := by
  induction events generalizing count line with
  | nil => simp
  | cons event events ih =>
      rw [pieces]
      cases step ⟨(begins count).nanos + timeout.nanos⟩ line event with
      | more line' => exact Nat.le_succ_of_le (ih count line')
      | finished whole => exact Nat.succ_le_succ (ih (count + 1) [])
      | failed => simp

/-! ### Whole lines -/

/-- If no wait is over before its line, the pieces are the lines. -/
theorem pieces_eq_linesFrom (prompt : Prompt begins timeout events) (count : Nat) (line : Octets) :
    pieces begins timeout count line events = linesFrom line (octetsOf events) := by
  induction events generalizing count line with
  | nil => rfl
  | cons event events ih =>
      have later : Prompt begins timeout events := fun other member => prompt other (by simp [member])
      obtain ⟨⟨b, octet⟩, early⟩ := prompt event (by simp)
      have open_ := Nat.not_le.2 (early count)
      rw [pieces, octetsOf_cons, octet, step, octet]
      by_cases feed : b = 0x0A
      · simp only [feed, true_or, if_true, ih later]
        rfl
      · simp only [feed, open_, or_self, if_false, ih later, PortRead.octet?, Option.toList_some,
          List.singleton_append, linesFrom]

/-- Octets that a line feed ends, and that hold no other. -/
def IsLine (octets : Octets) : Prop :=
  ∃ content, octets = content ++ [0x0A] ∧ 0x0A ∉ content

theorem linesFrom_append {content : Octets} (plain : 0x0A ∉ content) (line rest : Octets) :
    linesFrom line (content ++ 0x0A :: rest) = (line ++ content ++ [0x0A]) :: linesFrom [] rest := by
  induction content generalizing line with
  | nil => simp [linesFrom]
  | cons b content ih =>
      simp only [List.mem_cons, not_or] at plain
      rw [List.cons_append, linesFrom, if_neg (Ne.symm plain.1), ih plain.2]
      simp

theorem linesFrom_flatten {lines : List Octets} (each : ∀ line ∈ lines, IsLine line) :
    linesFrom [] lines.flatten = lines ++ [[]] := by
  induction lines with
  | nil => rfl
  | cons line lines ih =>
      obtain ⟨content, rfl, plain⟩ := each line (by simp)
      have later := ih fun line member => each line (by simp [member])
      rw [List.flatten_cons, List.append_assoc, List.singleton_append, linesFrom_append plain, later]
      rfl

/-- A piece of some lines that holds a line feed at its end only is part of one of them. -/
theorem exists_line_of_within {lines : List Octets} (each : ∀ line ∈ lines, IsLine line)
    {piece : Octets} (some : piece ≠ []) (feeds : 0x0A ∉ piece.dropLast)
    (inside : piece <:+: lines.flatten) : ∃ line ∈ lines, piece <:+: line := by
  induction lines with
  | nil => exact absurd (List.infix_nil.1 inside) some
  | cons line lines ih =>
      have later : piece <:+: lines.flatten → ∃ other ∈ line :: lines, piece <:+: other := by
        intro inside
        obtain ⟨other, member, part⟩ := ih (fun line member => each line (by simp [member])) inside
        exact ⟨other, List.mem_cons_of_mem _ member, part⟩
      obtain ⟨front, back, cut⟩ := inside
      rw [List.flatten_cons, List.append_eq_append_iff] at cut
      rcases cut with ⟨middle, whole, -⟩ | ⟨middle, starts, rest⟩
      · exact ⟨line, by simp, front, middle, whole.symm⟩
      · rcases List.append_eq_append_iff.1 starts with ⟨first, whole, split⟩ | ⟨first, -, split⟩
        · -- The piece would go over the end of the line.
          cases middle with
          | nil =>
              refine ⟨line, by simp, front, [], ?_⟩
              rw [split, whole]
              simp
          | cons b middle =>
              cases first using List.reverseRecOn with
              | nil =>
                  refine later ⟨[], back, ?_⟩
                  rw [split, rest]
                  simp
              | append_singleton first last _ =>
                  exfalso
                  obtain ⟨content, ended, -⟩ := each line (by simp)
                  rw [ended, ← List.append_assoc] at whole
                  obtain ⟨-, same⟩ := List.append_inj' whole rfl
                  cases same
                  rw [split, List.dropLast_append_cons] at feeds
                  simp at feeds
        · refine later ⟨first, back, ?_⟩
          rw [rest, split]

theorem exists_line_of_mem {lines cut : List Octets} (each : ∀ line ∈ lines, IsLine line)
    (same : cut.flatten = lines.flatten) {piece : Octets} (member : piece ∈ cut)
    (some : piece ≠ []) (feeds : 0x0A ∉ piece.dropLast) : ∃ line ∈ lines, piece <:+: line := by
  refine exists_line_of_within each some feeds ?_
  rw [← same]
  exact List.infix_of_mem_flatten member

end SecureElement.SerialLine
