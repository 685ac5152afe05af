import Mathlib.Data.List.Basic
import SecureElement.Link.Exchange

/-!
Lines of a response, read from the front.

What a row of lines comes to is said of the whole row: which line tells the status, which one ends the
response, and what stands between them (`Completes`, `Breaks`), or that nothing is decided yet (`Leaves`).
Taking in one line after another (`advance`) keeps to it (`Leaves.feed`), so a row comes to one thing at
most. A read that fails ends an exchange too, if nothing was decided before it (`Settles`).
-/

namespace SecureElement

open Text

namespace Reading

/-! ### What a row of lines comes to -/

/-- A line without a mark. -/
def Plain (line : String) : Prop :=
  contains line successMark = false ∧ contains line failureMark = false ∧
    contains line endMark = false

/-- The status that a line tells: success if it holds that mark, whatever else it holds. -/
def LineTells (line : String) (success : Bool) : Prop :=
  contains line successMark = success ∧ (success = false → contains line failureMark = true)

/-- Lines that decide nothing, and how they leave the reading of a response. -/
inductive Leaves : List String → Reading → Prop where
  | untold {lines : List String} (plain : ∀ line ∈ lines, Plain line) : Leaves lines awaitingStatus
  | told {before between : List String} {status : String} {success : Bool}
      (plain : ∀ line ∈ before, Plain line) (tells : LineTells status success)
      (goesOn : ∀ line ∈ between, contains line endMark = false) :
      Leaves (before ++ status :: between) (awaitingEnd success (String.join between))

/-- Lines that make a response. The first one with a mark tells the status, the first one after it with the
end mark is the last, and the body is what stands between them. -/
inductive Completes : List String → Response → Prop where
  | intro {before between : List String} {status last : String} {success : Bool}
      (plain : ∀ line ∈ before, Plain line) (tells : LineTells status success)
      (goesOn : ∀ line ∈ between, contains line endMark = false)
      (ends : contains last endMark = true) :
      Completes (before ++ status :: between ++ [last]) ⟨success, String.join between⟩

/-- Lines that end before a status was told. -/
inductive Breaks : List String → Prop where
  | intro {before : List String} {last : String} (plain : ∀ line ∈ before, Plain line)
      (unsuccessful : contains last successMark = false)
      (unfailed : contains last failureMark = false) (ends : contains last endMark = true) :
      Breaks (before ++ [last])

/-! ### One line after another -/

/-- What one line after another does to a response. -/
def advance : Reading → List String → Progress
  | reading, [] => .more reading
  | reading, line :: lines =>
      match reading.feed line with
      | .more reading => advance reading lines
      | progress => progress

attribute [local simp] advance

/-- The first of the lines that decide nothing decides nothing, and the others do not after it. -/
theorem exists_of_advance_cons {reading after : Reading} {line : String} {lines : List String}
    (more : reading.advance (line :: lines) = .more after) :
    ∃ next, reading.feed line = .more next ∧ next.advance lines = .more after := by
  rw [advance] at more
  cases fed : reading.feed line with
  | more next =>
      rw [fed] at more
      exact ⟨next, rfl, more⟩
  | finished response =>
      rw [fed] at more
      cases more
  | missingStatus =>
      rw [fed] at more
      cases more

theorem advance_append {reading after : Reading} {first : List String}
    (more : reading.advance first = .more after) (second : List String) :
    reading.advance (first ++ second) = after.advance second := by
  induction first generalizing reading with
  | nil =>
      cases more
      rfl
  | cons line first ih =>
      obtain ⟨next, fed, more⟩ := exists_of_advance_cons more
      rw [List.cons_append, advance, fed]
      exact ih more

/-- Lines after the one that decides do not matter. -/
theorem advance_append_of_decided {reading : Reading} {first : List String}
    (decided : ∀ after, reading.advance first ≠ .more after) (second : List String) :
    reading.advance (first ++ second) = reading.advance first := by
  induction first generalizing reading with
  | nil => exact absurd rfl (decided reading)
  | cons line first ih =>
      rw [List.cons_append, advance, advance]
      rw [advance] at decided
      cases fed : reading.feed line with
      | more next =>
          rw [fed] at decided
          exact ih decided
      | finished response => rfl
      | missingStatus => rfl

theorem advance_singleton (reading : Reading) (line : String) :
    reading.advance [line] = reading.feed line := by
  rw [advance]
  cases reading.feed line <;> rfl

theorem feed_of_plain {line : String} (plain : Plain line) :
    awaitingStatus.feed line = .more awaitingStatus := by
  obtain ⟨success, failure, ended⟩ := plain
  simp [feed, success, failure, ended]

theorem feed_of_lineTells {line : String} {success : Bool} (tells : LineTells line success) :
    awaitingStatus.feed line = .more (awaitingEnd success "") := by
  obtain ⟨first, second⟩ := tells
  cases success with
  | true => simp [feed, first]
  | false => simp [feed, first, second rfl]

theorem advance_of_plain {lines : List String} (plain : ∀ line ∈ lines, Plain line) :
    awaitingStatus.advance lines = .more awaitingStatus := by
  induction lines with
  | nil => rfl
  | cons line lines ih =>
      rw [advance, feed_of_plain (plain line (by simp))]
      exact ih fun other member => plain other (by simp [member])

theorem advance_of_goesOn {lines : List String} {success : Bool} {body : String}
    (goesOn : ∀ line ∈ lines, contains line endMark = false) :
    (awaitingEnd success body).advance lines =
      .more (awaitingEnd success (body ++ String.join lines)) := by
  induction lines generalizing body with
  | nil => simp
  | cons line lines ih =>
      have here := goesOn line (by simp)
      rw [advance, feed, here]
      simp only [Bool.false_eq_true, if_false]
      rw [ih fun other member => goesOn other (by simp [member]), String.join_cons,
        String.append_assoc]

theorem Leaves.advance {lines : List String} {reading : Reading} (leaves : Leaves lines reading) :
    awaitingStatus.advance lines = .more reading := by
  cases leaves with
  | untold plain => exact advance_of_plain plain
  | told plain tells goesOn =>
      rw [advance_append (advance_of_plain plain), Reading.advance, feed_of_lineTells tells]
      simp [advance_of_goesOn goesOn]

theorem Completes.advance {lines : List String} {response : Response}
    (completes : Completes lines response) : awaitingStatus.advance lines = .finished response := by
  obtain ⟨plain, tells, goesOn, ends⟩ := completes
  rw [advance_append (Leaves.told plain tells goesOn).advance, advance_singleton]
  simp [feed, ends]

theorem Breaks.advance {lines : List String} (breaks : Breaks lines) :
    awaitingStatus.advance lines = .missingStatus := by
  obtain ⟨plain, unsuccessful, unfailed, ends⟩ := breaks
  rw [advance_append (advance_of_plain plain), advance_singleton]
  simp [feed, unsuccessful, unfailed, ends]

/-- What a line does after lines that decide nothing is what the longer row comes to. -/
theorem Leaves.feed {lines : List String} {reading : Reading} (leaves : Leaves lines reading)
    (line : String) :
    match reading.feed line with
    | .more after => Leaves (lines ++ [line]) after
    | .finished response => Completes (lines ++ [line]) response
    | .missingStatus => Breaks (lines ++ [line]) := by
  cases leaves with
  | untold plain =>
      cases success : contains line successMark with
      | true =>
          have tells : LineTells line true := ⟨success, by simp⟩
          rw [feed_of_lineTells tells]
          exact .told plain tells (by simp)
      | false =>
          cases failure : contains line failureMark with
          | true =>
              have tells : LineTells line false := ⟨success, fun _ => failure⟩
              rw [feed_of_lineTells tells]
              exact .told plain tells (by simp)
          | false =>
              cases ended : contains line endMark with
              | true =>
                  simp only [Reading.feed, success, failure, ended, if_true, Bool.false_eq_true, if_false]
                  exact .intro plain success failure ended
              | false =>
                  have quiet : Plain line := ⟨success, failure, ended⟩
                  rw [feed_of_plain quiet]
                  refine .untold fun other member => ?_
                  rcases List.mem_append.1 member with earlier | last
                  · exact plain other earlier
                  · exact List.mem_singleton.1 last ▸ quiet
  | @told before between status told plain tells goesOn =>
      cases ended : contains line endMark with
      | true =>
          simp only [Reading.feed, ended, if_true]
          exact .intro plain tells goesOn ended
      | false =>
          simp only [Reading.feed, ended, Bool.false_eq_true, if_false]
          have longer : String.join between ++ line = String.join (between ++ [line]) := by
            simp [String.join_append]
          rw [longer, List.append_assoc, List.cons_append]
          refine .told plain tells fun other member => ?_
          rcases List.mem_append.1 member with earlier | last
          · exact goesOn other earlier
          · exact List.mem_singleton.1 last ▸ ended

/-- Lines after which the reading goes on have decided nothing. -/
theorem leaves_append_of_advance {first second : List String} {reading after : Reading}
    (leaves : Leaves first reading) (more : reading.advance second = .more after) :
    Leaves (first ++ second) after := by
  induction second generalizing first reading with
  | nil =>
      cases more
      rw [List.append_nil]
      exact leaves
  | cons line second ih =>
      obtain ⟨next, fed, more⟩ := exists_of_advance_cons more
      have here := leaves.feed line
      rw [fed] at here
      rw [List.append_cons]
      exact ih here more

/-- The beginning of lines that decide nothing decides nothing. -/
theorem Leaves.of_prefix {first lines : List String} {reading : Reading}
    (leaves : Leaves lines reading) (start : first <+: lines) : ∃ earlier, Leaves first earlier := by
  obtain ⟨second, rfl⟩ := start
  have whole := leaves.advance
  cases here : awaitingStatus.advance first with
  | more earlier =>
      have none : Leaves [] awaitingStatus := .untold (by simp)
      exact ⟨earlier, leaves_append_of_advance none here⟩
  | finished response =>
      rw [advance_append_of_decided (by rw [here]; simp)] at whole
      rw [here] at whole
      cases whole
  | missingStatus =>
      rw [advance_append_of_decided (by rw [here]; simp)] at whole
      rw [here] at whole
      cases whole

end Reading

/-! ### Reads that fail -/

namespace Exchange

open Reading (Leaves Completes Breaks)

variable {command : String}

/-- What a row of lines comes to if reads among them may fail: a response, a response that ended before
its status, or the first failure, if nothing was decided before it. The last one decides. -/
inductive Settles (command : String) :
    List (Except LinkFault String) → Except ExchangeError Response → Prop where
  | completed {lines : List String} {response : Response} (completes : Completes lines response) :
      Settles command (lines.map .ok) (.ok response)
  | broken {lines : List String} (breaks : Breaks lines) :
      Settles command (lines.map .ok) (.error (.missingStatus command))
  | failed {lines : List String} {reading : Reading} {fault : LinkFault}
      (leaves : Leaves lines reading) :
      Settles command (lines.map .ok ++ [.error fault]) (.error (.link fault))

/-- Lines without a failed read that decide nothing, and how they leave the reading of a response. -/
def Undecided (heard : List (Except LinkFault String)) (reading : Reading) : Prop :=
  ∃ lines : List String, heard = lines.map .ok ∧ Leaves lines reading

theorem undecided_nil : Undecided [] .awaitingStatus :=
  ⟨[], rfl, .untold (by simp)⟩

/-- What a further line or a failed read does after lines that decide nothing. -/
theorem Undecided.next {heard : List (Except LinkFault String)} {reading : Reading}
    (undecided : Undecided heard reading) (command : String) (next : Except LinkFault String) :
    match next with
    | .error fault => Settles command (heard ++ [next]) (.error (.link fault))
    | .ok line =>
        match reading.feed line with
        | .more after => Undecided (heard ++ [next]) after
        | .finished response => Settles command (heard ++ [next]) (.ok response)
        | .missingStatus => Settles command (heard ++ [next]) (.error (.missingStatus command)) := by
  obtain ⟨lines, rfl, leaves⟩ := undecided
  cases next with
  | error fault => exact .failed leaves
  | ok line =>
      have longer : lines.map .ok ++ [(.ok line : Except LinkFault String)] =
          (lines ++ [line]).map .ok := by simp
      have fed := leaves.feed line
      rw [longer]
      simp only
      cases progress : reading.feed line with
      | more after =>
          rw [progress] at fed
          exact ⟨_, rfl, fed⟩
      | finished response =>
          rw [progress] at fed
          exact .completed fed
      | missingStatus =>
          rw [progress] at fed
          exact .broken fed

theorem map_ok_injective {first second : List String}
    (same : first.map (.ok : String → Except LinkFault String) = second.map .ok) : first = second :=
  (List.map_inj_right fun _ _ => Except.ok.inj).1 same

theorem map_ok_ne_append_error {lines first : List String} {fault : LinkFault} :
    lines.map .ok ≠ first.map .ok ++ [(.error fault : Except LinkFault String)] := by
  intro same
  have member : (.error fault : Except LinkFault String) ∈ lines.map .ok := by
    rw [same]
    simp
  simp at member

/-- Without a failed read a row comes to what its lines do. -/
theorem Settles.of_lines {lines : List String} {result : Except ExchangeError Response}
    (settles : Settles command (lines.map .ok) result) :
    match Reading.awaitingStatus.advance lines with
    | .more _ => False
    | .finished response => result = .ok response
    | .missingStatus => result = .error (.missingStatus command) := by
  generalize row : lines.map (.ok : String → Except LinkFault String) = heard at settles
  cases settles with
  | completed completes =>
      obtain rfl := map_ok_injective row
      rw [completes.advance]
  | broken breaks =>
      obtain rfl := map_ok_injective row
      rw [breaks.advance]
  | failed => exact absurd row map_ok_ne_append_error

theorem Settles.of_failed {lines : List String} {fault : LinkFault}
    {result : Except ExchangeError Response}
    (settles : Settles command (lines.map .ok ++ [.error fault]) result) :
    result = .error (.link fault) := by
  generalize row : lines.map .ok ++ [(.error fault : Except LinkFault String)] = heard at settles
  cases settles with
  | completed | broken => exact absurd row.symm map_ok_ne_append_error
  | failed leaves =>
      obtain ⟨-, same⟩ := List.append_inj' row rfl
      cases same
      rfl

theorem Undecided.not_settles {heard : List (Except LinkFault String)} {reading : Reading}
    {result : Except ExchangeError Response} (undecided : Undecided heard reading) :
    ¬ Settles command heard result := by
  obtain ⟨lines, rfl, leaves⟩ := undecided
  intro settles
  have decided := settles.of_lines
  rw [leaves.advance] at decided
  exact decided

/-- A row comes to one thing at most. -/
theorem Settles.unique {heard : List (Except LinkFault String)}
    {first second : Except ExchangeError Response} (here : Settles command heard first)
    (there : Settles command heard second) : first = second := by
  cases here with
  | completed completes =>
      have decided := there.of_lines
      rw [completes.advance] at decided
      exact decided.symm
  | broken breaks =>
      have decided := there.of_lines
      rw [breaks.advance] at decided
      exact decided.symm
  | failed leaves => exact there.of_failed.symm

/-- Only the last of the lines and failed reads decides. -/
theorem Settles.exists_last {heard : List (Except LinkFault String)}
    {result : Except ExchangeError Response} (settles : Settles command heard result) :
    ∃ earlier last reading, heard = earlier ++ [last] ∧ Undecided earlier reading := by
  cases settles with
  | completed completes =>
      obtain ⟨plain, tells, goesOn, ends⟩ := completes
      exact ⟨_, _, _, by rw [List.map_append, List.map_singleton], _, rfl, .told plain tells goesOn⟩
  | broken breaks =>
      obtain ⟨plain, -, -, -⟩ := breaks
      exact ⟨_, _, _, by rw [List.map_append, List.map_singleton], _, rfl, .untold plain⟩
  | failed leaves => exact ⟨_, _, _, rfl, _, rfl, leaves⟩

theorem Undecided.of_prefix {earlier heard : List (Except LinkFault String)} {reading : Reading}
    (undecided : Undecided heard reading) (start : earlier <+: heard) :
    ∃ reading, Undecided earlier reading := by
  obtain ⟨lines, rfl, leaves⟩ := undecided
  obtain ⟨rest, whole⟩ := start
  obtain ⟨first, second, rfl, rfl, -⟩ := List.map_eq_append_iff.1 whole.symm
  obtain ⟨reading, leaves⟩ := leaves.of_prefix (List.prefix_append first second)
  exact ⟨reading, first, rfl, leaves⟩

/-- Before the one that decides nothing is decided. -/
theorem Settles.undecided_of_prefix {earlier heard : List (Except LinkFault String)}
    {result : Except ExchangeError Response} (settles : Settles command heard result)
    (start : earlier <+: heard) (shorter : earlier ≠ heard) : ∃ reading, Undecided earlier reading := by
  obtain ⟨init, last, reading, rfl, undecided⟩ := settles.exists_last
  rcases List.prefix_concat_iff.1 start with whole | start
  · exact absurd whole shorter
  · exact undecided.of_prefix start

end Exchange

end SecureElement
