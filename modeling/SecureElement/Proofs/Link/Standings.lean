import SecureElement.Proofs.Link.Legible
import SecureElement.Proofs.Link.Lines
import SecureElement.Proofs.Lists.Cuts

/-!
How a response stands after each of its lines.

`Reads` says of a whole row of lines how the response stands after each of them: nothing is known before the
first line with a mark, that line tells the status or ends the response without one, and the first later line
with the end mark brings the response. Every row of lines is read in one way (`standings_follow_marks`).

The lines up to one that decides are taken in one part after the other (`standings_append`), so that it is
enough to know what each part brings.
-/

namespace SecureElement

namespace Reading

/-! ### The declared reading -/

/-- A mark stands somewhere in a line. -/
def Bears (line mark : String) : Prop :=
  mark.toList <:+: line.toList

/-- A line without a mark of any kind. -/
def Unmarked (line : String) : Prop :=
  ¬ Bears line successMark ∧ ¬ Bears line failureMark ∧ ¬ Bears line endMark

/-- A line with a mark of a status, which is success if it has that mark. -/
structure Tells (line : String) (success : Bool) : Prop where
  marked : Bears line successMark ∨ Bears line failureMark
  success_iff : success = true ↔ Bears line successMark

/-- How a response stands that goes on. -/
def goingOn (status : Option Bool) : Standing := ⟨status, .ok none⟩

/-- Lines, and how a response stands after each of them up to the one that decides. -/
inductive Reads : List String → List Standing → Prop where
  /-- No line has a mark. -/
  | untold {lines : List String} (unmarked : ∀ line ∈ lines, Unmarked line) :
      Reads lines (lines.map fun _ => goingOn none)
  /-- The first line with a mark ends the response and tells no status. -/
  | broken {before later : List String} {last : String} (unmarked : ∀ line ∈ before, Unmarked line)
      (ends : Bears last endMark) (unsuccessful : ¬ Bears last successMark)
      (unfailed : ¬ Bears last failureMark) :
      Reads (before ++ last :: later) (before.map (fun _ => goingOn none) ++ [⟨none, .error {}⟩])
  /-- The first line with a mark tells the status, and no later line ends the response. -/
  | told {before between : List String} {first : String} {success : Bool}
      (unmarked : ∀ line ∈ before, Unmarked line) (tells : Tells first success)
      (goesOn : ∀ line ∈ between, ¬ Bears line endMark) :
      Reads (before ++ first :: between)
        (before.map (fun _ => goingOn none) ++ (first :: between).map fun _ => goingOn (some success))
  /-- The first line with a mark tells the status. The response is whole with the first later line that has
  the end mark, and its body is what stands between these two. -/
  | completed {before between later : List String} {first last : String} {success : Bool}
      (unmarked : ∀ line ∈ before, Unmarked line) (tells : Tells first success)
      (goesOn : ∀ line ∈ between, ¬ Bears line endMark) (ends : Bears last endMark) :
      Reads (before ++ (first :: between ++ last :: later))
        (before.map (fun _ => goingOn none) ++
          ((first :: between).map (fun _ => goingOn (some success)) ++
            [⟨some success, .ok (some ⟨success, String.join between⟩)⟩]))

/-! ### Marks that are searched for -/

theorem contains_eq_true_iff {line mark : String} : Text.contains line mark = true ↔ Bears line mark :=
  Text.occursIn_iff

theorem contains_eq_false_iff {line mark : String} :
    Text.contains line mark = false ↔ ¬ Bears line mark := by
  rw [← contains_eq_true_iff, Bool.not_eq_true]

theorem plain_iff {line : String} : Plain line ↔ Unmarked line := by
  simp only [Plain, Unmarked, contains_eq_false_iff]

theorem lineTells_iff {line : String} {success : Bool} : LineTells line success ↔ Tells line success := by
  constructor
  · rintro ⟨marked, otherwise⟩
    cases success with
    | true =>
        have successful := contains_eq_true_iff.1 marked
        exact ⟨.inl successful, iff_of_true rfl successful⟩
    | false =>
        have unsuccessful := contains_eq_false_iff.1 marked
        exact ⟨.inr (contains_eq_true_iff.1 (otherwise rfl)), iff_of_false Bool.false_ne_true unsuccessful⟩
  · rintro ⟨marked, success_iff⟩
    cases success with
    | true => exact ⟨contains_eq_true_iff.2 (success_iff.1 rfl), fun no => nomatch no⟩
    | false =>
        have unsuccessful : ¬ Bears line successMark := fun bears => Bool.false_ne_true (success_iff.2 bears)
        exact ⟨contains_eq_false_iff.2 unsuccessful,
          fun _ => contains_eq_true_iff.2 (marked.resolve_left unsuccessful)⟩

/-! ### One part of the lines after another -/

variable {reading later : Reading} {line : String} {success : Bool}

@[simp] theorem status?_handedOut (reading : Reading) : reading.handedOut.status? = reading.status? := by
  cases reading <;> rfl

theorem standings_of_more (fed : reading.feed line = .more later) (lines : List String) :
    reading.standings (line :: lines) = goingOn later.status? :: later.standings lines := by
  simp only [standings, after, fed]
  rfl

/-- The line that makes a response whole is the last that is taken in. -/
theorem standings_of_finished {response : Response} (fed : reading.feed line = .finished response)
    (lines : List String) :
    reading.standings (line :: lines) = [⟨reading.status?, .ok (some response)⟩] := by
  simp only [standings, after, fed, status?_handedOut]
  rfl

/-- So is the line that ends it without a status. -/
theorem standings_of_missingStatus (fed : reading.feed line = .missingStatus) (lines : List String) :
    reading.standings (line :: lines) = [⟨reading.status?, .error {}⟩] := by
  simp only [standings, after, fed]
  rfl

/-- Lines that decide nothing are taken in before the others. -/
theorem standings_append {first : List String} (more : reading.advance first = .more later)
    (second : List String) :
    reading.standings (first ++ second) = reading.standings first ++ later.standings second := by
  induction first generalizing reading with
  | nil =>
      cases more
      rfl
  | cons line first ih =>
      obtain ⟨next, fed, more⟩ := exists_of_advance_cons more
      rw [List.cons_append, standings_of_more fed, standings_of_more fed, ih more, List.cons_append]

theorem standings_of_plain {lines : List String} (plain : ∀ line ∈ lines, Plain line) :
    awaitingStatus.standings lines = lines.map fun _ => goingOn none := by
  induction lines with
  | nil => rfl
  | cons line lines ih =>
      rw [standings_of_more (feed_of_plain (plain line (by simp))), List.map_cons]
      rw [ih fun other member => plain other (by simp [member])]
      rfl

theorem standings_of_goesOn {lines : List String} {body : String}
    (goesOn : ∀ line ∈ lines, Text.contains line endMark = false) :
    (awaitingEnd success body).standings lines = lines.map fun _ => goingOn (some success) := by
  induction lines generalizing body with
  | nil => rfl
  | cons line lines ih =>
      have fed : (awaitingEnd success body).feed line = .more (awaitingEnd success (body ++ line)) := by
        simp [feed, goesOn line (by simp)]
      rw [standings_of_more fed, ih fun other member => goesOn other (by simp [member])]
      rfl

/-- The lines up to the one before the end of the response. -/
theorem standings_of_told {before between : List String} {first : String}
    (plain : ∀ line ∈ before, Plain line) (tells : LineTells first success)
    (goesOn : ∀ line ∈ between, Text.contains line endMark = false) :
    awaitingStatus.standings (before ++ first :: between) =
      before.map (fun _ => goingOn none) ++ (first :: between).map fun _ => goingOn (some success) := by
  rw [standings_append (advance_of_plain plain), standings_of_plain plain,
    standings_of_more (feed_of_lineTells tells), standings_of_goesOn goesOn]
  rfl

/-! ### The declared reading is what is taken in -/

/-- However lines are read, so they are taken in. -/
theorem Reads.standings {lines : List String} {seen : List Standing} (reads : Reads lines seen) :
    awaitingStatus.standings lines = seen := by
  cases reads with
  | untold unmarked => exact standings_of_plain fun line member => plain_iff.2 (unmarked line member)
  | @broken before later last unmarked ends unsuccessful unfailed =>
      have plain := fun line member => plain_iff.2 (unmarked line member)
      have fed : awaitingStatus.feed last = .missingStatus := by
        simp only [feed, contains_eq_false_iff.2 unsuccessful, contains_eq_false_iff.2 unfailed,
          contains_eq_true_iff.2 ends, Bool.false_eq_true, if_false, if_true]
      rw [standings_append (advance_of_plain plain), standings_of_plain plain,
        standings_of_missingStatus fed]
      rfl
  | told unmarked tells goesOn =>
      exact standings_of_told (fun line member => plain_iff.2 (unmarked line member)) (lineTells_iff.2 tells)
        fun line member => contains_eq_false_iff.2 (goesOn line member)
  | @completed before between later first last success unmarked tells goesOn ends =>
      have plain := fun line member => plain_iff.2 (unmarked line member)
      have tells := lineTells_iff.2 tells
      have goesOn := fun line member => contains_eq_false_iff.2 (goesOn line member)
      have leaves := Leaves.told plain tells goesOn
      have fed : (awaitingEnd success (String.join between)).feed last =
          .finished ⟨success, String.join between⟩ := if_pos (contains_eq_true_iff.2 ends)
      rw [← List.append_assoc, standings_append leaves.advance, standings_of_told plain tells goesOn,
        standings_of_finished fed, List.append_assoc]
      rfl

/-- Whether a line has a mark of any kind. -/
def isMarked (line : String) : Bool :=
  Text.contains line successMark || Text.contains line failureMark || Text.contains line endMark

theorem isMarked_eq_false_iff {line : String} : isMarked line = false ↔ Unmarked line := by
  simp only [isMarked, Bool.or_eq_false_iff, contains_eq_false_iff, Unmarked, and_assoc]

theorem isMarked_eq_true_iff {line : String} :
    isMarked line = true ↔ (Bears line successMark ∨ Bears line failureMark) ∨ Bears line endMark := by
  simp only [isMarked, Bool.or_eq_true, contains_eq_true_iff]

/-- Every row of lines is read. -/
theorem exists_reads (lines : List String) : ∃ seen, Reads lines seen := by
  rcases Lists.none_or_exists_first isMarked lines with none | ⟨before, first, later, rfl, earlier, marked⟩
  · exact ⟨_, .untold fun line member => isMarked_eq_false_iff.1 (none line member)⟩
  have unmarked : ∀ line ∈ before, Unmarked line := fun line member =>
    isMarked_eq_false_iff.1 (earlier line member)
  by_cases status : Bears first successMark ∨ Bears first failureMark
  · have tells : Tells first (Text.contains first successMark) := ⟨status, contains_eq_true_iff⟩
    -- The status is told here, so only a later line can end the response.
    rcases Lists.none_or_exists_first (Text.contains · endMark) later with
      none | ⟨between, last, rest, rfl, goesOn, ends⟩
    · exact ⟨_, .told unmarked tells fun line member => contains_eq_false_iff.1 (none line member)⟩
    · exact ⟨_, .completed unmarked tells (fun line member => contains_eq_false_iff.1 (goesOn line member))
        (contains_eq_true_iff.1 ends)⟩
  · obtain ⟨unsuccessful, unfailed⟩ := not_or.1 status
    have ends := (isMarked_eq_true_iff.1 marked).resolve_left status
    exact ⟨_, .broken unmarked ends unsuccessful unfailed⟩

/-- No status is known before the first line. From then on a response stands after each line as the declared
reading says, up to the line that decides; every row of lines has one such reading and no other. -/
theorem standings_follow_marks (lines : List String) (seen : List Standing) :
    awaitingStatus.status? = none ∧ (awaitingStatus.standings lines = seen ↔ Reads lines seen) := by
  refine ⟨rfl, ?_, Reads.standings⟩
  rintro rfl
  obtain ⟨seen, reads⟩ := exists_reads lines
  rw [reads.standings]
  exact reads

/-- A line with all three marks tells success and ends nothing, and a later status belongs to the body. -/
example :
    awaitingStatus.standings ["COMMAND END Status: Failure Status: Success\n", "Status: Failure\n",
      "COMMAND END\n", "Status: Failure\n"] =
      [goingOn (some true), goingOn (some true), ⟨some true, .ok (some ⟨true, "Status: Failure\n"⟩)⟩] := by
  rfl

end Reading

end SecureElement
