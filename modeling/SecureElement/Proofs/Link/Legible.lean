import SecureElement.Link.Response
import SecureElement.Proofs.Octets.Utf8

/-!
Responses in pieces.

A response is taken in piece by piece; pieces that are no text are passed over. The outcome is a
response exactly if one piece holds the mark of its status, and a later one the end mark, with the body
in between (`listen_eq_finished_iff`).
-/

namespace SecureElement

open Text

/-! ### Marks -/

theorem Text.occursIn_iff {α : Type} [BEq α] [LawfulBEq α] {needle xs : List α} :
    occursIn needle xs = true ↔ needle <:+: xs := by
  induction xs with
  | nil => simp [occursIn]
  | cons x xs ih =>
      rw [occursIn, Bool.or_eq_true, List.isPrefixOf_iff_prefix, ih, List.infix_cons_iff]

/-- Whether a piece is a text that contains a mark. -/
def shows (mark : String) (piece : Octets) : Bool :=
  match Utf8.decode piece with
  | some text => contains text mark
  | none => false

theorem shows_eq_true_iff {mark : String} {piece : Octets} :
    shows mark piece = true ↔
      ∃ text, Utf8.decode piece = some text ∧ mark.toList <:+: text.toList := by
  unfold shows
  cases Utf8.decode piece with
  | none => simp
  | some text => simp [contains, occursIn_iff]

/-- What shows a mark shows it as part of something longer. -/
theorem shows_of_within {mark : String} {piece line : Octets} (inside : piece <:+: line)
    (readable : ∃ text, Utf8.decode line = some text) (shown : shows mark piece = true) :
    shows mark line = true := by
  obtain ⟨part, decoded, marked⟩ := shows_eq_true_iff.1 shown
  obtain ⟨text, whole⟩ := readable
  exact shows_eq_true_iff.2 ⟨text, whole, marked.trans (Utf8.decode_within inside decoded whole)⟩

/-- A piece that is shorter than a mark does not show it. -/
theorem shows_eq_false_of_length_lt {mark : String} {piece : Octets}
    (short : piece.length < mark.toList.length) : shows mark piece = false := by
  rw [← Bool.not_eq_true, shows_eq_true_iff]
  rintro ⟨text, decoded, marked⟩
  have upper := Utf8.length_le_of_decode decoded
  have lower := marked.length_le
  omega

/-- A piece shows one of the marks. -/
def Marked (piece : Octets) : Prop :=
  shows successMark piece = true ∨ shows failureMark piece = true ∨ shows endMark piece = true

theorem Marked.of_within {piece line : Octets} (marked : Marked piece) (inside : piece <:+: line)
    (readable : ∃ text, Utf8.decode line = some text) : Marked line := by
  rcases marked with success | failure | ended
  · exact .inl (shows_of_within inside readable success)
  · exact .inr (.inl (shows_of_within inside readable failure))
  · exact .inr (.inr (shows_of_within inside readable ended))

/-- Marks are longer than one octet. -/
theorem not_marked_of_length_le_one {piece : Octets} (short : piece.length ≤ 1) :
    ¬ Marked piece := by
  have success : 1 < successMark.toList.length := by decide
  have failure : 1 < failureMark.toList.length := by decide
  have ended : 1 < endMark.toList.length := by decide
  simp [Marked, shows_eq_false_of_length_lt (Nat.lt_of_le_of_lt short success),
    shows_eq_false_of_length_lt (Nat.lt_of_le_of_lt short failure),
    shows_eq_false_of_length_lt (Nat.lt_of_le_of_lt short ended)]

theorem Marked.ne_nil {piece : Octets} (marked : Marked piece) : piece ≠ [] := by
  rintro rfl
  exact not_marked_of_length_le_one (by simp) marked

/-- The status that a piece tells: success if it shows that mark, whatever else it shows. -/
def Tells (piece : Octets) (success : Bool) : Prop :=
  shows successMark piece = success ∧ (success = false → shows failureMark piece = true)

theorem Tells.marked {piece : Octets} {success : Bool} (tells : Tells piece success) :
    Marked piece := by
  cases success with
  | true => exact .inl tells.1
  | false => exact .inr (.inl (tells.2 rfl))

theorem Tells.unique {piece : Octets} {success success' : Bool} (tells : Tells piece success)
    (tells' : Tells piece success') : success = success' :=
  tells.1.symm.trans tells'.1

/-- How pieces make a body: it is what is readable up to the first one with the end mark. -/
def Closes (pieces : List Octets) (body : String) : Prop :=
  ∃ between last after, pieces = between ++ last :: after ∧
    (∀ piece ∈ between, shows endMark piece = false) ∧
    Utf8.texts between = body ∧ shows endMark last = true

/-- How pieces make a response. The first one that shows a mark tells the status, and the body follows
it. -/
def Legible (pieces : List Octets) (response : Response) : Prop :=
  ∃ before status rest, pieces = before ++ status :: rest ∧
    (∀ piece ∈ before, ¬ Marked piece) ∧ Tells status response.success ∧ Closes rest response.body

theorem closes_cons_of_shows {piece : Octets} {pieces : List Octets} {body : String}
    (shown : shows endMark piece = true) : Closes (piece :: pieces) body ↔ body = "" := by
  constructor
  · rintro ⟨between, last, after, cut, hidden, rfl, -⟩
    cases between with
    | nil => rfl
    | cons other between =>
        cases cut
        have concealed := hidden piece (by simp)
        rw [shown] at concealed
        cases concealed
  · rintro rfl
    exact ⟨[], piece, pieces, rfl, by simp, rfl, shown⟩

theorem closes_cons_of_not_shows {piece : Octets} {pieces : List Octets} {body : String}
    (hidden : shows endMark piece = false) :
    Closes (piece :: pieces) body ↔
      ∃ later, body = Utf8.texts [piece] ++ later ∧ Closes pieces later := by
  constructor
  · rintro ⟨between, last, after, cut, each, rfl, ends⟩
    cases between with
    | nil =>
        cases cut
        rw [hidden] at ends
        cases ends
    | cons other between =>
        cases cut
        exact ⟨Utf8.texts between, Utf8.texts_cons piece between, between, last, after, rfl,
          fun x member => each x (by simp [member]), rfl, ends⟩
  · rintro ⟨later, rfl, between, last, after, rfl, each, rfl, ends⟩
    refine ⟨piece :: between, last, after, rfl, ?_, Utf8.texts_cons piece between, ends⟩
    intro other member
    rcases List.mem_cons.1 member with rfl | member
    · exact hidden
    · exact each other member

theorem legible_cons_of_not_marked {piece : Octets} {pieces : List Octets} {response : Response}
    (unmarked : ¬ Marked piece) : Legible (piece :: pieces) response ↔ Legible pieces response := by
  constructor
  · rintro ⟨before, status, rest, cut, quiet, tells, closes⟩
    cases before with
    | nil =>
        cases cut
        exact absurd tells.marked unmarked
    | cons other before =>
        cases cut
        exact ⟨before, status, rest, rfl, fun x member => quiet x (by simp [member]), tells, closes⟩
  · rintro ⟨before, status, rest, rfl, quiet, tells, closes⟩
    refine ⟨piece :: before, status, rest, rfl, ?_, tells, closes⟩
    intro other member
    rcases List.mem_cons.1 member with rfl | member
    · exact unmarked
    · exact quiet other member

/-- If the first piece shows a mark, it is the one that tells the status. -/
theorem legible_cons_of_marked {piece : Octets} {pieces : List Octets} {response : Response}
    (marked : Marked piece) :
    Legible (piece :: pieces) response ↔
      Tells piece response.success ∧ Closes pieces response.body := by
  constructor
  · rintro ⟨before, status, rest, cut, quiet, tells, closes⟩
    cases before with
    | nil =>
        cases cut
        exact ⟨tells, closes⟩
    | cons other before =>
        cases cut
        exact absurd marked (quiet piece (by simp))
  · rintro ⟨tells, closes⟩
    exact ⟨[], piece, pieces, rfl, by simp, tells, closes⟩

/-- What comes after a response does not matter. -/
theorem Legible.append {pieces : List Octets} {response : Response}
    (legible : Legible pieces response) (more : List Octets) : Legible (pieces ++ more) response := by
  obtain ⟨before, status, _, rfl, quiet, tells, between, last, after, rfl, closes⟩ := legible
  exact ⟨before, status, between ++ last :: (after ++ more), by simp, quiet, tells,
    between, last, after ++ more, rfl, closes⟩

namespace Reading

/-- What a piece does to a response: it is taken as a line, unless it is no text. -/
def hear (reading : Reading) (piece : Octets) : Progress :=
  match Utf8.decode piece with
  | none => .more reading
  | some line => reading.feed line

/-- What one piece after another does to a response. -/
def listen : Reading → List Octets → Progress
  | reading, [] => .more reading
  | reading, piece :: pieces =>
      match reading.hear piece with
      | .more reading => listen reading pieces
      | progress => progress

theorem hear_nil (reading : Reading) : reading.hear [] = .more reading := by
  cases reading with
  | awaitingStatus => rfl
  | awaitingEnd success body =>
      have unmarked : contains "" endMark = false := by decide
      simp [hear, feed, unmarked]

/-! ### The end of a response -/

theorem hear_awaitingEnd_of_shows {success : Bool} {body : String} {piece : Octets}
    (shown : shows endMark piece = true) :
    (awaitingEnd success body).hear piece = .finished ⟨success, body⟩ := by
  unfold shows at shown
  unfold hear
  cases decoded : Utf8.decode piece with
  | none =>
      rw [decoded] at shown
      cases shown
  | some text =>
      rw [decoded] at shown
      simp only at shown
      simp [feed, shown]

theorem hear_awaitingEnd_of_not_shows {success : Bool} {body : String} {piece : Octets}
    (hidden : shows endMark piece = false) :
    (awaitingEnd success body).hear piece =
      .more (awaitingEnd success (body ++ Utf8.texts [piece])) := by
  unfold shows at hidden
  unfold hear
  cases decoded : Utf8.decode piece with
  | none => simp [Utf8.texts_cons_of_none decoded]
  | some text =>
      rw [decoded] at hidden
      simp only at hidden
      simp [feed, hidden, Utf8.texts_cons_of_some decoded]

theorem listen_awaitingEnd_eq_finished_iff {success : Bool} {body : String} {pieces : List Octets}
    {response : Response} :
    (awaitingEnd success body).listen pieces = .finished response ↔
      ∃ later, Closes pieces later ∧ response = ⟨success, body ++ later⟩ := by
  induction pieces generalizing body with
  | nil => simp [listen, Closes]
  | cons piece pieces ih =>
      rw [listen]
      cases shown : shows endMark piece with
      | true =>
          rw [hear_awaitingEnd_of_shows shown]
          simp only [closes_cons_of_shows shown, exists_eq_left, String.append_empty]
          constructor
          · rintro ⟨⟩
            rfl
          · rintro rfl
            rfl
      | false =>
          rw [hear_awaitingEnd_of_not_shows shown]
          simp only [closes_cons_of_not_shows shown, ih]
          constructor
          · rintro ⟨later, closes, rfl⟩
            exact ⟨_, ⟨later, rfl, closes⟩, by rw [String.append_assoc]⟩
          · rintro ⟨_, ⟨later, rfl, closes⟩, rfl⟩
            exact ⟨later, closes, by rw [String.append_assoc]⟩

/-! ### The status -/

theorem hear_awaitingStatus_of_tells {piece : Octets} {success : Bool} (tells : Tells piece success) :
    awaitingStatus.hear piece = .more (awaitingEnd success "") := by
  obtain ⟨first, second⟩ := tells
  unfold shows at first second
  unfold hear
  cases decoded : Utf8.decode piece with
  | none =>
      rw [decoded] at first second
      cases success with
      | true => cases first
      | false => cases second rfl
  | some text =>
      rw [decoded] at first second
      cases success with
      | true => simp [feed, first]
      | false => simp [feed, first, second rfl]

theorem hear_awaitingStatus_of_not_marked {piece : Octets} (unmarked : ¬ Marked piece) :
    awaitingStatus.hear piece = .more awaitingStatus := by
  simp only [Marked, not_or, Bool.not_eq_true, shows] at unmarked
  unfold hear
  cases decoded : Utf8.decode piece with
  | none => rfl
  | some text =>
      rw [decoded] at unmarked
      simp [feed, unmarked]

theorem hear_awaitingStatus_of_ended {piece : Octets} (ended : shows endMark piece = true)
    (untold : ∀ success, ¬ Tells piece success) : awaitingStatus.hear piece = .missingStatus := by
  have first : shows successMark piece = false := by
    cases shown : shows successMark piece with
    | false => rfl
    | true => exact absurd ⟨shown, by simp⟩ (untold true)
  have second : shows failureMark piece = false := by
    cases shown : shows failureMark piece with
    | false => rfl
    | true => exact absurd ⟨first, fun _ => shown⟩ (untold false)
  unfold shows at ended first second
  unfold hear
  cases decoded : Utf8.decode piece with
  | none =>
      rw [decoded] at ended
      cases ended
  | some text =>
      rw [decoded] at ended first second
      simp only at ended first second
      simp [feed, ended, first, second]

/-! ### Whole responses -/

/-- Pieces are taken as a response exactly if they make it. -/
theorem listen_eq_finished_iff {pieces : List Octets} {response : Response} :
    awaitingStatus.listen pieces = .finished response ↔ Legible pieces response := by
  induction pieces with
  | nil => simp [listen, Legible]
  | cons piece pieces ih =>
      rw [listen]
      by_cases marked : Marked piece
      · rw [legible_cons_of_marked marked]
        by_cases told : ∃ success, Tells piece success
        · obtain ⟨success, tells⟩ := told
          rw [hear_awaitingStatus_of_tells tells]
          simp only [listen_awaitingEnd_eq_finished_iff]
          constructor
          · rintro ⟨later, closes, rfl⟩
            exact ⟨tells, by simpa using closes⟩
          · rintro ⟨tells', closes⟩
            obtain ⟨success', body⟩ := response
            obtain rfl : success' = success := tells'.unique tells
            exact ⟨body, closes, by simp⟩
        · have untold : ∀ success, ¬ Tells piece success := not_exists.1 told
          have ended : shows endMark piece = true := by
            rcases marked with success | failure | ended
            · exact absurd ⟨success, by simp⟩ (untold true)
            · cases first : shows successMark piece with
              | true => exact absurd ⟨first, by simp⟩ (untold true)
              | false => exact absurd ⟨first, fun _ => failure⟩ (untold false)
            · exact ended
          rw [hear_awaitingStatus_of_ended ended untold]
          constructor
          · rintro ⟨⟩
          · rintro ⟨tells, -⟩
            exact absurd tells (untold _)
      · rw [legible_cons_of_not_marked marked, hear_awaitingStatus_of_not_marked marked]
        exact ih

/-- The end of a status line that was cut becomes part of the body. -/
example :
    awaitingStatus.listen
      (["Status: Success", "\n", "body\n", "COMMAND END\n"].map Octets.ofAscii) =
        .finished ⟨true, "\nbody\n"⟩ := by
  decide

/-- Without a mark the status is awaited for ever. -/
theorem listen_of_not_marked {pieces : List Octets} (quiet : ∀ piece ∈ pieces, ¬ Marked piece) :
    awaitingStatus.listen pieces = .more awaitingStatus := by
  induction pieces with
  | nil => rfl
  | cons piece pieces ih =>
      rw [listen, hear_awaitingStatus_of_not_marked (quiet piece (by simp))]
      exact ih fun other member => quiet other (by simp [member])

end Reading

end SecureElement
