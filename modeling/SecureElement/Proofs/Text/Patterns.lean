import Mathlib.Data.List.TakeWhile
import SecureElement.Text.Search

/-!
Patterns of characters, and what is found by them.

A pattern is tried at one place of a text after the other. At a place, the ways through the pattern are tried
in order: a run takes as many characters as it can at first, and then gives them back one by one
(`Pattern.run`). The first way that leads to the end counts, so what is found is at the leftmost place where
there is a way at all (`leftmost_eq_some_iff`), but need not be the longest there.

A run that is followed by something that none of its characters begins gives nothing back
(`longestFirst_of_refuses`), and a run before one that takes any character changes nothing
(`longestFirst_absorbed`).
-/

namespace SecureElement.Text

/-! ### The leftmost place -/

section

variable {β : Type} {f : List Char → Option β}

/-- The result at the leftmost place of a text that has one. -/
def leftmost (f : List Char → Option β) : List Char → Option β
  | [] => f []
  | c :: rest => (f (c :: rest)).or (leftmost f rest)

@[simp]
theorem leftmost_nil : leftmost f [] = f [] := rfl

@[simp]
theorem leftmost_cons (c : Char) (rest : List Char) :
    leftmost f (c :: rest) = (f (c :: rest)).or (leftmost f rest) := rfl

theorem leftmost_eq_none_iff {cs : List Char} :
    leftmost f cs = none ↔ ∀ before after, cs = before ++ after → f after = none := by
  induction cs with
  | nil =>
      rw [leftmost_nil]
      constructor
      · intro none before after cut
        obtain ⟨rfl, rfl⟩ := List.append_eq_nil_iff.1 cut.symm
        exact none
      · intro none
        exact none [] [] rfl
  | cons c rest ih =>
      rw [leftmost_cons, Option.or_eq_none_iff, ih]
      constructor
      · rintro ⟨here, later⟩ before after cut
        cases before with
        | nil =>
            cases cut
            exact here
        | cons d before =>
            cases cut
            exact later before after rfl
      · intro none
        exact ⟨none [] _ rfl, fun before after cut => none (c :: before) after (by rw [cut]; rfl)⟩

/-- What there is at the leftmost place, and nothing further to the left. -/
theorem leftmost_eq_some_iff {cs : List Char} {b : β} :
    leftmost f cs = some b ↔ ∃ before after, cs = before ++ after ∧ f after = some b ∧
      ∀ shorter longer, cs = shorter ++ longer → f longer ≠ none → before.length ≤ shorter.length := by
  induction cs with
  | nil =>
      rw [leftmost_nil]
      constructor
      · intro here
        exact ⟨[], [], rfl, here, fun _ _ _ _ => Nat.zero_le _⟩
      · rintro ⟨before, after, cut, here, -⟩
        obtain ⟨rfl, rfl⟩ := List.append_eq_nil_iff.1 cut.symm
        exact here
  | cons c rest ih =>
      rw [leftmost_cons]
      cases here : f (c :: rest) with
      | some found =>
          rw [Option.some_or, Option.some.injEq]
          constructor
          · rintro rfl
            exact ⟨[], c :: rest, rfl, here, fun _ _ _ _ => Nat.zero_le _⟩
          · rintro ⟨before, after, cut, there, least⟩
            have start := least [] (c :: rest) rfl (by rw [here]; exact Option.some_ne_none _)
            obtain rfl := List.eq_nil_of_length_eq_zero (Nat.le_zero.1 start)
            cases cut
            exact Option.some.inj (here.symm.trans there)
      | none =>
          rw [Option.none_or, ih]
          constructor
          · rintro ⟨before, after, rfl, there, least⟩
            refine ⟨c :: before, after, rfl, there, fun shorter longer cut some => ?_⟩
            cases shorter with
            | nil =>
                cases cut
                exact absurd here some
            | cons d shorter => exact Nat.succ_le_succ (least shorter longer (List.cons.inj cut).2 some)
          · rintro ⟨before, after, cut, there, least⟩
            cases before with
            | nil =>
                cases cut
                rw [here] at there
                cases there
            | cons d before =>
                cases cut
                refine ⟨before, after, rfl, there, fun shorter longer cut some => ?_⟩
                exact Nat.le_of_succ_le_succ (least (c :: shorter) longer (by rw [cut]; rfl) some)

/-- If `f` finds at each place what stands there, then what there is at the leftmost place is what stands there
and further to the left nowhere. -/
theorem leftmost_eq_some_iff_of {stands : List Char → β → Prop}
    (finds : ∀ {rest : List Char} {b : β}, f rest = some b ↔ stands rest b) {cs : List Char} {b : β} :
    leftmost f cs = some b ↔ ∃ before after, cs = before ++ after ∧ stands after b ∧
      ∀ before' after' b', cs = before' ++ after' → stands after' b' → before.length ≤ before'.length := by
  rw [leftmost_eq_some_iff]
  refine exists_congr fun before => exists_congr fun after => and_congr_right fun _ => and_congr finds ?_
  constructor
  · intro least before' after' b' cut there
    exact least before' after' cut (by rw [finds.2 there]; exact Option.some_ne_none _)
  · intro least shorter longer cut some
    obtain ⟨b', found⟩ := Option.ne_none_iff_exists'.1 some
    exact least shorter longer b' cut (finds.1 found)

theorem map_leftmost {γ : Type} (g : β → γ) (cs : List Char) :
    (leftmost f cs).map g = leftmost (fun rest => (f rest).map g) cs := by
  induction cs with
  | nil => rfl
  | cons c rest ih =>
      rw [leftmost_cons, leftmost_cons, ← ih]
      cases f (c :: rest) <;> rfl

end

/-! ### Runs -/

section

variable {α : Type} {among : Char → Bool} {go : List Char → Option α}

/-- What comes after a run of characters of a class, if the longest run is tried first and the empty one
last. -/
def longestFirst (among : Char → Bool) (go : List Char → Option α) : List Char → Option α
  | [] => go []
  | c :: rest => if among c then (longestFirst among go rest).or (go (c :: rest)) else go (c :: rest)

@[simp]
theorem longestFirst_nil : longestFirst among go [] = go [] := rfl

@[simp]
theorem longestFirst_cons (c : Char) (rest : List Char) :
    longestFirst among go (c :: rest) =
      if among c then (longestFirst among go rest).or (go (c :: rest)) else go (c :: rest) := rfl

/-- The longest run counts if it leads to a result. -/
theorem longestFirst_of_some {cs : List Char} {a : α} (found : go (cs.dropWhile among) = some a) :
    longestFirst among go cs = some a := by
  induction cs with
  | nil => exact found
  | cons c rest ih =>
      rw [longestFirst_cons]
      rw [List.dropWhile_cons] at found
      split
      case isTrue member =>
        rw [if_pos member] at found
        rw [ih found, Option.some_or]
      case isFalse other =>
        rw [if_neg other] at found
        exact found

/-- Nothing is given back to what none of the characters of the run begins. -/
theorem longestFirst_of_refuses (refuses : ∀ c rest, among c = true → go (c :: rest) = none)
    (cs : List Char) : longestFirst among go cs = go (cs.dropWhile among) := by
  induction cs with
  | nil => rfl
  | cons c rest ih =>
      rw [longestFirst_cons, List.dropWhile_cons]
      split
      case isTrue member => rw [ih, refuses c rest member, Option.or_none]
      case isFalse => rfl

/-- A run before one that takes any character changes nothing. -/
theorem longestFirst_absorbed (cs : List Char) :
    longestFirst among (longestFirst (fun _ => true) go) cs = longestFirst (fun _ => true) go cs := by
  induction cs with
  | nil => rfl
  | cons c rest ih =>
      rw [longestFirst_cons]
      split
      case isTrue =>
        rw [ih, longestFirst_cons, if_pos rfl]
        cases longestFirst (fun _ => true) go rest <;> rfl
      case isFalse => rfl

theorem longestFirst_any_eq_none_iff {cs : List Char} :
    longestFirst (fun _ => true) go cs = none ↔ ∀ front back, cs = front ++ back → go back = none := by
  rw [← leftmost_eq_none_iff]
  induction cs with
  | nil => rfl
  | cons c rest ih =>
      rw [longestFirst_cons, if_pos rfl, leftmost_cons, Option.or_eq_none_iff, Option.or_eq_none_iff, ih, and_comm]

/-- After a run of any characters the last place counts that leads to a result. -/
theorem longestFirst_any_eq_some_iff {cs : List Char} {a : α} :
    longestFirst (fun _ => true) go cs = some a ↔ ∃ front back, cs = front ++ back ∧ go back = some a ∧
      ∀ longer shorter, cs = longer ++ shorter → go shorter ≠ none → longer.length ≤ front.length := by
  induction cs generalizing a with
  | nil =>
      rw [longestFirst_nil]
      constructor
      · intro here
        refine ⟨[], [], rfl, here, fun longer shorter cut _ => ?_⟩
        rw [(List.append_eq_nil_iff.1 cut.symm).1]
      · rintro ⟨front, back, cut, here, -⟩
        obtain ⟨rfl, rfl⟩ := List.append_eq_nil_iff.1 cut.symm
        exact here
  | cons c rest ih =>
      rw [longestFirst_cons, if_pos rfl]
      cases later : longestFirst (fun _ => true) go rest with
      | some found =>
          rw [Option.some_or, ← later, ih]
          constructor
          · rintro ⟨front, back, rfl, there, last⟩
            refine ⟨c :: front, back, rfl, there, fun longer shorter cut some => ?_⟩
            cases longer with
            | nil => exact Nat.zero_le _
            | cons d longer => exact Nat.succ_le_succ (last longer shorter (List.cons.inj cut).2 some)
          · rintro ⟨front, back, cut, there, last⟩
            obtain ⟨front', back', rest_cut, found', -⟩ := ih.1 later
            have ends := last (c :: front') back' (by rw [rest_cut]; rfl)
              (by rw [found']; exact Option.some_ne_none _)
            cases front with
            | nil => cases ends
            | cons d front =>
                cases cut
                refine ⟨front, back, rfl, there, fun longer shorter cut some => ?_⟩
                exact Nat.le_of_succ_le_succ (last (c :: longer) shorter (by rw [cut]; rfl) some)
      | none =>
          rw [Option.none_or]
          have nowhere := longestFirst_any_eq_none_iff.1 later
          constructor
          · intro here
            refine ⟨[], c :: rest, rfl, here, fun longer shorter cut some => ?_⟩
            cases longer with
            | nil => exact Nat.le_refl _
            | cons d longer =>
                cases cut
                exact absurd (nowhere longer shorter rfl) some
          · rintro ⟨front, back, cut, there, -⟩
            cases front with
            | nil =>
                cases cut
                exact there
            | cons d front =>
                cases cut
                rw [nowhere front back rfl] at there
                cases there

end

/-! ### Patterns -/

/-- A pattern of characters. -/
inductive Pattern where
  /-- No character at all. -/
  | empty
  /-- One character of a class. -/
  | one (among : Char → Bool)
  /-- Any number of characters of a class, as many as there are at first. -/
  | many (among : Char → Bool)
  /-- One pattern after another. -/
  | next (first second : Pattern)

namespace Pattern

/-- At least one character of a class, as many as there are at first. -/
def oneOrMore (among : Char → Bool) : Pattern := next (one among) (many among)

/-- A text as it stands. -/
def word : List Char → Pattern
  | [] => empty
  | c :: rest => next (one (· == c)) (word rest)

/-- A pattern a number of times, one after another. -/
def times : (count : Nat) → Pattern → Pattern
  | 0, _ => empty
  | count + 1, p => next p (times count p)

variable {α : Type}

/-- The first way through a pattern after which `go` leads to a result. -/
def run : Pattern → (go : List Char → Option α) → List Char → Option α
  | empty, go, cs => go cs
  | one _, _, [] => none
  | one among, go, c :: rest => if among c then go rest else none
  | many among, go, cs => longestFirst among go cs
  | next first second, go, cs => first.run (second.run go) cs

/-- The part of a text before the rest of it. -/
def matched (text rest : List Char) : List Char := text.take (text.length - rest.length)

/-- What a group matches that comes after a lead, both at the start of a text. -/
def capture (lead group : Pattern) : List Char → Option (List Char) :=
  lead.run fun start => group.run (fun rest => some (matched start rest)) start

/-- What a group matches that comes after a lead, at the leftmost place of a text with both. -/
def find? (lead group : Pattern) : List Char → Option (List Char) :=
  leftmost (capture lead group)

theorem matched_of_append {text front rest : List Char} (cut : text = front ++ rest) :
    matched text rest = front := by
  rw [matched, cut, List.length_append, Nat.add_sub_cancel]
  exact List.take_left' rfl

theorem run_word (chars : List Char) (go : List Char → Option α) (cs : List Char) :
    (word chars).run go cs = (withoutStart chars cs).bind go := by
  induction chars generalizing cs with
  | nil => rfl
  | cons c chars ih =>
      cases cs with
      | nil => rfl
      | cons d cs =>
          rw [word, run, run, ih]
          by_cases same : d = c
          · subst same
            simp [withoutStart]
          · simp [withoutStart, same, Ne.symm same]

theorem run_oneOrMore {among : Char → Bool} {go : List Char → Option α}
    (refuses : ∀ c rest, among c = true → go (c :: rest) = none) (c : Char) (rest : List Char) :
    (oneOrMore among).run go (c :: rest) = if among c then go (rest.dropWhile among) else none := by
  rw [oneOrMore, run, run]
  simp only [run, longestFirst_of_refuses refuses]

end Pattern

end SecureElement.Text
