import Mathlib.Data.Option.Basic
import SecureElement.Pem
import SecureElement.Proofs.Octets.Trim

/-!
The parts of a textual encoding: its boundaries, its lines and the ends of its lines.

Each lemma takes one step of `Pem.decode` apart: what it found is a stretch of the text, and what it
left is the rest.
-/

namespace SecureElement

namespace Text

variable {α : Type} [BEq α] [LawfulBEq α]

theorem withoutStart_eq_some_iff {start xs rest : List α} :
    withoutStart start xs = some rest ↔ xs = start ++ rest := by
  unfold withoutStart
  constructor
  · intro found
    split at found
    · next h =>
        obtain ⟨tail, rfl⟩ := List.isPrefixOf_iff_prefix.1 h
        simpa using found
    · cases found
  · rintro rfl
    rw [if_pos (List.isPrefixOf_iff_prefix.2 (List.prefix_append _ _)), List.drop_left]

theorem withoutEnd_eq_some_iff {ending xs front : List α} :
    withoutEnd ending xs = some front ↔ xs = front ++ ending := by
  unfold withoutEnd
  constructor
  · intro found
    split at found
    · next h =>
        obtain ⟨head, rfl⟩ := List.isSuffixOf_iff_suffix.1 h
        simpa using found
    · cases found
  · rintro rfl
    rw [if_pos (List.isSuffixOf_iff_suffix.2 (List.suffix_append _ _))]
    simp

end Text

namespace Pem

open Text

/-! ### Line ends -/

/-- The ends of a line. -/
def IsLineEnd (octets : Octets) : Prop :=
  octets = [0x0A] ∨ octets = [0x0D] ∨ octets = [0x0D, 0x0A]

theorem exists_of_afterLineEnd {text rest : Octets} (found : afterLineEnd text = some rest) :
    ∃ ending, IsLineEnd ending ∧ text = ending ++ rest := by
  unfold afterLineEnd at found
  split at found
  · cases found
    exact ⟨[0x0A], .inl rfl, rfl⟩
  · cases found
    exact ⟨[0x0D, 0x0A], .inr (.inr rfl), rfl⟩
  · cases found
    exact ⟨[0x0D], .inr (.inl rfl), rfl⟩
  · cases found

theorem exists_of_beforeLineEnd {text front : Octets} (found : beforeLineEnd text = some front) :
    ∃ ending, IsLineEnd ending ∧ text = front ++ ending := by
  unfold beforeLineEnd at found
  split at found
  · next rest turned =>
      cases found
      exact ⟨[0x0D, 0x0A], .inr (.inr rfl), by rw [← List.reverse_reverse text, turned]; simp⟩
  · next rest turned =>
      cases found
      exact ⟨[0x0A], .inl rfl, by rw [← List.reverse_reverse text, turned]; simp⟩
  · next rest turned =>
      cases found
      exact ⟨[0x0D], .inr (.inl rfl), by rw [← List.reverse_reverse text, turned]; simp⟩
  · cases found

theorem IsLineEnd.blank {ending : Octets} (lineEnd : IsLineEnd ending) :
    ∀ b ∈ ending, Octets.isAsciiBlank b = true := by
  rcases lineEnd with rfl | rfl | rfl <;> decide +kernel

/-- After a dash at the end there is no line end to take away. -/
theorem beforeLineEnd_of_dash (front : Octets) : beforeLineEnd (front ++ [0x2D]) = none := by
  simp [beforeLineEnd]

/-- A line end that something follows is the same without what comes last. -/
theorem afterLineEnd_dropEnd {front last rest : Octets} (some : rest ≠ [])
    (found : afterLineEnd (front ++ last) = .some (rest ++ last)) : afterLineEnd front = .some rest := by
  obtain ⟨ending, lineEnd, cut⟩ := exists_of_afterLineEnd found
  rw [← List.append_assoc] at cut
  obtain rfl := List.append_cancel_right cut
  cases rest with
  | nil => exact absurd rfl some
  | cons b rest =>
      rcases lineEnd with rfl | rfl | rfl
      · rfl
      · by_cases feed : b = 0x0A
        · subst feed
          simp only [List.cons_append, List.nil_append, afterLineEnd, Option.some.injEq] at found
          have := congrArg List.length found
          simp at this
        · simp [afterLineEnd, feed]
      · rfl

/-! ### The boundaries -/

theorem head?_beginMark_append (rest : Octets) : (beginMark ++ rest).head? = some 0x2D := rfl

/-- The first boundary stands at the start of a line. -/
theorem exists_of_afterBeginMark {atLineStart : Bool} {text after : Octets}
    (found : afterBeginMark atLineStart text = some after) :
    ∃ before, text = before ++ beginMark ++ after ∧
      (before = [] ∧ atLineStart = true ∨ before.getLast? = some 0x0A) := by
  induction text generalizing atLineStart with
  | nil => cases found
  | cons b rest ih =>
      unfold afterBeginMark at found
      split at found
      · next label here =>
          cases found
          split at here
          · next start => exact ⟨[], withoutStart_eq_some_iff.1 here, .inl ⟨rfl, start⟩⟩
          · cases here
      · split at found
        · cases found
        · obtain ⟨before, rfl, place⟩ := ih found
          refine ⟨b :: before, rfl, .inr ?_⟩
          rcases place with ⟨rfl, feed⟩ | last
          · simpa using feed
          · rw [List.getLast?_cons, last, Option.getD_some]

theorem afterBeginMark_dropEnd {atLineStart : Bool} {front last after : Octets}
    (found : afterBeginMark atLineStart (front ++ last) = some (after ++ last)) :
    afterBeginMark atLineStart front = some after := by
  induction front generalizing atLineStart with
  | nil =>
      obtain ⟨before, cut, -⟩ := exists_of_afterBeginMark found
      have := congrArg List.length cut
      simp [beginMark, Octets.ofAscii] at this
      omega
  | cons b rest ih =>
      unfold afterBeginMark
      rw [List.cons_append, afterBeginMark] at found
      split at found
      · next label here =>
          cases found
          split at here
          · next start =>
              have cut := withoutStart_eq_some_iff.1 here
              rw [← List.append_assoc, ← List.cons_append] at cut
              rw [if_pos start, withoutStart_eq_some_iff.2 (List.append_cancel_right cut)]
          · cases here
      · next nowhere =>
          have still : (if atLineStart = true then withoutStart beginMark (b :: rest) else none) =
              none := by
            split
            · next start =>
                cases here : withoutStart beginMark (b :: rest) with
                | none => rfl
                | some label =>
                    rw [if_pos start, ← List.cons_append, withoutStart_eq_some_iff.1 here,
                      List.append_assoc, withoutStart_eq_some_iff.2 rfl] at nowhere
                    cases nowhere
            · rfl
          rw [still]
          split at found
          · cases found
          · next other =>
              simp only [other, if_false]
              exact ih found

theorem splitLabel_eq_some_iff {text label body : Octets} :
    splitLabel text = some (label, body) ↔
      (∀ b ∈ label, b ≠ 0x2D) ∧ isLabel false label = true ∧
        ∃ rest, text = label ++ dashes ++ rest ∧ afterLineEnd rest = some body := by
  constructor
  · intro found
    simp only [splitLabel, Option.bind_eq_bind, Option.bind_eq_some_iff, Option.guard_eq_some',
      Option.some.injEq, Prod.mk.injEq] at found
    obtain ⟨-, valid, rest, boundary, body', after, rfl, rfl⟩ := found
    refine ⟨fun b member => by simpa using List.mem_takeWhile_imp member, valid, rest, ?_, after⟩
    have cut := withoutStart_eq_some_iff.1 boundary
    rw [List.append_assoc, ← cut]
    exact (List.prefix_iff_eq_append.1 (List.takeWhile_prefix _)).symm
  · rintro ⟨free, valid, rest, rfl, after⟩
    have label_eq : (label ++ dashes ++ rest).takeWhile (· != 0x2D) = label := by
      rw [List.append_assoc, List.takeWhile_append_of_pos (by simpa using free)]
      simp [dashes, Octets.ofAscii]
    simp only [splitLabel, Option.bind_eq_bind, Option.bind_eq_some_iff, Option.guard_eq_some',
      Option.some.injEq, Prod.mk.injEq, label_eq]
    refine ⟨(), valid, rest, ?_, body, after, trivial, rfl⟩
    rw [List.append_assoc, List.drop_left, withoutStart_eq_some_iff]

/-- The label, and what follows its line, do not depend on what comes last. -/
theorem splitLabel_dropEnd {front last label body : Octets} (some : body ≠ [])
    (found : splitLabel (front ++ last) = .some (label, body ++ last)) :
    splitLabel front = .some (label, body) := by
  obtain ⟨free, valid, rest, cut, after⟩ := splitLabel_eq_some_iff.1 found
  obtain ⟨ending, lineEnd, rfl⟩ := exists_of_afterLineEnd after
  rw [← List.append_assoc] at after
  rw [← List.append_assoc, ← List.append_assoc] at cut
  obtain rfl := List.append_cancel_right cut
  exact splitLabel_eq_some_iff.2
    ⟨free, valid, ending ++ body, by simp, afterLineEnd_dropEnd some after⟩

/-- Before the last boundary a line ends, and after it one more may end. -/
theorem exists_of_beforeEndMark {label text inner : Octets}
    (found : beforeEndMark label text = some inner) :
    ∃ closing last, IsLineEnd closing ∧ (last = [] ∨ IsLineEnd last) ∧
      text = inner ++ closing ++ endMark ++ label ++ dashes ++ last ∧
      beforeEndMark label (inner ++ closing ++ endMark ++ label ++ dashes) = some inner := by
  simp only [beforeEndMark, Option.bind_eq_bind, Option.bind_eq_some_iff] at found
  obtain ⟨marked, undashed, labelled, unlabelled, ended, unmarked, closed⟩ := found
  obtain ⟨closing, lineEnd, rfl⟩ := exists_of_beforeLineEnd closed
  obtain rfl := withoutEnd_eq_some_iff.1 unmarked
  obtain rfl := withoutEnd_eq_some_iff.1 unlabelled
  have cut := withoutEnd_eq_some_iff.1 undashed
  -- Nothing ends a line after a dash.
  have whole : beforeLineEnd (inner ++ closing ++ endMark ++ label ++ dashes) = none := by
    have split : inner ++ closing ++ endMark ++ label ++ dashes =
        (inner ++ closing ++ endMark ++ label ++ [0x2D, 0x2D, 0x2D, 0x2D]) ++ [0x2D] := by
      simp [dashes, Octets.ofAscii]
    rw [split, beforeLineEnd_of_dash]
  have again : beforeEndMark label (inner ++ closing ++ endMark ++ label ++ dashes) = some inner := by
    simp only [beforeEndMark, whole, Option.getD_none, Option.bind_eq_bind, Option.bind_eq_some_iff]
    exact ⟨_, withoutEnd_eq_some_iff.2 rfl, _, withoutEnd_eq_some_iff.2 rfl, _,
      withoutEnd_eq_some_iff.2 rfl, closed⟩
  cases last : beforeLineEnd text with
  | none =>
      rw [last, Option.getD_none] at cut
      exact ⟨closing, [], lineEnd, .inl rfl, by simpa using cut, again⟩
  | some front =>
      rw [last, Option.getD_some] at cut
      obtain ⟨ending, lineEnd', rfl⟩ := exists_of_beforeLineEnd last
      exact ⟨closing, ending, lineEnd, .inr lineEnd', by rw [cut], again⟩

theorem lineFree_of_isLabel {blankAllowed : Bool} {label : Octets}
    (valid : isLabel blankAllowed label = true) : ∀ b ∈ label, b ≠ 0x0A := by
  induction label generalizing blankAllowed with
  | nil => simp
  | cons c rest ih =>
      rintro b member rfl
      unfold isLabel at valid
      split at valid
      · next printable =>
          rcases List.mem_cons.1 member with rfl | later
          · cases printable
          · exact ih valid _ later rfl
      · simp only [Bool.and_eq_true] at valid
        rcases List.mem_cons.1 member with rfl | later
        · simp at valid
        · exact ih valid.2 _ later rfl

/-- A long body is a full line and what follows its end. -/
theorem lines_of_long {body : Octets} (long : ¬ body.length ≤ lineWidth) :
    lines body = (afterLineEnd (body.drop lineWidth)).bind fun rest =>
      if rest = [] then some [body.take lineWidth]
      else (lines rest).map (body.take lineWidth :: ·) := by
  rw [lines, if_neg long]
  split
  · next unended => simp only [unended, Option.bind_none]
  · next rest found => simp only [found, Option.bind_some]

/-! ### Documents -/

theorem decode_eq_some_iff {text : Octets} {document : Document} :
    decode text = some document ↔
      ∃ after body inner rows, afterBeginMark true text = some after ∧
        splitLabel after = some (document.label, body) ∧
        beforeEndMark document.label body = some inner ∧ lines inner = some rows ∧
        spelled rows = some document.content := by
  obtain ⟨label, content⟩ := document
  simp only [decode, Option.bind_eq_bind, Option.bind_eq_some_iff, Prod.exists, Option.some.injEq,
    Document.mk.injEq]
  constructor
  · rintro ⟨after, marked, label, body, split, inner, cut, rows, lined, content, spelled, rfl, rfl⟩
    exact ⟨after, body, inner, rows, marked, split, cut, lined, spelled⟩
  · rintro ⟨after, body, inner, rows, marked, split, cut, lined, spelled⟩
    exact ⟨after, marked, label, body, split, inner, cut, rows, lined, content, spelled, rfl, rfl⟩

end Pem

end SecureElement
