import SecureElement.Proofs.Octets.Base64
import SecureElement.Proofs.Pem.Boundaries

/-!
Textual encodings and the white space around them.

White space at the end of a text that decodes is one line end, and does not matter (`decode_dropEnd`).
White space at its start matters in one case only: the first boundary is looked for at the start of a
line, so that a boundary behind blanks is passed over, but is the first one once the blanks are gone
(`Indented`). `decode_trimAscii` says that a text that decodes has the same document without the white
space around it unless it is such a text, and `decode_trimAscii_of_indented` that it has none if it is.
-/

namespace SecureElement.Pem

open Text

/-! ### White space after a document -/

/-- At most a line end follows a document, and it does not matter. -/
theorem decode_dropEnd {text : Octets} {document : Document} (found : decode text = some document) :
    ∃ front last, text = front ++ last ∧ (∀ b ∈ last, Octets.isAsciiBlank b = true) ∧
      front.getLast? = some 0x2D ∧ decode front = some document := by
  obtain ⟨after, body, inner, rows, marked, split, cut, lined, spelled⟩ := decode_eq_some_iff.1 found
  obtain ⟨before, whole, -⟩ := exists_of_afterBeginMark marked
  obtain ⟨-, -, rest, labelled, opened⟩ := splitLabel_eq_some_iff.1 split
  obtain ⟨opening, -, rfl⟩ := exists_of_afterLineEnd opened
  obtain ⟨closing, last, -, blank, rfl, again⟩ := exists_of_beforeEndMark cut
  -- The text without its last line end, and what is left of it after each boundary.
  have some : inner ++ closing ++ endMark ++ document.label ++ dashes ≠ [] := by
    simp [dashes, Octets.ofAscii]
  have after_eq : after = (document.label ++ dashes ++ opening ++
      (inner ++ closing ++ endMark ++ document.label ++ dashes)) ++ last := by
    rw [labelled]
    simp only [List.append_assoc]
  rw [after_eq, ← List.append_assoc] at whole
  rw [after_eq] at marked split
  rw [whole] at marked
  refine ⟨_, last, whole, ?_, ?_, decode_eq_some_iff.2 ⟨_, _, inner, rows,
    afterBeginMark_dropEnd marked, splitLabel_dropEnd some split, again, lined, spelled⟩⟩
  · rcases blank with rfl | lineEnd
    · simp
    · exact lineEnd.blank
  · simp only [← List.append_assoc, List.getLast?_append]
    rfl

/-! ### White space before a document -/

/-- A boundary comes first in the text, but behind blanks that do not end a line. -/
def Indented (text : Octets) : Prop :=
  beginMark <+: Octets.trimAscii text ∧
    ∃ b, (text.takeWhile Octets.isAsciiBlank).getLast? = some b ∧ b ≠ 0x0A

/-- Blanks are passed over; what counts is whether they end a line. -/
theorem afterBeginMark_blanks {lead : Octets}
    (blank : ∀ b ∈ lead, Octets.isAsciiBlank b = true) (atLineStart : Bool) (core : Octets) :
    afterBeginMark atLineStart (lead ++ core) =
      afterBeginMark ((lead.getLast?.map (· == 0x0A)).getD atLineStart) core := by
  induction lead generalizing atLineStart with
  | nil => rfl
  | cons b rest ih =>
      have here := blank b (by simp)
      have unmarked : withoutStart beginMark (b :: (rest ++ core)) = none := by
        cases found : withoutStart beginMark (b :: (rest ++ core)) with
        | none => rfl
        | some label =>
            have head := congrArg List.head? (withoutStart_eq_some_iff.1 found)
            simp only [List.head?_cons, head?_beginMark_append, Option.some.injEq] at head
            subst head
            cases here
      have some : b ≠ 0 := by
        rintro rfl
        cases here
      rw [List.cons_append, afterBeginMark, unmarked, ite_self]
      simp only [some, if_false]
      rw [ih fun c member => blank c (by simp [member])]
      cases rest with
      | nil => rfl
      | cons c later => rfl

/-! ### A second boundary -/

/-- A boundary at the start of a line after the first. -/
def Remarked (text : Octets) : Prop := 0x0A :: beginMark <:+: text

theorem Remarked.of_append {front rest : Octets} (remarked : Remarked (front ++ rest))
    (one : ∀ b ∈ front, b ≠ 0x0A) : Remarked rest := by
  induction front with
  | nil => exact remarked
  | cons b front ih =>
      rw [Remarked, List.cons_append, List.infix_cons_iff] at remarked
      rcases remarked with start | later
      · exact absurd (List.cons_prefix_cons.1 start).1.symm (one b (by simp))
      · exact ih later fun c member => one c (by simp [member])

/-- After a line end a boundary comes at once or later. -/
theorem Remarked.of_lineEnd {ending rest : Octets} (lineEnd : IsLineEnd ending)
    (remarked : Remarked (ending ++ rest)) : beginMark <+: rest ∨ Remarked rest := by
  have feed : Remarked (0x0A :: rest) → beginMark <+: rest ∨ Remarked rest := by
    intro remarked
    rcases List.infix_cons_iff.1 remarked with start | later
    · exact .inl (List.cons_prefix_cons.1 start).2
    · exact .inr later
  rcases lineEnd with rfl | rfl | rfl
  · exact feed remarked
  · exact .inr (remarked.of_append (by simp))
  · have later : Remarked ([0x0D] ++ (0x0A :: rest)) := remarked
    exact feed (later.of_append (by simp))

theorem unstarted_of_head {text : Octets} (head : text.head? ≠ some 0x2D) :
    ¬ beginMark <+: text := by
  rintro ⟨rest, rfl⟩
  exact head (head?_beginMark_append rest)

/-- No boundary starts where there are no dashes. -/
theorem Remarked.of_dashless {front rest : Octets} (remarked : Remarked (front ++ rest))
    (dashless : ∀ b ∈ front, b ≠ 0x2D) (head : rest.head? ≠ some 0x2D) : Remarked rest := by
  induction front with
  | nil => exact remarked
  | cons b front ih =>
      have later : ∀ c ∈ front, c ≠ 0x2D := fun c member => dashless c (by simp [member])
      rw [Remarked, List.cons_append, List.infix_cons_iff] at remarked
      rcases remarked with start | remarked
      · refine absurd (List.cons_prefix_cons.1 start).2 (unstarted_of_head ?_)
        cases front with
        | nil => exact head
        | cons c front => simpa using later c (by simp)
      · exact ih remarked later

theorem IsLineEnd.head_ne_dash {ending : Octets} (lineEnd : IsLineEnd ending) (rest : Octets) :
    (ending ++ rest).head? ≠ some 0x2D := by
  rcases lineEnd with rfl | rfl | rfl <;> simp

/-- Between its boundaries, and in the last one, a document has no further one. -/
theorem not_remarked_of_parts {label inner closing last : Octets}
    (lineFree : ∀ b ∈ label, b ≠ 0x0A) (dashless : ∀ b ∈ inner, b ≠ 0x2D)
    (closed : IsLineEnd closing) (ended : last = [] ∨ IsLineEnd last) :
    ¬ Remarked (inner ++ (closing ++ (endMark ++ label ++ dashes ++ last))) ∧
      ¬ beginMark <+: inner ++ (closing ++ (endMark ++ label ++ dashes ++ last)) := by
  have head := closed.head_ne_dash (endMark ++ label ++ dashes ++ last)
  refine ⟨fun remarked => ?_, ?_⟩
  · rcases (remarked.of_dashless dashless head).of_lineEnd closed with start | later
    · -- The last boundary is no first one.
      have other := (List.prefix_append endMark (label ++ dashes ++ last))
      simp only [List.append_assoc] at start other
      have same := List.prefix_of_prefix_length_le other start (by decide)
      exact absurd same (by decide)
    · have free : ∀ b ∈ endMark ++ label ++ dashes, b ≠ 0x0A := by
        intro b member
        rcases List.mem_append.1 member with front | final
        · rcases List.mem_append.1 front with mark | inLabel
          · exact (by decide +kernel : ∀ b ∈ endMark, b ≠ 0x0A) b mark
          · exact lineFree b inLabel
        · exact (by decide +kernel : ∀ b ∈ dashes, b ≠ 0x0A) b final
      have size := (later.of_append free).length_le
      rcases ended with rfl | rfl | rfl | rfl <;> revert size <;> decide
  · refine unstarted_of_head ?_
    cases inner with
    | nil => exact head
    | cons b inner => simpa using dashless b (by simp)

/-- Every octet between the boundaries is a symbol or ends a line. -/
theorem mem_of_lines {body : Octets} {rows : List Octets} (lined : lines body = some rows) :
    ∀ b ∈ body, b ∈ rows.flatten ∨ b = 0x0A ∨ b = 0x0D := by
  have ending : ∀ {ending : Octets}, IsLineEnd ending → ∀ b ∈ ending, b = 0x0A ∨ b = 0x0D := by
    rintro ending (rfl | rfl | rfl) <;> decide +kernel
  induction body using lines.induct generalizing rows with
  | case1 body short =>
      rw [lines, if_pos short] at lined
      cases lined
      intro b member
      cases last : beforeLineEnd body with
      | none => simpa [last] using .inl member
      | some front =>
          obtain ⟨final, lineEnd, rfl⟩ := exists_of_beforeLineEnd last
          rcases List.mem_append.1 member with row | final
          · simp [row]
          · exact .inr (ending lineEnd b final)
  | case2 body long unended =>
      rw [lines_of_long long, unended] at lined
      cases lined
  | case3 body long found =>
      rw [lines_of_long long, found, Option.bind_some, if_pos rfl] at lined
      cases lined
      intro b member
      obtain ⟨final, lineEnd, cut⟩ := exists_of_afterLineEnd found
      rw [← List.take_append_drop lineWidth body, cut, List.append_nil] at member
      rcases List.mem_append.1 member with row | last
      · simp [row]
      · exact .inr (ending lineEnd b last)
  | case4 body long rest found smaller some ih =>
      rw [lines_of_long long, found, Option.bind_some, if_neg some, Option.map_eq_some_iff] at lined
      obtain ⟨later, lined, rfl⟩ := lined
      intro b member
      obtain ⟨final, lineEnd, cut⟩ := exists_of_afterLineEnd found
      rw [← List.take_append_drop lineWidth body, cut] at member
      rcases List.mem_append.1 member with row | member
      · simp [row]
      · rcases List.mem_append.1 member with last | member
        · exact .inr (ending lineEnd b last)
        · rcases ih lined b member with row | last
          · simp only [List.flatten_cons, List.mem_append]
            exact .inl (.inr row)
          · exact .inr last

/-! ### The document in a trimmed text -/

theorem dashless_of_spelled {body : Octets} {rows : List Octets} {content : Octets}
    (lined : lines body = some rows) (found : spelled rows = some content) :
    ∀ b ∈ body, b ≠ 0x2D := by
  simp only [spelled, Option.bind_eq_bind, Option.bind_eq_some_iff] at found
  obtain ⟨-, -, -, -, decoded⟩ := found
  rintro b member rfl
  rcases mem_of_lines lined _ member with row | feed | return'
  · exact absurd (Base64.symbol_of_decode decoded _ row) (by decide)
  · cases feed
  · cases return'

/-- A text that begins with a boundary and has a second one at the start of a line holds no
document. -/
theorem decode_of_remarked {rest : Octets} (remarked : Remarked (beginMark ++ rest)) :
    decode (beginMark ++ rest) = none := by
  cases found : decode (beginMark ++ rest) with
  | none => rfl
  | some document =>
      exfalso
      obtain ⟨after, body, inner, rows, marked, split, cut, lined, spelled⟩ :=
        decode_eq_some_iff.1 found
      have first : afterBeginMark true (beginMark ++ rest) = some rest := by
        have here : withoutStart beginMark (beginMark ++ rest) = some rest :=
          withoutStart_eq_some_iff.2 rfl
        have parts : beginMark ++ rest = 0x2D :: (beginMark.tail ++ rest) := rfl
        rw [parts] at here ⊢
        rw [afterBeginMark, if_pos rfl, here]
      obtain rfl := Option.some.inj (first.symm.trans marked)
      obtain ⟨-, valid, opened, rfl, after⟩ := splitLabel_eq_some_iff.1 split
      obtain ⟨opening, lineEnd, rfl⟩ := exists_of_afterLineEnd after
      obtain ⟨closing, last, closed, ended, rfl, -⟩ := exists_of_beforeEndMark cut
      have lineFree := lineFree_of_isLabel valid
      obtain ⟨unmarked, unstarted⟩ :=
        not_remarked_of_parts lineFree (dashless_of_spelled lined spelled) closed ended
      have free : ∀ b ∈ beginMark ++ document.label ++ dashes, b ≠ 0x0A := by
        intro b member
        rcases List.mem_append.1 member with front | final
        · rcases List.mem_append.1 front with mark | inLabel
          · exact (by decide +kernel : ∀ b ∈ beginMark, b ≠ 0x0A) b mark
          · exact lineFree b inLabel
        · exact (by decide +kernel : ∀ b ∈ dashes, b ≠ 0x0A) b final
      have later : Remarked
          (opening ++ (inner ++ closing ++ endMark ++ document.label ++ dashes ++ last)) := by
        refine Remarked.of_append ?_ free
        simpa only [List.append_assoc] using remarked
      simp only [List.append_assoc] at unmarked unstarted
      rcases later.of_lineEnd lineEnd with start | more
      · exact unstarted (by simpa only [List.append_assoc] using start)
      · exact unmarked (by simpa only [List.append_assoc] using more)

/-- A text that decodes is a text that ends with a dash, behind blanks and before others; the blanks
after it do not matter. -/
theorem exists_of_decode {text : Octets} {document : Document} (found : decode text = some document) :
    decode (text.takeWhile Octets.isAsciiBlank ++ Octets.trimAscii text) = some document := by
  obtain ⟨front, last, rfl, blank, dash, same⟩ := decode_dropEnd found
  have parts := List.takeWhile_append_dropWhile (p := Octets.isAsciiBlank) (l := front)
  have lead : ∀ b ∈ front.takeWhile Octets.isAsciiBlank, Octets.isAsciiBlank b = true :=
    fun b member => List.mem_takeWhile_imp member
  have some : front.dropWhile Octets.isAsciiBlank ≠ [] := by
    intro none
    rw [none, List.append_nil] at parts
    rw [← parts] at dash
    exact absurd (lead _ (List.mem_of_getLast? dash)) (by decide)
  have bare : Octets.Bare (front.dropWhile Octets.isAsciiBlank) := by
    refine ⟨Text.head_dropWhile, fun b member => ?_⟩
    rw [← parts, List.getLast?_append, Option.mem_def.1 member, Option.some_or] at dash
    cases dash
    rfl
  have trimmed : Octets.trimAscii (front ++ last) = front.dropWhile Octets.isAsciiBlank := by
    have := Octets.trimAscii_eq lead bare blank
    rwa [parts] at this
  have kept : (front ++ last).takeWhile Octets.isAsciiBlank =
      front.takeWhile Octets.isAsciiBlank := by
    obtain ⟨b, later, cut⟩ := List.exists_cons_of_ne_nil some
    have plain : Octets.isAsciiBlank b = false := bare.head b (by rw [cut]; rfl)
    calc (front ++ last).takeWhile Octets.isAsciiBlank
        = (front.takeWhile Octets.isAsciiBlank ++ b :: (later ++ last)).takeWhile
            Octets.isAsciiBlank := by
          rw [← List.cons_append, ← cut, ← List.append_assoc, parts]
      _ = front.takeWhile Octets.isAsciiBlank := by
          rw [List.takeWhile_append_of_pos lead, List.takeWhile_cons_of_neg (by simp [plain]),
            List.append_nil]
  rw [trimmed, kept, parts]
  exact same

theorem decode_congr {first second : Octets}
    (same : afterBeginMark true first = afterBeginMark true second) :
    decode first = decode second := by
  simp only [decode, same]

/-- Without a boundary at its start, a text is read alike at the start of a line and elsewhere. -/
theorem afterBeginMark_of_unstarted {text : Octets} (unstarted : ¬ beginMark <+: text)
    (atLineStart : Bool) : afterBeginMark atLineStart text = afterBeginMark true text := by
  cases text with
  | nil => rfl
  | cons b rest =>
      have none : withoutStart beginMark (b :: rest) = none := by
        cases found : withoutStart beginMark (b :: rest) with
        | none => rfl
        | some after => exact absurd ⟨after, (withoutStart_eq_some_iff.1 found).symm⟩ unstarted
      simp only [afterBeginMark, none, ite_self]

/-- A text that decodes has the same document without the white space around it, unless it is
indented. -/
theorem decode_trimAscii {text : Octets} {document : Document} (found : decode text = some document)
    (unindented : ¬ Indented text) : decode (Octets.trimAscii text) = some document := by
  have lead : ∀ b ∈ text.takeWhile Octets.isAsciiBlank, Octets.isAsciiBlank b = true :=
    fun b member => List.mem_takeWhile_imp member
  rw [← exists_of_decode found]
  refine decode_congr ?_
  rw [afterBeginMark_blanks lead]
  cases last : (text.takeWhile Octets.isAsciiBlank).getLast? with
  | none => rfl
  | some b =>
      by_cases feed : b = 0x0A
      · subst feed
        rfl
      · have unstarted : ¬ beginMark <+: Octets.trimAscii text := fun start =>
          unindented ⟨start, b, last, feed⟩
        exact (afterBeginMark_of_unstarted unstarted _).symm

/-- An indented text that decodes holds no document without the white space around it. -/
theorem decode_trimAscii_of_indented {text : Octets} {document : Document}
    (found : decode text = some document) (indented : Indented text) :
    decode (Octets.trimAscii text) = none := by
  obtain ⟨⟨rest, start⟩, b, last, other⟩ := indented
  have lead : ∀ b ∈ text.takeWhile Octets.isAsciiBlank, Octets.isAsciiBlank b = true :=
    fun b member => List.mem_takeWhile_imp member
  obtain ⟨after, body, inner, rows, marked, -⟩ := decode_eq_some_iff.1 (exists_of_decode found)
  rw [afterBeginMark_blanks lead, last, Option.map_some, Option.getD_some,
    beq_false_of_ne other] at marked
  -- The boundary that was found is a later one.
  obtain ⟨before, cut, ⟨-, ⟨⟩⟩ | feed⟩ := exists_of_afterBeginMark marked
  obtain ⟨front, rfl⟩ := List.getLast?_eq_some_iff.1 feed
  rw [← start]
  refine decode_of_remarked ⟨front, after, ?_⟩
  rw [start, cut]
  simp

end SecureElement.Pem
