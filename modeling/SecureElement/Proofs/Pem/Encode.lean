import SecureElement.Proofs.Octets.Base64
import SecureElement.Proofs.Pem.Boundaries

/-!
Textual encodings as they are written.

What is written is ASCII text that begins with a boundary, and is read back as the document that it was
written for (`decode_encode`).
-/

namespace SecureElement

namespace Octets

theorem chunks_of_ne_nil {size : Nat} (pos : 0 < size) {bytes : Octets} (some : bytes ≠ []) :
    chunks size bytes = bytes.take size :: chunks size (bytes.drop size) := by
  cases size with
  | zero => cases pos
  | succ size =>
      cases bytes with
      | nil => exact absurd rfl some
      | cons b rest => rw [chunks, List.take_succ_cons, List.drop_succ_cons]

@[simp] theorem chunks_nil (size : Nat) : chunks size [] = [] := by
  cases size <;> simp [chunks]

theorem chunks_ne_nil {size : Nat} (pos : 0 < size) {bytes : Octets} (some : bytes ≠ []) :
    chunks size bytes ≠ [] := by
  rw [chunks_of_ne_nil pos some]
  exact List.cons_ne_nil _ _

theorem flatten_chunks {size : Nat} (pos : 0 < size) (bytes : Octets) :
    (chunks size bytes).flatten = bytes := by
  fun_induction chunks size bytes with
  | case1 => cases pos
  | case2 => rfl
  | case3 size b rest ih =>
      rw [List.flatten_cons, ih pos, List.cons_append, List.take_append_drop]

end Octets

namespace Base64

/-- The symbols of an octet string that is not empty end with a group of four, and padding stands in
that group only. -/
theorem exists_last_group {bytes : Octets} (some : bytes ≠ []) :
    ∃ front last, encode bytes = front ++ last ∧ last.length = 4 ∧ front.length % 4 = 0 ∧
      ∀ b ∈ front, b ≠ pad := by
  unfold encode
  induction bytes using encodeWith.induct with
  | case1 => exact absurd rfl some
  | case2 x => exact ⟨[], _, rfl, rfl, rfl, by simp⟩
  | case3 x y => exact ⟨[], _, rfl, rfl, rfl, by simp⟩
  | case4 x y z rest ih =>
      have bound := x.toNat_lt
      have bound' := y.toNat_lt
      have bound'' := z.toNat_lt
      by_cases none : rest = []
      · subst none
        exact ⟨[], _, rfl, rfl, rfl, by simp⟩
      · obtain ⟨front, last, cut, size, whole, unpadded⟩ := ih none
        refine ⟨_ :: _ :: _ :: _ :: front, last, by rw [encodeWith, cut]; rfl, size, ?_, ?_⟩
        · simp only [List.length_cons]
          omega
        · intro b member
          simp only [List.mem_cons] at member
          rcases member with rfl | rfl | rfl | rfl | member
          · exact symbol_ne_pad (by omega)
          · exact symbol_ne_pad (by omega)
          · exact symbol_ne_pad (by omega)
          · exact symbol_ne_pad (by omega)
          · exact unpadded b member

end Base64

namespace Pem

open Text

/-! ### Lines -/

/-- The lines of a body with a line feed between them. -/
def joined : List Octets → Octets
  | [] => []
  | [row] => row
  | row :: rows => row ++ 0x0A :: joined rows

theorem joined_cons {row : Octets} {rows : List Octets} (some : rows ≠ []) :
    joined (row :: rows) = row ++ 0x0A :: joined rows := by
  cases rows with
  | nil => exact absurd rfl some
  | cons next rows => rfl

theorem mem_joined {rows : List Octets} {b : UInt8} (member : b ∈ joined rows) :
    b = 0x0A ∨ b ∈ rows.flatten := by
  induction rows with
  | nil => cases member
  | cons row rows ih =>
      by_cases none : rows = []
      · subst none
        exact .inr (by simpa [joined] using member)
      · rw [joined_cons none] at member
        rcases List.mem_append.1 member with here | later
        · exact .inr (List.mem_append_left _ here)
        · rcases List.mem_cons.1 later with feed | later
          · exact .inl feed
          · exact (ih later).imp_right (List.mem_append_right _)

theorem joined_append_feed {rows : List Octets} (some : rows ≠ []) :
    rows.flatMap (· ++ [0x0A]) = joined rows ++ [0x0A] := by
  induction rows with
  | nil => exact absurd rfl some
  | cons row rows ih =>
      by_cases none : rows = []
      · subst none
        simp [joined]
      · rw [List.flatMap_cons, ih none, joined_cons none]
        simp

theorem beforeLineEnd_of_plain {row : Octets} (plain : ∀ b ∈ row, b ≠ 0x0A ∧ b ≠ 0x0D) :
    beforeLineEnd row = none := by
  cases found : beforeLineEnd row with
  | none => rfl
  | some front =>
      obtain ⟨ending, lineEnd, rfl⟩ := exists_of_beforeLineEnd found
      rcases lineEnd with rfl | rfl | rfl
      · exact absurd rfl (plain 0x0A (by simp)).1
      · exact absurd rfl (plain 0x0D (by simp)).2
      · exact absurd rfl (plain 0x0A (by simp)).1

/-- One line feed at the end goes, unless a carriage return stands before it. -/
theorem beforeLineEnd_append_feed {text : Octets} (last : text.getLast? ≠ some 0x0D) :
    beforeLineEnd (text ++ [0x0A]) = some text := by
  unfold beforeLineEnd
  rw [List.reverse_append]
  rcases turned : text.reverse with _ | ⟨b, rest⟩
  · have none : text = [] := by simpa using turned
    subst none
    rfl
  · have cut : text = rest.reverse ++ [b] := by
      rw [← List.reverse_reverse text, turned]
      simp
    have other : b ≠ 0x0D := by
      rintro rfl
      rw [cut] at last
      simp at last
    subst cut
    simp only [List.reverse_cons, List.reverse_nil, List.nil_append, List.singleton_append]
    split
    · next same =>
        simp only [List.cons.injEq] at same
        exact absurd same.2.1 other
    · next same =>
        simp only [List.cons.injEq, true_and] at same
        rw [← same]
        simp
    · next same => simp at same
    · next one two three => exact absurd rfl (two _)

/-- The lines that symbols were cut into are read back. -/
theorem lines_joined {symbols : Octets} (some : symbols ≠ [])
    (plain : ∀ b ∈ symbols, b ≠ 0x0A ∧ b ≠ 0x0D) :
    joined (symbols.chunks lineWidth) ≠ [] ∧
      lines (joined (symbols.chunks lineWidth)) = .some (symbols.chunks lineWidth) := by
  induction size : symbols.length using Nat.strong_induction_on generalizing symbols with
  | _ n ih =>
      subst size
      rw [Octets.chunks_of_ne_nil (by decide) some]
      by_cases short : symbols.length ≤ lineWidth
      · have none : symbols.drop lineWidth = [] := List.drop_eq_nil_iff.2 short
        have whole : symbols.take lineWidth = symbols := List.take_of_length_le short
        rw [none, whole, Octets.chunks_nil, joined]
        refine ⟨some, ?_⟩
        rw [lines, if_pos short, beforeLineEnd_of_plain plain, Option.getD_none]
      · have more : symbols.drop lineWidth ≠ [] := by
          rw [ne_eq, List.drop_eq_nil_iff]
          exact short
        have width : (symbols.take lineWidth).length = lineWidth := by
          rw [List.length_take]
          omega
        have fewer : (symbols.drop lineWidth).length < symbols.length := by
          rw [List.length_drop]
          simp only [lineWidth] at short ⊢
          omega
        obtain ⟨nonempty, read⟩ := ih _ fewer more
          (fun b member => plain b (List.mem_of_mem_drop member)) rfl
        rw [joined_cons (Octets.chunks_ne_nil (by decide) more)]
        refine ⟨by simp, ?_⟩
        rw [lines_of_long (by rw [List.length_append, width, List.length_cons]; omega)]
        rw [List.drop_left' width, List.take_left' width]
        simp only [afterLineEnd, Option.bind_some]
        rw [if_neg nonempty, read, Option.map_some]

/-- What stands in the last group of four only does not stand in a line before the last. -/
theorem not_mem_dropLast_chunks {front last : Octets} {b : UInt8} (width : last.length = 4)
    (groups : front.length % 4 = 0) (free : b ∉ front) :
    ∀ row ∈ ((front ++ last).chunks lineWidth).dropLast, b ∉ row := by
  induction size : front.length using Nat.strong_induction_on generalizing front with
  | _ n ih =>
      subst size
      have some : front ++ last ≠ [] := by
        intro none
        have := congrArg List.length none
        simp only [List.length_append, List.length_nil] at this
        omega
      rw [Octets.chunks_of_ne_nil (by decide) some]
      by_cases short : (front ++ last).length ≤ lineWidth
      · rw [List.drop_eq_nil_iff.2 short, Octets.chunks_nil]
        simp
      · -- A full line holds whole groups, so it ends before the last one.
        have within : lineWidth ≤ front.length := by
          simp only [List.length_append, lineWidth] at short ⊢
          omega
        have more : front.drop lineWidth ++ last ≠ [] := by
          intro none
          have := congrArg List.length none
          simp only [List.length_append, List.length_nil] at this
          omega
        rw [List.take_append_of_le_length within, List.drop_append_of_le_length within,
          List.dropLast_cons_of_ne_nil (Octets.chunks_ne_nil (by decide) more)]
        intro row member
        rcases List.mem_cons.1 member with rfl | later
        · exact fun here => free (List.mem_of_mem_take here)
        · refine ih (front.drop lineWidth).length ?_ ?_ ?_ rfl row later
          · rw [List.length_drop]
            simp only [lineWidth] at within ⊢
            omega
          · rw [List.length_drop]
            simp only [lineWidth] at within ⊢
            omega
          · exact fun here => free (List.mem_of_mem_drop here)

theorem spelled_chunks_encode {bytes : Octets} (some : bytes ≠ []) :
    spelled ((Base64.encode bytes).chunks lineWidth) = .some bytes := by
  obtain ⟨front, last, cut, width, groups, unpadded⟩ := Base64.exists_last_group some
  have free : Base64.pad ∉ front := fun member => unpadded _ member rfl
  have nonempty : Base64.encode bytes ≠ [] := by
    intro none
    rw [none] at cut
    have := congrArg List.length cut
    simp only [List.length_append, List.length_nil] at this
    omega
  have rows : ((Base64.encode bytes).chunks lineWidth).dropLast.all
      (fun row => !row.contains Base64.pad) = true := by
    rw [cut]
    simpa using not_mem_dropLast_chunks width groups free
  simp only [spelled, Option.bind_eq_bind, Option.bind_eq_some_iff, Option.guard_eq_some']
  rw [Octets.flatten_chunks (by decide)]
  exact ⟨(), rows, (), nonempty, Base64.decode_encode bytes⟩

/-! ### Documents -/

/-- A boundary at the start of a text is the first one. -/
theorem afterBeginMark_beginMark (rest : Octets) :
    afterBeginMark true (beginMark ++ rest) = some rest := by
  have start : withoutStart beginMark (beginMark ++ rest) = some rest :=
    withoutStart_eq_some_iff.2 rfl
  cases text : beginMark ++ rest with
  | nil => simp [beginMark, Octets.ofAscii] at text
  | cons b tail =>
      rw [text] at start
      simp only [afterBeginMark, if_true, start]

/-- A document is read back from its text. -/
theorem decode_encode {document : Document} (valid : isLabel false document.label = true)
    (free : ∀ b ∈ document.label, b ≠ 0x2D) (some : document.content ≠ []) :
    decode (encode document) = .some document := by
  obtain ⟨label, content⟩ := document
  have plain : ∀ b ∈ Base64.encode content, b ≠ 0x0A ∧ b ≠ 0x0D := fun b member =>
    ⟨(Base64.plain_encode content b member).2.1, (Base64.plain_encode content b member).2.2.2⟩
  have nonempty : Base64.encode content ≠ [] := by
    obtain ⟨front, last, cut, width, -⟩ := Base64.exists_last_group some
    rw [cut]
    rintro none
    rw [(List.append_eq_nil_iff.1 none).2] at width
    cases width
  obtain ⟨-, lined⟩ := lines_joined nonempty plain
  have someRows : Octets.chunks lineWidth (Base64.encode content) ≠ [] :=
    Octets.chunks_ne_nil (by decide) nonempty
  let rows := Octets.chunks lineWidth (Base64.encode content)
  let inner := joined rows
  let body := inner ++ [0x0A] ++ endMark ++ label ++ dashes ++ [0x0A]
  have text : encode ⟨label, content⟩ = beginMark ++ (label ++ dashes ++ ([0x0A] ++ body)) := by
    simp only [encode, joined_append_feed someRows, body, inner, rows, List.append_assoc]
  have marked : afterBeginMark true (encode ⟨label, content⟩) =
      .some (label ++ dashes ++ ([0x0A] ++ body)) := by
    rw [text]
    exact afterBeginMark_beginMark _
  have split : splitLabel (label ++ dashes ++ ([0x0A] ++ body)) = .some (label, body) :=
    splitLabel_eq_some_iff.2 ⟨free, valid, _, rfl, rfl⟩
  have cut : beforeEndMark label body = .some inner := by
    have unreturned : inner.getLast? ≠ .some 0x0D := by
      intro last
      rcases mem_joined (List.mem_of_getLast? last) with feed | member
      · cases feed
      · rw [Octets.flatten_chunks (by decide)] at member
        exact (plain _ member).2 rfl
    have dashed : (inner ++ [0x0A] ++ endMark ++ label ++ dashes).getLast? = .some 0x2D := by
      rw [List.getLast?_append]
      rfl
    have ended : beforeLineEnd body = .some (inner ++ [0x0A] ++ endMark ++ label ++ dashes) :=
      beforeLineEnd_append_feed (by rw [dashed]; decide)
    simp only [beforeEndMark, ended, Option.getD_some, Option.bind_eq_bind, Option.bind_eq_some_iff]
    exact ⟨_, withoutEnd_eq_some_iff.2 rfl, _, withoutEnd_eq_some_iff.2 rfl, _,
      withoutEnd_eq_some_iff.2 rfl, beforeLineEnd_append_feed unreturned⟩
  exact decode_eq_some_iff.2 ⟨_, body, inner, rows, marked, split, cut, lined,
    spelled_chunks_encode some⟩

/-- What is written of a document with a plain label is plain. -/
theorem plain_encode {document : Document} (label : ∀ b ∈ document.label, b < 0x80 ∧ b ≠ 0x0B) :
    ∀ b ∈ encode document, b < 0x80 ∧ b ≠ 0x0B := by
  have marks : ∀ b ∈ beginMark ++ endMark ++ dashes ++ [0x0A], b < 0x80 ∧ b ≠ 0x0B := by
    decide +kernel
  intro b member
  simp only [encode, List.mem_append, List.mem_flatMap] at member
  rcases member with ((((((((start | here) | mark) | feed) | ⟨row, line, member⟩) | mark) | here) |
    mark) | feed)
  · exact marks b (by simp [start])
  · exact label b here
  · exact marks b (by simp [mark])
  · exact marks b (by simp [feed])
  · rcases member with inside | feed
    · have symbol : b ∈ Base64.encode document.content := by
        have whole := Octets.flatten_chunks (show 0 < lineWidth by decide)
          (Base64.encode document.content)
        rw [← whole]
        exact List.mem_flatten.2 ⟨row, line, inside⟩
      obtain ⟨ascii, -, other, -⟩ := Base64.plain_encode _ b symbol
      exact ⟨ascii, other⟩
    · exact marks b (by simp [feed])
  · exact marks b (by simp [mark])
  · exact label b here
  · exact marks b (by simp [mark])
  · exact marks b (by simp [feed])

end Pem

end SecureElement
