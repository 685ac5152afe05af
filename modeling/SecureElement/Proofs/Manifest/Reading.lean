import Mathlib.Data.List.Forall2
import SecureElement.Manifest.Json
import SecureElement.Proofs.Text.Decimal

/-!
JSON documents read back from their text.

`Json.read?` is a reader for documents of numbers, texts, lists and records. It takes white space wherever
it may stand, every escape of a single character, and numbers without a sign, a fraction or an exponent.
What is written is read back (`read?_pretty`), so that the text of a document is the text of no other.
-/

namespace SecureElement.Manifest.Json

/-! ### The reader -/

/-- A reader takes a part from the front of a text and leaves what follows it. -/
abbrev Reader (α : Type) : Type := List Char → Option (α × List Char)

/-- White space between the parts of a document. -/
def isSpace (c : Char) : Bool :=
  c == ' ' || c == '\n' || c == '\r' || c == '\t'

/-- What follows the white space at the front of a text. -/
def skip (cs : List Char) : List Char :=
  cs.dropWhile isSpace

/-- The character that a letter after a backslash stands for. -/
def escaped? : Char → Option Char
  | '"' => some '"'
  | '\\' => some '\\'
  | '/' => some '/'
  | 'b' => some '\x08'
  | 'f' => some '\x0C'
  | 'n' => some '\n'
  | 'r' => some '\r'
  | 't' => some '\t'
  | _ => none

/-- The character with a number of four hexadecimal digits. -/
def numbered? (a b c d : Char) : Option Char := do
  let n := (((← Hex.digitValue? a) * 16 + (← Hex.digitValue? b)) * 16 + (← Hex.digitValue? c)) * 16 +
    (← Hex.digitValue? d)
  if n.isValidChar then some (Char.ofNat n) else none

/-- The characters up to the quote that ends a text. -/
def textOn : Reader (List Char)
  | [] => none
  | '"' :: rest => some ([], rest)
  | '\\' :: 'u' :: a :: b :: c :: d :: rest => do
      let char ← numbered? a b c d
      let (later, rest) ← textOn rest
      some (char :: later, rest)
  | '\\' :: c :: rest => do
      let char ← escaped? c
      let (later, rest) ← textOn rest
      some (char :: later, rest)
  | c :: rest =>
      if c < ' ' then none
      else do
        let (later, rest) ← textOn rest
        some (c :: later, rest)

/-- A number, without zeros before it. -/
def numberOn : Reader Nat := fun cs =>
  let digits := cs.takeWhile Decimal.isDigit
  if digits = [] ∨ digits.head? = some '0' ∧ digits ≠ ['0'] then none
  else some (Decimal.valueOfDigits digits, cs.dropWhile Decimal.isDigit)

/-- Further parts, each after a comma, up to a closing bracket. -/
def partsOn {α : Type} (part : Reader α) (closing : Char) : (most : Nat) → Reader (List α)
  | 0, _ => none
  | most + 1, cs =>
      match skip cs with
      | [] => none
      | c :: rest =>
          if c = closing then some ([], rest)
          else if c = ',' then do
            let (first, rest) ← part rest
            let (more, rest) ← partsOn part closing most rest
            some (first :: more, rest)
          else none

/-- Parts with commas between them, up to a closing bracket. -/
def rowOn {α : Type} (part : Reader α) (closing : Char) : Reader (List α) := fun cs =>
  match skip cs with
  | [] => none
  | c :: rest =>
      if c = closing then some ([], rest)
      else do
        let (first, rest) ← part cs
        let (more, rest) ← partsOn part closing rest.length rest
        some (first :: more, rest)

/-- A name and its value. -/
def fieldOn (value : Reader Json) : Reader (String × Json) := fun cs =>
  match skip cs with
  | '"' :: rest => do
      let (name, rest) ← textOn rest
      match skip rest with
      | ':' :: rest => do
          let (j, rest) ← value rest
          some ((String.ofList name, j), rest)
      | _ => none
  | _ => none

/-- A document of at most so many levels. -/
def valueOn : (levels : Nat) → Reader Json
  | 0, _ => none
  | levels + 1, cs =>
      match skip cs with
      | '"' :: rest => (textOn rest).map fun (t, rest) => (text (String.ofList t), rest)
      | '[' :: rest => (rowOn (valueOn levels) ']' rest).map fun (items, rest) => (list items, rest)
      | '\x7b' :: rest =>
          (rowOn (fieldOn (valueOn levels)) '\x7d' rest).map fun (fields, rest) => (record fields, rest)
      | cs => (numberOn cs).map fun (n, rest) => (number n, rest)

/-- The document that a text spells. -/
def read? (text : String) : Option Json := do
  let (j, rest) ← valueOn text.toList.length text.toList
  if skip rest = [] then some j else none

/-! ### Texts and numbers -/

theorem numbered?_control {c : Char} (control : c < ' ') :
    numbered? '0' '0' (Hex.lowerDigit (c.toNat / 16)) (Hex.lowerDigit (c.toNat % 16)) = some c := by
  have every : ∀ n : Fin 32, numbered? '0' '0' (Hex.lowerDigit (n.val / 16)) (Hex.lowerDigit (n.val % 16)) =
      some (Char.ofNat n.val) := by decide
  have here := every ⟨c.toNat, UInt32.lt_iff_toNat_lt.1 control⟩
  simpa using here

/-- An escape stands for its character. -/
theorem textOn_escape (c : Char) (rest : List Char) :
    textOn (escape c ++ rest) = (textOn rest).map fun (later, rest) => (c :: later, rest) := by
  have map_eq : (textOn rest).map (fun (later, rest) => (c :: later, rest)) =
      (textOn rest).bind fun (later, rest) => some (c :: later, rest) := by
    cases textOn rest <;> rfl
  rw [map_eq]
  by_cases quote : c = '"'
  · subst quote; simp [escape, textOn, escaped?]
  by_cases backslash : c = '\\'
  · subst backslash; simp [escape, textOn, escaped?]
  by_cases backspace : c = '\x08'
  · subst backspace; simp [escape, textOn, escaped?]
  by_cases pageFeed : c = '\x0C'
  · subst pageFeed; simp [escape, textOn, escaped?]
  by_cases lineFeed : c = '\n'
  · subst lineFeed; simp [escape, textOn, escaped?]
  by_cases carriageReturn : c = '\r'
  · subst carriageReturn; simp [escape, textOn, escaped?]
  by_cases tab : c = '\t'
  · subst tab; simp [escape, textOn, escaped?]
  by_cases control : c < ' '
  · simp [escape, quote, backslash, backspace, pageFeed, lineFeed, carriageReturn, tab, control, textOn,
      numbered?_control control]
  · simp [escape, quote, backslash, backspace, pageFeed, lineFeed, carriageReturn, tab, control, textOn]

theorem textOn_escapes (cs rest : List Char) :
    textOn (cs.flatMap escape ++ '"' :: rest) = some (cs, rest) := by
  induction cs with
  | nil => rfl
  | cons c cs ih => rw [List.flatMap_cons, List.append_assoc, textOn_escape, ih]; rfl

/-- A number is read back if no digit follows it. -/
theorem numberOn_repr (n : Nat) {rest : List Char} (ends : ∀ c ∈ rest.head?, Decimal.isDigit c = false) :
    numberOn (n.repr.toList ++ rest) = some (n, rest) := by
  rw [Nat.repr_eq_ofList_toDigits, String.toList_ofList]
  obtain ⟨digits, value, some, zero⟩ := Decimal.toDigits_spec n
  have taken : rest.takeWhile Decimal.isDigit = [] ∧ rest.dropWhile Decimal.isDigit = rest := by
    cases rest with
    | nil => exact ⟨rfl, rfl⟩
    | cons c rest => simp [ends c rfl]
  have unpadded : ¬ (Nat.toDigits 10 n = [] ∨
      (Nat.toDigits 10 n).head? = Option.some '0' ∧ Nat.toDigits 10 n ≠ ['0']) := by
    rintro (none | ⟨head, other⟩)
    · exact some none
    · rw [zero head] at other
      exact other rfl
  unfold numberOn
  rw [List.takeWhile_append_of_pos digits, List.dropWhile_append_of_pos digits, taken.1, taken.2,
    List.append_nil, if_neg unpadded, value]

/-! ### Rows -/

/-- A text does not begin with white space or with a closing bracket. -/
def Starts (cs : List Char) : Prop :=
  ∃ c rest, cs = c :: rest ∧ isSpace c = false ∧ c ≠ ']' ∧ c ≠ '\x7d'

/-- A reader takes what a text stands for from any text that goes on with it, unless a digit follows. -/
def Reads {α : Type} (part : Reader α) (cs : List Char) (x : α) : Prop :=
  ∀ whole rest, skip whole = cs ++ rest → (∀ c ∈ rest.head?, Decimal.isDigit c = false) →
    part whole = some (x, rest)

theorem skip_of_solid {c : Char} (solid : isSpace c = false) (rest : List Char) :
    skip (c :: rest) = c :: rest := by
  rw [skip, List.dropWhile_cons_of_neg (by simp [solid])]

theorem Starts.skip {cs : List Char} (starts : Starts cs) (rest : List Char) :
    skip (cs ++ rest) = cs ++ rest := by
  obtain ⟨c, cs, rfl, solid, -⟩ := starts
  exact skip_of_solid solid (cs ++ rest)

theorem skip_newline (depth : Nat) (cs : List Char) : skip (newline depth ++ cs) = skip cs := by
  have spaces : ∀ c ∈ newline depth, isSpace c = true := by
    simp only [newline, List.mem_cons, List.mem_replicate]
    rintro c (rfl | ⟨-, rfl⟩) <;> rfl
  exact List.dropWhile_append_of_pos spaces

section

variable {α : Type} {part : Reader α} {closing : Char}

/-- What follows a part of a row: the further parts, each after a comma, and the closing bracket. -/
def rowRest (closing : Char) (depth : Nat) (texts : List (List Char)) (rest : List Char) : List Char :=
  texts.flatMap (fun cs => ',' :: newline (depth + 1) ++ cs) ++ (newline depth ++ closing :: rest)

theorem rowRest_cons (closing : Char) (depth : Nat) (cs : List Char) (texts : List (List Char))
    (rest : List Char) : rowRest closing depth (cs :: texts) rest =
      ',' :: (newline (depth + 1) ++ (cs ++ rowRest closing depth texts rest)) := by
  simp [rowRest]

/-- No digit follows a part of a row. -/
theorem undigited_rowRest (closing : Char) (depth : Nat) (texts : List (List Char)) (rest : List Char) :
    ∀ c ∈ (rowRest closing depth texts rest).head?, Decimal.isDigit c = false := by
  intro c head
  cases texts with
  | nil =>
      cases head
      rfl
  | cons cs texts =>
      rw [rowRest_cons] at head
      cases head
      rfl

theorem length_lt_rowRest (closing : Char) (depth : Nat) (texts : List (List Char)) (rest : List Char) :
    texts.length < (rowRest closing depth texts rest).length := by
  induction texts with
  | nil =>
      simp only [rowRest, List.flatMap_nil, List.nil_append, List.length_append, List.length_cons,
        List.length_nil]
      omega
  | cons cs texts ih =>
      rw [rowRest_cons]
      simp only [List.length_cons, List.length_append]
      omega

/-- Further parts are read back one after the other. -/
theorem partsOn_rowRest (bracket : closing = ']' ∨ closing = '\x7d') {depth most : Nat}
    {texts : List (List Char)} {xs : List α} (each : List.Forall₂ (Reads part) texts xs)
    (starts : ∀ cs ∈ texts, Starts cs) (enough : texts.length < most) (rest : List Char) :
    partsOn part closing most (rowRest closing depth texts rest) = some (xs, rest) := by
  induction each generalizing most with
  | nil =>
      obtain ⟨most, rfl⟩ := Nat.exists_eq_succ_of_ne_zero (Nat.ne_of_gt enough)
      have solid : isSpace closing = false := by rcases bracket with rfl | rfl <;> rfl
      rw [partsOn, rowRest, List.flatMap_nil, List.nil_append, skip_newline, skip_of_solid solid]
      simp
  | @cons cs x texts xs first later ih =>
      obtain ⟨most, rfl⟩ := Nat.exists_eq_succ_of_ne_zero (Nat.ne_of_gt (Nat.zero_lt_of_lt enough))
      have here := first (newline (depth + 1) ++ (cs ++ rowRest closing depth texts rest)) _
        (by rw [skip_newline, (starts cs (by simp)).skip]) (undigited_rowRest _ _ _ _)
      have there : partsOn part closing most (rowRest closing depth texts rest) = some (xs, rest) :=
        ih (fun cs member => starts cs (by simp [member])) (by simpa using enough)
      have comma : ',' ≠ closing := by rcases bracket with rfl | rfl <;> decide
      rw [rowRest_cons, partsOn, skip_of_solid rfl]
      simp [comma, here, there]

/-- What is written between brackets is read back. -/
theorem rowOn_bracketed (bracket : closing = ']' ∨ closing = '\x7d') (opening : Char) (depth : Nat)
    {texts : List (List Char)} {xs : List α} (each : List.Forall₂ (Reads part) texts xs)
    (starts : ∀ cs ∈ texts, Starts cs) :
    ∃ body, bracketed opening closing depth texts = opening :: body ∧
      ∀ rest, rowOn part closing (body ++ rest) = some (xs, rest) := by
  have solid : isSpace closing = false := by rcases bracket with rfl | rfl <;> rfl
  cases each with
  | nil =>
      refine ⟨[closing], rfl, fun rest => ?_⟩
      rw [rowOn, List.singleton_append, skip_of_solid solid]
      simp
  | @cons cs x texts xs first later =>
      refine ⟨newline (depth + 1) ++ (cs ++ rowRest closing depth texts []), by simp [bracketed, rowRest],
        fun rest => ?_⟩
      have begins := starts cs (by simp)
      have whole : newline (depth + 1) ++ (cs ++ rowRest closing depth texts []) ++ rest =
          newline (depth + 1) ++ (cs ++ rowRest closing depth texts rest) := by simp [rowRest]
      have here := first (newline (depth + 1) ++ (cs ++ rowRest closing depth texts rest)) _
        (by rw [skip_newline, begins.skip]) (undigited_rowRest _ _ _ _)
      have there : partsOn part closing _ (rowRest closing depth texts rest) = some (xs, rest) :=
        partsOn_rowRest bracket later (fun cs member => starts cs (by simp [member]))
          (length_lt_rowRest closing depth texts rest) rest
      rw [whole, rowOn, here, skip_newline, begins.skip]
      obtain ⟨c, cs, rfl, -, notList, notRecord⟩ := begins
      have other : c ≠ closing := by rcases bracket with rfl | rfl <;> assumption
      simp [other, there]

end

/-! ### Documents -/

/-- A part is shorter than the row that it stands in. -/
theorem length_lt_bracketed {opening closing : Char} {depth : Nat} {texts : List (List Char)}
    {cs : List Char} (member : cs ∈ texts) : cs.length < (bracketed opening closing depth texts).length := by
  cases texts with
  | nil => cases member
  | cons first texts =>
      rcases List.mem_cons.1 member with rfl | later
      · simp only [bracketed, List.length_append, List.length_cons]
        omega
      · obtain ⟨front, back, rfl⟩ := List.append_of_mem later
        simp only [bracketed, List.flatMap_append, List.flatMap_cons, List.length_append, List.length_cons]
        omega

theorem starts_quote (s : String) (rest : List Char) : Starts (quote s ++ rest) :=
  ⟨'"', _, rfl, by decide, by decide, by decide⟩

theorem starts_bracketed {opening closing : Char} (depth : Nat) (texts : List (List Char))
    (solid : isSpace opening = false) (notList : opening ≠ ']') (notRecord : opening ≠ '\x7d') :
    Starts (bracketed opening closing depth texts) := by
  cases texts with
  | nil => exact ⟨opening, _, rfl, solid, notList, notRecord⟩
  | cons first texts => exact ⟨opening, _, rfl, solid, notList, notRecord⟩

theorem ne_of_isDigit {c other : Char} (digit : Decimal.isDigit c = true)
    (undigit : Decimal.isDigit other = false) : c ≠ other := by
  rintro rfl
  rw [digit] at undigit
  cases undigit

/-- The text of a number begins with a digit. -/
theorem exists_digit_repr (n : Nat) : ∃ c rest, n.repr.toList = c :: rest ∧ Decimal.isDigit c = true := by
  obtain ⟨digits, -, some, -⟩ := Decimal.toDigits_spec n
  obtain ⟨c, rest, spelled⟩ := List.exists_cons_of_ne_nil some
  rw [Nat.repr_eq_ofList_toDigits, String.toList_ofList, spelled]
  rw [spelled] at digits
  exact ⟨c, rest, rfl, digits c List.mem_cons_self⟩

theorem starts_chars (depth : Nat) (j : Json) : Starts (chars depth j) := by
  cases j with
  | number n =>
      obtain ⟨c, rest, spelled, digit⟩ := exists_digit_repr n
      refine ⟨c, rest, spelled, ?_, ne_of_isDigit digit rfl, ne_of_isDigit digit rfl⟩
      simp only [isSpace, Bool.or_eq_false_iff, beq_eq_false_iff_ne]
      exact ⟨⟨⟨ne_of_isDigit digit rfl, ne_of_isDigit digit rfl⟩, ne_of_isDigit digit rfl⟩,
        ne_of_isDigit digit rfl⟩
  | text s =>
      have starts := starts_quote s []
      rwa [List.append_nil] at starts
  | list items => exact starts_bracketed depth _ (by decide) (by decide) (by decide)
  | record fields => exact starts_bracketed depth _ (by decide) (by decide) (by decide)

/-- A field is read back from its text if its value is. -/
theorem reads_field {value : Reader Json} {cs : List Char} {j : Json} (name : String) (starts : Starts cs)
    (reads : Reads value cs j) : Reads (fieldOn value) (quote name ++ ':' :: ' ' :: cs) (name, j) := by
  intro whole rest start ends
  have spaced : skip (' ' :: (cs ++ rest)) = cs ++ rest := starts.skip rest
  have named : quote name ++ ':' :: ' ' :: cs ++ rest =
      '"' :: (name.toList.flatMap escape ++ '"' :: ':' :: ' ' :: (cs ++ rest)) := by simp [quote]
  have colon : skip (':' :: ' ' :: (cs ++ rest)) = ':' :: ' ' :: (cs ++ rest) := skip_of_solid rfl _
  rw [fieldOn, start, named]
  simp [textOn_escapes, colon, reads _ rest spaced ends]

/-- A number is read back from its text. -/
theorem reads_number (n levels : Nat) : Reads (valueOn (levels + 1)) n.repr.toList (number n) := by
  intro whole rest start ends
  have read := numberOn_repr n ends
  obtain ⟨c, cs, spelled, digit⟩ := exists_digit_repr n
  rw [spelled] at start read
  rw [valueOn, start]
  split
  case h_1 same => exact absurd (List.cons.inj same).1 (ne_of_isDigit digit rfl)
  case h_2 same => exact absurd (List.cons.inj same).1 (ne_of_isDigit digit rfl)
  case h_3 same => exact absurd (List.cons.inj same).1 (ne_of_isDigit digit rfl)
  case h_4 =>
    rw [read]
    rfl

theorem starts_itemChars (depth : Nat) (items : List Json) : ∀ cs ∈ itemChars depth items, Starts cs := by
  induction items with
  | nil => simp [itemChars]
  | cons item rest ih =>
      intro cs member
      rcases List.mem_cons.1 member with rfl | later
      · exact starts_chars depth item
      · exact ih cs later

theorem starts_fieldChars (depth : Nat) (fields : List (String × Json)) :
    ∀ cs ∈ fieldChars depth fields, Starts cs := by
  induction fields with
  | nil => simp [fieldChars]
  | cons field rest ih =>
      intro cs member
      rcases List.mem_cons.1 member with rfl | later
      · exact starts_quote field.1 _
      · exact ih cs later

theorem Starts.exists_level {cs : List Char} {levels : Nat} (starts : Starts cs)
    (enough : cs.length ≤ levels) : ∃ inner, levels = inner + 1 := by
  obtain ⟨c, cs, rfl, -⟩ := starts
  exact Nat.exists_eq_succ_of_ne_zero (Nat.ne_of_gt (Nat.lt_of_lt_of_le (Nat.succ_pos _) enough))

mutual

/-- A document is read back from its text. -/
theorem reads_chars (depth levels : Nat) : (j : Json) → (chars depth j).length ≤ levels →
    Reads (valueOn levels) (chars depth j) j
  | number n, enough => by
      obtain ⟨inner, rfl⟩ := (starts_chars depth (number n)).exists_level enough
      exact reads_number n inner
  | text s, enough => by
      obtain ⟨inner, rfl⟩ := (starts_chars depth (text s)).exists_level enough
      intro whole rest start ends
      rw [valueOn, start, chars, quote]
      simp [textOn_escapes]
  | list items, enough => by
      obtain ⟨inner, rfl⟩ := (starts_chars depth (list items)).exists_level enough
      rw [chars] at enough ⊢
      have each := reads_itemChars (depth + 1) inner items fun cs member =>
        Nat.le_of_lt_succ (Nat.lt_of_lt_of_le (length_lt_bracketed member) enough)
      obtain ⟨body, spelled, read⟩ := rowOn_bracketed (.inl rfl) '[' depth each (starts_itemChars _ items)
      intro whole rest start ends
      rw [valueOn, start, spelled, List.cons_append]
      simp [read]
  | record fields, enough => by
      obtain ⟨inner, rfl⟩ := (starts_chars depth (record fields)).exists_level enough
      rw [chars] at enough ⊢
      have each := reads_fieldChars (depth + 1) inner fields fun cs member =>
        Nat.le_of_lt_succ (Nat.lt_of_lt_of_le (length_lt_bracketed member) enough)
      obtain ⟨body, spelled, read⟩ :=
        rowOn_bracketed (.inr rfl) '\x7b' depth each (starts_fieldChars _ fields)
      intro whole rest start ends
      rw [valueOn, start, spelled, List.cons_append]
      simp [read]

theorem reads_itemChars (depth levels : Nat) : (items : List Json) →
    (∀ cs ∈ itemChars depth items, cs.length ≤ levels) →
    List.Forall₂ (Reads (valueOn levels)) (itemChars depth items) items
  | [], _ => .nil
  | item :: rest, enough =>
      .cons (reads_chars depth levels item (enough _ List.mem_cons_self))
        (reads_itemChars depth levels rest fun cs member => enough cs (List.mem_cons_of_mem _ member))

theorem reads_fieldChars (depth levels : Nat) : (fields : List (String × Json)) →
    (∀ cs ∈ fieldChars depth fields, cs.length ≤ levels) →
    List.Forall₂ (Reads (fieldOn (valueOn levels))) (fieldChars depth fields) fields
  | [], _ => .nil
  | (name, value) :: rest, enough => by
      have short : (chars depth value).length ≤ levels := by
        have := enough _ List.mem_cons_self
        simp only [List.length_append, List.length_cons] at this
        omega
      exact .cons (reads_field name (starts_chars depth value) (reads_chars depth levels value short))
        (reads_fieldChars depth levels rest fun cs member => enough cs (List.mem_cons_of_mem _ member))

end

/-- The text of a document spells it, and spells nothing else. -/
theorem read?_pretty (j : Json) : read? j.pretty = some j := by
  have begins := (starts_chars 0 j).skip []
  have read := reads_chars 0 (chars 0 j).length j (Nat.le_refl _) (chars 0 j) []
    (by simpa using begins) (by simp)
  rw [read?, pretty, String.toList_ofList, read]
  rfl

example : read? " [10 , \"a\\u0062\\/\"]" = some (list [number 10, text "ab/"]) := by rfl

example : (read? "[1,]").isNone := by decide

end SecureElement.Manifest.Json
