import Mathlib.Data.List.TakeWhile
import SecureElement.Octets.Utf8
import SecureElement.Text.Blank

/-!
Texts without the white space around them.

`Octets.trimAscii` leaves the part of an octet string between its first and its last octet that are no
white space, which is one part only (`trimAscii_eq`). On ASCII text without vertical tabs it agrees with
`Text.trim`, which goes by the white space of Unicode (`encode_trim_toAscii`).
-/

namespace SecureElement.Text

section

variable {α : Type} {p : α → Bool}

/-- What is left after a run at the start of a list does not continue it. -/
theorem head_dropWhile {xs : List α} : ∀ x ∈ (xs.dropWhile p).head?, p x = false := by
  intro x member
  have stops := List.head?_dropWhile_not p xs
  rw [Option.mem_def.1 member] at stops
  simpa using stops

theorem dropWhile_append_of_head {before after : List α} (all : ∀ x ∈ before, p x = true)
    (head : ∀ x ∈ after.head?, p x = false) : (before ++ after).dropWhile p = after := by
  rw [List.dropWhile_append_of_pos all]
  cases after with
  | nil => rfl
  | cons x rest => rw [List.dropWhile_cons_of_neg (by simp [head x rfl])]

theorem takeWhile_append_of_head {before after : List α} (all : ∀ x ∈ before, p x = true)
    (head : ∀ x ∈ after.head?, p x = false) : (before ++ after).takeWhile p = before := by
  rw [List.takeWhile_append_of_pos all]
  cases after with
  | nil => exact List.append_nil _
  | cons x rest => rw [List.takeWhile_cons_of_neg (by simp [head x rfl]), List.append_nil]

/-- What is left between the runs at both ends of a list does not depend on them. -/
theorem dropEnds_eq {before core after : List α} (leading : ∀ x ∈ before, p x = true)
    (head : ∀ x ∈ core.head?, p x = false) (last : ∀ x ∈ core.getLast?, p x = false)
    (trailing : ∀ x ∈ after, p x = true) :
    (((before ++ core ++ after).dropWhile p).reverse.dropWhile p).reverse = core := by
  by_cases none : core = []
  · subst none
    have all : ∀ x ∈ before ++ [] ++ after, p x = true := by
      intro x member
      simp only [List.append_nil, List.mem_append] at member
      exact member.elim (leading x) (trailing x)
    rw [List.dropWhile_eq_nil_iff.2 all]
    rfl
  · have first : ∀ x ∈ (core ++ after).head?, p x = false := by
      cases core with
      | nil => exact absurd rfl none
      | cons x rest => simpa using head
    have final : ∀ x ∈ core.reverse.head?, p x = false := by
      simpa [List.head?_reverse] using last
    rw [List.append_assoc, dropWhile_append_of_head leading first, List.reverse_append,
      dropWhile_append_of_head (by simpa using trailing) final, List.reverse_reverse]

/-- What is left of a list begins it, once the run at its start is dropped. -/
theorem exists_dropWhile_eq_dropEnds (p : α → Bool) (xs : List α) :
    ∃ after, xs.dropWhile p = ((xs.dropWhile p).reverse.dropWhile p).reverse ++ after ∧
      ∀ x ∈ after, p x = true := by
  have back := List.takeWhile_append_dropWhile (p := p) (l := (xs.dropWhile p).reverse)
  refine ⟨((xs.dropWhile p).reverse.takeWhile p).reverse, ?_, ?_⟩
  · rw [← List.reverse_append, back, List.reverse_reverse]
  · intro x member
    exact List.mem_takeWhile_imp (List.mem_reverse.1 member)

/-- Neither the first nor the last of what is left would be dropped. -/
theorem ends_dropEnds (p : α → Bool) (xs : List α) :
    (∀ x ∈ ((xs.dropWhile p).reverse.dropWhile p).reverse.head?, p x = false) ∧
      ∀ x ∈ ((xs.dropWhile p).reverse.dropWhile p).reverse.getLast?, p x = false := by
  constructor
  · intro x member
    obtain ⟨after, back, -⟩ := exists_dropWhile_eq_dropEnds p xs
    have first : x ∈ (xs.dropWhile p).head? := by
      rw [back, Option.mem_def, List.head?_append, Option.mem_def.1 member, Option.some_or]
    exact head_dropWhile x first
  · intro x member
    rw [List.getLast?_reverse] at member
    exact head_dropWhile x member

/-- A list is what is left of it, with a run before and one after. -/
theorem exists_dropEnds (p : α → Bool) (xs : List α) :
    ∃ before after, xs = before ++ ((xs.dropWhile p).reverse.dropWhile p).reverse ++ after ∧
      (∀ x ∈ before, p x = true) ∧ ∀ x ∈ after, p x = true := by
  obtain ⟨after, back, trailing⟩ := exists_dropWhile_eq_dropEnds p xs
  refine ⟨xs.takeWhile p, after, ?_, fun x member => List.mem_takeWhile_imp member, trailing⟩
  rw [List.append_assoc, ← back, List.takeWhile_append_dropWhile]

end

/-- What is left of a text does not depend on the white space around it. -/
theorem trimChars_eq {before core after : List Char} (leading : ∀ c ∈ before, isBlank c = true)
    (head : ∀ c ∈ core.head?, isBlank c = false) (last : ∀ c ∈ core.getLast?, isBlank c = false)
    (trailing : ∀ c ∈ after, isBlank c = true) : trimChars (before ++ core ++ after) = core :=
  dropEnds_eq leading head last trailing

/-- A text is what is left of it, with white space before and after. -/
theorem exists_trimChars (cs : List Char) :
    ∃ before after, cs = before ++ trimChars cs ++ after ∧
      (∀ c ∈ before, isBlank c = true) ∧ ∀ c ∈ after, isBlank c = true :=
  exists_dropEnds isBlank cs

/-- Nothing is trimmed from a text whose first and last characters are no white space. -/
theorem trimChars_of_ends {cs : List Char} (head : ∀ c ∈ cs.head?, isBlank c = false)
    (last : ∀ c ∈ cs.getLast?, isBlank c = false) : trimChars cs = cs := by
  have trimmed := trimChars_eq (List.forall_mem_nil _) head last (List.forall_mem_nil _)
  rwa [List.nil_append, List.append_nil] at trimmed

theorem trimChars_of_plain {cs : List Char} (plain : ∀ c ∈ cs, isBlank c = false) :
    trimChars cs = cs :=
  trimChars_of_ends (fun c head => plain c (List.mem_of_mem_head? head))
    fun c last => plain c (List.mem_of_getLast? last)

/-- White space around a text is trimmed with the one that the text has itself. -/
theorem trimChars_append {before core after : List Char} (leading : ∀ c ∈ before, isBlank c = true)
    (trailing : ∀ c ∈ after, isBlank c = true) : trimChars (before ++ core ++ after) = trimChars core := by
  obtain ⟨lead, trail, cut, blank, blank'⟩ := exists_trimChars core
  obtain ⟨head, last⟩ := ends_dropEnds isBlank core
  have whole : before ++ core ++ after = (before ++ lead) ++ trimChars core ++ (trail ++ after) :=
    calc before ++ core ++ after = before ++ (lead ++ trimChars core ++ trail) ++ after := by rw [← cut]
      _ = (before ++ lead) ++ trimChars core ++ (trail ++ after) := by simp only [List.append_assoc]
  rw [whole]
  exact trimChars_eq (List.forall_mem_append.2 ⟨leading, blank⟩) head last
    (List.forall_mem_append.2 ⟨blank', trailing⟩)

/-- Characters stand in a text, with white space around them at most. -/
def StandsIn (core : List Char) (text : String) : Prop :=
  ∃ before after, text.toList = before ++ core ++ after ∧ (∀ c ∈ before, isBlank c = true) ∧
    ∀ c ∈ after, isBlank c = true

theorem standsIn_trimChars (text : String) : StandsIn (trimChars text.toList) text :=
  exists_trimChars text.toList

theorem StandsIn.trimChars_eq {core : List Char} {text : String} (stands : StandsIn core text) :
    trimChars text.toList = trimChars core := by
  obtain ⟨before, after, spelled, leading, trailing⟩ := stands
  rw [spelled, trimChars_append leading trailing]

/-- Two texts differ in the white space around them at most. -/
def Alike (a b : String) : Prop :=
  ∃ core, StandsIn core a ∧ StandsIn core b

/-- Texts that differ in the white space around them are trimmed to one text. -/
theorem alike_iff {a b : String} : Alike a b ↔ trim a = trim b := by
  rw [trim, trim, String.ofList_inj]
  constructor
  · rintro ⟨core, here, there⟩
    rw [here.trimChars_eq, there.trimChars_eq]
  · intro same
    exact ⟨_, standsIn_trimChars a, same ▸ standsIn_trimChars b⟩

end SecureElement.Text

namespace SecureElement.Octets

/-- Neither the first nor the last octet is white space. -/
structure Bare (bytes : Octets) : Prop where
  head : ∀ b ∈ bytes.head?, isAsciiBlank b = false
  last : ∀ b ∈ bytes.getLast?, isAsciiBlank b = false

/-- What is left of an octet string does not depend on the white space around it. -/
theorem trimAscii_eq {lead core trail : Octets} (before : ∀ b ∈ lead, isAsciiBlank b = true)
    (bare : Bare core) (after : ∀ b ∈ trail, isAsciiBlank b = true) :
    trimAscii (lead ++ core ++ trail) = core :=
  Text.dropEnds_eq before bare.head bare.last after

/-- An octet string is what is left of it, with white space before and after. -/
theorem exists_trimAscii (bytes : Octets) :
    ∃ lead trail, bytes = lead ++ trimAscii bytes ++ trail ∧
      (∀ b ∈ lead, isAsciiBlank b = true) ∧ (∀ b ∈ trail, isAsciiBlank b = true) :=
  Text.exists_dropEnds isAsciiBlank bytes

theorem bare_trimAscii (bytes : Octets) : Bare (trimAscii bytes) :=
  ⟨(Text.ends_dropEnds isAsciiBlank bytes).1, (Text.ends_dropEnds isAsciiBlank bytes).2⟩

/-! ### Trimming as Unicode has it -/

theorem isBlank_of_ascii {b : UInt8} (ascii : b < 0x80) (other : b ≠ 0x0B) :
    Text.isBlank (Char.ofNat b.toNat) = isAsciiBlank b := by
  have every : ∀ n : Fin 128, n.val ≠ 0x0B →
      Text.isBlank (Char.ofNat n.val) = isAsciiBlank (UInt8.ofNat n.val) := by decide
  have bound : b.toNat < 128 := UInt8.lt_iff_toNat_lt.1 ascii
  have same := every ⟨b.toNat, bound⟩ fun h => other (UInt8.toNat_inj.1 h)
  simpa using same

theorem dropWhile_map_ascii {bytes : Octets}
    (plain : ∀ b ∈ bytes, b < 0x80 ∧ b ≠ 0x0B) :
    (bytes.map fun b => Char.ofNat b.toNat).dropWhile Text.isBlank =
      (bytes.dropWhile isAsciiBlank).map fun b => Char.ofNat b.toNat := by
  induction bytes with
  | nil => rfl
  | cons b rest ih =>
      obtain ⟨ascii, other⟩ := plain b (by simp)
      have later := ih fun c member => plain c (by simp [member])
      rw [List.map_cons, List.dropWhile_cons, List.dropWhile_cons, isBlank_of_ascii ascii other]
      split
      · exact later
      · rfl

/-- On ASCII text without vertical tabs it makes no difference which white space is trimmed. -/
theorem trim_toAscii {bytes : Octets} (plain : ∀ b ∈ bytes, b < 0x80 ∧ b ≠ 0x0B) :
    Text.trim (toAscii bytes) = toAscii (trimAscii bytes) := by
  have kept : ∀ b ∈ bytes.dropWhile isAsciiBlank, b < 0x80 ∧ b ≠ 0x0B := fun b member =>
    plain b (List.dropWhile_sublist _ |>.subset member)
  rw [Text.trim, Text.trimChars, Text.trimStart, Text.trimEnd, toAscii, toAscii, String.toList_ofList,
    dropWhile_map_ascii plain, ← List.map_reverse, dropWhile_map_ascii, ← List.map_reverse]
  · rfl
  · intro b member
    exact kept b (List.mem_reverse.1 member)

theorem encode_toAscii {bytes : Octets} (ascii : ∀ b ∈ bytes, b < 0x80) :
    Utf8.encode (toAscii bytes) = bytes := by
  have every : ∀ n : Fin 128, String.utf8EncodeChar (Char.ofNat n.val) = [UInt8.ofNat n.val] := by
    decide
  rw [Utf8.encode, toAscii, String.toList_ofList]
  induction bytes with
  | nil => rfl
  | cons b rest ih =>
      have bound : b.toNat < 128 := UInt8.lt_iff_toNat_lt.1 (ascii b (by simp))
      have one := every ⟨b.toNat, bound⟩
      simp only [UInt8.ofNat_toNat] at one
      rw [List.map_cons, List.flatMap_cons, one, ih fun c member => ascii c (by simp [member])]
      rfl

/-- The octets of an ASCII text without vertical tabs, trimmed as Unicode has it. -/
theorem encode_trim_toAscii {bytes : Octets} (plain : ∀ b ∈ bytes, b < 0x80 ∧ b ≠ 0x0B) :
    Utf8.encode (Text.trim (toAscii bytes)) = trimAscii bytes := by
  obtain ⟨lead, trail, cut, -⟩ := exists_trimAscii bytes
  rw [trim_toAscii plain]
  refine encode_toAscii fun b member => (plain b ?_).1
  rw [cut]
  simp [member]

end SecureElement.Octets
