import SecureElement.Proofs.Chip.Reports
import SecureElement.Proofs.Lists.Cuts
import SecureElement.Proofs.Pem.Boundaries
import SecureElement.Proofs.Text.Patterns

/-!
The signing request in a report.

A block is made of the words that begin and end a request, each with dashes on both sides, and of any text in
between (`IsBlock`). The request in a report is the block that begins furthest to the left and, of those that
begin there, the longest (`BlockParts`). It is cut out at the first place where a request begins and the last
where one ends (`requestChars_eq_some_iff`), and is what `requestPattern` finds, although five runs of that
pattern take what they can from one another (`find?_requestPattern`).
-/

namespace SecureElement

namespace Text

variable {α : Type} [BEq α] [LawfulBEq α]

/-- A list is cut somewhere if a part of it stands anywhere. -/
theorem exists_cutAt {needle xs before after : List α} (cut : xs = before ++ (needle ++ after)) :
    ∃ sides, cutAt needle xs = some sides := by
  induction before generalizing xs with
  | nil =>
      subst cut
      cases needle with
      | nil => cases after <;> exact ⟨_, rfl⟩
      | cons c needle =>
          exact ⟨_, if_pos (List.isPrefixOf_iff_prefix.2 (List.prefix_append _ _))⟩
  | cons c before ih =>
      subst cut
      obtain ⟨sides, found⟩ := ih rfl
      rw [List.cons_append, cutAt, found]
      split <;> exact ⟨_, rfl⟩

/-- A list is cut at the last place where a part of it stands. -/
theorem cutAtLast_eq_some_iff {needle xs before after : List α} :
    cutAtLast needle xs = some (before, after) ↔ xs = before ++ (needle ++ after) ∧
      ∀ longer shorter, xs = longer ++ (needle ++ shorter) → longer.length ≤ before.length := by
  have turned : ∀ front back : List α, xs.reverse = back.reverse ++ (needle.reverse ++ front.reverse) ↔
      xs = front ++ (needle ++ back) := by
    intro front back
    rw [← List.reverse_append, ← List.reverse_append, List.reverse_inj, List.append_assoc]
  have found : cutAtLast needle xs = some (before, after) ↔
      cutAt needle.reverse xs.reverse = some (after.reverse, before.reverse) := by
    simp only [cutAtLast, Option.map_eq_some_iff, Prod.mk.injEq, Prod.exists]
    constructor
    · rintro ⟨after', before', cut, rfl, rfl⟩
      rw [List.reverse_reverse, List.reverse_reverse]
      exact cut
    · intro cut
      exact ⟨_, _, cut, List.reverse_reverse _, List.reverse_reverse _⟩
  rw [found, cutAt_eq_some_iff, turned]
  refine and_congr_right fun whole => ?_
  -- What is longer before a place is shorter after it.
  have lengths : ∀ front back : List α, xs = front ++ (needle ++ back) →
      (after.length ≤ back.length ↔ front.length ≤ before.length) := by
    intro front back other
    have here := congrArg List.length whole
    have there := congrArg List.length other
    simp only [List.length_append] at here there
    omega
  constructor
  · intro least longer shorter other
    have last := least shorter.reverse longer.reverse ((turned longer shorter).2 other)
    rw [List.length_reverse, List.length_reverse] at last
    exact (lengths longer shorter other).1 last
  · intro last shorter longer other
    rw [← List.reverse_reverse shorter, ← List.reverse_reverse longer, turned] at other
    have least := (lengths _ _ other).2 (last _ _ other)
    rwa [List.length_reverse] at least ⊢

theorem exists_cutAtLast {needle xs before after : List α} (cut : xs = before ++ (needle ++ after)) :
    ∃ sides, cutAtLast needle xs = some sides := by
  have turned : xs.reverse = after.reverse ++ (needle.reverse ++ before.reverse) := by
    rw [cut, List.reverse_append, List.reverse_append, List.append_assoc]
  obtain ⟨sides, found⟩ := exists_cutAt turned
  exact ⟨_, by rw [cutAtLast, found]; rfl⟩

end Text

namespace Report

open Text

/-! ### Blocks -/

/-- The word that begins a request. -/
def beginWord : List Char := "BEGIN CERTIFICATE REQUEST".toList

/-- The word that ends a request. -/
def endWord : List Char := "END CERTIFICATE REQUEST".toList

theorem beginWord_eq : beginWord = 'B' :: "EGIN CERTIFICATE REQUEST".toList := rfl

theorem endWord_eq : endWord = 'E' :: "ND CERTIFICATE REQUEST".toList := rfl

/-- A row of dashes. -/
def dashes (n : Nat) : List Char := List.replicate n '-'

/-- A text is made of the word that begins a request and the one that ends it, each with dashes on both sides,
and any text in between. -/
def IsBlock (block : List Char) : Prop :=
  ∃ a b body c d, block = dashes (a + 1) ++ (beginWord ++ (dashes (b + 1) ++ (body ++
    (dashes (c + 1) ++ (endWord ++ dashes (d + 1))))))

theorem requestBegin_eq : requestBegin = '-' :: (beginWord ++ ['-']) := rfl

theorem requestEnd_eq : requestEnd = '-' :: (endWord ++ ['-']) := rfl

theorem dashes_succ (n : Nat) : dashes (n + 1) = '-' :: dashes n := rfl

theorem dashes_succ_append (n : Nat) (cs : List Char) : dashes (n + 1) ++ cs = dashes n ++ '-' :: cs := by
  rw [dashes, List.replicate_succ', List.append_assoc]
  rfl

/-- Of the dashes on either side of a word it is enough to know one. -/
theorem isBlock_iff {block : List Char} :
    IsBlock block ↔ ∃ a body d,
      block = dashes a ++ (requestBegin ++ (body ++ (requestEnd ++ dashes d))) := by
  constructor
  · rintro ⟨a, b, body, c, d, rfl⟩
    refine ⟨a, dashes b ++ (body ++ dashes c), d, ?_⟩
    rw [dashes_succ_append, dashes_succ_append c, dashes_succ b, dashes_succ d, requestBegin_eq,
      requestEnd_eq]
    simp only [List.append_assoc, List.cons_append, List.nil_append]
  · rintro ⟨a, body, d, rfl⟩
    refine ⟨a, 0, body, 0, d, ?_⟩
    rw [dashes_succ_append, dashes_succ_append 0, dashes_succ d, requestBegin_eq, requestEnd_eq]
    simp [dashes]

/-- A block stands in a report, none further to the left, and none that is longer in its place. -/
structure BlockParts (report before block after : List Char) : Prop where
  whole : report = before ++ (block ++ after)
  isBlock : IsBlock block
  first : ∀ before' block' after', report = before' ++ (block' ++ after') → IsBlock block' →
    before.length ≤ before'.length
  longest : ∀ block' after', report = before ++ (block' ++ after') → IsBlock block' →
    block'.length ≤ block.length

/-- There is one such block at most. -/
theorem BlockParts.unique {report before block after before' block' after' : List Char}
    (parts : BlockParts report before block after) (other : BlockParts report before' block' after') :
    block = block' := by
  have starts : before.length = before'.length := Nat.le_antisymm
    (parts.first _ _ _ other.whole other.isBlock) (other.first _ _ _ parts.whole parts.isBlock)
  obtain ⟨rfl, same⟩ := List.append_inj (parts.whole.symm.trans other.whole) starts
  have ends : block.length = block'.length := Nat.le_antisymm
    (other.longest _ _ parts.whole parts.isBlock) (parts.longest _ _ other.whole other.isBlock)
  exact (List.append_inj same ends).1

/-! ### The longest block at a place -/

/-- Dashes in front of something that does not begin with a dash are counted in one way only. -/
theorem dashes_append_inj {a b : Nat} {xs ys : List Char} (here : ∀ c ∈ xs.head?, c ≠ '-')
    (there : ∀ c ∈ ys.head?, c ≠ '-') (same : dashes a ++ xs = dashes b ++ ys) : a = b ∧ xs = ys := by
  induction a generalizing b with
  | zero =>
      cases b with
      | zero => exact ⟨rfl, same⟩
      | succ b =>
          obtain rfl : xs = '-' :: (dashes b ++ ys) := same
          exact absurd rfl (here '-' rfl)
  | succ a ih =>
      cases b with
      | zero =>
          obtain rfl : '-' :: (dashes a ++ xs) = ys := same
          exact absurd rfl (there '-' rfl)
      | succ b =>
          obtain ⟨rfl, rest_same⟩ := ih (List.cons.inj same).2
          exact ⟨rfl, rest_same⟩

theorem head?_beginWord_append (rest : List Char) : ∀ c ∈ (beginWord ++ rest).head?, c ≠ '-' := by
  rintro c ⟨⟩
  decide

theorem head?_endWord_append (rest : List Char) : ∀ c ∈ (endWord ++ rest).head?, c ≠ '-' := by
  rintro c ⟨⟩
  decide

/-- The dashes before the word that begins a request are all those in front of it. -/
theorem dashes_requestBegin_inj {a a' : Nat} {rest rest' : List Char}
    (same : dashes a ++ (requestBegin ++ rest) = dashes a' ++ (requestBegin ++ rest')) :
    a = a' ∧ rest = rest' := by
  have split : ∀ n cs, dashes n ++ (requestBegin ++ cs) = dashes (n + 1) ++ (beginWord ++ '-' :: cs) := by
    intro n cs
    rw [dashes_succ_append, requestBegin_eq, List.cons_append, List.append_assoc]
    rfl
  rw [split, split] at same
  obtain ⟨count, words⟩ := dashes_append_inj (head?_beginWord_append _) (head?_beginWord_append _) same
  exact ⟨Nat.succ.inj count, (List.cons.inj (List.append_cancel_left words)).2⟩

/-- The ends of two requests stand apart, with the dashes after the first of them. -/
theorem length_of_requestEnd {between after after' : List Char} {d : Nat} (apart : between ≠ [])
    (same : requestEnd ++ (dashes d ++ after') = between ++ (requestEnd ++ after)) :
    d ≤ between.length := by
  have dash : (requestEnd ++ (dashes d ++ after'))[between.length]? = some '-' := by
    rw [same, List.getElem?_append_right (Nat.le_refl _), Nat.sub_self]
    rfl
  have letter : (requestEnd ++ (dashes d ++ after'))[between.length + 1]? = some 'E' := by
    rw [same, List.getElem?_append_right (Nat.le_add_right _ _), Nat.add_sub_cancel_left]
    rfl
  have positive := List.length_pos_iff.2 apart
  have size : requestEnd.length = 25 := rfl
  by_contra short
  by_cases inside : between.length < 24
  · have none : ∀ k : Fin 24, k.val ≠ 0 → requestEnd[k.val]? ≠ some '-' := by decide
    rw [List.getElem?_append_left (by omega)] at dash
    exact none ⟨between.length, inside⟩ (Nat.ne_of_gt positive) dash
  · rw [List.getElem?_append_right (by omega), List.getElem?_append_left (by simp [dashes]; omega), dashes,
      List.getElem?_replicate, if_pos (by omega)] at letter
    cases letter

theorem isDash_dash : isDash '-' = true := rfl

theorem isDash_of_mem {n : Nat} {c : Char} (member : c ∈ dashes n) : isDash c = true := by
  rw [List.eq_of_mem_replicate member]
  rfl

theorem exists_dashes {row : List Char} (dash : ∀ c ∈ row, isDash c = true) : ∃ n, row = dashes n :=
  ⟨row.length, List.eq_replicate_of_mem fun c member => by simpa [isDash] using dash c member⟩

/-- No block is longer than the one that ends at the last place where a request ends. -/
theorem length_le_of_cutAtLast {a : Nat} {rest body after block left : List Char}
    (cut : cutAtLast requestEnd rest = some (body, after)) (isBlock : IsBlock block)
    (same : dashes a ++ (requestBegin ++ rest) = block ++ left) :
    block.length ≤
      (dashes a ++ (requestBegin ++ (body ++ (requestEnd ++ after.takeWhile isDash)))).length := by
  obtain ⟨a', body', d, rfl⟩ := isBlock_iff.1 isBlock
  simp only [List.append_assoc] at same
  obtain ⟨rfl, rfl⟩ := dashes_requestBegin_inj same
  obtain ⟨whole, last⟩ := cutAtLast_eq_some_iff.1 cut
  obtain ⟨between, rfl, ends⟩ := Lists.exists_of_append_le whole (last _ _ rfl)
  have bound : d ≤ between.length + (after.takeWhile isDash).length := by
    by_cases apart : between = []
    · subst apart
      obtain rfl := List.append_cancel_left ends
      rw [List.takeWhile_append_of_pos fun _ => isDash_of_mem, List.length_append, dashes,
        List.length_replicate]
      omega
    · exact Nat.le_add_right_of_le (length_of_requestEnd apart ends)
  simp only [List.length_append, dashes, List.length_replicate]
  omega

/-- A block that stands at the start of a text, and is the longest there. -/
structure LongestBlock (cs block : List Char) : Prop where
  starts : ∃ after, cs = block ++ after
  isBlock : IsBlock block
  longest : ∀ block' after, cs = block' ++ after → IsBlock block' → block'.length ≤ block.length

theorem LongestBlock.unique {cs first second : List Char} (here : LongestBlock cs first)
    (there : LongestBlock cs second) : first = second := by
  obtain ⟨after, whole⟩ := here.starts
  obtain ⟨after', whole'⟩ := there.starts
  have ends : first.length = second.length := Nat.le_antisymm
    (there.longest _ _ whole here.isBlock) (here.longest _ _ whole' there.isBlock)
  exact (List.append_inj (whole.symm.trans whole') ends).1

/-- The longest block at a place takes all dashes there and all dashes after the last end of a request. -/
theorem longestBlock_iff {cs block : List Char} :
    LongestBlock cs block ↔ ∃ a rest body after, cs = dashes a ++ (requestBegin ++ rest) ∧
      cutAtLast requestEnd rest = some (body, after) ∧
      block = dashes a ++ (requestBegin ++ (body ++ (requestEnd ++ after.takeWhile isDash))) := by
  have longest : ∀ {a rest body after}, cutAtLast requestEnd rest = some (body, after) →
      LongestBlock (dashes a ++ (requestBegin ++ rest))
        (dashes a ++ (requestBegin ++ (body ++ (requestEnd ++ after.takeWhile isDash)))) := by
    intro a rest body after cut
    constructor
    case starts =>
      refine ⟨after.dropWhile isDash, ?_⟩
      simp only [List.append_assoc, List.takeWhile_append_dropWhile]
      rw [(cutAtLast_eq_some_iff.1 cut).1]
    case isBlock =>
      obtain ⟨d, row⟩ := exists_dashes fun c (member : c ∈ after.takeWhile isDash) =>
        List.mem_takeWhile_imp member
      rw [row]
      exact isBlock_iff.2 ⟨a, body, d, rfl⟩
    case longest => exact fun block' left same isBlock => length_le_of_cutAtLast cut isBlock same
  constructor
  · intro here
    obtain ⟨left, whole⟩ := here.starts
    obtain ⟨a, body, d, spelled⟩ := isBlock_iff.1 here.isBlock
    obtain ⟨⟨body', after⟩, cut⟩ := exists_cutAtLast
      (rfl : body ++ (requestEnd ++ (dashes d ++ left)) = body ++ (requestEnd ++ (dashes d ++ left)))
    have start : cs = dashes a ++ (requestBegin ++ (body ++ (requestEnd ++ (dashes d ++ left)))) := by
      rw [whole, spelled]
      simp only [List.append_assoc]
    exact ⟨a, _, body', after, start, cut, here.unique (start ▸ longest cut)⟩
  · rintro ⟨a, rest, body, after, rfl, cut, rfl⟩
    exact longest cut

/-- Where a block stands at the start of a text, there is a longest one. -/
theorem exists_longestBlock {block : List Char} (isBlock : IsBlock block) (after : List Char) :
    ∃ longest, LongestBlock (block ++ after) longest := by
  obtain ⟨a, body, d, rfl⟩ := isBlock_iff.1 isBlock
  obtain ⟨sides, cut⟩ := exists_cutAtLast
    (rfl : body ++ (requestEnd ++ (dashes d ++ after)) = body ++ (requestEnd ++ (dashes d ++ after)))
  refine ⟨_, longestBlock_iff.2 ⟨a, _, sides.1, sides.2, ?_, cut, rfl⟩⟩
  simp only [List.append_assoc]

/-! ### The block in a report -/

/-- What is cut out of a report is the leftmost block and the longest of those. -/
theorem exists_blockParts_of_requestChars {report block : List Char}
    (found : requestChars report = some block) : ∃ before after, BlockParts report before block after := by
  simp only [requestChars, Option.bind_eq_bind, Option.bind_eq_some_iff, Prod.exists,
    Option.some.injEq] at found
  obtain ⟨front, rest, opened, body, after, closed, rfl⟩ := found
  obtain ⟨whole, least⟩ := cutAt_eq_some_iff.1 opened
  -- What stands before the block does not end in a dash.
  have split : front = (front.reverse.dropWhile isDash).reverse ++ takeWhileEnd isDash front := by
    rw [takeWhileEnd, ← List.reverse_append, List.takeWhile_append_dropWhile, List.reverse_reverse]
  have stops : ∀ c ∈ (front.reverse.dropWhile isDash).reverse.getLast?, isDash c = false := by
    intro c last
    rw [List.getLast?_reverse] at last
    exact head_dropWhile c last
  generalize (front.reverse.dropWhile isDash).reverse = before at split stops
  obtain ⟨a, row⟩ := exists_dashes fun c (member : c ∈ takeWhileEnd isDash front) =>
    List.mem_takeWhile_imp (List.mem_reverse.1 member)
  rw [row] at split ⊢
  subst split
  rw [List.append_assoc] at whole
  simp only [List.append_assoc]
  have here := longestBlock_iff.2 ⟨a, rest, body, after, rfl, closed, rfl⟩
  obtain ⟨left, tail⟩ := here.starts
  refine ⟨before, left, by rw [whole, tail], here.isBlock, ?_, ?_⟩
  · intro before' block' after' other isBlock
    obtain ⟨a', body', d, rfl⟩ := isBlock_iff.1 isBlock
    simp only [List.append_assoc] at other
    have later := least (before' ++ dashes a') _ (other.trans (List.append_assoc _ _ _).symm)
    simp only [List.length_append, dashes, List.length_replicate] at later
    by_contra further
    obtain ⟨between, rfl, same⟩ := Lists.exists_of_append_le (other.symm.trans whole) (by omega)
    rw [List.length_append] at later further
    have apart : between ≠ [] := by
      rintro rfl
      simp at further
    obtain ⟨more, dashed, -⟩ := Lists.exists_of_append_le same.symm
      (by simp only [dashes, List.length_replicate]; omega)
    have dash := isDash_of_mem (n := a') (dashed ▸ List.mem_append_left more (List.getLast_mem apart))
    have none := stops (between.getLast apart)
      (by rw [Option.mem_def, List.getLast?_append, List.getLast?_eq_some_getLast apart, Option.some_or])
    rw [dash] at none
    cases none
  · intro block' after' other isBlock
    exact here.longest block' after' (List.append_cancel_left (whole.symm.trans other)) isBlock

/-- A block is cut out wherever one stands. -/
theorem exists_requestChars {report before block after : List Char}
    (whole : report = before ++ (block ++ after)) (isBlock : IsBlock block) :
    ∃ found, requestChars report = some found := by
  obtain ⟨a, body, d, rfl⟩ := isBlock_iff.1 isBlock
  have opens : report = (before ++ dashes a) ++ (requestBegin ++
      (body ++ (requestEnd ++ (dashes d ++ after)))) := by
    rw [whole]
    simp only [List.append_assoc]
  obtain ⟨⟨front, rest⟩, opened⟩ := exists_cutAt opens
  obtain ⟨cut, least⟩ := cutAt_eq_some_iff.1 opened
  have early := least _ _ opens
  have same : (front ++ requestBegin) ++ rest =
      (before ++ dashes a ++ requestBegin ++ body) ++ (requestEnd ++ (dashes d ++ after)) := by
    rw [List.append_assoc, ← cut, opens]
    simp only [List.append_assoc]
  obtain ⟨between, -, tail⟩ := Lists.exists_of_append_le same (by simp only [List.length_append] at early ⊢; omega)
  obtain ⟨⟨inner, left⟩, closed⟩ := exists_cutAtLast tail
  simp only [requestChars, Option.bind_eq_bind, opened, Option.bind_some, closed]
  exact ⟨_, rfl⟩

/-- The block that is cut out of a report is the leftmost, and the longest of those. -/
theorem requestChars_eq_some_iff {report block : List Char} :
    requestChars report = some block ↔ ∃ before after, BlockParts report before block after := by
  constructor
  · exact exists_blockParts_of_requestChars
  · rintro ⟨before, after, parts⟩
    obtain ⟨found, cut⟩ := exists_requestChars parts.whole parts.isBlock
    obtain ⟨before', after', other⟩ := exists_blockParts_of_requestChars cut
    rw [cut, parts.unique other]

/-! ### Blocks among other text -/

theorem IsBlock.ends {block : List Char} (isBlock : IsBlock block) :
    block.head? = some '-' ∧ block.getLast? = some '-' := by
  obtain ⟨a, b, body, c, d, rfl⟩ := isBlock
  have row : dashes (d + 1) = dashes d ++ ['-'] := List.replicate_succ'
  refine ⟨rfl, ?_⟩
  rw [row]
  simp only [← List.append_assoc, List.getLast?_append, List.getLast?_singleton, Option.some_or]

/-- If no dash stands around a block, it is the one of the report. -/
theorem IsBlock.blockParts {before block after : List Char} (isBlock : IsBlock block)
    (front : '-' ∉ before) (back : '-' ∉ after) :
    BlockParts (before ++ (block ++ after)) before block after := by
  refine ⟨rfl, isBlock, ?_, ?_⟩
  · intro before' block' after' other isBlock'
    by_contra further
    obtain ⟨between, rfl, same⟩ := Lists.exists_of_append_le other.symm (by omega)
    have apart : between ≠ [] := by
      rintro rfl
      simp at further
    obtain ⟨c, between, rfl⟩ := List.exists_cons_of_ne_nil apart
    obtain ⟨left, rfl⟩ := List.head?_eq_some_iff.1 isBlock'.ends.1
    obtain rfl := (List.cons.inj same).1
    exact front (by simp)
  · intro block' after' other isBlock'
    by_contra longer
    obtain ⟨between, rfl, rfl⟩ := Lists.exists_of_append_le (List.append_cancel_left other) (by omega)
    have apart : between ≠ [] := by
      rintro rfl
      simp at longer
    have last := isBlock'.ends.2
    rw [List.getLast?_append, List.getLast?_eq_some_getLast apart, Option.some_or,
      Option.some.injEq] at last
    exact back (List.mem_append_left _ (last ▸ List.getLast_mem apart))

/-! ### The pattern of a request -/

/-- What ends a block: the word that ends a request, with dashes on both sides. -/
def closingPattern : Pattern :=
  .next (.oneOrMore isDash) (.next (.word endWord) (.oneOrMore isDash))

/-- A block: the word that begins a request, with dashes on both sides, any text, and what ends a block. -/
def requestPattern : Pattern :=
  .next (.oneOrMore isDash) (.next (.word beginWord) (.next (.oneOrMore isDash)
    (.next (.many fun _ => true) closingPattern)))

section

variable {α : Type} {go : List Char → Option α}

/-- No word that begins with something else begins with a dash. -/
theorem run_word_of_dash {word chars rest : List Char} {c : Char} {p : Pattern} (spelled : word = c :: chars)
    (other : '-' ≠ c) : (Pattern.next (.word word) p).run go ('-' :: rest) = none := by
  rw [spelled, Pattern.run, Pattern.word, Pattern.run, Pattern.run, if_neg (by simpa using other)]

/-- A row of dashes before something that does not begin with a dash is passed over as a whole. -/
theorem run_dashes (refuses : ∀ rest, go ('-' :: rest) = none) {cs : List Char} {result : α} :
    (Pattern.oneOrMore isDash).run go cs = some result ↔
      ∃ n rest, cs = dashes (n + 1) ++ rest ∧ go rest = some result := by
  have stops : ∀ c rest, isDash c = true → go (c :: rest) = none := by
    intro c rest dash
    obtain rfl : c = '-' := by simpa [isDash] using dash
    exact refuses rest
  constructor
  · intro found
    cases cs with
    | nil => cases found
    | cons c rest =>
        rw [Pattern.run_oneOrMore stops] at found
        split at found
        case isTrue dash =>
          obtain rfl : c = '-' := by simpa [isDash] using dash
          obtain ⟨n, row⟩ := exists_dashes fun c (member : c ∈ rest.takeWhile isDash) =>
            List.mem_takeWhile_imp member
          refine ⟨n, rest.dropWhile isDash, ?_, found⟩
          rw [dashes_succ, ← row, List.cons_append, List.takeWhile_append_dropWhile]
        case isFalse => cases found
  · rintro ⟨n, rest, rfl, found⟩
    have solid : rest.dropWhile isDash = rest := by
      cases rest with
      | nil => rfl
      | cons c rest =>
          refine List.dropWhile_cons_of_neg fun dash => ?_
          rw [stops c rest dash] at found
          cases found
    rw [dashes_succ, List.cons_append, Pattern.run_oneOrMore stops, if_pos isDash_dash,
      List.dropWhile_append_of_pos fun _ => isDash_of_mem, solid, found]

/-- Dashes that anything may follow are passed over as a whole, too. -/
theorem run_dashes_of_total (total : ∀ cs, go cs ≠ none) {cs : List Char} {result : α} :
    (Pattern.oneOrMore isDash).run go cs = some result ↔
      ∃ rest, cs = '-' :: rest ∧ go (rest.dropWhile isDash) = some result := by
  cases cs with
  | nil => simp [Pattern.oneOrMore, Pattern.run]
  | cons c rest =>
      obtain ⟨reached, found⟩ := Option.ne_none_iff_exists'.1 (total (rest.dropWhile isDash))
      have passed : longestFirst isDash go rest = go (rest.dropWhile isDash) := by
        rw [found, longestFirst_of_some found]
      simp only [Pattern.oneOrMore, Pattern.run, passed, List.cons.injEq]
      constructor
      · intro here
        split at here
        case isTrue dash => exact ⟨rest, ⟨by simpa [isDash] using dash, rfl⟩, here⟩
        case isFalse => cases here
      · rintro ⟨_, ⟨rfl, rfl⟩, here⟩
        rw [if_pos isDash_dash, here]

theorem run_closingPattern (total : ∀ cs, go cs ≠ none) {cs : List Char} {result : α} :
    closingPattern.run go cs = some result ↔ ∃ c after, cs = dashes c ++ (requestEnd ++ after) ∧
      go (after.dropWhile isDash) = some result := by
  rw [closingPattern, Pattern.run, run_dashes fun rest => run_word_of_dash endWord_eq (by decide)]
  simp only [Pattern.run, Pattern.run_word, Option.bind_eq_some_iff, withoutStart_eq_some_iff,
    run_dashes_of_total total]
  constructor
  · rintro ⟨c, _, rfl, _, rfl, after, rfl, found⟩
    refine ⟨c, after, ?_, found⟩
    rw [dashes_succ_append, requestEnd_eq, List.cons_append, List.append_assoc]
    rfl
  · rintro ⟨c, after, rfl, found⟩
    refine ⟨c, endWord ++ '-' :: after, ?_, '-' :: after, rfl, after, rfl, found⟩
    rw [dashes_succ_append, requestEnd_eq, List.cons_append, List.append_assoc]
    rfl

/-- After any text, what ends a block is found at the last place where a request ends. -/
theorem longestFirst_closingPattern (total : ∀ cs, go cs ≠ none) (cs : List Char) :
    longestFirst (fun _ => true) (closingPattern.run go) cs =
      (cutAtLast requestEnd cs).bind fun sides => go (sides.2.dropWhile isDash) := by
  cases cut : cutAtLast requestEnd cs with
  | none =>
      refine longestFirst_any_eq_none_iff.2 fun front back whole => ?_
      by_contra some
      obtain ⟨result, found⟩ := Option.ne_none_iff_exists'.1 some
      obtain ⟨c, after, rfl, -⟩ := (run_closingPattern total).1 found
      obtain ⟨sides, here⟩ := exists_cutAtLast (whole.trans (List.append_assoc _ _ _).symm)
      rw [cut] at here
      cases here
  | some sides =>
      obtain ⟨body, after⟩ := sides
      obtain ⟨whole, last⟩ := cutAtLast_eq_some_iff.1 cut
      obtain ⟨result, found⟩ := Option.ne_none_iff_exists'.1 (total (after.dropWhile isDash))
      rw [Option.bind_some, found]
      refine longestFirst_any_eq_some_iff.2
        ⟨body, requestEnd ++ after, whole, (run_closingPattern total).2 ⟨0, after, rfl, found⟩, ?_⟩
      intro longer shorter other some
      obtain ⟨result', found'⟩ := Option.ne_none_iff_exists'.1 some
      obtain ⟨c, after', rfl, -⟩ := (run_closingPattern total).1 found'
      have within := last _ _ (other.trans (List.append_assoc _ _ _).symm)
      rw [List.length_append] at within
      omega

theorem run_requestPattern (total : ∀ cs, go cs ≠ none) {cs : List Char} {result : α} :
    requestPattern.run go cs = some result ↔ ∃ a rest body after,
      cs = dashes a ++ (requestBegin ++ rest) ∧ cutAtLast requestEnd rest = some (body, after) ∧
      go (after.dropWhile isDash) = some result := by
  -- The dashes after the first word may be those before the last.
  have shared : ∀ {rest : List Char},
      (Pattern.oneOrMore isDash).run (longestFirst (fun _ => true) (closingPattern.run go)) rest = some result ↔
        ∃ rest', rest = '-' :: rest' ∧ ∃ body after, cutAtLast requestEnd rest' = some (body, after) ∧
          go (after.dropWhile isDash) = some result := by
    intro rest
    cases rest with
    | nil => simp [Pattern.oneOrMore, Pattern.run]
    | cons c rest =>
        simp only [Pattern.oneOrMore, Pattern.run, longestFirst_absorbed, longestFirst_closingPattern total,
          List.cons.injEq]
        constructor
        · intro found
          split at found
          case isTrue dash =>
            obtain ⟨⟨body, after⟩, cut, reached⟩ := Option.bind_eq_some_iff.1 found
            exact ⟨rest, ⟨by simpa [isDash] using dash, rfl⟩, body, after, cut, reached⟩
          case isFalse => cases found
        · rintro ⟨_, ⟨rfl, rfl⟩, body, after, cut, reached⟩
          rw [if_pos isDash_dash, cut]
          exact reached
  rw [requestPattern, Pattern.run, run_dashes fun rest => run_word_of_dash beginWord_eq (by decide)]
  simp only [Pattern.run, Pattern.run_word, Option.bind_eq_some_iff, withoutStart_eq_some_iff, shared]
  constructor
  · rintro ⟨a, _, rfl, _, rfl, rest, rfl, body, after, cut, reached⟩
    refine ⟨a, rest, body, after, ?_, cut, reached⟩
    rw [dashes_succ_append, requestBegin_eq, List.cons_append, List.append_assoc]
    rfl
  · rintro ⟨a, rest, body, after, rfl, cut, reached⟩
    refine ⟨a, beginWord ++ '-' :: rest, ?_, '-' :: rest, rfl, rest, rfl, body, after, cut, reached⟩
    rw [dashes_succ_append, requestBegin_eq, List.cons_append, List.append_assoc]
    rfl

end

/-- At every place the pattern matches the longest block. -/
theorem capture_requestPattern {cs block : List Char} :
    Pattern.capture .empty requestPattern cs = some block ↔ LongestBlock cs block := by
  have total : ∀ rest, some (Pattern.matched cs rest) ≠ none := fun _ => Option.some_ne_none _
  rw [Pattern.capture, Pattern.run, run_requestPattern total, longestBlock_iff]
  simp only [Option.some.injEq]
  refine exists_congr fun a => exists_congr fun rest => exists_congr fun body => exists_congr fun after =>
    and_congr_right fun whole => and_congr_right fun cut => ?_
  have split : cs = (dashes a ++ (requestBegin ++ (body ++ (requestEnd ++ after.takeWhile isDash)))) ++
      after.dropWhile isDash := by
    simp only [List.append_assoc, List.takeWhile_append_dropWhile]
    rw [whole, (cutAtLast_eq_some_iff.1 cut).1]
  rw [Pattern.matched_of_append split, eq_comm]

/-- In a report the pattern finds the leftmost block, and the longest of those. -/
theorem find?_requestPattern {report block : List Char} :
    Pattern.find? .empty requestPattern report = some block ↔
      ∃ before after, BlockParts report before block after := by
  rw [Pattern.find?, leftmost_eq_some_iff_of capture_requestPattern]
  constructor
  · rintro ⟨before, rest, rfl, here, least⟩
    obtain ⟨after, rfl⟩ := here.starts
    refine ⟨before, after, rfl, here.isBlock, ?_, ?_⟩
    · intro before' block' after' other isBlock
      obtain ⟨longest, there⟩ := exists_longestBlock isBlock after'
      exact least before' (block' ++ after') longest other there
    · intro block' after' other isBlock
      exact here.longest block' after' (List.append_cancel_left other) isBlock
  · rintro ⟨before, after, parts⟩
    refine ⟨before, block ++ after, parts.whole, ⟨⟨after, rfl⟩, parts.isBlock, ?_⟩, ?_⟩
    · intro block' after' same isBlock
      exact parts.longest block' after' (by rw [parts.whole, same]) isBlock
    · intro before' rest block' whole there
      obtain ⟨after', rfl⟩ := there.starts
      exact parts.first before' block' after' whole there.isBlock

theorem requestChars_eq_find? (report : List Char) :
    requestChars report = Pattern.find? .empty requestPattern report :=
  Option.ext fun _ => requestChars_eq_some_iff.trans find?_requestPattern.symm

/-! ### The block that is found -/

/-- A block with one more dash in front, with one more dash at its end, and up to a later end of a request is a
block. -/
theorem IsBlock.extend {block : List Char} (isBlock : IsBlock block) :
    IsBlock ('-' :: block) ∧ IsBlock (block ++ ['-']) ∧ ∀ front, IsBlock (block ++ (front ++ requestEnd)) := by
  obtain ⟨a, body, d, rfl⟩ := isBlock_iff.1 isBlock
  refine ⟨isBlock_iff.2 ⟨a + 1, body, d, rfl⟩, isBlock_iff.2 ⟨a, body, d + 1, ?_⟩, fun front =>
    isBlock_iff.2 ⟨a, body ++ (requestEnd ++ (dashes d ++ front)), 0, ?_⟩⟩
  · have row := dashes_succ_append d []
    rw [List.append_nil] at row
    simp only [row, List.append_assoc]
  · simp [dashes]

/-- The block takes all dashes in front of it and after it, and no request ends later. -/
theorem BlockParts.bounded {report before block after : List Char}
    (parts : BlockParts report before block after) :
    (∀ c ∈ before.getLast?, c ≠ '-') ∧ (∀ c ∈ after.head?, c ≠ '-') ∧
      ∀ front back, after ≠ front ++ (requestEnd ++ back) := by
  obtain ⟨whole, isBlock, first, longest⟩ := parts
  obtain ⟨inFront, atEnd, later⟩ := isBlock.extend
  refine ⟨?_, ?_, ?_⟩
  · rintro c last rfl
    obtain ⟨shorter, rfl⟩ := List.getLast?_eq_some_iff.1 last
    have sooner := first shorter ('-' :: block) after
      (by rw [whole, List.append_assoc]; rfl) inFront
    rw [List.length_append, List.length_singleton] at sooner
    omega
  · rintro c head rfl
    obtain ⟨left, rfl⟩ := List.head?_eq_some_iff.1 head
    have longer := longest (block ++ ['-']) left (by rw [whole, List.append_assoc]; rfl) atEnd
    rw [List.length_append, List.length_singleton] at longer
    omega
  · rintro front back rfl
    have longer := longest (block ++ (front ++ requestEnd)) back
      (by rw [whole]; simp only [List.append_assoc]) (later front)
    have size : requestEnd.length = 25 := rfl
    simp only [List.length_append] at longer
    omega

/-- There is no white space around a block. -/
theorem trimChars_of_isBlock {block : List Char} (isBlock : IsBlock block) : trimChars block = block := by
  obtain ⟨first, last⟩ := isBlock.ends
  refine trimChars_of_ends ?_ ?_
  · rw [first]
    rintro x ⟨⟩
    decide
  · rw [last]
    rintro x ⟨⟩
    decide

/-- A text of both words, with the same dashes between them. -/
def sharing (a n d : Nat) : List Char :=
  dashes (a + 1) ++ (beginWord ++ (dashes n ++ (endWord ++ dashes (d + 1))))

theorem isBlock_sharing {a n d : Nat} (enough : 2 ≤ n) : IsBlock (sharing a n d) := by
  obtain ⟨n, rfl⟩ := Nat.exists_eq_add_of_le' enough
  refine ⟨a, n, [], 0, d, ?_⟩
  have row : dashes (n + 2) = dashes (n + 1) ++ dashes 1 := List.replicate_succ'
  rw [sharing, row, List.nil_append, List.append_assoc]

/-- In such a text a block needs two dashes at least between the words. -/
theorem two_le_of_sharing {a n d : Nat} {before block after : List Char}
    (whole : sharing a n d = before ++ (block ++ after)) (isBlock : IsBlock block) : 2 ≤ n := by
  obtain ⟨a', b, body, c, d', rfl⟩ := isBlock
  -- All but the two words are dashes.
  have rows : ∀ k, (dashes k).countP (!isDash ·) = 0 := fun k =>
    List.countP_eq_zero.2 fun x member => by simp [isDash_of_mem member]
  have counts := congrArg (List.countP (!isDash ·)) whole
  simp only [sharing, List.append_assoc, List.countP_append, rows] at counts
  have dashed : ∀ row : List Char, row.countP (!isDash ·) = 0 → ∃ k, row = dashes k := fun row none =>
    exists_dashes fun x member => by simpa using List.countP_eq_zero.1 none x member
  obtain ⟨p, rfl⟩ := dashed before (by omega)
  obtain ⟨q, rfl⟩ := dashed body (by omega)
  simp only [sharing, List.append_assoc] at whole
  have joined : ∀ (i j : Nat) (cs : List Char), dashes i ++ (dashes j ++ cs) = dashes (i + j) ++ cs := by
    intro i j cs
    rw [← List.append_assoc, dashes, dashes, dashes, List.replicate_append_replicate]
  simp only [joined] at whole
  obtain ⟨-, words⟩ := dashes_append_inj (head?_beginWord_append _) (head?_beginWord_append _) whole
  obtain ⟨count, -⟩ := dashes_append_inj (head?_endWord_append _) (head?_endWord_append _)
    (List.append_cancel_left words)
  omega

theorem requestBlock_eq_some_iff {report found : String} :
    requestBlock report = some found ↔
      ∃ before after, BlockParts report.toList before found.toList after := by
  rw [requestBlock, Option.map_eq_some_iff, ← requestChars_eq_some_iff]
  constructor
  · rintro ⟨block, cut, rfl⟩
    rw [cut, String.toList_ofList]
  · exact fun cut => ⟨_, cut, String.ofList_toList⟩

theorem requestBlock_eq_none_iff {report : String} :
    requestBlock report = none ↔ ∀ before block after, report.toList = before ++ (block ++ after) →
      ¬ IsBlock block := by
  rw [requestBlock, Option.map_eq_none_iff]
  constructor
  · intro none before block after whole isBlock
    obtain ⟨found, some⟩ := exists_requestChars whole isBlock
    rw [none] at some
    cases some
  · intro none
    cases found : requestChars report.toList with
    | none => rfl
    | some block =>
        obtain ⟨before, after, parts⟩ := requestChars_eq_some_iff.1 found
        exact absurd parts.isBlock (none _ _ _ parts.whole)

theorem trim_of_requestBlock {report found : String} (here : requestBlock report = some found) :
    Text.trim found = found := by
  obtain ⟨before, after, parts⟩ := requestBlock_eq_some_iff.1 here
  rw [Text.trim, trimChars_of_isBlock parts.isBlock, String.ofList_toList]

/-- For every report: there is no request exactly if no part of the report is a block. Otherwise the request is
the block that begins furthest to the left and, of those that begin there, the longest. It takes all dashes in
front of it and after it, and no request ends later. It is what the pattern of a request finds, where nothing
is trimmed. If only dashes stand between the words that begin and end a request, two of them are enough, and
less are not. -/
theorem requestBlock_leftmost_longest (report : String) :
    (requestBlock report = none ↔ ∀ before block after, report.toList = before ++ (block ++ after) →
      ¬ IsBlock block) ∧
    (∀ found, requestBlock report = some found ↔
      ∃ before after, BlockParts report.toList before found.toList after) ∧
    (∀ before block after, BlockParts report.toList before block after →
      (∀ c ∈ before.getLast?, c ≠ '-') ∧ (∀ c ∈ after.head?, c ≠ '-') ∧
        ∀ front back, after ≠ front ++ (requestEnd ++ back)) ∧
    (requestBlock report = (Pattern.find? .empty requestPattern report.toList).map fun block =>
      Text.trim (String.ofList block)) ∧
    (∀ found ∈ requestBlock report, Text.trim found = found) ∧
    ∀ a n d, requestBlock (String.ofList (sharing a n d)) =
      if 2 ≤ n then some (String.ofList (sharing a n d)) else none := by
  refine ⟨requestBlock_eq_none_iff, fun found => requestBlock_eq_some_iff, fun before block after parts =>
    parts.bounded, ?_, fun found => trim_of_requestBlock, ?_⟩
  · rw [← requestChars_eq_find?, requestBlock]
    cases cut : requestChars report.toList with
    | none => rfl
    | some block =>
        have here : requestBlock report = some (String.ofList block) := by rw [requestBlock, cut]; rfl
        rw [Option.map_some, Option.map_some, trim_of_requestBlock here]
  · intro a n d
    split
    case isTrue enough =>
      refine requestBlock_eq_some_iff.2 ⟨[], [], ?_⟩
      rw [String.toList_ofList]
      refine ⟨(List.append_nil _).symm, isBlock_sharing enough, fun _ _ _ _ _ => Nat.zero_le _, ?_⟩
      intro block after same _
      rw [same, List.nil_append, List.length_append]
      exact Nat.le_add_right _ _
    case isFalse few =>
      refine requestBlock_eq_none_iff.2 fun before block after whole isBlock => few ?_
      rw [String.toList_ofList] at whole
      exact two_le_of_sharing whole isBlock

end Report

end SecureElement
