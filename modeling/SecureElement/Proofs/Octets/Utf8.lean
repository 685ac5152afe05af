import SecureElement.Octets.Utf8
import SecureElement.Text.Search

/-!
Well-formed octet strings and their texts.

The text of two well-formed strings, one after the other, is their two texts (`decode_append`), and the
text of a well-formed part of a well-formed string is part of its text (`decode_within`): what begins a
character cannot continue one. Every text is read back from its octets (`decode_encode`).
-/

namespace SecureElement.Utf8

variable {α : Type}

theorem allPresent_eq_some_iff {xs : List (Option α)} {ys : List α} :
    allPresent xs = some ys ↔ xs = ys.map some := by
  induction xs generalizing ys with
  | nil => cases ys <;> simp [allPresent]
  | cons x xs ih =>
      cases x with
      | none => cases ys <;> simp [allPresent]
      | some x =>
          cases ys with
          | nil => simp [allPresent]
          | cons y ys =>
              simp only [allPresent, Option.map_eq_some_iff, List.cons.injEq, List.map_cons,
                Option.some.injEq, ih]
              grind

theorem decode_eq_some_iff {bytes : Octets} {text : String} :
    decode bytes = some text ↔ scan bytes = text.toList.map some := by
  simp only [decode, Option.map_eq_some_iff, allPresent_eq_some_iff]
  constructor
  · rintro ⟨chars, scanned, rfl⟩
    rw [scanned, String.toList_ofList]
  · intro scanned
    exact ⟨text.toList, scanned, String.ofList_toList⟩

theorem decode_ne_none_iff {bytes : Octets} :
    (∃ text, decode bytes = some text) ↔ none ∉ scan bytes := by
  constructor
  · rintro ⟨text, decoded⟩ member
    rw [decode_eq_some_iff.1 decoded] at member
    simp at member
  · intro whole
    refine ⟨String.ofList ((scan bytes).filterMap id), decode_eq_some_iff.2 ?_⟩
    rw [String.toList_ofList]
    generalize scan bytes = found at whole
    induction found with
    | nil => rfl
    | cons c rest ih =>
        cases c with
        | none => simp at whole
        | some c =>
            simp only [List.mem_cons, reduceCtorEq, false_or] at whole
            simpa using ih whole

@[simp] theorem decode_nil : decode [] = some "" := rfl

/-- Octets that are a text are read as that text with replacements allowed. -/
theorem decodeLossy_of_decode {bytes : Octets} {text : String} (decoded : decode bytes = some text) :
    decodeLossy bytes = text := by
  rw [decodeLossy, decode_eq_some_iff.1 decoded, List.map_map]
  have same : ((fun c => Option.getD c (Char.ofNat 0xFFFD)) ∘ some) = (id : Char → Char) := rfl
  rw [same, List.map_id, String.ofList_toList]

/-! ### Two strings, one after the other -/

theorem scanFrom_cons (state : State) (b : UInt8) (rest : Octets) :
    scanFrom state (b :: rest) = (step state b).2 ++ scanFrom (step state b).1 rest := by
  cases state <;> rfl

/-- A scan that ends between two characters goes on with the next string from its start. -/
theorem scanFrom_append {state : State} {first : Octets} (whole : none ∉ scanFrom state first)
    (second : Octets) : scanFrom state (first ++ second) = scanFrom state first ++ scan second := by
  induction first generalizing state with
  | nil =>
      cases state with
      | start => rfl
      | inside => simp [scanFrom] at whole
  | cons b rest ih =>
      rw [scanFrom_cons] at whole
      rw [List.cons_append, scanFrom_cons, scanFrom_cons, ih fun later => whole (by simp [later]),
        List.append_assoc]

theorem scan_append {first : Octets} {text : String} (decoded : decode first = some text)
    (second : Octets) : scan (first ++ second) = scan first ++ scan second :=
  scanFrom_append (decode_ne_none_iff.1 ⟨text, decoded⟩) second

theorem decode_append {first second : Octets} {text later : String}
    (here : decode first = some text) (there : decode second = some later) :
    decode (first ++ second) = some (text ++ later) := by
  rw [decode_eq_some_iff, scan_append here, decode_eq_some_iff.1 here, decode_eq_some_iff.1 there,
    String.toList_append, List.map_append]

/-- The texts of those strings that are well formed, one after the other. -/
def texts (pieces : List Octets) : String :=
  String.join (pieces.filterMap decode)

@[simp] theorem texts_nil : texts [] = "" := rfl

theorem texts_cons_of_some {piece : Octets} {text : String} (decoded : decode piece = some text)
    (pieces : List Octets) : texts (piece :: pieces) = text ++ texts pieces := by
  simp [texts, decoded, String.join_cons]

theorem texts_cons_of_none {piece : Octets} (malformed : decode piece = none)
    (pieces : List Octets) : texts (piece :: pieces) = texts pieces := by
  simp [texts, malformed]

theorem texts_cons (piece : Octets) (pieces : List Octets) :
    texts (piece :: pieces) = texts [piece] ++ texts pieces := by
  cases decoded : decode piece with
  | none => simp [texts_cons_of_none decoded]
  | some text => simp [texts_cons_of_some decoded]

/-- How a well-formed string is cut does not matter, if the pieces are well formed. -/
theorem decode_flatten {pieces : List Octets}
    (each : ∀ piece ∈ pieces, ∃ text, decode piece = some text) :
    decode pieces.flatten = some (texts pieces) := by
  induction pieces with
  | nil => rfl
  | cons piece rest ih =>
      obtain ⟨text, decoded⟩ := each piece (by simp)
      have later := ih fun piece member => each piece (by simp [member])
      rw [List.flatten_cons, decode_append decoded later, texts_cons_of_some decoded]

/-! ### Parts of a string -/

/-- Inside a character only octets from `0x80` to `0xBF` are waited for. -/
def State.Continues : State → Prop
  | .start => True
  | .inside _ low high _ => 0x80 ≤ low ∧ high ≤ 0xBF

theorem continues_first (b : UInt8) : (first b).1.Continues := by
  unfold first
  repeat' split
  all_goals simp only [State.Continues]
  all_goals decide

theorem continues_step {state : State} (continues : state.Continues) (b : UInt8) :
    (step state b).1.Continues := by
  cases state with
  | start => exact continues_first b
  | inside owed low high value =>
      simp only [step]
      split
      · split
        · simp only [State.Continues]
          decide
        · trivial
      · exact continues_first b

/-- An octet that continues a character begins none. -/
theorem none_mem_first {b : UInt8} (lower : 0x80 ≤ b) (upper : b ≤ 0xBF) : none ∈ (first b).2 := by
  have malformed : first b = (.start, [none]) := by
    simp only [UInt8.le_iff_toNat_le, UInt8.reduceToNat] at lower upper
    simp only [first, UInt8.le_iff_toNat_le, UInt8.lt_iff_toNat_lt, ← UInt8.toNat_inj,
      UInt8.reduceToNat]
    repeat rw [if_neg (by omega)]
  rw [malformed]
  exact List.mem_singleton_self _

/-- A well-formed part is scanned as it is by itself. -/
theorem exists_scanFrom_eq {state : State} (continues : state.Continues)
    {before piece after : Octets} {text : String} (decoded : decode piece = some text)
    (whole : none ∉ scanFrom state (before ++ piece ++ after)) :
    ∃ earlier later, scanFrom state (before ++ piece ++ after) =
      earlier ++ text.toList.map some ++ later := by
  induction before generalizing state with
  | nil =>
      rw [List.nil_append] at whole ⊢
      cases state with
      | start =>
          refine ⟨[], scan after, ?_⟩
          rw [List.nil_append, ← decode_eq_some_iff.1 decoded]
          exact scan_append decoded after
      | inside owed low high value =>
          cases piece with
          | nil =>
              cases decoded
              exact ⟨[], _, rfl⟩
          | cons b rest =>
              exfalso
              rw [List.cons_append, scanFrom_cons] at whole
              by_cases inside : low ≤ b ∧ b ≤ high
              · have alone : none ∉ scanFrom .start (b :: rest) := decode_ne_none_iff.1 ⟨text, decoded⟩
                rw [scanFrom_cons] at alone
                exact alone (List.mem_append_left _ (none_mem_first
                  (UInt8.le_trans continues.1 inside.1) (UInt8.le_trans inside.2 continues.2)))
              · simp [step, inside] at whole
  | cons b rest ih =>
      simp only [List.cons_append, scanFrom_cons, List.mem_append, not_or] at whole ⊢
      obtain ⟨earlier, later, scanned⟩ := ih (continues_step continues b) whole.2
      exact ⟨(step state b).2 ++ earlier, later, by rw [scanned]; simp⟩

/-- The text of a well-formed part is part of the text. -/
theorem decode_within {piece bytes : Octets} {part text : String} (inside : piece <:+: bytes)
    (decoded : decode piece = some part) (whole : decode bytes = some text) :
    part.toList <:+: text.toList := by
  obtain ⟨before, after, rfl⟩ := inside
  have between : State.start.Continues := trivial
  obtain ⟨earlier, later, scanned⟩ :=
    exists_scanFrom_eq between decoded (decode_ne_none_iff.1 ⟨text, whole⟩)
  have same := scanned.symm.trans (decode_eq_some_iff.1 whole)
  obtain ⟨front, back, cut, starts, -⟩ := List.append_eq_map_iff.1 same
  obtain ⟨first, middle, cut', -, here⟩ := List.map_eq_append_iff.1 starts
  obtain rfl : middle = part.toList := (List.map_inj_right fun _ _ => Option.some.inj).1 here
  exact ⟨first, back, by rw [cut, cut']⟩

/-! ### Lengths -/

theorem length_step_le {state : State} {b : UInt8} (whole : none ∉ (step state b).2) :
    (step state b).2.length ≤ 1 := by
  have first_le : ∀ b, (first b).2.length ≤ 1 := by
    intro b
    unfold first
    repeat' split
    all_goals simp
  cases state with
  | start => exact first_le b
  | inside owed low high value =>
      simp only [step] at whole ⊢
      split
      · split <;> simp
      · next outside => simp [outside] at whole

theorem length_scanFrom_le {state : State} {bytes : Octets}
    (whole : none ∉ scanFrom state bytes) : (scanFrom state bytes).length ≤ bytes.length := by
  induction bytes generalizing state with
  | nil =>
      cases state with
      | start => exact Nat.le_refl 0
      | inside => simp [scanFrom] at whole
  | cons b rest ih =>
      simp only [scanFrom_cons, List.mem_append, not_or] at whole
      have here := length_step_le whole.1
      have later := ih whole.2
      rw [scanFrom_cons, List.length_append, List.length_cons]
      omega

/-- A text has no more characters than octets. -/
theorem length_le_of_decode {bytes : Octets} {text : String} (decoded : decode bytes = some text) :
    text.toList.length ≤ bytes.length := by
  have whole : none ∉ scanFrom .start bytes := decode_ne_none_iff.1 ⟨text, decoded⟩
  have scanned := length_scanFrom_le whole
  have same : scanFrom .start bytes = text.toList.map some := decode_eq_some_iff.1 decoded
  rw [same, List.length_map] at scanned
  exact scanned

/-! ### Texts that were written -/

theorem first_one {n : Nat} (small : n < 128) :
    first (UInt8.ofNat n) = (.start, [some (Char.ofNat n)]) := by
  have every : ∀ n : Fin 128, first (UInt8.ofNat n.val) = (.start, [some (Char.ofNat n.val)]) := by
    decide
  exact every ⟨n, small⟩

theorem first_two {n : Nat} (low : 2 ≤ n) (small : n < 32) :
    first (UInt8.ofNat (n + 192)) = (.inside 1 0x80 0xBF n, []) := by
  have every : ∀ n : Fin 32, 2 ≤ n.val →
      first (UInt8.ofNat (n.val + 192)) = (.inside 1 0x80 0xBF n.val, []) := by decide
  exact every ⟨n, small⟩ low

theorem first_three {n : Nat} (small : n < 16) :
    first (UInt8.ofNat (n + 224)) =
      (.inside 2 (if n = 0 then 0xA0 else 0x80) (if n = 13 then 0x9F else 0xBF) n, []) := by
  have every : ∀ n : Fin 16, first (UInt8.ofNat (n.val + 224)) =
      (.inside 2 (if n.val = 0 then 0xA0 else 0x80) (if n.val = 13 then 0x9F else 0xBF) n.val, []) := by
    decide
  exact every ⟨n, small⟩

theorem first_four {n : Nat} (small : n < 5) :
    first (UInt8.ofNat (n + 240)) =
      (.inside 3 (if n = 0 then 0x90 else 0x80) (if n = 4 then 0x8F else 0xBF) n, []) := by
  have every : ∀ n : Fin 5, first (UInt8.ofNat (n.val + 240)) =
      (.inside 3 (if n.val = 0 then 0x90 else 0x80) (if n.val = 4 then 0x8F else 0xBF) n.val, []) := by
    decide
  exact every ⟨n, small⟩

/-- An octet that continues a character, with six bits of it. -/
theorem scanFrom_inside {owed value n : Nat} {low high : UInt8} {rest : Octets} (small : n < 64)
    (lower : low.toNat ≤ n + 128) (upper : n + 128 ≤ high.toNat) :
    scanFrom (.inside (owed + 1) low high value) (UInt8.ofNat (n + 128) :: rest) =
      match owed with
      | 0 => some (Char.ofNat (value * 64 + n)) :: scanFrom .start rest
      | owed + 1 => scanFrom (.inside (owed + 1) 0x80 0xBF (value * 64 + n)) rest := by
  have octet : (UInt8.ofNat (n + 128)).toNat = n + 128 :=
    UInt8.toNat_ofNat_of_lt' (show n + 128 < 256 by omega)
  have within : low ≤ UInt8.ofNat (n + 128) ∧ UInt8.ofNat (n + 128) ≤ high := by
    rw [UInt8.le_iff_toNat_le, UInt8.le_iff_toNat_le, octet]
    exact ⟨lower, upper⟩
  have bits : (UInt8.ofNat (n + 128)).toNat % 64 = n := by
    rw [octet]
    omega
  rw [scanFrom_cons, step, if_pos within, bits]
  cases owed <;> rfl

/-- The octets of a character are read as the character. -/
theorem scanFrom_utf8EncodeChar (c : Char) (rest : Octets) :
    scanFrom .start (String.utf8EncodeChar c ++ rest) = some c :: scanFrom .start rest := by
  have valid : c.val.toNat < 0xD800 ∨ 0xDFFF < c.val.toNat ∧ c.val.toNat < 0x110000 := c.valid
  have same : Char.ofNat c.val.toNat = c := Char.ofNat_toNat c
  have least : (0x80 : UInt8).toNat = 128 := rfl
  have greatest : (0xBF : UInt8).toNat = 191 := rfl
  rw [String.utf8EncodeChar.eq_1]
  generalize c.val.toNat = v at valid same
  split
  · rw [List.singleton_append, scanFrom_cons, step, first_one (by omega), same]
    rfl
  · split
    · have top : v / 64 % 32 = v / 64 := by omega
      rw [List.cons_append, scanFrom_cons, step, top, first_two (by omega) (by omega), List.nil_append,
        List.singleton_append, scanFrom_inside (by omega) (by omega) (by omega)]
      have whole : v / 64 * 64 + v % 64 = v := by omega
      simp only [whole, same]
    · split
      · have top : v / 4096 % 16 = v / 4096 := by omega
        have lower : (if v / 4096 = 0 then (0xA0 : UInt8) else 0x80).toNat ≤ v / 64 % 64 + 128 := by
          split
          · show 160 ≤ _
            omega
          · show 128 ≤ _
            omega
        have upper : v / 64 % 64 + 128 ≤ (if v / 4096 = 13 then (0x9F : UInt8) else 0xBF).toNat := by
          split
          · show _ ≤ 159
            omega
          · show _ ≤ 191
            omega
        rw [List.cons_append, scanFrom_cons, step, top, first_three (by omega), List.nil_append,
          List.cons_append, scanFrom_inside (by omega) lower upper]
        simp only
        rw [List.singleton_append, scanFrom_inside (by omega) (by omega) (by omega)]
        have whole : (v / 4096 * 64 + v / 64 % 64) * 64 + v % 64 = v := by omega
        simp only [whole, same]
      · have top : v / 262144 % 8 = v / 262144 := by omega
        have lower : (if v / 262144 = 0 then (0x90 : UInt8) else 0x80).toNat ≤ v / 4096 % 64 + 128 := by
          split
          · show 144 ≤ _
            omega
          · show 128 ≤ _
            omega
        have upper : v / 4096 % 64 + 128 ≤ (if v / 262144 = 4 then (0x8F : UInt8) else 0xBF).toNat := by
          split
          · show _ ≤ 143
            omega
          · show _ ≤ 191
            omega
        rw [List.cons_append, scanFrom_cons, step, top, first_four (by omega), List.nil_append,
          List.cons_append, scanFrom_inside (by omega) lower upper]
        simp only
        rw [List.cons_append, scanFrom_inside (by omega) (by omega) (by omega)]
        simp only
        rw [List.singleton_append, scanFrom_inside (by omega) (by omega) (by omega)]
        have whole : ((v / 262144 * 64 + v / 4096 % 64) * 64 + v / 64 % 64) * 64 + v % 64 = v := by omega
        simp only [whole, same]

/-- A text is read back from its octets. -/
theorem decode_encode (text : String) : decode (encode text) = some text := by
  have scanned : ∀ cs : List Char,
      scanFrom .start (cs.flatMap String.utf8EncodeChar) = cs.map some := by
    intro cs
    induction cs with
    | nil => rfl
    | cons c rest ih => rw [List.flatMap_cons, scanFrom_utf8EncodeChar, ih, List.map_cons]
  exact decode_eq_some_iff.2 (scanned text.toList)

theorem encode_injective {first second : String} (same : encode first = encode second) :
    first = second := by
  have read := decode_encode first
  rw [same, decode_encode] at read
  exact (Option.some.inj read).symm

end SecureElement.Utf8
