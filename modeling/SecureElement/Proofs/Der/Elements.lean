import SecureElement.Der
import SecureElement.Proofs.Octets.Numbers

/-!
Elements are read back as they were written.

An element is sound if its tag is one that is read and its content is not too long. Sound elements are
read back from their octets, whatever follows them (`Element.read_encode`). What was read is sound, and
is written as the octets that it was read from (`Element.ofElements_of_elements?`). Elements that are not too
long have no octets in common (`Element.encode_append_inj`), and rows of them have none either
(`Element.encodeAll_inj`). An element that holds others is at least as long as each of them, so that of a
whole document only the length of the outermost element matters (`Element.Fits.of_mem`).
-/

namespace SecureElement.Der

/-! ### Lengths -/

theorem length_ofNatMinimal_of_le {n : Nat} (small : n ≤ maxLength) :
    (Octets.ofNatMinimal n).length ≤ 4 :=
  Octets.length_ofNatMinimal_le (by simp only [maxLength] at small; omega)

theorem length_encodeLength_pos (n : Nat) : 0 < (encodeLength n).length := by
  unfold encodeLength
  split <;> exact Nat.succ_pos _

/-- A length that is not too great takes five octets at most. -/
theorem length_encodeLength_le {n : Nat} (small : n ≤ maxLength) : (encodeLength n).length ≤ 5 := by
  unfold encodeLength
  split
  · exact Nat.le_add_left _ _
  · exact Nat.succ_le_succ (length_ofNatMinimal_of_le small)

/-- A length that is not too great is read back. -/
theorem readLength_encodeLength {n : Nat} (small : n ≤ maxLength) (rest : Octets) :
    readLength (encodeLength n ++ rest) = some (n, rest) := by
  by_cases short : n < 0x80
  · have byte : (UInt8.ofNat n).toNat = n := UInt8.toNat_ofNat_of_lt' (show n < 256 by omega)
    have low : UInt8.ofNat n < 0x80 := by
      rw [UInt8.lt_iff_toNat_lt, byte]
      exact short
    rw [encodeLength, if_pos short, List.singleton_append, readLength, if_pos low, byte]
  · have width := length_ofNatMinimal_of_le small
    have some : Octets.ofNatMinimal n ≠ [] := Octets.ofNatMinimal_ne_nil (by omega)
    have pos : 0 < (Octets.ofNatMinimal n).length := List.length_pos_iff.2 some
    have byte : (UInt8.ofNat (0x80 + (Octets.ofNatMinimal n).length)).toNat =
        0x80 + (Octets.ofNatMinimal n).length :=
      UInt8.toNat_ofNat_of_lt' (show 0x80 + (Octets.ofNatMinimal n).length < 256 by omega)
    have high : ¬ UInt8.ofNat (0x80 + (Octets.ofNatMinimal n).length) < 0x80 := by
      rw [UInt8.lt_iff_toNat_lt, byte]
      exact Nat.not_lt.2 (Nat.le_add_right _ _)
    have size : 0x80 + (Octets.ofNatMinimal n).length - 0x80 = (Octets.ofNatMinimal n).length := by
      omega
    have written : encodeLength n = UInt8.ofNat (0x80 + (Octets.ofNatMinimal n).length) ::
        Octets.ofNatMinimal n := by
      rw [encodeLength, if_neg short]
    rw [written, List.cons_append, readLength, if_neg high]
    simp only [byte, size, List.take_left, List.drop_left, Octets.toNat_ofNatMinimal]
    rw [if_neg]
    rintro (zero | long | other | great | different)
    · omega
    · omega
    · exact other rfl
    · omega
    · exact different written

theorem le_maxLength_of_readLength {bytes rest : Octets} {n : Nat}
    (read : readLength bytes = some (n, rest)) : n ≤ maxLength := by
  cases bytes with
  | nil => cases read
  | cons b tail =>
      simp only [readLength] at read
      split at read
      · have bound := b.toNat_lt
        cases read
        simp only [maxLength]
        omega
      · split at read
        · cases read
        · next good =>
            simp only [Option.some.injEq, Prod.mk.injEq] at read
            obtain ⟨rfl, -⟩ := read
            simp only [not_or, Nat.not_lt] at good
            exact good.2.2.2.1

/-- A length has one spelling. -/
theorem encodeLength_of_readLength {bytes rest : Octets} {n : Nat}
    (read : readLength bytes = some (n, rest)) : encodeLength n ++ rest = bytes := by
  cases bytes with
  | nil => cases read
  | cons b tail =>
      simp only [readLength] at read
      split at read
      · next low =>
          have short : b.toNat < 0x80 := UInt8.lt_iff_toNat_lt.1 low
          cases read
          rw [encodeLength, if_pos short, UInt8.ofNat_toNat]
          rfl
      · split at read
        · cases read
        · next good =>
            simp only [Option.some.injEq, Prod.mk.injEq] at read
            obtain ⟨rfl, rfl⟩ := read
            simp only [not_or, ne_eq, Decidable.not_not] at good
            rw [good.2.2.2.2, List.cons_append, List.take_append_drop]

namespace Header

theorem two_le_length_encode (h : Header) : 2 ≤ h.encode.length := by
  rw [encode, List.length_cons]
  exact Nat.succ_le_succ (length_encodeLength_pos h.length)

theorem length_encode_le {h : Header} (small : h.length ≤ maxLength) : h.encode.length ≤ 6 := by
  rw [encode, List.length_cons]
  exact Nat.succ_le_succ (length_encodeLength_le small)

theorem read_encode {h : Header} (tag : isTag h.tag = true) (small : h.length ≤ maxLength)
    (rest : Octets) : read (h.encode ++ rest) = some (h, rest) := by
  rw [encode, List.cons_append, read, if_pos tag, readLength_encodeLength small]
  rfl

theorem sound_of_read {bytes rest : Octets} {h : Header} (found : read bytes = some (h, rest)) :
    isTag h.tag = true ∧ h.length ≤ maxLength := by
  cases bytes with
  | nil => cases found
  | cons tag tail =>
      simp only [read] at found
      split at found
      · next known =>
          obtain ⟨⟨length, rest'⟩, length_read, same⟩ := Option.map_eq_some_iff.1 found
          cases same
          exact ⟨known, le_maxLength_of_readLength length_read⟩
      · cases found

theorem encode_of_read {bytes rest : Octets} {h : Header} (found : read bytes = some (h, rest)) :
    h.encode ++ rest = bytes := by
  cases bytes with
  | nil => cases found
  | cons tag tail =>
      simp only [read] at found
      split at found
      · obtain ⟨⟨length, rest'⟩, length_read, same⟩ := Option.map_eq_some_iff.1 found
        cases same
        rw [encode, List.cons_append, encodeLength_of_readLength length_read]
      · cases found

end Header

namespace Element

/-! ### Single elements -/

/-- The content of an element is not too long. -/
def Fits (e : Element) : Prop := e.content.length ≤ maxLength

/-- An element that is read back. -/
structure Sound (e : Element) : Prop where
  tag : isTag e.tag = true
  fits : e.Fits

/-- A sound element is read back, whatever follows it. -/
theorem read_encode {e : Element} (sound : e.Sound) (rest : Octets) :
    read (e.encode ++ rest) = some (e, rest) := by
  have header := Header.read_encode (h := ⟨e.tag, e.content.length⟩) sound.tag sound.fits
    (e.content ++ rest)
  rw [encode, List.append_assoc, read, header]
  simp only [List.length_append, List.take_left, List.drop_left]
  rw [if_neg (by omega)]

theorem sound_of_read {bytes rest : Octets} {e : Element} (found : read bytes = some (e, rest)) :
    e.Sound := by
  unfold read at found
  split at found
  · cases found
  · next header tail header_read =>
      split at found
      · cases found
      · cases found
        obtain ⟨tag, small⟩ := Header.sound_of_read header_read
        refine ⟨tag, ?_⟩
        rw [Fits, List.length_take]
        exact Nat.le_trans (Nat.min_le_left _ _) small

/-- An element has one spelling. -/
theorem encode_of_read {bytes rest : Octets} {e : Element} (found : read bytes = some (e, rest)) :
    e.encode ++ rest = bytes := by
  unfold read at found
  split at found
  · cases found
  · next header tail header_read =>
      split at found
      · cases found
      · next long =>
          cases found
          have size : (tail.take header.length).length = header.length := by
            rw [List.length_take]
            omega
          rw [encode, size, List.append_assoc, List.take_append_drop]
          exact Header.encode_of_read header_read

theorem decode_encode {e : Element} (sound : e.Sound) : decode e.encode = some e := by
  have read := read_encode sound []
  rw [List.append_nil] at read
  rw [decode, read]

theorem read_of_decode {bytes : Octets} {e : Element} (found : decode bytes = some e) :
    read bytes = some (e, []) := by
  unfold decode at found
  split at found
  · next e' read =>
      cases found
      exact read
  · cases found

theorem sound_of_decode {bytes : Octets} {e : Element} (found : decode bytes = some e) : e.Sound :=
  sound_of_read (read_of_decode found)

theorem encode_of_decode {bytes : Octets} {e : Element} (found : decode bytes = some e) :
    e.encode = bytes := by
  rw [← encode_of_read (read_of_decode found), List.append_nil]

theorem encode_ne_nil (e : Element) : e.encode ≠ [] := List.cons_ne_nil _ _

/-! ### Rows of elements -/

theorem readAll_of_read {bytes rest : Octets} {e : Element} (found : read bytes = some (e, rest)) :
    readAll bytes = (readAll rest).map (e :: ·) := by
  have filled : bytes ≠ [] := by
    rintro rfl
    cases found
  conv => lhs; rw [readAll, if_neg filled]
  split
  · next unread =>
      rw [found] at unread
      cases unread
  · next e' rest' again =>
      rw [found] at again
      cases again
      rfl

/-- Sound elements are read back from their row. -/
theorem readAll_encodeAll {es : List Element} (sound : ∀ e ∈ es, e.Sound) :
    readAll (encodeAll es) = some es := by
  induction es with
  | nil => rw [encodeAll, List.flatMap_nil, readAll, if_pos rfl]
  | cons e es ih =>
      have whole : encodeAll (e :: es) = e.encode ++ encodeAll es := rfl
      have head := read_encode (sound e (by simp)) (encodeAll es)
      have tail := ih fun e' member => sound e' (by simp [member])
      rw [whole, readAll_of_read head, tail, Option.map_some]

theorem sound_of_readAll {bytes : Octets} {es : List Element} (found : readAll bytes = some es) :
    ∀ e ∈ es, e.Sound := by
  induction size : bytes.length using Nat.strongRecOn generalizing bytes es with
  | ind n ih =>
      subst size
      rw [readAll] at found
      split at found
      · cases found
        simp
      · split at found
        · cases found
        · next e rest read =>
            obtain ⟨es', tail, rfl⟩ := Option.map_eq_some_iff.1 found
            intro e' member
            rcases List.mem_cons.1 member with rfl | later
            · exact sound_of_read read
            · exact ih _ (length_lt_of_read read) tail rfl e' later

theorem encodeAll_of_readAll {bytes : Octets} {es : List Element}
    (found : readAll bytes = some es) : encodeAll es = bytes := by
  induction size : bytes.length using Nat.strongRecOn generalizing bytes es with
  | ind n ih =>
      subst size
      rw [readAll] at found
      split at found
      · next none =>
          cases found
          exact none.symm
      · split at found
        · cases found
        · next e rest read =>
            obtain ⟨es', tail, rfl⟩ := Option.map_eq_some_iff.1 found
            have later := ih _ (length_lt_of_read read) tail rfl
            calc encodeAll (e :: es') = e.encode ++ encodeAll es' := rfl
              _ = e.encode ++ rest := by rw [later]
              _ = bytes := encode_of_read read

/-! ### Elements with the same octets -/

/-- Octets start with one element at most, if none is too long. -/
theorem encode_append_inj {e f : Element} {rest rest' : Octets} (fits : e.Fits) (fits' : f.Fits)
    (same : e.encode ++ rest = f.encode ++ rest') : e = f ∧ rest = rest' := by
  obtain ⟨tag, content⟩ := e
  obtain ⟨tag', content'⟩ := f
  simp only [encode, Header.encode, List.append_assoc, List.cons_append, List.cons.injEq] at same
  obtain ⟨rfl, same⟩ := same
  have lengths := congrArg readLength same
  rw [readLength_encodeLength fits, readLength_encodeLength fits'] at lengths
  simp only [Option.some.injEq, Prod.mk.injEq] at lengths
  obtain ⟨length, contents⟩ := lengths
  obtain ⟨rfl, rfl⟩ := List.append_inj contents length
  exact ⟨rfl, rfl⟩

theorem encodeAll_inj {es fs : List Element} (fits : ∀ e ∈ es, e.Fits) (fits' : ∀ f ∈ fs, f.Fits)
    (same : encodeAll es = encodeAll fs) : es = fs := by
  have start : ∀ (g : Element) (gs : List Element), encodeAll (g :: gs) = g.encode ++ encodeAll gs :=
    fun _ _ => rfl
  induction es generalizing fs with
  | nil =>
      cases fs with
      | nil => rfl
      | cons f fs =>
          rw [start] at same
          exact absurd (List.append_eq_nil_iff.1 same.symm).1 (encode_ne_nil f)
  | cons e es ih =>
      cases fs with
      | nil =>
          rw [start] at same
          exact absurd (List.append_eq_nil_iff.1 same).1 (encode_ne_nil e)
      | cons f fs =>
          rw [start, start] at same
          obtain ⟨rfl, rest⟩ := encode_append_inj (fits e (by simp)) (fits' f (by simp)) same
          rw [ih (fun e member => fits e (by simp [member])) (fun f member => fits' f (by simp [member]))
            rest]

/-! ### Elements in elements -/

theorem length_le_encode (e : Element) : e.content.length ≤ e.encode.length := by
  rw [encode, List.length_append]
  exact Nat.le_add_left _ _

theorem length_encode_le_encodeAll {e : Element} {es : List Element} (member : e ∈ es) :
    e.encode.length ≤ (encodeAll es).length := by
  obtain ⟨front, back, rfl⟩ := List.append_of_mem member
  rw [encodeAll, List.flatMap_append, List.flatMap_cons]
  simp only [List.length_append]
  omega

theorem fits_of_short {e : Element} (short : e.encode.length ≤ maxLength) : e.Fits :=
  Nat.le_trans (length_le_encode e) short

/-- An element that is not too long is the only one with its octets. -/
theorem encode_inj {e f : Element} (short : f.encode.length ≤ maxLength)
    (same : e.encode = f.encode) : e = f := by
  have short' : e.encode.length ≤ maxLength := by
    rw [same]
    exact short
  have appended : e.encode ++ [] = f.encode ++ [] := by rw [same]
  exact (encode_append_inj (fits_of_short short') (fits_of_short short) appended).1

/-- What an element holds is no longer than the element. -/
theorem Fits.of_mem {tag : UInt8} {es : List Element} {e : Element} (fits : (ofElements tag es).Fits)
    (member : e ∈ es) : e.Fits := by
  have inner := length_le_encode e
  have outer := length_encode_le_encodeAll member
  have whole : (encodeAll es).length ≤ maxLength := fits
  simp only [Fits]
  omega

theorem ofElements_inj {tag : UInt8} {es fs : List Element} (fits : (ofElements tag es).Fits)
    (same : ofElements tag es = ofElements tag fs) : es = fs := by
  have fits' : (ofElements tag fs).Fits := same ▸ fits
  exact encodeAll_inj (fun _ member => fits.of_mem member) (fun _ member => fits'.of_mem member)
    (congrArg content same)

/-- If no two values are written alike, no two rows of them are. -/
theorem ofElements_map_inj {α : Type} {write : α → Element} {tag : UInt8} {xs ys : List α}
    (inj : ∀ x y, (write x).Fits → write x = write y → x = y)
    (fits : (ofElements tag (xs.map write)).Fits)
    (same : ofElements tag (xs.map write) = ofElements tag (ys.map write)) : xs = ys := by
  have each : ∀ x ∈ xs, (write x).Fits := fun x member => fits.of_mem (List.mem_map_of_mem member)
  have rows := ofElements_inj fits same
  clear fits same
  induction xs generalizing ys with
  | nil =>
      cases ys with
      | nil => rfl
      | cons y ys => cases rows
  | cons x xs ih =>
      cases ys with
      | nil => cases rows
      | cons y ys =>
          rw [List.map_cons, List.map_cons, List.cons.injEq] at rows
          rw [inj x y (each x (by simp)) rows.1, ih (fun z member => each z (by simp [member])) rows.2]

theorem sound_of_tags {tag : UInt8} {es : List Element} (fits : (ofElements tag es).Fits)
    (tags : (es.all fun e => isTag e.tag) = true) : ∀ e ∈ es, e.Sound := by
  intro e member
  exact ⟨List.all_eq_true.1 tags e member, fits.of_mem member⟩

@[simp] theorem content?_eq_some_iff {tag : UInt8} {e : Element} {content : Octets} :
    e.content? tag = some content ↔ e = ⟨tag, content⟩ := by
  obtain ⟨tag', content'⟩ := e
  simp [content?]

/-- Sound elements are read back from the element that holds them. -/
theorem elements?_ofElements {tag : UInt8} {es : List Element} (sound : ∀ e ∈ es, e.Sound) :
    (ofElements tag es).elements? tag = some es := by
  simp only [elements?, Option.bind_eq_bind, Option.bind_eq_some_iff]
  exact ⟨_, content?_eq_some_iff.2 rfl, readAll_encodeAll sound⟩

theorem tag_of_elements? {tag : UInt8} {e : Element} {es : List Element}
    (found : e.elements? tag = some es) : e.tag = tag := by
  simp only [elements?, Option.bind_eq_bind, Option.bind_eq_some_iff,
    content?_eq_some_iff] at found
  obtain ⟨content, rfl, -⟩ := found
  rfl

/-- What an element holds is written as the element. -/
theorem ofElements_of_elements? {tag : UInt8} {e : Element} {es : List Element}
    (found : e.elements? tag = some es) : ofElements tag es = e := by
  simp only [elements?, Option.bind_eq_bind, Option.bind_eq_some_iff,
    content?_eq_some_iff] at found
  obtain ⟨content, rfl, read⟩ := found
  rw [ofElements, encodeAll_of_readAll read]

theorem ofElements_of_wrapped? {tag : UInt8} {e inner : Element}
    (found : e.wrapped? tag = some inner) : ofElements tag [inner] = e := by
  unfold wrapped? at found
  split at found
  · next row =>
      cases found
      exact ofElements_of_elements? row
  · cases found

theorem sequence?_sequence {es : List Element} (sound : ∀ e ∈ es, e.Sound) :
    (sequence es).sequence? = some es :=
  elements?_ofElements sound

theorem wrapped?_ofElements {tag : UInt8} {e : Element} (sound : e.Sound) :
    (ofElements tag [e]).wrapped? tag = some e := by
  rw [wrapped?, elements?_ofElements (by simpa using sound)]

/-! ### How long elements are -/

/-- What precedes the content of an element that is not too long takes six octets at most. -/
theorem length_encode_le {e : Element} {n : Nat} (content : e.content.length ≤ n) (small : n ≤ maxLength) :
    e.encode.length ≤ n + 6 := by
  have header : (Header.mk e.tag e.content.length).encode.length ≤ 6 :=
    Header.length_encode_le (Nat.le_trans content small)
  rw [encode, List.length_append]
  omega

@[simp] theorem length_encodeAll_nil : (encodeAll []).length = 0 := rfl

@[simp] theorem length_encodeAll_cons (e : Element) (es : List Element) :
    (encodeAll (e :: es)).length = e.encode.length + (encodeAll es).length := by
  rw [encodeAll, List.flatMap_cons, List.length_append]
  rfl

theorem length_encodeAll_append (es fs : List Element) :
    (encodeAll (es ++ fs)).length = (encodeAll es).length + (encodeAll fs).length := by
  rw [encodeAll, List.flatMap_append, List.length_append]
  rfl

/-- An element is at least as long as the elements that it holds. -/
theorem length_encodeAll_le (tag : UInt8) (es : List Element) :
    (encodeAll es).length ≤ (ofElements tag es).encode.length :=
  length_le_encode (ofElements tag es)

/-- An element takes six octets more than the elements that it holds at most. -/
theorem length_encode_ofElements_le {tag : UInt8} {es : List Element} {n : Nat}
    (members : (encodeAll es).length ≤ n) (small : n ≤ maxLength) :
    (ofElements tag es).encode.length ≤ n + 6 :=
  length_encode_le members small

end Element

/-! ### Optional fields -/

theorem takeContext_of_eq {number : UInt8} {e : Element} {rest : List Element}
    (here : contextNumber? e.tag = some number) : takeContext number (e :: rest) = (some e, rest) := by
  simp only [takeContext, here, UInt8.lt_irrefl, if_false, if_true]

theorem takeContext_of_gt {number n : UInt8} {e : Element} {rest : List Element}
    (later : contextNumber? e.tag = some n) (more : number < n) :
    takeContext number (e :: rest) = (none, e :: rest) := by
  have notLess : ¬ n < number := UInt8.not_lt.2 (UInt8.le_of_lt more)
  have other : n ≠ number := fun same => UInt8.lt_irrefl n (same ▸ more)
  simp only [takeContext, later, notLess, other, if_false]

/-- Before an optional field stand some with lower numbers; the field has its number. -/
theorem takeContext_spec (number : UInt8) (es : List Element) :
    ∃ passed, es = passed ++ ((takeContext number es).1.toList ++ (takeContext number es).2) ∧
      (∀ e ∈ passed, ∃ n, contextNumber? e.tag = some n ∧ n < number) ∧
      ∀ e ∈ (takeContext number es).1, contextNumber? e.tag = some number := by
  induction es with
  | nil => exact ⟨[], rfl, by simp, by simp [takeContext]⟩
  | cons e rest ih =>
      cases here : contextNumber? e.tag with
      | none => exact ⟨[], by simp [takeContext, here], by simp, by simp [takeContext, here]⟩
      | some n =>
          by_cases lower : n < number
          · obtain ⟨passed, cut, numbers, found⟩ := ih
            have next : takeContext number (e :: rest) = takeContext number rest := by
              simp [takeContext, here, lower]
            rw [next]
            refine ⟨e :: passed, by rw [List.cons_append, ← cut], ?_, found⟩
            intro f member
            rcases List.mem_cons.1 member with rfl | later
            · exact ⟨n, here, lower⟩
            · exact numbers f later
          · by_cases same : n = number
            · subst same
              refine ⟨[], ?_, by simp, ?_⟩
              · simp [takeContext, here]
              · simp [takeContext, here]
            · exact ⟨[], by simp [takeContext, here, lower, same], by simp,
                by simp [takeContext, here, lower, same]⟩

/-- What stands before the rest has no number above that of the field. -/
theorem exists_passed (number : UInt8) (es : List Element) :
    ∃ passed, es = passed ++ (takeContext number es).2 ∧
      ∀ e ∈ passed, ∃ n, contextNumber? e.tag = some n ∧ n ≤ number := by
  obtain ⟨passed, cut, lower, same⟩ := takeContext_spec number es
  refine ⟨passed ++ (takeContext number es).1.toList, by rw [List.append_assoc, ← cut], ?_⟩
  intro e member
  rcases List.mem_append.1 member with before | taken
  · obtain ⟨n, numbered, below⟩ := lower e before
    exact ⟨n, numbered, UInt8.le_of_lt below⟩
  · exact ⟨number, same e (Option.mem_toList.1 taken), UInt8.le_refl _⟩

end SecureElement.Der
