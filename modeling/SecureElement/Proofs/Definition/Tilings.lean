import SecureElement.Proofs.Definition.Guarded

/-!
The elements packed into another tile its content.

A tiling of an element is a row of elements that adjoin, from the offset of its content to the end of it
(`Placed.Tiles`). The elements that are found in an element are its tiling; there is an error exactly if it
has none, and then the row of elements gets as far as a place where no header can be read, or where one tells
more content than there is room for (`Placed.Blocked`).

The walk is made with words of a bounded width, too (`Placed.boundedChildren`): it has no outcome if a sum
does not fit into a word, if what it looks up is not there, or if the steps that it is given are used up. In
an element that was read it always has one (`Placed.boundedChildren_eq`).
-/

namespace SecureElement.Definition

open Der Authority Guarded

/-! ### Tilings -/

namespace Placed

/-- An element that was read from the octets, or was found in one that was. -/
inductive Obtained (bytes : Octets) : Placed → Prop where
  | read {start stop : Nat} {p : Placed} (found : Placed.read bytes start stop = .ok p) : Obtained bytes p
  | child {p c : Placed} {cs : List Placed} (parent : Obtained bytes p)
      (found : p.children bytes = .ok cs) (member : c ∈ cs) : Obtained bytes c

/-- Elements one right after the other, from one offset to another. -/
def Adjoin : (start : Nat) → List Placed → (stop : Nat) → Prop
  | start, [], stop => start = stop
  | start, c :: rest, stop => c.offset = start ∧ Adjoin c.whole.stop rest stop

/-- An element stands at a place: a header in its one spelling, and the content that it tells. -/
def IsElement (bytes : Octets) (c : Placed) : Prop :=
  ∃ e : Element, e.Sound ∧ Stands bytes c e

/-- Elements that fill the content of another. -/
structure Tiles (bytes : Octets) (p : Placed) (cs : List Placed) : Prop where
  adjoin : Adjoin p.value.offset cs p.value.stop
  elements : ∀ c ∈ cs, IsElement bytes c

/-- Why no element can be read that starts at an offset and ends by another. -/
inductive Blocked (bytes : Octets) (start stop : Nat) : SigningError → Prop where
  /-- No header can be read. -/
  | header (unread : Header.read (Location.slice ⟨start, stop - start⟩ bytes) = none) :
      Blocked bytes start stop (.input .encoding)
  /-- The content that the header tells runs past the end. -/
  | room {header : Header} {rest : Octets}
      (read : Header.read (Location.slice ⟨start, stop - start⟩ bytes) = some (header, rest))
      (exceeds : stop < start + header.encode.length + header.length) :
      Blocked bytes start stop (.input (.malformedPart .element))

end Placed

variable {bytes : Octets}

namespace Spot

theorem tile_iff_adjoin {start stop : Nat} {spots : List (Spot bytes)} :
    Tile start spots stop ↔ Placed.Adjoin start (spots.map place) stop := by
  induction spots generalizing start with
  | nil => exact Iff.rfl
  | cons s rest ih => exact and_congr Iff.rfl ih

theorem exists_iff_isElement {cs : List Placed} :
    (∃ spots : List (Spot bytes), spots.map place = cs) ↔ ∀ c ∈ cs, Placed.IsElement bytes c := by
  constructor
  · rintro ⟨spots, rfl⟩ c member
    obtain ⟨s, -, rfl⟩ := List.mem_map.1 member
    exact ⟨s.element, s.sound, s.stands⟩
  · intro elements
    induction cs with
    | nil => exact ⟨[], rfl⟩
    | cons c rest ih =>
        obtain ⟨e, sound, stands⟩ := elements c (by simp)
        obtain ⟨spots, rfl⟩ := ih fun other member => elements other (by simp [member])
        exact ⟨⟨c, e, sound, stands⟩ :: spots, rfl⟩

/-- What is packed into an element tiles it. -/
theorem exists_packs_iff_tiles {s : Spot bytes} {cs : List Placed} :
    (∃ inner, inner.map place = cs ∧ s.Packs inner) ↔ Placed.Tiles bytes s.place cs := by
  constructor
  · rintro ⟨inner, rfl, packs⟩
    exact ⟨tile_iff_adjoin.1 packs, exists_iff_isElement.1 ⟨inner, rfl⟩⟩
  · rintro ⟨adjoin, elements⟩
    obtain ⟨inner, rfl⟩ := exists_iff_isElement.2 elements
    exact ⟨inner, rfl, tile_iff_adjoin.2 adjoin⟩

/-- The elements that are found in an element are those that tile it. -/
theorem children_eq_ok_iff_tiles {s : Spot bytes} {cs : List Placed} :
    s.place.children bytes = .ok cs ↔ Placed.Tiles bytes s.place cs :=
  children_eq_ok_iff.trans exists_packs_iff_tiles

end Spot

namespace Placed

/-- Whatever is obtained is an element at its place. -/
theorem Obtained.exists_spot {p : Placed} (obtained : Obtained bytes p) :
    ∃ s : Spot bytes, s.place = p := by
  induction obtained with
  | read found =>
      obtain ⟨s, rfl, -, -⟩ := Spot.exists_of_read found
      exact ⟨s, rfl⟩
  | child _ found member parent =>
      obtain ⟨s, rfl⟩ := parent
      obtain ⟨inner, rfl, -⟩ := Spot.children_eq_ok_iff.1 found
      obtain ⟨c, -, rfl⟩ := List.mem_map.1 member
      exact ⟨c, rfl⟩

/-! ### Where no element can be read -/

variable {start stop : Nat} {e : SigningError}

theorem read_eq_error_iff (ordered : start ≤ stop) (inside : stop ≤ bytes.length) :
    read bytes start stop = .error e ↔ Blocked bytes start stop e := by
  have size : (Location.slice ⟨start, stop - start⟩ bytes).length = stop - start := by
    rw [Location.slice_mk, List.length_take, List.length_drop]
    omega
  unfold read
  rw [if_pos ⟨ordered, inside⟩]
  dsimp only
  cases header_read : Header.read (Location.slice ⟨start, stop - start⟩ bytes) with
  | none =>
      constructor
      · rintro ⟨⟩
        exact .header header_read
      · rintro (unread | ⟨read, -⟩)
        · rfl
        · rw [header_read] at read
          cases read
  | some found =>
      obtain ⟨header, rest⟩ := found
      have width := congrArg List.length (Header.encode_of_read header_read)
      rw [List.length_append, size] at width
      have exceeds_iff : rest.length < header.length ↔ stop < start + header.encode.length + header.length := by
        omega
      dsimp only
      constructor
      · intro failed
        split at failed
        · next long =>
            cases failed
            exact .room header_read (exceeds_iff.1 long)
        · cases failed
      · rintro (unread | ⟨read, exceeds⟩)
        · rw [header_read] at unread
          cases unread
        · rw [header_read] at read
          cases read
          rw [if_pos (exceeds_iff.2 exceeds)]
          rfl

/-- A row of elements that cannot be read gets to a place where none can. -/
theorem exists_blocked_of_row (ordered : start ≤ stop) (inside : stop ≤ bytes.length)
    (failed : row bytes start stop = .error e) :
    ∃ (spots : List (Spot bytes)) (place : Nat), Spot.Tile start spots place ∧ place < stop ∧
      Blocked bytes place stop e := by
  fun_induction row bytes start stop with
  | case1 start more e' unread =>
      cases failed
      exact ⟨[], start, rfl, more, (read_eq_error_iff ordered inside).1 unread⟩
  | case2 start more child found progress ih =>
      obtain ⟨s, rfl, rfl, room⟩ := Spot.exists_of_read found
      cases later : row bytes s.place.whole.stop stop with
      | error e' =>
          rw [later] at failed
          cases failed
          obtain ⟨spots, place, tile, before, blocked⟩ := ih room later
          exact ⟨s :: spots, place, ⟨rfl, tile⟩, before, blocked⟩
      | ok cs =>
          rw [later] at failed
          cases failed
  | case3 => cases failed

/-- A row of elements cannot be read past a place where none can. -/
theorem row_of_blocked {spots : List (Spot bytes)} {place : Nat} (tile : Spot.Tile start spots place)
    (before : place < stop) (inside : stop ≤ bytes.length) (blocked : Blocked bytes place stop e) :
    row bytes start stop = .error e := by
  induction spots generalizing start with
  | nil =>
      obtain rfl : start = place := tile
      rw [Spot.row_of_lt before, (read_eq_error_iff (Nat.le_of_lt before) inside).2 blocked]
      rfl
  | cons s rest ih =>
      obtain ⟨rfl, later⟩ := tile
      have room : s.place.whole.stop ≤ stop := Nat.le_trans later.le (Nat.le_of_lt before)
      rw [Spot.row_of_lt (Nat.lt_of_lt_of_le s.offset_lt_stop room), s.read_place room inside]
      simp only [Except.bind, ih later]
      rfl

/-- What is found in an element is an error exactly if a row of elements gets to a place in its content
where none can be read. -/
theorem children_eq_error_iff {s : Spot bytes} :
    s.place.children bytes = .error e ↔
      ∃ cs place, Adjoin s.place.value.offset cs place ∧ (∀ c ∈ cs, IsElement bytes c) ∧
        place < s.place.value.stop ∧ Blocked bytes place s.place.value.stop e := by
  constructor
  · intro failed
    obtain ⟨spots, place, tile, before, blocked⟩ :=
      exists_blocked_of_row (Nat.le_add_right _ _) s.value_holds.inside failed
    exact ⟨_, place, Spot.tile_iff_adjoin.1 tile, Spot.exists_iff_isElement.1 ⟨spots, rfl⟩, before, blocked⟩
  · rintro ⟨cs, place, adjoin, elements, before, blocked⟩
    obtain ⟨spots, rfl⟩ := Spot.exists_iff_isElement.2 elements
    exact row_of_blocked (Spot.tile_iff_adjoin.2 adjoin) before s.value_holds.inside blocked

end Placed

/-! ### Walks with words of a bounded width -/

/-- The sum of two numbers, if it fits into a word. -/
def boundedSum (width a b : Nat) : Guarded Nat :=
  lookUp (if a + b < 2 ^ width then some (a + b) else none)

/-- The offset after a stretch. -/
def Location.boundedStop (width : Nat) (l : Location) : Guarded Nat :=
  boundedSum width l.offset l.count

namespace Placed

/-- The whole element. -/
def boundedWhole (width : Nat) (p : Placed) : Guarded Location := do
  pure ⟨p.offset, ← boundedSum width p.headerLength p.length⟩

/-- The content of the element. -/
def boundedValue (width : Nat) (p : Placed) : Guarded Location := do
  pure ⟨← boundedSum width p.offset p.headerLength, p.length⟩

/-- The element that starts at an offset and ends by another, if the octets between them are there. -/
def boundedRead (width : Nat) (bytes : Octets) (offset stop : Nat) : Guarded Placed :=
  if offset ≤ stop ∧ stop ≤ bytes.length then
    let part := Location.slice ⟨offset, stop - offset⟩ bytes
    match Header.read part with
    | none => always (refuse .encoding)
    | some (header, rest) => do
        let headerLength := part.length - rest.length
        if part.length < (← boundedSum width headerLength header.length) then
          always (refuse (.malformedPart .element))
        else pure ⟨offset, headerLength, header.length⟩
  else lookUp none

/-- The elements that tile the octets from an offset to another, if the steps suffice. Each look at the
offset takes one. -/
def boundedRow (width : Nat) (bytes : Octets) : (steps offset stop : Nat) → Guarded (List Placed)
  | 0, _, _ => lookUp none
  | steps + 1, offset, stop =>
      if offset < stop then do
        let child ← boundedRead width bytes offset stop
        let next ← (← child.boundedWhole width).boundedStop width
        let later ← boundedRow width bytes steps next stop
        pure (child :: later)
      else pure []

/-- The elements packed into the content of an element, in order. -/
def boundedChildren (width steps : Nat) (p : Placed) (bytes : Octets) : Guarded (List Placed) := do
  let value ← p.boundedValue width
  boundedRow width bytes steps value.offset (← value.boundedStop width)

end Placed

theorem boundedSum_eq {width a b : Nat} (fits : a + b < 2 ^ width) :
    boundedSum width a b = always (.ok (a + b)) := by
  rw [boundedSum, if_pos fits]
  rfl

/-- A header and the length that it tells are no more than a word of 32 bits holds. -/
theorem lt_two_pow_of_read {width : Nat} {part rest : Octets} {header : Header} (words : 32 ≤ width)
    (found : Header.read part = some (header, rest)) :
    part.length - rest.length + header.length < 2 ^ width := by
  have small : header.length ≤ maxLength := (Header.sound_of_read found).2
  have short : header.encode.length ≤ 6 := Header.length_encode_le small
  have spelled := congrArg List.length (Header.encode_of_read found)
  rw [List.length_append] at spelled
  calc part.length - rest.length + header.length
      ≤ 6 + maxLength := by omega
    _ < 2 ^ 32 := by decide
    _ ≤ 2 ^ width := Nat.pow_le_pow_right Nat.two_pos words

theorem Placed.boundedRead_eq {width offset stop : Nat} (words : 32 ≤ width) (ordered : offset ≤ stop)
    (inside : stop ≤ bytes.length) :
    boundedRead width bytes offset stop = always (read bytes offset stop) := by
  unfold boundedRead read
  rw [if_pos ⟨ordered, inside⟩, if_pos ⟨ordered, inside⟩]
  dsimp only
  cases found : Header.read (Location.slice ⟨offset, stop - offset⟩ bytes) with
  | none => rfl
  | some header_rest =>
      obtain ⟨header, rest⟩ := header_rest
      have shorter := Nat.le_of_lt (Header.length_lt_of_read found)
      dsimp only
      rw [boundedSum_eq (lt_two_pow_of_read words found), always_ok_bind]
      by_cases long : rest.length < header.length
      · rw [if_pos long, if_pos (by omega)]
      · rw [if_neg long, if_neg (by omega)]
        rfl

namespace Spot

variable {width : Nat}

theorem boundedStop_whole_eq (s : Spot bytes) (room : bytes.length < 2 ^ width) :
    (s.place.boundedWhole width >>= Location.boundedStop width) = always (.ok s.place.whole.stop) := by
  have inside : s.place.offset + (s.place.headerLength + s.place.length) ≤ bytes.length :=
    s.whole_holds.inside
  unfold Placed.boundedWhole
  rw [boundedSum_eq (by omega), always_ok_bind, pure_bind]
  exact boundedSum_eq (Nat.lt_of_le_of_lt inside room)

theorem two_le_count (s : Spot bytes) : s.place.offset + 2 ≤ s.place.whole.stop := by
  have header := (Header.mk s.element.tag s.element.content.length).two_le_length_encode
  rw [Location.stop, s.whole_count, length_encode]
  show s.place.offset + 2 ≤ s.place.offset + _
  omega

end Spot

/-- A row is read with words of 32 bits or more as it is without a bound. Each step but the last takes two
octets at least. -/
theorem Placed.boundedRow_eq {width steps offset stop : Nat} (words : 32 ≤ width)
    (room : bytes.length < 2 ^ width) (inside : stop ≤ bytes.length) (enough : (stop - offset) / 2 < steps) :
    boundedRow width bytes steps offset stop = always (row bytes offset stop) := by
  induction steps generalizing offset with
  | zero => exact absurd enough (Nat.not_lt_zero _)
  | succ steps ih =>
      rw [boundedRow]
      by_cases more : offset < stop
      · rw [if_pos more, boundedRead_eq words (Nat.le_of_lt more) inside, Spot.row_of_lt more]
        apply always_bind
        intro child found
        obtain ⟨s, rfl, rfl, ends⟩ := Spot.exists_of_read found
        have progress := s.two_le_count
        rw [← bind_assoc, s.boundedStop_whole_eq room, always_ok_bind, ih (by omega)]
        cases row bytes s.place.whole.stop stop <;> rfl
      · rw [if_neg more, row, if_neg more]
        rfl

/-- The elements in a spot are found with words of 32 bits or more. -/
theorem Spot.boundedChildren_eq (s : Spot bytes) {width steps : Nat} (words : 32 ≤ width)
    (room : bytes.length < 2 ^ width) (enough : s.place.length / 2 < steps) :
    s.place.boundedChildren width steps bytes = always (s.place.children bytes) := by
  have inside : s.place.offset + s.place.headerLength + s.place.length ≤ bytes.length :=
    s.value_holds.inside
  unfold Placed.boundedChildren Placed.boundedValue Location.boundedStop
  rw [boundedSum_eq (by omega), always_ok_bind, pure_bind,
    boundedSum_eq (Nat.lt_of_le_of_lt inside room), always_ok_bind]
  apply Placed.boundedRow_eq words room inside
  rw [Nat.add_sub_cancel_left]
  exact enough

namespace Placed

/-- The elements in whatever was obtained are found without a sum too great for a word of 32 bits, without
looking up anything outside, and in no more steps than its content has pairs of octets, and one. They adjoin
from the beginning of its content to the end, lie inside the octets, and are the same if they are read again.
There is an error exactly if no elements tile the content: they get to a place before its end where no header
can be read, or where one tells more content than there is room for. -/
theorem children_tile_value {p : Placed} (obtained : Obtained bytes p) :
    (∀ width steps, 32 ≤ width → bytes.length < 2 ^ width → p.length / 2 < steps →
      p.boundedChildren width steps bytes = always (p.children bytes)) ∧
    (∀ cs, p.children bytes = .ok cs →
      Adjoin p.value.offset cs p.value.stop ∧
        ∀ c ∈ cs, c.whole.stop ≤ bytes.length ∧
          ∀ stop, c.whole.stop ≤ stop → stop ≤ bytes.length → read bytes c.offset stop = .ok c) ∧
    ((∃ e, p.children bytes = .error e) ↔ ¬ ∃ cs, Tiles bytes p cs) ∧
    ∀ e, p.children bytes = .error e ↔
      ∃ cs place, Adjoin p.value.offset cs place ∧ (∀ c ∈ cs, IsElement bytes c) ∧
        place < p.value.stop ∧ Blocked bytes place p.value.stop e := by
  obtain ⟨s, rfl⟩ := obtained.exists_spot
  refine ⟨fun width steps => s.boundedChildren_eq, ?_, ?_, fun e => children_eq_error_iff⟩
  · intro cs found
    obtain ⟨adjoin, elements⟩ := Spot.children_eq_ok_iff_tiles.1 found
    refine ⟨adjoin, fun c member => ?_⟩
    obtain ⟨e, sound, stands⟩ := elements c member
    let spot : Spot bytes := ⟨c, e, sound, stands⟩
    exact ⟨spot.whole_holds.inside, fun stop => spot.read_place⟩
  · constructor
    · rintro ⟨e, failed⟩ ⟨cs, tiles⟩
      rw [Spot.children_eq_ok_iff_tiles.2 tiles] at failed
      cases failed
    · intro untiled
      cases found : s.place.children bytes with
      | error e => exact ⟨e, rfl⟩
      | ok cs => exact absurd ⟨cs, Spot.children_eq_ok_iff_tiles.1 found⟩ untiled

/-- A sequence of a sequence, which holds an integer and the null value, and an octet string. -/
def nestedRow : Octets := [0x30, 0x0B, 0x30, 0x05, 0x02, 0x01, 0x02, 0x05, 0x00, 0x04, 0x02, 0xAB, 0xCD]

theorem children_tile_value_nestedRow :
    Obtained nestedRow ⟨2, 2, 5⟩ ∧
      boundedChildren 32 3 ⟨2, 2, 5⟩ nestedRow = always (.ok [⟨4, 2, 1⟩, ⟨7, 2, 0⟩]) ∧
      Adjoin 4 [⟨4, 2, 1⟩, ⟨7, 2, 0⟩] 9 ∧ read nestedRow 7 13 = .ok ⟨7, 2, 0⟩ ∧
    Obtained nestedRow ⟨9, 2, 2⟩ ∧ ¬ ∃ cs, Tiles nestedRow ⟨9, 2, 2⟩ cs := by
  have whole : read nestedRow 0 13 = .ok ⟨0, 2, 11⟩ := by cbv
  have outer : children ⟨0, 2, 11⟩ nestedRow = .ok [⟨2, 2, 5⟩, ⟨9, 2, 2⟩] := by cbv
  have inner : children ⟨2, 2, 5⟩ nestedRow = .ok [⟨4, 2, 1⟩, ⟨7, 2, 0⟩] := by cbv
  have unread : children ⟨9, 2, 2⟩ nestedRow = .error (.input .encoding) := by cbv
  have row : Obtained nestedRow ⟨2, 2, 5⟩ := .child (.read whole) outer (by simp)
  have text : Obtained nestedRow ⟨9, 2, 2⟩ := .child (.read whole) outer (by simp)
  obtain ⟨bounded, found, -, -⟩ := children_tile_value row
  obtain ⟨-, -, failed, -⟩ := children_tile_value text
  have walked := bounded 32 3 (by decide) (by decide) (by decide)
  rw [inner] at walked
  obtain ⟨adjoin, each⟩ := found _ inner
  obtain ⟨-, again⟩ := each ⟨7, 2, 0⟩ (by simp)
  exact ⟨row, walked, adjoin, again 13 (by decide) (by decide), text, failed.1 ⟨_, unread⟩⟩

end Placed

end SecureElement.Definition
