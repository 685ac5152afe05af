import SecureElement.Definition.Placed
import SecureElement.Proofs.Der.Elements

/-!
Elements with their places.

A spot of an octet string is a sound element together with the place where it stands. The octets tell what
stands where: there is one spot at an offset at most, and one row of spots from an offset to another.

What is read by its place is a spot (`Spot.read_eq_ok_iff`), and the elements found in a spot are the spots
that tile its content, each starting where the one before it ends (`Spot.children_eq_ok_iff`). They are
the elements that its content is read as (`Spot.exists_packs`), so that the two ways to read an element, by
its value and by its place, agree.
-/

namespace SecureElement.Definition

open Der

namespace Location

theorem slice_mk (offset count : Nat) (bytes : Octets) :
    slice ⟨offset, count⟩ bytes = (bytes.drop offset).take count := rfl

/-- The stretch is inside the octets, which hold these ones there. -/
structure Holds (l : Location) (bytes content : Octets) : Prop where
  inside : l.stop ≤ bytes.length
  slice : l.slice bytes = content

theorem holds_append (before content after : Octets) :
    Holds ⟨before.length, content.length⟩ (before ++ content ++ after) content := by
  constructor
  · rw [stop, List.length_append, List.length_append]
    exact Nat.le_add_right _ _
  · rw [slice, List.append_assoc, List.drop_left, List.take_left]

/-- A part of a stretch holds that part of its octets. -/
theorem Holds.part {l : Location} {bytes content : Octets} (holds : l.Holds bytes content)
    {skipped count : Nat} (room : skipped + count ≤ l.count) :
    Holds ⟨l.offset + skipped, count⟩ bytes ((content.drop skipped).take count) := by
  have inside := holds.inside
  constructor
  · simp only [stop] at inside ⊢
    omega
  · rw [← holds.slice, slice_mk, Location.slice, List.drop_take, List.drop_drop, List.take_take]
    congr 1
    omega

end Location

theorem length_encode (e : Element) :
    e.encode.length =
      (Header.mk e.tag e.content.length).encode.length + e.content.length := by
  rw [Element.encode, List.length_append]

/-- An element stands at a place of an octet string. -/
def Stands (bytes : Octets) (p : Placed) (e : Element) : Prop :=
  ∃ before after, bytes = before ++ e.encode ++ after ∧
    p = ⟨before.length, (Header.mk e.tag e.content.length).encode.length, e.content.length⟩

/-- A sound element with its place in an octet string. -/
@[ext] structure Spot (bytes : Octets) where
  place : Placed
  element : Element
  sound : element.Sound
  stands : Stands bytes place element

namespace Spot

variable {bytes : Octets}

/-- Spots stand one right after the other, from one offset to another. -/
def Tile (start : Nat) : List (Spot bytes) → (stop : Nat) → Prop
  | [], stop => start = stop
  | s :: rest, stop => s.place.offset = start ∧ Tile s.place.whole.stop rest stop

/-- The elements packed into the content of another, in order. -/
def Packs (s : Spot bytes) (inner : List (Spot bytes)) : Prop :=
  Tile s.place.value.offset inner s.place.value.stop

/-- The content of an element begins with another. -/
def Begins (s inner : Spot bytes) : Prop :=
  inner.place.offset = s.place.value.offset ∧ inner.place.whole.stop ≤ s.place.value.stop

theorem whole_holds (s : Spot bytes) : s.place.whole.Holds bytes s.element.encode := by
  obtain ⟨place, element, sound, before, after, rfl, rfl⟩ := s
  have holds := Location.holds_append before element.encode after
  rw [length_encode] at holds
  exact holds

theorem value_holds (s : Spot bytes) : s.place.value.Holds bytes s.element.content := by
  obtain ⟨place, element, sound, before, after, rfl, rfl⟩ := s
  have holds := Location.holds_append
    (before ++ (Header.mk element.tag element.content.length).encode) element.content after
  rw [List.append_assoc before, ← Element.encode, List.length_append] at holds
  exact holds

theorem whole_count (s : Spot bytes) : s.place.whole.count = s.element.encode.length := by
  obtain ⟨place, element, sound, before, after, rfl, rfl⟩ := s
  exact (length_encode element).symm

theorem value_count (s : Spot bytes) : s.place.value.count = s.element.content.length := by
  obtain ⟨place, element, sound, before, after, -, rfl⟩ := s
  rfl

theorem tag_eq (s : Spot bytes) : s.place.tag bytes = s.element.tag := by
  obtain ⟨place, element, sound, before, after, rfl, rfl⟩ := s
  simp [Placed.tag, Element.encode, Header.encode, List.getD]

/-! ### The octets tell what stands where -/

/-- Only one element stands at an offset. -/
theorem eq_of_offset {s t : Spot bytes} (same : s.place.offset = t.place.offset) : s = t := by
  obtain ⟨p, e, sound, before, after, here, rfl⟩ := s
  obtain ⟨q, f, sound', before', after', here', rfl⟩ := t
  have cut : before ++ (e.encode ++ after) = before' ++ (f.encode ++ after') := by
    rw [← List.append_assoc, ← here, ← List.append_assoc, ← here']
  obtain ⟨-, rest⟩ := List.append_inj cut same
  have read := Element.read_encode sound after
  rw [rest, Element.read_encode sound'] at read
  cases read
  apply Spot.ext
  · simp only [show before.length = before'.length from same]
  · rfl

theorem offset_lt_stop (s : Spot bytes) : s.place.offset < s.place.whole.stop := by
  have filled : 0 < s.element.encode.length := List.length_pos_iff.2 s.element.encode_ne_nil
  rw [Location.stop, s.whole_count]
  exact Nat.lt_add_of_pos_right filled

theorem Tile.le {start stop : Nat} {xs : List (Spot bytes)} (tile : Tile start xs stop) :
    start ≤ stop := by
  induction xs generalizing start with
  | nil => exact Nat.le_of_eq tile
  | cons x rest ih =>
      obtain ⟨rfl, later⟩ := tile
      exact Nat.le_trans (Nat.le_of_lt x.offset_lt_stop) (ih later)

/-- A row that ends where it starts has no element in it. -/
theorem Tile.eq_nil {start : Nat} {xs : List (Spot bytes)} (tile : Tile start xs start) : xs = [] := by
  cases xs with
  | nil => rfl
  | cons x rest =>
      obtain ⟨rfl, later⟩ := tile
      exact absurd later.le (Nat.not_le.2 x.offset_lt_stop)

theorem Tile.unique {start stop : Nat} {xs ys : List (Spot bytes)} (first : Tile start xs stop)
    (second : Tile start ys stop) : xs = ys := by
  induction xs generalizing start ys with
  | nil =>
      obtain rfl : start = stop := first
      exact second.eq_nil.symm
  | cons x rest ih =>
      cases ys with
      | nil =>
          obtain rfl : start = stop := second
          exact first.eq_nil
      | cons y others =>
          obtain ⟨here, later⟩ := first
          obtain ⟨same, later'⟩ := second
          obtain rfl := eq_of_offset (here.trans same.symm)
          rw [ih later later']

theorem Packs.unique {s : Spot bytes} {xs ys : List (Spot bytes)} (first : s.Packs xs)
    (second : s.Packs ys) : xs = ys :=
  Tile.unique first second

theorem Begins.unique {s inner inner' : Spot bytes} (first : s.Begins inner)
    (second : s.Begins inner') : inner = inner' :=
  eq_of_offset (first.1.trans second.1.symm)

/-! ### Spots from octets that are known -/

/-- An octet string that is an element is filled by it. -/
theorem exists_of_decode {e : Element} (decoded : Element.decode bytes = some e) :
    ∃ s : Spot bytes, s.element = e ∧ s.place.whole = ⟨0, bytes.length⟩ := by
  have spelled := Element.encode_of_decode decoded
  have size : bytes.length =
      (Header.mk e.tag e.content.length).encode.length + e.content.length := by
    rw [← spelled, length_encode]
  have here : bytes = [] ++ e.encode ++ [] := by
    rw [List.nil_append, List.append_nil, spelled]
  refine ⟨⟨_, e, Element.sound_of_decode decoded, [], [], here, rfl⟩, rfl, ?_⟩
  rw [size]
  rfl

/-- Sound elements in a row are spots. -/
theorem exists_tile {before after : Octets} {es : List Element} (sound : ∀ e ∈ es, e.Sound)
    (here : bytes = before ++ Element.encodeAll es ++ after) :
    ∃ spots : List (Spot bytes), spots.map element = es ∧
      Tile before.length spots (before.length + (Element.encodeAll es).length) := by
  induction es generalizing before with
  | nil => exact ⟨[], rfl, rfl⟩
  | cons e es ih =>
      have cut : bytes = before ++ e.encode ++ (Element.encodeAll es ++ after) := by
        rw [here]
        simp [Element.encodeAll]
      have shifted : bytes = (before ++ e.encode) ++ Element.encodeAll es ++ after := by
        rw [here]
        simp [Element.encodeAll]
      have size : before.length + (Element.encodeAll (e :: es)).length =
          (before ++ e.encode).length + (Element.encodeAll es).length := by
        simp only [Element.encodeAll, List.flatMap_cons, List.length_append]
        omega
      obtain ⟨spots, elements, tile⟩ := ih (fun f member => sound f (by simp [member])) shifted
      let first : Spot bytes := ⟨_, e, sound e (by simp), before, _, cut, rfl⟩
      refine ⟨first :: spots, by rw [List.map_cons, elements], rfl, ?_⟩
      have stop : first.place.whole.stop = (before ++ e.encode).length := by
        rw [Location.stop, first.whole_count, List.length_append]
        rfl
      rw [stop, size]
      exact tile

/-- The elements that the content of an element is read as are packed into it. -/
theorem exists_packs {s : Spot bytes} {es : List Element}
    (read : Element.readAll s.element.content = some es) :
    ∃ inner, inner.map element = es ∧ s.Packs inner := by
  obtain ⟨place, e, sound, before, after, here, rfl⟩ := s
  have spelled := Element.encodeAll_of_readAll read
  have cut : bytes = (before ++ (Header.mk e.tag e.content.length).encode) ++ Element.encodeAll es ++
      after := by
    rw [here, Element.encode, spelled]
    simp only [List.append_assoc]
  obtain ⟨inner, elements, tile⟩ := exists_tile (Element.sound_of_readAll read) cut
  refine ⟨inner, elements, ?_⟩
  rw [List.length_append, spelled] at tile
  exact tile

/-- What begins the content of an element is the element that the content begins with. -/
theorem exists_begins {s : Spot bytes} {e : Element} {rest : Octets}
    (read : Element.read s.element.content = some (e, rest)) :
    ∃ inner : Spot bytes, inner.element = e ∧ s.Begins inner := by
  obtain ⟨place, outer, sound, before, after, here, rfl⟩ := s
  have spelled := Element.encode_of_read read
  have cut : bytes = (before ++ (Header.mk outer.tag outer.content.length).encode) ++ e.encode ++
      (rest ++ after) := by
    rw [here, Element.encode, ← spelled]
    simp only [List.append_assoc]
  let inner : Spot bytes := ⟨_, e, Element.sound_of_read read, _, _, cut, rfl⟩
  refine ⟨inner, rfl, List.length_append, ?_⟩
  have width : e.encode.length ≤ outer.content.length := by
    rw [← spelled, List.length_append]
    exact Nat.le_add_right _ _
  rw [Location.stop, inner.whole_count]
  exact Nat.add_le_add (Nat.le_of_eq List.length_append) width

/-- The octets of a row of spots are those of their elements. -/
theorem Tile.slice {start stop : Nat} {spots : List (Spot bytes)} (tile : Tile start spots stop) :
    Location.slice ⟨start, stop - start⟩ bytes = Element.encodeAll (spots.map element) := by
  induction spots generalizing start with
  | nil =>
      obtain rfl : start = stop := tile
      rw [Nat.sub_self]
      exact List.take_zero
  | cons s rest ih =>
      obtain ⟨rfl, later⟩ := tile
      have size : stop - s.place.offset =
          s.place.whole.count + (stop - s.place.whole.stop) := by
        have first : s.place.whole.stop = s.place.offset + s.place.whole.count := rfl
        have last := later.le
        omega
      rw [List.map_cons, Element.encodeAll, List.flatMap_cons, ← Element.encodeAll, ← ih later,
        ← s.whole_holds.slice, size, Location.slice_mk, List.take_add, List.drop_drop]
      rfl

/-- The content of an element is read as the elements packed into it. -/
theorem Packs.readAll {s : Spot bytes} {inner : List (Spot bytes)} (packs : s.Packs inner) :
    Element.readAll s.element.content = some (inner.map element) := by
  have content : s.element.content = Element.encodeAll (inner.map element) := by
    rw [← s.value_holds.slice, ← Tile.slice packs, Location.stop, Nat.add_sub_cancel_left]
  rw [content]
  apply Element.readAll_encodeAll
  intro e member
  obtain ⟨spot, -, rfl⟩ := List.mem_map.1 member
  exact spot.sound

/-! ### What is read by its place -/

/-- Only octets that are there are read. -/
theorem within_of_placed_read {start stop : Nat} {p : Placed}
    (found : Placed.read bytes start stop = .ok p) : start ≤ stop ∧ stop ≤ bytes.length := by
  unfold Placed.read at found
  split at found
  · assumption
  · cases found

/-- What is read by its place is read from the octets there. -/
theorem exists_of_placed_read {start stop : Nat} {p : Placed}
    (found : Placed.read bytes start stop = .ok p) :
    ∃ e rest, Element.read (Location.slice ⟨start, stop - start⟩ bytes) = some (e, rest) ∧
      p = ⟨start, (Header.mk e.tag e.content.length).encode.length, e.content.length⟩ := by
  have within := within_of_placed_read found
  unfold Placed.read at found
  simp only [if_pos within] at found
  generalize Location.slice ⟨start, stop - start⟩ bytes = part at found
  split at found
  · cases found
  · next header rest header_read =>
      split at found
      · cases found
      · next long =>
          cases found
          have fits : (rest.take header.length).length = header.length := by
            rw [List.length_take]
            omega
          have spelled := Header.encode_of_read header_read
          have width : part.length - rest.length = header.encode.length := by
            rw [← spelled, List.length_append, Nat.add_sub_cancel]
          refine ⟨⟨header.tag, rest.take header.length⟩, rest.drop header.length, ?_, ?_⟩
          · rw [Element.read, header_read]
            simp only [long, if_false]
          · simp only [fits, width]

/-- An element that is read by its place is a spot. -/
theorem exists_of_read {start stop : Nat} {p : Placed}
    (found : Placed.read bytes start stop = .ok p) :
    ∃ s : Spot bytes, s.place = p ∧ s.place.offset = start ∧ s.place.whole.stop ≤ stop := by
  obtain ⟨e, rest, read, rfl⟩ := exists_of_placed_read found
  have spelled := Element.encode_of_read read
  have part_length : e.encode.length + rest.length =
      min (stop - start) (bytes.length - start) := by
    rw [← List.length_append, spelled, Location.slice_mk, List.length_take, List.length_drop]
  have filled : 0 < e.encode.length := List.length_pos_iff.2 e.encode_ne_nil
  have before : (bytes.take start).length = start := by
    rw [List.length_take]
    omega
  -- The octets are what stands before, the element, and what is left.
  have cut : bytes = bytes.take start ++ e.encode ++
      (rest ++ (bytes.drop start).drop (stop - start)) := by
    calc bytes = bytes.take start ++ bytes.drop start := (List.take_append_drop _ _).symm
      _ = bytes.take start ++ (Location.slice ⟨start, stop - start⟩ bytes ++
            (bytes.drop start).drop (stop - start)) := by
          exact congrArg _ (List.take_append_drop _ _).symm
      _ = _ := by rw [← spelled]; simp only [List.append_assoc]
  let s : Spot bytes := ⟨_, e, Element.sound_of_read read, _, _, cut, rfl⟩
  refine ⟨s, ?_, before, ?_⟩
  · simp only [s, before]
  · rw [Location.stop, s.whole_count]
    show (bytes.take start).length + e.encode.length ≤ stop
    omega

/-- A spot is read by its place, before any stop inside that leaves room for it. -/
theorem read_place (s : Spot bytes) {stop : Nat} (room : s.place.whole.stop ≤ stop)
    (inside : stop ≤ bytes.length) : Placed.read bytes s.place.offset stop = .ok s.place := by
  have within : s.place.offset ≤ stop ∧ stop ≤ bytes.length :=
    ⟨Nat.le_trans (Nat.le_of_lt s.offset_lt_stop) room, inside⟩
  rw [Location.stop, s.whole_count] at room
  obtain ⟨place, e, sound, before, after, here, rfl⟩ := s
  dsimp only [Placed.whole] at room within ⊢
  have part : Location.slice ⟨before.length, stop - before.length⟩ bytes =
      (Header.mk e.tag e.content.length).encode ++
        (e.content ++ after.take (stop - before.length - e.encode.length)) := by
    show (bytes.drop before.length).take (stop - before.length) = _
    rw [here, List.append_assoc, List.drop_left, List.take_append,
      List.take_of_length_le (by omega)]
    conv => lhs; arg 1; rw [Element.encode]
    rw [List.append_assoc]
  have header := Header.read_encode (h := ⟨e.tag, e.content.length⟩) sound.tag sound.fits
    (e.content ++ after.take (stop - before.length - e.encode.length))
  unfold Placed.read
  simp only [if_pos within, part, header]
  rw [if_neg (by rw [List.length_append]; omega)]
  rw [List.length_append, Nat.add_sub_cancel]

/-- What is read by its place is the spot there. -/
theorem read_eq_ok_iff {start stop : Nat} {p : Placed} (inside : stop ≤ bytes.length) :
    Placed.read bytes start stop = .ok p ↔
      ∃ s : Spot bytes, s.place = p ∧ s.place.offset = start ∧ s.place.whole.stop ≤ stop := by
  constructor
  · exact exists_of_read
  · rintro ⟨s, rfl, rfl, room⟩
    exact s.read_place room inside

theorem row_of_lt {start stop : Nat} (less : start < stop) :
    Placed.row bytes start stop =
      (Placed.read bytes start stop).bind fun child =>
        (Placed.row bytes child.whole.stop stop).map (child :: ·) := by
  conv => lhs; rw [Placed.row, if_pos less]
  split
  · next unread =>
      rw [unread]
      rfl
  · next child read =>
      simp only [read]
      rfl

/-- Elements that are read in a row are spots one after the other. -/
theorem exists_of_row {start stop : Nat} {ps : List Placed} (ordered : start ≤ stop)
    (found : Placed.row bytes start stop = .ok ps) :
    ∃ spots : List (Spot bytes), spots.map place = ps ∧ Tile start spots stop := by
  fun_induction Placed.row bytes start stop generalizing ps with
  | case1 => cases found
  | case2 start more child read progress ih =>
      obtain ⟨s, rfl, rfl, room⟩ := exists_of_read read
      cases later : Placed.row bytes s.place.whole.stop stop with
      | error e =>
          rw [later] at found
          cases found
      | ok qs =>
          rw [later] at found
          cases found
          obtain ⟨spots, rfl, tile⟩ := ih room later
          exact ⟨s :: spots, rfl, rfl, tile⟩
  | case3 start less =>
      cases found
      exact ⟨[], rfl, Nat.le_antisymm ordered (Nat.not_lt.1 less)⟩

/-- A row of spots that starts inside ends inside. -/
theorem Tile.inside {start stop : Nat} {spots : List (Spot bytes)} (tile : Tile start spots stop)
    (started : start ≤ bytes.length) : stop ≤ bytes.length := by
  induction spots generalizing start with
  | nil => exact Nat.le_trans (Nat.le_of_eq tile.symm) started
  | cons s rest ih => exact ih tile.2 s.whole_holds.inside

theorem Tile.row {start stop : Nat} {spots : List (Spot bytes)} (tile : Tile start spots stop) :
    Placed.row bytes start stop = .ok (spots.map place) := by
  induction spots generalizing start with
  | nil =>
      obtain rfl : start = stop := tile
      rw [Placed.row, if_neg (Nat.lt_irrefl _)]
      rfl
  | cons s rest ih =>
      obtain ⟨rfl, later⟩ := tile
      rw [row_of_lt (Nat.lt_of_lt_of_le s.offset_lt_stop later.le),
        s.read_place later.le (later.inside s.whole_holds.inside)]
      simp only [Except.bind, ih later]
      rfl

/-- The elements that are found in an element by its place are those packed into it. -/
theorem children_eq_ok_iff {s : Spot bytes} {ps : List Placed} :
    s.place.children bytes = .ok ps ↔ ∃ inner, inner.map place = ps ∧ s.Packs inner := by
  constructor
  · intro found
    exact exists_of_row (Nat.le_add_right _ _) found
  · rintro ⟨inner, rfl, packs⟩
    exact packs.row

theorem Packs.children {s : Spot bytes} {inner : List (Spot bytes)} (packs : s.Packs inner) :
    s.place.children bytes = .ok (inner.map place) :=
  children_eq_ok_iff.2 ⟨inner, rfl, packs⟩

end Spot

end SecureElement.Definition
