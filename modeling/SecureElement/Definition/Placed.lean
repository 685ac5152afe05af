import SecureElement.Authority.Error
import SecureElement.Der

/-!
Elements by their place in an octet string, and the elements packed into them.

`Placed.children` tiles the content of an element: each child starts where the one before it ends,
and the last ends with the content.
-/

namespace SecureElement.Definition

open Der Authority

/-- A stretch of an octet string. -/
structure Location where
  offset : Nat
  count : Nat
  deriving DecidableEq, Repr, Inhabited

namespace Location

/-- The stretch that stands for nothing. -/
def absent : Location := ⟨0, 0⟩

/-- The offset after the stretch. -/
def stop (l : Location) : Nat := l.offset + l.count

/-- The octets of a stretch. -/
def slice (l : Location) (bytes : Octets) : Octets :=
  (bytes.drop l.offset).take l.count

/-- The text of a stretch: its offset and its length. -/
def text (l : Location) : String :=
  l.offset.repr ++ " " ++ l.count.repr

end Location

/-- An element by its place: the offset of its header and the lengths of header and content. -/
structure Placed where
  offset : Nat
  headerLength : Nat
  length : Nat
  deriving DecidableEq, Repr

namespace Placed

/-- The whole element. -/
def whole (p : Placed) : Location := ⟨p.offset, p.headerLength + p.length⟩

/-- The content of the element. -/
def value (p : Placed) : Location := ⟨p.offset + p.headerLength, p.length⟩

/-- The tag of the element. -/
def tag (p : Placed) (bytes : Octets) : UInt8 := bytes.getD p.offset 0

/-- The element that starts at an offset and ends by another, if the octets between them are there. -/
def read (bytes : Octets) (offset stop : Nat) : Except SigningError Placed :=
  if offset ≤ stop ∧ stop ≤ bytes.length then
    let part := Location.slice ⟨offset, stop - offset⟩ bytes
    match Header.read part with
    | none => refuse .encoding
    | some (header, rest) =>
        if rest.length < header.length then refuse (.malformedPart .element)
        else .ok ⟨offset, part.length - rest.length, header.length⟩
  else refuse (.malformedPart .element)

theorem headerLength_pos_of_read {bytes : Octets} {offset stop : Nat} {p : Placed}
    (h : read bytes offset stop = .ok p) : p.offset = offset ∧ 0 < p.headerLength := by
  unfold read at h
  simp only at h
  split at h
  · split at h
    · simp [refuse] at h
    · rename_i header rest hh
      have := Header.length_lt_of_read hh
      split at h
      · simp [refuse] at h
      · simp only [Except.ok.injEq] at h
        subst h
        exact ⟨rfl, by simp only; omega⟩
  · simp [refuse] at h

/-- The elements that tile the octets from an offset to another. -/
def row (bytes : Octets) (offset stop : Nat) : Except SigningError (List Placed) :=
  if offset < stop then
    match h : read bytes offset stop with
    | .error e => .error e
    | .ok child =>
        have := headerLength_pos_of_read h
        (row bytes child.whole.stop stop).map (child :: ·)
  else .ok []
termination_by stop - offset
decreasing_by
  simp only [whole, Location.stop]
  omega

/-- The elements packed into the content of an element, in order. -/
def children (p : Placed) (bytes : Octets) : Except SigningError (List Placed) :=
  row bytes p.value.offset p.value.stop

end Placed

end SecureElement.Definition
