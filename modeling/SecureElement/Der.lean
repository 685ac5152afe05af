import SecureElement.Octets

/-!
Elements of the distinguished encoding rules (DER): a tag octet, a length and that many octets of
content.

`Element.encode` writes an element, `Element.read` takes one off the front of an octet string and
`Element.readAll` reads a whole octet string as a row of elements. Tags take one octet; lengths take
the fewest octets that hold them.
-/

namespace SecureElement.Der

/-- The tags that are read: the universal types in use, each primitive or constructed as its type
demands, and every tag of the other classes with a number below 31. -/
def isTag (tag : UInt8) : Bool :=
  if tag < 0x40 then
    tag ∈ [0x01, 0x02, 0x03, 0x04, 0x05, 0x06, 0x09, 0x0A, 0x0C, 0x12, 0x13, 0x14, 0x15, 0x16, 0x17,
      0x18, 0x1A, 0x1E, 0x30, 0x31]
  else tag % 32 ≠ 31

/-- The tag of a constructed element of the context class. -/
def contextConstructed (number : UInt8) : UInt8 := 0xA0 + number

/-- The tag of a primitive element of the context class. -/
def contextPrimitive (number : UInt8) : UInt8 := 0x80 + number

/-- The number of a tag of the context class. -/
def contextNumber? (tag : UInt8) : Option UInt8 :=
  if 0x80 ≤ tag ∧ tag < 0xC0 then some (tag % 32) else none

/-- The tag of a Boolean. -/
def tagBoolean : UInt8 := 0x01
/-- The tag of an integer. -/
def tagInteger : UInt8 := 0x02
/-- The tag of a bit string. -/
def tagBitString : UInt8 := 0x03
/-- The tag of an octet string. -/
def tagOctetString : UInt8 := 0x04
/-- The tag of the null value. -/
def tagNull : UInt8 := 0x05
/-- The tag of an object identifier. -/
def tagObjectId : UInt8 := 0x06
/-- The tag of a text in UTF-8. -/
def tagUtf8String : UInt8 := 0x0C
/-- The tag of a date with a year of two digits. -/
def tagUtcTime : UInt8 := 0x17
/-- The tag of a date with a year of four digits. -/
def tagGeneralizedTime : UInt8 := 0x18
/-- The tag of a sequence. -/
def tagSequence : UInt8 := 0x30
/-- The tag of a set. -/
def tagSet : UInt8 := 0x31

/-- The greatest length that is read. -/
def maxLength : Nat := 0x0FFFFFFF

/-- The octets of a length: one below 128, else a count of octets and that many. -/
def encodeLength (n : Nat) : Octets :=
  if n < 0x80 then [UInt8.ofNat n]
  else
    let octets := Octets.ofNatMinimal n
    UInt8.ofNat (0x80 + octets.length) :: octets

/-- The length at the start of an octet string and the rest. It takes the fewest octets that hold
it, four after the first at most. -/
def readLength : Octets → Option (Nat × Octets)
  | [] => none
  | b :: rest =>
      if b < 0x80 then some (b.toNat, rest)
      else
        let size := b.toNat - 0x80
        let octets := rest.take size
        let n := Octets.toNat octets
        if size = 0 ∨ 4 < size ∨ octets.length ≠ size ∨ maxLength < n ∨
            encodeLength n ≠ b :: octets then none
        else some (n, rest.drop size)

theorem length_lt_of_readLength {bytes rest : Octets} {n : Nat}
    (h : readLength bytes = some (n, rest)) : rest.length < bytes.length := by
  cases bytes with
  | nil => simp [readLength] at h
  | cons b tail =>
      simp only [readLength] at h
      split at h
      · simp_all
      · split at h
        · simp at h
        · simp only [Option.some.injEq, Prod.mk.injEq] at h
          rw [← h.2, List.length_drop, List.length_cons]
          omega

/-- What precedes the content of an element. -/
structure Header where
  tag : UInt8
  /-- The length of the content. -/
  length : Nat
  deriving DecidableEq, Repr

/-- The octets of a header. -/
def Header.encode (h : Header) : Octets :=
  h.tag :: encodeLength h.length

/-- The header at the start of an octet string and the rest. -/
def Header.read : Octets → Option (Header × Octets)
  | [] => none
  | tag :: rest =>
      if isTag tag then (readLength rest).map fun (length, rest) => (⟨tag, length⟩, rest)
      else none

theorem Header.length_lt_of_read {bytes rest : Octets} {h : Header}
    (e : Header.read bytes = some (h, rest)) : rest.length < bytes.length := by
  cases bytes with
  | nil => simp [Header.read] at e
  | cons tag tail =>
      simp only [Header.read] at e
      split at e
      · obtain ⟨⟨length, rest⟩, hr, he⟩ := Option.map_eq_some_iff.1 e
        obtain rfl := (Prod.mk.inj he).2
        exact Nat.lt_succ_of_lt (length_lt_of_readLength hr)
      · simp at e

/-- An element: a tag and the content it stands before. -/
structure Element where
  tag : UInt8
  content : Octets
  deriving DecidableEq, Repr

namespace Element

/-- The octets of an element. -/
def encode (e : Element) : Octets :=
  (Header.mk e.tag e.content.length).encode ++ e.content

/-- The octets of a row of elements. -/
def encodeAll (es : List Element) : Octets :=
  es.flatMap encode

/-- The element at the start of an octet string and the rest. -/
def read (bytes : Octets) : Option (Element × Octets) :=
  match Header.read bytes with
  | none => none
  | some (header, rest) =>
      if rest.length < header.length then none
      else some (⟨header.tag, rest.take header.length⟩, rest.drop header.length)

theorem length_lt_of_read {bytes rest : Octets} {e : Element} (h : read bytes = some (e, rest)) :
    rest.length < bytes.length := by
  unfold read at h
  split at h
  · simp at h
  · rename_i header tail hh
    split at h
    · simp at h
    · have := Header.length_lt_of_read hh
      simp only [Option.some.injEq, Prod.mk.injEq] at h
      rw [← h.2]
      simp
      omega

/-- The elements that an octet string is a row of. -/
def readAll (bytes : Octets) : Option (List Element) :=
  if bytes = [] then some []
  else
    match h : read bytes with
    | none => none
    | some (e, rest) =>
        have := length_lt_of_read h
        (readAll rest).map (e :: ·)
termination_by bytes.length

/-- The one element that an octet string consists of. -/
def decode (bytes : Octets) : Option Element :=
  match read bytes with
  | some (e, []) => some e
  | _ => none

/-- An element that holds a row of elements. -/
def ofElements (tag : UInt8) (es : List Element) : Element :=
  ⟨tag, encodeAll es⟩

/-- A sequence. -/
def sequence (es : List Element) : Element :=
  ofElements tagSequence es

/-- The content of an element with a given tag. -/
def content? (tag : UInt8) (e : Element) : Option Octets :=
  if e.tag = tag then some e.content else none

/-- The elements that an element with a given tag holds. -/
def elements? (tag : UInt8) (e : Element) : Option (List Element) := do
  readAll (← e.content? tag)

/-- The elements of a sequence. -/
def sequence? (e : Element) : Option (List Element) :=
  e.elements? tagSequence

/-- The one element that an element with a given tag wraps. -/
def wrapped? (tag : UInt8) (e : Element) : Option Element :=
  match e.elements? tag with
  | some [inner] => some inner
  | _ => none

/-- The octets of a Boolean that is true. -/
def ofTrue : Element := ⟨tagBoolean, [0xFF]⟩

/-- The value of a Boolean. -/
def bool? (e : Element) : Option Bool :=
  match e.content? tagBoolean with
  | some [0xFF] => some true
  | some [0x00] => some false
  | _ => none

/-- The octet string that an element is. -/
def octetString? (e : Element) : Option Octets :=
  e.content? tagOctetString

/-- An octet string. -/
def octetString (octets : Octets) : Element := ⟨tagOctetString, octets⟩

/-- The null value. -/
def null : Element := ⟨tagNull, []⟩

end Element

/-- A field of the context class with a number at the start of a row, and what follows it. Fields
with lower numbers before it are passed over; without such a field the rest begins after them. -/
def takeContext (number : UInt8) : List Element → Option Element × List Element
  | [] => (none, [])
  | e :: rest =>
      match contextNumber? e.tag with
      | none => (none, e :: rest)
      | some n =>
          if n < number then takeContext number rest
          else if n = number then (some e, rest)
          else (none, e :: rest)

end SecureElement.Der
