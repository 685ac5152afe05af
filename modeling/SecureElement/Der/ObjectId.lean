import SecureElement.Der

/-!
Object identifiers: a row of numbers, the arcs, spelled in base 128.

The first octet holds the first two arcs; every octet but the last of an arc has its top bit set.
-/

namespace SecureElement.Der

/-- An object identifier, by its content octets. -/
structure ObjectId where
  content : Octets
  deriving DecidableEq, Repr

namespace ObjectId

/-- The octets of one arc: groups of seven bits, the top bit set on all but the last. -/
def encodeArc (n : Nat) : Octets :=
  if n < 128 then [UInt8.ofNat n]
  else continued (n / 128) ++ [UInt8.ofNat (n % 128)]
where
  /-- The octets before the last, from the number above the last seven bits. -/
  continued (n : Nat) : Octets :=
    if n < 128 then [UInt8.ofNat (128 + n)]
    else continued (n / 128) ++ [UInt8.ofNat (128 + n % 128)]

/-- The object identifier of a row of two arcs or more. -/
def ofArcs : List Nat → ObjectId
  | first :: second :: rest => ⟨UInt8.ofNat (first * 40 + second) :: rest.flatMap encodeArc⟩
  | _ => ⟨[]⟩

/-- The arcs that octets after the first spell, an arc begun being `value` in `size` octets. An arc
takes five octets at most, the fifth with four bits in use; its value is taken modulo 2³². -/
def arcsFrom (size value : Nat) : Octets → Option (List Nat)
  | [] => if size = 0 then some [] else none
  | b :: rest =>
      if size = 4 ∧ 16 ≤ b then none
      else
        let value := (value * 128 + b.toNat % 128) % 0x100000000
        if b < 128 then (arcsFrom 0 0 rest).map (value :: ·)
        else arcsFrom (size + 1) value rest

/-- The arcs of content octets. There are 3 to 39 octets, and the first arc is 0, 1 or 2. -/
def arcs? : Octets → Option (List Nat)
  | [] => none
  | b :: rest => do
      guard (2 ≤ rest.length ∧ rest.length ≤ 38 ∧ b < 120)
      let arcs ← arcsFrom 0 0 rest
      some (b.toNat / 40 :: b.toNat % 40 :: arcs)

/-- The text of an object identifier: its arcs, separated by points. -/
def text (oid : ObjectId) : String :=
  String.intercalate "." (((arcs? oid.content).getD []).map Nat.repr)

/-- The object identifier that content octets are. -/
def ofContent? (content : Octets) : Option ObjectId :=
  if (arcs? content).isSome then some ⟨content⟩ else none

/-- An object identifier as an element. -/
def element (oid : ObjectId) : Element := ⟨tagObjectId, oid.content⟩

/-- The object identifier that an element is. -/
def ofElement? (e : Element) : Option ObjectId := do
  ofContent? (← e.content? tagObjectId)

end ObjectId

end SecureElement.Der
