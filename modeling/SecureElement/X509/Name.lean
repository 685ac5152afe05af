import SecureElement.Der.ObjectId
import SecureElement.Der.SetOf

/-!
Distinguished names: a row of parts, each a set of attributes.
-/

namespace SecureElement.X509

open Der

/-- An attribute of a name; the value may be any element. -/
structure NameAttribute where
  oid : ObjectId
  value : Element
  deriving DecidableEq, Repr

namespace NameAttribute

/-- An attribute as an element. -/
def element (a : NameAttribute) : Element :=
  .sequence [a.oid.element, a.value]

/-- The attribute that an element is. -/
def ofElement? (e : Element) : Option NameAttribute := do
  match ← e.sequence? with
  | [oid, value] => some ⟨← ObjectId.ofElement? oid, value⟩
  | _ => none

/-- The octets of an attribute, by which the attributes of a part are ordered. -/
def encode (a : NameAttribute) : Octets :=
  a.element.encode

/-- Whether an attribute is one that can be read: its identifier has arcs, and its value has a tag
that is read and is not too long. -/
def WellFormed (a : NameAttribute) : Prop :=
  (ObjectId.arcs? a.oid.content).isSome ∧ isTag a.value.tag ∧ a.value.content.length ≤ maxLength

instance (a : NameAttribute) : Decidable a.WellFormed :=
  inferInstanceAs (Decidable (_ ∧ _ ∧ _))

end NameAttribute

/-- Whether attributes are a part of a name: they stand in the order of their encodings. -/
def Name.IsPart (attributes : List NameAttribute) : Prop :=
  Ascending NameAttribute.encode attributes ∧ ∀ a ∈ attributes, a.WellFormed

instance (attributes : List NameAttribute) : Decidable (Name.IsPart attributes) :=
  inferInstanceAs (Decidable (_ ∧ _))

/-- A distinguished name: its parts in the order of their encoding, each with its attributes in the
order of theirs. -/
structure Name where
  parts : List (List NameAttribute)
  wellFormed : ∀ part ∈ parts, Name.IsPart part
  deriving DecidableEq, Repr

namespace Name

/-- The name with the given parts, if they are parts of names. -/
def make? (parts : List (List NameAttribute)) : Option Name :=
  if wellFormed : ∀ part ∈ parts, IsPart part then some ⟨parts, wellFormed⟩ else none

/-- A part of a name as an element. -/
def partElement (attributes : List NameAttribute) : Element :=
  .ofElements tagSet (attributes.map NameAttribute.element)

/-- A name as an element. -/
def element (n : Name) : Element :=
  .sequence (n.parts.map partElement)

/-- The part of a name that an element is, its attributes sorted. -/
def partOfElement? (e : Element) : Option (List NameAttribute) := do
  let members ← e.elements? tagSet
  sortMembers NameAttribute.encode (← members.mapM NameAttribute.ofElement?)

/-- The name that an element is. -/
def ofElement? (e : Element) : Option Name := do
  let parts ← e.sequence?
  make? (← parts.mapM partOfElement?)

end Name

end SecureElement.X509
