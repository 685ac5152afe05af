/-!
The tables of a TOML document and the rules by which they grow: a key is given one value, a table has
one header, and a table that is written between braces is complete.
-/

namespace SecureElement.Toml

/-- How a table came about. -/
inductive TableForm where
  /-- By a header of its own, or as the document. -/
  | opened
  /-- As a part of the header of another table. -/
  | implied
  /-- As a part of a dotted key. -/
  | dotted
  /-- Between braces. -/
  | braces
  deriving DecidableEq, Repr

/-- A value. Of lists there is the empty one alone. -/
inductive Item where
  | text (s : String)
  | integer (n : Int)
  | boolean (b : Bool)
  | emptyList
  | table (form : TableForm) (fields : List (String × Item))
  deriving Repr

/-- The keys of a table and their values. -/
abbrev Fields := List (String × Item)

namespace Fields

/-- The value of a key. -/
def get? (key : String) : Fields → Option Item
  | [] => none
  | (k, item) :: rest => if k = key then some item else get? key rest

/-- The fields after the value of a key has been changed, or given if there was none. -/
def modify (key : String) (change : Option Item → Option Item) : Fields → Option Fields
  | [] => (change none).map fun item => [(key, item)]
  | (k, item) :: rest =>
      if k = key then (change (some item)).map fun item => (k, item) :: rest
      else (modify key change rest).map ((k, item) :: ·)

/-- The fields after a change to the table that a path leads to. Tables that are missing on the way
are made in the form `missing`; those that are there must be of a form that may be entered. -/
def within (missing : TableForm) (mayEnter : TableForm → Bool)
    (change : TableForm → Fields → Option Fields) :
    (path : List String) → TableForm → Fields → Option Fields
  | [], form, fields => change form fields
  | key :: path, _, fields => modify key (fun
      | none => (within missing mayEnter change path missing []).map (.table missing)
      | some (.table form inner) =>
          if mayEnter form then
            (within missing mayEnter change path form inner).map (.table form)
          else none
      | some _ => none) fields

/-- The fields after a key without a value has been given one. -/
def add (key : String) (item : Item) (fields : Fields) : Option Fields :=
  modify key (fun
    | none => some item
    | some _ => none) fields

/-- Whether a dotted key may lead through a table. -/
def mayExtend (form : TableForm) : Bool :=
  form == .implied || form == .dotted

/-- The fields after a dotted key has been given a value. -/
def assign (path : List String) (key : String) (item : Item) (form : TableForm) (fields : Fields) :
    Option Fields :=
  within .dotted mayExtend (fun form fields =>
    if path ≠ [] ∧ form ≠ .dotted then none else add key item fields) path form fields

/-- Whether a header may lead through a table. -/
def mayPass (form : TableForm) : Bool :=
  form != .braces

/-- A document after a dotted key has been given a value under a header. -/
def assignUnder (header path : List String) (key : String) (item : Item) (document : Fields) :
    Option Fields :=
  within .implied mayPass (fun form fields => assign path key item form fields) header .opened
    document

/-- A document after a header. -/
def openTable (path : List String) (key : String) (document : Fields) : Option Fields :=
  within .implied mayPass (fun _ fields => modify key (fun
    | none => some (.table .opened [])
    | some (.table .implied inner) => some (.table .opened inner)
    | some _ => none) fields) path .opened document

end Fields

end SecureElement.Toml
