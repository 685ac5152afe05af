/-!
Search for a contiguous piece of a list, and the parts around its first occurrence.
-/

namespace SecureElement.Text

variable {α : Type} [BEq α]

/-- Whether `needle` is a contiguous part of a list. -/
def occursIn (needle : List α) : List α → Bool
  | [] => needle.isEmpty
  | c :: rest => needle.isPrefixOf (c :: rest) || occursIn needle rest

/-- What stands before and after the first occurrence of `needle`. -/
def cutAt (needle : List α) : List α → Option (List α × List α)
  | [] => if needle.isEmpty then some ([], []) else none
  | c :: rest =>
      if needle.isPrefixOf (c :: rest) then some ([], (c :: rest).drop needle.length)
      else (cutAt needle rest).map fun (before, after) => (c :: before, after)

/-- What stands before and after the last occurrence of `needle`. -/
def cutAtLast (needle xs : List α) : Option (List α × List α) :=
  (cutAt needle.reverse xs.reverse).map fun (after, before) => (before.reverse, after.reverse)

/-- The longest end of a list whose members all satisfy `p`. -/
def takeWhileEnd (p : α → Bool) (xs : List α) : List α :=
  (xs.reverse.takeWhile p).reverse

/-- A list without the given end, if it has that end. -/
def withoutEnd (ending : List α) (xs : List α) : Option (List α) :=
  if ending.isSuffixOf xs then some (xs.take (xs.length - ending.length)) else none

/-- A list without the given start, if it has that start. -/
def withoutStart (start : List α) (xs : List α) : Option (List α) :=
  if start.isPrefixOf xs then some (xs.drop start.length) else none

/-- Whether a text contains another. -/
def contains (text needle : String) : Bool :=
  occursIn needle.toList text.toList

end SecureElement.Text
