import SecureElement.Der

/-!
Sets in DER: their members stand in the order of their encodings, and none stands twice.
-/

namespace SecureElement.Der

variable {α : Type}

/-- Whether an octet string comes before another, octet by octet; a part comes before the whole. -/
def octetsLt : Octets → Octets → Bool
  | [], [] => false
  | [], _ :: _ => true
  | _ :: _, [] => false
  | a :: as, b :: bs => if a = b then octetsLt as bs else a < b

/-- A member put in its place among sorted ones; none if it is there already. -/
def insertMember (encode : α → Octets) (x : α) : List α → Option (List α)
  | [] => some [x]
  | y :: rest =>
      if encode x = encode y then none
      else if octetsLt (encode x) (encode y) then some (x :: y :: rest)
      else (insertMember encode x rest).map (y :: ·)

/-- The members of a set in the order of their encodings; none if two are alike. -/
def sortMembers (encode : α → Octets) : List α → Option (List α)
  | [] => some []
  | x :: rest => do insertMember encode x (← sortMembers encode rest)

/-- Each member comes before the next one. -/
def Ascending (encode : α → Octets) : List α → Prop
  | [] => True
  | x :: rest => (∀ y ∈ rest.head?, octetsLt (encode x) (encode y) = true) ∧ Ascending encode rest

instance decidableAscending (encode : α → Octets) : (xs : List α) → Decidable (Ascending encode xs)
  | [] => isTrue trivial
  | _ :: rest =>
      have := decidableAscending encode rest
      inferInstanceAs (Decidable (_ ∧ _))

end SecureElement.Der
