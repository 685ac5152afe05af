import SecureElement.Octets

/-!
ASCII text and its octets: each is read back from the other, and texts that are joined have their octets
joined.
-/

namespace SecureElement.Octets

/-- The characters of ASCII text are read back from its octets. -/
theorem chars_of_octets {cs : List Char} (ascii : ∀ c ∈ cs, c.toNat < 128) :
    (cs.map fun c => UInt8.ofNat c.toNat).map (fun b => Char.ofNat b.toNat) = cs := by
  rw [List.map_map]
  refine (List.map_congr_left fun c member => ?_).trans (List.map_id cs)
  have bound : c.toNat < 256 := Nat.lt_trans (ascii c member) (by decide)
  rw [Function.comp_apply, UInt8.toNat_ofNat_of_lt' bound, Char.ofNat_toNat, id]

/-- Octets are read back from the characters with their numbers. -/
theorem octets_of_chars (octets : Octets) :
    (octets.map fun b => Char.ofNat b.toNat).map (fun c => UInt8.ofNat c.toNat) = octets := by
  rw [List.map_map]
  refine (List.map_congr_left fun b _ => ?_).trans (List.map_id octets)
  have bound := b.toNat_lt
  have valid : b.toNat.isValidChar := .inl (by omega)
  have same : (Char.ofNat b.toNat).toNat = b.toNat := by
    rw [Char.ofNat, dif_pos valid]
    rfl
  rw [Function.comp_apply, same, UInt8.ofNat_toNat, id]

theorem toAscii_ofAscii {text : String} (ascii : ∀ c ∈ text.toList, c.toNat < 128) :
    toAscii (ofAscii text) = text := by
  rw [toAscii, ofAscii, chars_of_octets ascii, String.ofList_toList]

theorem lt_of_mem_ofAscii {text : String} (ascii : ∀ c ∈ text.toList, c.toNat < 128) :
    ∀ b ∈ ofAscii text, b < 0x80 := by
  intro b member
  obtain ⟨c, among, rfl⟩ := List.mem_map.1 member
  have small := ascii c among
  rw [UInt8.lt_iff_toNat_lt, UInt8.toNat_ofNat_of_lt' (Nat.lt_trans small (by decide))]
  exact small

theorem ofAscii_append (first second : String) :
    ofAscii (first ++ second) = ofAscii first ++ ofAscii second := by
  rw [ofAscii, String.toList_append, List.map_append]
  rfl

theorem ofAscii_intercalate (separator : String) (texts : List String) :
    ofAscii (separator.intercalate texts) = (ofAscii separator).intercalate (texts.map ofAscii) := by
  induction texts with
  | nil => rfl
  | cons text texts ih =>
      cases texts with
      | nil => simp
      | cons next texts =>
          rw [String.intercalate_cons_cons, ofAscii_append, ofAscii_append, ih]
          simp only [List.map_cons, List.intercalate_cons_cons]

/-- What stands in joined strings stands in one of them or between two of them. -/
theorem of_mem_intercalate {α : Type} {separator : List α} {strings : List (List α)} {a : α}
    (member : a ∈ separator.intercalate strings) : a ∈ separator ∨ ∃ string ∈ strings, a ∈ string := by
  induction strings with
  | nil => cases member
  | cons string strings ih =>
      cases strings with
      | nil =>
          rw [List.intercalate_singleton] at member
          exact .inr ⟨string, List.mem_cons_self, member⟩
      | cons next strings =>
          rw [List.intercalate_cons_cons, List.mem_append, List.mem_append] at member
          obtain (inside | between) | later := member
          · exact .inr ⟨string, List.mem_cons_self, inside⟩
          · exact .inl between
          · obtain between | ⟨other, among, inside⟩ := ih later
            · exact .inl between
            · exact .inr ⟨other, List.mem_cons_of_mem _ among, inside⟩

end SecureElement.Octets
