import SecureElement.Definition.Wire
import SecureElement.Proofs.Octets.Hex
import SecureElement.Proofs.Octets.Trim

/-!
The wire form of a definition begins with the name of its first line and ends with a digit of the
template, or with the colon before it.
-/

namespace SecureElement

namespace CertDefinition

theorem exists_wire_start (d : CertDefinition) : ∃ later, d.wire = "cert_def" ++ later := by
  apply Exists.intro
  simp only [wire, lines, List.map_cons, String.intercalate_cons_cons, String.append_assoc]
  rfl

theorem exists_wire_end (d : CertDefinition) :
    ∃ front, d.wire = front ++ ":" ++ Hex.encodeUpper d.template := by
  apply Exists.intro
  simp only [wire, lines, List.map_cons, List.map_nil, String.intercalate_cons_cons,
    String.intercalate_singleton, ← String.append_assoc]
  rfl

theorem encode_ne_nil (d : CertDefinition) : d.encode ≠ [] := by
  obtain ⟨later, start⟩ := d.exists_wire_start
  simp [encode, Octets.ofAscii, start]

/-- No white space stands around the wire form of a definition. -/
theorem bare_encode (d : CertDefinition) : Octets.Bare d.encode := by
  refine ⟨?_, ?_⟩
  · obtain ⟨later, start⟩ := d.exists_wire_start
    intro b member
    simp only [encode, Octets.ofAscii, start, String.toList_append, List.map_append,
      List.head?_append] at member
    cases member
    rfl
  · obtain ⟨front, ending⟩ := d.exists_wire_end
    intro b member
    simp only [encode, Octets.ofAscii, ending, String.toList_append, List.map_append,
      List.getLast?_append, List.getLast?_map, Option.mem_def] at member
    cases last : (Hex.encodeUpper d.template).toList.getLast? with
    | none =>
        rw [last] at member
        cases member
        rfl
    | some c =>
        rw [last] at member
        cases member
        exact Hex.encodeUpper_plain d.template c (List.mem_of_getLast? last)

end CertDefinition

end SecureElement
