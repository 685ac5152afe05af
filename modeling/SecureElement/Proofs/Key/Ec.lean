import SecureElement.Key.Ec
import SecureElement.Proofs.Der.Values

/-!
Which octets hold a private key of P-256.

In the form that holds nothing else, a key is loaded exactly if its scalar is in range and any public half
is that of the scalar (`EcKey.ofOctets?_eq_some_iff`). A key in that form is read back as it was written
(`EcKey.decode_encode`), and the curve that it names changes nothing (`EcKey.ofOctets?_of_curve`).
-/

namespace SecureElement.Key

open Der Crypto

namespace EcKey

/-! ### Reading -/

/-- The private key of P-256 that the scalar spells, with its own public half or none. Nothing is asked of
the curve that is named. -/
structure Tells (k : EcKey) (key : P256.PrivateKey) : Prop where
  width : 24 ≤ k.scalar.length ∧ k.scalar.length ≤ 32
  scalar : Octets.toNat k.scalar = key.scalar
  range : 1 ≤ Octets.toNat k.scalar ∧ Octets.toNat k.scalar ≤ P256.order - 1
  publicHalf : ∀ given ∈ k.publicKey, given = key.publicOctets ∨ given = compressed key.point

/-- The octets are those of an elliptic curve's private key that tells one of P-256. -/
def Holds (octets : Octets) (key : P256.PrivateKey) : Prop :=
  ∃ k, decode octets = some k ∧ k.Tells key

theorem privateKey_ofOctets?_eq_some_iff {scalar : Octets} {key : P256.PrivateKey} :
    P256.PrivateKey.ofOctets? scalar = some key ↔
      (24 ≤ scalar.length ∧ scalar.length ≤ 32) ∧ Octets.toNat scalar = key.scalar := by
  obtain ⟨n, positive, below⟩ := key
  unfold P256.PrivateKey.ofOctets? P256.PrivateKey.ofNat?
  rw [Option.ite_none_right_eq_some, Option.dite_none_right_eq_some]
  refine and_congr_right fun _ => ?_
  constructor
  · rintro ⟨range, made⟩
    exact congrArg P256.PrivateKey.scalar (Option.some.inj made)
  · rintro rfl
    exact ⟨⟨positive, below⟩, rfl⟩

theorem privateKey?_eq_some_iff {k : EcKey} {key : P256.PrivateKey} :
    k.privateKey? = some key ↔ k.Tells key := by
  have positive := key.pos
  have below := key.lt_order
  simp only [privateKey?, Option.bind_eq_bind, Option.bind_eq_some_iff, privateKey_ofOctets?_eq_some_iff]
  constructor
  · rintro ⟨made, ⟨width, scalar⟩, found⟩
    cases half : k.publicKey with
    | none =>
        rw [half] at found
        cases found
        exact ⟨width, scalar, by omega, by simp [half]⟩
    | some given =>
        rw [half] at found
        obtain ⟨own, same⟩ := Option.ite_none_right_eq_some.1 found
        cases same
        refine ⟨width, scalar, by omega, ?_⟩
        intro given' member
        rw [half] at member
        cases member
        exact own
  · rintro ⟨width, scalar, -, publicHalf⟩
    refine ⟨key, ⟨width, scalar⟩, ?_⟩
    cases half : k.publicKey with
    | none => rfl
    | some given => exact if_pos (publicHalf given half)

theorem ofOctets?_eq_some_iff {octets : Octets} {key : P256.PrivateKey} :
    ofOctets? octets = some key ↔ Holds octets key := by
  simp only [ofOctets?, Option.bind_eq_bind, Option.bind_eq_some_iff, privateKey?_eq_some_iff, Holds]

/-! ### What was written -/

/-- The field that names the curve. -/
def curveField (k : EcKey) : Option Element :=
  k.curve.map fun oid => .ofElements (contextConstructed 0) [oid.element]

/-- The field of the public half. -/
def pointField (k : EcKey) : Option Element :=
  k.publicKey.map fun point => .ofElements (contextConstructed 1) [(BitString.ofOctets point).element]

theorem element_eq (k : EcKey) :
    k.element = .sequence (.ofNat 1 :: .octetString k.scalar ::
      (k.curveField.toList ++ k.pointField.toList)) := by
  simp only [element, curveField, pointField, List.cons_append, List.nil_append]

theorem tag_curveField {k : EcKey} : ∀ e ∈ k.curveField, e.tag = contextConstructed 0 := by
  intro e member
  obtain ⟨oid, -, rfl⟩ := Option.map_eq_some_iff.1 member
  rfl

theorem tag_pointField {k : EcKey} : ∀ e ∈ k.pointField, e.tag = contextConstructed 1 := by
  intro e member
  obtain ⟨point, -, rfl⟩ := Option.map_eq_some_iff.1 member
  rfl

/-- The optional fields of a key are told by their numbers. -/
theorem takeContext_fields (k : EcKey) :
    takeContext 0 (k.curveField.toList ++ k.pointField.toList) = (k.curveField, k.pointField.toList) ∧
      takeContext 1 k.pointField.toList = (k.pointField, []) := by
  have first : contextNumber? (contextConstructed 0) = some 0 := by decide
  have second : contextNumber? (contextConstructed 1) = some 1 := by decide
  have curve := k.tag_curveField
  have point := k.tag_pointField
  generalize k.curveField = curveField at curve ⊢
  generalize k.pointField = pointField at point ⊢
  constructor
  · cases curveField with
    | some e =>
        apply takeContext_of_eq
        rw [curve e rfl, first]
    | none =>
        cases pointField with
        | some e =>
            refine takeContext_of_gt (n := 1) ?_ (by decide)
            rw [point e rfl, second]
        | none => rfl
  · cases pointField with
    | some e =>
        apply takeContext_of_eq
        rw [point e rfl, second]
    | none => rfl

theorem sound_fields {k : EcKey} (fits : k.element.Fits) :
    ∀ e ∈ .ofNat 1 :: .octetString k.scalar :: (k.curveField.toList ++ k.pointField.toList), e.Sound := by
  rw [element_eq] at fits
  refine Element.sound_of_tags fits (List.all_eq_true.2 ?_)
  intro e member
  simp only [List.mem_cons, List.mem_append, Option.mem_toList] at member
  rcases member with rfl | rfl | curve | point
  · rfl
  · rfl
  · rw [tag_curveField e curve]
    decide
  · rw [tag_pointField e point]
    decide

/-- What a field wraps is sound if the field is. -/
theorem sound_of_wraps {tag : UInt8} {e : Element} (sound : (Element.ofElements tag [e]).Sound)
    (known : isTag e.tag = true) : e.Sound :=
  ⟨known, Element.Fits.of_mem sound.fits (List.mem_singleton.2 rfl)⟩

theorem curveOfField?_curveField {k : EcKey}
    (named : ∀ oid ∈ k.curve, (ObjectId.arcs? oid.content).isSome)
    (sound : ∀ e ∈ k.curveField, e.Sound) : curveOfField? k.curveField = some k.curve := by
  unfold curveField at sound ⊢
  cases curve : k.curve with
  | none => rfl
  | some oid =>
      rw [curve] at named sound
      have inner := sound_of_wraps (sound _ rfl) rfl
      simp only [Option.map_some, curveOfField?, Option.bind_eq_bind, Element.wrapped?_ofElements inner,
        ObjectId.ofElement?_of_arcs (named oid rfl), Option.bind_some]

theorem pointOfField?_pointField {k : EcKey} (sound : ∀ e ∈ k.pointField, e.Sound) :
    pointOfField? k.pointField = some k.publicKey := by
  unfold pointField at sound ⊢
  cases half : k.publicKey with
  | none => rfl
  | some point =>
      rw [half] at sound
      have inner := sound_of_wraps (sound _ rfl) rfl
      simp only [Option.map_some, pointOfField?, Option.bind_eq_bind, Element.wrapped?_ofElements inner,
        BitString.ofElement?_ofOctets, Option.bind_some]
      rfl

/-- A key that names an identifier, if any, is read back as it was written. -/
theorem decode_encode {k : EcKey} (named : ∀ oid ∈ k.curve, (ObjectId.arcs? oid.content).isSome)
    (fits : k.element.Fits) : decode k.encode = some k := by
  have sound := sound_fields fits
  have read : Element.decode k.encode = some k.element := Element.decode_encode ⟨rfl, fits⟩
  have row : k.element.sequence? = some (.ofNat 1 :: .octetString k.scalar ::
      (k.curveField.toList ++ k.pointField.toList)) := by
    rw [element_eq]
    exact Element.sequence?_sequence sound
  obtain ⟨takesCurve, takesPoint⟩ := k.takeContext_fields
  have curve := curveOfField?_curveField named fun e member => sound e (by
    simp [Option.mem_def.1 member])
  have point := k.pointOfField?_pointField fun e member => sound e (by
    simp [Option.mem_def.1 member])
  have version : (Element.ofNat 1).nat? = some 1 := by decide
  have scalar : (Element.octetString k.scalar).octetString? = some k.scalar := rfl
  simp only [decode, Option.bind_eq_bind, read, Option.bind_some, row, version, takesCurve, takesPoint,
    guard_true, scalar, curve, point]
  rfl

/-- The curve that a key names changes nothing. -/
theorem ofOctets?_of_curve {k : EcKey} {curve : ObjectId} (named : (ObjectId.arcs? curve.content).isSome)
    (fits : { k with curve := some curve }.element.Fits) :
    ofOctets? { k with curve := some curve }.encode = k.privateKey? := by
  have read := decode_encode (k := { k with curve := some curve }) (by
    rintro oid ⟨⟩
    exact named) fits
  rw [ofOctets?, read]
  rfl

end EcKey

end SecureElement.Key
