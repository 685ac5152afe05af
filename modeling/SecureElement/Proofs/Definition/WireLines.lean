import Mathlib.Data.List.Basic
import SecureElement.Proofs.Definition.Wire
import SecureElement.Proofs.Octets.Ascii
import SecureElement.Proofs.Text.Decimal

/-!
The wire form of a definition, read back.

`CertDefinition.ofWire?` splits a text at its line feeds, takes the value from each line by the name that the
line must have, and takes the values apart at their blanks. Neither a line feed nor a blank stands where it
could be taken for a separator, since what is written between them is names, numerals and hexadecimal digits.
So every definition is read back from its wire form (`CertDefinition.ofWire?_encode`), and no two definitions
have one wire form.
-/

namespace SecureElement

open X509 Definition

/-! ### What stands on a line -/

/-- Blanks and visible characters of ASCII only. -/
def Text.Printable (text : String) : Prop :=
  ∀ c ∈ text.toList, 0x20 ≤ c.toNat ∧ c.toNat < 0x7F

namespace Text.Printable

instance (text : String) : Decidable (Printable text) :=
  List.decidableBAll (fun c : Char => 0x20 ≤ c.toNat ∧ c.toNat < 0x7F) text.toList

variable {first second text : String}

theorem append (left : Printable first) (right : Printable second) : Printable (first ++ second) := by
  intro c member
  rw [String.toList_append, List.mem_append] at member
  exact member.elim (left c) (right c)

theorem repr (n : Nat) : Printable n.repr := by
  intro c member
  have := Decimal.toNat_of_isDigit (Decimal.isDigit_of_mem_repr member)
  omega

theorem encodeUpper (bytes : Octets) : Printable (Hex.encodeUpper bytes) := by
  have digits : Printable "0123456789ABCDEF" := by decide
  intro c member
  exact digits c ((Hex.encodeUpper_digits bytes).2 c member)

theorem ascii (printable : Printable text) : ∀ c ∈ text.toList, c.toNat < 128 :=
  fun c member => Nat.lt_trans (printable c member).2 (by decide)

theorem feed_not_mem (printable : Printable text) : 0x0A ∉ Octets.ofAscii text := by
  intro member
  obtain ⟨c, among, feed⟩ := List.mem_map.1 member
  obtain ⟨low, high⟩ := printable c among
  have number : (UInt8.ofNat c.toNat).toNat = c.toNat :=
    UInt8.toNat_ofNat_of_lt' (Nat.lt_trans high (by decide))
  rw [feed] at number
  have ten : (0x0A : UInt8).toNat = 10 := rfl
  omega

end Text.Printable

open Text (Printable)

theorem Definition.Location.printable_text (l : Location) : Printable l.text :=
  ((Printable.repr _).append (by decide)).append (Printable.repr _)

theorem CertKind.printable_wire (kind : CertKind) : Printable kind.wire := by
  cases kind <;> decide

theorem Definition.printable_formWire (form : TimeForm) : Printable (formWire form) := by
  cases form <;> decide

/-! ### Values read from their texts -/

/-- The kind of certificate with a name. -/
def CertKind.ofText? (cs : List Char) : Option CertKind :=
  [device, signer].find? fun kind => kind.wire.toList == cs

theorem CertKind.ofText?_wire (kind : CertKind) : ofText? kind.wire.toList = some kind := by
  cases kind <;> decide

namespace Definition

/-- The form of dates with a name. -/
def formOfText? (cs : List Char) : Option TimeForm :=
  [TimeForm.utc, .generalized].find? fun form => (formWire form).toList == cs

theorem formOfText?_formWire (form : TimeForm) : formOfText? (formWire form).toList = some form := by
  cases form <;> decide

/-- The stretch with two numerals. -/
def Location.ofNumerals? (offset count : List Char) : Option Location := do
  some ⟨← Decimal.parse? offset, ← Decimal.parse? count⟩

/-- The stretch that a text stands for. -/
def Location.ofText? (cs : List Char) : Option Location :=
  match cs.splitOn ' ' with
  | [offset, count] => ofNumerals? offset count
  | _ => none

/-- The place and the form of a date that a text stands for. -/
def datedOfText? (cs : List Char) : Option (Location × TimeForm) :=
  match cs.splitOn ' ' with
  | [offset, count, form] => do some (← Location.ofNumerals? offset count, ← formOfText? form)
  | _ => none

theorem blank_not_mem_repr (n : Nat) : ' ' ∉ n.repr.toList := by
  intro member
  have := Decimal.isDigit_of_mem_repr member
  cases this

theorem blank_not_mem_formWire (form : TimeForm) : ' ' ∉ (formWire form).toList := by
  cases form <;> decide

/-- Words without blanks are taken apart at the blanks between them. -/
theorem splitOn_words {words : List String} (some : words ≠ []) (solid : ∀ w ∈ words, ' ' ∉ w.toList) :
    (" ".intercalate words).toList.splitOn ' ' = words.map String.toList := by
  rw [String.toList_intercalate]
  refine List.splitOn_intercalate _ ?_ (mt List.map_eq_nil_iff.1 some)
  intro cs member
  obtain ⟨w, among, rfl⟩ := List.mem_map.1 member
  exact solid w among

theorem Location.ofNumerals?_repr (l : Location) :
    ofNumerals? l.offset.repr.toList l.count.repr.toList = some l := by
  rw [ofNumerals?, Decimal.parse?_repr, Decimal.parse?_repr]
  rfl

theorem Location.ofText?_text (l : Location) : ofText? l.text.toList = some l := by
  have words : l.text = " ".intercalate [l.offset.repr, l.count.repr] := rfl
  have solid : ∀ w ∈ [l.offset.repr, l.count.repr], ' ' ∉ w.toList := by
    simp only [List.forall_mem_cons]
    exact ⟨blank_not_mem_repr _, blank_not_mem_repr _, List.forall_mem_nil _⟩
  rw [ofText?, words, splitOn_words (List.cons_ne_nil _ _) solid]
  exact l.ofNumerals?_repr

theorem datedOfText?_text (l : Location) (form : TimeForm) :
    datedOfText? (l.text ++ " " ++ formWire form).toList = some (l, form) := by
  have words : l.text ++ " " ++ formWire form =
      " ".intercalate [l.offset.repr, l.count.repr, formWire form] := rfl
  have solid : ∀ w ∈ [l.offset.repr, l.count.repr, formWire form], ' ' ∉ w.toList := by
    simp only [List.forall_mem_cons]
    exact ⟨blank_not_mem_repr _, blank_not_mem_repr _, blank_not_mem_formWire _, List.forall_mem_nil _⟩
  rw [datedOfText?, words, splitOn_words (List.cons_ne_nil _ _) solid]
  simp only [List.map_cons, List.map_nil, l.ofNumerals?_repr, formOfText?_formWire]
  rfl

example : datedOfText? "128 13 rfc5280_utc".toList = some (⟨128, 13⟩, .utc) := by decide

/-! ### Lines -/

/-- The names of the lines, in their order. -/
def lineNames : List String :=
  ["cert_def", "template_size", "tbs_cert_loc", "cert_sn", "issue_date", "expire_date", "public_key",
    "signature", "subj_key_id", "auth_key_id", "expire_years", "template"]

/-- The text of a line. -/
def line (name value : String) : String :=
  name ++ ":" ++ value

/-- The values on lines that have the given names, with no line left over. -/
def valuesOn? : (names : List String) → (lines : List (List Char)) → Option (List (List Char))
  | [], [] => some []
  | name :: names, first :: lines => do
      let value ← (name.toList ++ [':']).isPrefixOf? first
      let values ← valuesOn? names lines
      some (value :: values)
  | _, _ => none

theorem valuesOn?_lines (lines : List (String × String)) :
    valuesOn? (lines.map (·.1)) (lines.map fun l => (line l.1 l.2).toList) =
      some (lines.map (·.2.toList)) := by
  induction lines with
  | nil => rfl
  | cons l lines ih =>
      have value : (l.1.toList ++ [':']).isPrefixOf? (line l.1 l.2).toList = some l.2.toList := by
        rw [List.isPrefixOf?_eq_some_iff_append_eq]
        simp [line]
      rw [List.map_cons, List.map_cons, valuesOn?, value, ih]
      rfl

end Definition

namespace CertDefinition

theorem names_lines (d : CertDefinition) : d.lines.map (·.1) = lineNames := rfl

theorem printable_values (d : CertDefinition) : ∀ l ∈ d.lines, Printable l.2 := by
  have dated (place : Location) (form : TimeForm) : Printable (place.text ++ " " ++ formWire form) :=
    (place.printable_text.append (by decide)).append (printable_formWire form)
  simp only [lines, List.forall_mem_cons]
  exact ⟨d.kind.printable_wire, .repr _, d.tbsCert.printable_text, d.serialNumber.printable_text,
    dated d.issueDate d.issueForm, dated d.expireDate d.expireForm, d.publicKey.printable_text,
    d.signature.printable_text, d.subjectKeyId.printable_text, d.authorityKeyId.printable_text, .repr _,
    .encodeUpper _, List.forall_mem_nil _⟩

theorem printable_lines (d : CertDefinition) : ∀ l ∈ d.lines, Printable (line l.1 l.2) := by
  have named : ∀ name ∈ lineNames, Printable (name ++ ":") := by decide
  intro l member
  have name : l.1 ∈ lineNames := List.mem_map_of_mem member
  exact (named l.1 name).append (d.printable_values l member)

/-- The lines between the line feeds are the lines that were written. -/
theorem splitOn_encode (d : CertDefinition) :
    d.encode.splitOn 0x0A = d.lines.map fun l => Octets.ofAscii (line l.1 l.2) := by
  have joined : d.encode = [0x0A].intercalate (d.lines.map fun l => Octets.ofAscii (line l.1 l.2)) := by
    rw [encode, wire, Octets.ofAscii_intercalate, List.map_map]
    rfl
  rw [joined]
  refine List.splitOn_intercalate _ ?_ (by simp [lines])
  intro octets member
  obtain ⟨l, among, rfl⟩ := List.mem_map.1 member
  exact (d.printable_lines l among).feed_not_mem

theorem ascii_wire (d : CertDefinition) : ∀ c ∈ d.wire.toList, c.toNat < 128 := by
  intro c member
  rw [wire, String.toList_intercalate] at member
  obtain feed | ⟨cs, among, inside⟩ := Octets.of_mem_intercalate member
  · rw [List.mem_singleton.1 feed]
    decide
  · simp only [List.mem_map] at among
    obtain ⟨_, ⟨l, written, rfl⟩, rfl⟩ := among
    exact (d.printable_lines l written).ascii c inside

/-- The wire form is text in UTF-8, with an octet for each character. -/
theorem encode_eq_utf8 (d : CertDefinition) : d.encode = Utf8.encode d.wire := by
  have octets := Octets.encode_toAscii (Octets.lt_of_mem_ofAscii d.ascii_wire)
  rw [Octets.toAscii_ofAscii d.ascii_wire] at octets
  exact octets.symm

/-- The definition that a wire form is of. The size on its second line must be that of the template. -/
def ofWire? (octets : Octets) : Option CertDefinition := do
  let lines := (octets.splitOn 0x0A).map fun l => (Octets.toAscii l).toList
  match ← valuesOn? lineNames lines with
  | [kind, size, tbsCert, serialNumber, issued, expires, publicKey, signature, subjectKeyId, authorityKeyId,
      expireYears, template] =>
      let (issueDate, issueForm) ← datedOfText? issued
      let (expireDate, expireForm) ← datedOfText? expires
      let template ← Hex.decode template
      if Decimal.parse? size = some template.length then
        some {
          kind := ← CertKind.ofText? kind
          template
          tbsCert := ← Location.ofText? tbsCert
          serialNumber := ← Location.ofText? serialNumber
          issueDate, issueForm, expireDate, expireForm
          publicKey := ← Location.ofText? publicKey
          signature := ← Location.ofText? signature
          subjectKeyId := ← Location.ofText? subjectKeyId
          authorityKeyId := ← Location.ofText? authorityKeyId
          expireYears := ← Decimal.parse? expireYears }
      else none
  | _ => none

/-- A definition is read back from its wire form. -/
theorem ofWire?_encode (d : CertDefinition) : ofWire? d.encode = some d := by
  have texts : (d.encode.splitOn 0x0A).map (fun l => (Octets.toAscii l).toList) =
      d.lines.map fun l => (line l.1 l.2).toList := by
    rw [splitOn_encode, List.map_map]
    refine List.map_congr_left fun l member => ?_
    rw [Function.comp_apply, Octets.toAscii_ofAscii (d.printable_lines l member).ascii]
  have values := valuesOn?_lines d.lines
  rw [names_lines] at values
  rw [ofWire?, texts, values]
  simp only [lines, List.map_cons, List.map_nil, Option.bind_eq_bind, Option.bind_some, datedOfText?_text,
    Hex.decode_encodeUpper, Decimal.parse?_repr, if_pos, CertKind.ofText?_wire, Location.ofText?_text]

/-- The wire form of a definition is of no other definition. It is ASCII text of twelve lines that have the
documented names, without a line feed after the last; the size it tells is that of the template, and the
template is written with two upper-case hexadecimal digits an octet. -/
theorem encode_injective_lines :
    (∀ d e : CertDefinition, d.encode = e.encode → d = e) ∧
    ∀ d : CertDefinition,
      d.encode = Utf8.encode d.wire ∧
      (∀ b ∈ d.encode, b < 0x80) ∧
      (d.encode.splitOn 0x0A).length = 12 ∧
      d.encode.getLast? ≠ some 0x0A ∧
      ∃ values : List String,
        values.length = 12 ∧
        d.encode.splitOn 0x0A = (List.zipWith line lineNames values).map Octets.ofAscii ∧
        (lineNames.zip values).lookup "template_size" = some d.template.length.repr ∧
        ∃ digits,
          (lineNames.zip values).lookup "template" = some digits ∧
          digits.toList.length = 2 * d.template.length ∧
          (∀ c ∈ digits.toList, c ∈ "0123456789ABCDEF".toList) ∧
          Hex.decode digits.toList = some d.template := by
  constructor
  · intro d e same
    have read := d.ofWire?_encode
    rw [same, e.ofWire?_encode] at read
    exact (Option.some.inj read).symm
  · intro d
    refine ⟨d.encode_eq_utf8, Octets.lt_of_mem_ofAscii d.ascii_wire, ?_, ?_, d.lines.map (·.2), rfl, ?_, rfl, ?_⟩
    · rw [splitOn_encode, List.length_map]
      rfl
    · intro feed
      have solid := d.bare_encode.2 0x0A feed
      cases solid
    · rw [splitOn_encode]
      rfl
    · obtain ⟨pairs, digits⟩ := Hex.encodeUpper_digits d.template
      exact ⟨_, rfl, pairs, digits, Hex.decode_encodeUpper d.template⟩

end CertDefinition

end SecureElement
