import SecureElement.Octets.Utf8
import SecureElement.Settings.Basic
import SecureElement.Toml.Document

/-!
Settings in a file: a TOML document with a key for each setting and no other keys.
-/

namespace SecureElement.Settings

open Toml

/-- The text that a value is. -/
def textOf? : Item → Option String
  | .text s => some s
  | _ => none

/-- The Boolean that a value is. -/
def booleanOf? : Item → Option Bool
  | .boolean b => some b
  | _ => none

/-- The number from zero to a bound that a value is. -/
def numberOf? (bound : Nat) : Item → Option Nat
  | .integer n => if 0 ≤ n ∧ n ≤ bound then some n.toNat else none
  | _ => none

/-- Whether a value has nothing in it. -/
def isEmptyItem : Item → Bool
  | .emptyList => true
  | .table _ [] => true
  | _ => false

/-- The microcontroller that a value names, as a text or as the one key of a table with nothing
under it. -/
def targetChipOf? : Item → Option TargetChip
  | .text s => TargetChip.ofName? s
  | .table _ [(name, item)] => if isEmptyItem item then TargetChip.ofName? name else none
  | _ => none

/-- Settings with the value of one more key; there is none for a key that is not known. -/
def withKey? (s : Settings) (key : String) (item : Item) : Option Settings :=
  match key with
  | "port" => (textOf? item).map fun v => { s with port := some v }
  | "target_chip" => (targetChipOf? item).map fun v => { s with targetChip := some v }
  | "signer_cert" => (textOf? item).map fun v => { s with signerCert := some v }
  | "signer_key" => (textOf? item).map fun v => { s with signerKey := some v }
  | "i2c_sda_pin" => (numberOf? maxPin item).map fun v => { s with sdaPin := some v }
  | "i2c_scl_pin" => (numberOf? maxPin item).map fun v => { s with sclPin := some v }
  | "valid_for_years" => (numberOf? maxYears item).map fun v => { s with validForYears := some v }
  | "lock_slots" => (booleanOf? item).map fun v => { s with lockSlots := some v }
  | "output_dir" => (textOf? item).map fun v => { s with outputDir := some v }
  | "command_deadline_secs" =>
      (numberOf? maxSeconds item).map fun v => { s with commandDeadline := some v }
  | _ => none

/-- The settings in the fields of a document. -/
def ofFields? (fields : Fields) : Option Settings :=
  fields.foldlM (fun s (key, item) => s.withKey? key item) {}

/-- The settings in a text. -/
def parse? (text : String) : Option Settings := do
  ofFields? (← Toml.parse? text)

/-- The settings in the content of a file that was looked for at a path. -/
def ofFile (path : String) (content : Option Octets) : Except SettingsError Settings :=
  match content.bind Utf8.decode with
  | none => .error (.unreadable path)
  | some text =>
      match parse? text with
      | none => .error (.malformed path)
      | some settings => .ok settings

end SecureElement.Settings
