import SecureElement.Text.Blank
import SecureElement.Text.Quoted
import SecureElement.Text.Search

/-!
The kinds of ATECC608 chips, as a device reports them when it starts one.
-/

namespace SecureElement

/-- The kinds of chips. -/
inductive ChipKind where
  /-- Blank: keys and certificates are made in manufacturing. -/
  | trustCustom
  /-- Comes with keys and certificates. -/
  | trustAndGo
  /-- Comes with keys and certificates, and with slots that are left open. -/
  | trustFlex
  deriving DecidableEq, Repr

namespace ChipKind

/-- The name that a device uses for a kind. -/
def name : ChipKind → String
  | trustCustom => "TrustCustom"
  | trustAndGo => "Trust&Go"
  | trustFlex => "TrustFlex"

/-- The part number of a kind. -/
def partNumber : ChipKind → String
  | trustCustom => "ATECC608-TCSM"
  | trustAndGo => "ATECC608-TNGTLS"
  | trustFlex => "ATECC608-TFLXTLS"

/-- The kinds in the order in which their names are looked for. -/
def all : List ChipKind := [trustCustom, trustAndGo, trustFlex]

/-- The first kind whose name a report holds. -/
def ofReport? (report : String) : Option ChipKind :=
  all.find? fun kind => Text.contains report kind.name

/-- The message for a report, without the white space around it, that names no kind. -/
def unknownMessage (report : String) : String :=
  "invalid ATECC608 type: " ++ Text.quoted report

end ChipKind

end SecureElement
