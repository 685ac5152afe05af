import SecureElement.Octets.Hex
import SecureElement.Text.Blank
import SecureElement.Text.Decimal
import SecureElement.Text.Search

/-!
The values that are looked for in the text a device reports: a chip's serial number, a signing
request and a certificate.
-/

namespace SecureElement

open Text

/-- What a report does not hold. -/
inductive ReportError where
  | serialNumber
  | request
  | certificate (command : String)
  /-- A certificate of another length than the report tells. -/
  | certificateLength (command : String) (reported actual : Nat)
  deriving DecidableEq, Repr

/-- The message about something that a report does not hold. -/
def ReportError.message : ReportError → String
  | serialNumber => "error parsing serial number"
  | request => "device returned invalid CSR"
  | certificate command => "no certificate in the response to `" ++ command ++ "`"
  | certificateLength command reported actual =>
      "certificate from `" ++ command ++ "` is " ++ actual.repr ++ " bytes, device reported " ++
        reported.repr

namespace Report

/-! ### Serial numbers -/

/-- The number of octets in the serial number of a chip. -/
def serialSize : Nat := 9

/-- The digits of `count` pairs at the start of a text, white space after each pair left out. -/
def pairsAt : (count : Nat) → List Char → Option (List Char)
  | 0, _ => some []
  | count + 1, a :: b :: rest =>
      if Hex.isDigit a && Hex.isDigit b then
        (pairsAt count (trimStart rest)).map fun digits => a :: b :: digits
      else none
  | _ + 1, _ => none

/-- The digits of the first run of nine pairs. -/
def firstPairs : List Char → Option (List Char)
  | [] => none
  | c :: rest =>
      match pairsAt serialSize (c :: rest) with
      | some digits => some digits
      | none => firstPairs rest

/-- The serial number in a report, in upper-case digits. -/
def serialNumber (report : String) : Option String := do
  let digits ← firstPairs report.toList
  let octets ← Hex.decode digits
  some (Hex.encodeUpper octets)

/-! ### Signing requests -/

/-- What the first boundary of a request holds, with one dash on either side. -/
def requestBegin : List Char := "-BEGIN CERTIFICATE REQUEST-".toList

/-- What the last boundary of a request holds, with one dash on either side. -/
def requestEnd : List Char := "-END CERTIFICATE REQUEST-".toList

/-- Whether a character is a dash. -/
def isDash (c : Char) : Bool := c == '-'

/-- The block from the first boundary that begins a request to the last that ends one, each with all
its dashes. -/
def requestChars (report : List Char) : Option (List Char) := do
  let (before, rest) ← cutAt requestBegin report
  let (body, after) ← cutAtLast requestEnd rest
  some (takeWhileEnd isDash before ++ requestBegin ++ body ++ requestEnd ++ after.takeWhile isDash)

/-- The signing request in a report. -/
def requestBlock (report : String) : Option String :=
  (requestChars report.toList).map String.ofList

/-! ### Certificates -/

/-- What stands before a certificate. -/
def certificateMark : List Char := "Certificate:".toList

/-- What stands before the length of a certificate. -/
def lengthMark : List Char := "Cert Len:".toList

/-- The first numeral that follows a length mark and white space. -/
def lengthNumeral : List Char → Option (List Char)
  | [] => none
  | c :: rest =>
      match withoutStart lengthMark (c :: rest) with
      | none => lengthNumeral rest
      | some after =>
          match (trimStart after).takeWhile Decimal.isDigit with
          | [] => lengthNumeral rest
          | digits => some digits

/-- The greatest length that is compared. -/
def maxReported : Nat := 0xFFFFFFFFFFFFFFFF

/-- The length that a report tells, unless it is too great to compare. -/
def reportedLength (report : List Char) : Option Nat := do
  let digits ← lengthNumeral report
  let n := Decimal.valueOfDigits digits
  if n ≤ maxReported then some n else none

/-- The octets of the certificate in the response to a command. -/
def certificate (command report : String) : Except ReportError Octets :=
  match cutAt certificateMark report.toList with
  | none => .error (.certificate command)
  | some (before, after) =>
      let digits := (trimStart after).takeWhile Hex.isDigit
      if digits = [] then .error (.certificate command)
      else
        match Hex.decode digits with
        | none => .error (.certificate command)
        | some octets =>
            match reportedLength before with
            | none => .ok octets
            | some reported =>
                if reported = octets.length then .ok octets
                else .error (.certificateLength command reported octets.length)

end Report

end SecureElement
