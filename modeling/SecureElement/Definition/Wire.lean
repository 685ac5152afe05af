import SecureElement.Definition.Describe

/-!
The form in which definitions are sent: twelve lines of ASCII text, each with a name and a value,
and no line feed after the last.
-/

namespace SecureElement

open X509 Definition

/-- The name of a kind of certificate. -/
def CertKind.wire : CertKind → String
  | device => "DEVICE_CERT"
  | signer => "SIGNER_CERT"

/-- The name of a form of dates. -/
def Definition.formWire : TimeForm → String
  | .utc => "rfc5280_utc"
  | .generalized => "rfc5280_gen"

namespace CertDefinition

/-- The names and values of the lines. -/
def lines (d : CertDefinition) : List (String × String) :=
  [("cert_def", d.kind.wire),
    ("template_size", d.template.length.repr),
    ("tbs_cert_loc", d.tbsCert.text),
    ("cert_sn", d.serialNumber.text),
    ("issue_date", d.issueDate.text ++ " " ++ formWire d.issueForm),
    ("expire_date", d.expireDate.text ++ " " ++ formWire d.expireForm),
    ("public_key", d.publicKey.text),
    ("signature", d.signature.text),
    ("subj_key_id", d.subjectKeyId.text),
    ("auth_key_id", d.authorityKeyId.text),
    ("expire_years", d.expireYears.repr),
    ("template", Hex.encodeUpper d.template)]

/-- The wire form of a definition. -/
def wire (d : CertDefinition) : String :=
  String.intercalate "\n" (d.lines.map fun (name, value) => name ++ ":" ++ value)

/-- The octets of the wire form. -/
def encode (d : CertDefinition) : Octets :=
  Octets.ofAscii d.wire

end CertDefinition

end SecureElement
