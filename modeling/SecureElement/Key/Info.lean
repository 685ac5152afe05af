import SecureElement.Key.Ec
import SecureElement.X509.AlgorithmId

/-!
Private keys of any algorithm: the algorithm, the key in its own form, and optionally the public half
and further attributes.
-/

namespace SecureElement.Key

open Der X509 Crypto

/-- A private key and the algorithm that it is for. -/
structure KeyInfo where
  algorithm : AlgorithmId
  key : Octets
  deriving DecidableEq, Repr

namespace KeyInfo

/-- A private key without its public half, as an element. -/
def element (k : KeyInfo) : Element :=
  .sequence [.ofNat 0, k.algorithm.element, .octetString k.key]

/-- The octets of a private key. -/
def encode (k : KeyInfo) : Octets :=
  k.element.encode

/-- Whether the field of the public half is sound. It stands in the second version and in no
other. -/
def publicKeyAllowed (version : Nat) : Option Element → Bool
  | none => version == 0
  | some field =>
      version == 1 &&
        match (field.content? (contextPrimitive 1)).bind BitString.ofContent? with
        | some bits => bits.unused == 0
        | none => false

/-- Whether a field may follow the known ones: one element under a tag of the context class. -/
def isFurtherField (e : Element) : Bool :=
  (contextNumber? e.tag).isSome && (e.wrapped? e.tag).isSome && 0xA0 ≤ e.tag

/-- The private key that an octet string is. -/
def decode (bytes : Octets) : Option KeyInfo := do
  match ← (← Element.decode bytes).sequence? with
  | version :: algorithm :: key :: fields =>
      let version ← version.natUpTo? 1
      let algorithm ← AlgorithmId.ofElement? algorithm
      let key ← key.octetString?
      let (publicKey, fields) := takeContext 1 fields
      guard (publicKeyAllowed version publicKey ∧ fields.all isFurtherField)
      some ⟨algorithm, key⟩
  | _ => none

/-- Whether the algorithm is that of P-256 keys. -/
def isP256 (k : KeyInfo) : Bool :=
  k.algorithm.oid == oidEcPublicKey && k.algorithm.parametersOid? == some oidP256

/-- A private key of P-256. -/
def ofPrivateKey (key : P256.PrivateKey) : KeyInfo :=
  ⟨⟨oidEcPublicKey, some oidP256.element⟩, (EcKey.ofPrivateKey key).encode⟩

end KeyInfo

end SecureElement.Key
