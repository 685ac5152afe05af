import SecureElement.Crypto.Aes
import SecureElement.Crypto.Scrypt
import SecureElement.Crypto.Sha512
import SecureElement.Der.Integer
import SecureElement.X509.AlgorithmId

/-!
Private keys under a password: a scheme that tells how a key is derived from the password and how
the content is encrypted under it, and the encrypted content.

`EncryptedKey.decode` reads the schemes that are known. Not all that are known are in use:
`EncryptedKey.decrypt` knows no key for those that are not.
-/

namespace SecureElement.Key

open Der X509 Crypto

/-! ### Key derivation -/

/-- The digest functions that derive keys. -/
inductive DerivationDigest where
  /-- Known and not in use. -/
  | sha1
  | sha224
  | sha256
  | sha384
  | sha512
  deriving DecidableEq, Repr

namespace DerivationDigest

/-- The digest function, if it is in use. -/
def digest? : DerivationDigest → Option Digest
  | sha1 => none
  | sha224 => some Crypto.sha224
  | sha256 => some Crypto.sha256
  | sha384 => some Crypto.sha384
  | sha512 => some Crypto.sha512

/-- The object identifier of a keyed digest function. -/
def oid (d : DerivationDigest) : ObjectId :=
  let last := match d with
    | sha1 => 7
    | sha224 => 8
    | sha256 => 9
    | sha384 => 10
    | sha512 => 11
  .ofArcs [1, 2, 840, 113549, 2, last]

/-- Every one of them. -/
def all : List DerivationDigest := [sha1, sha224, sha256, sha384, sha512]

/-- The keyed digest function that an algorithm identifier names; its parameters are null. -/
def ofAlgorithm? (a : AlgorithmId) : Option DerivationDigest :=
  if a.parameters = some .null then all.find? (·.oid = a.oid) else none

end DerivationDigest

/-- How a key is derived from a password. -/
inductive Derivation where
  /-- By iterated keyed digests. -/
  | iterated (digest : DerivationDigest) (salt : Octets) (iterations : Nat)
  /-- At a cost in memory. -/
  | costly (salt : Octets) (cost : Scrypt.Cost)
  deriving DecidableEq, Repr

/-- A derivation and the length of its key, if that is told. -/
structure KeyDerivation where
  derivation : Derivation
  keyLength : Option Nat
  deriving DecidableEq, Repr

namespace KeyDerivation

/-- Derivation by iterated keyed digests. -/
def oidIterated : ObjectId := .ofArcs [1, 2, 840, 113549, 1, 5, 12]

/-- Derivation at a cost in memory. -/
def oidCostly : ObjectId := .ofArcs [1, 3, 6, 1, 4, 1, 11591, 4, 11]

/-- An optional number at the start of a row, and what follows it; the option tells whether it is
sound. -/
def takeNat? (bound : Nat) : List Element → Option (Option Nat × List Element)
  | [] => some (none, [])
  | e :: rest =>
      if e.tag = tagInteger then (e.natUpTo? bound).map fun n => (some n, rest)
      else some (none, e :: rest)

/-- Derivation by iterated keyed digests, of its parameters. -/
def iterated? (parameters : Element) : Option KeyDerivation := do
  match ← parameters.sequence? with
  | salt :: iterations :: fields =>
      let salt ← salt.octetString?
      let iterations ← iterations.natUpTo? 0xFFFFFFFF
      let (keyLength, fields) ← takeNat? 0xFFFF fields
      match fields with
      | [] => some ⟨.iterated .sha1 salt iterations, keyLength⟩
      | [digest] =>
          let digest ← DerivationDigest.ofAlgorithm? (← AlgorithmId.ofElement? digest)
          some ⟨.iterated digest salt iterations, keyLength⟩
      | _ => none
  | _ => none

/-- Derivation at a cost in memory, of its parameters. -/
def costly? (parameters : Element) : Option KeyDerivation := do
  match ← parameters.sequence? with
  | salt :: rounds :: blockFactor :: lanes :: fields =>
      let salt ← salt.octetString?
      let rounds ← rounds.natUpTo? 0xFFFFFFFFFFFFFFFF
      let blockFactor ← blockFactor.natUpTo? 0xFFFF
      let lanes ← lanes.natUpTo? 0xFFFF
      let (keyLength, fields) ← takeNat? 0xFFFF fields
      guard (fields = [])
      some ⟨.costly salt ⟨rounds, blockFactor, lanes⟩, keyLength⟩
  | _ => none

/-- The derivation that an algorithm identifier names. -/
def ofAlgorithm? (a : AlgorithmId) : Option KeyDerivation := do
  let parameters ← a.parameters
  if a.oid = oidIterated then iterated? parameters
  else if a.oid = oidCostly then costly? parameters
  else none

/-- A derivation as an algorithm identifier. -/
def algorithm (d : KeyDerivation) : AlgorithmId :=
  let keyLength := (d.keyLength.map Element.ofNat).toList
  match d.derivation with
  | .iterated digest salt iterations =>
      ⟨oidIterated, some (.sequence ([.octetString salt, .ofNat iterations] ++ keyLength ++
        [AlgorithmId.element ⟨digest.oid, some .null⟩]))⟩
  | .costly salt cost =>
      ⟨oidCostly, some (.sequence ([.octetString salt, .ofNat cost.rounds, .ofNat cost.blockFactor,
        .ofNat cost.lanes] ++ keyLength))⟩

/-- Whether a cost can be paid: the rounds are a power of two that the size of a block allows, and
what is to be mixed fits the counters. -/
def payable (cost : Scrypt.Cost) : Bool :=
  cost.rounds == 1 <<< Nat.log2 cost.rounds && 0 < cost.blockFactor && 0 < cost.lanes &&
    Nat.log2 cost.rounds < 16 * cost.blockFactor && cost.blockFactor * cost.lanes < 0x40000000 &&
    128 * cost.blockFactor * cost.rounds ≤ 0xFFFFFFFFFFFFFFFF

/-- The key of a given length, if the derivation is in use and does not tell another length. -/
def key? (d : KeyDerivation) (password : Octets) (length : Nat) : Option Octets := do
  guard (d.keyLength.all (· == length))
  match d.derivation with
  | .iterated digest salt iterations =>
      some (Pbkdf2.derive (← digest.digest?) password salt iterations length)
  | .costly salt cost =>
      if payable cost then some (Scrypt.derive password salt cost length) else none

end KeyDerivation

/-! ### Encryption -/

/-- A cipher, by the length of its key, and its start vector. -/
structure KeyCipher where
  keyLength : Nat
  start : Octets
  deriving DecidableEq, Repr

namespace KeyCipher

/-- The object identifiers of the ciphers and the lengths of their keys. -/
def known : List (ObjectId × Nat) :=
  [(2, 16), (22, 24), (42, 32)].map fun (last, length) =>
    (.ofArcs [2, 16, 840, 1, 101, 3, 4, 1, last], length)

/-- The cipher that an algorithm identifier names. -/
def ofAlgorithm? (a : AlgorithmId) : Option KeyCipher := do
  let start ← (← a.parameters).octetString?
  let (_, keyLength) ← known.find? (·.1 = a.oid)
  if start.length = Cbc.blockSize then some ⟨keyLength, start⟩ else none

/-- A cipher as an algorithm identifier. -/
def algorithm? (c : KeyCipher) : Option AlgorithmId := do
  let (oid, _) ← known.find? (·.2 = c.keyLength)
  some ⟨oid, some (.octetString c.start)⟩

end KeyCipher

/-- How a private key is encrypted. -/
inductive Scheme where
  /-- A derivation and a cipher, each told on its own. -/
  | separate (derivation : KeyDerivation) (cipher : KeyCipher)
  /-- One of the fixed pairs of a digest function and a cipher, which are not in use. -/
  | fixedPair
  deriving DecidableEq, Repr

namespace Scheme

/-- A derivation and a cipher told each on its own. -/
def oidSeparate : ObjectId := .ofArcs [1, 2, 840, 113549, 1, 5, 13]

/-- The fixed pairs. -/
def oidFixedPairs : List ObjectId :=
  [1, 3, 4, 6, 10, 11].map fun last => .ofArcs [1, 2, 840, 113549, 1, 5, last]

/-- Whether an element holds the parameters of a fixed pair: a salt of eight octets and a count. -/
def isFixedPairParameters (e : Element) : Bool :=
  match e.sequence? with
  | some [salt, count] =>
      (salt.octetString?.any (·.length == 8)) && (count.natUpTo? 0xFFFF).isSome
  | _ => false

/-- The scheme that an algorithm identifier names. -/
def ofAlgorithm? (a : AlgorithmId) : Option Scheme := do
  let parameters ← a.parameters
  if a.oid = oidSeparate then
    match ← parameters.sequence? with
    | [derivation, cipher] =>
        let derivation ← KeyDerivation.ofAlgorithm? (← AlgorithmId.ofElement? derivation)
        let cipher ← KeyCipher.ofAlgorithm? (← AlgorithmId.ofElement? cipher)
        some (.separate derivation cipher)
    | _ => none
  else if a.oid ∈ oidFixedPairs ∧ isFixedPairParameters parameters then some .fixedPair
  else none

end Scheme

/-- A private key under a password. -/
structure EncryptedKey where
  scheme : Scheme
  content : Octets
  deriving DecidableEq, Repr

namespace EncryptedKey

/-- The encrypted key that an octet string is. -/
def decode (bytes : Octets) : Option EncryptedKey := do
  match ← (← Element.decode bytes).sequence? with
  | [scheme, content] =>
      some ⟨← Scheme.ofAlgorithm? (← AlgorithmId.ofElement? scheme), ← content.octetString?⟩
  | _ => none

/-- The sequence that is encrypted, with the right password. -/
def decrypt (k : EncryptedKey) (password : Octets) : Option Octets := do
  match k.scheme with
  | .fixedPair => none
  | .separate derivation cipher =>
      let key ← derivation.key? password cipher.keyLength
      let plain ← Cbc.decrypt key cipher.start k.content
      if ((Element.decode plain).bind (·.content? tagSequence)).isSome then some plain else none

/-- The octets of a sequence encrypted under a password. -/
def encrypt? (derivation : KeyDerivation) (cipher : KeyCipher) (password plain : Octets) :
    Option Octets := do
  let key ← derivation.key? password cipher.keyLength
  let scheme : AlgorithmId := ⟨Scheme.oidSeparate,
    some (.sequence [derivation.algorithm.element, (← cipher.algorithm?).element])⟩
  some (Element.sequence
    [scheme.element, .octetString (Cbc.encrypt key cipher.start plain)]).encode

end EncryptedKey

end SecureElement.Key
