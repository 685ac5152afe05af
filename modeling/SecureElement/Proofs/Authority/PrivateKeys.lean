import SecureElement.Proofs.Authority.Texts
import SecureElement.Proofs.Key.Ec

/-!
Which private keys are loaded.

A text gives a private key exactly if it holds one of P-256 in one of three forms (`parsePrivateKey_loads`).
In the forms that name the algorithm of the key, the curve that is named there is P-256. The curve that an
elliptic curve's own form names counts for nothing.
-/

namespace SecureElement

open Der X509 Crypto Authority Key

/-- The octets are those of a private key of any algorithm that is for P-256. -/
def Key.KeyInfo.Holds (octets : Octets) (key : P256.PrivateKey) : Prop :=
  ∃ info, KeyInfo.decode octets = some info ∧ info.algorithm.oid = oidEcPublicKey ∧
    info.algorithm.parametersOid? = some oidP256 ∧ EcKey.Holds info.key key

namespace Authority

theorem isP256_iff {info : KeyInfo} :
    info.isP256 = true ↔
      info.algorithm.oid = oidEcPublicKey ∧ info.algorithm.parametersOid? = some oidP256 := by
  simp [KeyInfo.isP256]

theorem privateKeyOfInfo_eq_ok_iff {octets : Octets} {key : P256.PrivateKey} :
    privateKeyOfInfo octets = .ok key ↔ KeyInfo.Holds octets key := by
  unfold privateKeyOfInfo
  constructor
  · intro loaded
    split at loaded
    · cases loaded
    · next info decoded =>
        split at loaded
        · next p256 =>
            obtain ⟨algorithm, curve⟩ := isP256_iff.1 p256
            split at loaded
            · next made =>
                cases loaded
                exact ⟨info, decoded, algorithm, curve, EcKey.ofOctets?_eq_some_iff.1 made⟩
            · cases loaded
        · cases loaded
  · rintro ⟨info, decoded, algorithm, curve, holds⟩
    rw [decoded]
    dsimp only
    rw [if_pos (isP256_iff.2 ⟨algorithm, curve⟩), EcKey.ofOctets?_eq_some_iff.2 holds]

theorem privateKeyOfInfo_of_curve {octets : Octets} {info : KeyInfo}
    (decoded : KeyInfo.decode octets = some info)
    (other : info.algorithm.parametersOid? ≠ some oidP256) :
    privateKeyOfInfo octets = .error (.input (.otherAlgorithm info.algorithm.oid)) := by
  have refused : ¬ info.isP256 = true := by
    rw [isP256_iff]
    intro p256
    exact other p256.2
  unfold privateKeyOfInfo
  rw [decoded]
  exact if_neg refused

/-- The octets of a private key of any algorithm that a document holds: as they are, or under the password. -/
def Discloses (password : Option Octets) (document : Pem.Document) (octets : Octets) : Prop :=
  document.label = keyInfoLabel ∧ octets = document.content ∨
  document.label = encryptedKeyLabel ∧ ∃ given encrypted, password = some given ∧
    EncryptedKey.decode document.content = some encrypted ∧ encrypted.decrypt given = some octets

/-- A document holds a private key of P-256. -/
def HoldsKey (password : Option Octets) (document : Pem.Document) (key : P256.PrivateKey) : Prop :=
  (∃ octets, Discloses password document octets ∧ KeyInfo.Holds octets key) ∨
  document.label = ecKeyLabel ∧ EcKey.Holds document.content key

variable {path : String} {text : Octets} {password : Option Octets} {document : Pem.Document}

theorem labels_ne : encryptedKeyLabel ≠ keyInfoLabel ∧ ecKeyLabel ≠ keyInfoLabel ∧
    ecKeyLabel ≠ encryptedKeyLabel := by
  decide

theorem parsePrivateKey_of_discloses {octets : Octets} (found : Pem.decode text = some document)
    (discloses : Discloses password document octets) :
    parsePrivateKey path text password = privateKeyOfInfo octets := by
  unfold parsePrivateKey
  rw [found]
  rcases discloses with ⟨label, rfl⟩ | ⟨label, given, encrypted, rfl, decoded, decrypted⟩
  · exact if_pos label
  · dsimp only
    rw [label, if_neg labels_ne.1, if_pos rfl, decoded]
    dsimp only
    rw [decrypted]

theorem parsePrivateKey_of_ecKey (found : Pem.decode text = some document)
    (label : document.label = ecKeyLabel) :
    parsePrivateKey path text password =
      (EcKey.ofOctets? document.content).elim (.error (.key .malformed)) .ok := by
  unfold parsePrivateKey
  rw [found]
  dsimp only
  rw [label, if_neg labels_ne.2.1, if_neg labels_ne.2.2, if_pos rfl]
  cases EcKey.ofOctets? document.content <;> rfl

/-- A document that gives a key discloses one of any algorithm or is in an elliptic curve's own form. -/
theorem discloses_of_parsePrivateKey {key : P256.PrivateKey} (found : Pem.decode text = some document)
    (loaded : parsePrivateKey path text password = .ok key) :
    (∃ octets, Discloses password document octets) ∨ document.label = ecKeyLabel := by
  unfold parsePrivateKey at loaded
  rw [found] at loaded
  dsimp only at loaded
  split at loaded
  · next label => exact .inl ⟨_, .inl ⟨label, rfl⟩⟩
  · split at loaded
    · next label =>
        split at loaded
        · cases loaded
        · next given =>
            split at loaded
            · cases loaded
            · next encrypted decoded =>
                split at loaded
                · cases loaded
                · next plain decrypted =>
                    exact .inl ⟨plain, .inr ⟨label, given, encrypted, rfl, decoded, decrypted⟩⟩
    · split at loaded
      · next label => exact .inr label
      · cases loaded

theorem parsePrivateKey_eq_ok_iff {key : P256.PrivateKey} :
    parsePrivateKey path text password = .ok key ↔
      ∃ document, Pem.decode text = some document ∧ HoldsKey password document key := by
  constructor
  · intro loaded
    cases found : Pem.decode text with
    | none =>
        unfold parsePrivateKey at loaded
        rw [found] at loaded
        cases loaded
    | some document =>
        refine ⟨document, rfl, ?_⟩
        rcases discloses_of_parsePrivateKey found loaded with ⟨octets, discloses⟩ | label
        · rw [parsePrivateKey_of_discloses found discloses, privateKeyOfInfo_eq_ok_iff] at loaded
          exact .inl ⟨octets, discloses, loaded⟩
        · rw [parsePrivateKey_of_ecKey found label] at loaded
          cases made : EcKey.ofOctets? document.content with
          | none =>
              rw [made] at loaded
              cases loaded
          | some _ =>
              rw [made] at loaded
              cases loaded
              exact .inr ⟨label, EcKey.ofOctets?_eq_some_iff.1 made⟩
  · rintro ⟨document, found, ⟨octets, discloses, holds⟩ | ⟨label, holds⟩⟩
    · rw [parsePrivateKey_of_discloses found discloses, privateKeyOfInfo_eq_ok_iff]
      exact holds
    · rw [parsePrivateKey_of_ecKey found label, EcKey.ofOctets?_eq_some_iff.2 holds]
      rfl

/-- The password is used for an encrypted key and for no other. -/
theorem parsePrivateKey_of_plain (found : Pem.decode text = some document)
    (plain : document.label ≠ encryptedKeyLabel) (other : Option Octets) :
    parsePrivateKey path text other = parsePrivateKey path text password := by
  unfold parsePrivateKey
  rw [found]
  dsimp only
  rw [if_neg plain, if_neg plain]

/-- The text of a private key in an elliptic curve's own form. -/
def ecKeyText (k : EcKey) : Octets :=
  Pem.encode ⟨ecKeyLabel, k.encode⟩

theorem decode_ecKeyText (k : EcKey) : Pem.decode (ecKeyText k) = some ⟨ecKeyLabel, k.encode⟩ := by
  have label : Pem.isLabel false ecKeyLabel = true := by decide
  have free : ∀ b ∈ ecKeyLabel, b ≠ 0x2D := by decide +kernel
  exact Pem.decode_encode label free (List.cons_ne_nil _ _)

/-- A text gives a key exactly if it holds one of P-256 whose scalar is in range. A key of any algorithm that
names another curve is refused, whatever else it holds. The password matters to encrypted keys only. In the
form that is an elliptic curve's own, the key is loaded whatever curve is named. -/
theorem parsePrivateKey_loads (path : String) (text : Octets) (password : Option Octets) :
    (∀ key, parsePrivateKey path text password = .ok key ↔
      ∃ document, Pem.decode text = some document ∧ HoldsKey password document key) ∧
    (∀ document octets info, Pem.decode text = some document → Discloses password document octets →
      KeyInfo.decode octets = some info → info.algorithm.parametersOid? ≠ some oidP256 →
      parsePrivateKey path text password = .error (.input (.otherAlgorithm info.algorithm.oid))) ∧
    (∀ document other, Pem.decode text = some document → document.label ≠ encryptedKeyLabel →
      parsePrivateKey path text other = parsePrivateKey path text password) ∧
    (∀ (k : EcKey) curve, (ObjectId.arcs? curve.content).isSome →
      { k with curve := some curve }.element.Fits →
      parsePrivateKey path (ecKeyText { k with curve := some curve }) password =
        k.privateKey?.elim (.error (.key .malformed)) .ok) := by
  refine ⟨fun key => parsePrivateKey_eq_ok_iff, ?_, ?_, ?_⟩
  · intro document octets info found discloses decoded other
    rw [parsePrivateKey_of_discloses found discloses]
    exact privateKeyOfInfo_of_curve decoded other
  · intro document other found plain
    exact parsePrivateKey_of_plain found plain other
  · intro k curve named fits
    rw [parsePrivateKey_of_ecKey (decode_ecKeyText _) rfl, EcKey.ofOctets?_of_curve named fits]

end Authority

end SecureElement
