import SecureElement.Proofs.Authority.Texts
import SecureElement.Proofs.Crypto.Encodings

/-!
The signatures of requests.
-/

namespace SecureElement.Authority

open Crypto X509

/-- A request is accepted exactly if it is signed by the key that it carries. -/
theorem verifyRequest_eq_ok_iff {request : Request} :
    verifyRequest request = .ok () ↔
      request.algorithm.oid = oidEcdsaWithSha256 ∧
      ∃ point, p256Point? request.info.publicKey = some point ∧
        Ecdsa.Accepts point request.info.encode request.signature.octets := by
  unfold verifyRequest
  by_cases algorithm : request.algorithm.oid = oidEcdsaWithSha256
  · simp only [algorithm, ne_eq, not_true_eq_false, if_false, bind_eq_ok_iff, orRefuse_eq_ok_iff,
      true_and]
    refine exists_congr fun point => and_congr_right fun _ => exists_congr fun σ =>
      and_congr_right fun _ => ?_
    by_cases holds : Ecdsa.verify point request.info.encode σ = true
    · simp [holds, pure, Except.pure]
    · simp [holds, refuse]
  · simp [algorithm, refuse, bind, Except.bind]

end SecureElement.Authority
