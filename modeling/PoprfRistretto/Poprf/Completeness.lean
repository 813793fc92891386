import PoprfRistretto.Poprf.ServerTheorems
import PoprfRistretto.ReferenceSuite

/-!
# Honest proofs are accepted

A DLEQ proof of true claims verifies, whatever the points, the nonce and the two builds. What the
server returns is such a proof for the tweaked key, so that every answer verifies, also when the
client chose its blinded elements freely.
-/

namespace PoprfRistretto

open ExceptLoop

variable {G : Type} [AddCommGroup G] [Module Scalar G] [DecidableEq G]

/-- `res` is what one of the single-token calls returns as `Ok`. -/
inductive PoprfServer.Answers (S : Suite G) (F : Features) (server : PoprfServer) (info : Bytes)
    (blinded : BlindedElement G) (res : EvaluatedElement G × Proof) : Prop where
  | rng (R : Type) [Rng R] (fuel : ℕ) (rng rng' : R)
      (h : server.blindEvaluate S F fuel rng blinded info = some (.ok res, rng'))
  | proofScalar (proofRBytes : BytesN 32)
      (h : server.blindEvaluateWithProofScalar S F blinded info proofRBytes = .ok res)

/-- `res` is what one of the batch calls returns as `Ok`. -/
inductive PoprfServer.AnswersBatch (S : Suite G) (F : Features) (server : PoprfServer)
    (info : Bytes) (blinded : List (BlindedElement G))
    (res : List (EvaluatedElement G) × Proof) : Prop where
  | rng (R : Type) [Rng R] (fuel : ℕ) (rng rng' : R)
      (h : server.blindEvaluateBatch S F fuel rng blinded info = some (.ok res, rng'))
  | proofScalar (proofRBytes : BytesN 32)
      (h : server.blindEvaluateBatchWithProofScalar S F blinded info proofRBytes = .ok res)

namespace PoprfServer

variable {S : Suite G} {F : Features} {server : PoprfServer} {info : Bytes}

/-- An answer comes from the common body, for some nonce. -/
theorem Answers.spec {blinded : BlindedElement G} {res : EvaluatedElement G × Proof}
    (h : server.Answers S F info blinded res) :
    ∃ r, server.blindEvaluateWithRInner S F blinded info r = .ok res := by
  rcases h with ⟨R, fuel, rng, rng', h⟩ | ⟨proofRBytes, h⟩
  · obtain ⟨r, hr⟩ := server.blindEvaluate_eq_some S F h
    exact ⟨r, hr.symm⟩
  · obtain ⟨r, -, hr⟩ := bind_eq_ok_iff.mp h
    exact ⟨r, hr⟩

/-- An answer to a batch comes from the common body, for some nonce. -/
theorem AnswersBatch.spec {blinded : List (BlindedElement G)}
    {res : List (EvaluatedElement G) × Proof} (h : server.AnswersBatch S F info blinded res) :
    ∃ r, server.blindEvaluateBatchWithRInner S F blinded info r = .ok res := by
  rcases h with ⟨R, fuel, rng, rng', h⟩ | ⟨proofRBytes, h⟩
  · obtain ⟨r, hr⟩ := server.blindEvaluateBatch_eq_some S F h
    exact ⟨r, hr.symm⟩
  · obtain ⟨r, -, hr⟩ := bind_eq_ok_iff.mp h
    exact ⟨r, hr⟩

end PoprfServer

/-- A proof of true claims is accepted, for points and nonces of any value and prover and verifier of
any build. In particular every answer of a server is accepted under its tweaked key. -/
theorem proofs_complete (S : Suite G) (F F' : Features) :
    (∀ (k r : Scalar) (cList dList : List G), cList.length = dList.length →
      (∀ (i : ℕ) (hc : i < cList.length) (hd : i < dList.length), dList[i] = k • cList[i]) →
      S.verifyProof F' S.generator (S.scalarMulGen k) cList dList
        (S.generateProofWithR F k S.generator (S.scalarMulGen k) cList dList r) = .ok ()) ∧
    (∀ (server : PoprfServer) (info : Bytes) (blinded : BlindedElement G)
      (evaluated : EvaluatedElement G) (proof : Proof),
      server.Answers S F info blinded (evaluated, proof) →
      S.verifyProof F' S.generator (S.tweakedKey (server.publicKey S).point info)
        [evaluated.point] [blinded.point] proof = .ok ()) ∧
    (∀ (server : PoprfServer) (info : Bytes) (blinded : List (BlindedElement G))
      (evaluated : List (EvaluatedElement G)) (proof : Proof),
      server.AnswersBatch S F info blinded (evaluated, proof) →
      S.verifyProof F' S.generator (S.tweakedKey (server.publicKey S).point info)
        (evaluated.map (·.point)) (blinded.map (·.point)) proof = .ok ()) := by
  refine ⟨?_, ?_, ?_⟩
  · intro k r cList dList hlen hD
    exact S.verifyProof_generateProofWithR F F' k _ _ _ (Suite.eq_map_smul hlen hD) r
  · intro server info blinded evaluated proof h
    obtain ⟨r, hr⟩ := h.spec
    exact server.verifyProof_blindEvaluateWithRInner S F F' hr
  · intro server info blinded evaluated proof h
    obtain ⟨r, hr⟩ := h.spec
    exact server.verifyProof_blindEvaluateBatchWithRInner S F F' hr

/-- Proofs on the executable suite, of a multi-scalar prover to a plain verifier. -/
theorem proofs_complete_reference :
    let S := referenceSuite
    let F : Features := ⟨true, false⟩
    let F' : Features := ⟨false, true⟩
    let server := PoprfServer.new ⟨5⟩
    let t := 5 + S.tweak [1]
    let proof := fun cs ds => S.generateProofWithR F t S.basepoint (t • S.basepoint) cs ds 7
    S.verifyProof F' S.generator (S.scalarMulGen 5) [2, 3] [10, 15]
        (S.generateProofWithR F 5 S.generator (S.scalarMulGen 5) [2, 3] [10, 15] 0) = .ok () ∧
      S.verifyProof F' S.generator (S.tweakedKey (server.publicKey S).point [1]) [t⁻¹ • 2] [2]
        (proof [t⁻¹ • 2] [2]) = .ok () ∧
      S.verifyProof F' S.generator (S.tweakedKey (server.publicKey S).point [1])
        [t⁻¹ • 2, t⁻¹ • 3] [2, 3] (proof [t⁻¹ • 2, t⁻¹ • 3] [2, 3]) = .ok () := by
  intro S F F' server t proof
  have ht : server.computeT S [1] = .ok t :=
    server.computeT_of_ne_zero S (by decide) (by decide +kernel)
  obtain ⟨hproof, hsingle, hbatch⟩ := proofs_complete S F F'
  refine ⟨hproof 5 0 [2, 3] [10, 15] rfl (by decide +kernel), ?_, ?_⟩
  · refine hsingle server [1] ⟨2⟩ ⟨t⁻¹ • 2⟩ _ (.proofScalar (S.serializeScalarArray 7) ?_)
    rw [server.blindEvaluateWithProofScalar_eq]
    exact server.blindEvaluateWithRInner_eq_ok S F (by decide +kernel) ht 7
  · refine hbatch server [1] [⟨2⟩, ⟨3⟩] [⟨t⁻¹ • 2⟩, ⟨t⁻¹ • 3⟩] _
      (.proofScalar (S.serializeScalarArray 7) ?_)
    rw [server.blindEvaluateBatchWithProofScalar_eq]
    exact server.blindEvaluateBatchWithRInner_eq_ok S F (by decide) (by decide +kernel) ht 7

end PoprfRistretto
