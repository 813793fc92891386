import PoprfRistretto.DleqSoundness
import PoprfRistretto.Poprf.Batching

/-!
# Answers with one nonce

The server's answers are proved with a nonce that the caller supplies or the generator draws. Here two
answers share it, whichever of the four calls gave them. Their proofs then tell the secret key, unless
they have one challenge: that is, unless they are the same proof of the same claim, or the transcripts
that they hash collide.
-/

namespace PoprfRistretto

open DiscreteLogEquality ExceptLoop

variable {G : Type} [AddCommGroup G] [Module Scalar G] [DecidableEq G]

variable (S : Suite G) (server : PoprfServer)

/-- A successful call of the server whose proof is made with the nonce `r`. -/
inductive PoprfServer.Answered (r : Scalar) (info : Bytes) :
    List (BlindedElement G) → List (EvaluatedElement G) → Proof → Prop where
  | token (F : Features) {proofRBytes : BytesN 32} {b : BlindedElement G} {e : EvaluatedElement G}
      {proof : Proof} (hr : S.deserializeScalar proofRBytes.toList = .ok r)
      (h : server.blindEvaluateWithProofScalar S F b info proofRBytes = .ok (e, proof)) :
      Answered r info [b] [e] proof
  | batch (F : Features) {proofRBytes : BytesN 32} {blinded : List (BlindedElement G)}
      {evaluated : List (EvaluatedElement G)} {proof : Proof}
      (hr : S.deserializeScalar proofRBytes.toList = .ok r)
      (h : server.blindEvaluateBatchWithProofScalar S F blinded info proofRBytes =
        .ok (evaluated, proof)) :
      Answered r info blinded evaluated proof
  | drawnToken {R : Type} [Rng R] (F : Features) {fuel : ℕ} {rng drawn rng' : R}
      {b : BlindedElement G} {e : EvaluatedElement G} {proof : Proof}
      (hr : randomScalar fuel rng = some (r, drawn))
      (h : server.blindEvaluate S F fuel rng b info = some (.ok (e, proof), rng')) :
      Answered r info [b] [e] proof
  | drawnBatch {R : Type} [Rng R] (F : Features) {fuel : ℕ} {rng drawn rng' : R}
      {blinded : List (BlindedElement G)} {evaluated : List (EvaluatedElement G)} {proof : Proof}
      (hr : randomScalar fuel rng = some (r, drawn))
      (h : server.blindEvaluateBatch S F fuel rng blinded info =
        some (.ok (evaluated, proof), rng')) :
      Answered r info blinded evaluated proof

variable {S server}

/-- Every answer is that of the batch body for its nonce. -/
theorem PoprfServer.Answered.exists_batch {r : Scalar} {info : Bytes}
    {blinded : List (BlindedElement G)} {evaluated : List (EvaluatedElement G)} {proof : Proof}
    (h : server.Answered S r info blinded evaluated proof) :
    ∃ F, server.blindEvaluateBatchWithRInner S F blinded info r = .ok (evaluated, proof) := by
  cases h with
  | token F hr h =>
    rw [PoprfServer.blindEvaluateWithProofScalar, hr, ok_bind] at h
    exact ⟨F, by rw [server.blindEvaluateBatchWithRInner_singleton S F, h]; rfl⟩
  | batch F hr h =>
    rw [PoprfServer.blindEvaluateBatchWithProofScalar, hr, ok_bind] at h
    exact ⟨F, h⟩
  | drawnToken F hr h =>
    rw [server.blindEvaluate_of_draw S F hr, server.blindEvaluateWithProofScalar_eq] at h
    have hres := (Prod.mk.inj (Option.some.inj h)).1
    exact ⟨F, by rw [server.blindEvaluateBatchWithRInner_singleton S F, hres]; rfl⟩
  | drawnBatch F hr h =>
    rw [server.blindEvaluateBatch_of_draw S F hr, server.blindEvaluateBatchWithProofScalar_eq] at h
    exact ⟨F, (Prod.mk.inj (Option.some.inj h)).1⟩

variable (S)

/-- The public part of a proof's response: the tweak of its `info`, its challenge and its response. -/
def Proof.response (proof : Proof) (info : Bytes) : Response Scalar where
  tweak := S.tweak info
  c := proof.c
  s := proof.s

variable {S}

/-- The proof of an answer responds with the nonce for the server's key. -/
theorem PoprfServer.Answered.isOf {r : Scalar} {info : Bytes} {blinded : List (BlindedElement G)}
    {evaluated : List (EvaluatedElement G)} {proof : Proof}
    (h : server.Answered S r info blinded evaluated proof) :
    (proof.response S info).IsOf server.sk.scalar r := by
  obtain ⟨F, hbatch⟩ := h.exists_batch
  obtain ⟨-, -, t, ht, hres⟩ := (server.blindEvaluateBatchWithRInner_eq_ok_iff S F).mp hbatch
  obtain ⟨-, rfl, -⟩ := (server.computeT_eq_ok_iff S).mp ht
  obtain ⟨-, rfl⟩ := Prod.mk.inj hres
  rw [S.generateProofWithR_eq F _ _ _ _ _ r rfl]
  rfl

omit [DecidableEq G] in
/-- Two verified proofs with one challenge hash different transcripts, or prove the same claim in the
same way. -/
theorem collision_or_same (F : Features) {pk : G} {info info' : Bytes}
    {cList dList cList' dList' : List G} {proof proof' : Proof}
    (h : S.verifyProof F S.basepoint (S.tweakedKey pk info) cList dList proof = .ok ())
    (h' : S.verifyProof F S.basepoint (S.tweakedKey pk info') cList' dList' proof' = .ok ())
    (hc : proof.c = proof'.c) :
    let transcript := S.verifierTranscript F (S.tweakedKey pk info) cList dList proof
    let transcript' := S.verifierTranscript F (S.tweakedKey pk info') cList' dList' proof'
    (transcript ≠ transcript' ∧ S.hashToScalar [transcript] HASH_TO_SCALAR_DST =
      S.hashToScalar [transcript'] HASH_TO_SCALAR_DST) ∨
    (proof = proof' ∧ S.tweak info = S.tweak info' ∧
      S.computeComposites F (S.tweakedKey pk info) cList dList =
        S.computeComposites F (S.tweakedKey pk info') cList' dList') := by
  intro transcript transcript'
  by_cases heq : transcript = transcript'
  · obtain ⟨hkey, hm, hz, h2, -⟩ := S.challengeTranscript_inj heq
    have htweak : S.tweak info = S.tweak info' :=
      smul_left_injective Scalar S.basepoint_ne_zero (add_right_cancel hkey)
    -- with the key and the challenge the same, the first commitment determines the response
    have hs : proof.s = proof'.s := by
      rw [hkey, hc] at h2
      exact response_unique (c := proof'.c) (M := 0) (Z := 0) S.basepoint_ne_zero h2
    exact Or.inr ⟨congrArg₂ Proof.mk hc hs, htweak, Prod.ext hm hz⟩
  · refine Or.inl ⟨heq, ?_⟩
    rw [S.hashToScalar_verifierTranscript h, S.hashToScalar_verifierTranscript h', hc]

/-- Two answers with one nonce tell the key to everyone who knows the two infos and proofs, unless the
proofs have one challenge. Then their responses are those of every key with some nonce, and either the
proofs are the same proof of the same claim or two different transcripts have one hash. -/
theorem nonce_reuse (S : Suite G) (F : Features) (server : PoprfServer) {r : Scalar}
    {info info' : Bytes} {blinded blinded' : List (BlindedElement G)}
    {evaluated evaluated' : List (EvaluatedElement G)} {proof proof' : Proof}
    (h : server.Answered S r info blinded evaluated proof)
    (h' : server.Answered S r info' blinded' evaluated' proof') :
    let key := fun info => S.tweakedKey (server.publicKey S).point info
    let transcript := S.verifierTranscript F (key info) (evaluated.map (·.point))
      (blinded.map (·.point)) proof
    let transcript' := S.verifierTranscript F (key info') (evaluated'.map (·.point))
      (blinded'.map (·.point)) proof'
    (proof.c ≠ proof'.c →
      extract (proof.response S info) (proof'.response S info') = server.sk.scalar) ∧
    (proof.c = proof'.c →
      (∀ k, ∃ nonce, (proof.response S info).IsOf k nonce ∧
        (proof'.response S info').IsOf k nonce) ∧
      ((transcript ≠ transcript' ∧ S.hashToScalar [transcript] HASH_TO_SCALAR_DST =
          S.hashToScalar [transcript'] HASH_TO_SCALAR_DST) ∨
        (proof = proof' ∧ S.tweak info = S.tweak info' ∧
          S.computeComposites F (key info) (evaluated.map (·.point)) (blinded.map (·.point)) =
            S.computeComposites F (key info') (evaluated'.map (·.point))
              (blinded'.map (·.point))))) := by
  intro key transcript transcript'
  refine ⟨extract_eq h.isOf h'.isOf, fun hc => ⟨h.isOf.exists_nonce h'.isOf hc, ?_⟩⟩
  obtain ⟨F₁, hbatch⟩ := h.exists_batch
  obtain ⟨F₂, hbatch'⟩ := h'.exists_batch
  exact collision_or_same F (server.verifyProof_blindEvaluateBatchWithRInner S F₁ F hbatch)
    (server.verifyProof_blindEvaluateBatchWithRInner S F₂ F hbatch') hc

/-- A token and a batch on the executable suite, with a nonce that is supplied for the one and drawn for
the other: the two proofs tell the key `5`. -/
theorem nonce_reuse_reference :
    let S := referenceSuite
    let F : Features := ⟨true, true⟩
    let t := 5 + S.tweak [1]
    let proof := S.generateProofWithR F t S.basepoint (t • S.basepoint) [t⁻¹ • 2] [2] 7
    let proof' := S.generateProofWithR F t S.basepoint (t • S.basepoint) [t⁻¹ • 2, t⁻¹ • 3] [2, 3] 7
    extract (proof.response S [1]) (proof'.response S [1]) = 5 := by
  intro S F t proof proof'
  let server := PoprfServer.new ⟨5⟩
  have ht : server.computeT S [1] = .ok t :=
    server.computeT_of_ne_zero S (by decide) (by decide +kernel)
  have hdraw : randomScalar 1 (Replay.mk [7]) = some (7, Replay.mk []) :=
    randomScalar_replay (by decide +kernel) []
  have htoken : server.blindEvaluateWithProofScalar S F ⟨2⟩ [1] (S.serializeScalarArray 7) =
      .ok (⟨t⁻¹ • 2⟩, proof) := by
    rw [server.blindEvaluateWithProofScalar_eq]
    exact server.blindEvaluateWithRInner_eq_ok S F (by decide +kernel) ht 7
  have hbatch : server.blindEvaluateBatchWithProofScalar S F [⟨2⟩, ⟨3⟩] [1]
      (S.serializeScalarArray 7) = .ok ([⟨t⁻¹ • 2⟩, ⟨t⁻¹ • 3⟩], proof') := by
    rw [server.blindEvaluateBatchWithProofScalar_eq]
    exact server.blindEvaluateBatchWithRInner_eq_ok S F (by decide) (by decide +kernel) ht 7
  have hdrawn : server.blindEvaluateBatch S F 1 (Replay.mk [7]) [⟨2⟩, ⟨3⟩] [1] =
      some (.ok ([⟨t⁻¹ • 2⟩, ⟨t⁻¹ • 3⟩], proof'), Replay.mk []) := by
    rw [server.blindEvaluateBatch_of_draw S F hdraw, hbatch]
    rfl
  have hc : proof.c ≠ proof'.c := by decide +kernel
  exact (nonce_reuse S F server
    (.token F (S.deserializeScalar_serializeScalarArray 7) htoken) (.drawnBatch F hdraw hdrawn)).1 hc
end PoprfRistretto
