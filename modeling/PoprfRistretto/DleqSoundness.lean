import PoprfRistretto.DleqTheorems
import PoprfRistretto.ReferenceSuite

/-!
# What an accepted proof shows

No verifier can tell a false claim from a true one when a hash output hits the one value that makes
the difference vanish. For an accepted proof of a false batch, `WeightHits` and `ChallengeHits` say
which hash output hit which value. Two accepted proofs with one challenge are about the same claim, or
their challenge transcripts collide.
-/

namespace PoprfRistretto.Suite

open DiscreteLogEquality

variable {G : Type} [AddCommGroup G] [Module Scalar G] (S : Suite G)

/-! ## Batches -/

/-- The weight `dⱼ` hit the one scalar at which the weighted sum of the deviations `D - k • C`
vanishes, given the other weights. -/
def WeightHits (k : Scalar) (b : G) (cList dList : List G) (j : ℕ) (dj : Scalar) : Prop :=
  ∀ x, weightedSum ((S.compositeWeights b cList dList).set j x) (deviations k cList dList) = 0 ↔
    x = dj

/-- The hash of the transcript hit the one challenge at which a response meets the commitments that
the verifier recomputed. -/
def ChallengeHits (a b m z : G) (proof : Proof) : Prop :=
  proof.c = S.hashToScalar [S.challengeTranscript b m z (proof.s • a + proof.c • b)
    (proof.s • m + proof.c • z)] HASH_TO_SCALAR_DST ∧
  ∀ c' s' : Scalar, s' • a + c' • b = proof.s • a + proof.c • b →
    s' • m + c' • z = proof.s • m + proof.c • z → c' = proof.c

/-- If the composites of a false batch satisfy the claim, the weight of a false pair is determined by
the other weights. -/
theorem weightHits_of_composites {k : Scalar} {b : G} {cList dList : List G}
    (hlen : cList.length = dList.length) {j : ℕ} (hc : j < cList.length) (hd : j < dList.length)
    (hwrong : dList[j] ≠ k • cList[j])
    (hz : weightedSum (S.compositeWeights b cList dList) dList =
      k • weightedSum (S.compositeWeights b cList dList) cList) :
    S.WeightHits k b cList dList j
      (S.compositeDi (i2osp2 (S.compositeSeed b).length) (S.compositeSeed b) j (i2osp2 ELEMENT_LEN)
        cList[j] dList[j]) := by
  intro x
  have hw : j < (S.compositeWeights b cList dList).length := by
    rw [length_compositeWeights]; omega
  have hdev : j < (deviations k cList dList).length := by
    rw [length_deviations]; omega
  have hne : (deviations k cList dList)[j] ≠ 0 := by
    rw [getElem_deviations k cList dList j hc hd hdev]
    exact sub_ne_zero.mpr hwrong
  have hsum : weightedSum (S.compositeWeights b cList dList) (deviations k cList dList) = 0 := by
    rw [weightedSum_deviations k _ hlen, hz, sub_self]
  rw [weightedSum_set_eq_zero_iff hw hdev hne hsum, S.getElem_compositeWeights b _ _ j hc hd hw]

/-- If the composites violate the claim, the challenge is determined by the commitments. -/
theorem challengeHits_of_composites {k : Scalar} {m z : G} (hz : z ≠ k • m) {proof : Proof}
    (hc : S.recomputedChallenge S.basepoint (k • S.basepoint) m z proof = proof.c) :
    S.ChallengeHits S.basepoint (k • S.basepoint) m z proof := by
  refine ⟨hc.symm, ?_⟩
  intro c' s' h2 h3
  exact challenge_unique S.basepoint_ne_zero rfl hz (Prod.ext h2 h3)

/-- A wrong batch is accepted only if one of two hash outputs hits one predetermined scalar. -/
theorem verifyProof_sound (F : Features) {k : Scalar} {cList dList : List G}
    (hlen : cList.length = dList.length) {j : ℕ} (hc : j < cList.length) (hd : j < dList.length)
    (hwrong : dList[j] ≠ k • cList[j]) {proof : Proof}
    (hok : S.verifyProof F S.basepoint (k • S.basepoint) cList dList proof = .ok ()) :
    let b := k • S.basepoint
    let m := (S.computeComposites F b cList dList).1
    let z := (S.computeComposites F b cList dList).2
    (z = k • m ∧ S.WeightHits k b cList dList j
      (S.compositeDi (i2osp2 (S.compositeSeed b).length) (S.compositeSeed b) j (i2osp2 ELEMENT_LEN)
        cList[j] dList[j])) ∨
    (z ≠ k • m ∧ S.ChallengeHits S.basepoint b m z proof) := by
  intro b m z
  by_cases hz : z = k • m
  · refine Or.inl ⟨hz, ?_⟩
    have hcomp := S.computeComposites_eq F b hlen
    refine S.weightHits_of_composites hlen hc hd hwrong ?_
    calc weightedSum (S.compositeWeights b cList dList) dList
        = z := (congrArg Prod.snd hcomp).symm
      _ = k • m := hz
      _ = k • weightedSum (S.compositeWeights b cList dList) cList := by
          rw [show m = _ from congrArg Prod.fst hcomp]
  · exact Or.inr ⟨hz, S.challengeHits_of_composites hz (S.verifyProof_eq_ok_iff.mp hok)⟩

/-- A forged proof for two elements on the executable suite, whose hash ignores the commitments: `15`
is `3 • 5`, but `22` is not `3 • 7`, and the challenge of the composites is accepted with any
response. -/
theorem verifyProof_sound_reference :
    let proof : Proof :=
      ⟨3004972487431634890580560461585801866971868200884138797471467841475798937854, 8⟩
    let m := (referenceSuite.computeComposites ⟨true, false⟩ 3 [5, 7] [15, 22]).1
    let z := (referenceSuite.computeComposites ⟨true, false⟩ 3 [5, 7] [15, 22]).2
    (z = 3 * m ∧ referenceSuite.WeightHits 3 3 [5, 7] [15, 22] 1
      (referenceSuite.compositeDi (i2osp2 (referenceSuite.compositeSeed 3).length)
        (referenceSuite.compositeSeed 3) 1 (i2osp2 ELEMENT_LEN) 7 22)) ∨
    (z ≠ 3 * m ∧ referenceSuite.ChallengeHits 1 3 m z proof) :=
  referenceSuite.verifyProof_sound ⟨true, false⟩ (k := 3) (j := 1) (by decide) (by decide)
    (by decide) (by decide +kernel) (by decide +kernel)

/-! ## Two proofs with one challenge -/

/-- The transcript that the verifier hashes for a proof. -/
def verifierTranscript (F : Features) (b : G) (cList dList : List G) (proof : Proof) : Bytes :=
  let m := (S.computeComposites F b cList dList).1
  let z := (S.computeComposites F b cList dList).2
  S.challengeTranscript b m z (proof.s • S.basepoint + proof.c • b) (proof.s • m + proof.c • z)

/-- An accepted challenge is the hash of the verifier's transcript. -/
theorem hashToScalar_verifierTranscript {F : Features} {b : G} {cList dList : List G} {proof : Proof}
    (hok : S.verifyProof F S.basepoint b cList dList proof = .ok ()) :
    S.hashToScalar [S.verifierTranscript F b cList dList proof] HASH_TO_SCALAR_DST = proof.c :=
  S.verifyProof_eq_ok_iff.mp hok

/-- Two accepted proofs with one challenge have the same key, composites and response, or their
distinct transcripts collide. -/
theorem verifyProof_bound (F₁ F₂ : Features) {b₁ b₂ : G} {cList₁ dList₁ cList₂ dList₂ : List G}
    {c s₁ s₂ : Scalar}
    (hok₁ : S.verifyProof F₁ S.basepoint b₁ cList₁ dList₁ ⟨c, s₁⟩ = .ok ())
    (hok₂ : S.verifyProof F₂ S.basepoint b₂ cList₂ dList₂ ⟨c, s₂⟩ = .ok ()) :
    (b₁ = b₂ ∧ S.computeComposites F₁ b₁ cList₁ dList₁ = S.computeComposites F₂ b₂ cList₂ dList₂ ∧
      s₁ = s₂) ∨
    (S.verifierTranscript F₁ b₁ cList₁ dList₁ ⟨c, s₁⟩ ≠
        S.verifierTranscript F₂ b₂ cList₂ dList₂ ⟨c, s₂⟩ ∧
      S.hashToScalar [S.verifierTranscript F₁ b₁ cList₁ dList₁ ⟨c, s₁⟩] HASH_TO_SCALAR_DST =
        S.hashToScalar [S.verifierTranscript F₂ b₂ cList₂ dList₂ ⟨c, s₂⟩] HASH_TO_SCALAR_DST) := by
  by_cases htranscript : S.verifierTranscript F₁ b₁ cList₁ dList₁ ⟨c, s₁⟩ =
      S.verifierTranscript F₂ b₂ cList₂ dList₂ ⟨c, s₂⟩
  · obtain ⟨hb, hm, hz, h2, -⟩ := S.challengeTranscript_inj htranscript
    subst hb
    refine Or.inl ⟨rfl, Prod.ext hm hz, ?_⟩
    -- with key and challenge equal, the first commitment determines the response
    exact response_unique (c := c) (M := 0) (Z := 0) S.basepoint_ne_zero h2
  · refine Or.inr ⟨htranscript, ?_⟩
    rw [S.hashToScalar_verifierTranscript hok₁, S.hashToScalar_verifierTranscript hok₂]

/-- Two responses to one challenge on the executable suite, verified by two builds. -/
theorem verifyProof_bound_reference :
    let c : Scalar := 6733676992736770242127509330413430800121867876023939677296057018607109111219
    let transcript := fun F s => referenceSuite.verifierTranscript F 3 [5] [16] ⟨c, s⟩
    ((3 : Scalar) = 3 ∧ referenceSuite.computeComposites ⟨true, false⟩ 3 [5] [16] =
        referenceSuite.computeComposites ⟨false, false⟩ 3 [5] [16] ∧ (8 : Scalar) = 9) ∨
    (transcript ⟨true, false⟩ 8 ≠ transcript ⟨false, false⟩ 9 ∧
      referenceSuite.hashToScalar [transcript ⟨true, false⟩ 8] HASH_TO_SCALAR_DST =
        referenceSuite.hashToScalar [transcript ⟨false, false⟩ 9] HASH_TO_SCALAR_DST) :=
  referenceSuite.verifyProof_bound ⟨true, false⟩ ⟨false, false⟩ (by decide +kernel)
    (by decide +kernel)

end PoprfRistretto.Suite
