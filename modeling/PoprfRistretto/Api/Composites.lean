import PoprfRistretto.Api.Calls
import PoprfRistretto.Instrumented.Events
import PoprfRistretto.ReferenceSuite

/-!
# The composite computations

Prover and verifier compute the composites with a multi-scalar multiplication or with a loop, as their
build selects. The four computations agree on lists of equal length, and no call of a public function
reaches them with others.
-/

namespace PoprfRistretto

open Logged Instrumented DiscreteLogEquality

variable {G : Type} [AddCommGroup G] [Module Scalar G]

/-! ## Agreement -/

/-- The prover's second composite is the verifier's when the folded claim is true. -/
theorem Suite.computeComposites_snd_eq_iff (S : Suite G) (F F' : Features) (k : Scalar) (b : G)
    {cList dList : List G} (hlen : cList.length = dList.length) :
    (S.computeCompositesFast F k b cList dList).2 = (S.computeComposites F' b cList dList).2 ↔
      k • (S.computeComposites F' b cList dList).1 =
        weightedSum (S.compositeWeights b cList dList) dList := by
  rw [S.computeCompositesFast_eq F k b hlen, S.computeComposites_eq F' b hlen]

/-- A batch of true claims folds into a true claim. -/
theorem Suite.smul_fst_computeComposites (S : Suite G) (F : Features) {k : Scalar} (b : G)
    {cList dList : List G} (hlen : cList.length = dList.length)
    (hD : ∀ (i : ℕ) (hc : i < cList.length) (hd : i < dList.length), dList[i] = k • cList[i]) :
    k • (S.computeComposites F b cList dList).1 =
      weightedSum (S.compositeWeights b cList dList) dList := by
  rw [S.computeComposites_eq F b hlen, smul_weightedSum, ← Suite.eq_map_smul hlen hD]

/-! ## The lists -/

/-- The lists of a composite computation or of `msm` have one length. -/
def Instrumented.Event.Aligned : Event → Prop
  | composites cLen dLen => cLen = dLen
  | msm scalars points => scalars = points
  | _ => True

variable [DecidableEq G] {S : Suite G} {R : Type} [Rng R] {F : Features}

/-- A proof over `n` pairs computes the composites and calls `msm` with lists of length `n`. -/
theorem encodesBatch_aligned (n : ℕ) : EncodesBatch F Event.Aligned n :=
  ⟨⟨trivial, trivial, trivial⟩, fun _ _ => trivial, rfl, fun _ => rfl⟩

/-- A single evaluation reaches the composites with one element on both sides. -/
theorem blindEvaluateWithRInner_aligned {server : PoprfServer} {blinded : BlindedElement G}
    {info : Bytes} {r : Scalar} :
    All Event.Aligned (blindEvaluateWithRInner S F server blinded info r).run :=
  (all_blindEvaluateWithRInner S F server).mpr
    fun _ => ⟨fun _ => trivial, fun _ _ => ⟨trivial, encodesBatch_aligned 1⟩⟩

/-- A batch evaluation reaches them with the elements and their evaluations. -/
theorem blindEvaluateBatchWithRInner_aligned {server : PoprfServer}
    {blinded : List (BlindedElement G)} {info : Bytes} {r : Scalar} :
    All Event.Aligned (blindEvaluateBatchWithRInner S F server blinded info r).run :=
  (all_blindEvaluateBatchWithRInner S F server).mpr
    fun _ _ => ⟨fun _ => trivial, fun _ _ => ⟨trivial, encodesBatch_aligned _⟩⟩

/-- No call of a public function reaches a composite computation or `msm` with lists of different
lengths. -/
theorem Call.aligned (c : Call S R) : All Event.Aligned (c.exec F) := by
  cases c with
  | deriveKeyPair seed info =>
    exact all_map.mpr ((all_deriveKeyPair S).mpr fun _ => trivial)
  | serverFromSeed seed info =>
    exact all_map.mpr ((all_fromSeed S).mpr fun _ => trivial)
  | blind client fuel input info rng =>
    exact all_map.mpr ((all_blind S client).mpr fun _ _ _ => trivial)
  | blindWithScalar client input info blindBytes =>
    exact all_map.mpr ((all_blindWithScalar S client).mpr fun _ _ _ _ => trivial)
  | finalize client input state evaluated blinded proof info =>
    exact all_map.mpr ((all_finalize S F).mpr fun _ _ =>
      ⟨encodesBatch_aligned 1, fun _ => ⟨trivial, trivial, trivial, trivial, trivial⟩⟩)
  | finalizeBatch client inputs states evaluated blinded proof info =>
    -- the lengths are compared before the proof is verified
    exact all_map.mpr ((all_finalizeBatch S F).mpr fun _ _ =>
      ⟨encodesBatch_aligned _, fun _ _ _ => ⟨trivial, trivial, trivial, trivial, trivial⟩⟩)
  | blindEvaluate server fuel rng blinded info =>
    exact all_map.mpr ((all_blindEvaluate S F server).mpr fun _ =>
      ⟨fun _ => trivial, fun _ _ => ⟨trivial, .inr (encodesBatch_aligned 1)⟩⟩)
  | blindEvaluateWithProofScalar server blinded info proofRBytes =>
    exact all_map.mpr ((all_blindEvaluateWithProofScalar S F server).mpr
      fun _ _ => blindEvaluateWithRInner_aligned)
  | blindEvaluateBatch server fuel rng blinded info =>
    exact all_map.mpr ((all_blindEvaluateBatch S F server).mpr fun _ _ =>
      ⟨fun _ => trivial, fun _ _ => ⟨trivial, .inr (encodesBatch_aligned _)⟩⟩)
  | blindEvaluateBatchWithProofScalar server blinded info proofRBytes =>
    exact all_map.mpr ((all_blindEvaluateBatchWithProofScalar S F server).mpr
      fun _ _ => blindEvaluateBatchWithRInner_aligned)
  | evaluate server input info =>
    exact all_map.mpr ((all_evaluate S server).mpr fun _ _ =>
      ⟨fun _ => trivial, fun _ _ => ⟨trivial, trivial, trivial, trivial, trivial⟩⟩)
  | tableNew input =>
    exact all_map.mpr ((all_newTable S).mpr fun _ _ => trivial)
  | evaluateTables server tables info =>
    exact all_map.mpr ((all_evaluateTables S server).mpr fun _ =>
      ⟨fun _ => trivial, fun _ _ => ⟨trivial, fun _ _ => ⟨trivial, trivial, trivial⟩⟩⟩)
  | _ => exact all_pure _

/-- The four composite computations return one `M`, the two of a function return one `Z`, and the
prover's `Z` is the verifier's exactly when the folded claim is true. Every call of a public function
reaches them with lists of one length, and `msm` with as many scalars as points. -/
theorem composites_agree (S : Suite G) (R : Type) [Rng R] :
    (∀ (k : Scalar) (b : G) (cList dList : List G), cList.length = dList.length →
      (∀ F F', (S.computeCompositesFast F k b cList dList).1 =
        (S.computeComposites F' b cList dList).1) ∧
      (∀ F F', S.computeCompositesFast F k b cList dList =
        S.computeCompositesFast F' k b cList dList) ∧
      (∀ F F', S.computeComposites F b cList dList = S.computeComposites F' b cList dList) ∧
      (∀ F F', (S.computeCompositesFast F k b cList dList).2 =
          (S.computeComposites F' b cList dList).2 ↔
        k • (S.computeComposites F' b cList dList).1 =
          weightedSum (S.compositeWeights b cList dList) dList) ∧
      ((∀ (i : ℕ) (hc : i < cList.length) (hd : i < dList.length), dList[i] = k • cList[i]) →
        ∀ F F', S.computeCompositesFast F k b cList dList =
          S.computeComposites F' b cList dList)) ∧
    ∀ (F : Features) (c : Call S R),
      (∀ cLen dLen, .composites cLen dLen ∈ (c.exec F).log → cLen = dLen) ∧
      ∀ scalars points, .msm scalars points ∈ (c.exec F).log → scalars = points := by
  refine ⟨fun k b cList dList hlen => ⟨?_, ?_, ?_, ?_, ?_⟩, ?_⟩
  · intro F F'
    rw [S.computeCompositesFast_eq F k b hlen, S.computeComposites_eq F' b hlen]
  · intro F F'
    rw [S.computeCompositesFast_eq F k b hlen, S.computeCompositesFast_eq F' k b hlen]
  · intro F F'
    rw [S.computeComposites_eq F b hlen, S.computeComposites_eq F' b hlen]
  · intro F F'
    exact S.computeComposites_snd_eq_iff F F' k b hlen
  · intro hD F F'
    refine Prod.ext ?_ ?_
    · rw [S.computeCompositesFast_eq F k b hlen, S.computeComposites_eq F' b hlen]
    · exact (S.computeComposites_snd_eq_iff F F' k b hlen).mpr
        (S.smul_fst_computeComposites F' b hlen hD)
  · intro F c
    exact ⟨fun cLen dLen h => c.aligned (.composites cLen dLen) h,
      fun scalars points h => c.aligned (.msm scalars points) h⟩

/-- Batches of two on the executable suite. In the first one the second element is false: the second
composites differ, and so does the multiple of the first from the weighted sum. In the other one both
elements are true. -/
theorem composites_agree_reference :
    let S := referenceSuite
    (S.computeCompositesFast ⟨true, true⟩ 5 3 [2, 4] [10, 21]).2 ≠
        (S.computeComposites ⟨false, true⟩ 3 [2, 4] [10, 21]).2 ∧
      S.computeCompositesFast ⟨true, true⟩ 5 3 [2, 4] [10, 20] =
        S.computeComposites ⟨false, true⟩ 3 [2, 4] [10, 20] := by
  intro S
  obtain ⟨h, -⟩ := composites_agree S Replay
  refine ⟨?_, ?_⟩
  · rw [Ne, (h 5 3 [2, 4] [10, 21] rfl).2.2.2.1]
    decide +kernel
  · exact (h 5 3 [2, 4] [10, 20] rfl).2.2.2.2 (by decide +kernel) _ _

end PoprfRistretto
