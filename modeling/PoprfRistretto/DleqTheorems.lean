import PoprfRistretto.Transcripts
import PoprfRistretto.Library.DiscreteLogEquality

/-!
# What the DLEQ functions compute

The four composite computations are weighted sums with the same weights, and prover and verifier hash
the same challenge transcript over them. Completeness, the binding of a challenge to its transcript
and the soundness of a batch follow from the algebra of `DiscreteLogEquality`.
-/

namespace PoprfRistretto.Suite

open DiscreteLogEquality

variable {G : Type} [AddCommGroup G]

/-! ## The loops -/

/-- A fold that adds one term per entry computes the sum of the terms. -/
theorem foldl_elementAdd {α : Type} (f : α → G) (l : List α) (acc : G) :
    l.foldl (fun acc a => elementAdd (f a) acc) acc = (l.map f).sum + acc := by
  induction l generalizing acc with
  | nil => simp
  | cons a l ih =>
    rw [List.foldl_cons, ih, List.map_cons, List.sum_cons, elementAdd_eq]
    abel

/-- A fold over a pair of accumulators is a pair of folds. -/
theorem foldl_elementAdd_pair {α : Type} (f g : α → G) (l : List α) (m z : G) :
    l.foldl (fun (acc : G × G) a => (elementAdd (f a) acc.1, elementAdd (g a) acc.2)) (m, z) =
      ((l.map f).sum + m, (l.map g).sum + z) := by
  induction l generalizing m z with
  | nil => simp
  | cons a l ih =>
    rw [List.foldl_cons, ih, List.map_cons, List.sum_cons, List.map_cons, List.sum_cons,
      elementAdd_eq, elementAdd_eq, Prod.mk.injEq]
    constructor <;> abel

/-- The left points of an indexed zip. -/
theorem map_left_zipIdx_zip {α : Type} {cList dList : List α} (hlen : cList.length = dList.length) :
    (cList.zip dList).zipIdx.map (fun p => p.1.1) = cList := by
  have hfst : (cList.zip dList).zipIdx.map (fun p => p.1.1)
      = ((cList.zip dList).zipIdx.map Prod.fst).map Prod.fst := by
    rw [List.map_map]
    rfl
  rw [hfst, List.zipIdx_map_fst, List.map_fst_zip hlen.le]

/-- The right points of an indexed zip. -/
theorem map_right_zipIdx_zip {α : Type} {cList dList : List α} (hlen : cList.length = dList.length) :
    (cList.zip dList).zipIdx.map (fun p => p.1.2) = dList := by
  have hsnd : (cList.zip dList).zipIdx.map (fun p => p.1.2)
      = ((cList.zip dList).zipIdx.map Prod.fst).map Prod.snd := by
    rw [List.map_map]
    rfl
  rw [hsnd, List.zipIdx_map_fst, List.map_snd_zip hlen.ge]

variable [Module Scalar G] (S : Suite G)

/-- A list whose entries are the multiples of another's is its image. -/
theorem eq_map_smul {k : Scalar} {cList dList : List G} (hlen : cList.length = dList.length)
    (hD : ∀ (i : ℕ) (hc : i < cList.length) (hd : i < dList.length), dList[i] = k • cList[i]) :
    dList = cList.map (k • ·) := by
  refine List.ext_getElem (by rw [List.length_map, hlen]) fun i hd hmap => ?_
  rw [List.getElem_map]
  exact hD i (by rwa [List.length_map] at hmap) hd

/-! ## Composites -/

/-- The weights `dᵢ` of a batch under the key `b`. -/
def compositeWeights (b : G) (cList dList : List G) : List Scalar :=
  (cList.zip dList).zipIdx.map fun ((ci, diPt), i) =>
    S.compositeDi (i2osp2 (S.compositeSeed b).length) (S.compositeSeed b) i (i2osp2 ELEMENT_LEN)
      ci diPt

/-- There is a weight for every pair of elements. -/
@[simp] theorem length_compositeWeights (b : G) (cList dList : List G) :
    (S.compositeWeights b cList dList).length = min cList.length dList.length := by
  simp [compositeWeights]

/-- The weight of a pair is the hash of its index and its two elements. -/
theorem getElem_compositeWeights (b : G) (cList dList : List G) (i : ℕ)
    (hc : i < cList.length) (hd : i < dList.length)
    (h : i < (S.compositeWeights b cList dList).length) :
    (S.compositeWeights b cList dList)[i] =
      S.compositeDi (i2osp2 (S.compositeSeed b).length) (S.compositeSeed b) i (i2osp2 ELEMENT_LEN)
        cList[i] dList[i] := by
  simp [compositeWeights]

/-- The verifier's composites are the weighted sums of the two lists, in either build. -/
theorem computeComposites_eq (F : Features) (b : G) {cList dList : List G}
    (hlen : cList.length = dList.length) :
    S.computeComposites F b cList dList =
      (weightedSum (S.compositeWeights b cList dList) cList,
        weightedSum (S.compositeWeights b cList dList) dList) := by
  have hm : (S.compositeWeights b cList dList).length = cList.length := by
    rw [length_compositeWeights]; omega
  have hz : (S.compositeWeights b cList dList).length = dList.length := by
    rw [length_compositeWeights]; omega
  by_cases hfast : F.fastDleq
  · simp only [computeComposites, if_pos hfast]
    exact Prod.ext (S.msm_eq_sum hm) (S.msm_eq_sum hz)
  · simp only [computeComposites, if_neg hfast]
    have hterms : ∀ P : (G × G) × ℕ → G,
        weightedSum (S.compositeWeights b cList dList) ((cList.zip dList).zipIdx.map P) =
          ((cList.zip dList).zipIdx.map fun p => scalarMul
            (S.compositeDi (i2osp2 (S.compositeSeed b).length) (S.compositeSeed b) p.2
              (i2osp2 ELEMENT_LEN) p.1.1 p.1.2) (P p)).sum := fun P => weightedSum_map_map _ _ _
    refine (foldl_elementAdd_pair _ _ (cList.zip dList).zipIdx identity identity).trans ?_
    rw [add_zero, add_zero, ← hterms fun p => p.1.1, ← hterms fun p => p.1.2,
      map_left_zipIdx_zip hlen, map_right_zipIdx_zip hlen]

/-- The prover's composites: the weighted sum of the first list and its multiple by the key. -/
theorem computeCompositesFast_eq (F : Features) (k : Scalar) (b : G) {cList dList : List G}
    (hlen : cList.length = dList.length) :
    S.computeCompositesFast F k b cList dList =
      (weightedSum (S.compositeWeights b cList dList) cList,
        k • weightedSum (S.compositeWeights b cList dList) cList) := by
  have hm : (S.compositeWeights b cList dList).length = cList.length := by
    rw [length_compositeWeights]; omega
  -- one build calls `msm`, the other adds up the multiples in a loop
  have hsum : (S.computeCompositesFast F k b cList dList).1 =
      weightedSum (S.compositeWeights b cList dList) cList := by
    by_cases hfast : F.fastDleq
    · simp only [computeCompositesFast, if_pos hfast]
      exact S.msm_eq_sum hm
    · simp only [computeCompositesFast, if_neg hfast]
      refine (foldl_elementAdd _ (cList.zip dList).zipIdx identity).trans ?_
      rw [add_zero]
      have hterms := weightedSum_map_map
        (fun p : (G × G) × ℕ => S.compositeDi (i2osp2 (S.compositeSeed b).length)
          (S.compositeSeed b) p.2 (i2osp2 ELEMENT_LEN) p.1.1 p.1.2) (fun p => p.1.1)
        (cList.zip dList).zipIdx
      rw [map_left_zipIdx_zip hlen] at hterms
      exact hterms.symm
  have hpair : S.computeCompositesFast F k b cList dList =
      ((S.computeCompositesFast F k b cList dList).1,
        k • (S.computeCompositesFast F k b cList dList).1) := rfl
  rw [hpair, hsum]

/-! ## The prover and the verifier -/

/-- The challenge that the verifier recomputes from a proof and the composites. -/
def recomputedChallenge (a b m z : G) (proof : Proof) : Scalar :=
  S.challenge b m z (commitments a b m z proof.c proof.s).1 (commitments a b m z proof.c proof.s).2

/-- The verifier compares the recomputed challenge with the proof's. -/
theorem verifyProof_eq (F : Features) (a b : G) (cList dList : List G) (proof : Proof) :
    S.verifyProof F a b cList dList proof =
      if S.recomputedChallenge a b (S.computeComposites F b cList dList).1
          (S.computeComposites F b cList dList).2 proof = proof.c then .ok ()
      else .error .verify := by
  simp only [verifyProof, appendLp_eq, List.nil_append]
  rfl

/-- A proof is accepted when its challenge is the hash of the commitments that it determines. -/
theorem verifyProof_eq_ok_iff {F : Features} {a b : G} {cList dList : List G} {proof : Proof} :
    S.verifyProof F a b cList dList proof = .ok () ↔
      S.recomputedChallenge a b (S.computeComposites F b cList dList).1
        (S.computeComposites F b cList dList).2 proof = proof.c := by
  rw [verifyProof_eq]
  split <;> simp_all

/-- The prover hashes the composites and the multiples of its nonce. -/
theorem generateProofWithR_eq (F : Features) (k : Scalar) (a b : G) (cList dList : List G)
    (r : Scalar) {m z : G} (h : S.computeCompositesFast F k b cList dList = (m, z)) :
    S.generateProofWithR F k a b cList dList r =
      { c := S.challenge b m z (r • a) (r • m)
        s := r - S.challenge b m z (r • a) (r • m) * k } := by
  simp only [generateProofWithR, h, appendLp_eq, List.nil_append]
  rfl

/-- An honest proof verifies, whatever the points, the nonce and the two builds. -/
theorem verifyProof_generateProofWithR (F F' : Features) (k : Scalar) (a : G) (cList dList : List G)
    (hD : dList = cList.map (k • ·)) (r : Scalar) :
    S.verifyProof F' a (k • a) cList dList
      (S.generateProofWithR F k a (k • a) cList dList r) = .ok () := by
  have hlen : cList.length = dList.length := by rw [hD, List.length_map]
  have hZ : weightedSum (S.compositeWeights (k • a) cList dList) dList =
      k • weightedSum (S.compositeWeights (k • a) cList dList) cList := by
    rw [smul_weightedSum, ← hD]
  rw [S.generateProofWithR_eq F k a (k • a) cList dList r
      (S.computeCompositesFast_eq F k (k • a) hlen), verifyProof_eq_ok_iff,
    S.computeComposites_eq F' (k • a) hlen, hZ]
  generalize weightedSum (S.compositeWeights (k • a) cList dList) cList = m
  rw [recomputedChallenge, commitments_honest rfl rfl]

end PoprfRistretto.Suite
