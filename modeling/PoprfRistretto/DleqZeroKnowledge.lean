import Mathlib.Data.ZMod.Basic
import PoprfRistretto.DleqTheorems
import PoprfRistretto.ReferenceSuite

/-!
# What a proof shows besides its claim

`converse` is the prover with its challenge hash replaced by an oracle. When the oracle answers `c`
whatever it is asked, the conversations of the prover are those of a simulator that has no key: the
response of a nonce is as uniform as the nonce, and it determines the commitments together with public
data.
-/

namespace PoprfRistretto

open DiscreteLogEquality

variable {G : Type} [AddCommGroup G] [Module Scalar G]

/-- The commitments of a prover and its proof. -/
structure Conversation (G : Type) where
  t2 : G
  t3 : G
  proof : Proof
deriving DecidableEq

namespace Suite

variable (S : Suite G)

/-- The body of `generateProofWithR` with the hash that makes the challenge as a parameter. -/
def converse (F : Features) (oracle : Bytes → Scalar) (k : Scalar) (a b : G) (cList dList : List G)
    (r : Scalar) : Conversation G :=
  let (mElt, zElt) := S.computeCompositesFast F k b cList dList
  let t2 := scalarMul r a
  let t3 := scalarMul r mElt
  let bm := S.serializeElement b
  let a0 := S.serializeElement mElt
  let a1 := S.serializeElement zElt
  let a2 := S.serializeElement t2
  let a3 := S.serializeElement t3
  let transcript := appendLp [] bm
  let transcript := appendLp transcript a0
  let transcript := appendLp transcript a1
  let transcript := appendLp transcript a2
  let transcript := appendLp transcript a3
  let transcript := transcript ++ ascii "Challenge"
  let cChal := oracle transcript
  let ck := scalarMulScalar cChal k
  let s := scalarSub r ck
  { t2, t3, proof := { c := cChal, s } }

/-- A conversation without the key: the commitments that a verifier recomputes from `c` and `s`. -/
def simulate (F : Features) (a b : G) (cList dList : List G) (c s : Scalar) : Conversation G :=
  let (mElt, zElt) := S.computeComposites F b cList dList
  let t2 := elementAdd (scalarMul s a) (scalarMul c b)
  let t3 := elementAdd (scalarMul s mElt) (scalarMul c zElt)
  { t2, t3, proof := { c, s } }

/-- With the hash of the crate as the oracle, the prover is that of the crate. -/
theorem proof_converse (F : Features) (k : Scalar) (a b : G) (cList dList : List G) (r : Scalar) :
    (S.converse F (fun transcript => S.hashToScalar [transcript] HASH_TO_SCALAR_DST) k a b cList
      dList r).proof = S.generateProofWithR F k a b cList dList r := rfl

/-- A conversation at the challenge `c` from its commitments and its response. -/
def conversationAt (c : Scalar) (x : (G × G) × Scalar) : Conversation G :=
  { t2 := x.1.1, t3 := x.1.2, proof := { c, s := x.2 } }

/-- A conversation of the prover is an honest one over the first composite. -/
theorem converse_eq_honest (F : Features) (k c : Scalar) (a b : G) {cList dList : List G}
    (hlen : cList.length = dList.length) (r : Scalar) :
    S.converse F (fun _ => c) k a b cList dList r =
      conversationAt c
        (honest a (weightedSum (S.compositeWeights b cList dList) cList) k c r) := by
  simp only [converse, S.computeCompositesFast_eq F k b hlen]
  rfl

/-- A simulated conversation is the simulator's over both composites. -/
theorem simulate_eq_simulated (F : Features) (a b : G) {cList dList : List G}
    (hlen : cList.length = dList.length) (c s : Scalar) :
    S.simulate F a b cList dList c s =
      conversationAt c (simulated a b (weightedSum (S.compositeWeights b cList dList) cList)
        (weightedSum (S.compositeWeights b cList dList) dList) c s) := by
  simp only [simulate, S.computeComposites_eq F b hlen]
  rfl

end Suite

/-- The answer of the prover to a free challenge is as uniform as its nonce, its commitments are
computed from the answer and public data, and its conversations over all nonces are those of the
simulator over all answers, each as often. -/
theorem conversations_simulated (S : Suite G) (F F' : Features) (k : Scalar) (cList dList : List G)
    (hlen : cList.length = dList.length)
    (hD : ∀ (i : ℕ) (hc : i < cList.length) (hd : i < dList.length), dList[i] = k • cList[i]) :
    let g := S.generator
    let b := S.scalarMulGen k
    let m := (S.computeComposites F' b cList dList).1
    let z := (S.computeComposites F' b cList dList).2
    let prove := fun oracle => S.converse F oracle k g b cList dList
    (∀ r, S.generateProofWithR F k g b cList dList r =
      (prove (fun transcript => S.hashToScalar [transcript] HASH_TO_SCALAR_DST) r).proof) ∧
    ∀ c : Scalar,
      (∀ r, (prove (fun _ => c) r).proof = ⟨c, r - c * k⟩) ∧
      Function.Bijective (fun r => (prove (fun _ => c) r).proof.s) ∧
      (∀ r, (prove (fun _ => c) r).t2 = r • g ∧ (prove (fun _ => c) r).t3 = r • m ∧
        (prove (fun _ => c) r).t2 = (prove (fun _ => c) r).proof.s • g + c • b ∧
        (prove (fun _ => c) r).t3 = (prove (fun _ => c) r).proof.s • m + c • z) ∧
      Finset.univ.val.map (prove fun _ => c) =
        Finset.univ.val.map (S.simulate F' g b cList dList c) := by
  intro g b m z prove
  set M := weightedSum (S.compositeWeights b cList dList) cList with hM
  set Z := weightedSum (S.compositeWeights b cList dList) dList with hZdef
  -- `(g, b)` and the composites `(M, Z)` share the logarithm `k`
  have hB : b = k • g := rfl
  have hZ : Z = k • M := by
    rw [hZdef, hM, smul_weightedSum, ← Suite.eq_map_smul hlen hD]
  have hcomposites : S.computeComposites F' b cList dList = (M, Z) :=
    S.computeComposites_eq F' b hlen
  have hm : m = M := congrArg Prod.fst hcomposites
  have hz : z = Z := congrArg Prod.snd hcomposites
  refine ⟨fun r => (S.proof_converse F k g b cList dList r).symm, fun c => ?_⟩
  -- both sides are functions of the transcript of one conversation
  have hprove : prove (fun _ => c) = Suite.conversationAt c ∘ honest g M k c :=
    funext (S.converse_eq_honest F k c g b hlen)
  have hsimulate : S.simulate F' g b cList dList c =
      Suite.conversationAt c ∘ simulated g b M Z c :=
    funext (S.simulate_eq_simulated F' g b hlen c)
  refine ⟨?_, ?_, ?_, ?_⟩
  · intro r
    rw [hprove]
    rfl
  · rw [hprove]
    -- the response moves with the nonce
    exact (responseEquiv c k).bijective
  · intro r
    have hcommit := commitments_honest (c := c) (r := r) hB hZ
    rw [hprove, hm, hz]
    exact ⟨rfl, rfl, (congrArg Prod.fst hcommit).symm, (congrArg Prod.snd hcommit).symm⟩
  · rw [hprove, hsimulate, ← Multiset.map_map, ← Multiset.map_map,
      map_univ_honest_eq_simulated hB hZ c]

/-- A batch of two on the executable suite: at the challenge `4` the prover of the key `5` says what
the simulator says. -/
theorem conversations_simulated_reference :
    let S := referenceSuite
    Finset.univ.val.map
        (S.converse ⟨true, true⟩ (fun _ => 4) 5 S.generator (S.scalarMulGen 5) [2, 3] [10, 15]) =
      Finset.univ.val.map
        (S.simulate ⟨false, true⟩ S.generator (S.scalarMulGen 5) [2, 3] [10, 15] 4) := by
  intro S
  have h := conversations_simulated S ⟨true, true⟩ ⟨false, true⟩ 5 [2, 3] [10, 15] rfl
    (by decide +kernel)
  exact (h.2 4).2.2.2

end PoprfRistretto
