import PoprfRistretto.Dleq
import PoprfRistretto.Library.Logged

/-!
# Instrumented proofs

The functions of `util.rs` and `dleq.rs` once more, logging every value that is passed to `i2osp_2` and
the lengths of the lists that are passed to the composite computations and to `msm`. Erasing the log
gives the functions back, so that what the log says is said of them.
-/

namespace PoprfRistretto.Instrumented

open Logged

/-- An observed call of one of the functions that check nothing themselves. -/
inductive Event where
  /-- A value encoded by `i2osp_2`. -/
  | i2osp2 (x : ℕ)
  /-- A scalar inverted by `scalar_invert`. -/
  | scalarInvert (scalar : Scalar)
  /-- The bytes of an element that `finalize_from` hashes into an output. -/
  | finalizeFrom (unblinded : Bytes)
  /-- The lengths of the lists `C` and `D` that are passed to a composite computation. -/
  | composites (cLen dLen : ℕ)
  /-- The numbers of scalars and of points that are passed to `msm`. -/
  | msm (scalars points : ℕ)

variable {G : Type} [AddCommGroup G] [Module Scalar G] (S : Suite G) {p : Event → Prop}

/-- `i2osp_2` logs the number that it encodes, be it too large or not. -/
def i2osp2 (x : ℕ) : Logged Event (BytesN 2) := emit (.i2osp2 x) (PoprfRistretto.i2osp2 x)

/-- `append_lp` encodes a length. -/
def appendLp (out buf : Bytes) : Logged Event Bytes := do
  let len ← i2osp2 buf.length
  return out ++ len.toList ++ buf

/-- `scalar_invert` logs the scalar. -/
def scalarInvert (scalar : Scalar) : Logged Event Scalar :=
  emit (.scalarInvert scalar) (S.scalarInvert scalar)

/-- `msm` logs how many scalars and points it is given. -/
def msm (scalars : List Scalar) (points : List G) : Logged Event G :=
  emit (.msm scalars.length points.length) (S.msm scalars points)

/-- `composite_seed` encodes the lengths of the key and of the tag. -/
def compositeSeed (b : G) : Logged Event Bytes := do
  let bm := S.serializeElement b
  let transcript ← appendLp [] bm
  let transcript ← appendLp transcript SEED_DST
  return (S.finalizeFixed (S.chain S.default transcript)).toList

/-- `composite_di` encodes the index. -/
def compositeDi (seedLen : BytesN 2) (seed : Bytes) (i : ℕ) (elemLen : BytesN 2) (ci diPt : G) :
    Logged Event Scalar := do
  let ciBytes := S.serializeElement ci
  let diBytes := S.serializeElement diPt
  let iBytes ← i2osp2 i
  return S.hashToScalar
    [seedLen.toList, seed, iBytes.toList, elemLen.toList, ciBytes, elemLen.toList, diBytes,
      ascii "Composite"] HASH_TO_SCALAR_DST

/-- The prover's composites, in the two builds of the source. -/
def computeCompositesFast (F : Features) (k : Scalar) (b : G) (cList dList : List G) :
    Logged Event (G × G) := do
  emit (.composites cList.length dList.length) ()
  let seed ← compositeSeed S b
  let seedLen ← i2osp2 seed.length
  let elemLen ← i2osp2 ELEMENT_LEN
  let m ←
    if F.fastDleq then do
      let ds ← (cList.zip dList).zipIdx.mapM fun ((ci, diPt), i) =>
        compositeDi S seedLen seed i elemLen ci diPt
      msm S ds cList
    else
      (cList.zip dList).zipIdx.foldlM (fun acc ((ci, diPt), i) => do
        let di ← compositeDi S seedLen seed i elemLen ci diPt
        let term := scalarMul di ci
        pure (elementAdd term acc)) identity
  let z := scalarMul k m
  return (m, z)

/-- The verifier's composites, in the two builds of the source. -/
def computeComposites (F : Features) (b : G) (cList dList : List G) : Logged Event (G × G) := do
  emit (.composites cList.length dList.length) ()
  let seed ← compositeSeed S b
  let seedLen ← i2osp2 seed.length
  let elemLen ← i2osp2 ELEMENT_LEN
  if F.fastDleq then do
    let ds ← (cList.zip dList).zipIdx.mapM fun ((ci, diPt), i) =>
      compositeDi S seedLen seed i elemLen ci diPt
    let m ← msm S ds cList
    let z ← msm S ds dList
    return (m, z)
  else
    (cList.zip dList).zipIdx.foldlM (fun (m, z) ((ci, diPt), i) => do
      let di ← compositeDi S seedLen seed i elemLen ci diPt
      let termM := scalarMul di ci
      let termZ := scalarMul di diPt
      return (elementAdd termM m, elementAdd termZ z)) (identity, identity)

/-- The transcript that prover and verifier hash. -/
def challengeTranscript (bm a0 a1 a2 a3 : Bytes) : Logged Event Bytes := do
  let transcript ← appendLp [] bm
  let transcript ← appendLp transcript a0
  let transcript ← appendLp transcript a1
  let transcript ← appendLp transcript a2
  let transcript ← appendLp transcript a3
  return transcript ++ ascii "Challenge"

/-- The prover with a given nonce. -/
def generateProofWithR (F : Features) (k : Scalar) (a b : G) (cList dList : List G) (r : Scalar) :
    Logged Event Proof := do
  let (mElt, zElt) ← computeCompositesFast S F k b cList dList
  let t2 := scalarMul r a
  let t3 := scalarMul r mElt
  let transcript ← challengeTranscript (S.serializeElement b) (S.serializeElement mElt)
    (S.serializeElement zElt) (S.serializeElement t2) (S.serializeElement t3)
  let cChal := S.hashToScalar [transcript] HASH_TO_SCALAR_DST
  let ck := scalarMulScalar cChal k
  let s := scalarSub r ck
  return { c := cChal, s }

/-- The prover with a nonce that it draws. -/
def generateProof {R : Type} [Rng R] (F : Features) (fuel : ℕ) (rng : R) (k : Scalar) (a b : G)
    (cList dList : List G) : Logged Event (Option (Proof × R)) :=
  match randomScalar fuel rng with
  | none => return none
  | some (r, rng) => do
    let proof ← generateProofWithR S F k a b cList dList r
    return some (proof, rng)

/-- The verifier. -/
def verifyProof (F : Features) (a b : G) (cList dList : List G) (proof : Proof) :
    ExceptT Error (Logged Event) Unit := do
  let (mElt, zElt) ← computeComposites S F b cList dList
  let sA := scalarMul proof.s a
  let cB := scalarMul proof.c b
  let t2 := elementAdd sA cB
  let sM := scalarMul proof.s mElt
  let cZ := scalarMul proof.c zElt
  let t3 := elementAdd sM cZ
  let transcript ← challengeTranscript (S.serializeElement b) (S.serializeElement mElt)
    (S.serializeElement zElt) (S.serializeElement t2) (S.serializeElement t3)
  let expectedC := S.hashToScalar [transcript] HASH_TO_SCALAR_DST
  lift (if expectedC = proof.c then .ok () else .error .verify)

/-! ## Erasing the log -/

@[simp] theorem value_i2osp2 (x : ℕ) : (i2osp2 x).value = PoprfRistretto.i2osp2 x := rfl

@[simp] theorem value_appendLp (out buf : Bytes) :
    (appendLp out buf).value = PoprfRistretto.appendLp out buf := rfl

@[simp] theorem value_scalarInvert (s : Scalar) : (scalarInvert S s).value = S.scalarInvert s := rfl

@[simp] theorem value_msm (scalars : List Scalar) (points : List G) :
    (msm S scalars points).value = S.msm scalars points := rfl

@[simp] theorem value_compositeSeed (b : G) : (compositeSeed S b).value = S.compositeSeed b := rfl

@[simp] theorem value_compositeDi (seedLen : BytesN 2) (seed : Bytes) (i : ℕ) (elemLen : BytesN 2)
    (ci diPt : G) : (compositeDi S seedLen seed i elemLen ci diPt).value =
      S.compositeDi seedLen seed i elemLen ci diPt := rfl

@[simp] theorem value_computeCompositesFast (F : Features) (k : Scalar) (b : G)
    (cList dList : List G) : (computeCompositesFast S F k b cList dList).value =
      S.computeCompositesFast F k b cList dList := by
  unfold computeCompositesFast Suite.computeCompositesFast
  by_cases hfast : F.fastDleq
  · simp [hfast]
  · simp [hfast]

@[simp] theorem value_computeComposites (F : Features) (b : G) (cList dList : List G) :
    (computeComposites S F b cList dList).value = S.computeComposites F b cList dList := by
  unfold computeComposites Suite.computeComposites
  by_cases hfast : F.fastDleq
  · simp [hfast]
  · simp [hfast]

@[simp] theorem value_generateProofWithR (F : Features) (k : Scalar) (a b : G) (cList dList : List G)
    (r : Scalar) : (generateProofWithR S F k a b cList dList r).value =
      S.generateProofWithR F k a b cList dList r := by
  unfold generateProofWithR Suite.generateProofWithR
  simp only [value_bind, value_computeCompositesFast]
  rfl

@[simp] theorem value_generateProof {R : Type} [Rng R] (F : Features) (fuel : ℕ) (rng : R)
    (k : Scalar) (a b : G) (cList dList : List G) :
    (generateProof S F fuel rng k a b cList dList).value =
      S.generateProof F fuel rng k a b cList dList := by
  unfold generateProof Suite.generateProof
  cases randomScalar fuel rng with
  | none => rfl
  | some draw => simp

@[simp] theorem value_verifyProof (F : Features) (a b : G) (cList dList : List G) (proof : Proof) :
    (verifyProof S F a b cList dList proof).run.value = S.verifyProof F a b cList dList proof := by
  unfold verifyProof Suite.verifyProof
  rw [value_run_monadLift_bind, value_computeComposites]
  rfl

/-! ## The encoded values -/

@[simp] theorem all_i2osp2 {x : ℕ} : All p (i2osp2 x) ↔ p (.i2osp2 x) := all_emit

@[simp] theorem all_scalarInvert {s : Scalar} :
    All p (scalarInvert S s) ↔ p (.scalarInvert s) := all_emit

@[simp] theorem all_msm {scalars : List Scalar} {points : List G} :
    All p (msm S scalars points) ↔ p (.msm scalars.length points.length) := all_emit

@[simp] theorem all_appendLp {out buf : Bytes} : All p (appendLp out buf) ↔ p (.i2osp2 buf.length) := by
  simp [appendLp]

/-- The seed encodes two lengths, which are constants. -/
theorem all_compositeSeed {b : G} :
    All p (compositeSeed S b) ↔ p (.i2osp2 32) ∧ p (.i2osp2 SEED_DST.length) := by
  simp [compositeSeed]

/-- A weight encodes its index: the lengths are passed to it. -/
@[simp] theorem all_compositeDi {seedLen : BytesN 2} {seed : Bytes} {i : ℕ} {elemLen : BytesN 2}
    {ci diPt : G} : All p (compositeDi S seedLen seed i elemLen ci diPt) ↔ p (.i2osp2 i) := by
  simp [compositeDi]

/-- What a proof over `n` pairs logs: the lengths of its fixed-size fields, the indices, the lists, and
the calls of `msm` in a build that makes them. -/
def EncodesBatch (F : Features) (p : Event → Prop) (n : ℕ) : Prop :=
  (p (.i2osp2 32) ∧ p (.i2osp2 SEED_DST.length) ∧ p (.i2osp2 64)) ∧ (∀ i < n, p (.i2osp2 i)) ∧
    p (.composites n n) ∧ (F.fastDleq → p (.msm n n))

omit [AddCommGroup G] [Module Scalar G] in
/-- The indices of a zipped pair of lists. -/
theorem forall_mem_zipIdx_zip_iff {cList dList : List G} {q : ℕ → Prop} :
    (∀ entry ∈ (cList.zip dList).zipIdx, q entry.2) ↔ ∀ i < min cList.length dList.length, q i := by
  rw [← List.length_zip]
  constructor
  · intro h i hi
    exact h ((cList.zip dList)[i], i) (List.mem_zipIdx_iff_getElem?.mpr (List.getElem?_eq_getElem hi))
  · rintro h ⟨pair, i⟩ hmem
    exact h i (List.getElem?_eq_some_iff.mp (List.mem_zipIdx_iff_getElem?.mp hmem)).1

/-- The seed is a SHA-512 hash. -/
theorem length_compositeSeed (b : G) : (S.compositeSeed b).length = 64 :=
  (S.finalizeFixed _).2

/-- The loop that collects the weights encodes the index of every pair. -/
theorem all_weights {seedLen : BytesN 2} {seed : Bytes} {elemLen : BytesN 2} {cList dList : List G} :
    All p ((cList.zip dList).zipIdx.mapM fun entry =>
      compositeDi S seedLen seed entry.2 elemLen entry.1.1 entry.1.2) ↔
      ∀ i < min cList.length dList.length, p (.i2osp2 i) := by
  rw [all_mapM, ← forall_mem_zipIdx_zip_iff]
  exact forall₂_congr fun entry _ => all_compositeDi S

/-- A loop that adds up terms encodes the index of every pair. -/
theorem all_terms {β : Type} {seedLen : BytesN 2} {seed : Bytes} {elemLen : BytesN 2}
    {cList dList : List G} {term : β → (G × G) × ℕ → Scalar → β} {acc : β} :
    All p ((cList.zip dList).zipIdx.foldlM (fun acc entry => do
      let di ← compositeDi S seedLen seed entry.2 elemLen entry.1.1 entry.1.2
      pure (term acc entry di)) acc) ↔ ∀ i < min cList.length dList.length, p (.i2osp2 i) := by
  rw [← forall_mem_zipIdx_zip_iff]
  refine all_foldlM fun acc entry => ?_
  rw [all_bind, all_compositeDi, and_iff_left (all_pure _)]

/-- As many weights as pairs are collected. -/
theorem length_value_weights {seedLen : BytesN 2} {seed : Bytes} {elemLen : BytesN 2}
    {cList dList : List G} :
    ((cList.zip dList).zipIdx.mapM fun entry =>
      compositeDi S seedLen seed entry.2 elemLen entry.1.1 entry.1.2).value.length =
      min cList.length dList.length := by
  rw [value_mapM, List.length_map, List.length_zipIdx, List.length_zip]

/-- The prover logs the index of every pair and aligned calls of `msm`. -/
theorem all_computeCompositesFast {F : Features} {k : Scalar} {b : G} {cList dList : List G}
    (hlen : cList.length = dList.length) :
    All p (computeCompositesFast S F k b cList dList) ↔ EncodesBatch F p cList.length := by
  unfold computeCompositesFast EncodesBatch
  simp only [all_bind, all_emit, all_compositeSeed, all_i2osp2, value_compositeSeed,
    length_compositeSeed]
  by_cases hfast : F.fastDleq
  · rw [if_pos hfast]
    simp only [all_bind, all_weights, all_msm, length_value_weights, all_pure, ← hlen, min_self,
      hfast, forall_true_left]
    tauto
  · rw [if_neg hfast]
    simp only [all_bind, all_terms, all_pure, ← hlen, min_self, hfast]
    tauto

/-- The verifier logs the index of every pair and aligned calls of `msm`. -/
theorem all_computeComposites {F : Features} {b : G} {cList dList : List G}
    (hlen : cList.length = dList.length) :
    All p (computeComposites S F b cList dList) ↔ EncodesBatch F p cList.length := by
  unfold computeComposites EncodesBatch
  simp only [all_bind, all_emit, all_compositeSeed, all_i2osp2, value_compositeSeed,
    length_compositeSeed]
  by_cases hfast : F.fastDleq
  · rw [if_pos hfast]
    simp only [all_bind, all_weights, all_msm, length_value_weights, all_pure, ← hlen, min_self,
      hfast, forall_true_left]
    tauto
  · rw [if_neg hfast]
    simp only [all_terms, ← hlen, min_self, hfast]
    tauto

/-- The transcript of the challenge encodes the length of an element only. -/
theorem all_challengeTranscript {b m z t2 t3 : G} :
    All p (challengeTranscript (S.serializeElement b) (S.serializeElement m) (S.serializeElement z)
      (S.serializeElement t2) (S.serializeElement t3)) ↔ p (.i2osp2 32) := by
  simp [challengeTranscript]

/-- A prover logs what a batch does. -/
theorem all_generateProofWithR {F : Features} {k : Scalar} {a b : G} {cList dList : List G}
    (hlen : cList.length = dList.length) {r : Scalar} :
    All p (generateProofWithR S F k a b cList dList r) ↔ EncodesBatch F p cList.length := by
  unfold generateProofWithR
  simp only [all_bind, all_computeCompositesFast S hlen, all_challengeTranscript, all_pure, and_true]
  exact and_iff_left_of_imp fun h => h.1.1

/-- With a nonce of its own, if one is drawn. -/
theorem all_generateProof {R : Type} [Rng R] {F : Features} {fuel : ℕ} {rng : R} {k : Scalar}
    {a b : G} {cList dList : List G} (hlen : cList.length = dList.length) :
    All p (generateProof S F fuel rng k a b cList dList) ↔
      (randomScalar fuel rng = none ∨ EncodesBatch F p cList.length) := by
  unfold generateProof
  cases randomScalar fuel rng with
  | none => simp
  | some draw => simp [all_generateProofWithR S hlen]

/-- So does the verifier. -/
theorem all_verifyProof {F : Features} {a b : G} {cList dList : List G} {proof : Proof}
    (hlen : cList.length = dList.length) :
    All p (verifyProof S F a b cList dList proof).run ↔ EncodesBatch F p cList.length := by
  unfold verifyProof
  simp only [all_run_monadLift_bind, all_computeComposites S hlen, all_challengeTranscript, run_lift,
    all_pure, and_true]
  exact and_iff_left_of_imp fun h => h.1.1

end PoprfRistretto.Instrumented
