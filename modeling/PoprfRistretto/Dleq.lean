import PoprfRistretto.Group

/-!
# Discrete-logarithm equivalence proofs

The model of `dleq.rs`. Prover and verifier each write out the challenge transcript, and each of the
two composite computations has a body for either setting of `fast-dleq`, as in the source.
-/

namespace PoprfRistretto

variable {G : Type} [AddCommGroup G] [Module Scalar G]

/-- A DLEQ proof: the scalar pair `(c, s)`. -/
@[ext]
structure Proof where
  c : Scalar
  s : Scalar
deriving DecidableEq

namespace Proof

variable (S : Suite G)

/-- The length of an encoded proof. -/
abbrev LEN : ℕ := 2 * SCALAR_LEN

/-- Serialize as `SerializeScalar(c) || SerializeScalar(s)`. -/
def toBytes (p : Proof) : BytesN LEN :=
  ⟨(S.serializeScalarArray p.c).toList ++ (S.serializeScalarArray p.s).toList, by
    rw [List.length_append, List.Vector.toList_length, List.Vector.toList_length]; rfl⟩

/-- Parse from wire format. -/
def fromBytes (buf : Bytes) : Except Error Proof :=
  if buf.length ≠ LEN then .error .deserialize
  else do
    let c ← S.deserializeScalar (buf.take SCALAR_LEN)
    let s ← S.deserializeScalar (buf.drop SCALAR_LEN)
    return { c, s }

end Proof

namespace Suite

variable (S : Suite G)

/-- The seed of the batch weights, bound to the key `b`. -/
def compositeSeed (b : G) : Bytes :=
  let bm := S.serializeElement b
  let transcript := appendLp [] bm
  let transcript := appendLp transcript SEED_DST
  (S.finalizeFixed (S.chain S.default transcript)).toList

/-- Per-element scalar `dᵢ`. -/
def compositeDi (seedLen : BytesN 2) (seed : Bytes) (i : ℕ) (elemLen : BytesN 2) (ci diPt : G) :
    Scalar :=
  let ciBytes := S.serializeElement ci
  let diBytes := S.serializeElement diPt
  let iBytes := i2osp2 i
  S.hashToScalar
    [seedLen.toList, seed, iBytes.toList, elemLen.toList, ciBytes, elemLen.toList, diBytes,
      ascii "Composite"] HASH_TO_SCALAR_DST

/-- `ComputeCompositesFast`: the server path, which uses `k`. -/
def computeCompositesFast (F : Features) (k : Scalar) (b : G) (cList dList : List G) : G × G :=
  let seed := S.compositeSeed b
  let seedLen := i2osp2 seed.length
  let elemLen := i2osp2 ELEMENT_LEN
  let m :=
    if F.fastDleq then
      let ds := (cList.zip dList).zipIdx.map fun ((ci, diPt), i) =>
        S.compositeDi seedLen seed i elemLen ci diPt
      S.msm ds cList
    else
      (cList.zip dList).zipIdx.foldl (fun acc ((ci, diPt), i) =>
        let di := S.compositeDi seedLen seed i elemLen ci diPt
        let term := scalarMul di ci
        elementAdd term acc) identity
  let z := scalarMul k m
  (m, z)

/-- `ComputeComposites`: the client path, without `k`. -/
def computeComposites (F : Features) (b : G) (cList dList : List G) : G × G :=
  let seed := S.compositeSeed b
  let seedLen := i2osp2 seed.length
  let elemLen := i2osp2 ELEMENT_LEN
  if F.fastDleq then
    let ds := (cList.zip dList).zipIdx.map fun ((ci, diPt), i) =>
      S.compositeDi seedLen seed i elemLen ci diPt
    let m := S.msm ds cList
    let z := S.msm ds dList
    (m, z)
  else
    (cList.zip dList).zipIdx.foldl (fun (m, z) ((ci, diPt), i) =>
      let di := S.compositeDi seedLen seed i elemLen ci diPt
      let termM := scalarMul di ci
      let termZ := scalarMul di diPt
      (elementAdd termM m, elementAdd termZ z)) (identity, identity)

/-- `GenerateProof` with externally-supplied randomness. -/
def generateProofWithR (F : Features) (k : Scalar) (a b : G) (cList dList : List G) (r : Scalar) :
    Proof :=
  let (mElt, zElt) := S.computeCompositesFast F k b cList dList
  let t2 := scalarMul r a
  let t3 := scalarMul r mElt
  let bm := S.serializeElement b
  let a0 := S.serializeElement mElt
  let a1 := S.serializeElement zElt
  let a2 := S.serializeElement t2
  let a3 := S.serializeElement t3
  let transcript := appendLp [] bm
  let transcript := appendLp transcript a0
  let transcript := appendLp transcript a1
  let transcript := appendLp transcript a2
  let transcript := appendLp transcript a3
  let transcript := transcript ++ ascii "Challenge"
  let cChal := S.hashToScalar [transcript] HASH_TO_SCALAR_DST
  let ck := scalarMulScalar cChal k
  let s := scalarSub r ck
  { c := cChal, s }

/-- `GenerateProof(k, A, B, C, D)`, `none` when no nonce is drawn within `fuel` draws. -/
def generateProof {R : Type} [Rng R] (F : Features) (fuel : ℕ) (rng : R) (k : Scalar) (a b : G)
    (cList dList : List G) : Option (Proof × R) := do
  let (r, rng) ← randomScalar fuel rng
  return (S.generateProofWithR F k a b cList dList r, rng)

/-- `VerifyProof(A, B, C, D, proof)`. -/
def verifyProof (F : Features) (a b : G) (cList dList : List G) (proof : Proof) :
    Except Error Unit :=
  let (mElt, zElt) := S.computeComposites F b cList dList
  let sA := scalarMul proof.s a
  let cB := scalarMul proof.c b
  let t2 := elementAdd sA cB
  let sM := scalarMul proof.s mElt
  let cZ := scalarMul proof.c zElt
  let t3 := elementAdd sM cZ
  let bm := S.serializeElement b
  let a0 := S.serializeElement mElt
  let a1 := S.serializeElement zElt
  let a2 := S.serializeElement t2
  let a3 := S.serializeElement t3
  let transcript := appendLp [] bm
  let transcript := appendLp transcript a0
  let transcript := appendLp transcript a1
  let transcript := appendLp transcript a2
  let transcript := appendLp transcript a3
  let transcript := transcript ++ ascii "Challenge"
  let expectedC := S.hashToScalar [transcript] HASH_TO_SCALAR_DST
  if expectedC = proof.c then .ok () else .error .verify

end Suite

end PoprfRistretto
