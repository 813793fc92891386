import PoprfRistretto.Poprf.Types

/-!
# The POPRF server

The model of `impl PoprfServer` in `poprf.rs`. The four `blind_evaluate` variants are written out one
by one, as in the source.
-/

namespace PoprfRistretto

variable {G : Type} [AddCommGroup G] [Module Scalar G] [DecidableEq G]

/-- POPRF server. -/
structure PoprfServer where
  sk : SecretKey

namespace PoprfServer

/-- Construct from an existing secret key. -/
def new (sk : SecretKey) : PoprfServer := ⟨sk⟩

/-- Generate a fresh server with a random key. -/
def generate {R : Type} [Rng R] (S : Suite G) (fuel : ℕ) (rng : R) : Option (PoprfServer × R) := do
  let ((sk, _), rng) ← generateKeyPair S fuel rng
  return (new sk, rng)

/-- Construct via `DeriveKeyPair(seed, info)`. -/
def fromSeed (S : Suite G) (seed : BytesN 32) (info : Bytes) : Except Error PoprfServer := do
  let (sk, _) ← deriveKeyPair S seed info
  return new sk

variable (S : Suite G) (F : Features) (server : PoprfServer)

omit [DecidableEq G] in
/-- The server's public key `pkS = skS·G`. -/
def publicKey : PublicKey G := server.sk.publicKey S

/-- The server's secret key `skS`. -/
def secretKey : SecretKey := server.sk

omit [DecidableEq G] in
/-- Compute `t = skS + m` where `m = HashToScalar(framedInfo)`. -/
def computeT (info : Bytes) : Except Error Scalar := do
  checkLpLen info
  let framed := framedInfo info
  let m := S.hashToScalar [framed] HASH_TO_SCALAR_DST
  let t := scalarAdd server.sk.scalar m
  if scalarIsZero t then .error .inverse else .ok t

/-- `BlindEvaluate(skS, blindedElement, info)`, single token. `none` when no nonce is drawn within
`fuel` draws. -/
def blindEvaluate {R : Type} [Rng R] (fuel : ℕ) (rng : R) (blinded : BlindedElement G)
    (info : Bytes) : Option (Except Error (EvaluatedElement G × Proof) × R) :=
  if isIdentity blinded.point then some (.error .inputValidation, rng)
  else
    match server.computeT S info with
    | .error e => some (.error e, rng)
    | .ok t => do
      let tInv := S.scalarInvert t
      let tPub := S.scalarMulGen t
      let evaluated := scalarMul tInv blinded.point
      let g := S.generator
      let (proof, rng) ← S.generateProof F fuel rng t g tPub [evaluated] [blinded.point]
      return (.ok (⟨evaluated⟩, proof), rng)

/-- `blindEvaluateWithProofScalar` for a nonce that is already parsed. -/
def blindEvaluateWithRInner (blinded : BlindedElement G) (info : Bytes) (proofR : Scalar) :
    Except Error (EvaluatedElement G × Proof) :=
  if isIdentity blinded.point then .error .inputValidation
  else do
    let t ← server.computeT S info
    let tInv := S.scalarInvert t
    let tPub := S.scalarMulGen t
    let evaluated := scalarMul tInv blinded.point
    let g := S.generator
    let proof := S.generateProofWithR F t g tPub [evaluated] [blinded.point] proofR
    return (⟨evaluated⟩, proof)

/-- `BlindEvaluate` with externally-supplied 32-byte proof randomness. -/
def blindEvaluateWithProofScalar (blinded : BlindedElement G) (info : Bytes)
    (proofRBytes : BytesN 32) : Except Error (EvaluatedElement G × Proof) := do
  let proofR ← S.deserializeScalar proofRBytes.toList
  server.blindEvaluateWithRInner S F blinded info proofR

/-- The identity check both batch variants make on each element. -/
def checkNotIdentity (b : BlindedElement G) : Except Error Unit :=
  if isIdentity b.point then .error .inputValidation else .ok ()

/-- Batched `BlindEvaluate`: one DLEQ proof covers all tokens. `none` when no nonce is drawn within
`fuel` draws. -/
def blindEvaluateBatch {R : Type} [Rng R] (fuel : ℕ) (rng : R) (blinded : List (BlindedElement G))
    (info : Bytes) : Option (Except Error (List (EvaluatedElement G) × Proof) × R) :=
  if blinded.isEmpty then some (.error .lengthMismatch, rng)
  else
    match forM blinded checkNotIdentity with
    | .error e => some (.error e, rng)
    | .ok () =>
      match server.computeT S info with
      | .error e => some (.error e, rng)
      | .ok t => do
        let tInv := S.scalarInvert t
        let tPub := S.scalarMulGen t
        let evals := blinded.map fun b => scalarMul tInv b.point
        let g := S.generator
        let blindedPts := blinded.map (·.point)
        let (proof, rng) ← S.generateProof F fuel rng t g tPub evals blindedPts
        return (.ok (evals.map EvaluatedElement.mk, proof), rng)

/-- `blindEvaluateBatchWithProofScalar` for a nonce that is already parsed. -/
def blindEvaluateBatchWithRInner (blinded : List (BlindedElement G)) (info : Bytes)
    (proofR : Scalar) : Except Error (List (EvaluatedElement G) × Proof) :=
  if blinded.isEmpty then .error .lengthMismatch
  else do
    forM blinded checkNotIdentity
    let t ← server.computeT S info
    let tInv := S.scalarInvert t
    let tPub := S.scalarMulGen t
    let evals := blinded.map fun b => scalarMul tInv b.point
    let g := S.generator
    let blindedPts := blinded.map (·.point)
    let proof := S.generateProofWithR F t g tPub evals blindedPts proofR
    return (evals.map EvaluatedElement.mk, proof)

/-- Batched `BlindEvaluate` with externally-supplied 32-byte proof randomness. -/
def blindEvaluateBatchWithProofScalar (blinded : List (BlindedElement G)) (info : Bytes)
    (proofRBytes : BytesN 32) : Except Error (List (EvaluatedElement G) × Proof) := do
  let proofR ← S.deserializeScalar proofRBytes.toList
  server.blindEvaluateBatchWithRInner S F blinded info proofR

/-- `Evaluate(skS, input, info)`: the offline POPRF. -/
def evaluate (input info : Bytes) : Except Error PoprfOutput := do
  checkLpLen input
  let inputElement := S.hashToGroup [input] HASH_TO_GROUP_DST
  if isIdentity inputElement then .error .invalidInput
  else
    let t ← server.computeT S info
    let tInv := S.scalarInvert t
    let evaluated := scalarMul tInv inputElement
    let issued := S.serializeElementArray evaluated
    return S.finalizeHash input info issued.toList

omit [DecidableEq G] in
/-- Batched `Evaluate` over pre-hashed inputs. -/
def evaluateTables (tables : List (PoprfInputTable S)) (info : Bytes) :
    Except Error (List PoprfOutput) :=
  if tables.isEmpty then .error .lengthMismatch
  else do
    let t ← server.computeT S info
    let tInv := S.scalarInvert t
    return tables.map fun tb =>
      let e := S.scalarMulFixed tInv tb.base
      S.finalizeFrom tb.hashPrefix info (S.serializeElementArray e).toList

end PoprfServer

end PoprfRistretto
