import PoprfRistretto.Poprf.Types

/-!
# The POPRF client

The model of `impl PoprfClient` in `poprf.rs`.
-/

namespace PoprfRistretto

variable {G : Type} [AddCommGroup G] [Module Scalar G] [DecidableEq G]

/-- POPRF client. -/
structure PoprfClient (G : Type) where
  pk : G

namespace PoprfClient

/-- `SetupPOPRFClient(identifier, pkS)`. -/
def new (pk : PublicKey G) : PoprfClient G := ⟨pk.point⟩

/-- The server public key `pkS` this client was configured with. -/
def publicKey (client : PoprfClient G) : PublicKey G := ⟨client.pk⟩

variable (S : Suite G) (F : Features) (client : PoprfClient G)

/-- `Blind` for a blinding scalar that is already at hand. -/
def blindWithInner (input info : Bytes) (blind : Scalar) :
    Except Error (PoprfBlindState G × BlindedElement G) := do
  checkLpLen input
  checkLpLen info
  let framed := framedInfo info
  let m := S.hashToScalar [framed] HASH_TO_SCALAR_DST
  let t := S.scalarMulGen m
  let tweakedKey := elementAdd t client.pk
  if isIdentity tweakedKey then .error .invalidInput
  else
    let inputElement := S.hashToGroup [input] HASH_TO_GROUP_DST
    if isIdentity inputElement then .error .invalidInput
    else
      let blinded := scalarMul blind inputElement
      .ok ({ blind, tweakedKey }, ⟨blinded⟩)

/-- `Blind(input, info, pkS)`, `none` when no blind is drawn within `fuel` draws. -/
def blind {R : Type} [Rng R] (fuel : ℕ) (input info : Bytes) (rng : R) :
    Option (Except Error (PoprfBlindState G × BlindedElement G) × R) := do
  let (blind, rng) ← randomScalar fuel rng
  return (client.blindWithInner S input info blind, rng)

/-- `Blind` with an externally-supplied 32-byte canonical blinding scalar. -/
def blindWithScalar (input info : Bytes) (blindBytes : BytesN 32) :
    Except Error (PoprfBlindState G × BlindedElement G) := do
  let blind ← S.deserializeScalar blindBytes.toList
  client.blindWithInner S input info blind

omit [DecidableEq G] in
/-- Unblind an evaluated element and hash it with the input and the `info`. -/
def unblindAndHash (_client : PoprfClient G) (input info : Bytes) (state : PoprfBlindState G)
    (evaluated : EvaluatedElement G) : PoprfOutput :=
  let blindInv := S.scalarInvert state.blind
  let n := scalarMul blindInv evaluated.point
  let nBytes := S.serializeElementArray n
  S.finalizeHash input info nBytes.toList

/-- `Finalize(input, blind, evaluated, blinded, proof, info)`. -/
def finalize (input : Bytes) (state : PoprfBlindState G) (evaluated : EvaluatedElement G)
    (blinded : BlindedElement G) (proof : Proof) (info : Bytes) : Except Error PoprfOutput := do
  checkLpLen input
  checkLpLen info
  let g := S.generator
  S.verifyProof F g state.tweakedKey [evaluated.point] [blinded.point] proof
  return client.unblindAndHash S input info state evaluated

/-- Batched `Finalize` for multiple inputs verified under one DLEQ proof. -/
def finalizeBatch (inputs : List Bytes) (states : List (PoprfBlindState G))
    (evaluated : List (EvaluatedElement G)) (blinded : List (BlindedElement G)) (proof : Proof)
    (info : Bytes) : Except Error (List PoprfOutput) :=
  if inputs.isEmpty || inputs.length ≠ states.length || inputs.length ≠ evaluated.length
      || inputs.length ≠ blinded.length then
    .error .lengthMismatch
  else do
    checkLpLen info
    forM inputs checkLpLen
    match states with
    -- not reached: `states` is as long as `inputs`
    | [] => .error .lengthMismatch
    | state₀ :: rest =>
      let tweakedKey := state₀.tweakedKey
      forM rest fun s =>
        if s.tweakedKey ≠ tweakedKey then .error .inconsistentState else .ok ()
      let g := S.generator
      let bs := blinded.map (·.point)
      let es := evaluated.map (·.point)
      S.verifyProof F g tweakedKey es bs proof
      return ((inputs.zip states).zip evaluated).map fun ((input, state), e) =>
        client.unblindAndHash S input info state e

end PoprfClient

end PoprfRistretto
