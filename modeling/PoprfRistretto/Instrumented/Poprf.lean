import PoprfRistretto.Instrumented.Dleq
import PoprfRistretto.Poprf.Client
import PoprfRistretto.Poprf.Server

/-!
# The instrumented protocol

The functions of `key.rs` and `poprf.rs` that reach `i2osp_2`, `scalar_invert` or `finalize_from`
once more, logging the calls.
-/

namespace PoprfRistretto.Instrumented

open Logged

variable {G : Type} [AddCommGroup G] [Module Scalar G] [DecidableEq G] (S : Suite G)

/-! ## Hashes and keys -/

def framedInfo (info : Bytes) : Logged Event Bytes := do
  let len ← i2osp2 info.length
  return ascii "Info" ++ len.toList ++ info

omit [DecidableEq G] in
def lpHasher (input : Bytes) : Logged Event S.Sha512 := do
  let len ← i2osp2 input.length
  return S.chain (S.chain S.default len.toList) input

omit [DecidableEq G] in
def finalizeFrom (hashPrefix : S.Sha512) (info unblinded : Bytes) : Logged Event PoprfOutput := do
  emit (.finalizeFrom unblinded) ()
  let infoLen ← i2osp2 info.length
  let h := S.chain (S.chain hashPrefix infoLen.toList) info
  let unblindedLen ← i2osp2 unblinded.length
  let h := S.chain (S.chain (S.chain h unblindedLen.toList) unblinded) (ascii "Finalize")
  return ⟨S.finalizeFixed h⟩

omit [DecidableEq G] in
def finalizeHash (input info unblinded : Bytes) : Logged Event PoprfOutput := do
  let hashPrefix ← lpHasher S input
  finalizeFrom S hashPrefix info unblinded

omit [DecidableEq G] in
def deriveKeyPair (seed : BytesN 32) (info : Bytes) :
    ExceptT Error (Logged Event) (SecretKey × PublicKey G) := do
  lift (checkLpLen info)
  let len ← i2osp2 info.length
  let deriveInput := seed.toList ++ len.toList ++ info
  lift (deriveLoop S deriveInput ((List.range 256).map UInt16.ofNat))

omit [DecidableEq G] in
def fromSeed (seed : BytesN 32) (info : Bytes) : ExceptT Error (Logged Event) PoprfServer := do
  let (sk, _) ← deriveKeyPair S seed info
  return PoprfServer.new sk

def newTable (F : Features) (input : Bytes) :
    ExceptT Error (Logged Event) (PoprfInputTable S) := do
  lift (checkLpLen input)
  let p := S.hashToGroup [input] HASH_TO_GROUP_DST
  if isIdentity p then lift (.error .invalidInput)
  else
    let hashPrefix ← lpHasher S input
    return { hashPrefix, inputLen := input.length, base := S.fixedBase F p }

/-! ## The client -/

section Client

variable (F : Features) (client : PoprfClient G)

def blindWithInner (input info : Bytes) (blind : Scalar) :
    ExceptT Error (Logged Event) (PoprfBlindState G × BlindedElement G) := do
  lift (checkLpLen input)
  lift (checkLpLen info)
  let framed ← framedInfo info
  let m := S.hashToScalar [framed] HASH_TO_SCALAR_DST
  let t := S.scalarMulGen m
  let tweakedKey := elementAdd t client.pk
  if isIdentity tweakedKey then lift (.error .invalidInput)
  else
    let inputElement := S.hashToGroup [input] HASH_TO_GROUP_DST
    if isIdentity inputElement then lift (.error .invalidInput)
    else
      let blinded := scalarMul blind inputElement
      return ({ blind, tweakedKey }, ⟨blinded⟩)

def blind {R : Type} [Rng R] (fuel : ℕ) (input info : Bytes) (rng : R) :
    Logged Event (Option (Except Error (PoprfBlindState G × BlindedElement G) × R)) :=
  match randomScalar fuel rng with
  | none => return none
  | some (blind, rng) => do
    let res ← (blindWithInner S client input info blind).run
    return some (res, rng)

def blindWithScalar (input info : Bytes) (blindBytes : BytesN 32) :
    ExceptT Error (Logged Event) (PoprfBlindState G × BlindedElement G) := do
  let blind ← lift (S.deserializeScalar blindBytes.toList)
  blindWithInner S client input info blind

omit [DecidableEq G] in
def unblindAndHash (input info : Bytes) (state : PoprfBlindState G)
    (evaluated : EvaluatedElement G) : Logged Event PoprfOutput := do
  let blindInv ← scalarInvert S state.blind
  let n := scalarMul blindInv evaluated.point
  let nBytes := S.serializeElementArray n
  finalizeHash S input info nBytes.toList

omit [DecidableEq G] in
def finalize (input : Bytes) (state : PoprfBlindState G) (evaluated : EvaluatedElement G)
    (blinded : BlindedElement G) (proof : Proof) (info : Bytes) :
    ExceptT Error (Logged Event) PoprfOutput := do
  lift (checkLpLen input)
  lift (checkLpLen info)
  let g := S.generator
  verifyProof S F g state.tweakedKey [evaluated.point] [blinded.point] proof
  unblindAndHash S input info state evaluated

def finalizeBatch (inputs : List Bytes) (states : List (PoprfBlindState G))
    (evaluated : List (EvaluatedElement G)) (blinded : List (BlindedElement G)) (proof : Proof)
    (info : Bytes) : ExceptT Error (Logged Event) (List PoprfOutput) :=
  if inputs.isEmpty || inputs.length ≠ states.length || inputs.length ≠ evaluated.length
      || inputs.length ≠ blinded.length then
    lift (.error .lengthMismatch)
  else do
    lift (checkLpLen info)
    lift (forM inputs checkLpLen)
    match states with
    -- not reached: `states` is as long as `inputs`
    | [] => lift (.error .lengthMismatch)
    | state₀ :: rest =>
      let tweakedKey := state₀.tweakedKey
      lift (forM rest fun s =>
        if s.tweakedKey ≠ tweakedKey then .error .inconsistentState else .ok ())
      let g := S.generator
      let bs := blinded.map (·.point)
      let es := evaluated.map (·.point)
      verifyProof S F g tweakedKey es bs proof
      ((inputs.zip states).zip evaluated).mapM (m := Logged Event) fun ((input, state), e) =>
        unblindAndHash S input info state e

end Client

/-! ## The server -/

section Server

variable (F : Features) (server : PoprfServer)

omit [DecidableEq G] in
def computeT (info : Bytes) : ExceptT Error (Logged Event) Scalar := do
  lift (checkLpLen info)
  let framed ← framedInfo info
  let m := S.hashToScalar [framed] HASH_TO_SCALAR_DST
  let t := scalarAdd server.sk.scalar m
  lift (if scalarIsZero t then .error .inverse else .ok t)

def blindEvaluate {R : Type} [Rng R] (fuel : ℕ) (rng : R) (blinded : BlindedElement G)
    (info : Bytes) : Logged Event (Option (Except Error (EvaluatedElement G × Proof) × R)) :=
  if isIdentity blinded.point then return some (.error .inputValidation, rng)
  else do
    match ← (computeT S server info).run with
    | .error e => return some (.error e, rng)
    | .ok t =>
      let tInv ← scalarInvert S t
      let tPub := S.scalarMulGen t
      let evaluated := scalarMul tInv blinded.point
      let g := S.generator
      let draw ← generateProof S F fuel rng t g tPub [evaluated] [blinded.point]
      return draw.map fun (proof, rng) => (.ok (⟨evaluated⟩, proof), rng)

def blindEvaluateWithRInner (blinded : BlindedElement G) (info : Bytes) (proofR : Scalar) :
    ExceptT Error (Logged Event) (EvaluatedElement G × Proof) :=
  if isIdentity blinded.point then lift (.error .inputValidation)
  else do
    let t ← computeT S server info
    let tInv ← scalarInvert S t
    let tPub := S.scalarMulGen t
    let evaluated := scalarMul tInv blinded.point
    let g := S.generator
    let proof ← generateProofWithR S F t g tPub [evaluated] [blinded.point] proofR
    return (⟨evaluated⟩, proof)

def blindEvaluateWithProofScalar (blinded : BlindedElement G) (info : Bytes)
    (proofRBytes : BytesN 32) : ExceptT Error (Logged Event) (EvaluatedElement G × Proof) := do
  let proofR ← lift (S.deserializeScalar proofRBytes.toList)
  blindEvaluateWithRInner S F server blinded info proofR

def blindEvaluateBatch {R : Type} [Rng R] (fuel : ℕ) (rng : R) (blinded : List (BlindedElement G))
    (info : Bytes) :
    Logged Event (Option (Except Error (List (EvaluatedElement G) × Proof) × R)) :=
  if blinded.isEmpty then return some (.error .lengthMismatch, rng)
  else
    match forM blinded PoprfServer.checkNotIdentity with
    | .error e => return some (.error e, rng)
    | .ok () => do
      match ← (computeT S server info).run with
      | .error e => return some (.error e, rng)
      | .ok t =>
        let tInv ← scalarInvert S t
        let tPub := S.scalarMulGen t
        let evals := blinded.map fun b => scalarMul tInv b.point
        let g := S.generator
        let blindedPts := blinded.map (·.point)
        let draw ← generateProof S F fuel rng t g tPub evals blindedPts
        return draw.map fun (proof, rng) => (.ok (evals.map EvaluatedElement.mk, proof), rng)

def blindEvaluateBatchWithRInner (blinded : List (BlindedElement G)) (info : Bytes)
    (proofR : Scalar) : ExceptT Error (Logged Event) (List (EvaluatedElement G) × Proof) :=
  if blinded.isEmpty then lift (.error .lengthMismatch)
  else do
    lift (forM blinded PoprfServer.checkNotIdentity)
    let t ← computeT S server info
    let tInv ← scalarInvert S t
    let tPub := S.scalarMulGen t
    let evals := blinded.map fun b => scalarMul tInv b.point
    let g := S.generator
    let blindedPts := blinded.map (·.point)
    let proof ← generateProofWithR S F t g tPub evals blindedPts proofR
    return (evals.map EvaluatedElement.mk, proof)

def blindEvaluateBatchWithProofScalar (blinded : List (BlindedElement G)) (info : Bytes)
    (proofRBytes : BytesN 32) :
    ExceptT Error (Logged Event) (List (EvaluatedElement G) × Proof) := do
  let proofR ← lift (S.deserializeScalar proofRBytes.toList)
  blindEvaluateBatchWithRInner S F server blinded info proofR

def evaluate (input info : Bytes) : ExceptT Error (Logged Event) PoprfOutput := do
  lift (checkLpLen input)
  let inputElement := S.hashToGroup [input] HASH_TO_GROUP_DST
  if isIdentity inputElement then lift (.error .invalidInput)
  else
    let t ← computeT S server info
    let tInv ← scalarInvert S t
    let evaluated := scalarMul tInv inputElement
    let issued := S.serializeElementArray evaluated
    finalizeHash S input info issued.toList

omit [DecidableEq G] in
def evaluateTables (tables : List (PoprfInputTable S)) (info : Bytes) :
    ExceptT Error (Logged Event) (List PoprfOutput) :=
  if tables.isEmpty then lift (.error .lengthMismatch)
  else do
    let t ← computeT S server info
    let tInv ← scalarInvert S t
    tables.mapM (m := Logged Event) fun tb =>
      let e := S.scalarMulFixed tInv tb.base
      finalizeFrom S tb.hashPrefix info (S.serializeElementArray e).toList

end Server

/-! ## Erasing the log -/

@[simp] theorem value_framedInfo (info : Bytes) :
    (framedInfo info).value = PoprfRistretto.framedInfo info := rfl

omit [DecidableEq G] in
@[simp] theorem value_lpHasher (input : Bytes) : (lpHasher S input).value = S.lpHasher input := rfl

omit [DecidableEq G] in
@[simp] theorem value_finalizeFrom (hashPrefix : S.Sha512) (info unblinded : Bytes) :
    (finalizeFrom S hashPrefix info unblinded).value = S.finalizeFrom hashPrefix info unblinded := rfl

omit [DecidableEq G] in
@[simp] theorem value_finalizeHash (input info unblinded : Bytes) :
    (finalizeHash S input info unblinded).value = S.finalizeHash input info unblinded := rfl

omit [DecidableEq G] in
@[simp] theorem value_deriveKeyPair (seed : BytesN 32) (info : Bytes) :
    (deriveKeyPair S seed info).run.value = PoprfRistretto.deriveKeyPair S seed info := by
  unfold deriveKeyPair PoprfRistretto.deriveKeyPair
  rw [value_run_lift_bind]
  rfl

omit [DecidableEq G] in
@[simp] theorem value_fromSeed (seed : BytesN 32) (info : Bytes) :
    (fromSeed S seed info).run.value = PoprfServer.fromSeed S seed info := by
  unfold fromSeed PoprfServer.fromSeed
  rw [value_run_bind, value_deriveKeyPair]
  rfl

@[simp] theorem value_newTable (F : Features) (input : Bytes) :
    (newTable S F input).run.value = PoprfInputTable.new S F input := by
  unfold newTable PoprfInputTable.new
  simp only [value_run_lift_bind, value_run_ite]
  rfl

section Client

variable (F : Features) (client : PoprfClient G)

@[simp] theorem value_blindWithInner (input info : Bytes) (blind : Scalar) :
    (blindWithInner S client input info blind).run.value =
      client.blindWithInner S input info blind := by
  unfold blindWithInner PoprfClient.blindWithInner
  simp only [value_run_lift_bind, value_run_monadLift_bind, value_run_ite]
  rfl

@[simp] theorem value_blind {R : Type} [Rng R] (fuel : ℕ) (input info : Bytes) (rng : R) :
    (blind S client fuel input info rng).value = client.blind S fuel input info rng := by
  unfold blind PoprfClient.blind
  cases randomScalar fuel rng with
  | none => rfl
  | some draw =>
    show some ((blindWithInner S client input info draw.1).run.value, draw.2) = _
    rw [value_blindWithInner]
    rfl

@[simp] theorem value_blindWithScalar (input info : Bytes) (blindBytes : BytesN 32) :
    (blindWithScalar S client input info blindBytes).run.value =
      client.blindWithScalar S input info blindBytes := by
  unfold blindWithScalar PoprfClient.blindWithScalar
  rw [value_run_lift_bind]
  simp only [value_blindWithInner]

omit [DecidableEq G] in
@[simp] theorem value_unblindAndHash (input info : Bytes) (state : PoprfBlindState G)
    (evaluated : EvaluatedElement G) :
    (unblindAndHash S input info state evaluated).value =
      client.unblindAndHash S input info state evaluated := rfl

omit [DecidableEq G] in
@[simp] theorem value_finalize (input : Bytes) (state : PoprfBlindState G)
    (evaluated : EvaluatedElement G) (blinded : BlindedElement G) (proof : Proof) (info : Bytes) :
    (finalize S F input state evaluated blinded proof info).run.value =
      client.finalize S F input state evaluated blinded proof info := by
  unfold finalize PoprfClient.finalize
  rw [value_run_lift_bind]
  refine bind_congr fun _ => ?_
  rw [value_run_lift_bind]
  refine bind_congr fun _ => ?_
  rw [value_run_bind, value_verifyProof]
  rfl

@[simp] theorem value_finalizeBatch (inputs : List Bytes) (states : List (PoprfBlindState G))
    (evaluated : List (EvaluatedElement G)) (blinded : List (BlindedElement G)) (proof : Proof)
    (info : Bytes) :
    (finalizeBatch S F inputs states evaluated blinded proof info).run.value =
      client.finalizeBatch S F inputs states evaluated blinded proof info := by
  unfold finalizeBatch PoprfClient.finalizeBatch
  rw [value_run_ite]
  refine if_congr Iff.rfl rfl ?_
  rw [value_run_lift_bind]
  refine bind_congr fun _ => ?_
  rw [value_run_lift_bind]
  refine bind_congr fun _ => ?_
  cases states with
  | nil => rfl
  | cons state₀ rest =>
    show (lift _ >>= fun _ => _).run.value = _
    rw [value_run_lift_bind]
    refine bind_congr fun _ => ?_
    rw [value_run_bind, value_verifyProof]
    refine bind_congr fun _ => ?_
    exact congrArg Except.ok (value_mapM _ _)

end Client

section Server

variable (F : Features) (server : PoprfServer)

omit [DecidableEq G] in
@[simp] theorem value_computeT (info : Bytes) :
    (computeT S server info).run.value = server.computeT S info := by
  unfold computeT PoprfServer.computeT
  rw [value_run_lift_bind]
  rfl

@[simp] theorem value_blindEvaluateWithRInner (blinded : BlindedElement G) (info : Bytes)
    (proofR : Scalar) :
    (blindEvaluateWithRInner S F server blinded info proofR).run.value =
      server.blindEvaluateWithRInner S F blinded info proofR := by
  unfold blindEvaluateWithRInner PoprfServer.blindEvaluateWithRInner
  rw [value_run_ite]
  refine if_congr Iff.rfl rfl ?_
  rw [value_run_bind, value_computeT]
  refine bind_congr fun t => ?_
  rw [value_run_monadLift_bind, value_run_monadLift_bind, value_generateProofWithR]
  rfl

@[simp] theorem value_blindEvaluateWithProofScalar (blinded : BlindedElement G) (info : Bytes)
    (proofRBytes : BytesN 32) :
    (blindEvaluateWithProofScalar S F server blinded info proofRBytes).run.value =
      server.blindEvaluateWithProofScalar S F blinded info proofRBytes := by
  unfold blindEvaluateWithProofScalar PoprfServer.blindEvaluateWithProofScalar
  rw [value_run_lift_bind]
  simp only [value_blindEvaluateWithRInner]

@[simp] theorem value_blindEvaluate {R : Type} [Rng R] (fuel : ℕ) (rng : R)
    (blinded : BlindedElement G) (info : Bytes) :
    (blindEvaluate S F server fuel rng blinded info).value =
      server.blindEvaluate S F fuel rng blinded info := by
  unfold blindEvaluate PoprfServer.blindEvaluate
  rw [value_ite]
  refine if_congr Iff.rfl rfl ?_
  rw [value_bind, value_computeT]
  cases server.computeT S info with
  | error e => rfl
  | ok t =>
    show (scalarInvert S t >>= _).value = _
    rw [value_bind, value_scalarInvert]
    show Option.map _ (generateProof S F fuel rng t _ _ _ _).value = _
    rw [value_generateProof]
    exact Option.map_eq_bind

@[simp] theorem value_blindEvaluateBatchWithRInner (blinded : List (BlindedElement G))
    (info : Bytes) (proofR : Scalar) :
    (blindEvaluateBatchWithRInner S F server blinded info proofR).run.value =
      server.blindEvaluateBatchWithRInner S F blinded info proofR := by
  unfold blindEvaluateBatchWithRInner PoprfServer.blindEvaluateBatchWithRInner
  rw [value_run_ite]
  refine if_congr Iff.rfl rfl ?_
  rw [value_run_lift_bind]
  refine bind_congr fun _ => ?_
  rw [value_run_bind, value_computeT]
  refine bind_congr fun t => ?_
  rw [value_run_monadLift_bind, value_run_monadLift_bind, value_generateProofWithR]
  rfl

@[simp] theorem value_blindEvaluateBatchWithProofScalar (blinded : List (BlindedElement G))
    (info : Bytes) (proofRBytes : BytesN 32) :
    (blindEvaluateBatchWithProofScalar S F server blinded info proofRBytes).run.value =
      server.blindEvaluateBatchWithProofScalar S F blinded info proofRBytes := by
  unfold blindEvaluateBatchWithProofScalar PoprfServer.blindEvaluateBatchWithProofScalar
  rw [value_run_lift_bind]
  simp only [value_blindEvaluateBatchWithRInner]

@[simp] theorem value_blindEvaluateBatch {R : Type} [Rng R] (fuel : ℕ) (rng : R)
    (blinded : List (BlindedElement G)) (info : Bytes) :
    (blindEvaluateBatch S F server fuel rng blinded info).value =
      server.blindEvaluateBatch S F fuel rng blinded info := by
  unfold blindEvaluateBatch PoprfServer.blindEvaluateBatch
  rw [value_ite]
  refine if_congr Iff.rfl rfl ?_
  cases forM blinded PoprfServer.checkNotIdentity with
  | error e => rfl
  | ok _ =>
    show ((computeT S server info).run >>= _).value = _
    rw [value_bind, value_computeT]
    cases server.computeT S info with
    | error e => rfl
    | ok t =>
      show (scalarInvert S t >>= _).value = _
      rw [value_bind, value_scalarInvert]
      show Option.map _ (generateProof S F fuel rng t _ _ _ _).value = _
      rw [value_generateProof]
      exact Option.map_eq_bind

@[simp] theorem value_evaluate (input info : Bytes) :
    (evaluate S server input info).run.value = server.evaluate S input info := by
  unfold evaluate PoprfServer.evaluate
  rw [value_run_lift_bind]
  refine bind_congr fun _ => ?_
  rw [value_run_ite]
  refine if_congr Iff.rfl rfl ?_
  rw [value_run_bind, value_computeT]
  rfl

omit [DecidableEq G] in
@[simp] theorem value_evaluateTables (tables : List (PoprfInputTable S)) (info : Bytes) :
    (evaluateTables S server tables info).run.value = server.evaluateTables S tables info := by
  unfold evaluateTables PoprfServer.evaluateTables
  rw [value_run_ite]
  refine if_congr Iff.rfl rfl ?_
  rw [value_run_bind, value_computeT]
  refine bind_congr fun t => ?_
  rw [value_run_monadLift_bind]
  exact congrArg Except.ok (value_mapM _ _)

end Server

end PoprfRistretto.Instrumented
