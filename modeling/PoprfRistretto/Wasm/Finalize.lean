import PoprfRistretto.Wasm.Functions
import PoprfRistretto.Library.ExceptLoop

/-!
# What the JavaScript `finalizeBatch` accepts and throws

The call decodes its arguments and runs the core `finalize_batch` on what they decode to. It throws
what the first check throws that fails: the key, the lengths, the inputs from left to right, then
token by token the state, the blinded and the evaluated element, then the proof and last the core.
-/

namespace PoprfRistretto.Wasm

open Utf8 ExceptLoop
open Ffi (Base64)

variable {G : Type} [AddCommGroup G] [Module Scalar G] [DecidableEq G]

/-! ## Decoders -/

/-- The string is the encoding of the value. -/
def Decodes {α : Type} (base64 : Base64) (fromBytes : Bytes → Except Error α) (s : String) (v : α) :
    Prop :=
  ∃ bytes, base64.decode (utf8Bytes s) = .ok bytes ∧ fromBytes bytes = .ok v

/-- The JavaScript value is a string that is the encoding of the value. -/
def Holds {α : Type} (base64 : Base64) (fromBytes : Bytes → Except Error α) (val : JsValue) (v : α) :
    Prop :=
  ∃ s, val = .string s ∧ Decodes base64 fromBytes s v

section

variable {α : Type} {base64 : Base64} {fromBytes : Bytes → Except Error α}

/-- A string is decoded when it is the Base64 text of a value. -/
theorem decodeString_eq_ok_iff {base64Label label s : String} {v : α} :
    decodeString base64 base64Label label fromBytes s = .ok v ↔ Decodes base64 fromBytes s v := by
  unfold decodeString Decodes
  cases base64.decode (utf8Bytes s) with
  | error e => simp
  | ok bytes =>
    cases hparse : fromBytes bytes with
    | error e => simp [hparse]
    | ok w => simp [hparse]

/-- A string is the encoding of one value. -/
theorem Decodes.unique {s : String} {v w : α} (hv : Decodes base64 fromBytes s v)
    (hw : Decodes base64 fromBytes s w) : v = w := by
  obtain ⟨bytes, hdecode, hparse⟩ := hv
  obtain ⟨bytes', hdecode', hparse'⟩ := hw
  obtain rfl := Except.ok.inj (hdecode.symm.trans hdecode')
  exact Except.ok.inj (hparse.symm.trans hparse')

/-- An element of an array is decoded when it is such a string. -/
theorem decodeElement_eq_ok_iff {label : String} {val : JsValue} {v : α} :
    decodeElement base64 label fromBytes val = .ok v ↔ Holds base64 fromBytes val v := by
  unfold decodeElement Holds
  cases val with
  | string s =>
    rw [JsValue.asString]
    simp [decodeString_eq_ok_iff]
  | _ => simp [JsValue.asString]

end

/-! ## Arrays -/

/-- The elements of an array, read one by one. -/
theorem map_get_range (arr : JsArray) : (List.range arr.length).map (JsArray.get arr) = arr := by
  refine List.ext_getElem (by rw [List.length_map, List.length_range]) fun i hi hi' => ?_
  rw [List.getElem_map, List.getElem_range, JsArray.get, List.getD_eq_getElem?_getD,
    List.getElem?_eq_getElem hi']
  rfl

/-- What is read from each index is read from each element. -/
theorem forall₂_get_iff {α : Type} {R : JsValue → α → Prop} {arr : JsArray} {n : ℕ}
    (hn : arr.length = n) {l : List α} :
    List.Forall₂ (fun i a => R (JsArray.get arr i) a) (List.range n) l ↔ List.Forall₂ R arr l := by
  conv_rhs => rw [← map_get_range arr, hn, List.forall₂_map_left_iff]

/-! ## The arguments -/

/-- A token of the batch. -/
abbrev BatchToken (G : Type) := PoprfBlindState G × BlindedElement G × EvaluatedElement G

variable (S : Suite G) (host : Host) (base64 : Base64)

/-- What the arguments of `finalizeBatch` decode to. -/
structure Arguments (publicKeyB64 : String) (inputs statesB64 blindedsB64 evaluatedsB64 : JsArray)
    (proofB64 : String) (pk : PublicKey G) (inputVecs : List Bytes) (tokens : List (BatchToken G))
    (proof : Proof) : Prop where
  publicKey_decodes : Decodes base64 (PublicKey.fromBytes S) publicKeyB64 pk
  inputs_convert : List.Forall₂ (fun val input => host.newUint8Array val = .ok input) inputs inputVecs
  length_tokens : tokens.length = inputs.length
  states_hold : List.Forall₂ (Holds base64 (PoprfBlindState.fromBytes S)) statesB64 (tokens.map (·.1))
  blindeds_hold : List.Forall₂ (Holds base64 (BlindedElement.fromBytes S)) blindedsB64
    (tokens.map (·.2.1))
  evaluateds_hold : List.Forall₂ (Holds base64 (EvaluatedElement.fromBytes S)) evaluatedsB64
    (tokens.map (·.2.2))
  proof_decodes : Decodes base64 (Proof.fromBytes S) proofB64 proof

/-- One round of the loop of `finalizeBatch`. -/
def decodeToken (statesB64 blindedsB64 evaluatedsB64 : JsArray) (i : ℕ) :
    Except JsValue (BatchToken G) := do
  let state ← decodeElement base64 "state" (PoprfBlindState.fromBytes S) (JsArray.get statesB64 i)
  let blinded ←
    decodeElement base64 "blinded" (BlindedElement.fromBytes S) (JsArray.get blindedsB64 i)
  let evaluated ←
    decodeElement base64 "evaluated" (EvaluatedElement.fromBytes S) (JsArray.get evaluatedsB64 i)
  return (state, blinded, evaluated)

/-- The test of the lengths. -/
def checkLengths (n : ℕ) (statesB64 blindedsB64 evaluatedsB64 : JsArray) : Except JsValue Unit :=
  if statesB64.length ≠ n ∨ blindedsB64.length ≠ n ∨ evaluatedsB64.length ≠ n then
    .error (jsErr "finalize_batch: array length mismatch")
  else .ok ()

/-- What `finalizeBatch` does before it calls the core. -/
def decodeArguments (publicKeyB64 : String)
    (inputs statesB64 blindedsB64 evaluatedsB64 : JsArray) (proofB64 : String) :
    Except JsValue (PublicKey G × List Bytes × List (BatchToken G) × Proof) := do
  let pk ← decodeString base64 "public_key" "PublicKey" (PublicKey.fromBytes S) publicKeyB64
  checkLengths inputs.length statesB64 blindedsB64 evaluatedsB64
  let inputVecs ←
    (List.range inputs.length).mapM fun i => uint8arrayToVec host (JsArray.get inputs i)
  let tokens ←
    (List.range inputs.length).mapM (decodeToken S base64 statesB64 blindedsB64 evaluatedsB64)
  let proof ← decodeString base64 "proof" "proof" (Proof.fromBytes S) proofB64
  return (pk, inputVecs, tokens, proof)

/-- The call of the core. -/
def finalizeTokens (F : Features) (pk : PublicKey G) (inputVecs : List Bytes)
    (tokens : List (BatchToken G)) (proof : Proof) (info : Bytes) : Except Error (List PoprfOutput) :=
  (PoprfClient.new pk).finalizeBatch S F inputVecs (tokens.map (·.1)) (tokens.map (·.2.2))
    (tokens.map (·.2.1)) proof info

/-- The outputs as a JavaScript array. -/
def encodeOutputs (outputs : List PoprfOutput) : JsArray :=
  outputs.map fun o => .string (base64.encode o.asBytes.toList)

/-- What `finalizeBatch` makes of the result of the core. -/
def encodeResult : Except Error (List PoprfOutput) → Except JsValue JsArray
  | .error e => .error (jsErr ("finalize_batch: " ++ e.display))
  | .ok outputs => .ok (encodeOutputs base64 outputs)

/-- The outputs are encoded when there are any. -/
theorem encodeResult_eq_ok_iff {res : Except Error (List PoprfOutput)} {outs : JsArray} :
    encodeResult base64 res = .ok outs ↔
      ∃ outputs, res = .ok outputs ∧ outs = encodeOutputs base64 outputs := by
  cases res with
  | error e => simp [encodeResult]
  | ok outputs =>
    simp only [encodeResult, Except.ok.injEq, exists_eq_left']
    exact eq_comm

/-- An error of the core is thrown with the name of the call. -/
theorem encodeResult_eq_error_iff {res : Except Error (List PoprfOutput)} {thrown : JsValue} :
    encodeResult base64 res = .error thrown ↔
      ∃ e, res = .error e ∧ thrown = .string ("finalize_batch: " ++ e.display) := by
  cases res with
  | error e =>
    simp only [encodeResult, Except.error.injEq, exists_eq_left']
    exact eq_comm
  | ok outputs => simp [encodeResult]

/-- `finalizeBatch` is the decoding of its arguments and the call of the core. -/
theorem finalizeBatch_eq (F : Features) (publicKeyB64 : String)
    (inputs statesB64 blindedsB64 evaluatedsB64 : JsArray) (proofB64 : String) (info : Bytes) :
    finalizeBatch S host base64 F publicKeyB64 inputs statesB64 blindedsB64 evaluatedsB64 proofB64
        info =
      decodeArguments S host base64 publicKeyB64 inputs statesB64 blindedsB64 evaluatedsB64 proofB64
        >>= fun args => encodeResult base64
          (finalizeTokens S F args.1 args.2.1 args.2.2.1 args.2.2.2 info) := by
  unfold finalizeBatch decodeArguments
  rw [bind_assoc]
  refine bind_congr fun pk => ?_
  dsimp only
  unfold checkLengths
  by_cases hlens : statesB64.length ≠ inputs.length ∨ blindedsB64.length ≠ inputs.length ∨
      evaluatedsB64.length ≠ inputs.length
  · rw [if_pos hlens, if_pos hlens]
    rfl
  · rw [if_neg hlens, if_neg hlens, ok_bind, bind_assoc]
    refine bind_congr fun inputVecs => ?_
    rw [bind_assoc]
    refine bind_congr fun tokens => ?_
    rw [bind_assoc]
    rfl

/-- A token is decoded when its three strings are. -/
theorem decodeToken_eq_ok_iff {statesB64 blindedsB64 evaluatedsB64 : JsArray} {i : ℕ}
    {token : BatchToken G} :
    decodeToken S base64 statesB64 blindedsB64 evaluatedsB64 i = .ok token ↔
      Holds base64 (PoprfBlindState.fromBytes S) (JsArray.get statesB64 i) token.1 ∧
      Holds base64 (BlindedElement.fromBytes S) (JsArray.get blindedsB64 i) token.2.1 ∧
      Holds base64 (EvaluatedElement.fromBytes S) (JsArray.get evaluatedsB64 i) token.2.2 := by
  obtain ⟨state, blinded, evaluated⟩ := token
  simp only [decodeToken, bind_eq_ok_iff, decodeElement_eq_ok_iff, pure_eq_ok, Except.ok.injEq,
    Prod.mk.injEq]
  constructor
  · rintro ⟨_, hstate, _, hblinded, _, hevaluated, rfl, rfl, rfl⟩
    exact ⟨hstate, hblinded, hevaluated⟩
  · rintro ⟨hstate, hblinded, hevaluated⟩
    exact ⟨_, hstate, _, hblinded, _, hevaluated, rfl, rfl, rfl⟩

/-- The arrays must have as many elements as there are inputs. -/
theorem checkLengths_eq_ok_iff {n : ℕ} {statesB64 blindedsB64 evaluatedsB64 : JsArray} :
    checkLengths n statesB64 blindedsB64 evaluatedsB64 = .ok () ↔
      statesB64.length = n ∧ blindedsB64.length = n ∧ evaluatedsB64.length = n := by
  unfold checkLengths
  split
  · simp; tauto
  · simp; tauto

/-- The arguments are decoded when all of them are encodings. -/
theorem decodeArguments_eq_ok_iff {publicKeyB64 : String}
    {inputs statesB64 blindedsB64 evaluatedsB64 : JsArray} {proofB64 : String} {pk : PublicKey G}
    {inputVecs : List Bytes} {tokens : List (BatchToken G)} {proof : Proof} :
    decodeArguments S host base64 publicKeyB64 inputs statesB64 blindedsB64 evaluatedsB64 proofB64 =
        .ok (pk, inputVecs, tokens, proof) ↔
      Arguments S host base64 publicKeyB64 inputs statesB64 blindedsB64 evaluatedsB64 proofB64 pk
        inputVecs tokens proof := by
  simp only [decodeArguments, bind_eq_ok_iff, decodeString_eq_ok_iff, mapM_eq_ok_iff,
    decodeToken_eq_ok_iff, pure_eq_ok, Except.ok.injEq, Prod.mk.injEq]
  constructor
  · rintro ⟨_, hpk, _, hlens, _, hinputs, _, htokens, _, hproof, rfl, rfl, rfl, rfl⟩
    obtain ⟨hstates, hblindeds, hevaluateds⟩ := checkLengths_eq_ok_iff.mp hlens
    -- a loop over indices meets the elements of each array in order
    refine ⟨hpk, (forall₂_get_iff rfl).mp hinputs, ?_, ?_, ?_, ?_, hproof⟩
    · rw [← htokens.length_eq, List.length_range]
    · rw [← forall₂_get_iff hstates, List.forall₂_map_right_iff]
      exact htokens.imp fun i token h => h.1
    · rw [← forall₂_get_iff hblindeds, List.forall₂_map_right_iff]
      exact htokens.imp fun i token h => h.2.1
    · rw [← forall₂_get_iff hevaluateds, List.forall₂_map_right_iff]
      exact htokens.imp fun i token h => h.2.2
  · rintro ⟨hpk, hinputs, hlen, hstates, hblindeds, hevaluateds, hproof⟩
    -- the lengths are those that the code has compared
    have hstates' := hstates.length_eq
    have hblindeds' := hblindeds.length_eq
    have hevaluateds' := hevaluateds.length_eq
    rw [List.length_map, hlen] at hstates' hblindeds' hevaluateds'
    refine ⟨pk, hpk, (), checkLengths_eq_ok_iff.mpr ⟨hstates', hblindeds', hevaluateds'⟩, inputVecs,
      (forall₂_get_iff rfl).mpr hinputs, tokens, ?_, proof, hproof, rfl, rfl, rfl, rfl⟩
    rw [← forall₂_get_iff hstates', List.forall₂_map_right_iff] at hstates
    rw [← forall₂_get_iff hblindeds', List.forall₂_map_right_iff] at hblindeds
    rw [← forall₂_get_iff hevaluateds', List.forall₂_map_right_iff] at hevaluateds
    have hrest := List.Forall₂.mp (fun _ _ => And.intro) hblindeds hevaluateds
    exact List.Forall₂.mp (fun _ _ => And.intro) hstates hrest

/-! ## What is thrown -/

/-- The checks of `finalizeBatch` in their order, each with what it throws when it fails. -/
def checks (publicKeyB64 : String) (inputs statesB64 blindedsB64 evaluatedsB64 : JsArray)
    (proofB64 : String) : List (Option JsValue) :=
  [failure (decodeString base64 "public_key" "PublicKey" (PublicKey.fromBytes S) publicKeyB64),
    failure (checkLengths inputs.length statesB64 blindedsB64 evaluatedsB64)] ++
  (inputs.map fun val => failure (host.newUint8Array val)) ++
  ((List.range inputs.length).flatMap fun i =>
    [failure (decodeElement base64 "state" (PoprfBlindState.fromBytes S) (JsArray.get statesB64 i)),
      failure (decodeElement base64 "blinded" (BlindedElement.fromBytes S)
        (JsArray.get blindedsB64 i)),
      failure (decodeElement base64 "evaluated" (EvaluatedElement.fromBytes S)
        (JsArray.get evaluatedsB64 i))]) ++
  [failure (decodeString base64 "proof" "proof" (Proof.fromBytes S) proofB64)]

/-- The first of the three strings that is wrong is reported. -/
theorem failure_decodeToken (statesB64 blindedsB64 evaluatedsB64 : JsArray) (i : ℕ) :
    failure (decodeToken S base64 statesB64 blindedsB64 evaluatedsB64 i) =
      [failure (decodeElement base64 "state" (PoprfBlindState.fromBytes S) (JsArray.get statesB64 i)),
        failure (decodeElement base64 "blinded" (BlindedElement.fromBytes S)
          (JsArray.get blindedsB64 i)),
        failure (decodeElement base64 "evaluated" (EvaluatedElement.fromBytes S)
          (JsArray.get evaluatedsB64 i))].findSome? id := by
  unfold decodeToken
  cases decodeElement base64 "state" (PoprfBlindState.fromBytes S) (JsArray.get statesB64 i) with
  | error e => rfl
  | ok state =>
    cases decodeElement base64 "blinded" (BlindedElement.fromBytes S) (JsArray.get blindedsB64 i) with
    | error e => rfl
    | ok blinded =>
      cases decodeElement base64 "evaluated" (EvaluatedElement.fromBytes S)
        (JsArray.get evaluatedsB64 i) <;> rfl

/-- The elements of an array are converted one by one. -/
theorem failure_convert (inputs : JsArray) :
    failure ((List.range inputs.length).mapM fun i => uint8arrayToVec host (JsArray.get inputs i)) =
      (inputs.map fun val => failure (host.newUint8Array val)).findSome? id := by
  rw [failure_mapM]
  conv_rhs => rw [← map_get_range inputs, List.map_map, List.findSome?_map]
  rfl

/-- Decoding fails with the first check that fails. -/
theorem failure_decodeArguments (publicKeyB64 : String)
    (inputs statesB64 blindedsB64 evaluatedsB64 : JsArray) (proofB64 : String) :
    failure (decodeArguments S host base64 publicKeyB64 inputs statesB64 blindedsB64 evaluatedsB64
      proofB64) =
      (checks S host base64 publicKeyB64 inputs statesB64 blindedsB64 evaluatedsB64
        proofB64).findSome? id := by
  -- the tokens are decoded one by one, three strings each
  have htokens : failure ((List.range inputs.length).mapM
      (decodeToken S base64 statesB64 blindedsB64 evaluatedsB64)) = _ := failure_mapM _ _
  simp only [failure_decodeToken] at htokens
  unfold decodeArguments checks
  simp only [List.findSome?_append, ← failure_convert, findSome?_flatMap, ← htokens]
  cases decodeString base64 "public_key" "PublicKey" (PublicKey.fromBytes S) publicKeyB64 with
  | error e => rfl
  | ok pk =>
    cases checkLengths inputs.length statesB64 blindedsB64 evaluatedsB64 with
    | error e => rfl
    | ok u =>
      cases (List.range inputs.length).mapM fun i =>
        uint8arrayToVec host (JsArray.get inputs i) with
      | error e => rfl
      | ok inputVecs =>
        cases (List.range inputs.length).mapM
          (decodeToken S base64 statesB64 blindedsB64 evaluatedsB64) with
        | error e => rfl
        | ok tokens =>
          cases decodeString base64 "proof" "proof" (Proof.fromBytes S) proofB64 <;> rfl

/-- The call succeeds when the core does on what the arguments decode to. -/
theorem finalizeBatch_eq_ok_iff {F : Features} {publicKeyB64 : String}
    {inputs statesB64 blindedsB64 evaluatedsB64 : JsArray} {proofB64 : String} {info : Bytes}
    {outs : JsArray} :
    finalizeBatch S host base64 F publicKeyB64 inputs statesB64 blindedsB64 evaluatedsB64 proofB64
        info = .ok outs ↔
      ∃ pk inputVecs tokens proof outputs,
        Arguments S host base64 publicKeyB64 inputs statesB64 blindedsB64 evaluatedsB64 proofB64 pk
          inputVecs tokens proof ∧
        finalizeTokens S F pk inputVecs tokens proof info = .ok outputs ∧
        outs = encodeOutputs base64 outputs := by
  rw [finalizeBatch_eq, bind_eq_ok_iff]
  simp only [Prod.exists, decodeArguments_eq_ok_iff, encodeResult_eq_ok_iff, exists_and_left]

/-- The call fails with the first check that fails, or as the core. -/
theorem finalizeBatch_eq_error_iff {F : Features} {publicKeyB64 : String}
    {inputs statesB64 blindedsB64 evaluatedsB64 : JsArray} {proofB64 : String} {info : Bytes}
    {thrown : JsValue} :
    finalizeBatch S host base64 F publicKeyB64 inputs statesB64 blindedsB64 evaluatedsB64 proofB64
        info = .error thrown ↔
      (checks S host base64 publicKeyB64 inputs statesB64 blindedsB64 evaluatedsB64
        proofB64).findSome? id = some thrown ∨
      ∃ pk inputVecs tokens proof e,
        Arguments S host base64 publicKeyB64 inputs statesB64 blindedsB64 evaluatedsB64 proofB64 pk
          inputVecs tokens proof ∧
        finalizeTokens S F pk inputVecs tokens proof info = .error e ∧
        thrown = .string ("finalize_batch: " ++ e.display) := by
  rw [finalizeBatch_eq, bind_eq_error_iff, ← failure_decodeArguments, failure_eq_some_iff]
  simp only [Prod.exists, decodeArguments_eq_ok_iff, encodeResult_eq_error_iff, exists_and_left]

/-- `finalizeBatch` returns the encoded outputs of the core on what its arguments decode to, and throws
what the first failing check throws, or what the core reports when none fails. -/
theorem finalizeBatch_refines (S : Suite G) (host : Host) (base64 : Base64) (F : Features)
    (publicKeyB64 : String) (inputs statesB64 blindedsB64 evaluatedsB64 : JsArray)
    (proofB64 : String) (info : Bytes) :
    let result := finalizeBatch S host base64 F publicKeyB64 inputs statesB64 blindedsB64
      evaluatedsB64 proofB64 info
    let firstFailure := (checks S host base64 publicKeyB64 inputs statesB64 blindedsB64 evaluatedsB64
      proofB64).findSome? id
    (∀ outs, result = .ok outs ↔ ∃ pk inputVecs tokens proof outputs,
      Arguments S host base64 publicKeyB64 inputs statesB64 blindedsB64 evaluatedsB64 proofB64 pk
        inputVecs tokens proof ∧
      finalizeTokens S F pk inputVecs tokens proof info = .ok outputs ∧
      outs = encodeOutputs base64 outputs) ∧
    (∀ thrown, result = .error thrown ↔ firstFailure = some thrown ∨
      ∃ pk inputVecs tokens proof e,
        Arguments S host base64 publicKeyB64 inputs statesB64 blindedsB64 evaluatedsB64 proofB64 pk
          inputVecs tokens proof ∧
        finalizeTokens S F pk inputVecs tokens proof info = .error e ∧
        thrown = .string ("finalize_batch: " ++ e.display)) ∧
    (firstFailure = none ↔ ∃ pk inputVecs tokens proof,
      Arguments S host base64 publicKeyB64 inputs statesB64 blindedsB64 evaluatedsB64 proofB64 pk
        inputVecs tokens proof) := by
  intro result firstFailure
  refine ⟨fun outs => finalizeBatch_eq_ok_iff S host base64,
    fun thrown => finalizeBatch_eq_error_iff S host base64, ?_⟩
  rw [show firstFailure = _ from (failure_decodeArguments S host base64 publicKeyB64 inputs statesB64
    blindedsB64 evaluatedsB64 proofB64).symm, failure_eq_none_iff]
  simp only [Prod.exists, decodeArguments_eq_ok_iff]

end PoprfRistretto.Wasm
