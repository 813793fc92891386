import PoprfRistretto.Ffi.State

/-!
# The functions of the C ABI

The model of `poprf-ristretto-ffi/src/lib.rs`. The functions differ in the type of the handle and in
the texts of their errors; what several of them do in the same way is written once, with those as
parameters.
-/

namespace PoprfRistretto.Ffi

variable {G : Type} [AddCommGroup G] [Module Scalar G] {S : Suite G} {R : Type}

/-! ## The last error -/

/-- A copy of the last error of the thread, or NULL when there is none. -/
def poprfLastErrorMessage : CAbi S R Ptr := do
  match (← get).lastError with
  | some s =>
    match CString.new s.bytes with
    | some c => intoRaw .cChar c
    | none => return NULL
  | none => return NULL

/-! ## What the destructors, the encoders and the decoders have in common -/

/-- Free a handle, or do nothing on NULL. -/
def destroy (t : HandleType) (p : Ptr) : CAbi S R Unit := do
  if p ≠ NULL then dropRaw t p

/-- Encode what a handle points to. -/
def encodeBase64 (base64 : Base64) (t : HandleType) (nullMsg : String) (toBytes : t.Value S → Bytes)
    (p : Ptr) : CAbi S R Ptr := do
  clearError
  if p = NULL then failWith nullMsg NULL
  else do
    let v ← deref t p
    cstringOrNull base64 (toBytes v)

/-- Decode a value of the library. -/
def decodeBase64 (base64 : Base64) (t : HandleType) (name : String)
    (fromBytes : Bytes → Except Error (t.Value S)) (s : RawSlice) : CAbi S R Ptr := do
  clearError
  let some s := bytesFromRaw s | failWith "invalid base64 pointer" NULL
  match base64.decode s with
  | .error e => failWith ("base64 decode: " ++ e) NULL
  | .ok bytes =>
    match fromBytes bytes with
    | .ok v => intoRaw t v
    | .error e => failWith (name ++ "::from_bytes: " ++ e.display) NULL

/-! ## Keys -/

/-- `Some(s) if s.len() == 32`, copied into an array. -/
def seedArr (s : Bytes) : Option (BytesN 32) := if h : s.length = 32 then some ⟨s, h⟩ else none

/-- Derive a secret key from a seed of 32 bytes and an info. -/
def poprfSecretKeyFromSeed (seed info : RawSlice) : CAbi S R Ptr := do
  clearError
  let some seed := (bytesFromRaw seed).bind seedArr | failWith "seed must be exactly 32 bytes" NULL
  let some info := bytesFromRaw info | failWith "invalid info pointer" NULL
  match deriveKeyPair S seed info with
  | .ok (sk, _) => intoRaw .secretKey sk
  | .error e => failWith ("derive_key_pair: " ++ e.display) NULL

def poprfSecretKeyDecodeBase64 (base64 : Base64) (s : RawSlice) : CAbi S R Ptr :=
  decodeBase64 base64 .secretKey "SecretKey" (SecretKey.fromBytes S) s

def poprfSecretKeyEncodeBase64 (base64 : Base64) (sk : Ptr) : CAbi S R Ptr :=
  encodeBase64 base64 .secretKey "null SecretKey" (fun sk => (sk.toBytes S).toList) sk

/-- NULL is allowed, as for every destructor. -/
def poprfSecretKeyDestroy (sk : Ptr) : CAbi S R Unit := destroy .secretKey sk

/-- The public key of a secret key, as a handle of its own. -/
def poprfPublicKeyFromSecret (sk : Ptr) : CAbi S R Ptr := do
  clearError
  if sk = NULL then failWith "null SecretKey" NULL
  else do
    let sk ← deref .secretKey sk
    intoRaw .publicKey (sk.publicKey S)

def poprfPublicKeyEncodeBase64 (base64 : Base64) (pk : Ptr) : CAbi S R Ptr :=
  encodeBase64 base64 .publicKey "null PublicKey" (fun pk => (pk.toBytes S).toList) pk

def poprfPublicKeyDestroy (pk : Ptr) : CAbi S R Unit := destroy .publicKey pk

/-! ## Elements and proofs -/

def poprfBlindedElementDecodeBase64 [DecidableEq G] (base64 : Base64) (s : RawSlice) : CAbi S R Ptr :=
  decodeBase64 base64 .blindedElement "BlindedElement" (BlindedElement.fromBytes S) s

def poprfBlindedElementDestroy (b : Ptr) : CAbi S R Unit := destroy .blindedElement b

def poprfEvaluatedElementEncodeBase64 (base64 : Base64) (e : Ptr) : CAbi S R Ptr :=
  encodeBase64 base64 .evaluatedElement "null EvaluatedElement" (fun e => (e.toBytes S).toList) e

def poprfEvaluatedElementDestroy (e : Ptr) : CAbi S R Unit := destroy .evaluatedElement e

def poprfProofEncodeBase64 (base64 : Base64) (p : Ptr) : CAbi S R Ptr :=
  encodeBase64 base64 .proof "null Proof" (fun p => (p.toBytes S).toList) p

def poprfProofDestroy (p : Ptr) : CAbi S R Unit := destroy .proof p

/-! ## Batched blind evaluation -/

/-- The loop that clones the blinded elements, from index `i` on; `none` once it has met a null
pointer and reported it. -/
def cloneBlindeds (i : ℕ) : List Ptr → CAbi S R (Option (List (BlindedElement G)))
  | [] => return some []
  | p :: ptrs => do
    if p = NULL then failWith ("null BlindedElement at index " ++ toString i) none
    else do
      let b ← deref .blindedElement p
      let bs ← cloneBlindeds (i + 1) ptrs
      return bs.map (b :: ·)

/-- Server-side batched blind evaluation. The slots are written last. -/
def poprfBlindEvaluateBatch [DecidableEq G] (F : Features) [Rng R] (fuel : ℕ) (sk blindedArr : Ptr) (n : ℕ)
    (info : RawSlice) (outEvaluated outProof : Ptr) : CAbi S R ℤ := do
  clearError
  if sk = NULL ∨ blindedArr = NULL ∨ outEvaluated = NULL ∨ outProof = NULL then
    failWith "null pointer in blind_evaluate_batch" (-1)
  else if n = 0 then failWith "blind_evaluate_batch requires n >= 1" (-1)
  else do
    let some info := bytesFromRaw info | failWith "invalid info pointer" (-1)
    let ptrs ← pointersFromRaw blindedArr n
    -- `none` is the early return of the loop
    let some blindeds ← cloneBlindeds 0 ptrs | return -1
    let sk ← deref .secretKey sk
    let server := PoprfServer.new sk
    match ← withOsRng fun rng => server.blindEvaluateBatch S F fuel rng blindeds info with
    | .error e => failWith ("blind_evaluate_batch: " ++ e.display) (-1)
    | .ok (evaluateds, proof) =>
      if evaluateds.length ≠ n then failWith "evaluated count mismatch" (-1)
      else do
        let _outEvalSlice ← pointersFromRawMut outEvaluated n
        forM evaluateds.zipIdx fun (e, i) => do
          let p ← intoRaw .evaluatedElement e
          writePointer (outEvaluated + i) p
        let p ← intoRaw .proof proof
        writePointer outProof p
        return 0

/-! ## Evaluation -/

/-- Server-side offline evaluation. -/
def poprfEvaluate [DecidableEq G] (sk : Ptr) (input info : RawSlice) : CAbi S R Ptr := do
  clearError
  if sk = NULL then failWith "null SecretKey" NULL
  else do
    let some input := bytesFromRaw input | failWith "invalid input pointer" NULL
    let some info := bytesFromRaw info | failWith "invalid info pointer" NULL
    let sk ← deref .secretKey sk
    let server := PoprfServer.new sk
    match server.evaluate S input info with
    | .ok out => intoRaw .output out
    | .error e => failWith ("evaluate: " ++ e.display) NULL

/-- Pre-hash an input for repeated offline evaluation under different infos. -/
def poprfInputTableNew [DecidableEq G] (F : Features) (input : RawSlice) : CAbi S R Ptr := do
  clearError
  let some input := bytesFromRaw input | failWith "invalid input pointer" NULL
  match PoprfInputTable.new S F input with
  | .ok t => intoRaw .inputTable t
  | .error e => failWith ("PoprfInputTable::new: " ++ e.display) NULL

def poprfInputTableDestroy (t : Ptr) : CAbi S R Unit := destroy .inputTable t

/-- Batched offline evaluation over pre-hashed inputs. The tables are read through the array of the
caller only after no pointer of it is NULL. -/
def poprfEvaluateTables (sk tablesArr : Ptr) (n : ℕ) (info : RawSlice) (outOutputs : Ptr) :
    CAbi S R ℤ := do
  clearError
  if sk = NULL ∨ tablesArr = NULL ∨ outOutputs = NULL then
    failWith "null pointer in evaluate_tables" (-1)
  else if n = 0 then failWith "evaluate_tables requires n >= 1" (-1)
  else do
    let some info := bytesFromRaw info | failWith "invalid info pointer" (-1)
    let ptrs ← pointersFromRaw tablesArr n
    match ptrs.findIdx? (· = NULL) with
    | some i => failWith ("null PoprfInputTable at index " ++ toString i) (-1)
    | none => do
      let tables ← ptrs.mapM (deref .inputTable)
      let sk ← deref .secretKey sk
      let server := PoprfServer.new sk
      match server.evaluateTables S tables info with
      | .error e => failWith ("evaluate_tables: " ++ e.display) (-1)
      | .ok outputs =>
        if outputs.length ≠ n then failWith "output count mismatch" (-1)
        else do
          -- a slice of `MaybeUninit` slots, which need not be initialised
          let slots := (List.range n).map (outOutputs + ·)
          forM (slots.zip outputs) fun (slot, o) => do
            let p ← intoRaw .output o
            writePointer slot p
          return 0

/-! ## Outputs -/

def poprfOutputEncodeBase64 (base64 : Base64) (o : Ptr) : CAbi S R Ptr :=
  encodeBase64 base64 .output "null PoprfOutput" (fun o => o.asBytes.toList) o

/-- `1` if equal, `0` if different, `-1` on error. -/
def poprfOutputEqBase64 (base64 : Base64) (o : Ptr) (expectedB64 : RawSlice) : CAbi S R ℤ := do
  clearError
  if o = NULL then failWith "null PoprfOutput" (-1)
  else do
    let some s := bytesFromRaw expectedB64 | failWith "invalid expected b64 pointer" (-1)
    match base64.decode s with
    | .error e => failWith ("base64 decode: " ++ e) (-1)
    | .ok bytes =>
      match PoprfOutput.fromBytes bytes with
      | .error e => failWith ("PoprfOutput::from_bytes: " ++ e.display) (-1)
      | .ok other => do
        let o ← deref .output o
        return if o = other then 1 else 0

def poprfOutputDestroy (o : Ptr) : CAbi S R Unit := destroy .output o

def poprfCCharDestroy (s : Ptr) : CAbi S R Unit := destroy .cChar s

end PoprfRistretto.Ffi
