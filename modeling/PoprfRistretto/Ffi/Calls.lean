import PoprfRistretto.Ffi.Functions

/-!
# Calls of the C ABI

The calls that a thread can make. Between two of them the caller writes its memory and other threads
run, so that a step starts from any shared state: only the last error is as the thread left it.
-/

namespace PoprfRistretto.Ffi

variable {G : Type} [AddCommGroup G] [Module Scalar G]

/-- A call of a function of the C ABI. -/
inductive Call where
  | poprfLastErrorMessage
  | poprfCCharDestroy (s : Ptr)
  | poprfSecretKeyFromSeed (seed info : RawSlice)
  | poprfSecretKeyDecodeBase64 (s : RawSlice)
  | poprfSecretKeyEncodeBase64 (sk : Ptr)
  | poprfSecretKeyDestroy (sk : Ptr)
  | poprfPublicKeyFromSecret (sk : Ptr)
  | poprfPublicKeyEncodeBase64 (pk : Ptr)
  | poprfPublicKeyDestroy (pk : Ptr)
  | poprfBlindedElementDecodeBase64 (s : RawSlice)
  | poprfBlindedElementDestroy (b : Ptr)
  | poprfEvaluatedElementEncodeBase64 (e : Ptr)
  | poprfEvaluatedElementDestroy (e : Ptr)
  | poprfProofEncodeBase64 (p : Ptr)
  | poprfProofDestroy (p : Ptr)
  | poprfBlindEvaluateBatch (sk blindedArr : Ptr) (n : ℕ) (info : RawSlice)
      (outEvaluated outProof : Ptr)
  | poprfEvaluate (sk : Ptr) (input info : RawSlice)
  | poprfInputTableNew (input : RawSlice)
  | poprfInputTableDestroy (t : Ptr)
  | poprfEvaluateTables (sk tablesArr : Ptr) (n : ℕ) (info : RawSlice) (outOutputs : Ptr)
  | poprfOutputEncodeBase64 (o : Ptr)
  | poprfOutputEqBase64 (o : Ptr) (expectedB64 : RawSlice)
  | poprfOutputDestroy (o : Ptr)

/-- What a call returns: a pointer, a `c_int` or nothing. -/
inductive Ret where
  | ptr (p : Ptr)
  | int (c : ℤ)
  | void
deriving DecidableEq

namespace Call

/-- The call frees a handle or a string. -/
def isDestructor : Call → Bool
  | poprfCCharDestroy _ => true
  | poprfSecretKeyDestroy _ => true
  | poprfPublicKeyDestroy _ => true
  | poprfBlindedElementDestroy _ => true
  | poprfEvaluatedElementDestroy _ => true
  | poprfProofDestroy _ => true
  | poprfInputTableDestroy _ => true
  | poprfOutputDestroy _ => true
  | _ => false

/-- The call reads the last error. -/
def isLastErrorMessage : Call → Bool
  | poprfLastErrorMessage => true
  | _ => false

/-- The call is neither a destructor nor the reading of the last error. -/
def isOperation (call : Call) : Bool := !call.isDestructor && !call.isLastErrorMessage

/-- The result of an operation reports failure: NULL, or a code other than `0`, where the comparison
has `1` as a second code for success. -/
def Failed : Call → Ret → Prop
  | poprfOutputEqBase64 _ _, .int c => c ≠ 0 ∧ c ≠ 1
  | _, .int c => c ≠ 0
  | _, .ptr p => p = NULL
  | _, .void => False

variable [DecidableEq G] {S : Suite G} {R : Type} [Rng R]

/-- The call as the library runs it. -/
def run (base64 : Base64) (F : Features) (fuel : ℕ) : Call → CAbi S R Ret
  | poprfLastErrorMessage => .ptr <$> Ffi.poprfLastErrorMessage
  | poprfCCharDestroy s => (fun _ => .void) <$> Ffi.poprfCCharDestroy s
  | poprfSecretKeyFromSeed seed info => .ptr <$> Ffi.poprfSecretKeyFromSeed seed info
  | poprfSecretKeyDecodeBase64 s => .ptr <$> Ffi.poprfSecretKeyDecodeBase64 base64 s
  | poprfSecretKeyEncodeBase64 sk => .ptr <$> Ffi.poprfSecretKeyEncodeBase64 base64 sk
  | poprfSecretKeyDestroy sk => (fun _ => .void) <$> Ffi.poprfSecretKeyDestroy sk
  | poprfPublicKeyFromSecret sk => .ptr <$> Ffi.poprfPublicKeyFromSecret sk
  | poprfPublicKeyEncodeBase64 pk => .ptr <$> Ffi.poprfPublicKeyEncodeBase64 base64 pk
  | poprfPublicKeyDestroy pk => (fun _ => .void) <$> Ffi.poprfPublicKeyDestroy pk
  | poprfBlindedElementDecodeBase64 s => .ptr <$> Ffi.poprfBlindedElementDecodeBase64 base64 s
  | poprfBlindedElementDestroy b => (fun _ => .void) <$> Ffi.poprfBlindedElementDestroy b
  | poprfEvaluatedElementEncodeBase64 e => .ptr <$> Ffi.poprfEvaluatedElementEncodeBase64 base64 e
  | poprfEvaluatedElementDestroy e => (fun _ => .void) <$> Ffi.poprfEvaluatedElementDestroy e
  | poprfProofEncodeBase64 p => .ptr <$> Ffi.poprfProofEncodeBase64 base64 p
  | poprfProofDestroy p => (fun _ => .void) <$> Ffi.poprfProofDestroy p
  | poprfBlindEvaluateBatch sk blindedArr n info outEvaluated outProof =>
    .int <$> Ffi.poprfBlindEvaluateBatch F fuel sk blindedArr n info outEvaluated outProof
  | poprfEvaluate sk input info => .ptr <$> Ffi.poprfEvaluate sk input info
  | poprfInputTableNew input => .ptr <$> Ffi.poprfInputTableNew F input
  | poprfInputTableDestroy t => (fun _ => .void) <$> Ffi.poprfInputTableDestroy t
  | poprfEvaluateTables sk tablesArr n info outOutputs =>
    .int <$> Ffi.poprfEvaluateTables sk tablesArr n info outOutputs
  | poprfOutputEncodeBase64 o => .ptr <$> Ffi.poprfOutputEncodeBase64 base64 o
  | poprfOutputEqBase64 o expectedB64 => .int <$> Ffi.poprfOutputEqBase64 base64 o expectedB64
  | poprfOutputDestroy o => (fun _ => .void) <$> Ffi.poprfOutputDestroy o

end Call

variable [DecidableEq G] {S : Suite G} {R : Type} [Rng R]

/-- A thread makes a call, and gets a result. -/
def Step (base64 : Base64) (F : Features) (s : State S R) : Call × Ret → State S R → Prop
  | (call, ret), s' => ∃ (shared : Shared S R) (fuel : ℕ),
    (call.run base64 F fuel).run { shared with lastError := s.lastError } = some (ret, s')

end PoprfRistretto.Ffi
