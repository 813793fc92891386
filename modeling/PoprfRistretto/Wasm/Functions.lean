import PoprfRistretto.Ffi.Base64Engine
import PoprfRistretto.Poprf.Client

/-!
# The JavaScript bindings

The model of `poprf-ristretto-wasm/src/lib.rs`. A JavaScript array is the list of its elements, and a
value is what the functions can tell of it. A value that is returned as an error is thrown.
-/

namespace PoprfRistretto.Wasm

open Utf8
open Ffi (Base64)

variable {G : Type} [AddCommGroup G] [Module Scalar G] [DecidableEq G]

/-- `JsValue`. The values that are neither strings nor byte arrays are told apart by a number. -/
inductive JsValue where
  | undefined
  | string (s : String)
  | uint8Array (bytes : Bytes)
  | other (id : ℕ)
deriving DecidableEq

/-- `js_sys::Array`. -/
abbrev JsArray := List JsValue

/-- `JsValue::as_string`. -/
def JsValue.asString : JsValue → Option String
  | .string s => some s
  | _ => none

/-- `Array::get`: an index without an element reads as `undefined`. -/
def JsArray.get (arr : JsArray) (i : ℕ) : JsValue := arr.getD i .undefined

/-- The JavaScript engine, by its constructor `new Uint8Array(val)`. -/
structure Host where
  /-- The bytes of the new array, or what the constructor throws. -/
  newUint8Array : JsValue → Except JsValue Bytes
  /-- A byte array is copied. -/
  newUint8Array_uint8Array : ∀ bytes, newUint8Array (.uint8Array bytes) = .ok bytes

/-- `JsValue::from_str`: what is thrown is a plain string. -/
def jsErr (msg : String) : JsValue := .string msg

/-- Extract bytes from an element that is a `Uint8Array`. -/
def uint8arrayToVec (host : Host) (val : JsValue) : Except JsValue Bytes := host.newUint8Array val

/-- Decode a value of the library from a string: the two `map_err` that each of the decoders has. -/
def decodeString {α : Type} (base64 : Base64) (base64Label label : String)
    (fromBytes : Bytes → Except Error α) (s : String) : Except JsValue α :=
  match base64.decode (utf8Bytes s) with
  | .error e => .error (jsErr (base64Label ++ " base64: " ++ e))
  | .ok bytes =>
    match fromBytes bytes with
    | .error e => .error (jsErr (label ++ ": " ++ e.display))
    | .ok v => .ok v

/-- Decode a value of the library from an element of an array. -/
def decodeElement {α : Type} (base64 : Base64) (label : String)
    (fromBytes : Bytes → Except Error α) (val : JsValue) : Except JsValue α :=
  match val.asString with
  | none => .error (jsErr (label ++ " must be string"))
  | some s => decodeString base64 label label fromBytes s

/-- The object `{ states, blindedMessages }`. -/
structure BlindBatch where
  states : JsArray
  blindedMessages : JsArray

variable (S : Suite G) (host : Host) (base64 : Base64)

/-- The loop of `blind_batch` over the inputs still to blind. `none` when no blind is drawn within
`fuel` draws. -/
def blindLoop {R : Type} [Rng R] (fuel : ℕ) (client : PoprfClient G) (info : Bytes) :
    JsArray → BlindBatch → R → Option (Except JsValue BlindBatch × R)
  | [], out, rng => some (.ok out, rng)
  | elem :: inputs, out, rng =>
    match uint8arrayToVec host elem with
    | .error e => some (.error e, rng)
    | .ok input => do
      match ← client.blind S fuel input info rng with
      | (.error e, rng) => return (.error (jsErr ("blind: " ++ e.display)), rng)
      | (.ok (state, blinded), rng) =>
        blindLoop fuel client info inputs
          { states := out.states ++ [.string (base64.encode (state.toBytes S).toList)]
            blindedMessages :=
              out.blindedMessages ++ [.string (base64.encode (blinded.toBytes S).toList)] } rng

/-- `blindBatch`. -/
def blindBatch {R : Type} [Rng R] (fuel : ℕ) (publicKeyB64 : String) (inputs : JsArray)
    (info : Bytes) (rng : R) : Option (Except JsValue BlindBatch × R) :=
  match decodeString base64 "public_key" "PublicKey" (PublicKey.fromBytes S) publicKeyB64 with
  | .error e => some (.error e, rng)
  | .ok pk =>
    let client := PoprfClient.new pk
    blindLoop S host base64 fuel client info inputs { states := [], blindedMessages := [] } rng

/-- `finalizeBatch`. -/
def finalizeBatch (F : Features) (publicKeyB64 : String)
    (inputs statesB64 blindedsB64 evaluatedsB64 : JsArray) (proofB64 : String) (info : Bytes) :
    Except JsValue JsArray := do
  let pk ← decodeString base64 "public_key" "PublicKey" (PublicKey.fromBytes S) publicKeyB64
  let client := PoprfClient.new pk
  let n := inputs.length
  if statesB64.length ≠ n ∨ blindedsB64.length ≠ n ∨ evaluatedsB64.length ≠ n then
    .error (jsErr "finalize_batch: array length mismatch")
  else do
    let inputVecs ← (List.range n).mapM fun i => uint8arrayToVec host (JsArray.get inputs i)
    -- one round of the loop decodes the three strings of a token
    let tokens ← (List.range n).mapM fun i => do
      let state ←
        decodeElement base64 "state" (PoprfBlindState.fromBytes S) (JsArray.get statesB64 i)
      let blinded ←
        decodeElement base64 "blinded" (BlindedElement.fromBytes S) (JsArray.get blindedsB64 i)
      let evaluated ←
        decodeElement base64 "evaluated" (EvaluatedElement.fromBytes S)
          (JsArray.get evaluatedsB64 i)
      return (state, blinded, evaluated)
    let proof ← decodeString base64 "proof" "proof" (Proof.fromBytes S) proofB64
    match client.finalizeBatch S F inputVecs (tokens.map (·.1)) (tokens.map (·.2.2))
        (tokens.map (·.2.1)) proof info with
    | .error e => .error (jsErr ("finalize_batch: " ++ e.display))
    | .ok outputs => return outputs.map fun o => .string (base64.encode o.asBytes.toList)

end PoprfRistretto.Wasm
