import PoprfRistretto.Wasm.Blind
import PoprfRistretto.ReferenceSuite

/-!
# Sessions of JavaScript clients

A client keeps the strings of `blindBatch`, and gives them back to `finalizeBatch` together with
whatever strings it has received since.

* `finalizeBatch_agrees` — what is accepted are the evaluations of the inputs, or the answer is forged.
* `finalizeBatch_answer` — the strings of an honest answer are accepted.
-/

namespace PoprfRistretto.Wasm

open Utf8 ExceptLoop
open Ffi (Base64)
open Protocol (Request Made Answer)

variable {G : Type} [AddCommGroup G] [Module Scalar G] [DecidableEq G]
variable {S : Suite G} {host : Host} {base64 : Base64}

/-- The outputs are the evaluations under the key `sk` of what the JavaScript values convert to. -/
def Evaluations (S : Suite G) (host : Host) (sk : Scalar) (info : Bytes) (inputs : JsArray)
    (outputs : List PoprfOutput) : Prop :=
  List.Forall₂ (fun val out => ∃ input, host.newUint8Array val = .ok input ∧
    (PoprfServer.new ⟨sk⟩).evaluate S input info = .ok out) inputs outputs

/-- The evaluations of the inputs of requests. -/
theorem Requests.evaluations {R : Type} [Rng R] {fuel : ℕ} {client : PoprfClient G} {info : Bytes}
    {inputs : JsArray} {rng rng' : R} {requests : List (Request G)} {blinds : List Scalarˣ}
    (h : Requests S host fuel client info inputs rng requests blinds rng') {sk : Scalar}
    {outputs : List PoprfOutput}
    (houtputs : List.Forall₂ (fun req out =>
      (PoprfServer.mk ⟨sk⟩).evaluate S req.input info = .ok out) requests outputs) :
    Evaluations S host sk info inputs outputs := by
  have hconverted := h.converted
  clear h
  induction hconverted generalizing outputs with
  | nil =>
    cases houtputs
    exact .nil
  | cons hval _ ih =>
    cases houtputs with
    | cons hout houtputs => exact .cons ⟨_, hval, hout⟩ (ih houtputs)

/-- What `finalizeBatch` accepts under the public key of `sk` are the evaluations, or the proof is
forged. -/
theorem evaluations_of_finalizeBatch (hbase64 : base64.Lawful) {R : Type} [Rng R] {fuel : ℕ}
    {publicKeyB64 : String} {sk : Scalar}
    (hpk : Decodes base64 (PublicKey.fromBytes S) publicKeyB64 ⟨sk • S.basepoint⟩) {inputs : JsArray}
    {info : Bytes} {rng rng' : R} {requests : List (Request G)} {blinds : List Scalarˣ}
    (hrequests : Requests S host fuel (.new ⟨sk • S.basepoint⟩) info inputs rng requests blinds rng')
    {F : Features} {evaluatedsB64 : JsArray} {proofB64 : String} {outs : JsArray}
    (hfinalize : finalizeBatch S host base64 F publicKeyB64 inputs (stateStrings base64 requests)
      (messageStrings base64 requests) evaluatedsB64 proofB64 info = .ok outs) :
    (∃ outputs, Evaluations S host sk info inputs outputs ∧ outs = encodeOutputs base64 outputs) ∨
      ∃ evaluated proof, DecodeTo base64 evaluatedsB64 evaluated ∧
        base64.decode (utf8Bytes proofB64) = .ok proof ∧
        Protocol.ForgedAnswer S requests evaluated proof (sk + S.tweak info) := by
  obtain ⟨evaluated, proof, outputs, hevaluated, hproof, hcore, rfl⟩ :=
    (finalizeBatch_requests_eq_ok_iff hbase64 hpk hrequests).mp hfinalize
  rcases Protocol.finalize_agrees S hrequests.made hcore rfl with houtputs | hforged
  · exact .inl ⟨outputs, hrequests.evaluations houtputs, rfl⟩
  · exact .inr ⟨evaluated, proof, hevaluated, hproof, hforged⟩

/-- What `finalizeBatch` accepts for the strings that `blindBatch` returned, whatever strings it is given
as the answer, are the encoded evaluations of the inputs under the secret key of the public key, unless
the proof is forged. -/
theorem finalizeBatch_agrees (hbase64 : base64.Lawful) {R : Type} [Rng R] {fuel : ℕ}
    {publicKeyB64 : String} {inputs : JsArray} {info : Bytes} {rng rng' : R} {out : BlindBatch}
    (hblind : blindBatch S host base64 fuel publicKeyB64 inputs info rng = some (.ok out, rng'))
    {F : Features} {evaluatedsB64 : JsArray} {proofB64 : String} {outs : JsArray}
    (hfinalize : finalizeBatch S host base64 F publicKeyB64 inputs out.states out.blindedMessages
      evaluatedsB64 proofB64 info = .ok outs) :
    ∃ sk : Scalar, Decodes base64 (PublicKey.fromBytes S) publicKeyB64 ⟨sk • S.basepoint⟩ ∧
      ((∃ outputs, Evaluations S host sk info inputs outputs ∧ outs = encodeOutputs base64 outputs) ∨
      ∃ requests evaluated proof, out.blindedMessages = messageStrings base64 requests ∧
        DecodeTo base64 evaluatedsB64 evaluated ∧ base64.decode (utf8Bytes proofB64) = .ok proof ∧
        Protocol.ForgedAnswer S requests evaluated proof (sk + S.tweak info)) := by
  obtain ⟨⟨pk⟩, requests, blinds, hpk, hrequests, rfl⟩ :=
    (blindBatch_eq_some_ok_iff S host base64).mp hblind
  obtain ⟨sk, rfl⟩ := S.basepoint_generates pk
  refine ⟨sk, hpk, ?_⟩
  rcases evaluations_of_finalizeBatch hbase64 hpk hrequests hfinalize with houtputs | hforged
  · exact .inl houtputs
  · obtain ⟨evaluated, proof, hevaluated, hproof, hforged⟩ := hforged
    exact .inr ⟨requests, evaluated, proof, rfl, hevaluated, hproof, hforged⟩

/-- The strings of an answer. -/
def evaluatedStrings (base64 : Base64) (answer : Answer) : JsArray :=
  answer.evaluated.map fun e => .string (base64.encode e.toList)

/-- The server's strings are decoded to its bytes. -/
theorem decodeTo_evaluatedStrings (hbase64 : base64.Lawful) (answer : Answer) :
    DecodeTo base64 (evaluatedStrings base64 answer) (answer.evaluated.map (·.toList)) := by
  unfold DecodeTo evaluatedStrings
  rw [List.forall₂_map_left_iff, List.forall₂_map_right_iff, List.forall₂_same]
  exact fun e _ => ⟨_, rfl, hbase64.decode_encode _⟩

/-- What a server of the client's key answers to the strings of `blindBatch` is accepted. -/
theorem finalizeBatch_answer (hbase64 : base64.Lawful) {R : Type} [Rng R] {fuel : ℕ} {sk : Scalar}
    {publicKeyB64 : String}
    (hpk : Decodes base64 (PublicKey.fromBytes S) publicKeyB64 ⟨sk • S.basepoint⟩)
    {inputs : JsArray} {info : Bytes} {rng rng' : R} {requests : List (Request G)}
    {blinds : List Scalarˣ}
    (hrequests : Requests S host fuel (.new ⟨sk • S.basepoint⟩) info inputs rng requests blinds rng')
    (hne : requests ≠ []) (F F' : Features) (nonce : Scalar) :
    let answer := Protocol.answerTo S F' sk info requests blinds nonce
    ∃ outputs, finalizeBatch S host base64 F publicKeyB64 inputs (stateStrings base64 requests)
        (messageStrings base64 requests) (evaluatedStrings base64 answer)
        (base64.encode answer.proof.toList) info = .ok (encodeOutputs base64 outputs) ∧
      Evaluations S host sk info inputs outputs := by
  intro answer
  obtain ⟨outputs, hfinalize, houtputs⟩ :=
    Protocol.finalize_serve S F F' rfl hrequests.made hne nonce
  refine ⟨outputs, ?_, hrequests.evaluations houtputs⟩
  exact (finalizeBatch_requests_eq_ok_iff hbase64 hpk hrequests).mpr
    ⟨_, _, outputs, decodeTo_evaluatedStrings hbase64 answer, hbase64.decode_encode _, hfinalize, rfl⟩

/-! ## A session on the executable suite -/

/-- An engine whose constructor makes an empty array of all values that are not byte arrays. -/
def referenceHost : Host where
  newUint8Array
    | .uint8Array bytes => .ok bytes
    | _ => .ok []
  newUint8Array_uint8Array _ := rfl

/-- Two inputs. -/
def referenceInputs : JsArray := [.uint8Array [2], .uint8Array [3]]

/-- A client of the key `5` makes one request more, with the blind that it draws. -/
theorem exists_requests_cons {input : Bytes} {inputs : JsArray} {r : Scalar} (hr : r ≠ 0)
    {scalars : List Scalar} {requests : List (Request Scalar)} {blinds : List Scalarˣ}
    (hadm : referenceSuite.Admissible ((5 : Scalar) • referenceSuite.basepoint) input [1])
    (h : Requests referenceSuite referenceHost 1 (.new ⟨(5 : Scalar) • referenceSuite.basepoint⟩) [1]
      inputs (Replay.mk scalars) requests blinds (Replay.mk [])) :
    ∃ req, Requests referenceSuite referenceHost 1
      (.new ⟨(5 : Scalar) • referenceSuite.basepoint⟩) [1] (.uint8Array input :: inputs)
      (Replay.mk (r :: scalars)) (req :: requests) (Units.mk0 r hr :: blinds) (Replay.mk []) := by
  let client := PoprfClient.new (⟨(5 : Scalar) • referenceSuite.basepoint⟩ : PublicKey Scalar)
  have htoken := client.blindWithInner_of_admissible referenceSuite hadm (Units.mk0 r hr)
  exact ⟨_, (requests_cons_iff referenceSuite referenceHost).mpr ⟨input, _, requests, _, blinds, _, rfl, rfl,
    rfl, randomScalar_replay hr scalars, htoken, h⟩⟩

/-- A client of the key `5` makes two requests. -/
theorem exists_referenceRequests : ∃ requests blinds,
    Requests referenceSuite referenceHost 1 (.new ⟨(5 : Scalar) • referenceSuite.basepoint⟩) [1]
      referenceInputs (Replay.mk [7, 8]) requests blinds (Replay.mk []) ∧ requests ≠ [] := by
  have hfirst : referenceSuite.Admissible ((5 : Scalar) • referenceSuite.basepoint) [2] [1] :=
    ⟨by decide, by decide, by decide +kernel, by decide +kernel⟩
  have hsecond : referenceSuite.Admissible ((5 : Scalar) • referenceSuite.basepoint) [3] [1] :=
    ⟨by decide, by decide, by decide +kernel, by decide +kernel⟩
  have hnone : Requests referenceSuite referenceHost 1
      (.new ⟨(5 : Scalar) • referenceSuite.basepoint⟩) [1] [] (Replay.mk []) [] [] (Replay.mk []) :=
    (requests_nil_iff referenceSuite referenceHost).mpr ⟨rfl, rfl, rfl⟩
  obtain ⟨req', hone⟩ := exists_requests_cons (by decide +kernel : (8 : Scalar) ≠ 0) hsecond hnone
  obtain ⟨req, hboth⟩ := exists_requests_cons (by decide +kernel : (7 : Scalar) ≠ 0) hfirst hone
  exact ⟨_, _, hboth, List.cons_ne_nil _ _⟩

/-- The client blinds two inputs for the key `5`, and accepts what a server of the key answers. -/
theorem exists_referenceSession : ∃ (publicKeyB64 : String) (out : BlindBatch) (evaluatedsB64 : JsArray)
    (proofB64 : String) (outs : JsArray),
    Decodes Ffi.standardBase64 (PublicKey.fromBytes referenceSuite) publicKeyB64
      ⟨(5 : Scalar) • referenceSuite.basepoint⟩ ∧
    blindBatch referenceSuite referenceHost Ffi.standardBase64 1 publicKeyB64 referenceInputs [1]
      (Replay.mk [7, 8]) = some (.ok out, Replay.mk []) ∧
    finalizeBatch referenceSuite referenceHost Ffi.standardBase64 ⟨true, true⟩ publicKeyB64
      referenceInputs out.states out.blindedMessages evaluatedsB64 proofB64 [1] = .ok outs ∧
    ∃ outputs, Evaluations referenceSuite referenceHost 5 [1] referenceInputs outputs ∧
      outs = encodeOutputs Ffi.standardBase64 outputs := by
  let pk : PublicKey Scalar := ⟨(5 : Scalar) • referenceSuite.basepoint⟩
  have hpk : Decodes Ffi.standardBase64 (PublicKey.fromBytes referenceSuite)
      (Ffi.standardBase64.encode (pk.toBytes referenceSuite).toList) pk :=
    ⟨_, Ffi.standardBase64_lawful.decode_encode _,
      (PublicKey.fromBytes_eq_ok_iff referenceSuite).mpr ⟨rfl, by decide +kernel⟩⟩
  obtain ⟨requests, blinds, hrequests, hne⟩ := exists_referenceRequests
  have hblind := (blindBatch_eq_some_ok_iff referenceSuite referenceHost Ffi.standardBase64).mpr
    ⟨pk, _, _, hpk, hrequests, rfl⟩
  obtain ⟨outputs, hfinalize, houtputs⟩ := finalizeBatch_answer Ffi.standardBase64_lawful hpk hrequests hne
    ⟨true, true⟩ ⟨false, false⟩ 11
  exact ⟨_, _, _, _, _, hpk, hblind, hfinalize, outputs, houtputs, rfl⟩

/-- The client accepts what a server of the key `5` answers. -/
theorem finalizeBatch_agrees_reference :
    ∃ (publicKeyB64 : String) (out : BlindBatch) (evaluatedsB64 : JsArray) (proofB64 : String)
      (outs : JsArray),
      blindBatch referenceSuite referenceHost Ffi.standardBase64 1 publicKeyB64 referenceInputs [1]
        (Replay.mk [7, 8]) = some (.ok out, Replay.mk []) ∧
      finalizeBatch referenceSuite referenceHost Ffi.standardBase64 ⟨true, true⟩ publicKeyB64
        referenceInputs out.states out.blindedMessages evaluatedsB64 proofB64 [1] = .ok outs ∧
      ∃ sk : Scalar,
        Decodes Ffi.standardBase64 (PublicKey.fromBytes referenceSuite) publicKeyB64
          ⟨sk • referenceSuite.basepoint⟩ ∧
        ((∃ outputs, Evaluations referenceSuite referenceHost sk [1] referenceInputs outputs ∧
          outs = encodeOutputs Ffi.standardBase64 outputs) ∨
        ∃ requests evaluated proof,
          out.blindedMessages = messageStrings Ffi.standardBase64 requests ∧
          DecodeTo Ffi.standardBase64 evaluatedsB64 evaluated ∧
          Ffi.standardBase64.decode (utf8Bytes proofB64) = .ok proof ∧
          Protocol.ForgedAnswer referenceSuite requests evaluated proof
            (sk + referenceSuite.tweak [1])) := by
  obtain ⟨publicKeyB64, out, evaluatedsB64, proofB64, outs, -, hblind, hfinalize, -⟩ :=
    exists_referenceSession
  exact ⟨_, _, _, _, _, hblind, hfinalize,
    finalizeBatch_agrees Ffi.standardBase64_lawful hblind hfinalize⟩

end PoprfRistretto.Wasm
