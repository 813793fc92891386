import PoprfRistretto.Ffi.Answers
import PoprfRistretto.Wasm.Sessions

/-!
# JavaScript clients of a server behind the C ABI

A client blinds its inputs in JavaScript and sends the strings. A program calls the C ABI for the
answer, among the other threads of its process, and sends strings back. The client finalizes with them,
and the program redeems what the client has then.

* `exchange_agrees` — the client accepts the strings, whatever else the process does.
* `exchange_completes` — the program can make the strings from any state.
* `redeem_agrees` — the token of the client, and no other text, redeems.
-/

namespace PoprfRistretto.Deployment

open Memory PartialState Utf8 ExceptLoop
open Ffi (Base64 Process Event Ptr Handle Call Ret State RawSlice CString PointsAt DecodedArray Written IsText
  Issued slots bytesFromRaw NULL)
open Wasm (JsArray JsValue Host BlindBatch Evaluations Requests blindBatch finalizeBatch encodeOutputs)
open Protocol (Request Answer)

variable {G : Type} [AddCommGroup G] [Module Scalar G] [DecidableEq G]
variable {S : Suite G} {host : Host} {base64 : Base64} {F : Features} {R R' : Type} [Rng R] [Rng R']

/-! ## The strings -/

/-- The bytes are those of the JavaScript strings. -/
def SentTexts (vals : JsArray) (texts : List Bytes) : Prop :=
  List.Forall₂ (fun val text => ∃ s, val = .string s ∧ utf8Bytes s = text) vals texts

/-- The JavaScript value is the string behind the pointer. -/
def Copied (heap : Heap (Ffi.Boxed S)) (val : JsValue) (c : Ptr) : Prop :=
  ∃ (s : String) (cs : CString), val = .string s ∧ heap.get c = some ⟨.cChar, cs⟩ ∧ utf8Bytes s = cs.bytes

omit [DecidableEq G] in
/-- A copy of the Base64 text of bytes decodes to them. -/
theorem decode_of_copied (hbase64 : base64.Lawful) {heap : Heap (Ffi.Boxed S)} {val : JsValue} {c : Ptr}
    (hval : Copied heap val c) {bytes : Bytes} (htext : IsText base64 heap c bytes) :
    ∃ s, val = .string s ∧ base64.decode (utf8Bytes s) = .ok bytes := by
  obtain ⟨s, cs, rfl, hcs, hs⟩ := hval
  obtain ⟨cs', hcs', hbytes⟩ := htext
  obtain rfl := Ffi.value_unique hcs hcs'
  exact ⟨s, rfl, by rw [hs, hbytes]; exact hbase64.decode_encode bytes⟩

omit [DecidableEq G] in
/-- The Base64 text of bytes can be copied. -/
theorem copied_of_isText {heap : Heap (Ffi.Boxed S)} {c : Ptr} {bytes : Bytes}
    (h : IsText base64 heap c bytes) : Copied heap (.string (base64.encode bytes)) c := by
  obtain ⟨cs, hcs, hbytes⟩ := h
  exact ⟨_, cs, rfl, hcs, hbytes.symm⟩

omit [DecidableEq G] in
/-- What the C strings of a heap say is what the encoder made of the bytes. -/
theorem forall₂_copied {heap : Heap (Ffi.Boxed S)} {cs : List Ptr} {strings : List Bytes}
    (h : List.Forall₂ (IsText base64 heap) cs strings) :
    List.Forall₂ (Copied heap) (strings.map fun bytes => .string (base64.encode bytes)) cs := by
  rw [List.forall₂_map_left_iff]
  exact h.flip.imp fun _ _ hc => copied_of_isText hc

omit [DecidableEq G] in
/-- Copies of Base64 texts decode to the bytes. -/
theorem decodeTo_of_copied (hbase64 : base64.Lawful) {heap : Heap (Ffi.Boxed S)} {vals : JsArray}
    {cs : List Ptr} (hvals : List.Forall₂ (Copied heap) vals cs) {strings : List Bytes}
    (htexts : List.Forall₂ (IsText base64 heap) cs strings) : Wasm.DecodeTo base64 vals strings := by
  refine (forall₂_exists_iff.mpr ⟨cs, hvals, htexts⟩).imp fun val bytes h => ?_
  obtain ⟨c, hval, htext⟩ := h
  exact decode_of_copied hbase64 hval htext

omit [AddCommGroup G] [Module Scalar G] [DecidableEq G] in
/-- The strings that requests send decode to their messages. -/
theorem messages_of_sent (hbase64 : base64.Lawful) {requests : List (Request G)}
    {texts messages : List Bytes}
    (hsent : SentTexts (Wasm.messageStrings base64 requests) texts)
    (hmessages : List.Forall₂ (fun text message => base64.decode text = .ok message) texts messages) :
    messages = requests.map (·.message.toList) := by
  unfold SentTexts Wasm.messageStrings at hsent
  rw [List.forall₂_map_left_iff] at hsent
  induction hsent generalizing messages with
  | nil =>
    cases hmessages
    rfl
  | cons hreq _ ih =>
    cases hmessages with
    | cons hmessage hrest =>
      obtain ⟨s, hs, rfl⟩ := hreq
      obtain rfl := JsValue.string.inj hs
      obtain rfl := Except.ok.inj ((hbase64.decode_encode _).symm.trans hmessage)
      rw [List.map_cons, ih hrest]

/-- The strings of a client encode blinded elements. -/
theorem exists_sent (hbase64 : base64.Lawful) {fuel : ℕ} {publicKeyB64 : String} {inputs : JsArray}
    {info : Bytes} {rng rng' : R'} {out : BlindBatch}
    (hblind : blindBatch S host base64 fuel publicKeyB64 inputs info rng = some (.ok out, rng')) :
    ∃ texts, SentTexts out.blindedMessages texts ∧ ∃ blindeds, List.Forall₂ (fun text b =>
      Ffi.Reads base64 (BlindedElement.fromBytes S) (.points text) b) texts blindeds := by
  obtain ⟨pk, requests, blinds, -, hrequests, rfl⟩ :=
    (Wasm.blindBatch_eq_some_ok_iff S host base64).mp hblind
  have hparsed := mapM_eq_ok_iff.mp hrequests.made.mapM_message
  refine ⟨requests.map fun req => utf8Bytes (base64.encode req.message.toList), ?_,
    (Protocol.points S requests blinds).map BlindedElement.mk, ?_⟩
  · unfold SentTexts Wasm.messageStrings
    rw [List.forall₂_map_left_iff, List.forall₂_map_right_iff, List.forall₂_same]
    exact fun req _ => ⟨_, rfl, rfl⟩
  · rw [List.forall₂_map_left_iff]
    exact hparsed.imp fun req b hb => ⟨_, _, rfl, hbase64.decode_encode _, hb⟩

/-! ## A session on the executable suite -/

/-- The generator of a program yields a nonce. -/
theorem randomScalar_eleven : randomScalar 1 (Replay.mk [11]) = some (11, Replay.mk []) :=
  randomScalar_replay (by decide +kernel) []

/-! ## The exchange -/

section Exchange

variable {publicKeyB64 : String} {skS : SecretKey} {fuel : ℕ} {inputs : JsArray} {info : Bytes}
  {rng rng' : R'} {out : BlindBatch} {start p : Process S R} {trace : List Event}

/-- The batch evaluation of what a client sends succeeds, and the client accepts what it leaves in the
slots, when each result has a slot of its own. -/
theorem slots_of_exchange (hbase64 : base64.Lawful)
    (hpk : Wasm.Decodes base64 (PublicKey.fromBytes S) publicKeyB64 (skS.publicKey S))
    (hblind : blindBatch S host base64 fuel publicKeyB64 inputs info rng = some (.ok out, rng'))
    (hinputs : inputs ≠ []) (hstart : start.shared.heap = Heap.empty)
    (h : Run (Process.Step base64 F) start trace p) {sk blindedArr outEvaluated outProof : Ptr}
    {texts : List Bytes} {infoRaw : RawSlice} (hsk : PointsAt p.shared .secretKey sk skS)
    (hsent : SentTexts out.blindedMessages texts)
    (hdecoded : DecodedArray trace p.shared.memory blindedArr texts)
    (hinfo : bytesFromRaw infoRaw = some info)
    (hargs : blindedArr ≠ NULL ∧ outEvaluated ≠ NULL ∧ outProof ≠ NULL) {fuel' : ℕ} {nonce : Scalar}
    {drawn : R} (hdraw : randomScalar fuel' p.shared.osRng = some (nonce, drawn)) {thread : ℕ} {ret : Ret}
    {s : State S R}
    (hrun : ((Call.poprfBlindEvaluateBatch sk blindedArr texts.length infoRaw outEvaluated outProof).run
      base64 F fuel').run (p.view thread) = some (ret, s)) :
    ret = .int 0 ∧ ∃ evaluateds proof,
      (Ffi.SlotsApart outEvaluated texts.length outProof →
        Ffi.SlotsHold s outEvaluated outProof texts.length evaluateds proof) ∧
      ∀ (heap : Heap (Ffi.Boxed S)) cs c,
        List.Forall₂ (IsText base64 heap) cs (evaluateds.map fun e => (e.toBytes S).toList) ∧
          IsText base64 heap c (proof.toBytes S).toList →
        ∀ evaluatedsB64 proofB64, List.Forall₂ (Copied heap) evaluatedsB64 cs →
        Copied heap (.string proofB64) c →
        ∀ F', ∃ outputs, finalizeBatch S host base64 F' publicKeyB64 inputs out.states
            out.blindedMessages evaluatedsB64 proofB64 info = .ok (encodeOutputs base64 outputs) ∧
          Evaluations S host skS.scalar info inputs outputs := by
  obtain ⟨pk, requests, blinds, hpk', hrequests, rfl⟩ :=
    (Wasm.blindBatch_eq_some_ok_iff S host base64).mp hblind
  obtain rfl := hpk'.unique hpk
  have hne : requests ≠ [] := by
    rintro rfl
    exact hinputs (List.forall₂_nil_right_iff.mp hrequests.converted)
  -- what the server has decoded is what the client has sent
  obtain ⟨messages, blindeds, hmessages, hparsed, harray⟩ := hdecoded.exists_messages hstart h
  obtain rfl := messages_of_sent hbase64 hsent hmessages
  have hn : texts.length ≠ 0 := by
    rw [hmessages.length_eq, List.length_map]
    exact fun hnil => hne (List.length_eq_zero_iff.mp hnil)
  obtain ⟨hret, hslots⟩ := Ffi.slots_of_run hsk harray hinfo ⟨hargs.1, hargs.2.1, hargs.2.2, hn⟩ hdraw hrun
  have hkey : skS.scalar • S.basepoint = (PoprfClient.new (skS.publicKey S)).pk := rfl
  -- the C ABI computes what the server of the protocol computes
  have hserve := Protocol.serve_eq S F hkey hrequests.made hne nonce
  obtain ⟨evaluateds, proof, hbatch, hanswer⟩ := (Ffi.serve_eq_ok_iff hparsed).mp hserve
  refine ⟨hret.mpr ⟨evaluateds, proof, hbatch⟩, evaluateds, proof, hslots _ _ hbatch, ?_⟩
  rintro heap cs c ⟨htexts, htext⟩ evaluatedsB64 proofB64 hcopies hcopy F'
  -- back at the client: the strings that were copied are those of the reply
  have hevaluateds := decodeTo_of_copied hbase64 hcopies htexts
  obtain ⟨proofText, hproofText, hproof⟩ := decode_of_copied hbase64 hcopy htext
  obtain rfl := JsValue.string.inj hproofText
  obtain ⟨outputs, hfinalize, houtputs⟩ :=
    Protocol.finalize_serve S F' F hkey hrequests.made hne nonce
  rw [hanswer, List.map_map] at hfinalize
  refine ⟨outputs, ?_, hrequests.evaluations houtputs⟩
  -- and the client of the protocol finalizes it
  exact (Wasm.finalizeBatch_requests_eq_ok_iff hbase64 hpk hrequests).mpr
    ⟨_, _, outputs, hevaluateds, hproof, hfinalize, rfl⟩

/-- A client that blinds for the key of the server accepts the answer of a program that decodes the
strings of the client, evaluates them in one batch and makes strings of what it finds in its slots,
whatever the threads of its process call in between, and is left with the evaluations of its inputs. Each
result of the batch has a slot of its own. -/
theorem exchange_agrees (hbase64 : base64.Lawful)
    (hpk : Wasm.Decodes base64 (PublicKey.fromBytes S) publicKeyB64 (skS.publicKey S))
    (hblind : blindBatch S host base64 fuel publicKeyB64 inputs info rng = some (.ok out, rng'))
    (hinputs : inputs ≠ []) (hstart : start.shared.heap = Heap.empty)
    (h : Run (Process.Step base64 F) start trace p) {sk blindedArr outEvaluated outProof : Ptr}
    {texts : List Bytes} {infoRaw : RawSlice} (hsk : PointsAt p.shared .secretKey sk skS)
    (hsent : SentTexts out.blindedMessages texts)
    (hdecoded : DecodedArray trace p.shared.memory blindedArr texts)
    (hinfo : bytesFromRaw infoRaw = some info)
    (hargs : blindedArr ≠ NULL ∧ outEvaluated ≠ NULL ∧ outProof ≠ NULL) {fuel' : ℕ} {nonce : Scalar}
    {drawn : R} (hdraw : randomScalar fuel' p.shared.osRng = some (nonce, drawn)) {thread : ℕ} {ret : Ret}
    {s : State S R}
    (hrun : ((Call.poprfBlindEvaluateBatch sk blindedArr texts.length infoRaw outEvaluated outProof).run
      base64 F fuel').run (p.view thread) = some (ret, s)) :
    ret = .int 0 ∧ (Ffi.SlotsApart outEvaluated texts.length outProof →
      ∀ after p', Run (Process.Step base64 F) (p.resume thread s) after p' → ∀ cs c,
      List.Forall₂ (Written after .poprfEvaluatedElementEncodeBase64)
        (slots s.memory .evaluatedElement outEvaluated texts.length) cs →
      List.Forall₂ (Written after .poprfProofEncodeBase64) (slots s.memory .proof outProof 1) [c] →
      ∀ evaluatedsB64 proofB64, List.Forall₂ (Copied p'.shared.heap) evaluatedsB64 cs →
        Copied p'.shared.heap (.string proofB64) c →
        ∀ F', ∃ outputs, finalizeBatch S host base64 F' publicKeyB64 inputs out.states
            out.blindedMessages evaluatedsB64 proofB64 info = .ok (encodeOutputs base64 outputs) ∧
          Evaluations S host skS.scalar info inputs outputs) := by
  obtain ⟨hret, evaluateds, proof, hslots, haccept⟩ := slots_of_exchange hbase64 hpk hblind hinputs hstart h
    hsk hsent hdecoded hinfo hargs hdraw hrun
  refine ⟨hret, ?_⟩
  intro hapart after p' hafter cs c hevaluateds hproof evaluatedsB64 proofB64 hcopies hcopy
  have htexts := Ffi.texts_of_slots hafter (hslots hapart) hevaluateds hproof
  exact haccept p'.shared.heap cs c htexts evaluatedsB64 proofB64 hcopies hcopy

/-- A program with the key `5` has the strings of a client evaluated, and makes strings that the client
accepts. -/
theorem exchange_agrees_reference :
    ∃ (publicKeyB64 : String) (out : BlindBatch) (trace : List Event)
      (p : Process referenceSuite Replay) (sk : Ptr) (texts : List Bytes)
      (s : State referenceSuite Replay),
      blindBatch referenceSuite Wasm.referenceHost Ffi.standardBase64 1 publicKeyB64 Wasm.referenceInputs
        [1] (Replay.mk [7, 8]) = some (.ok out, Replay.mk []) ∧
      SentTexts out.blindedMessages texts ∧
      Run (Process.Step Ffi.standardBase64 ⟨true, true⟩) Ffi.freshProcess trace p ∧
      ((Call.poprfBlindEvaluateBatch sk 1 texts.length (.points [1]) (1 + texts.length)
        (1 + 2 * texts.length)).run Ffi.standardBase64 ⟨true, true⟩ 1).run (p.view 0) =
          some (.int 0, s) ∧
      ∃ after p' cs c, Run (Process.Step Ffi.standardBase64 ⟨true, true⟩) (p.resume 0 s) after p' ∧
        ∃ evaluatedsB64 proofB64, List.Forall₂ (Copied p'.shared.heap) evaluatedsB64 cs ∧
          Copied p'.shared.heap (.string proofB64) c ∧
          ∃ outputs, finalizeBatch referenceSuite Wasm.referenceHost Ffi.standardBase64 ⟨false, false⟩
              publicKeyB64 Wasm.referenceInputs out.states out.blindedMessages evaluatedsB64 proofB64 [1] =
                .ok (encodeOutputs Ffi.standardBase64 outputs) ∧
            Evaluations referenceSuite Wasm.referenceHost 5 [1] Wasm.referenceInputs outputs := by
  -- the client blinds two inputs, and the server decodes its key and the two elements
  obtain ⟨publicKeyB64, out, _, _, _, hpk, hblind, -⟩ := Wasm.exists_referenceSession
  obtain ⟨trace, p, sk, hrun, hsk⟩ := Ffi.exists_referenceServer
  obtain ⟨texts, hsent, blindeds, hreads⟩ := exists_sent Ffi.standardBase64_lawful hblind
  obtain ⟨trace', p', ret, s, hrun', -, hsk', hdecoded, hosRng, hapart, hbatch⟩ :=
    Ffi.exists_batch hreads hsk (.points [1]) randomScalar_eleven
  have hall := run_append_iff.mpr ⟨p, hrun, hrun'⟩
  have hdecoded' := hdecoded.append_left trace
  have hargs := Ffi.requestArrays_ne_null texts.length
  have hinputs : Wasm.referenceInputs ≠ [] := List.cons_ne_nil _ _
  -- the server's call is within its contract, with slots apart
  obtain ⟨rfl, haccept⟩ := exchange_agrees Ffi.standardBase64_lawful hpk hblind hinputs rfl hall hsk' hsent
    hdecoded' rfl hargs (hosRng ▸ randomScalar_eleven) hbatch
  obtain ⟨-, evaluateds, proof, hslots, -⟩ := slots_of_exchange Ffi.standardBase64_lawful hpk hblind hinputs
    rfl hall hsk' hsent hdecoded' rfl hargs (hosRng ▸ randomScalar_eleven) hbatch
  have hstep := Run.snoc hall (Process.Step.returns hapart hbatch)
  -- the reply is encoded, and the strings are copied to the client
  obtain ⟨after, p'', cs, c, hafter, hcs, hc⟩ :=
    Ffi.exists_texts Ffi.standardBase64_lawful rfl hstep (hslots hapart)
  have htexts := Ffi.texts_of_slots hafter (hslots hapart) hcs hc
  have hcopies := forall₂_copied htexts.1
  have hcopy := copied_of_isText htexts.2
  obtain ⟨outputs, hfinalize, houtputs⟩ :=
    haccept hapart after p'' hafter cs c hcs hc _ _ hcopies hcopy ⟨false, false⟩
  exact ⟨_, out, _, p', sk, texts, s, hblind, hsent, hall, hbatch, after, p'', cs, c, hafter, _, _, hcopies,
    hcopy, outputs, hfinalize, houtputs⟩

/-- From any state, a program that holds the key can make strings that the client accepts. -/
theorem exchange_completes (hbase64 : base64.Lawful)
    (hpk : Wasm.Decodes base64 (PublicKey.fromBytes S) publicKeyB64 (skS.publicKey S))
    (hblind : blindBatch S host base64 fuel publicKeyB64 inputs info rng = some (.ok out, rng'))
    (hinputs : inputs ≠ []) (hstart : start.shared.heap = Heap.empty)
    (h : Run (Process.Step base64 F) start trace p) {sk : Ptr}
    (hsk : PointsAt p.shared .secretKey sk skS) {fuel' : ℕ} {nonce : Scalar} {osRng drawn : R}
    (hdraw : randomScalar fuel' osRng = some (nonce, drawn)) :
    ∃ trace' p' cs c evaluatedsB64 proofB64, Run (Process.Step base64 F) p trace' p' ∧
      List.Forall₂ (Copied p'.shared.heap) evaluatedsB64 cs ∧
      Copied p'.shared.heap (.string proofB64) c ∧
      ∀ F', ∃ outputs, finalizeBatch S host base64 F' publicKeyB64 inputs out.states out.blindedMessages
          evaluatedsB64 proofB64 info = .ok (encodeOutputs base64 outputs) ∧
        Evaluations S host skS.scalar info inputs outputs := by
  obtain ⟨texts, hsent, blindeds, hreads⟩ := exists_sent hbase64 hblind
  obtain ⟨trace₁, p₁, ret, s, hrun, -, hsk', hdecoded, hosRng, hapart, hbatch⟩ :=
    Ffi.exists_batch hreads hsk (.points info) hdraw
  have hall := run_append_iff.mpr ⟨p, h, hrun⟩
  have hargs := Ffi.requestArrays_ne_null texts.length
  obtain ⟨hret, evaluateds, proof, hslots, haccept⟩ := slots_of_exchange hbase64 hpk hblind hinputs hstart
    hall hsk' hsent (hdecoded.append_left trace) rfl hargs (hosRng ▸ hdraw) hbatch
  have hstep : Run (Process.Step base64 F) p₁ _ (p₁.resume 0 s) := .snoc .refl (.returns hapart hbatch)
  obtain ⟨after, p', cs, c, hafter, hevaluateds, hproof⟩ := Ffi.exists_texts hbase64 hstart
    (run_append_iff.mpr ⟨p₁, hall, hstep⟩) (hslots hapart)
  have htexts := Ffi.texts_of_slots hafter (hslots hapart) hevaluateds hproof
  have hcopies := forall₂_copied htexts.1
  have hcopy := copied_of_isText htexts.2
  exact ⟨_, p', cs, c, _, _, run_append_iff.mpr ⟨p₁, hrun, run_append_iff.mpr ⟨_, hstep, hafter⟩⟩,
    hcopies, hcopy, haccept p'.shared.heap cs c htexts _ _ hcopies hcopy⟩

/-- The program makes the strings that the client accepts. -/
theorem exchange_completes_reference :
    ∃ (publicKeyB64 : String) (out : BlindBatch) (trace : List Event)
      (p : Process referenceSuite Replay) (cs : List Ptr) (c : Ptr) (evaluatedsB64 : JsArray)
      (proofB64 : String) (outputs : List PoprfOutput),
      Run (Process.Step Ffi.standardBase64 ⟨true, true⟩) Ffi.freshProcess trace p ∧
      List.Forall₂ (Copied p.shared.heap) evaluatedsB64 cs ∧
      Copied p.shared.heap (.string proofB64) c ∧
      finalizeBatch referenceSuite Wasm.referenceHost Ffi.standardBase64 ⟨false, false⟩ publicKeyB64
        Wasm.referenceInputs out.states out.blindedMessages evaluatedsB64 proofB64 [1] =
          .ok (encodeOutputs Ffi.standardBase64 outputs) ∧
      Evaluations referenceSuite Wasm.referenceHost 5 [1] Wasm.referenceInputs outputs := by
  obtain ⟨publicKeyB64, out, _, _, _, hpk, hblind, -⟩ := Wasm.exists_referenceSession
  obtain ⟨trace, p, sk, hrun, hsk⟩ := Ffi.exists_referenceServer
  obtain ⟨trace', p', cs, c, evaluatedsB64, proofB64, hrun', hcopies, hcopy, haccept⟩ :=
    exchange_completes Ffi.standardBase64_lawful hpk hblind (List.cons_ne_nil _ _) rfl hrun hsk
      randomScalar_eleven
  obtain ⟨outputs, hfinalize, houtputs⟩ := haccept ⟨false, false⟩
  exact ⟨_, out, _, p', cs, c, _, _, outputs, run_append_iff.mpr ⟨p, hrun, hrun'⟩, hcopies, hcopy, hfinalize,
    houtputs⟩

end Exchange

/-! ## Redemption -/

section Redemption

variable {p p' : Process S R}

/-- An evaluation under the key `skS` hands out a handle to what the core evaluates. -/
theorem output_of_step {thread : ℕ} {sk o : Ptr} {inputRaw infoRaw : RawSlice} {memory : Ffi.CallerMemory}
    (hstep : Process.Step base64 F p (.returns thread (.poprfEvaluate sk inputRaw infoRaw) (.ptr o) memory)
      p') {skS : SecretKey} (hsk : PointsAt p.shared .secretKey sk skS) {input info : Bytes}
    (hinput : bytesFromRaw inputRaw = some input) (hinfo : bytesFromRaw infoRaw = some info)
    {output : PoprfOutput} (houtput : (PoprfServer.new skS).evaluate S input info = .ok output) :
    PointsAt p'.shared .output o output := by
  cases hstep with
  | @returns _ fuel _ _ s hapart hrun =>
    rcases Ffi.received_of_run rfl hrun with ⟨-, hnone⟩ | ⟨hok, new, hnew, hreceived⟩
    · exact absurd ⟨skS, input, info, output, hsk, hinput, hinfo, houtput, rfl⟩ (hnone _)
    · obtain ⟨skS', input', info', output', hsk', hinput', hinfo', houtput', rfl⟩ := hnew
      obtain rfl := Ffi.value_unique hsk.2 hsk'.2
      obtain rfl := Option.some.inj (hinput.symm.trans hinput')
      obtain rfl := Option.some.inj (hinfo.symm.trans hinfo')
      obtain rfl := Except.ok.inj (houtput.symm.trans houtput')
      have hne : o ≠ NULL := hok
      have hreceived' : List.Forall₂ _ (if o = NULL then [] else [(Ffi.HandleType.output, o)]) [_] :=
        hreceived hapart
      rw [if_neg hne] at hreceived'
      exact ⟨hne, (List.forall₂_cons.mp hreceived').1.2⟩

/-- An evaluation returns a pointer. -/
theorem exists_ptr_of_defined {sk : Ptr} {inputRaw infoRaw : RawSlice} {fuel : ℕ} {u : State S R}
    (h : Defined ((Call.poprfEvaluate sk inputRaw infoRaw).run base64 F fuel) u) :
    ∃ o s, ((Call.poprfEvaluate sk inputRaw infoRaw).run base64 F fuel).run u = some (.ptr o, s) := by
  obtain ⟨ret, s, hrun⟩ := h
  have hpure := hrun
  rw [Ffi.Call.run, map_eq_pure_bind] at hpure
  obtain ⟨o, _, -, hpure⟩ := run_bind_eq_some_iff.mp hpure
  cases hpure
  exact ⟨o, s, hrun⟩

/-- A comparison with an output that the caller holds. -/
theorem compares_of_step (hbase64 : base64.Lawful) {thread : ℕ} {o : Ptr} {text : RawSlice} {ret : Ret}
    {memory : Ffi.CallerMemory}
    (hstep : Process.Step base64 F p (.returns thread (.poprfOutputEqBase64 o text) ret memory) p')
    {output : PoprfOutput} (ho : PointsAt p.shared .output o output) :
    ∃ code, ret = .int code ∧ Ffi.Compares base64 text output code := by
  cases hstep with
  | @returns _ fuel _ _ s hapart hrun =>
    rw [Ffi.Call.run, map_eq_pure_bind] at hrun
    obtain ⟨code, t, hcode, hpure⟩ := run_bind_eq_some_iff.mp hrun
    cases hpure
    exact ⟨code, rfl, Ffi.post_poprfOutputEqBase64 hbase64 ho text _ _ hcode⟩

/-- A program evaluates an input under the key `skS`, and compares the output with a text while it holds
it. -/
inductive Redemption (S : Suite G) (R : Type) [Rng R] (base64 : Base64) (F : Features) (skS : SecretKey)
    (input info : Bytes) (text : RawSlice) (ret : Ret) : Prop
  | intro {p p₁ p₂ p₃ : Process S R} {thread thread' : ℕ} {sk o : Ptr} {inputRaw infoRaw : RawSlice}
      {memory memory' : Ffi.CallerMemory} {between : List Event}
      (hsk : PointsAt p.shared .secretKey sk skS) (hinput : bytesFromRaw inputRaw = some input)
      (hinfo : bytesFromRaw infoRaw = some info)
      (hevaluate : Process.Step base64 F p
        (.returns thread (.poprfEvaluate sk inputRaw infoRaw) (.ptr o) memory) p₁)
      (hbetween : Run (Process.Step base64 F) p₁ between p₂)
      (hkept : ∀ event ∈ between, ¬event.Releases (.output, o))
      (hcompare : Process.Step base64 F p₂
        (.returns thread' (.poprfOutputEqBase64 o text) ret memory') p₃) :
      Redemption S R base64 F skS input info text ret

/-- What a client accepts, from whatever server, redeems with the program that holds the key: the
evaluation of the input compares equal to the token of the client, and to no other text, unless the proof
that the client was given is forged. -/
theorem redeem_agrees (hbase64 : base64.Lawful) {publicKeyB64 : String} {skS : SecretKey}
    (hpk : Wasm.Decodes base64 (PublicKey.fromBytes S) publicKeyB64 (skS.publicKey S)) {fuel : ℕ}
    {inputs : JsArray} {info : Bytes} {rng rng' : R'} {out : BlindBatch}
    (hblind : blindBatch S host base64 fuel publicKeyB64 inputs info rng = some (.ok out, rng'))
    {F' : Features} {evaluatedsB64 : JsArray} {proofB64 : String} {outs : JsArray}
    (hfinalize : finalizeBatch S host base64 F' publicKeyB64 inputs out.states out.blindedMessages
      evaluatedsB64 proofB64 info = .ok outs) :
    (List.Forall₂ (fun val token => ∃ (input : Bytes) (tokenB64 : String),
      host.newUint8Array val = .ok input ∧ token = .string tokenB64 ∧
      ∀ text ret, Redemption S R base64 F skS input info text ret →
        (ret = .int 1 ↔ bytesFromRaw text = some (utf8Bytes tokenB64))) inputs outs) ∨
    ∃ requests evaluated proof, out.blindedMessages = Wasm.messageStrings base64 requests ∧
      Wasm.DecodeTo base64 evaluatedsB64 evaluated ∧ base64.decode (utf8Bytes proofB64) = .ok proof ∧
      Protocol.ForgedAnswer S requests evaluated proof (skS.scalar + S.tweak info) := by
  obtain ⟨pk, requests, blinds, hpk', hrequests, rfl⟩ :=
    (Wasm.blindBatch_eq_some_ok_iff S host base64).mp hblind
  obtain rfl := hpk'.unique hpk
  rcases Wasm.evaluations_of_finalizeBatch hbase64 hpk hrequests hfinalize with houtputs | hforged
  · left
    obtain ⟨outputs, houtputs, rfl⟩ := houtputs
    unfold encodeOutputs
    rw [List.forall₂_map_right_iff]
    refine houtputs.imp fun val output h => ?_
    obtain ⟨input, hval, houtput⟩ := h
    refine ⟨input, _, hval, rfl, fun text ret hredemption => ?_⟩
    cases hredemption with
    | intro hsk hinput hinfo hevaluate hbetween hkept hcompare =>
      -- the server evaluates the input to the client's output
      have ho := output_of_step hevaluate hsk hinput hinfo houtput
      -- the handle is kept until the comparison
      have ho' := Ffi.value_run hbetween ho.2 hkept
      obtain ⟨code, rfl, hcompares⟩ := compares_of_step hbase64 hcompare ⟨ho.1, ho'⟩
      rw [Ret.int.injEq]
      exact hcompares.equal
  · right
    obtain ⟨evaluated, proof, hevaluated, hproof, hforged⟩ := hforged
    exact ⟨requests, evaluated, proof, rfl, hevaluated, hproof, hforged⟩

/-- From any state, a program that holds the key can evaluate an input and compare the output with its
text. -/
theorem exists_redemption (hbase64 : base64.Lawful) {sk : Ptr} {skS : SecretKey}
    (hsk : PointsAt p.shared .secretKey sk skS) {input info : Bytes} {output : PoprfOutput}
    (houtput : (PoprfServer.new skS).evaluate S input info = .ok output) :
    Redemption S R base64 F skS input info
      (.points (utf8Bytes (base64.encode output.asBytes.toList))) (.int 1) := by
  let text : RawSlice := .points (utf8Bytes (base64.encode output.asBytes.toList))
  let call : Ffi.Call := .poprfEvaluate sk (.points input) (.points info)
  have hcomputes : call.Computes base64 F 0 p.shared [⟨.output, output⟩] :=
    ⟨skS, input, info, output, hsk, rfl, rfl, houtput, rfl⟩
  have hreturns : Defined (call.run base64 F 0) (p.view 0) :=
    defined_map (Ffi.defined_poprfEvaluate (.inr ⟨skS, hsk.2⟩) _ _) _
  -- the server evaluates the input again, and compares the text with the result
  obtain ⟨o, s, hrun⟩ := exists_ptr_of_defined hreturns
  have hstep : Process.Step base64 F p (.returns 0 call (.ptr o) s.memory) (p.resume 0 s) :=
    .returns trivial hrun
  have ho := output_of_step hstep hsk rfl rfl houtput
  have hcompares : Defined ((Call.poprfOutputEqBase64 o text).run base64 F 0)
      ((p.resume 0 s).view 0) := defined_map (Ffi.defined_poprfOutputEqBase64 base64 (.inr ⟨_, ho.2⟩) _) _
  obtain ⟨ret, s', hrun'⟩ := hcompares
  have hstep' : Process.Step base64 F (p.resume 0 s)
      (.returns 0 (.poprfOutputEqBase64 o text) ret s'.memory) ((p.resume 0 s).resume 0 s') :=
    .returns trivial hrun'
  obtain ⟨code, rfl, hcode⟩ := compares_of_step hbase64 hstep' ho
  obtain rfl : code = 1 := hcode.equal.mpr rfl
  exact .intro hsk rfl rfl hstep .refl (fun _ h => absurd h List.not_mem_nil) hstep'

/-- What the client of the key `5` accepts redeems: each token compares equal at a program that holds the
key. -/
theorem redeem_agrees_reference :
    ∃ (publicKeyB64 : String) (out : BlindBatch) (evaluatedsB64 : JsArray) (proofB64 : String)
      (outs : JsArray),
      finalizeBatch referenceSuite Wasm.referenceHost Ffi.standardBase64 ⟨true, true⟩ publicKeyB64
        Wasm.referenceInputs out.states out.blindedMessages evaluatedsB64 proofB64 [1] = .ok outs ∧
      ((List.Forall₂ (fun val token => ∃ (input : Bytes) (tokenB64 : String),
        Wasm.referenceHost.newUint8Array val = .ok input ∧ token = .string tokenB64 ∧
        ∀ text ret,
          Redemption referenceSuite Replay Ffi.standardBase64 ⟨true, true⟩ ⟨5⟩ input [1] text ret →
          (ret = .int 1 ↔ bytesFromRaw text = some (utf8Bytes tokenB64))) Wasm.referenceInputs outs) ∨
      ∃ requests evaluated proof, out.blindedMessages = Wasm.messageStrings Ffi.standardBase64 requests ∧
        Wasm.DecodeTo Ffi.standardBase64 evaluatedsB64 evaluated ∧
        Ffi.standardBase64.decode (utf8Bytes proofB64) = .ok proof ∧
        Protocol.ForgedAnswer referenceSuite requests evaluated proof (5 + referenceSuite.tweak [1])) ∧
      List.Forall₂ (fun val token => ∃ (input : Bytes) (tokenB64 : String),
        Wasm.referenceHost.newUint8Array val = .ok input ∧ token = .string tokenB64 ∧
        Redemption referenceSuite Replay Ffi.standardBase64 ⟨true, true⟩ ⟨5⟩ input [1]
          (.points (utf8Bytes tokenB64)) (.int 1)) Wasm.referenceInputs outs := by
  obtain ⟨publicKeyB64, out, evaluatedsB64, proofB64, outs, hpk, hblind, hfinalize, outputs, houtputs, rfl⟩ :=
    Wasm.exists_referenceSession
  refine ⟨_, _, _, _, _, hfinalize, redeem_agrees Ffi.standardBase64_lawful hpk hblind hfinalize, ?_⟩
  obtain ⟨trace, p, sk, -, hsk⟩ := Ffi.exists_referenceServer
  unfold encodeOutputs
  rw [List.forall₂_map_right_iff]
  refine houtputs.imp fun val output h => ?_
  obtain ⟨input, hval, houtput⟩ := h
  exact ⟨input, _, hval, rfl, exists_redemption Ffi.standardBase64_lawful hsk houtput⟩

end Redemption

end PoprfRistretto.Deployment
