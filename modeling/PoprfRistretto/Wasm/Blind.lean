import PoprfRistretto.Wasm.Finalize
import PoprfRistretto.Protocol.World

/-!
# JavaScript clients in the protocol

`blindBatch` makes one request of the protocol for each input, with blinds that it draws one after the
other, and returns what the requests store and send. `finalizeBatch` on these strings finalizes the
requests, so that what holds of the parties of the protocol holds of JavaScript clients: what they
accept from a server is what the server evaluates, whatever strings the server returns.
-/

namespace PoprfRistretto.Wasm

open Utf8 ExceptLoop
open Ffi (Base64)
open Protocol (Request Made)

variable {G : Type} [AddCommGroup G] [Module Scalar G] [DecidableEq G]

/-- The blinds are drawn one after the other. -/
inductive Draws {R : Type} [Rng R] (fuel : ℕ) : R → List Scalarˣ → R → Prop
  | nil {rng : R} : Draws fuel rng [] rng
  | cons {rng rng₁ rng₂ : R} {b : Scalarˣ} {blinds : List Scalarˣ}
      (h : randomScalar fuel rng = some ((b : Scalar), rng₁)) (rest : Draws fuel rng₁ blinds rng₂) :
      Draws fuel rng (b :: blinds) rng₂

variable (S : Suite G) (host : Host) (base64 : Base64)

omit [AddCommGroup G] [Module Scalar G] [DecidableEq G] in
/-- The strings that requests store. -/
def stateStrings (requests : List (Request G)) : JsArray :=
  requests.map fun req => .string (base64.encode req.state.toList)

omit [AddCommGroup G] [Module Scalar G] [DecidableEq G] in
/-- The strings that requests send. -/
def messageStrings (requests : List (Request G)) : JsArray :=
  requests.map fun req => .string (base64.encode req.message.toList)

/-- The requests were made for the JavaScript values `inputs`, with the blinds drawn from `rng` on. -/
structure Requests {R : Type} [Rng R] (fuel : ℕ) (client : PoprfClient G) (info : Bytes)
    (inputs : JsArray) (rng : R) (requests : List (Request G)) (blinds : List Scalarˣ) (rng' : R) :
    Prop where
  converted : List.Forall₂ (fun val req => host.newUint8Array val = .ok (Request.input req)) inputs
    requests
  made : Made S client info requests blinds
  drawn : Draws fuel rng blinds rng'

/-- The request that a token is stored and sent as. -/
def requestOf (client : PoprfClient G) (input info : Bytes)
    (token : PoprfBlindState G × BlindedElement G) : Request G :=
  ⟨client, input, info, token.1.toBytes S, token.2.toBytes S⟩

omit [DecidableEq G] in
/-- No input makes no request. -/
theorem requests_nil_iff {R : Type} [Rng R] {fuel : ℕ} {client : PoprfClient G} {info : Bytes}
    {rng rng' : R} {requests : List (Request G)} {blinds : List Scalarˣ} :
    Requests S host fuel client info [] rng requests blinds rng' ↔
      requests = [] ∧ blinds = [] ∧ rng' = rng := by
  constructor
  · rintro ⟨hconverted, hmade, hdrawn⟩
    cases hconverted
    cases hmade
    cases hdrawn
    exact ⟨rfl, rfl, rfl⟩
  · rintro ⟨rfl, rfl, rfl⟩
    exact ⟨.nil, .nil, .nil⟩

/-- The first request of a list, apart from the others. -/
theorem requests_cons_iff {R : Type} [Rng R] {fuel : ℕ} {client : PoprfClient G} {info : Bytes}
    {val : JsValue} {inputs : JsArray} {rng rng' : R} {requests : List (Request G)}
    {blinds : List Scalarˣ} :
    Requests S host fuel client info (val :: inputs) rng requests blinds rng' ↔
      ∃ input token rest, ∃ (b : Scalarˣ) (bs : List Scalarˣ), ∃ rng₁,
        requests = requestOf S client input info token :: rest ∧ blinds = b :: bs ∧
        host.newUint8Array val = .ok input ∧ randomScalar fuel rng = some ((b : Scalar), rng₁) ∧
        client.blindWithInner S input info b = .ok token ∧
        Requests S host fuel client info inputs rng₁ rest bs rng' := by
  constructor
  · rintro ⟨hconverted, hmade, hdrawn⟩
    obtain ⟨req, rest, hreq, hrest, rfl⟩ := List.forall₂_cons_left_iff.mp hconverted
    obtain ⟨b, bs, ⟨rfl, rfl, hmadeReq⟩, hmadeRest, rfl⟩ := List.forall₂_cons_left_iff.mp hmade
    cases hdrawn with
    | cons hdraw hdrawn =>
    refine ⟨req.input, _, rest, b, bs, _, ?_, rfl, hreq, hdraw,
      req.client.blindWithInner_of_admissible S hmadeReq.admissible b, ⟨hrest, hmadeRest, hdrawn⟩⟩
    rw [requestOf, ← hmadeReq.state, ← hmadeReq.message]
  · rintro ⟨input, token, rest, b, bs, rng₁, rfl, rfl, hinput, hdraw, htoken, hrest⟩
    obtain ⟨hadm, rfl⟩ := (client.blindWithInner_eq_ok_iff S).mp htoken
    exact ⟨.cons hinput hrest.converted, .cons ⟨rfl, rfl, hadm, rfl, rfl⟩ hrest.made,
      .cons hdraw hrest.drawn⟩

/-- The loop succeeds when it can make a request for each input, and appends their strings. -/
theorem blindLoop_eq_some_ok_iff {R : Type} [Rng R] {fuel : ℕ} {client : PoprfClient G} {info : Bytes}
    {inputs : JsArray} {out out' : BlindBatch} {rng rng' : R} :
    blindLoop S host base64 fuel client info inputs out rng = some (.ok out', rng') ↔
      ∃ requests blinds, Requests S host fuel client info inputs rng requests blinds rng' ∧
        out' = ⟨out.states ++ stateStrings base64 requests,
          out.blindedMessages ++ messageStrings base64 requests⟩ := by
  induction inputs generalizing out rng with
  | nil =>
    simp only [blindLoop, Option.some.injEq, Prod.mk.injEq, Except.ok.injEq]
    constructor
    · rintro ⟨rfl, rfl⟩
      exact ⟨[], [], ⟨.nil, .nil, .nil⟩, by simp [stateStrings, messageStrings]⟩
    · rintro ⟨requests, blinds, hrequests, rfl⟩
      obtain ⟨rfl, rfl, rfl⟩ := (requests_nil_iff S host).mp hrequests
      simp [stateStrings, messageStrings]
  | cons val inputs ih =>
    rw [blindLoop]
    constructor
    · intro h
      cases hval : uint8arrayToVec host val with
      | error e =>
        rw [hval] at h
        cases h
      | ok input =>
        rw [hval] at h
        obtain ⟨⟨res, rng₁⟩, hblind, h⟩ := Option.bind_eq_some_iff.mp h
        obtain ⟨b, hdraw, rfl⟩ := (client.blind_eq_some_iff S).mp hblind
        cases htoken : client.blindWithInner S input info b with
        | error e =>
          rw [htoken] at h
          cases h
        | ok token =>
          rw [htoken] at h
          -- the strings of this token are pushed before those of the rest
          obtain ⟨rest, bs, hrest, rfl⟩ := ih.mp h
          refine ⟨_, _, (requests_cons_iff S host).mpr ⟨input, token, rest,
            Units.mk0 b (randomScalar_ne_zero hdraw), bs, rng₁, rfl, rfl, hval, hdraw, htoken, hrest⟩,
            ?_⟩
          simp only [stateStrings, messageStrings, List.map_cons, List.append_assoc,
            List.singleton_append]
          rfl
    · rintro ⟨requests, blinds, hrequests, rfl⟩
      obtain ⟨input, token, rest, b, bs, rng₁, rfl, rfl, hinput, hdraw, htoken, hrest⟩ :=
        (requests_cons_iff S host).mp hrequests
      rw [uint8arrayToVec, hinput]
      refine Option.bind_eq_some_iff.mpr
        ⟨_, (client.blind_eq_some_iff S).mpr ⟨b, hdraw, rfl⟩, ?_⟩
      rw [htoken]
      refine ih.mpr ⟨rest, bs, hrest, ?_⟩
      simp only [stateStrings, messageStrings, List.map_cons, List.append_assoc,
        List.singleton_append]
      rfl

/-- An input stops the loop: it does not convert, or a blind is drawn and the core refuses it. -/
inductive Stops {R : Type} [Rng R] (fuel : ℕ) (client : PoprfClient G) (info : Bytes) (val : JsValue)
    (thrown : JsValue) : R → R → Prop
  | convert {rng : R} (h : host.newUint8Array val = .error thrown) :
      Stops fuel client info val thrown rng rng
  | blind {rng rng' : R} {input : Bytes} {b : Scalar} {e : Error}
      (hinput : host.newUint8Array val = .ok input) (hdraw : randomScalar fuel rng = some (b, rng'))
      (h : client.blindWithInner S input info b = .error e)
      (hthrown : thrown = .string ("blind: " ++ e.display)) :
      Stops fuel client info val thrown rng rng'

/-- The loop fails at the first input that stops it, after it has made the requests before. -/
theorem blindLoop_eq_some_error_iff {R : Type} [Rng R] {fuel : ℕ} {client : PoprfClient G}
    {info : Bytes} {inputs : JsArray} {out : BlindBatch} {thrown : JsValue} {rng rng' : R} :
    blindLoop S host base64 fuel client info inputs out rng = some (.error thrown, rng') ↔
      ∃ done val rest requests blinds rng₁, inputs = done ++ val :: rest ∧
        Requests S host fuel client info done rng requests blinds rng₁ ∧
        Stops S host fuel client info val thrown rng₁ rng' := by
  induction inputs generalizing out rng with
  | nil =>
    refine ⟨fun h => ?_, ?_⟩
    · cases h
    · rintro ⟨done, val, rest, -, -, -, hnil, -⟩
      exact absurd hnil.symm (List.append_ne_nil_of_right_ne_nil _ (List.cons_ne_nil _ _))
  | cons val inputs ih =>
    rw [blindLoop]
    constructor
    · intro h
      cases hval : uint8arrayToVec host val with
      | error e =>
        rw [hval] at h
        cases h
        -- the first input cannot be converted: nothing was drawn for it
        exact ⟨[], val, inputs, [], [], _, rfl, ⟨.nil, .nil, .nil⟩, .convert hval⟩
      | ok input =>
        rw [hval] at h
        obtain ⟨⟨res, rng₁⟩, hblind, h⟩ := Option.bind_eq_some_iff.mp h
        obtain ⟨b, hdraw, rfl⟩ := (client.blind_eq_some_iff S).mp hblind
        cases htoken : client.blindWithInner S input info b with
        | error e =>
          rw [htoken] at h
          cases h
          -- the blind was drawn before the request was refused
          exact ⟨[], val, inputs, [], [], rng, rfl, ⟨.nil, .nil, .nil⟩,
            .blind hval hdraw htoken rfl⟩
        | ok token =>
          rw [htoken] at h
          -- a token was made, and the loop stops later
          obtain ⟨done, val', rest, requests, bs, rng₂, rfl, hdone, hstops⟩ := ih.mp h
          exact ⟨val :: done, val', rest, _, _, rng₂, rfl, (requests_cons_iff S host).mpr
            ⟨input, token, requests, Units.mk0 b (randomScalar_ne_zero hdraw), bs, rng₁, rfl, rfl, hval,
              hdraw, htoken, hdone⟩, hstops⟩
    · rintro ⟨done, val', rest, requests, blinds, rng₁, hsplit, hdone, hstops⟩
      cases done with
      | nil =>
        obtain ⟨rfl, rfl⟩ := List.cons.inj hsplit
        obtain ⟨rfl, rfl, rfl⟩ := (requests_nil_iff S host).mp hdone
        -- nothing was done before: the loop stops at the first input
        cases hstops with
        | convert h =>
          rw [uint8arrayToVec, h]
        | @blind _ input b e hinput hdraw h hthrown =>
          rw [uint8arrayToVec, hinput]
          refine Option.bind_eq_some_iff.mpr
            ⟨_, (client.blind_eq_some_iff S).mpr ⟨b, hdraw, rfl⟩, ?_⟩
          rw [h, hthrown]
          rfl
      | cons val done =>
        obtain ⟨rfl, rfl⟩ := List.cons.inj hsplit
        obtain ⟨input, token, requests, b, bs, rng₁, rfl, rfl, hinput, hdraw, htoken, hrest⟩ :=
          (requests_cons_iff S host).mp hdone
        rw [uint8arrayToVec, hinput]
        refine Option.bind_eq_some_iff.mpr
          ⟨_, (client.blind_eq_some_iff S).mpr ⟨b, hdraw, rfl⟩, ?_⟩
        rw [htoken]
        exact ih.mpr ⟨done, val', rest, requests, bs, _, rfl, hrest, hstops⟩

/-- `blindBatch` succeeds when the key decodes and it can make a request for each input. -/
theorem blindBatch_eq_some_ok_iff {R : Type} [Rng R] {fuel : ℕ} {publicKeyB64 : String}
    {inputs : JsArray} {info : Bytes} {out : BlindBatch} {rng rng' : R} :
    blindBatch S host base64 fuel publicKeyB64 inputs info rng = some (.ok out, rng') ↔
      ∃ pk requests blinds, Decodes base64 (PublicKey.fromBytes S) publicKeyB64 pk ∧
        Requests S host fuel (.new pk) info inputs rng requests blinds rng' ∧
        out = ⟨stateStrings base64 requests, messageStrings base64 requests⟩ := by
  unfold blindBatch
  constructor
  · intro h
    cases hpk : decodeString base64 "public_key" "PublicKey" (PublicKey.fromBytes S)
        publicKeyB64 with
    | error e =>
      rw [hpk] at h
      cases h
    | ok pk =>
      rw [hpk] at h
      obtain ⟨requests, blinds, hrequests, hout⟩ := (blindLoop_eq_some_ok_iff S host base64).mp h
      exact ⟨pk, requests, blinds, decodeString_eq_ok_iff.mp hpk, hrequests, hout⟩
  · rintro ⟨pk, requests, blinds, hpk, hrequests, hout⟩
    rw [decodeString_eq_ok_iff.mpr hpk]
    exact (blindLoop_eq_some_ok_iff S host base64).mpr ⟨requests, blinds, hrequests, hout⟩

/-- `blindBatch` fails when the key does not decode, before it draws a blind, or at the first input that
stops it. -/
theorem blindBatch_eq_some_error_iff {R : Type} [Rng R] {fuel : ℕ} {publicKeyB64 : String}
    {inputs : JsArray} {info : Bytes} {thrown : JsValue} {rng rng' : R} :
    blindBatch S host base64 fuel publicKeyB64 inputs info rng = some (.error thrown, rng') ↔
      (decodeString base64 "public_key" "PublicKey" (PublicKey.fromBytes S) publicKeyB64 =
          .error thrown ∧ rng' = rng) ∨
      ∃ pk done val rest requests blinds rng₁,
        Decodes base64 (PublicKey.fromBytes S) publicKeyB64 pk ∧ inputs = done ++ val :: rest ∧
        Requests S host fuel (.new pk) info done rng requests blinds rng₁ ∧
        Stops S host fuel (.new pk) info val thrown rng₁ rng' := by
  unfold blindBatch
  cases hpk : decodeString base64 "public_key" "PublicKey" (PublicKey.fromBytes S) publicKeyB64 with
  | error e =>
    constructor
    · intro h
      cases h
      exact .inl ⟨rfl, rfl⟩
    · rintro (⟨h, rfl⟩ | ⟨pk, -, -, -, -, -, -, hdecodes, -⟩)
      · obtain rfl := Except.error.inj h
        rfl
      · rw [decodeString_eq_ok_iff.mpr hdecodes] at hpk
        cases hpk
  | ok pk =>
    have hdecodes := decodeString_eq_ok_iff.mp hpk
    constructor
    · intro h
      obtain ⟨done, val, rest, requests, blinds, rng₁, h⟩ :=
        (blindLoop_eq_some_error_iff S host base64).mp h
      exact .inr ⟨pk, done, val, rest, requests, blinds, rng₁, hdecodes, h⟩
    · rintro (⟨h, -⟩ | ⟨pk', done, val, rest, requests, blinds, rng₁, hdecodes', h⟩)
      · cases h
      · obtain rfl := hdecodes.unique hdecodes'
        exact (blindLoop_eq_some_error_iff S host base64).mpr
          ⟨done, val, rest, requests, blinds, rng₁, h⟩

/-- `blindBatch` makes a request of the protocol for each input in order, with blinds that it draws one
after the other, and returns their strings. It throws what the key throws, before it draws a blind, or
what the first input does that stops it, after the draws for the inputs before; then it returns no
string. -/
theorem blindBatch_refines {R : Type} [Rng R] (fuel : ℕ) (publicKeyB64 : String) (inputs : JsArray)
    (info : Bytes) (rng rng' : R) :
    let result := blindBatch S host base64 fuel publicKeyB64 inputs info rng
    (∀ out, result = some (.ok out, rng') ↔ ∃ pk requests blinds,
      Decodes base64 (PublicKey.fromBytes S) publicKeyB64 pk ∧
      Requests S host fuel (.new pk) info inputs rng requests blinds rng' ∧
      out = ⟨stateStrings base64 requests, messageStrings base64 requests⟩) ∧
    (∀ thrown, result = some (.error thrown, rng') ↔
      (decodeString base64 "public_key" "PublicKey" (PublicKey.fromBytes S) publicKeyB64 =
          .error thrown ∧ rng' = rng) ∨
      ∃ pk done val rest requests blinds rng₁,
        Decodes base64 (PublicKey.fromBytes S) publicKeyB64 pk ∧ inputs = done ++ val :: rest ∧
        Requests S host fuel (.new pk) info done rng requests blinds rng₁ ∧
        Stops S host fuel (.new pk) info val thrown rng₁ rng') := by
  intro result
  exact ⟨fun out => blindBatch_eq_some_ok_iff S host base64,
    fun thrown => blindBatch_eq_some_error_iff S host base64⟩

/-! ## Finalizing requests -/

section Strings

variable {base64} {α : Type} {fromBytes : Bytes → Except Error α}

/-- An encoded value is what its bytes parse to. -/
theorem holds_encode_iff (h : base64.Lawful) {bytes : Bytes} {v : α} :
    Holds base64 fromBytes (.string (base64.encode bytes)) v ↔ fromBytes bytes = .ok v := by
  unfold Holds Decodes
  constructor
  · rintro ⟨s, hs, bytes', hdecode, hparse⟩
    obtain rfl := JsValue.string.inj hs
    obtain rfl := Except.ok.inj ((h.decode_encode bytes).symm.trans hdecode)
    exact hparse
  · intro hparse
    exact ⟨_, rfl, bytes, h.decode_encode bytes, hparse⟩

/-- The encodings of byte strings are what the byte strings parse to. -/
theorem forall₂_holds_encode_iff (h : base64.Lawful) {ι : Type} (bytes : ι → Bytes) {l : List ι}
    {vs : List α} :
    List.Forall₂ (Holds base64 fromBytes) (l.map fun i => .string (base64.encode (bytes i))) vs ↔
      l.mapM (fun i => fromBytes (bytes i)) = .ok vs := by
  rw [mapM_eq_ok_iff, List.forall₂_map_left_iff]
  simp only [holds_encode_iff h]

/-- The strings decode to byte strings. -/
def DecodeTo (base64 : Base64) (vals : JsArray) (strings : List Bytes) : Prop :=
  List.Forall₂ (fun val bytes => ∃ s, val = .string s ∧ base64.decode (utf8Bytes s) = .ok bytes) vals
    strings

/-- Strings that are encodings of values decode to byte strings that parse to them. -/
theorem forall₂_holds_iff {vals : JsArray} {vs : List α} :
    List.Forall₂ (Holds base64 fromBytes) vals vs ↔
      ∃ strings, DecodeTo base64 vals strings ∧ strings.mapM fromBytes = .ok vs := by
  have hsame : Holds base64 fromBytes = fun val v => ∃ bytes,
      (∃ s, val = .string s ∧ base64.decode (utf8Bytes s) = .ok bytes) ∧ fromBytes bytes = .ok v := by
    funext val v
    refine propext ⟨?_, ?_⟩
    · rintro ⟨s, hs, bytes, hdecode, hparse⟩
      exact ⟨bytes, ⟨s, hs, hdecode⟩, hparse⟩
    · rintro ⟨bytes, ⟨s, hs, hdecode⟩, hparse⟩
      exact ⟨s, hs, bytes, hdecode, hparse⟩
  rw [hsame, forall₂_exists_iff]
  exact exists_congr fun strings => and_congr_right fun _ => mapM_eq_ok_iff.symm

end Strings

/-- Three lists of one length are the components of one list. -/
theorem exists_zip_zip {α β γ : Type} {as : List α} {bs : List β} {cs : List γ}
    (hab : as.length = bs.length) (hbc : bs.length = cs.length) :
    ∃ l : List (α × β × γ), l.map (·.1) = as ∧ l.map (·.2.1) = bs ∧ l.map (·.2.2) = cs := by
  have hlen : as.length = (bs.zip cs).length := by
    rw [List.length_zip, hbc, min_self, hab, hbc]
  refine ⟨as.zip (bs.zip cs), List.map_fst_zip hlen.le, ?_, ?_⟩
  · have hsnd := congrArg (List.map Prod.fst) (List.map_snd_zip hlen.ge)
    rwa [List.map_map, List.map_fst_zip hbc.le] at hsnd
  · have hsnd := congrArg (List.map Prod.snd) (List.map_snd_zip hlen.ge)
    rwa [List.map_map, List.map_snd_zip hbc.ge] at hsnd

variable {S host base64}

omit [DecidableEq G] in
/-- The inputs convert to those of the requests only. -/
theorem Requests.eq_inputs {R : Type} [Rng R] {fuel : ℕ} {client : PoprfClient G} {info : Bytes}
    {inputs : JsArray} {rng rng' : R} {requests : List (Request G)} {blinds : List Scalarˣ}
    (h : Requests S host fuel client info inputs rng requests blinds rng') {inputVecs : List Bytes}
    (hinputs : List.Forall₂ (fun val input => host.newUint8Array val = .ok input) inputs inputVecs) :
    inputVecs = requests.map (·.input) := by
  have hconverted : inputs.mapM host.newUint8Array = .ok (requests.map (·.input)) :=
    mapM_eq_ok_iff.mpr (List.forall₂_map_right_iff.mpr h.converted)
  exact Except.ok.inj ((mapM_eq_ok_iff.mpr hinputs).symm.trans hconverted)

/-- On the strings of requests, `finalizeBatch` finalizes the requests with what the other strings
decode to. -/
theorem finalizeBatch_requests_eq_ok_iff (hbase64 : base64.Lawful) {F : Features}
    {publicKeyB64 : String} {pk : PublicKey G}
    (hpk : Decodes base64 (PublicKey.fromBytes S) publicKeyB64 pk) {R : Type} [Rng R] {fuel : ℕ}
    {inputs : JsArray} {info : Bytes} {rng rng' : R} {requests : List (Request G)}
    {blinds : List Scalarˣ}
    (hrequests : Requests S host fuel (.new pk) info inputs rng requests blinds rng')
    {evaluatedsB64 : JsArray} {proofB64 : String} {outs : JsArray} :
    finalizeBatch S host base64 F publicKeyB64 inputs (stateStrings base64 requests)
        (messageStrings base64 requests) evaluatedsB64 proofB64 info = .ok outs ↔
      ∃ evaluated proof outputs, DecodeTo base64 evaluatedsB64 evaluated ∧
        base64.decode (utf8Bytes proofB64) = .ok proof ∧
        Protocol.finalize S F (.new pk) info requests evaluated proof = .ok outputs ∧
        outs = encodeOutputs base64 outputs := by
  rw [finalizeBatch_eq_ok_iff]
  constructor
  · rintro ⟨pk', inputVecs, tokens, proof, outputs, hargs, hcore, houts⟩
    obtain ⟨hpk', hinputs, -, hstates, hblindeds, hevaluateds, proofBytes, hproof, hparse⟩ := hargs
    obtain rfl := hpk'.unique hpk
    obtain rfl := hrequests.eq_inputs hinputs
    obtain ⟨evaluated, hevaluated, hparsed⟩ := forall₂_holds_iff.mp hevaluateds
    refine ⟨evaluated, proofBytes, outputs, hevaluated, hproof, ?_, houts⟩
    unfold Protocol.finalize
    rw [(forall₂_holds_encode_iff hbase64 _).mp hstates, ok_bind,
      (forall₂_holds_encode_iff hbase64 _).mp hblindeds, ok_bind, hparsed, ok_bind, hparse, ok_bind]
    exact hcore
  · rintro ⟨evaluated, proof, outputs, hevaluated, hproof, hfinalize, houts⟩
    unfold Protocol.finalize at hfinalize
    obtain ⟨states, hstates, hfinalize⟩ := bind_eq_ok_iff.mp hfinalize
    obtain ⟨blindeds, hblindeds, hfinalize⟩ := bind_eq_ok_iff.mp hfinalize
    obtain ⟨evaluateds, hevaluateds, hfinalize⟩ := bind_eq_ok_iff.mp hfinalize
    obtain ⟨dleq, hdleq, hfinalize⟩ := bind_eq_ok_iff.mp hfinalize
    -- the core has compared the lengths
    obtain ⟨⟨key, hacc⟩, -⟩ := (PoprfClient.finalizeBatch_eq_ok_iff S F _).mp hfinalize
    have hlenStates := hacc.length_states.symm.trans hacc.length_blinded
    have hlenBlindeds := hacc.length_blinded.symm.trans hacc.length_evaluated
    have htokens : ∃ tokens : List (BatchToken G), tokens.map (·.1) = states ∧
        tokens.map (·.2.1) = blindeds ∧ tokens.map (·.2.2) = evaluateds :=
      exists_zip_zip hlenStates hlenBlindeds
    obtain ⟨tokens, rfl, rfl, rfl⟩ := htokens
    have hcore : finalizeTokens S F pk (requests.map fun req => req.input) tokens dleq info =
        .ok outputs := hfinalize
    refine ⟨pk, _, tokens, dleq, outputs, ⟨hpk, ?_, ?_, ?_, ?_, ?_, ?_⟩, hcore, houts⟩
    · exact List.forall₂_map_right_iff.mpr hrequests.converted
    · have hlen := hacc.length_states
      rw [List.length_map, List.length_map] at hlen
      rw [hrequests.converted.length_eq, hlen]
    · exact (forall₂_holds_encode_iff hbase64 _).mpr hstates
    · exact (forall₂_holds_encode_iff hbase64 _).mpr hblindeds
    · exact forall₂_holds_iff.mpr ⟨evaluated, hevaluated, hevaluateds⟩
    · exact ⟨proof, hproof, hdleq⟩

end PoprfRistretto.Wasm
