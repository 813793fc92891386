import PoprfRistretto.Poprf.Exchange

/-!
# The parties of the protocol

What a client and a server do with each other's messages, as compositions of the calls of the crate:
a client blinds an input, stores the state and sends the message, a server answers a list of messages,
and a client finalizes stored states with an answer. States and messages are byte strings, and a party
parses whatever it is given.
-/

namespace PoprfRistretto.Protocol

open ExceptLoop

variable {G : Type} [AddCommGroup G] [Module Scalar G] [DecidableEq G]

/-- A token that a client asked for: what it blinded, the state that it stores and the message that it
sends. -/
structure Request (G : Type) where
  client : PoprfClient G
  input : Bytes
  info : Bytes
  state : BytesN PoprfBlindState.LEN
  message : BytesN BlindedElement.LEN

/-- The elements and the proof that a server sends back. -/
structure Answer where
  evaluated : List (BytesN EvaluatedElement.LEN)
  proof : BytesN Proof.LEN

variable (S : Suite G)

/-- Blind an input, store the state and send the message. -/
def blind (client : PoprfClient G) (input info : Bytes) (blind : Scalarˣ) :
    Except Error (Request G) := do
  let (state, blinded) ← client.blindWithScalar S input info (S.serializeScalarArray blind)
  return { client, input, info, state := state.toBytes S, message := blinded.toBytes S }

/-- Answer a list of messages. -/
def serve (F : Features) (server : PoprfServer) (messages : List Bytes) (info : Bytes)
    (nonce : Scalar) : Except Error Answer := do
  let blinded ← messages.mapM (BlindedElement.fromBytes S)
  let (evaluated, proof) ←
    server.blindEvaluateBatchWithProofScalar S F blinded info (S.serializeScalarArray nonce)
  return { evaluated := evaluated.map (·.toBytes S), proof := proof.toBytes S }

/-- Finalize stored states with an answer. -/
def finalize (F : Features) (client : PoprfClient G) (info : Bytes) (requests : List (Request G))
    (evaluated : List Bytes) (proof : Bytes) : Except Error (List PoprfOutput) := do
  let states ← requests.mapM fun req => PoprfBlindState.fromBytes S req.state.toList
  let blinded ← requests.mapM fun req => BlindedElement.fromBytes S req.message.toList
  let evaluated ← evaluated.mapM (EvaluatedElement.fromBytes S)
  let proof ← Proof.fromBytes S proof
  client.finalizeBatch S F (requests.map (·.input)) states evaluated blinded proof info

/-! ## Requests -/

/-- The request was made with the blind `b`. -/
structure Request.MadeWith (req : Request G) (b : Scalarˣ) : Prop where
  admissible : S.Admissible req.client.pk req.input req.info
  state : req.state =
    (⟨b, S.tweakedKey req.client.pk req.info⟩ : PoprfBlindState G).toBytes S
  message : req.message = (⟨(b : Scalar) • S.inputElement req.input⟩ : BlindedElement G).toBytes S

/-- A client makes a request exactly for the admissible inputs. -/
theorem blind_eq_ok_iff {client : PoprfClient G} {input info : Bytes} {b : Scalarˣ}
    {req : Request G} :
    blind S client input info b = .ok req ↔
      req.client = client ∧ req.input = input ∧ req.info = info ∧ req.MadeWith S b := by
  unfold blind
  rw [client.blindWithScalar_eq, bind_eq_ok_iff]
  constructor
  · rintro ⟨⟨state, blinded⟩, htoken, hreq⟩
    obtain ⟨hadm, heq⟩ := (client.blindWithInner_eq_ok_iff S).mp htoken
    obtain ⟨rfl, rfl⟩ := Prod.mk.inj heq
    obtain rfl := Except.ok.inj hreq
    exact ⟨rfl, rfl, rfl, hadm, rfl, rfl⟩
  · rintro ⟨rfl, rfl, rfl, hadm, hstate, hmessage⟩
    refine ⟨_, req.client.blindWithInner_of_admissible S hadm b, ?_⟩
    show Except.ok _ = _
    rw [← hstate, ← hmessage]

namespace Request.MadeWith

variable {S} {req : Request G} {b : Scalarˣ}

omit [DecidableEq G] in
/-- The blinded element of a request is not the identity. -/
theorem point_ne_zero (h : req.MadeWith S b) : (b : Scalar) • S.inputElement req.input ≠ 0 :=
  smul_ne_zero b.ne_zero h.admissible.inputElement_ne_zero

/-- The stored state is read back. -/
theorem fromBytes_state (h : req.MadeWith S b) :
    PoprfBlindState.fromBytes S req.state.toList =
      .ok ⟨b, S.tweakedKey req.client.pk req.info⟩ := by
  rw [h.state]
  exact PoprfBlindState.resend_eq S h.admissible.tweakedKey_ne_zero

/-- The message is read back. -/
theorem fromBytes_message (h : req.MadeWith S b) :
    BlindedElement.fromBytes S req.message.toList =
      .ok ⟨(b : Scalar) • S.inputElement req.input⟩ := by
  rw [h.message]
  exact BlindedElement.resend_eq S h.point_ne_zero

end Request.MadeWith

/-! ## Finalizing

What a client finds out about an answer to its own requests depends only on the messages that it sent:
the states that it stored all carry the tweaked key of the client's public key and the `info`.
-/

/-- The requests were made by the client for the `info`, each with its blind. -/
abbrev Made (client : PoprfClient G) (info : Bytes) (requests : List (Request G))
    (blinds : List Scalarˣ) : Prop :=
  List.Forall₂ (fun req b => req.client = client ∧ req.info = info ∧ req.MadeWith S b) requests blinds

/-- The elements that the requests sent. -/
def points (requests : List (Request G)) (blinds : List Scalarˣ) : List G :=
  List.zipWith (fun req (b : Scalarˣ) => (b : Scalar) • S.inputElement req.input) requests blinds

/-- The outputs that the blinds make of evaluated elements. -/
def outputs (client : PoprfClient G) (info : Bytes) (requests : List (Request G))
    (blinds : List Scalarˣ) (evaluated : List (EvaluatedElement G)) : List PoprfOutput :=
  client.batchOutputs S (requests.map (·.input))
    (blinds.map fun b : Scalarˣ => ⟨b, S.tweakedKey client.pk info⟩) evaluated info

section Made

variable {S} {client : PoprfClient G} {info : Bytes} {requests : List (Request G)}
  {blinds : List Scalarˣ}

/-- The stored states are read back. -/
theorem Made.mapM_state (h : Made S client info requests blinds) :
    requests.mapM (fun req => PoprfBlindState.fromBytes S req.state.toList) =
      .ok (blinds.map fun b : Scalarˣ => ⟨b, S.tweakedKey client.pk info⟩) := by
  rw [mapM_eq_ok_iff, List.forall₂_map_right_iff]
  refine h.imp fun req b hreq => ?_
  obtain ⟨rfl, rfl, hmade⟩ := hreq
  exact hmade.fromBytes_state

/-- The messages are read back. -/
theorem Made.mapM_message (h : Made S client info requests blinds) :
    requests.mapM (fun req => BlindedElement.fromBytes S req.message.toList) =
      .ok ((points S requests blinds).map BlindedElement.mk) := by
  rw [mapM_eq_ok_iff]
  induction h with
  | nil => exact .nil
  | cons hreq _ ih => exact .cons hreq.2.2.fromBytes_message ih

omit [DecidableEq G] in
/-- The inputs of requests are within the cap. -/
theorem Made.input_le (h : Made S client info requests blinds) :
    ∀ input ∈ requests.map (·.input), input.length ≤ MAX_LP_LEN := by
  induction h with
  | nil => simp
  | cons hreq _ ih =>
    exact List.forall_mem_cons.mpr ⟨hreq.2.2.admissible.input_le, ih⟩

omit [DecidableEq G] in
/-- The `info` of at least one request is within the cap. -/
theorem Made.info_le (h : Made S client info requests blinds) (hne : requests ≠ []) :
    info.length ≤ MAX_LP_LEN := by
  cases h with
  | nil => exact absurd rfl hne
  | cons hreq _ =>
    obtain ⟨-, rfl, hmade⟩ := hreq
    exact hmade.admissible.info_le

omit [DecidableEq G] in
/-- One element is sent for each request. -/
theorem Made.length_points (h : Made S client info requests blinds) :
    (points S requests blinds).length = requests.length := by
  rw [points, List.length_zipWith, ← h.length_eq, min_self]

omit [DecidableEq G] in
/-- No element that is sent is the identity. -/
theorem Made.points_ne_zero (h : Made S client info requests blinds) :
    ∀ P ∈ points S requests blinds, P ≠ 0 := by
  induction h with
  | nil => exact fun _ h => absurd h List.not_mem_nil
  | cons hreq _ ih => exact List.forall_mem_cons.mpr ⟨hreq.2.2.point_ne_zero, ih⟩

omit [DecidableEq G] in
/-- The evaluation scalar of at least one request is invertible. -/
theorem Made.scalar_ne_zero (h : Made S client info requests blinds) {sk : Scalar}
    (hkey : sk • S.basepoint = client.pk) (hne : requests ≠ []) : sk + S.tweak info ≠ 0 := by
  cases h with
  | nil => exact absurd rfl hne
  | cons hreq _ =>
    obtain ⟨rfl, rfl, hmade⟩ := hreq
    have hadm := hmade.admissible
    rw [← hkey] at hadm
    exact hadm.scalar_ne_zero

omit [DecidableEq G] in
/-- Requests of one client and one `info` pass the checks of a batch. -/
theorem Made.checked (h : Made S client info requests blinds) (hne : requests ≠ [])
    {evaluated : List (EvaluatedElement G)} (hlen : requests.length = evaluated.length) :
    PoprfClient.BatchChecked (requests.map (·.input))
      (blinds.map fun b : Scalarˣ => ⟨b, S.tweakedKey client.pk info⟩) evaluated
      ((points S requests blinds).map BlindedElement.mk) info (S.tweakedKey client.pk info) where
  inputs_ne_nil := by simpa using hne
  length_states := by simpa using h.length_eq
  length_evaluated := by simpa using hlen
  length_blinded := by simpa using h.length_points.symm
  info_le := h.info_le hne
  inputs_le := h.input_le
  states_key := by simp

/-- Finalizing parses the answer, compares the lengths and verifies the proof for the elements that
were sent, under the key of the client and the `info`. -/
theorem finalize_eq (F : Features) (h : Made S client info requests blinds) (evaluated : List Bytes)
    (proof : Bytes) :
    finalize S F client info requests evaluated proof = do
      let evaluated ← evaluated.mapM (EvaluatedElement.fromBytes S)
      let proof ← Proof.fromBytes S proof
      if requests = [] ∨ requests.length ≠ evaluated.length then .error .lengthMismatch
      else do
        S.verifyProof F S.basepoint (S.tweakedKey client.pk info) (evaluated.map (·.point))
          (points S requests blinds) proof
        return outputs S client info requests blinds evaluated := by
  unfold finalize
  rw [h.mapM_state, ok_bind, h.mapM_message, ok_bind]
  refine bind_congr fun evaluated => bind_congr fun proof => ?_
  by_cases hnil : requests = []
  · subst hnil
    rw [if_pos (.inl rfl)]
    rfl
  by_cases hlen : requests.length = evaluated.length
  · have hblinds := h.length_eq
    rw [if_neg (by tauto), client.finalizeBatch_eq_of_checked S F (h.checked hnil hlen), List.map_map]
    exact congrArg (fun points => S.verifyProof F _ _ _ points _ >>= _) (List.map_id _)
  · rw [if_pos (.inr hlen)]
    unfold PoprfClient.finalizeBatch
    rw [if_pos (by simp [hlen])]

end Made

end PoprfRistretto.Protocol
