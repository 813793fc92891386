import PoprfRistretto.Poprf.Batching
import PoprfRistretto.Poprf.Evaluation
import PoprfRistretto.Poprf.KeyBinding
import PoprfRistretto.Protocol.World

/-!
# Tokens that are finalized for something else

`finalize_batch` reads the inputs and the `info` that it hashes from its arguments, the key under which
it verifies from the states, and what it unblinds from the states and the answer. Nothing in the call
relates these to each other. Here the states are any that `blind` or `from_bytes` returns, for whatever
client, input and `info`, and the blinded elements are any elements.

* `finalizeBatch_serves` — unless the proof is forged, the outputs are the evaluations of a server exactly
  when the tokens serve the inputs.
* `finalize_binds_iff` — the exact arguments for which no answer makes a call succeed with anything but the
  server's evaluations.
-/

namespace PoprfRistretto

open Blinding ExceptLoop

variable {G : Type} [AddCommGroup G] [Module Scalar G] [DecidableEq G] (S : Suite G) (F : Features)

/-! ## Tokens -/

/-- The state can be had from `from_bytes`. Every state that `blind` returns can. -/
def PoprfBlindState.Restorable (state : PoprfBlindState G) : Prop :=
  ∃ buf, PoprfBlindState.fromBytes S buf = .ok state

/-- The element behind a blinded element, when the state holds its blind. -/
def PoprfBlindState.unblind (state : PoprfBlindState G) (blinded : BlindedElement G) : G :=
  S.scalarInvert state.blind • blinded.point

/-- The server admits the request, and its evaluation scalar takes the element `P` to where `t` takes the
element of the input; otherwise what is hashed for `P` and what the server hashes collide. -/
structure Serves (server : PoprfServer) (t : Scalar) (P : G) (input info : Bytes) : Prop where
  admissible : S.Admissible (server.publicKey S).point input info
  element : (server.sk.scalar + S.tweak info) • P = t • S.inputElement input ∨
    (let preimage := finalizePreimage input info (S.serializeElement (t⁻¹ • P))
      let preimage' := S.evaluatePreimage server.sk input info
      preimage ≠ preimage' ∧ S.sha512 preimage = S.sha512 preimage')

variable {S}

/-- The states that can be had are those of a key other than the identity. -/
theorem PoprfBlindState.restorable_iff {state : PoprfBlindState G} :
    state.Restorable S ↔ state.tweakedKey ≠ 0 := by
  constructor
  · rintro ⟨buf, h⟩
    exact ((PoprfBlindState.fromBytes_eq_ok_iff S).mp h).2
  · intro h
    exact ⟨_, (PoprfBlindState.fromBytes_eq_ok_iff S).mpr ⟨rfl, h⟩⟩

/-- What `blind` returns can be restored. -/
theorem PoprfClient.Blinds.restorable {client : PoprfClient G} {input info : Bytes}
    {token : PoprfBlindState G × BlindedElement G} (h : client.Blinds S input info (.ok token)) :
    token.1.Restorable S := by
  obtain ⟨blind, -, hadm, rfl⟩ := h.spec
  exact PoprfBlindState.restorable_iff.mpr hadm.tweakedKey_ne_zero

/-- A token unblinds to the element of its input. -/
theorem PoprfClient.Blinds.unblind_eq {client : PoprfClient G} {input info : Bytes}
    {token : PoprfBlindState G × BlindedElement G} (h : client.Blinds S input info (.ok token)) :
    token.1.unblind S token.2 = S.inputElement input := by
  obtain ⟨blind, hblind, -, rfl⟩ := h.spec
  show S.scalarInvert blind • blind • S.inputElement input = _
  rw [S.scalarInvert_eq_inv hblind, inv_smul_smul₀ hblind]

/-- What is hashed for an element is the evaluation of a server exactly when the element serves. -/
theorem evaluate_eq_outputOf_iff {server : PoprfServer} {t : Scalar} (ht : t ≠ 0) {P : G}
    {input info : Bytes} :
    server.evaluate S input info = .ok (S.outputOf input info (t⁻¹ • P)) ↔
      Serves S server t P input info := by
  constructor
  · intro heval
    obtain ⟨hadm, -⟩ := (server.evaluate_eq_ok_iff S).mp heval
    have hbytes := PoprfServer.evaluate_eq_sha512 S heval
    rw [S.outputOf_eq] at hbytes
    refine ⟨hadm, ?_⟩
    -- equal outputs come from equal preimages, or from a collision
    by_cases hpre : finalizePreimage input info (S.serializeElement (t⁻¹ • P)) =
        S.evaluatePreimage server.sk input info
    · have hfits : ∀ Q : G, (S.serializeElement Q).length ≤ MAX_LP_LEN := fun Q => by
        rw [S.length_serializeElement]; decide
      obtain ⟨-, -, helem⟩ := finalizePreimage_inj hadm.input_le hadm.info_le (hfits _) hadm.input_le
        hadm.info_le (hfits _) hpre
      exact .inl ((inv_smul_eq_inv_smul_iff ht hadm.scalar_ne_zero).mp
        (S.serializeElement_injective helem)).symm
    · exact .inr ⟨hpre, hbytes⟩
  · rintro ⟨hadm, helem⟩
    refine (server.evaluate_eq_ok_iff S).mpr ⟨hadm, ?_⟩
    rcases helem with helem | ⟨-, hdigest⟩
    · rw [Suite.prf, (inv_smul_eq_inv_smul_iff ht hadm.scalar_ne_zero).mpr helem.symm]
    · rw [Suite.prf, S.outputOf_eq, S.outputOf_eq]
      exact congrArg PoprfOutput.mk hdigest

omit [DecidableEq G] in
/-- A token of the input serves a server whose evaluation scalar the state's key is made of. -/
theorem Serves.of_scalar {server : PoprfServer} {input info : Bytes}
    (hadm : S.Admissible (server.publicKey S).point input info) :
    Serves S server (server.sk.scalar + S.tweak info) (S.inputElement input) input info :=
  ⟨hadm, .inl rfl⟩

/-! ## Batches -/

variable (S)

/-- All states match, and each token serves its input under the tweaked key. -/
structure PoprfClient.BatchServes (client : PoprfClient G) (server : PoprfServer) (inputs : List Bytes)
    (states : List (PoprfBlindState G)) (blinded : List (BlindedElement G)) (info : Bytes) : Prop where
  states_match : ∀ state ∈ states, client.Matches S info state
  serves : ∀ t, S.tweakedKey client.pk info = t • S.basepoint →
    ∀ use ∈ inputs.zip (states.zip blinded),
      Serves S server t (use.2.1.unblind S use.2.2) use.1 info

omit [DecidableEq G] in
/-- The proof is forged under the key that the states carry. -/
def BatchForged (states : List (PoprfBlindState G)) (evaluated : List (EvaluatedElement G))
    (blinded : List (BlindedElement G)) (proof : Proof) : Prop :=
  ∃ t, (∀ state ∈ states, state.tweakedKey = t • S.basepoint) ∧
    Protocol.Forges S F t (evaluated.map (·.point)) (blinded.map (·.point)) proof

/-- `finalize` succeeds only for a state that matches, and with the evaluation of the server. -/
def PoprfClient.Binds (client : PoprfClient G) (server : PoprfServer) (input : Bytes)
    (state : PoprfBlindState G) (evaluated : EvaluatedElement G) (blinded : BlindedElement G)
    (proof : Proof) (info : Bytes) : Prop :=
  ∀ out, client.finalize S F input state evaluated blinded proof info = .ok out →
    client.Matches S info state ∧ server.evaluate S input info = .ok out

/-- `finalize_batch` succeeds only for states that match, and with the evaluations of the server. -/
def PoprfClient.BatchBinds (client : PoprfClient G) (server : PoprfServer) (inputs : List Bytes)
    (states : List (PoprfBlindState G)) (evaluated : List (EvaluatedElement G))
    (blinded : List (BlindedElement G)) (proof : Proof) (info : Bytes) : Prop :=
  ∀ outs, client.finalizeBatch S F inputs states evaluated blinded proof info = .ok outs →
    (∀ state ∈ states, client.Matches S info state) ∧
      List.Forall₂ (fun input out => server.evaluate S input info = .ok out) inputs outs

variable {S F}

/-- Where the blinded elements are the `t`-fold of the evaluated ones, the outputs are the evaluations of
a server exactly when the tokens serve. -/
theorem forall₂_batchOutputs_iff (client : PoprfClient G) {server : PoprfServer} {t : Scalar}
    (ht : t ≠ 0) {info : Bytes} {inputs : List Bytes} {states : List (PoprfBlindState G)}
    {evaluated : List (EvaluatedElement G)} {blinded : List (BlindedElement G)}
    (hstates : inputs.length = states.length) (hblinded : inputs.length = blinded.length)
    (htrue : blinded.map (·.point) = (evaluated.map (·.point)).map (t • ·)) :
    List.Forall₂ (fun input out => server.evaluate S input info = .ok out) inputs
        (client.batchOutputs S inputs states evaluated info) ↔
      ∀ use ∈ inputs.zip (states.zip blinded),
        Serves S server t (use.2.1.unblind S use.2.2) use.1 info := by
  induction inputs generalizing states evaluated blinded with
  | nil => exact iff_of_true .nil fun _ h => absurd h List.not_mem_nil
  | cons input inputs ih =>
    obtain ⟨state, states, rfl⟩ := List.exists_cons_of_length_eq_add_one hstates.symm
    obtain ⟨b, blinded, rfl⟩ := List.exists_cons_of_length_eq_add_one hblinded.symm
    cases evaluated with
    | nil => exact absurd htrue (List.cons_ne_nil _ _)
    | cons e evaluated =>
      obtain ⟨hhead, hrest⟩ := List.cons.inj htrue
      have hpoint : b.point = t • e.point := hhead
      -- the answer is the blinded element divided by `t`, and the state's blind divides once more
      have hunblind : S.scalarInvert state.blind • e.point = t⁻¹ • state.unblind S b := by
        rw [PoprfBlindState.unblind, hpoint, smul_comm t⁻¹ _ (t • e.point), inv_smul_smul₀ ht]
      have houtputs : client.batchOutputs S (input :: inputs) (state :: states) (e :: evaluated) info =
          S.outputOf input info (S.scalarInvert state.blind • e.point) ::
            client.batchOutputs S inputs states evaluated info := rfl
      rw [houtputs, hunblind, List.forall₂_cons, evaluate_eq_outputOf_iff ht,
        ih (Nat.succ.inj hstates) (Nat.succ.inj hblinded) hrest, List.zip_cons_cons,
        List.zip_cons_cons, List.forall_mem_cons]

omit [DecidableEq G] in
/-- A proof of a true list is not forged. -/
theorem not_forges_of_true {t : Scalar} {cList dList : List G} (htrue : dList = cList.map (t • ·))
    {proof : Proof} : ¬Protocol.Forges S F t cList dList proof := by
  rintro ⟨j, hc, hd, hwrong, -⟩
  subst htrue
  exact hwrong (List.getElem_map _)

omit [DecidableEq G] in
/-- A key is one multiple of the basepoint. -/
theorem scalar_unique {s t : Scalar} (h : s • S.basepoint = t • S.basepoint) : s = t :=
  smul_left_injective Scalar S.basepoint_ne_zero h

omit [AddCommGroup G] [Module Scalar G] [DecidableEq G] in
/-- An accepted batch has a state. -/
theorem exists_state_of_checked {inputs : List Bytes} {states : List (PoprfBlindState G)}
    {evaluated : List (EvaluatedElement G)} {blinded : List (BlindedElement G)} {info : Bytes} {key : G}
    (h : PoprfClient.BatchChecked inputs states evaluated blinded info key) : ∃ state, state ∈ states := by
  refine List.exists_mem_of_ne_nil states fun hnil => h.inputs_ne_nil ?_
  rw [← List.length_eq_zero_iff, h.length_states, hnil, List.length_nil]

/-- Whatever states, inputs, `info` and answer `finalize_batch` is called with, if it succeeds then its
states carry one key, and the outputs are the evaluations of a server exactly when the tokens serve under
that key, or the proof is forged. -/
theorem finalizeBatch_serves (client : PoprfClient G) {inputs : List Bytes}
    {states : List (PoprfBlindState G)} (hrestorable : ∀ state ∈ states, state.Restorable S)
    {evaluated : List (EvaluatedElement G)} {blinded : List (BlindedElement G)} {proof : Proof}
    {info : Bytes} {outs : List PoprfOutput}
    (h : client.finalizeBatch S F inputs states evaluated blinded proof info = .ok outs) :
    (∃ t, t ≠ 0 ∧ (∃ state, state ∈ states) ∧ (∀ state ∈ states, state.tweakedKey = t • S.basepoint) ∧
      ∀ server : PoprfServer,
        List.Forall₂ (fun input out => server.evaluate S input info = .ok out) inputs outs ↔
          ∀ use ∈ inputs.zip (states.zip blinded),
            Serves S server t (use.2.1.unblind S use.2.2) use.1 info) ∨
      BatchForged S F states evaluated blinded proof := by
  obtain ⟨⟨key, hacc⟩, rfl⟩ := (client.finalizeBatch_eq_ok_iff S F).mp h
  obtain ⟨t, rfl⟩ := S.basepoint_generates key
  obtain ⟨state₀, hmem₀⟩ := exists_state_of_checked hacc.toBatchChecked
  have hcount : (evaluated.map (·.point)).length = (blinded.map (·.point)).length := by
    rw [List.length_map, List.length_map, ← hacc.length_evaluated, hacc.length_blinded]
  rcases Protocol.eq_map_or_forges S hcount hacc.verified with htrue | hforged
  · have ht : t ≠ 0 := by
      rintro rfl
      refine PoprfBlindState.restorable_iff.mp (hrestorable state₀ hmem₀) ?_
      rw [hacc.states_key state₀ hmem₀, zero_smul]
    exact .inl ⟨t, ht, ⟨state₀, hmem₀⟩, hacc.states_key, fun server =>
      forall₂_batchOutputs_iff client ht hacc.length_states hacc.length_blinded htrue⟩
  · exact .inr ⟨t, hacc.states_key, hforged⟩

/-! ## True answers -/

omit [DecidableEq G] in
variable (S F) in
/-- The answer divides the blinded elements by `t`, and the proof verifies under the key of `t`. -/
structure TrueAnswer (t : Scalar) (evaluated : List (EvaluatedElement G))
    (blinded : List (BlindedElement G)) (proof : Proof) : Prop where
  scalar_ne_zero : t ≠ 0
  points : blinded.map (·.point) = (evaluated.map (·.point)).map (t • ·)
  verified : S.verifyProof F S.basepoint (t • S.basepoint) (evaluated.map (·.point))
    (blinded.map (·.point)) proof = .ok ()

omit [DecidableEq G] in
/-- Whoever knows the scalar of a key has a true answer for any blinded elements. -/
theorem trueAnswer_issue (F' : Features) {t : Scalar} (ht : t ≠ 0) (blinded : List (BlindedElement G))
    (r : Scalar) :
    TrueAnswer S F t (PoprfServer.issue t blinded) blinded
      (S.generateProofWithR F' t S.basepoint (t • S.basepoint)
        ((PoprfServer.issue t blinded).map (·.point)) (blinded.map (·.point)) r) :=
  ⟨ht, PoprfServer.map_point_issue ht blinded,
    S.verifyProof_generateProofWithR F' F t _ _ _ (PoprfServer.map_point_issue ht blinded) r⟩

/-- What a server answers to a batch is true for its evaluation scalar, and no element of the batch is the
identity. -/
theorem PoprfServer.RepliesBatch.trueAnswer {F' : Features} {server : PoprfServer} {info : Bytes}
    {reply : List (BlindedElement G) → Except Error (List (EvaluatedElement G) × Proof)}
    (hreply : server.RepliesBatch S F' info reply) {blinded : List (BlindedElement G)}
    {evaluated : List (EvaluatedElement G)} {proof : Proof}
    (h : reply blinded = .ok (evaluated, proof)) :
    TrueAnswer S F (server.sk.scalar + S.tweak info) evaluated blinded proof ∧
      ∀ b ∈ blinded, b.point ≠ 0 := by
  obtain ⟨r, hr⟩ := hreply.spec blinded
  obtain ⟨-, hid, t, ht, hres⟩ :=
    (PoprfServer.blindEvaluateBatchWithRInner_eq_ok_iff S F' server).mp (hr.symm.trans h)
  obtain ⟨-, rfl, hne⟩ := (PoprfServer.computeT_eq_ok_iff S server).mp ht
  obtain ⟨rfl, rfl⟩ := Prod.mk.inj hres
  exact ⟨trueAnswer_issue F' hne blinded r, hid⟩

/-- What a server answers to a single token is a batch of one. -/
theorem PoprfServer.Replies.trueAnswer {F' : Features} {server : PoprfServer} {info : Bytes}
    {reply : BlindedElement G → Except Error (EvaluatedElement G × Proof)}
    (hreply : server.Replies S F' info reply) {blinded : BlindedElement G}
    {evaluated : EvaluatedElement G} {proof : Proof} (h : reply blinded = .ok (evaluated, proof)) :
    TrueAnswer S F (server.sk.scalar + S.tweak info) [evaluated] [blinded] proof ∧
      ∀ b ∈ [blinded], b.point ≠ 0 := by
  obtain ⟨r, hr⟩ := hreply.spec blinded
  obtain ⟨hid, t, ht, hres⟩ :=
    (PoprfServer.blindEvaluateWithRInner_eq_ok_iff S F' server).mp (hr.symm.trans h)
  obtain ⟨-, rfl, hne⟩ := (PoprfServer.computeT_eq_ok_iff S server).mp ht
  obtain ⟨rfl, rfl⟩ := Prod.mk.inj hres
  exact ⟨trueAnswer_issue F' hne [blinded] r, List.forall_mem_singleton.mpr hid⟩

section Calls

variable (client : PoprfClient G) (server : PoprfServer) {inputs : List Bytes}
  {states : List (PoprfBlindState G)} {evaluated : List (EvaluatedElement G)}
  {blinded : List (BlindedElement G)} {proof : Proof} {info : Bytes}

/-- Given a true answer under the key of the states, `finalize_batch` is right for a server exactly when
the tokens serve, unless the call is refused for its states and lengths. -/
theorem TrueAnswer.batchBinds_iff {t : Scalar} (h : TrueAnswer S F t evaluated blinded proof)
    (hkeys : ∀ state ∈ states, state.tweakedKey = t • S.basepoint) :
    client.BatchBinds S F server inputs states evaluated blinded proof info ↔
      PoprfClient.StatesRefused inputs states info ∨ inputs.length ≠ blinded.length ∨
        client.BatchServes S server inputs states blinded info := by
  have hcount : evaluated.length = blinded.length := by
    simpa using (congrArg List.length h.points).symm
  constructor
  · intro hbinds
    by_contra hnot
    obtain ⟨hrefused, hnot⟩ := not_or.mp hnot
    obtain ⟨hlen, hserves⟩ := not_or.mp hnot
    have hlen := not_not.mp hlen
    -- the checks pass, and the proof is honest: the call is accepted
    obtain ⟨key, ⟨state₀, hmem₀, rfl⟩, hchecked⟩ := PoprfClient.exists_key_of_not_refused hrefused
    have hbatch := hchecked evaluated blinded (hlen.trans hcount.symm) hlen
    rw [hkeys state₀ hmem₀] at hbatch
    obtain ⟨hmatch, hevaluates⟩ :=
      hbinds _ ((client.finalizeBatch_eq_ok_iff S F).mpr ⟨⟨_, hbatch, h.verified⟩, rfl⟩)
    refine hserves ⟨hmatch, fun t' ht' => ?_⟩
    -- the key of the states is that of the answer
    obtain rfl : t' = t := scalar_unique (ht'.symm.trans ((hmatch state₀ hmem₀).symm.trans
      (hkeys state₀ hmem₀)))
    exact (forall₂_batchOutputs_iff client h.scalar_ne_zero hbatch.length_states hlen h.points).mp
      hevaluates
  · intro hright outs houts
    obtain ⟨⟨key, hacc⟩, rfl⟩ := (client.finalizeBatch_eq_ok_iff S F).mp houts
    -- an accepted call was not refused, so that the tokens serve
    rcases hright with hrefused | hlen | hserves
    · exact absurd hacc.toBatchChecked hrefused.not_checked
    · exact absurd hacc.length_blinded hlen
    · obtain ⟨state₀, hmem₀⟩ := exists_state_of_checked hacc.toBatchChecked
      have hkey : S.tweakedKey client.pk info = t • S.basepoint :=
        (hserves.states_match state₀ hmem₀).symm.trans (hkeys state₀ hmem₀)
      exact ⟨hserves.states_match, (forall₂_batchOutputs_iff client h.scalar_ne_zero
        hacc.length_states hacc.length_blinded h.points).mpr (hserves.serves t hkey)⟩

/-- A true answer is accepted under no other key, unless it is forged there. -/
theorem TrueAnswer.batchForged {t : Scalar} (h : TrueAnswer S F t evaluated blinded proof)
    (hid : ∀ b ∈ blinded, b.point ≠ 0) (hkey : ∃ state ∈ states, state.tweakedKey ≠ t • S.basepoint)
    {outs : List PoprfOutput}
    (houts : client.finalizeBatch S F inputs states evaluated blinded proof info = .ok outs) :
    BatchForged S F states evaluated blinded proof := by
  obtain ⟨⟨key, hacc⟩, -⟩ := (client.finalizeBatch_eq_ok_iff S F).mp houts
  obtain ⟨k, rfl⟩ := S.basepoint_generates key
  have hcount : (evaluated.map (·.point)).length = (blinded.map (·.point)).length := by
    rw [List.length_map, List.length_map, ← hacc.length_evaluated, hacc.length_blinded]
  rcases Protocol.eq_map_or_forges S hcount hacc.verified with htrue | hforged
  · -- two scalars take the first evaluated element to the first blinded one
    obtain ⟨state, hmem, hne⟩ := hkey
    refine absurd (hacc.states_key state hmem) fun hk => hne ?_
    obtain ⟨b, blinded, rfl⟩ := List.exists_cons_of_ne_nil (List.ne_nil_of_length_pos
      (hacc.length_blinded ▸ List.length_pos_of_ne_nil hacc.inputs_ne_nil))
    cases evaluated with
    | nil => exact absurd htrue (List.cons_ne_nil _ _)
    | cons e evaluated =>
      have hb : b.point ≠ 0 := hid b List.mem_cons_self
      have hbk : b.point = k • e.point := (List.cons.inj htrue).1
      have hbt : b.point = t • e.point := (List.cons.inj h.points).1
      have he : e.point ≠ 0 := fun he => hb (by rw [hbk, he, smul_zero])
      rw [hk, smul_left_injective Scalar he (hbk.symm.trans hbt)]
  · exact ⟨k, hacc.states_key, hforged⟩

/-- Whatever a server answers, `finalize_batch` is right for a server, or the answer is forged, exactly
when the tokens serve, unless the call is refused for its states and lengths. -/
theorem forall_batchBinds_iff (hrestorable : ∀ state ∈ states, state.Restorable S) :
    (∀ evaluated proof, client.BatchBinds S F server inputs states evaluated blinded proof info ∨
        BatchForged S F states evaluated blinded proof) ↔
      PoprfClient.StatesRefused inputs states info ∨ inputs.length ≠ blinded.length ∨
        client.BatchServes S server inputs states blinded info := by
  constructor
  · intro hbinds
    by_cases hrefused : PoprfClient.StatesRefused inputs states info
    · exact .inl hrefused
    by_cases hlen : inputs.length = blinded.length
    · obtain ⟨key, ⟨state₀, hmem₀, rfl⟩, hchecked⟩ := PoprfClient.exists_key_of_not_refused hrefused
      obtain ⟨t, ht⟩ := S.basepoint_generates state₀.tweakedKey
      have hkeys : ∀ state ∈ states, state.tweakedKey = t • S.basepoint := by
        rw [ht]
        exact (hchecked (PoprfServer.issue t blinded) blinded
          (hlen.trans (PoprfServer.length_issue t blinded).symm) hlen).states_key
      have hne : t ≠ 0 := by
        rintro rfl
        rw [zero_smul] at ht
        exact PoprfBlindState.restorable_iff.mp (hrestorable state₀ hmem₀) ht.symm
      -- the answer of whoever knows the scalar of the states' key is true, so it is not forged
      have htrue : TrueAnswer S F t _ blinded _ := trueAnswer_issue F hne blinded 0
      rcases hbinds _ _ with hbinds | ⟨t', hkeys', hforged⟩
      · exact (htrue.batchBinds_iff client server hkeys).mp hbinds
      · obtain rfl := scalar_unique ((hkeys' state₀ hmem₀).symm.trans (hkeys state₀ hmem₀))
        exact absurd hforged (not_forges_of_true htrue.points)
    · exact .inr (.inl hlen)
  · intro hright evaluated proof
    by_cases hforged : BatchForged S F states evaluated blinded proof
    · exact .inr hforged
    refine .inl fun outs houts => ?_
    obtain ⟨⟨key, hacc⟩, -⟩ := (client.finalizeBatch_eq_ok_iff S F).mp houts
    rcases hright with hrefused | hlen | hserves
    · exact absurd hacc.toBatchChecked hrefused.not_checked
    · exact absurd hacc.length_blinded hlen
    · obtain ⟨t, -, ⟨state₀, hmem₀⟩, hkeys, hiff⟩ :=
        (finalizeBatch_serves client hrestorable houts).resolve_right hforged
      have hkey : S.tweakedKey client.pk info = t • S.basepoint :=
        (hserves.states_match state₀ hmem₀).symm.trans (hkeys state₀ hmem₀)
      exact ⟨hserves.states_match, (hiff server).mpr (hserves.serves t hkey)⟩

end Calls

/-! ## Single tokens -/

/-- A single token is a batch of one. -/
theorem PoprfClient.binds_iff_batchBinds (client : PoprfClient G) (server : PoprfServer) {input : Bytes}
    {state : PoprfBlindState G} {evaluated : EvaluatedElement G} {blinded : BlindedElement G}
    {proof : Proof} {info : Bytes} :
    client.Binds S F server input state evaluated blinded proof info ↔
      client.BatchBinds S F server [input] [state] [evaluated] [blinded] proof info := by
  unfold PoprfClient.Binds PoprfClient.BatchBinds
  rw [client.finalizeBatch_singleton S F]
  constructor
  · intro hbinds outs houts
    obtain ⟨out, hout, rfl⟩ := map_eq_ok_iff.mp houts
    obtain ⟨hmatch, hevaluates⟩ := hbinds out hout
    exact ⟨List.forall_mem_singleton.mpr hmatch, .cons hevaluates .nil⟩
  · intro hbinds out hout
    obtain ⟨hmatch, hevaluates⟩ := hbinds [out] (map_eq_ok_iff.mpr ⟨out, hout, rfl⟩)
    exact ⟨hmatch state List.mem_cons_self, (List.forall₂_cons.mp hevaluates).1⟩

/-- Whatever a server answers to a token, `finalize` is right for a server, or the answer is forged,
exactly when the token serves, unless a length is over the cap. -/
theorem forall_binds_iff (client : PoprfClient G) (server : PoprfServer) {input : Bytes}
    {state : PoprfBlindState G} (hrestorable : state.Restorable S) {blinded : BlindedElement G}
    {info : Bytes} :
    (∀ evaluated proof, client.Binds S F server input state evaluated blinded proof info ∨
        BatchForged S F [state] [evaluated] [blinded] proof) ↔
      MAX_LP_LEN < input.length ∨ MAX_LP_LEN < info.length ∨
        client.BatchServes S server [input] [state] [blinded] info := by
  have hbatch : (∀ evaluated proof,
      client.BatchBinds S F server [input] [state] evaluated [blinded] proof info ∨
        BatchForged S F [state] evaluated [blinded] proof) ↔ _ :=
    forall_batchBinds_iff client server (List.forall_mem_singleton.mpr hrestorable)
  have hlen : ¬[input].length ≠ [blinded].length := not_not.mpr rfl
  rw [PoprfClient.statesRefused_singleton_iff, or_iff_right hlen, or_assoc] at hbatch
  rw [← hbatch]
  simp only [client.binds_iff_batchBinds server]
  constructor
  · intro h evaluated proof
    by_cases hlen : evaluated.length = 1
    · obtain ⟨e, rfl⟩ := List.length_eq_one_iff.mp hlen
      exact h e proof
    · -- a batch of one accepts no other number of evaluated elements
      refine .inl fun outs houts => absurd ?_ hlen
      obtain ⟨⟨key, hacc⟩, -⟩ := (client.finalizeBatch_eq_ok_iff S F).mp houts
      exact hacc.length_evaluated.symm
  · exact fun h e proof => h [e] proof

/-! ## Binding -/

/-- When `finalize` and `finalize_batch` are bound to the client's key and to the `info`. Over all answers,
success implies matching states exactly when the states match or the call is refused. Over all answers to
states that can be had, success implies the evaluations of a server, or a forged proof, exactly when the
tokens serve that server, or the call is refused. An honest answer is not forged under its own key, so that
there the tokens alone decide; under any other key its success is a forgery. -/
theorem finalize_binds_iff (S : Suite G) (F F' : Features) (client : PoprfClient G) (info : Bytes) :
    (∀ input state,
      (∀ evaluated blinded proof out,
          client.finalize S F input state evaluated blinded proof info = .ok out →
          client.Matches S info state) ↔
        client.Matches S info state ∨ MAX_LP_LEN < input.length ∨ MAX_LP_LEN < info.length) ∧
    (∀ inputs states,
      (∀ evaluated blinded proof outs,
          client.finalizeBatch S F inputs states evaluated blinded proof info = .ok outs →
          ∀ state ∈ states, client.Matches S info state) ↔
        (∀ state ∈ states, client.Matches S info state) ∨
          PoprfClient.StatesRefused inputs states info) ∧
    (∀ server input state blinded, PoprfBlindState.Restorable S state →
      ((∀ evaluated proof, client.Binds S F server input state evaluated blinded proof info ∨
          BatchForged S F [state] [evaluated] [blinded] proof) ↔
        MAX_LP_LEN < input.length ∨ MAX_LP_LEN < info.length ∨
          client.BatchServes S server [input] [state] [blinded] info)) ∧
    (∀ server inputs states blinded, (∀ state ∈ states, PoprfBlindState.Restorable S state) →
      ((∀ evaluated proof, client.BatchBinds S F server inputs states evaluated blinded proof info ∨
          BatchForged S F states evaluated blinded proof) ↔
        PoprfClient.StatesRefused inputs states info ∨ inputs.length ≠ blinded.length ∨
          client.BatchServes S server inputs states blinded info)) ∧
    (∀ server serverInfo reply input state blinded evaluated proof,
      PoprfServer.Replies S F' server serverInfo reply → reply blinded = .ok (evaluated, proof) →
      (state.tweakedKey = S.tweakedKey (server.publicKey S).point serverInfo →
        (client.Binds S F server input state evaluated blinded proof info ↔
          MAX_LP_LEN < input.length ∨ MAX_LP_LEN < info.length ∨
            client.BatchServes S server [input] [state] [blinded] info)) ∧
      (state.tweakedKey ≠ S.tweakedKey (server.publicKey S).point serverInfo →
        ∀ out, client.finalize S F input state evaluated blinded proof info = .ok out →
          BatchForged S F [state] [evaluated] [blinded] proof)) ∧
    ∀ server serverInfo reply inputs states blinded evaluated proof,
      PoprfServer.RepliesBatch S F' server serverInfo reply → reply blinded = .ok (evaluated, proof) →
      ((∀ state ∈ states, state.tweakedKey = S.tweakedKey (server.publicKey S).point serverInfo) →
        (client.BatchBinds S F server inputs states evaluated blinded proof info ↔
          PoprfClient.StatesRefused inputs states info ∨ inputs.length ≠ blinded.length ∨
            client.BatchServes S server inputs states blinded info)) ∧
      ((∃ state ∈ states, state.tweakedKey ≠ S.tweakedKey (server.publicKey S).point serverInfo) →
        ∀ outs, client.finalizeBatch S F inputs states evaluated blinded proof info = .ok outs →
          BatchForged S F states evaluated blinded proof) := by
  refine ⟨fun input state => client.forall_finalize_matches_iff S F,
    fun inputs states => client.forall_finalizeBatch_matches_iff S F,
    fun server input state blinded hstate => forall_binds_iff client server hstate,
    fun server inputs states blinded hstates => forall_batchBinds_iff client server hstates, ?_, ?_⟩
  · intro server serverInfo reply input state blinded evaluated proof hreply hok
    have hkey : S.tweakedKey (server.publicKey S).point serverInfo = _ :=
      S.tweakedKey_smul_basepoint server.sk.scalar serverInfo
    obtain ⟨htrue, hid⟩ : TrueAnswer S F _ [evaluated] [blinded] proof ∧ _ := hreply.trueAnswer hok
    rw [hkey]
    constructor
    · intro hstate
      have hlen : ¬[input].length ≠ [blinded].length := not_not.mpr rfl
      -- a single call is a batch of one
      rw [client.binds_iff_batchBinds server,
        htrue.batchBinds_iff client server (List.forall_mem_singleton.mpr hstate),
        PoprfClient.statesRefused_singleton_iff, or_iff_right hlen, or_assoc]
    · intro hstate out hout
      have hbatch : client.finalizeBatch S F [input] [state] [evaluated] [blinded] proof info =
          .ok [out] := by
        rw [client.finalizeBatch_singleton S F, hout]
        rfl
      -- the answer was made under another key than that of the state
      exact htrue.batchForged client hid ⟨state, List.mem_cons_self, hstate⟩ hbatch
  · intro server serverInfo reply inputs states blinded evaluated proof hreply hok
    have hkey : S.tweakedKey (server.publicKey S).point serverInfo = _ :=
      S.tweakedKey_smul_basepoint server.sk.scalar serverInfo
    obtain ⟨htrue, hid⟩ : TrueAnswer S F _ evaluated blinded proof ∧ _ := hreply.trueAnswer hok
    rw [hkey]
    exact ⟨htrue.batchBinds_iff client server, fun hstate outs => htrue.batchForged client hid hstate⟩

/-- A server with the key `5` on the executable suite answers two tokens that its client blinded for the
info `[1]`. Finalized for `[1]`, with whatever answer, they are bound to the evaluations of the server.
Finalized for `[2]` with the answer of the server they are not, neither by this client nor by one whose
public key makes up for the other `info`, so that all states match. -/
theorem finalize_binds_iff_reference :
    let S := referenceSuite
    let F : Features := ⟨true, true⟩
    let server := PoprfServer.new ⟨5⟩
    let client := PoprfClient.new (server.publicKey S)
    let other : PoprfClient Scalar := ⟨client.pk + (S.tweak [1] - S.tweak [2]) • S.basepoint⟩
    let states : List (PoprfBlindState Scalar) :=
      [⟨7, S.tweakedKey client.pk [1]⟩, ⟨8, S.tweakedKey client.pk [1]⟩]
    let blinded : List (BlindedElement Scalar) :=
      [⟨(7 : Scalar) • S.inputElement [3]⟩, ⟨(8 : Scalar) • S.inputElement [4]⟩]
    (∀ evaluated proof, client.BatchBinds S F server [[3], [4]] states evaluated blinded proof [1] ∨
      BatchForged S F states evaluated blinded proof) ∧
    ∃ evaluated proof, server.blindEvaluateBatchWithProofScalar S F blinded [1]
        (S.serializeScalarArray 11) = .ok (evaluated, proof) ∧
      ¬client.BatchBinds S F server [[3], [4]] states evaluated blinded proof [2] ∧
      (∀ state ∈ states, other.Matches S [2] state) ∧
      ¬other.BatchBinds S F server [[3], [4]] states evaluated blinded proof [2] := by
  intro S F server client other states blinded
  have ht : server.computeT S [1] = .ok (5 + S.tweak [1]) :=
    server.computeT_of_ne_zero S (by decide) (by decide +kernel)
  obtain ⟨⟨evaluated, proof⟩, hreply⟩ : ∃ res, server.blindEvaluateBatchWithProofScalar S F blinded [1]
      (S.serializeScalarArray 11) = .ok res :=
    ⟨_, (server.blindEvaluateBatchWithProofScalar_eq S F blinded [1] 11).trans
      (server.blindEvaluateBatchWithRInner_eq_ok S F (List.cons_ne_nil _ _) (by decide +kernel) ht 11)⟩
  have hkeys : ∀ state ∈ states, state.tweakedKey = S.tweakedKey (server.publicKey S).point [1] := by
    decide +kernel
  -- the reply to the batch is honest, so that it binds exactly when the tokens serve
  have hiff : ∀ (c : PoprfClient Scalar) (info : Bytes), info.length ≤ MAX_LP_LEN →
      (c.BatchBinds S F server [[3], [4]] states evaluated blinded proof info ↔
        c.BatchServes S server [[3], [4]] states blinded info) := by
    intro c info hinfo
    have hchecked : PoprfClient.BatchChecked [[3], [4]] states (PoprfServer.issue 1 blinded) blinded info
        (S.tweakedKey (server.publicKey S).point [1]) :=
      ⟨by decide, rfl, rfl, rfl, hinfo, by decide, hkeys⟩
    have hrefused : ¬PoprfClient.StatesRefused [[3], [4]] states info := fun h => h.not_checked hchecked
    have hlen : ¬([[3], [4]] : List Bytes).length ≠ blinded.length := not_not.mpr rfl
    rw [((finalize_binds_iff S F F c info).2.2.2.2.2 server [1] _ [[3], [4]] states blinded _ _
      (.proofScalar 11 fun _ => rfl) hreply).1 hkeys, or_iff_right hrefused, or_iff_right hlen]
  have h3 : S.Admissible (server.publicKey S).point [3] [1] :=
    ⟨by decide, by decide, by decide +kernel, by decide +kernel⟩
  have h4 : S.Admissible (server.publicKey S).point [4] [1] :=
    ⟨by decide, by decide, by decide +kernel, by decide +kernel⟩
  have htoken : client.Blinds S [3] [1] (.ok (⟨7, S.tweakedKey client.pk [1]⟩,
    ⟨(7 : Scalar) • S.inputElement [3]⟩)) := .of_admissible h3 (by decide +kernel)
  have htoken' : client.Blinds S [4] [1] (.ok (⟨8, S.tweakedKey client.pk [1]⟩,
    ⟨(8 : Scalar) • S.inputElement [4]⟩)) := .of_admissible h4 (by decide +kernel)
  -- both tokens were made for this server and this info
  have hserves : client.BatchServes S server [[3], [4]] states blinded [1] := by
    refine ⟨hkeys, fun t hkey => ?_⟩
    obtain rfl : t = 5 + S.tweak [1] :=
      scalar_unique (hkey.symm.trans (S.tweakedKey_smul_basepoint 5 [1]))
    refine List.forall_mem_cons.mpr ⟨?_, List.forall_mem_singleton.mpr ?_⟩
    · exact htoken.unblind_eq.symm ▸ Serves.of_scalar h3
    · exact htoken'.unblind_eq.symm ▸ Serves.of_scalar h4
  have hrestorable : ∀ state ∈ states, state.Restorable S :=
    List.forall_mem_cons.mpr ⟨htoken.restorable, List.forall_mem_singleton.mpr htoken'.restorable⟩
  -- the other public key makes up for the other info
  have hmatch : ∀ state ∈ states, other.Matches S [2] state := by
    unfold PoprfClient.Matches
    decide +kernel
  refine ⟨((finalize_binds_iff S F F client [1]).2.2.2.1 server [[3], [4]] states blinded
    hrestorable).mpr (.inr (.inr hserves)), evaluated, proof, hreply, fun h => ?_, hmatch, fun h => ?_⟩
  · -- the states carry the key of the info `[1]`
    have hstate := ((hiff client [2] (by decide)).mp h).states_match _ List.mem_cons_self
    revert hstate
    unfold PoprfClient.Matches
    decide +kernel
  · -- the tokens serve another server, whose public key is that of the other client
    have huse := ((hiff other [2] (by decide)).mp h).serves (5 + S.tweak [1]) (by decide +kernel)
      ([3], _, _) List.mem_cons_self
    rcases huse.element with helem | ⟨-, hdigest⟩
    · revert helem
      decide +kernel
    · revert hdigest
      decide +kernel

/-- Tokens that were blinded and evaluated for the info `[1]` are finalized for the info `[2]`, to an
output that the server does not compute. -/
theorem finalize_accepts_other_info :
    let S := referenceSuite
    let F : Features := ⟨true, true⟩
    let server := PoprfServer.new ⟨5⟩
    let client := PoprfClient.new (server.publicKey S)
    ∃ state blinded evaluated proof out expected,
      client.blindWithScalar S [3] [1] (S.serializeScalarArray 7) = .ok (state, blinded) ∧
      server.blindEvaluateWithProofScalar S F blinded [1] (S.serializeScalarArray 11) =
        .ok (evaluated, proof) ∧
      client.finalize S F [3] state evaluated blinded proof [2] = .ok out ∧
      ¬ client.Matches S [2] state ∧
      server.evaluate S [3] [2] = .ok expected ∧ out ≠ expected := by
  intro S F server client
  refine ⟨⟨7, S.tweakedKey client.pk [1]⟩, ⟨(7 : Scalar) • S.inputElement [3]⟩,
    ⟨(5 + S.tweak [1])⁻¹ • (7 : Scalar) • S.inputElement [3]⟩,
    S.generateProofWithR F (5 + S.tweak [1]) S.basepoint ((5 + S.tweak [1]) • S.basepoint)
      [(5 + S.tweak [1])⁻¹ • (7 : Scalar) • S.inputElement [3]] [(7 : Scalar) • S.inputElement [3]] 11,
    S.outputOf [3] [2] ((5 + S.tweak [1])⁻¹ • S.inputElement [3]), S.prf 5 [3] [2], ?_⟩
  unfold PoprfClient.Matches
  decide +kernel

end PoprfRistretto
