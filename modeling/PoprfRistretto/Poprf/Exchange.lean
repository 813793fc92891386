import PoprfRistretto.Poprf.Codecs
import PoprfRistretto.Poprf.ClientTheorems
import PoprfRistretto.Poprf.ServerTheorems
import PoprfRistretto.Library.Blinding
import PoprfRistretto.ReferenceSuite

/-!
# The protocol over the wire

An exchange runs the client and the server on each other's messages, every message sent as bytes and
parsed by its receiver, and the client's states stored as bytes in between. An exchange of tokens
that were blinded for the server's key yields what the server evaluates offline.
-/

namespace PoprfRistretto

open ExceptLoop Blinding DiscreteLogEquality

variable {G : Type} [AddCommGroup G] [Module Scalar G] [DecidableEq G]

/-! ## Messages -/

/-- Send a blinded element. -/
def BlindedElement.resend (S : Suite G) (b : BlindedElement G) : Except Error (BlindedElement G) :=
  BlindedElement.fromBytes S (b.toBytes S).toList

/-- Send an evaluated element. -/
def EvaluatedElement.resend (S : Suite G) (e : EvaluatedElement G) :
    Except Error (EvaluatedElement G) :=
  EvaluatedElement.fromBytes S (e.toBytes S).toList

omit [DecidableEq G] in
/-- Send a proof. -/
def Proof.resend (S : Suite G) (p : Proof) : Except Error Proof :=
  Proof.fromBytes S (p.toBytes S).toList

/-- Store a state and restore it. -/
def PoprfBlindState.resend (S : Suite G) (st : PoprfBlindState G) :
    Except Error (PoprfBlindState G) :=
  PoprfBlindState.fromBytes S (st.toBytes S).toList

/-- A blinded element other than the identity survives the wire. -/
theorem BlindedElement.resend_eq (S : Suite G) {b : BlindedElement G} (h : b.point ≠ 0) :
    b.resend S = .ok b := (BlindedElement.fromBytes_eq_ok_iff S).mpr ⟨rfl, h⟩

/-- So does an evaluated element. -/
theorem EvaluatedElement.resend_eq (S : Suite G) {e : EvaluatedElement G} (h : e.point ≠ 0) :
    e.resend S = .ok e := (EvaluatedElement.fromBytes_eq_ok_iff S).mpr ⟨rfl, h⟩

omit [DecidableEq G] in
/-- So does every proof. -/
theorem Proof.resend_eq (S : Suite G) (p : Proof) : p.resend S = .ok p :=
  (Proof.fromBytes_eq_ok_iff S).mpr rfl

/-- And a state that the client stores. -/
theorem PoprfBlindState.resend_eq (S : Suite G) {st : PoprfBlindState G} (h : st.tweakedKey ≠ 0) :
    st.resend S = .ok st := (PoprfBlindState.fromBytes_eq_ok_iff S).mpr ⟨rfl, h⟩

/-- A list of messages arrives when each does. -/
theorem mapM_resend_eq {α : Type} {resend : α → Except Error α} {l : List α}
    (h : ∀ a ∈ l, resend a = .ok a) : l.mapM resend = .ok l :=
  mapM_eq_ok_iff.mpr (List.forall₂_same.mpr h)

/-! ## The exchange -/

/-- `res` is what `blind` or `blind_with_scalar` returns for some nonzero blind. -/
inductive PoprfClient.Blinds (S : Suite G) (client : PoprfClient G) (input info : Bytes)
    (res : Except Error (PoprfBlindState G × BlindedElement G)) : Prop where
  | scalar (blind : Scalar) (hblind : blind ≠ 0)
      (h : client.blindWithScalar S input info (S.serializeScalarArray blind) = res)
  | rng (R : Type) [Rng R] (fuel : ℕ) (rng rng' : R)
      (h : client.blind S fuel input info rng = some (res, rng'))

/-- `reply` is what the server answers to a batch, with a given nonce or with one that it draws. -/
inductive PoprfServer.RepliesBatch (S : Suite G) (F : Features) (server : PoprfServer)
    (info : Bytes)
    (reply : List (BlindedElement G) → Except Error (List (EvaluatedElement G) × Proof)) : Prop where
  | proofScalar (r : Scalar)
      (h : ∀ blinded, reply blinded =
        server.blindEvaluateBatchWithProofScalar S F blinded info (S.serializeScalarArray r))
  | rng (R : Type) [Rng R] (fuel : ℕ) (rng : R)
      (h : ∀ blinded, ∃ rng',
        server.blindEvaluateBatch S F fuel rng blinded info = some (reply blinded, rng'))

/-- `reply` is what the server answers to a single token. -/
inductive PoprfServer.Replies (S : Suite G) (F : Features) (server : PoprfServer) (info : Bytes)
    (reply : BlindedElement G → Except Error (EvaluatedElement G × Proof)) : Prop where
  | proofScalar (r : Scalar)
      (h : ∀ blinded, reply blinded =
        server.blindEvaluateWithProofScalar S F blinded info (S.serializeScalarArray r))
  | rng (R : Type) [Rng R] (fuel : ℕ) (rng : R)
      (h : ∀ blinded, ∃ rng',
        server.blindEvaluate S F fuel rng blinded info = some (reply blinded, rng'))

/-- Finalize a batch of tokens with a server that answers `reply`. -/
def exchangeBatch (S : Suite G) (F : Features) (client : PoprfClient G)
    (reply : List (BlindedElement G) → Except Error (List (EvaluatedElement G) × Proof))
    (inputs : List Bytes) (tokens : List (PoprfBlindState G × BlindedElement G)) (info : Bytes) :
    Except Error (List PoprfOutput) := do
  let blinded ← (tokens.map Prod.snd).mapM (BlindedElement.resend S)
  let states ← (tokens.map Prod.fst).mapM (PoprfBlindState.resend S)
  let (evaluated, proof) ← reply blinded
  let evaluated ← evaluated.mapM (EvaluatedElement.resend S)
  let proof ← proof.resend S
  client.finalizeBatch S F inputs states evaluated blinded proof info

/-- Finalize one token with a server that answers `reply`. -/
def exchange (S : Suite G) (F : Features) (client : PoprfClient G)
    (reply : BlindedElement G → Except Error (EvaluatedElement G × Proof)) (input : Bytes)
    (token : PoprfBlindState G × BlindedElement G) (info : Bytes) : Except Error PoprfOutput := do
  let blinded ← token.2.resend S
  let state ← token.1.resend S
  let (evaluated, proof) ← reply blinded
  let evaluated ← evaluated.resend S
  let proof ← proof.resend S
  client.finalize S F input state evaluated blinded proof info

/-! ## Correctness -/

/-- Whichever way the blind comes about, it is not zero and the result is that of the common body. -/
theorem PoprfClient.Blinds.exists_blind {S : Suite G} {client : PoprfClient G} {input info : Bytes}
    {res : Except Error (PoprfBlindState G × BlindedElement G)}
    (h : client.Blinds S input info res) :
    ∃ blind : Scalar, blind ≠ 0 ∧ res = client.blindWithInner S input info blind := by
  rcases h with ⟨blind, hblind, h⟩ | ⟨R, fuel, rng, rng', h⟩
  · exact ⟨blind, hblind, by rw [← h, client.blindWithScalar_eq]⟩
  · obtain ⟨blind, hdraw, hres⟩ := (client.blind_eq_some_iff S).mp h
    exact ⟨blind, randomScalar_ne_zero hdraw, hres⟩

/-- A token holds a nonzero blind, the tweaked key and the blinded input element. -/
theorem PoprfClient.Blinds.spec {S : Suite G} {client : PoprfClient G} {input info : Bytes}
    {token : PoprfBlindState G × BlindedElement G} (h : client.Blinds S input info (.ok token)) :
    ∃ blind : Scalar, blind ≠ 0 ∧ S.Admissible client.pk input info ∧
      token = (⟨blind, S.tweakedKey client.pk info⟩, ⟨blind • S.inputElement input⟩) := by
  obtain ⟨blind, hblind, hres⟩ := h.exists_blind
  exact ⟨blind, hblind, (client.blindWithInner_eq_ok_iff S).mp hres.symm⟩

/-- Every nonzero blind of an admissible request makes a token. -/
theorem PoprfClient.Blinds.of_admissible {S : Suite G} {client : PoprfClient G} {input info : Bytes}
    (hadm : S.Admissible client.pk input info) {blind : Scalar} (hblind : blind ≠ 0) :
    client.Blinds S input info
      (.ok (⟨blind, S.tweakedKey client.pk info⟩, ⟨blind • S.inputElement input⟩)) := by
  refine .scalar blind hblind ?_
  rw [client.blindWithScalar_eq, client.blindWithInner_of_admissible S hadm]

/-- Whichever way the nonce comes about, the reply is that of the common body. -/
theorem PoprfServer.RepliesBatch.spec {S : Suite G} {F : Features} {server : PoprfServer}
    {info : Bytes}
    {reply : List (BlindedElement G) → Except Error (List (EvaluatedElement G) × Proof)}
    (h : server.RepliesBatch S F info reply) (blinded : List (BlindedElement G)) :
    ∃ r, reply blinded = server.blindEvaluateBatchWithRInner S F blinded info r := by
  rcases h with ⟨r, h⟩ | ⟨R, fuel, rng, h⟩
  · exact ⟨r, by rw [h, server.blindEvaluateBatchWithProofScalar_eq]⟩
  · obtain ⟨rng', h⟩ := h blinded
    exact server.blindEvaluateBatch_eq_some S F h

/-- Whichever way the nonce comes about, the reply is that of the common body. -/
theorem PoprfServer.Replies.spec {S : Suite G} {F : Features} {server : PoprfServer} {info : Bytes}
    {reply : BlindedElement G → Except Error (EvaluatedElement G × Proof)}
    (h : server.Replies S F info reply) (blinded : BlindedElement G) :
    ∃ r, reply blinded = server.blindEvaluateWithRInner S F blinded info r := by
  rcases h with ⟨r, h⟩ | ⟨R, fuel, rng, h⟩
  · exact ⟨r, by rw [h, server.blindEvaluateWithProofScalar_eq]⟩
  · obtain ⟨rng', h⟩ := h blinded
    exact server.blindEvaluate_eq_some S F h

section Correctness

variable (S : Suite G) {sk : Scalar} {info : Bytes}

/-- A token that was blinded for the public key of `sk`. -/
abbrev Token (sk : Scalar) (info input : Bytes)
    (token : PoprfBlindState G × BlindedElement G) : Prop :=
  (PoprfClient.mk (sk • S.basepoint)).Blinds S input info (.ok token)

omit [DecidableEq G] in
/-- Unblinding the issued element of an input gives its output. -/
theorem unblindAndHash_issued (client : PoprfClient G) {input : Bytes} {blind : Scalar}
    (hblind : blind ≠ 0) (key : G) :
    client.unblindAndHash S input info ⟨blind, key⟩
        ⟨(sk + S.tweak info)⁻¹ • blind • S.inputElement input⟩ = S.prf sk input info := by
  rw [client.unblindAndHash_eq, S.scalarInvert_eq_inv hblind, unblind_smul hblind, Suite.prf]

/-- The requests of a blinded batch are admissible. -/
theorem token_admissible {inputs : List Bytes}
    {tokens : List (PoprfBlindState G × BlindedElement G)}
    (htokens : List.Forall₂ (Token S sk info) inputs tokens) :
    ∀ input ∈ inputs, S.Admissible (sk • S.basepoint) input info := by
  induction htokens with
  | nil => simp
  | cons htoken _ ih =>
    obtain ⟨-, -, hadm, -⟩ := htoken.spec
    exact List.forall_mem_cons.mpr ⟨hadm, ih⟩

/-- The tokens of a batch pass the checks of the parsers and carry one key. -/
theorem token_wellFormed {inputs : List Bytes} {tokens : List (PoprfBlindState G × BlindedElement G)}
    (htokens : List.Forall₂ (Token S sk info) inputs tokens) :
    (∀ b ∈ tokens.map Prod.snd, b.point ≠ 0) ∧
      ∀ st ∈ tokens.map Prod.fst, st.tweakedKey = S.tweakedKey (sk • S.basepoint) info ∧
        st.tweakedKey ≠ 0 := by
  induction htokens with
  | nil => simp
  | cons htoken _ ih =>
    obtain ⟨blind, hblind, hadm, rfl⟩ := htoken.spec
    refine ⟨List.forall_mem_cons.mpr ⟨?_, ih.1⟩, List.forall_mem_cons.mpr ⟨⟨rfl, ?_⟩, ih.2⟩⟩
    · exact smul_ne_zero hblind hadm.inputElement_ne_zero
    · exact hadm.tweakedKey_ne_zero

/-- The outputs of a batch are the offline evaluations of its inputs, in order. -/
theorem batchOutputs_issue (client : PoprfClient G) {inputs : List Bytes}
    {tokens : List (PoprfBlindState G × BlindedElement G)}
    (htokens : List.Forall₂ (Token S sk info) inputs tokens) :
    List.Forall₂ (fun input out => (PoprfServer.mk ⟨sk⟩).evaluate S input info = .ok out) inputs
      (client.batchOutputs S inputs (tokens.map Prod.fst)
        (PoprfServer.issue (sk + S.tweak info) (tokens.map Prod.snd)) info) := by
  induction htokens with
  | nil => exact List.Forall₂.nil
  | cons htoken _ ih =>
    obtain ⟨blind, hblind, hadm, rfl⟩ := htoken.spec
    refine List.Forall₂.cons ?_ ih
    refine (PoprfServer.evaluate_eq_ok_iff S _).mpr ⟨hadm, ?_⟩
    exact unblindAndHash_issued S client hblind _

/-- A client accepts the answer that the server's body gives to its batch. -/
theorem finalizeBatch_issue (F F' : Features) (client : PoprfClient G) {inputs : List Bytes}
    (hne : inputs ≠ []) {tokens : List (PoprfBlindState G × BlindedElement G)}
    (htokens : List.Forall₂ (Token S sk info) inputs tokens) (r : Scalar) :
    client.finalizeBatch S F inputs (tokens.map Prod.fst)
        (PoprfServer.issue (sk + S.tweak info) (tokens.map Prod.snd)) (tokens.map Prod.snd)
        (S.generateProofWithR F' (sk + S.tweak info) S.basepoint
          ((sk + S.tweak info) • S.basepoint)
          ((PoprfServer.issue (sk + S.tweak info) (tokens.map Prod.snd)).map (·.point))
          ((tokens.map Prod.snd).map (·.point)) r) info =
      .ok (client.batchOutputs S inputs (tokens.map Prod.fst)
        (PoprfServer.issue (sk + S.tweak info) (tokens.map Prod.snd)) info) := by
  have hlen := htokens.length_eq
  have hadm := token_admissible S htokens
  obtain ⟨input₀, hmem₀⟩ := List.exists_mem_of_ne_nil inputs hne
  refine (client.finalizeBatch_eq_ok_iff S F).mpr
    ⟨⟨(sk + S.tweak info) • S.basepoint, ⟨hne, ?_, ?_, ?_, (hadm _ hmem₀).info_le,
      fun input hmem => (hadm input hmem).input_le, ?_⟩, ?_⟩, rfl⟩
  · rw [List.length_map, hlen]
  · rw [PoprfServer.length_issue, List.length_map, hlen]
  · rw [List.length_map, hlen]
  · intro st hst
    rw [((token_wellFormed S htokens).2 st hst).1, S.tweakedKey_smul_basepoint]
  · exact S.verifyProof_generateProofWithR F' F _ _ _ _
      (PoprfServer.map_point_issue (hadm _ hmem₀).scalar_ne_zero _) r

/-- The server accepts a blinded batch and answers with a proof for some nonce. -/
theorem replyBatch_eq_ok (F : Features) {inputs : List Bytes} (hne : inputs ≠ [])
    {tokens : List (PoprfBlindState G × BlindedElement G)}
    (htokens : List.Forall₂ (Token S sk info) inputs tokens)
    {reply : List (BlindedElement G) → Except Error (List (EvaluatedElement G) × Proof)}
    (hreply : (PoprfServer.mk ⟨sk⟩).RepliesBatch S F info reply) :
    ∃ r, reply (tokens.map Prod.snd) =
      .ok (PoprfServer.issue (sk + S.tweak info) (tokens.map Prod.snd),
        S.generateProofWithR F (sk + S.tweak info) S.basepoint ((sk + S.tweak info) • S.basepoint)
          ((PoprfServer.issue (sk + S.tweak info) (tokens.map Prod.snd)).map (·.point))
          ((tokens.map Prod.snd).map (·.point)) r) := by
  obtain ⟨input₀, hmem₀⟩ := List.exists_mem_of_ne_nil inputs hne
  have hadm := token_admissible S htokens input₀ hmem₀
  have hne' : tokens.map Prod.snd ≠ [] := by
    rw [ne_eq, ← List.length_eq_zero_iff, List.length_map, ← htokens.length_eq,
      List.length_eq_zero_iff]
    exact hne
  obtain ⟨r, hr⟩ := hreply.spec (tokens.map Prod.snd)
  refine ⟨r, hr.trans ?_⟩
  exact PoprfServer.blindEvaluateBatchWithRInner_eq_ok S F _ hne' (token_wellFormed S htokens).1
    (PoprfServer.computeT_of_ne_zero S _ hadm.info_le hadm.scalar_ne_zero) r

/-- The server accepts a blinded element and answers with a proof for some nonce. -/
theorem reply_eq_ok (F : Features) {input : Bytes} {token : PoprfBlindState G × BlindedElement G}
    (htoken : Token S sk info input token)
    {reply : BlindedElement G → Except Error (EvaluatedElement G × Proof)}
    (hreply : (PoprfServer.mk ⟨sk⟩).Replies S F info reply) :
    ∃ r, reply token.2 = .ok (⟨(sk + S.tweak info)⁻¹ • token.2.point⟩,
      S.generateProofWithR F (sk + S.tweak info) S.basepoint ((sk + S.tweak info) • S.basepoint)
        [(sk + S.tweak info)⁻¹ • token.2.point] [token.2.point] r) := by
  obtain ⟨blind, hblind, hadm, rfl⟩ := htoken.spec
  obtain ⟨r, hr⟩ := hreply.spec ⟨blind • S.inputElement input⟩
  refine ⟨r, hr.trans ?_⟩
  exact PoprfServer.blindEvaluateWithRInner_eq_ok S F _
    (smul_ne_zero hblind hadm.inputElement_ne_zero)
    (PoprfServer.computeT_of_ne_zero S _ hadm.info_le hadm.scalar_ne_zero) r

/-- An exchange of a blinded batch succeeds with the offline evaluations of its inputs. -/
theorem exchangeBatch_eq_ok (F F' : Features) {inputs : List Bytes} (hne : inputs ≠ [])
    {tokens : List (PoprfBlindState G × BlindedElement G)}
    (htokens : List.Forall₂ (Token S sk info) inputs tokens)
    {reply : List (BlindedElement G) → Except Error (List (EvaluatedElement G) × Proof)}
    (hreply : (PoprfServer.mk ⟨sk⟩).RepliesBatch S F' info reply) (client : PoprfClient G) :
    exchangeBatch S F client reply inputs tokens info =
      .ok (client.batchOutputs S inputs (tokens.map Prod.fst)
        (PoprfServer.issue (sk + S.tweak info) (tokens.map Prod.snd)) info) := by
  obtain ⟨hblinded, hstates⟩ := token_wellFormed S htokens
  obtain ⟨input₀, hmem₀⟩ := List.exists_mem_of_ne_nil inputs hne
  have hadm := token_admissible S htokens input₀ hmem₀
  have ht := hadm.scalar_ne_zero
  -- nothing that is sent is the identity, so that all of it survives the wire
  have hissued : ∀ e ∈ PoprfServer.issue (sk + S.tweak info) (tokens.map Prod.snd),
      e.resend S = .ok e := by
    intro e he
    obtain ⟨b, hb, rfl⟩ := List.mem_map.mp he
    exact EvaluatedElement.resend_eq S (smul_ne_zero (inv_ne_zero ht) (hblinded b hb))
  obtain ⟨r, hr⟩ := replyBatch_eq_ok S F' hne htokens hreply
  unfold exchangeBatch
  rw [mapM_resend_eq fun b hb => BlindedElement.resend_eq S (hblinded b hb), ok_bind,
    mapM_resend_eq fun st hst => PoprfBlindState.resend_eq S (hstates st hst).2, ok_bind, hr,
    ok_bind]
  show ((PoprfServer.issue _ _).mapM _ >>= fun evaluated => _) = _
  rw [mapM_resend_eq hissued, ok_bind, Proof.resend_eq, ok_bind]
  exact finalizeBatch_issue S F F' client hne htokens r

/-- An exchange of a single token succeeds with the offline evaluation of its input. -/
theorem exchange_eq_ok (F F' : Features) {input : Bytes}
    {token : PoprfBlindState G × BlindedElement G} (htoken : Token S sk info input token)
    {reply : BlindedElement G → Except Error (EvaluatedElement G × Proof)}
    (hreply : (PoprfServer.mk ⟨sk⟩).Replies S F' info reply) (client : PoprfClient G) :
    exchange S F client reply input token info = .ok (S.prf sk input info) := by
  obtain ⟨r, hr⟩ := reply_eq_ok S F' htoken hreply
  obtain ⟨blind, hblind, hadm, rfl⟩ := htoken.spec
  have ht := hadm.scalar_ne_zero
  have hpoint : blind • S.inputElement input ≠ 0 := smul_ne_zero hblind hadm.inputElement_ne_zero
  unfold exchange
  rw [BlindedElement.resend_eq S hpoint, ok_bind,
    PoprfBlindState.resend_eq S hadm.tweakedKey_ne_zero, ok_bind, hr, ok_bind]
  show (EvaluatedElement.resend S ⟨_⟩ >>= fun evaluated => _) = _
  rw [EvaluatedElement.resend_eq S (smul_ne_zero (inv_ne_zero ht) hpoint), ok_bind,
    Proof.resend_eq, ok_bind, client.finalize_eq_ok_iff]
  refine ⟨hadm.input_le, hadm.info_le, ?_, (unblindAndHash_issued S client hblind _).symm⟩
  show S.verifyProof F S.basepoint (S.tweakedKey (sk • S.basepoint) info) _ _ _ = .ok ()
  rw [S.tweakedKey_smul_basepoint]
  exact S.verifyProof_generateProofWithR F' F _ _ _ _ (by rw [List.map_singleton,
    smul_inv_smul₀ ht]) r

end Correctness

/-- Over the wire, every exchange with the server of a nonzero key succeeds, for batches of every
size and for single tokens, and its outputs are the server's own evaluations in order. -/
theorem exchange_correct (S : Suite G) (F F' : Features) (sk : SecretKey) (_hsk : sk.scalar ≠ 0)
    (info : Bytes) :
    let server := PoprfServer.new sk
    let client := PoprfClient.new (server.publicKey S)
    (∀ (inputs : List Bytes) (tokens : List (PoprfBlindState G × BlindedElement G)),
      inputs ≠ [] → inputs.length ≤ 65536 →
      List.Forall₂ (fun input token => client.Blinds S input info (.ok token)) inputs tokens →
      ∀ reply, server.RepliesBatch S F' info reply →
      ∃ outs, exchangeBatch S F client reply inputs tokens info = .ok outs ∧
        outs.length = inputs.length ∧
        List.Forall₂ (fun input out => server.evaluate S input info = .ok out) inputs outs) ∧
    (∀ (input : Bytes) (token : PoprfBlindState G × BlindedElement G),
      client.Blinds S input info (.ok token) →
      ∀ reply, server.Replies S F' info reply →
      ∃ out, exchange S F client reply input token info = .ok out ∧
        server.evaluate S input info = .ok out) := by
  intro server client
  refine ⟨?_, ?_⟩
  · intro inputs tokens hne _ htokens reply hreply
    have houts := batchOutputs_issue S client htokens
    exact ⟨_, exchangeBatch_eq_ok S F F' hne htokens hreply client, houts.length_eq.symm, houts⟩
  · intro input token htoken reply hreply
    obtain ⟨-, -, hadm, -⟩ := htoken.spec
    exact ⟨_, exchange_eq_ok S F F' htoken hreply client,
      (PoprfServer.evaluate_eq_ok_iff S server).mpr ⟨hadm, rfl⟩⟩

/-- Two tokens on the executable suite. -/
theorem exchange_correct_reference :
    let server := PoprfServer.new ⟨5⟩
    let client := PoprfClient.new (server.publicKey referenceSuite)
    let token := fun input =>
      ((⟨7, referenceSuite.tweakedKey client.pk [1]⟩, ⟨(7 : Scalar) • referenceSuite.inputElement input⟩) :
        PoprfBlindState Scalar × BlindedElement Scalar)
    let reply := fun blinded => server.blindEvaluateBatchWithProofScalar referenceSuite
      ⟨false, true⟩ blinded [1] (referenceSuite.serializeScalarArray 11)
    ∃ outs, exchangeBatch referenceSuite ⟨true, false⟩ client reply [[2], [3]]
        [token [2], token [3]] [1] = .ok outs ∧ outs.length = 2 ∧
      List.Forall₂ (fun input out => server.evaluate referenceSuite input [1] = .ok out)
        [[2], [3]] outs := by
  intro server client token reply
  refine (exchange_correct referenceSuite ⟨true, false⟩ ⟨false, true⟩ ⟨5⟩ (by decide +kernel) [1]).1
    [[2], [3]] [token [2], token [3]] (List.cons_ne_nil _ _) (by decide) ?_ reply
    (.proofScalar 11 fun _ => rfl)
  refine .cons (.of_admissible ?_ (by decide +kernel)) (.cons (.of_admissible ?_ (by decide +kernel))
    .nil)
  · exact ⟨by decide, by decide, by decide +kernel, by decide +kernel⟩
  · exact ⟨by decide, by decide, by decide +kernel, by decide +kernel⟩

end PoprfRistretto
