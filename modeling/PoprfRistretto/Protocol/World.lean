import PoprfRistretto.Protocol.Parties
import PoprfRistretto.DleqSoundness
import PoprfRistretto.Library.Run

/-!
# Interleaved runs of the protocol

Any number of clients and servers, of any keys and builds, act in any order over a network that an
adversary controls: it hands a server any byte strings, and it hands a client any byte strings as the
answer to any of its stored requests, once, several times or never. What has happened is recorded in a
`World`.

* `outcome_agrees` — whatever a client accepts is the server's own evaluation of the client's inputs
  under the secret key that belongs to the client's public key, unless the answer carries a proof for
  which a hash hit the one scalar that hides a wrong element.
* `reply_finalizes` — an answer of a server to a client's messages stays good in every later state: it
  finalizes to the server's own evaluations.
-/

namespace PoprfRistretto.Protocol

open ExceptLoop DiscreteLogEquality

variable {G : Type} [AddCommGroup G] [Module Scalar G] [DecidableEq G]

/-- What a server was asked and what it answered. -/
structure Reply where
  server : PoprfServer
  messages : List Bytes
  info : Bytes
  answer : Except Error Answer

/-- What a client finalized, with which answer, and the result. -/
structure Outcome (G : Type) where
  client : PoprfClient G
  info : Bytes
  tokens : List ℕ
  requests : List (Request G)
  evaluated : List Bytes
  proof : Bytes
  result : Except Error (List PoprfOutput)

/-- The requests that the clients have made, in order, and all replies and outcomes so far. -/
structure World (G : Type) where
  requests : List (Request G)
  replies : List Reply
  outcomes : List (Outcome G)

namespace World

/-- Nothing has happened. -/
def start : World G := ⟨[], [], []⟩

/-- `tokens` are the positions of `requests`, all made by one client for one `info`. -/
abbrev Picks (w : World G) (client : PoprfClient G) (info : Bytes) (tokens : List ℕ)
    (requests : List (Request G)) : Prop :=
  List.Forall₂ (fun i req => w.requests[i]? = some req ∧ req.client = client ∧ req.info = info)
    tokens requests

end World

/-- An action of a party. The evaluated elements and the proof of a client's action, and the messages
of a server's, are byte strings of the network's choice. -/
inductive Action (G : Type) where
  | blind (client : PoprfClient G) (info input : Bytes) (blind : Scalarˣ)
  | serve (F : Features) (server : PoprfServer) (messages : List Bytes) (info : Bytes)
      (nonce : Scalar)
  | finalize (F : Features) (client : PoprfClient G) (info : Bytes) (tokens : List ℕ)
      (evaluated : List Bytes) (proof : Bytes)

variable (S : Suite G)

/-- The steps of the world. -/
inductive Step : World G → Action G → World G → Prop
  | blind {w : World G} {client : PoprfClient G} {info input : Bytes} {b : Scalarˣ}
      {req : Request G} (h : blind S client input info b = .ok req) :
      Step w (.blind client info input b) { w with requests := w.requests ++ [req] }
  | serve {w : World G} {F : Features} {server : PoprfServer} {messages : List Bytes}
      {info : Bytes} {nonce : Scalar} :
      Step w (.serve F server messages info nonce)
        { w with replies := w.replies ++
          [⟨server, messages, info, serve S F server messages info nonce⟩] }
  | finalize {w : World G} {F : Features} {client : PoprfClient G} {info : Bytes} {tokens : List ℕ}
      {requests : List (Request G)} {evaluated : List Bytes} {proof : Bytes}
      (h : w.Picks client info tokens requests) :
      Step w (.finalize F client info tokens evaluated proof)
        { w with outcomes := w.outcomes ++ [⟨client, info, tokens, requests, evaluated, proof,
          finalize S F client info requests evaluated proof⟩] }

/-- A client can finalize the requests that it picks, with whatever result the call has. -/
theorem Step.finalize_of_eq {w : World G} {F : Features} {client : PoprfClient G} {info : Bytes}
    {tokens : List ℕ} {requests : List (Request G)} {evaluated : List Bytes} {proof : Bytes}
    (hpicks : w.Picks client info tokens requests) {result : Except Error (List PoprfOutput)}
    (h : Protocol.finalize S F client info requests evaluated proof = result) :
    Step S w (.finalize F client info tokens evaluated proof)
      { w with outcomes := w.outcomes ++
        [⟨client, info, tokens, requests, evaluated, proof, result⟩] } := by
  rw [← h]
  exact .finalize hpicks

/-- The runs from the empty world. -/
abbrev Reached (actions : List (Action G)) (w : World G) : Prop :=
  Run (Step S) .start actions w

/-! ## What holds in every state -/

/-- A reply is what the server computes, and an outcome what the client computes, from requests of
this world. -/
structure World.Sound (w : World G) : Prop where
  made : ∀ req ∈ w.requests, ∃ b, req.MadeWith S b
  served : ∀ reply ∈ w.replies, ∃ F nonce,
    reply.answer = serve S F reply.server reply.messages reply.info nonce
  finalized : ∀ o ∈ w.outcomes, w.Picks o.client o.info o.tokens o.requests ∧ ∃ F,
    o.result = finalize S F o.client o.info o.requests o.evaluated o.proof

omit [AddCommGroup G] [Module Scalar G] [DecidableEq G] in
/-- A picked request stays where it is. -/
theorem World.Picks.mono {w w' : World G} (hpre : w.requests <+: w'.requests)
    {client : PoprfClient G} {info : Bytes} {tokens : List ℕ} {requests : List (Request G)}
    (h : w.Picks client info tokens requests) : w'.Picks client info tokens requests := by
  refine h.imp fun i req hpick => ⟨?_, hpick.2⟩
  obtain ⟨hi, hreq⟩ := List.getElem?_eq_some_iff.mp hpick.1
  rw [List.prefix_iff_getElem?.mp hpre i hi, hreq]

omit [DecidableEq G] in
/-- The picked requests were made by the client for the `info`. -/
theorem World.Picks.made {w : World G} (hmade : ∀ req ∈ w.requests, ∃ b, req.MadeWith S b)
    {client : PoprfClient G} {info : Bytes} {tokens : List ℕ} {requests : List (Request G)}
    (h : w.Picks client info tokens requests) : ∃ blinds, Made S client info requests blinds := by
  induction h with
  | nil => exact ⟨[], .nil⟩
  | cons hpick _ ih =>
    obtain ⟨hreq, hclient, hinfo⟩ := hpick
    obtain ⟨b, hb⟩ := hmade _ (List.mem_of_getElem? hreq)
    obtain ⟨blinds, hblinds⟩ := ih
    exact ⟨b :: blinds, .cons ⟨hclient, hinfo, hb⟩ hblinds⟩

/-- Every step keeps the world sound. -/
theorem Step.sound {w w' : World G} {action : Action G} (hw : w.Sound S) (h : Step S w action w') :
    w'.Sound S := by
  cases h with
  | blind h =>
    obtain ⟨-, -, -, hmade⟩ := (blind_eq_ok_iff S).mp h
    refine ⟨List.forall_mem_append.mpr ⟨hw.made, List.forall_mem_singleton.mpr ⟨_, hmade⟩⟩,
      hw.served, fun o ho => ?_⟩
    obtain ⟨hpicks, hresult⟩ := hw.finalized o ho
    exact ⟨hpicks.mono (List.prefix_append _ _), hresult⟩
  | serve =>
    exact ⟨hw.made, List.forall_mem_append.mpr
      ⟨hw.served, List.forall_mem_singleton.mpr ⟨_, _, rfl⟩⟩, hw.finalized⟩
  | finalize h =>
    exact ⟨hw.made, hw.served, List.forall_mem_append.mpr
      ⟨hw.finalized, List.forall_mem_singleton.mpr ⟨h, _, rfl⟩⟩⟩

/-- Every reachable world is sound. -/
theorem Reached.sound {actions : List (Action G)} {w : World G} (h : Reached S actions w) :
    w.Sound S := by
  refine Run.history ?_ (fun hw step => step.sound S hw) h
  exact ⟨fun _ h => absurd h List.not_mem_nil, fun _ h => absurd h List.not_mem_nil,
    fun _ h => absurd h List.not_mem_nil⟩

/-! ## Agreement -/

omit [DecidableEq G] in
/-- The proof vouches for a list with a wrong element, and the weight of that element or the challenge
hit the one scalar that hides it. -/
def Forges (F : Features) (k : Scalar) (cList dList : List G) (proof : Proof) : Prop :=
  let b := k • S.basepoint
  let m := (S.computeComposites F b cList dList).1
  let z := (S.computeComposites F b cList dList).2
  ∃ (j : ℕ) (hc : j < cList.length) (hd : j < dList.length), dList[j] ≠ k • cList[j] ∧
    ((z = k • m ∧ S.WeightHits k b cList dList j
      (S.compositeDi (i2osp2 (S.compositeSeed b).length) (S.compositeSeed b) j (i2osp2 ELEMENT_LEN)
        cList[j] dList[j])) ∨
    (z ≠ k • m ∧ S.ChallengeHits S.basepoint b m z proof))

/-- The answer to the requests parses, and its proof is forged under the key `k • G`. -/
def ForgedAnswer (requests : List (Request G)) (evaluated : List Bytes) (proof : Bytes) (k : Scalar) :
    Prop :=
  ∃ F blindedElements evaluatedElements dleq,
    requests.mapM (fun req => BlindedElement.fromBytes S req.message.toList) = .ok blindedElements ∧
    evaluated.mapM (EvaluatedElement.fromBytes S) = .ok evaluatedElements ∧
    Proof.fromBytes S proof = .ok dleq ∧
    Forges S F k (evaluatedElements.map (·.point)) (blindedElements.map (·.point)) dleq

/-- The answer of an outcome is forged. -/
def Outcome.Forged (o : Outcome G) (k : Scalar) : Prop :=
  ForgedAnswer S o.requests o.evaluated o.proof k

omit [DecidableEq G] in
/-- An accepted proof vouches for a true list, or it is forged. -/
theorem eq_map_or_forges {F : Features} {k : Scalar} {cList dList : List G}
    (hlen : cList.length = dList.length) {proof : Proof}
    (hok : S.verifyProof F S.basepoint (k • S.basepoint) cList dList proof = .ok ()) :
    dList = cList.map (k • ·) ∨ Forges S F k cList dList proof := by
  by_cases hall : ∀ (i : ℕ) (hc : i < cList.length) (hd : i < dList.length),
      dList[i] = k • cList[i]
  · exact .inl (Suite.eq_map_smul hlen hall)
  · push Not at hall
    obtain ⟨j, hc, hd, hwrong⟩ := hall
    refine .inr ⟨j, hc, hd, hwrong, ?_⟩
    have hcomp := S.computeComposites_eq F (k • S.basepoint) hlen
    by_cases hz : (S.computeComposites F (k • S.basepoint) cList dList).2 =
        k • (S.computeComposites F (k • S.basepoint) cList dList).1
    · refine .inl ⟨hz, S.weightHits_of_composites hlen hc hd hwrong ?_⟩
      rwa [hcomp] at hz
    · exact .inr ⟨hz, S.challengeHits_of_composites hz (S.verifyProof_eq_ok_iff.mp hok)⟩

/-- Elements of which the blinded elements are the `t`-fold finalize to the evaluations under the
key. -/
theorem outputs_eval {sk : Scalar} {client : PoprfClient G} (hkey : sk • S.basepoint = client.pk)
    {info : Bytes} {requests : List (Request G)} {blinds : List Scalarˣ}
    (h : Made S client info requests blinds) {evaluated : List (EvaluatedElement G)}
    (htrue : points S requests blinds =
      (evaluated.map (·.point)).map ((sk + S.tweak info) • ·)) :
    List.Forall₂ (fun req out => (PoprfServer.mk ⟨sk⟩).evaluate S req.input info = .ok out) requests
      (outputs S client info requests blinds evaluated) := by
  induction h generalizing evaluated with
  | nil => exact .nil
  | @cons req b requests blinds hreq _ ih =>
    obtain ⟨hclient, hinfo, hmade⟩ := hreq
    have hadm : S.Admissible (sk • S.basepoint) req.input info := by
      rw [hkey, ← hclient, ← hinfo]
      exact hmade.admissible
    cases evaluated with
    | nil => exact absurd htrue (List.cons_ne_nil _ _)
    | cons e evaluated =>
      obtain ⟨hhead, hrest⟩ := List.cons.inj htrue
      have hpoint : (b : Scalar) • S.inputElement req.input = (sk + S.tweak info) • e.point := hhead
      -- the tweaked key is not zero, so that the evaluated element is determined
      have he : e = ⟨(sk + S.tweak info)⁻¹ • (b : Scalar) • S.inputElement req.input⟩ := by
        rw [hpoint, inv_smul_smul₀ hadm.scalar_ne_zero]
      refine .cons ((PoprfServer.evaluate_eq_ok_iff S _).mpr ⟨hadm, ?_⟩) (ih hrest)
      rw [he]
      exact unblindAndHash_issued S client b.ne_zero _

/-! ## Delivery -/

omit [DecidableEq G] in
/-- What a server of the key `sk` answers to requests. -/
def answerTo (F : Features) (sk : Scalar) (info : Bytes) (requests : List (Request G))
    (blinds : List Scalarˣ) (nonce : Scalar) : Answer :=
  let t := sk + S.tweak info
  let evaluated := PoprfServer.issue t ((points S requests blinds).map BlindedElement.mk)
  { evaluated := evaluated.map (·.toBytes S)
    proof := (S.generateProofWithR F t S.basepoint (t • S.basepoint) (evaluated.map (·.point))
      (points S requests blinds) nonce).toBytes S }

/-- A server of the key that the requests were made for answers them. -/
theorem serve_eq (F : Features) {sk : Scalar} {client : PoprfClient G}
    (hkey : sk • S.basepoint = client.pk) {info : Bytes} {requests : List (Request G)}
    {blinds : List Scalarˣ} (h : Made S client info requests blinds) (hne : requests ≠ [])
    (nonce : Scalar) :
    serve S F ⟨⟨sk⟩⟩ (requests.map (·.message.toList)) info nonce =
      .ok (answerTo S F sk info requests blinds nonce) := by
  have ht : sk + S.tweak info ≠ 0 := h.scalar_ne_zero hkey hne
  have hblinded : (points S requests blinds).map BlindedElement.mk ≠ [] := by
    rw [ne_eq, ← List.length_eq_zero_iff, List.length_map, h.length_points,
      List.length_eq_zero_iff]
    exact hne
  have hid : ∀ b ∈ (points S requests blinds).map BlindedElement.mk, b.point ≠ 0 :=
    List.forall_mem_map.mpr h.points_ne_zero
  have hpoints : ((points S requests blinds).map BlindedElement.mk).map (·.point) =
      points S requests blinds := by
    rw [List.map_map]
    exact List.map_id _
  unfold serve
  rw [List.mapM_map]
  show (requests.mapM fun req => BlindedElement.fromBytes S req.message.toList) >>= _ = _
  rw [h.mapM_message, ok_bind, PoprfServer.blindEvaluateBatchWithProofScalar_eq,
    PoprfServer.blindEvaluateBatchWithRInner_eq_ok S F _ hblinded hid
      (PoprfServer.computeT_of_ne_zero S _ (h.info_le hne) ht), ok_bind, hpoints]
  rfl

/-- What a server of the client's key answers finalizes to the evaluations under the key. -/
theorem finalize_serve (F F' : Features) {sk : Scalar} {client : PoprfClient G}
    (hkey : sk • S.basepoint = client.pk) {info : Bytes} {requests : List (Request G)}
    {blinds : List Scalarˣ} (h : Made S client info requests blinds) (hne : requests ≠ [])
    (nonce : Scalar) :
    let answer := answerTo S F' sk info requests blinds nonce
    ∃ outs, finalize S F client info requests (answer.evaluated.map (·.toList))
        answer.proof.toList = .ok outs ∧
      List.Forall₂ (fun req out => (PoprfServer.mk ⟨sk⟩).evaluate S req.input info = .ok out)
        requests outs := by
  let t := sk + S.tweak info
  let evaluated := PoprfServer.issue t ((points S requests blinds).map BlindedElement.mk)
  have ht : t ≠ 0 := h.scalar_ne_zero hkey hne
  -- the server has multiplied every element by the inverse of its key
  have htrue : points S requests blinds = (evaluated.map (·.point)).map (t • ·) := by
    rw [← PoprfServer.map_point_issue ht, List.map_map]
    exact (List.map_id _).symm
  -- no evaluated element is the identity, so that they all survive the wire
  have hparsed : ((evaluated.map (·.toBytes S)).map (·.toList)).mapM (EvaluatedElement.fromBytes S) =
      .ok evaluated := by
    rw [List.map_map, List.mapM_map]
    refine mapM_resend_eq fun e he => EvaluatedElement.resend_eq S ?_
    obtain ⟨b, hb, rfl⟩ := List.mem_map.mp he
    obtain ⟨P, hP, rfl⟩ := List.mem_map.mp hb
    exact smul_ne_zero (inv_ne_zero ht) (h.points_ne_zero P hP)
  have hlen : requests.length = evaluated.length := by
    rw [PoprfServer.length_issue, List.length_map, h.length_points]
  refine ⟨_, ?_, outputs_eval S hkey h htrue⟩
  -- an honest proof verifies in the build of the client
  rw [finalize_eq F h, show (answerTo S F' sk info requests blinds nonce).evaluated =
    evaluated.map (·.toBytes S) from rfl, hparsed, ok_bind]
  show Proof.resend S _ >>= _ = _
  rw [Proof.resend_eq, ok_bind, if_neg (by tauto), ← hkey, S.tweakedKey_smul_basepoint,
    S.verifyProof_generateProofWithR F' F t S.basepoint _ _ htrue nonce]
  rfl

/-- A client blinds an input, a server of its key answers, and the client finalizes the answer. -/
theorem exists_reached_exchange (F F' : Features) {sk : Scalar} {input info : Bytes}
    (hadm : S.Admissible (sk • S.basepoint) input info) (b : Scalarˣ) (nonce : Scalar) :
    let client := PoprfClient.mk (sk • S.basepoint)
    ∃ (req : Request G) (answer : Answer) (outs : List PoprfOutput),
      (req.client = client ∧ req.input = input ∧ req.info = info) ∧
      Reached S [.blind client info input b, .serve F' ⟨⟨sk⟩⟩ [req.message.toList] info nonce,
          .finalize F client info [0] (answer.evaluated.map (·.toList)) answer.proof.toList]
        ⟨[req], [⟨⟨⟨sk⟩⟩, [req.message.toList], info, .ok answer⟩],
          [⟨client, info, [0], [req], answer.evaluated.map (·.toList), answer.proof.toList,
            .ok outs⟩]⟩ := by
  intro client
  let req : Request G := ⟨client, input, info,
    (⟨b, S.tweakedKey client.pk info⟩ : PoprfBlindState G).toBytes S,
    (⟨(b : Scalar) • S.inputElement input⟩ : BlindedElement G).toBytes S⟩
  have hmade : Made S client info [req] [b] := .cons ⟨rfl, rfl, hadm, rfl, rfl⟩ .nil
  obtain ⟨outs, hfinalize, -⟩ := finalize_serve S F F' rfl hmade (List.cons_ne_nil _ _) nonce
  have hserve := serve_eq S F' rfl hmade (List.cons_ne_nil _ _) nonce
  refine ⟨req, answerTo S F' sk info [req] [b] nonce, outs, ⟨rfl, rfl, rfl⟩, ?_⟩
  -- one step after the other: blind, serve, finalize
  have hrun₁ : Reached S [.blind client info input b] ⟨[req], [], []⟩ :=
    .snoc .refl (.blind ((blind_eq_ok_iff S).mpr ⟨rfl, rfl, rfl, hadm, rfl, rfl⟩))
  have hrun₂ : Reached S [.blind client info input b,
      .serve F' ⟨⟨sk⟩⟩ [req.message.toList] info nonce]
      ⟨[req], [⟨⟨⟨sk⟩⟩, [req.message.toList], info,
        .ok (answerTo S F' sk info [req] [b] nonce)⟩], []⟩ := by
    rw [← hserve]
    exact .snoc hrun₁ .serve
  exact .snoc hrun₂ (.finalize_of_eq S (.cons ⟨List.getElem?_cons_zero, rfl, rfl⟩ .nil) hfinalize)

/-- An accepted batch holds the server's own evaluations, or the answer was forged. -/
theorem finalize_agrees {F : Features} {client : PoprfClient G} {info : Bytes}
    {requests : List (Request G)} {blinds : List Scalarˣ} (hmade : Made S client info requests blinds)
    {evaluated : List Bytes} {proof : Bytes} {outs : List PoprfOutput}
    (hok : finalize S F client info requests evaluated proof = .ok outs) {sk : Scalar}
    (hkey : sk • S.basepoint = client.pk) :
    List.Forall₂ (fun req out => (PoprfServer.mk ⟨sk⟩).evaluate S req.input info = .ok out)
        requests outs ∨
      ForgedAnswer S requests evaluated proof (sk + S.tweak info) := by
  rw [finalize_eq F hmade, bind_eq_ok_iff] at hok
  obtain ⟨evaluated, hevaluated, hok⟩ := hok
  obtain ⟨proof, hproof, hok⟩ := bind_eq_ok_iff.mp hok
  split_ifs at hok with hlen
  push Not at hlen
  obtain ⟨hverified, houts⟩ := check_bind_eq_ok_iff.mp hok
  obtain rfl := Except.ok.inj houts
  rw [← hkey, S.tweakedKey_smul_basepoint] at hverified
  have hpoints := hmade.length_points
  rcases eq_map_or_forges S (by rw [List.length_map, hpoints, hlen.2]) hverified with htrue | hforged
  · exact .inl (outputs_eval S hkey hmade htrue)
  · refine .inr ⟨F, _, evaluated, proof, hmade.mapM_message, hevaluated, hproof, ?_⟩
    rwa [List.map_map, show (fun b : BlindedElement G => b.point) ∘ BlindedElement.mk = id from rfl,
      List.map_id]

/-- In every reachable state, an accepted batch holds the server's own evaluations of the inputs that
the client blinded, under the secret key of the client's public key, or the answer was forged. -/
theorem outcome_agrees {actions : List (Action G)} {w : World G} (h : Reached S actions w)
    {o : Outcome G} (ho : o ∈ w.outcomes) {outs : List PoprfOutput} (hok : o.result = .ok outs)
    {sk : Scalar} (hkey : sk • S.basepoint = o.client.pk) :
    List.Forall₂ (fun req out => (PoprfServer.mk ⟨sk⟩).evaluate S req.input o.info = .ok out)
        o.requests outs ∨
      o.Forged S (sk + S.tweak o.info) := by
  have hw := h.sound S
  obtain ⟨hpicks, F, hresult⟩ := hw.finalized o ho
  obtain ⟨blinds, hmade⟩ := hpicks.made S hw.made
  rw [hresult] at hok
  exact finalize_agrees S hmade hok hkey

/-- The outcome of an exchange on the executable suite. -/
theorem outcome_agrees_reference :
    ∃ (actions : List (Action Scalar)) (w : World Scalar) (o : Outcome Scalar)
      (outs : List PoprfOutput), Reached referenceSuite actions w ∧ o ∈ w.outcomes ∧
      o.result = .ok outs ∧
      (List.Forall₂ (fun req out =>
          (PoprfServer.mk ⟨5⟩).evaluate referenceSuite req.input o.info = .ok out) o.requests outs ∨
        o.Forged referenceSuite (5 + referenceSuite.tweak o.info)) := by
  have hadm : referenceSuite.Admissible ((5 : Scalar) • referenceSuite.basepoint) [2] [1] :=
    ⟨by decide, by decide, by decide +kernel, by decide +kernel⟩
  obtain ⟨req, answer, outs, -, hrun⟩ := exists_reached_exchange referenceSuite ⟨true, true⟩
    ⟨false, false⟩ hadm (Units.mk0 7 (by decide +kernel)) 11
  exact ⟨_, _, _, outs, hrun, List.mem_singleton_self _, rfl,
    outcome_agrees referenceSuite hrun (List.mem_singleton_self _) rfl rfl⟩

/-- In every reachable state, whatever has happened since, an answer that a server of the client's key
gave to the messages of stored requests can be finalized by a client of any build, to the server's own
evaluations. -/
theorem reply_finalizes {actions : List (Action G)} {w : World G} (h : Reached S actions w)
    {client : PoprfClient G} {info : Bytes} {tokens : List ℕ} {requests : List (Request G)}
    (hpicks : w.Picks client info tokens requests) (hne : tokens ≠ []) {reply : Reply}
    (hreply : reply ∈ w.replies) (hkey : reply.server.publicKey S = client.publicKey)
    (hinfo : reply.info = info)
    (hmessages : reply.messages = requests.map (·.message.toList)) (F : Features) :
    ∃ answer outs, reply.answer = .ok answer ∧
      Step S w (.finalize F client info tokens (answer.evaluated.map (·.toList)) answer.proof.toList)
        { w with outcomes := w.outcomes ++ [⟨client, info, tokens, requests,
          answer.evaluated.map (·.toList), answer.proof.toList, .ok outs⟩] } ∧
      List.Forall₂ (fun req out => reply.server.evaluate S req.input info = .ok out) requests outs := by
  have hw := h.sound S
  obtain ⟨blinds, hmade⟩ := hpicks.made S hw.made
  obtain ⟨F', nonce, hanswer⟩ := hw.served reply hreply
  obtain ⟨⟨⟨sk⟩⟩, messages, info', answer⟩ := reply
  have hpk : sk • S.basepoint = client.pk := congrArg PublicKey.point hkey
  obtain rfl : info' = info := hinfo
  obtain rfl : messages = requests.map (·.message.toList) := hmessages
  have hnil : requests ≠ [] := by
    rw [ne_eq, ← List.length_eq_zero_iff, ← hpicks.length_eq, List.length_eq_zero_iff]
    exact hne
  obtain ⟨outs, hfinalize, houts⟩ := finalize_serve S F F' hpk hmade hnil nonce
  exact ⟨_, outs, hanswer.trans (serve_eq S F' hpk hmade hnil nonce),
    .finalize_of_eq S hpicks hfinalize, houts⟩

/-- The answer of an exchange on the executable suite, finalized once more by another build. -/
theorem reply_finalizes_reference :
    ∃ (actions : List (Action Scalar)) (w : World Scalar) (req : Request Scalar) (reply : Reply)
      (answer : Answer) (outs : List PoprfOutput), Reached referenceSuite actions w ∧
      w.outcomes ≠ [] ∧ reply.answer = .ok answer ∧
      Step referenceSuite w (.finalize ⟨false, true⟩ ⟨5⟩ [1] [0] (answer.evaluated.map (·.toList))
        answer.proof.toList)
        { w with outcomes := w.outcomes ++ [⟨⟨5⟩, [1], [0], [req],
          answer.evaluated.map (·.toList), answer.proof.toList, .ok outs⟩] } ∧
      List.Forall₂ (fun req out => reply.server.evaluate referenceSuite req.input [1] = .ok out)
        [req] outs := by
  have hkey : (5 : Scalar) • referenceSuite.basepoint = 5 := by decide +kernel
  have hadm : referenceSuite.Admissible ((5 : Scalar) • referenceSuite.basepoint) [2] [1] :=
    ⟨by decide, by decide, by decide +kernel, by decide +kernel⟩
  obtain ⟨req, answer, outs, ⟨hclient, -, hinfo⟩, hrun⟩ := exists_reached_exchange referenceSuite
    ⟨true, true⟩ ⟨false, false⟩ hadm (Units.mk0 7 (by decide +kernel)) 11
  rw [hkey] at hclient hrun
  have hpicks : ∀ replies outcomes,
      World.Picks ⟨[req], replies, outcomes⟩ ⟨5⟩ [1] [0] [req] := fun _ _ =>
    .cons ⟨rfl, hclient, hinfo⟩ .nil
  obtain ⟨answer', outs', hanswer, hstep, houts⟩ := reply_finalizes referenceSuite hrun
    (hpicks _ _) (List.cons_ne_nil _ _) (List.mem_singleton_self _) (congrArg PublicKey.mk hkey) rfl
    rfl ⟨false, true⟩
  exact ⟨_, _, req, _, answer', outs', hrun, List.cons_ne_nil _ _, hanswer, hstep, houts⟩

end PoprfRistretto.Protocol
