import PoprfRistretto.Protocol.World

/-!
# What the network learns

The network sees the messages of the clients, everything the servers receive and send, and of each
finalization which tokens and which answer it was for and whether it succeeded, with the error if it
did not. None of this depends on the inputs: whatever the network does, and however its actions depend
on what it saw, the same view arises from any other admissible inputs, for exactly one choice of the
blinds.
-/

namespace PoprfRistretto.Protocol

open ExceptLoop Blinding

variable {G : Type} [AddCommGroup G] [Module Scalar G] [DecidableEq G]

/-- What is visible of a finalization. -/
structure Verdict (G : Type) where
  client : PoprfClient G
  info : Bytes
  tokens : List ℕ
  evaluated : List Bytes
  proof : Bytes
  result : Except Error Unit

/-- What is visible of a world. -/
structure View (G : Type) where
  sent : List (PoprfClient G × Bytes × BytesN BlindedElement.LEN)
  replies : List Reply
  verdicts : List (Verdict G)

/-- What is visible of a request. -/
def Request.sent (req : Request G) : PoprfClient G × Bytes × BytesN BlindedElement.LEN :=
  (req.client, req.info, req.message)

/-- What is visible of an outcome. -/
def Outcome.verdict (o : Outcome G) : Verdict G :=
  { client := o.client
    info := o.info
    tokens := o.tokens
    evaluated := o.evaluated
    proof := o.proof
    result := o.result.map fun _ => () }

/-- What the network sees. -/
def World.view (w : World G) : View G :=
  { sent := w.requests.map Request.sent
    replies := w.replies
    verdicts := w.outcomes.map Outcome.verdict }

/-- Two actions that differ at most in the input and the blind of a client. -/
inductive Action.SamePublic : Action G → Action G → Prop
  | blind {client : PoprfClient G} {info input input' : Bytes} {b b' : Scalarˣ} :
      SamePublic (.blind client info input b) (.blind client info input' b')
  | serve {F : Features} {server : PoprfServer} {messages : List Bytes} {info : Bytes}
      {nonce : Scalar} :
      SamePublic (.serve F server messages info nonce) (.serve F server messages info nonce)
  | finalize {F : Features} {client : PoprfClient G} {info : Bytes} {tokens : List ℕ}
      {evaluated : List Bytes} {proof : Bytes} :
      SamePublic (.finalize F client info tokens evaluated proof)
        (.finalize F client info tokens evaluated proof)

/-- The input that an action blinds. -/
def Action.input? : Action G → Option Bytes
  | .blind _ _ input _ => some input
  | _ => none

/-! ## One step of the view -/

section

omit [AddCommGroup G] [Module Scalar G] [DecidableEq G]

/-- Two views that are extended by what one request shows are equal when they were before. -/
theorem view_blind_eq_iff {w v : World G} {req req' : Request G} :
    ({ w with requests := w.requests ++ [req] } : World G).view =
        ({ v with requests := v.requests ++ [req'] } : World G).view ↔
      w.view = v.view ∧ req.sent = req'.sent := by
  simp only [World.view, View.mk.injEq, List.map_append, List.map_cons, List.map_nil,
    List.append_singleton_inj]
  tauto

/-- Two views that are extended by one reply are equal when they were before. -/
theorem view_serve_eq_iff {w v : World G} {reply reply' : Reply} :
    ({ w with replies := w.replies ++ [reply] } : World G).view =
        ({ v with replies := v.replies ++ [reply'] } : World G).view ↔
      w.view = v.view ∧ reply = reply' := by
  simp only [World.view, View.mk.injEq, List.append_singleton_inj]
  tauto

/-- Two views that are extended by what one outcome shows are equal when they were before. -/
theorem view_finalize_eq_iff {w v : World G} {o o' : Outcome G} :
    ({ w with outcomes := w.outcomes ++ [o] } : World G).view =
        ({ v with outcomes := v.outcomes ++ [o'] } : World G).view ↔
      w.view = v.view ∧ o.verdict = o'.verdict := by
  simp only [World.view, View.mk.injEq, List.map_append, List.map_cons, List.map_nil,
    List.append_singleton_inj]
  tauto

end

variable {S : Suite G}

/-! ## Verdicts -/

/-- Requests with the same messages are finalized with the same verdict. -/
theorem verdict_eq (F : Features) {client : PoprfClient G} {info : Bytes}
    {requests requests' : List (Request G)} {blinds blinds' : List Scalarˣ}
    (h : Made S client info requests blinds) (h' : Made S client info requests' blinds')
    (hsent : requests.map (·.message) = requests'.map (·.message)) (evaluated : List Bytes)
    (proof : Bytes) :
    (finalize S F client info requests evaluated proof).map (fun _ => ()) =
      (finalize S F client info requests' evaluated proof).map (fun _ => ()) := by
  have hparse : ∀ requests : List (Request G),
      requests.mapM (fun req => BlindedElement.fromBytes S req.message.toList) =
        (requests.map (·.message)).mapM fun message => BlindedElement.fromBytes S message.toList := by
    intro requests
    rw [List.mapM_map]
    rfl
  have hmk : Function.Injective (BlindedElement.mk : G → BlindedElement G) := fun _ _ h =>
    congrArg BlindedElement.point h
  -- the messages were made from the points, and are read back as them
  have hpoints : points S requests blinds = points S requests' blinds' := by
    have hok := h.mapM_message
    rw [hparse, hsent, ← hparse, h'.mapM_message] at hok
    exact (hmk.list_map (Except.ok.inj hok)).symm
  have hlen : requests.length = requests'.length := by
    simpa using congrArg List.length hsent
  have hnil : requests = [] ↔ requests' = [] := by
    rw [← List.length_eq_zero_iff, hlen, List.length_eq_zero_iff]
  -- the check of the proof reads the points only, and not how they were blinded
  rw [finalize_eq F h, finalize_eq F h', map_bind, map_bind]
  refine bind_congr fun evaluated => ?_
  rw [map_bind, map_bind]
  refine bind_congr fun proof => ?_
  simp only [hnil, hlen, hpoints]
  split
  · rfl
  · rw [map_bind, map_bind]
    rfl

omit [AddCommGroup G] [Module Scalar G] [DecidableEq G] in
/-- Worlds with the same messages pick requests with the same messages. -/
theorem World.Picks.transfer {w v : World G} (hsent : v.requests.map Request.sent =
    w.requests.map Request.sent) {client : PoprfClient G} {info : Bytes} {tokens : List ℕ}
    {requests : List (Request G)} (h : w.Picks client info tokens requests) :
    ∃ requests', v.Picks client info tokens requests' ∧
      requests'.map (·.message) = requests.map (·.message) := by
  induction h with
  | nil => exact ⟨[], .nil, rfl⟩
  | @cons i req tokens requests hpick _ ih =>
    obtain ⟨requests', hpicks', hmessages⟩ := ih
    obtain ⟨hreq, hclient, hinfo⟩ := hpick
    have hget := congrArg (·[i]?) hsent
    simp only [List.getElem?_map, hreq, Option.map_some, Option.map_eq_some_iff] at hget
    obtain ⟨req', hreq', hsame⟩ := hget
    simp only [Request.sent, Prod.mk.injEq] at hsame
    obtain ⟨hclient', hinfo', hmessage⟩ := hsame
    exact ⟨req' :: requests', .cons ⟨hreq', hclient'.trans hclient, hinfo'.trans hinfo⟩ hpicks',
      by rw [List.map_cons, List.map_cons, hmessage, hmessages]⟩

omit [DecidableEq G] in
/-- The blind of a request is determined by the input and the message. -/
theorem Request.MadeWith.blind_unique {req req' : Request G} {b b' : Scalarˣ}
    (h : req.MadeWith S b) (h' : req'.MadeWith S b') (hinput : req.input = req'.input)
    (hmessage : req.message = req'.message) : b = b' := by
  rw [h.message, h'.message, ← hinput] at hmessage
  have hpoint : (b : Scalar) • S.inputElement req.input = (b' : Scalar) • S.inputElement req.input :=
    S.compress_injective hmessage
  exact Units.ext (smul_left_injective Scalar h.admissible.inputElement_ne_zero hpoint)

/-! ## The other run -/

/-- A run of other inputs with the same view exists. -/
theorem exists_same_view {actions : List (Action G)} {w : World G} (h : Reached S actions w)
    {inputs : List Bytes}
    (hadm : List.Forall₂ (fun req input => S.Admissible req.client.pk input req.info) w.requests
      inputs) :
    ∃ actions' w', List.Forall₂ Action.SamePublic actions actions' ∧
      actions'.filterMap Action.input? = inputs ∧ Reached S actions' w' ∧ w'.view = w.view := by
  induction h generalizing inputs with
  | refl =>
    cases hadm
    exact ⟨[], .start, .nil, rfl, .refl, rfl⟩
  | @snoc actions w w' action prior step ih =>
    cases step with
    | @blind client info input b req hblind =>
      obtain ⟨inputs, input', hadms, hadm', rfl⟩ := forall₂_concat_left_iff.mp hadm
      obtain ⟨actions', v, hpublic, hinputs, hrun, hview⟩ := ih hadms
      obtain ⟨rfl, rfl, rfl, hmade⟩ := (blind_eq_ok_iff S).mp hblind
      -- one nonzero blind carries the other input to the element that was sent
      obtain ⟨r, hr⟩ := exists_ratio S.basepoint_generates hmade.admissible.inputElement_ne_zero
        hadm'.inputElement_ne_zero
      have hpoint : (b : Scalar) • S.inputElement req.input =
          ((b * r : Scalarˣ) : Scalar) • S.inputElement input' := by
        rw [Units.val_mul, mul_smul, ← hr]
      let req' : Request G := ⟨req.client, input', req.info,
        (⟨(b * r : Scalarˣ), S.tweakedKey req.client.pk req.info⟩ : PoprfBlindState G).toBytes S,
        (⟨((b * r : Scalarˣ) : Scalar) • S.inputElement input'⟩ : BlindedElement G).toBytes S⟩
      have hmessage : req'.message = req.message := by
        rw [hmade.message, hpoint]
      have hblind' : Protocol.blind S req.client input' req.info (b * r) = .ok req' :=
        (blind_eq_ok_iff S).mpr ⟨rfl, rfl, rfl, hadm', rfl, rfl⟩
      refine ⟨actions' ++ [.blind req.client req.info input' (b * r)],
        { v with requests := v.requests ++ [req'] }, List.rel_append hpublic (.cons .blind .nil),
        ?_, .snoc hrun (.blind hblind'), ?_⟩
      · rw [List.filterMap_append, hinputs]
        rfl
      · exact view_blind_eq_iff.mpr ⟨hview, congrArg (req.client, req.info, ·) hmessage⟩
    | serve =>
      obtain ⟨actions', v, hpublic, hinputs, hrun, hview⟩ := ih hadm
      refine ⟨_, _, List.rel_append hpublic (.cons .serve .nil), ?_, .snoc hrun .serve, ?_⟩
      · rw [List.filterMap_append, hinputs]
        exact List.append_nil inputs
      · exact view_serve_eq_iff.mpr ⟨hview, rfl⟩
    | finalize hpicks =>
      obtain ⟨actions', v, hpublic, hinputs, hrun, hview⟩ := ih hadm
      obtain ⟨requests', hpicks', hmessages⟩ := hpicks.transfer (congrArg View.sent hview)
      refine ⟨_, _, List.rel_append hpublic (.cons .finalize .nil), ?_,
        .snoc hrun (.finalize hpicks'), ?_⟩
      · rw [List.filterMap_append, hinputs]
        exact List.append_nil inputs
      · obtain ⟨blinds, hmade⟩ := hpicks.made S (Reached.sound S prior).made
        obtain ⟨blinds', hmade'⟩ := hpicks'.made S (Reached.sound S hrun).made
        refine view_finalize_eq_iff.mpr ⟨hview, ?_⟩
        simp only [Outcome.verdict, Verdict.mk.injEq, true_and]
        exact verdict_eq _ hmade' hmade hmessages _ _

omit [AddCommGroup G] [Module Scalar G] [DecidableEq G] in
/-- Two lists of actions with the public actions of a third have each other's. -/
theorem samePublic_of_both {actions actions₁ actions₂ : List (Action G)}
    (h₁ : List.Forall₂ Action.SamePublic actions actions₁)
    (h₂ : List.Forall₂ Action.SamePublic actions actions₂) :
    List.Forall₂ Action.SamePublic actions₁ actions₂ := by
  induction h₁ generalizing actions₂ with
  | nil =>
    cases h₂
    exact .nil
  | cons hfirst _ ih =>
    obtain ⟨action₂, actions₂, hsecond, hrest, rfl⟩ := List.forall₂_cons_left_iff.mp h₂
    refine .cons ?_ (ih hrest)
    cases hfirst <;> cases hsecond <;> constructor

/-- Two runs with the same public actions, inputs and view have the same blinds. -/
theorem actions_eq_of_view_eq {actions actions' : List (Action G)} {w w' : World G}
    (h : Reached S actions w) (h' : Reached S actions' w')
    (hpublic : List.Forall₂ Action.SamePublic actions actions')
    (hinputs : actions.filterMap Action.input? = actions'.filterMap Action.input?)
    (hview : w.view = w'.view) : actions = actions' := by
  induction h generalizing actions' w' with
  | refl =>
    cases hpublic
    rfl
  | @snoc actions w w₁ action prior step ih =>
    obtain ⟨actions', action', hpublics, hlast, rfl⟩ := forall₂_concat_left_iff.mp hpublic
    obtain ⟨v, prior', step'⟩ := run_snoc_iff.mp h'
    rw [List.filterMap_append, List.filterMap_append] at hinputs
    cases hlast with
    -- the element that was sent fixes the blind, since the input is the same
    | @blind client info input input' b b' =>
      obtain ⟨hrest, hinput⟩ := List.append_inj' hinputs rfl
      obtain rfl : input = input' := List.singleton_inj.mp hinput
      cases step with
      | blind hblind =>
      cases step' with
      | blind hblind' =>
      obtain ⟨hview, hsent⟩ := view_blind_eq_iff.mp hview
      obtain rfl := ih prior' hpublics hrest hview
      obtain ⟨rfl, rfl, rfl, hmade⟩ := (blind_eq_ok_iff S).mp hblind
      obtain ⟨-, hinput', -, hmade'⟩ := (blind_eq_ok_iff S).mp hblind'
      obtain rfl := hmade.blind_unique hmade' hinput'.symm (congrArg (·.2.2) hsent)
      rfl
    | serve =>
      cases step with
      | serve =>
      cases step' with
      | serve =>
      obtain ⟨hview, -⟩ := view_serve_eq_iff.mp hview
      rw [ih prior' hpublics (by simpa using hinputs) hview]
    | finalize =>
      cases step with
      | finalize =>
      cases step' with
      | finalize =>
      obtain ⟨hview, -⟩ := view_finalize_eq_iff.mp hview
      rw [ih prior' hpublics (by simpa using hinputs) hview]

/-- For every run and any other admissible inputs of its clients there is exactly one choice of blinds
for which the same actions of the network and the servers show the same. -/
theorem view_oblivious (S : Suite G) {actions : List (Action G)} {w : World G}
    (h : Reached S actions w) {inputs : List Bytes}
    (hadm : List.Forall₂ (fun req input => S.Admissible req.client.pk input req.info) w.requests
      inputs) :
    ∃! actions', List.Forall₂ Action.SamePublic actions actions' ∧
      actions'.filterMap Action.input? = inputs ∧
      ∃ w', Reached S actions' w' ∧ w'.view = w.view := by
  obtain ⟨actions', w', hpublic, hinputs, hrun, hview⟩ := exists_same_view h hadm
  refine ⟨actions', ⟨hpublic, hinputs, w', hrun, hview⟩, ?_⟩
  rintro actions'' ⟨hpublic', hinputs', w'', hrun', hview'⟩
  refine actions_eq_of_view_eq hrun' hrun ?_ (hinputs'.trans hinputs.symm)
    (hview'.trans hview.symm)
  exact samePublic_of_both hpublic' hpublic

/-- An exchange on the executable suite looks the same for another input. -/
theorem view_oblivious_reference :
    ∃ (actions : List (Action Scalar)) (w : World Scalar), actions.length = 3 ∧
      actions.filterMap Action.input? = [[2]] ∧ Reached referenceSuite actions w ∧
      ∃! actions', List.Forall₂ Action.SamePublic actions actions' ∧
        actions'.filterMap Action.input? = [[3]] ∧
        ∃ w', Reached referenceSuite actions' w' ∧ w'.view = w.view := by
  have hadm : referenceSuite.Admissible ((5 : Scalar) • referenceSuite.basepoint) [2] [1] :=
    ⟨by decide, by decide, by decide +kernel, by decide +kernel⟩
  have hadm' : referenceSuite.Admissible ((5 : Scalar) • referenceSuite.basepoint) [3] [1] :=
    ⟨by decide, by decide, by decide +kernel, by decide +kernel⟩
  obtain ⟨req, answer, outs, ⟨hclient, -, hinfo⟩, hrun⟩ := exists_reached_exchange referenceSuite
    ⟨true, true⟩ ⟨false, false⟩ hadm (Units.mk0 7 (by decide +kernel)) 11
  refine ⟨_, _, rfl, rfl, hrun, view_oblivious referenceSuite hrun (.cons ?_ .nil)⟩
  rw [hclient, hinfo]
  exact hadm'

end PoprfRistretto.Protocol
