import PoprfRistretto.Poprf.Exchange

/-!
# Obliviousness

What a client sends hides what it blinds. For every batch of blinds of one list of inputs exactly one
batch of blinds of another list produces the same blinded elements, so that the server sees and
answers the same in both runs, and each run still ends with its own outputs.
-/

namespace PoprfRistretto

open ExceptLoop Blinding

variable {G : Type} [AddCommGroup G] [Module Scalar G] [DecidableEq G] (S : Suite G)

/-- Blind the inputs of a batch one by one, each with its own nonzero blind. -/
def PoprfClient.blindAll (client : PoprfClient G) {n : ℕ} (inputs : Fin n → Bytes) (info : Bytes)
    (blinds : Fin n → Scalarˣ) : Except Error (List (PoprfBlindState G × BlindedElement G)) :=
  (List.finRange n).mapM fun i =>
    client.blindWithScalar S (inputs i) info (S.serializeScalarArray (blinds i))

/-- The tokens of a batch. -/
def PoprfClient.tokens (client : PoprfClient G) {n : ℕ} (inputs : Fin n → Bytes) (info : Bytes)
    (blinds : Fin n → Scalarˣ) : List (PoprfBlindState G × BlindedElement G) :=
  (List.finRange n).map fun i =>
    (⟨blinds i, S.tweakedKey client.pk info⟩, ⟨(blinds i : Scalar) • S.inputElement (inputs i)⟩)

/-- On admissible inputs every batch of blinds yields its tokens. -/
theorem PoprfClient.blindAll_eq (client : PoprfClient G) {n : ℕ} {inputs : Fin n → Bytes}
    {info : Bytes} (h : ∀ i, S.Admissible client.pk (inputs i) info) (blinds : Fin n → Scalarˣ) :
    client.blindAll S inputs info blinds = .ok (client.tokens S inputs info blinds) := by
  refine mapM_eq_ok_map fun i _ => ?_
  rw [client.blindWithScalar_eq, client.blindWithInner_of_admissible S (h i)]

omit [DecidableEq G] in
/-- The blinded elements of two batches are equal when they are element by element. -/
theorem PoprfClient.map_snd_tokens_eq_iff (client : PoprfClient G) {n : ℕ} {xs ys : Fin n → Bytes}
    {info : Bytes} {b c : Fin n → Scalarˣ} :
    (client.tokens S xs info b).map Prod.snd = (client.tokens S ys info c).map Prod.snd ↔
      ∀ i, (b i : Scalar) • S.inputElement (xs i) = (c i : Scalar) • S.inputElement (ys i) := by
  rw [PoprfClient.tokens, PoprfClient.tokens, List.map_map, List.map_map, List.map_inj_left]
  constructor
  · intro h i
    exact congrArg BlindedElement.point (h i (List.mem_finRange i))
  · intro h i _
    exact congrArg BlindedElement.mk (h i)

omit [DecidableEq G] in
/-- The states of a batch carry a key that does not depend on the inputs. -/
theorem PoprfClient.map_tweakedKey_tokens (client : PoprfClient G) {n : ℕ} (xs ys : Fin n → Bytes)
    (info : Bytes) (b c : Fin n → Scalarˣ) :
    (client.tokens S xs info b).map (fun token => token.1.tweakedKey) =
      (client.tokens S ys info c).map fun token => token.1.tweakedKey := by
  rw [PoprfClient.tokens, PoprfClient.tokens, List.map_map, List.map_map]
  rfl

/-- The tokens of a batch are blinded for the client's key. -/
theorem forall₂_token {sk : Scalar} {n : ℕ} {inputs : Fin n → Bytes} {info : Bytes}
    (h : ∀ i, S.Admissible (sk • S.basepoint) (inputs i) info) (blinds : Fin n → Scalarˣ) :
    List.Forall₂ (Token S sk info) ((List.finRange n).map inputs)
      ((PoprfClient.mk (sk • S.basepoint)).tokens S inputs info blinds) := by
  rw [PoprfClient.tokens, List.forall₂_map_left_iff, List.forall₂_map_right_iff,
    List.forall₂_same]
  intro i _
  exact .of_admissible (h i) (blinds i).ne_zero

/-- The exchange of a batch ends with the evaluations of the inputs that were blinded. -/
theorem exchange_tokens (F F' : Features) {sk : Scalar} {n : ℕ} (hn : n ≠ 0)
    {inputs : Fin n → Bytes} {info : Bytes}
    (h : ∀ i, S.Admissible (sk • S.basepoint) (inputs i) info) (blinds : Fin n → Scalarˣ)
    {reply : List (BlindedElement G) → Except Error (List (EvaluatedElement G) × Proof)}
    (hreply : (PoprfServer.mk ⟨sk⟩).RepliesBatch S F' info reply) :
    ∃ outs, exchangeBatch S F (PoprfClient.mk (sk • S.basepoint)) reply
        ((List.finRange n).map inputs)
        ((PoprfClient.mk (sk • S.basepoint)).tokens S inputs info blinds) info = .ok outs ∧
      List.Forall₂ (fun input out => (PoprfServer.mk ⟨sk⟩).evaluate S input info = .ok out)
        ((List.finRange n).map inputs) outs := by
  have hne : (List.finRange n).map inputs ≠ [] := by
    rw [ne_eq, ← List.length_eq_zero_iff, List.length_map, List.length_finRange]
    exact hn
  have htokens := forall₂_token S h blinds
  exact ⟨_, exchangeBatch_eq_ok S F F' hne htokens hreply _, batchOutputs_issue S _ htokens⟩

/-- The blinds of two batches correspond one to one so that the server's view and answers agree, and
each run of an exchange still finalizes to the evaluations of its own inputs. -/
theorem blinding_oblivious (S : Suite G) (F F' : Features) (client : PoprfClient G) (info : Bytes)
    {n : ℕ} (xs ys : Fin n → Bytes)
    (hx : ∀ i, ∃ token, client.Blinds S (xs i) info (.ok token))
    (hy : ∀ i, ∃ token, client.Blinds S (ys i) info (.ok token)) :
    ∃ φ : (Fin n → Scalarˣ) ≃ (Fin n → Scalarˣ), ∀ b,
      ∃ tokensX, client.blindAll S xs info b = .ok tokensX ∧
      ∃ tokensY, client.blindAll S ys info (φ b) = .ok tokensY ∧
        tokensX.map Prod.snd = tokensY.map Prod.snd ∧
        tokensX.map (fun token => token.1.tweakedKey) =
          tokensY.map (fun token => token.1.tweakedKey) ∧
        -- no other blinds of `ys` produce these blinded elements
        (∀ c tokens, client.blindAll S ys info c = .ok tokens →
          tokens.map Prod.snd = tokensX.map Prod.snd → c = φ b) ∧
        ∀ server reply, PoprfServer.RepliesBatch S F' server info reply →
          reply (tokensX.map Prod.snd) = reply (tokensY.map Prod.snd) ∧
          (n ≠ 0 → server.publicKey S = client.publicKey →
            (∃ outs, exchangeBatch S F client reply ((List.finRange n).map xs) tokensX info =
                .ok outs ∧
              List.Forall₂ (fun input out => server.evaluate S input info = .ok out)
                ((List.finRange n).map xs) outs) ∧
            ∃ outs, exchangeBatch S F client reply ((List.finRange n).map ys) tokensY info =
                .ok outs ∧
              List.Forall₂ (fun input out => server.evaluate S input info = .ok out)
                ((List.finRange n).map ys) outs) := by
  have hadmX : ∀ i, S.Admissible client.pk (xs i) info := by
    intro i
    obtain ⟨token, htoken⟩ := hx i
    obtain ⟨-, -, hadm, -⟩ := htoken.spec
    exact hadm
  have hadmY : ∀ i, S.Admissible client.pk (ys i) info := by
    intro i
    obtain ⟨token, htoken⟩ := hy i
    obtain ⟨-, -, hadm, -⟩ := htoken.spec
    exact hadm
  obtain ⟨φ, hφ⟩ := exists_blindEquiv S.basepoint_generates
    (fun i => (hadmX i).inputElement_ne_zero) (fun i => (hadmY i).inputElement_ne_zero)
  refine ⟨φ, fun b => ⟨_, client.blindAll_eq S hadmX b, _, client.blindAll_eq S hadmY (φ b), ?_⟩⟩
  have hview : (client.tokens S xs info b).map Prod.snd =
      (client.tokens S ys info (φ b)).map Prod.snd :=
    (client.map_snd_tokens_eq_iff S).mpr ((hφ b (φ b)).mpr rfl)
  refine ⟨hview, client.map_tweakedKey_tokens S xs ys info b (φ b), ?_, ?_⟩
  · intro c tokens htokens hsame
    obtain rfl := Except.ok.inj ((client.blindAll_eq S hadmY c).symm.trans htokens)
    exact (hφ b c).mp ((client.map_snd_tokens_eq_iff S).mp hsame.symm)
  · intro server reply hreply
    refine ⟨by rw [hview], fun hn hkey => ?_⟩
    obtain ⟨sk⟩ := server
    obtain ⟨pk⟩ := client
    obtain rfl : sk.scalar • S.basepoint = pk := congrArg PublicKey.point hkey
    exact ⟨exchange_tokens S F F' hn hadmX b hreply, exchange_tokens S F F' hn hadmY (φ b) hreply⟩

/-- Batches of two on the executable suite. -/
theorem blinding_oblivious_reference :
    let client := PoprfClient.new ((PoprfServer.new ⟨5⟩).publicKey referenceSuite)
    ∃ φ : (Fin 2 → Scalarˣ) ≃ (Fin 2 → Scalarˣ), ∀ b,
      ∃ tokensX, client.blindAll referenceSuite (fun _ => [2]) [1] b = .ok tokensX ∧
      ∃ tokensY, client.blindAll referenceSuite (fun _ => [3]) [1] (φ b) = .ok tokensY ∧
        tokensX.map Prod.snd = tokensY.map Prod.snd := by
  intro client
  have hx : referenceSuite.Admissible client.pk [2] [1] :=
    ⟨by decide, by decide, by decide +kernel, by decide +kernel⟩
  have hy : referenceSuite.Admissible client.pk [3] [1] :=
    ⟨by decide, by decide, by decide +kernel, by decide +kernel⟩
  obtain ⟨φ, hφ⟩ := blinding_oblivious referenceSuite ⟨true, true⟩ ⟨true, true⟩ client [1]
    (fun _ : Fin 2 => [2]) (fun _ => [3]) (fun _ => ⟨_, .of_admissible hx (one_ne_zero)⟩)
    (fun _ => ⟨_, .of_admissible hy (one_ne_zero)⟩)
  refine ⟨φ, fun b => ?_⟩
  obtain ⟨tokensX, htokensX, tokensY, htokensY, hview, -⟩ := hφ b
  exact ⟨tokensX, htokensX, tokensY, htokensY, hview⟩

end PoprfRistretto
