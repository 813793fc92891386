import PoprfRistretto.Poprf.Exchange

/-!
# What a finalized proof is bound to

`finalize` and `finalize_batch` verify the proof under the key that the states carry. They compute
no tweaked key of their own, so the client's public key and the `info` that is hashed into the output
are bound to the proof only through the states that the caller passes: for states of any other key
some answer is accepted.
-/

namespace PoprfRistretto

variable {G : Type} [AddCommGroup G] [Module Scalar G] [DecidableEq G]

section

variable (S : Suite G) (F : Features)

/-- The state carries the tweaked key of the client's public key and of `info`. -/
def PoprfClient.Matches (client : PoprfClient G) (info : Bytes) (state : PoprfBlindState G) : Prop :=
  state.tweakedKey = S.tweakedKey client.pk info

omit [DecidableEq G] in
/-- `finalize` succeeds for a state of any key under which the proof verifies. -/
theorem PoprfClient.finalize_isOk_iff (client : PoprfClient G) {input : Bytes}
    {state : PoprfBlindState G} {evaluated : EvaluatedElement G} {blinded : BlindedElement G}
    {proof : Proof} {info : Bytes} :
    (∃ out, client.finalize S F input state evaluated blinded proof info = .ok out) ↔
      input.length ≤ MAX_LP_LEN ∧ info.length ≤ MAX_LP_LEN ∧
        S.verifyProof F S.basepoint state.tweakedKey [evaluated.point] [blinded.point] proof =
          .ok () := by
  constructor
  · rintro ⟨out, h⟩
    obtain ⟨hinput, hinfo, hverified, -⟩ := (client.finalize_eq_ok_iff S F).mp h
    exact ⟨hinput, hinfo, hverified⟩
  · rintro ⟨hinput, hinfo, hverified⟩
    exact ⟨_, (client.finalize_eq_ok_iff S F).mpr ⟨hinput, hinfo, hverified, rfl⟩⟩

/-- `finalize_batch` succeeds for states of any one key under which the proof verifies. -/
theorem PoprfClient.finalizeBatch_isOk_iff (client : PoprfClient G) {inputs : List Bytes}
    {states : List (PoprfBlindState G)} {evaluated : List (EvaluatedElement G)}
    {blinded : List (BlindedElement G)} {proof : Proof} {info : Bytes} :
    (∃ outs, client.finalizeBatch S F inputs states evaluated blinded proof info = .ok outs) ↔
      ∃ key, PoprfClient.BatchAccepted S F inputs states evaluated blinded proof info key := by
  constructor
  · rintro ⟨outs, h⟩
    exact ((client.finalizeBatch_eq_ok_iff S F).mp h).1
  · intro hacc
    exact ⟨_, (client.finalizeBatch_eq_ok_iff S F).mpr ⟨hacc, rfl⟩⟩

/-- The reasons for which `finalize_batch` refuses inputs and states, whatever the server answered. -/
inductive PoprfClient.StatesRefused (inputs : List Bytes) (states : List (PoprfBlindState G))
    (info : Bytes) : Prop where
  | empty (h : inputs = [])
  | length (h : inputs.length ≠ states.length)
  | info (h : MAX_LP_LEN < info.length)
  | input (input : Bytes) (hmem : input ∈ inputs) (h : MAX_LP_LEN < input.length)
  | inconsistent (state state' : PoprfBlindState G) (hmem : state ∈ states) (hmem' : state' ∈ states)
      (h : state.tweakedKey ≠ state'.tweakedKey)

omit [AddCommGroup G] [Module Scalar G] [DecidableEq G] in
/-- A single state is refused for the lengths alone. -/
theorem PoprfClient.statesRefused_singleton_iff {input : Bytes} {state : PoprfBlindState G}
    {info : Bytes} : PoprfClient.StatesRefused [input] [state] info ↔
      MAX_LP_LEN < input.length ∨ MAX_LP_LEN < info.length := by
  constructor
  · intro h
    cases h with
    | empty h => cases h
    | length h => exact absurd rfl h
    | info h => exact .inr h
    | input input' hmem h =>
      rw [List.mem_singleton.mp hmem] at h
      exact .inl h
    | inconsistent s s' hs hs' h =>
      rw [List.mem_singleton.mp hs, List.mem_singleton.mp hs'] at h
      exact absurd rfl h
  · rintro (h | h)
    · exact .input input List.mem_cons_self h
    · exact .info h

omit [AddCommGroup G] [Module Scalar G] [DecidableEq G] in
/-- States that are not refused carry one key. -/
theorem PoprfClient.exists_key_of_not_refused {inputs : List Bytes}
    {states : List (PoprfBlindState G)} {info : Bytes}
    (h : ¬PoprfClient.StatesRefused inputs states info) :
    ∃ key, (∃ state ∈ states, state.tweakedKey = key) ∧
      ∀ (evaluated : List (EvaluatedElement G)) (blinded : List (BlindedElement G)),
        inputs.length = evaluated.length → inputs.length = blinded.length →
        PoprfClient.BatchChecked inputs states evaluated blinded info key := by
  have hne : inputs ≠ [] := fun hnil => h (.empty hnil)
  have hlen : inputs.length = states.length := not_not.mp fun hlen => h (.length hlen)
  have hstates : states ≠ [] := by
    rw [ne_eq, ← List.length_eq_zero_iff, ← hlen, List.length_eq_zero_iff]
    exact hne
  -- a batch that is not empty has a first state, whose key all states carry
  obtain ⟨state₀, hmem₀⟩ := List.exists_mem_of_ne_nil states hstates
  refine ⟨state₀.tweakedKey, ⟨state₀, hmem₀, rfl⟩, fun evaluated blinded hevaluated hblinded =>
    ⟨hne, hlen, hevaluated, hblinded, Nat.not_lt.mp fun hinfo => h (.info hinfo), ?_, ?_⟩⟩
  · intro input hmem
    exact Nat.not_lt.mp fun hinput => h (.input input hmem hinput)
  · intro state hmem
    exact not_not.mp fun hkey => h (.inconsistent state state₀ hmem hmem₀ hkey)

omit [AddCommGroup G] [Module Scalar G] [DecidableEq G] in
/-- Refused states pass for no key. -/
theorem PoprfClient.StatesRefused.not_checked {inputs : List Bytes}
    {states : List (PoprfBlindState G)} {info : Bytes}
    (h : PoprfClient.StatesRefused inputs states info) {evaluated : List (EvaluatedElement G)}
    {blinded : List (BlindedElement G)} {key : G} :
    ¬PoprfClient.BatchChecked inputs states evaluated blinded info key := by
  intro hchecked
  cases h with
  | empty h => exact hchecked.inputs_ne_nil h
  | length h => exact h hchecked.length_states
  | info h => exact Nat.not_lt.mpr hchecked.info_le h
  | input input hmem h => exact Nat.not_lt.mpr (hchecked.inputs_le input hmem) h
  | inconsistent state state' hmem hmem' h =>
    exact h ((hchecked.states_key state hmem).trans (hchecked.states_key state' hmem').symm)

omit [DecidableEq G] in
/-- Under every key some proof of a batch of any size verifies. -/
theorem exists_verifyProof (key : G) (n : ℕ) :
    ∃ (evaluated : List (EvaluatedElement G)) (blinded : List (BlindedElement G)) (proof : Proof),
      evaluated.length = n ∧ blinded.length = n ∧
      S.verifyProof F S.basepoint key (evaluated.map (·.point)) (blinded.map (·.point)) proof =
        .ok () := by
  -- whoever knows the discrete logarithm of the key can answer
  obtain ⟨k, rfl⟩ := S.basepoint_generates key
  let evaluated : List (EvaluatedElement G) := List.replicate n ⟨S.basepoint⟩
  let blinded : List (BlindedElement G) := List.replicate n ⟨k • S.basepoint⟩
  have hpoints : blinded.map (·.point) = (evaluated.map (·.point)).map (k • ·) := by
    rw [List.map_replicate, List.map_replicate, List.map_replicate]
  exact ⟨evaluated, blinded, _, List.length_replicate, List.length_replicate,
    S.verifyProof_generateProofWithR F F k S.basepoint _ _ hpoints 0⟩

omit [DecidableEq G] in
/-- A state that does not match is accepted with some answer, unless a length is over the cap. -/
theorem PoprfClient.forall_finalize_matches_iff (client : PoprfClient G) {input : Bytes}
    {state : PoprfBlindState G} {info : Bytes} :
    (∀ evaluated blinded proof out,
        client.finalize S F input state evaluated blinded proof info = .ok out →
        client.Matches S info state) ↔
      client.Matches S info state ∨ MAX_LP_LEN < input.length ∨ MAX_LP_LEN < info.length := by
  constructor
  · intro h
    by_contra hnot
    obtain ⟨hmatch, hlens⟩ := not_or.mp hnot
    obtain ⟨hinput, hinfo⟩ := not_or.mp hlens
    -- some answer is accepted under the key of the state, whatever that key is
    obtain ⟨evaluated, blinded, proof, hevaluated, hblinded, hverified⟩ :=
      exists_verifyProof S F state.tweakedKey 1
    obtain ⟨e, rfl⟩ := List.length_eq_one_iff.mp hevaluated
    obtain ⟨b, rfl⟩ := List.length_eq_one_iff.mp hblinded
    obtain ⟨out, hout⟩ := (client.finalize_isOk_iff S F).mpr
      ⟨Nat.not_lt.mp hinput, Nat.not_lt.mp hinfo, hverified⟩
    exact hmatch (h e b proof out hout)
  · rintro (h | h | h) evaluated blinded proof out hout
    · exact h
    · exact absurd ((client.finalize_isOk_iff S F).mp ⟨out, hout⟩).1 (Nat.not_le.mpr h)
    · exact absurd ((client.finalize_isOk_iff S F).mp ⟨out, hout⟩).2.1 (Nat.not_le.mpr h)

/-- States of one key that do not match are accepted with some answer, unless they are refused. -/
theorem PoprfClient.forall_finalizeBatch_matches_iff (client : PoprfClient G) {inputs : List Bytes}
    {states : List (PoprfBlindState G)} {info : Bytes} :
    (∀ evaluated blinded proof outs,
        client.finalizeBatch S F inputs states evaluated blinded proof info = .ok outs →
        ∀ state ∈ states, client.Matches S info state) ↔
      (∀ state ∈ states, client.Matches S info state) ∨
        PoprfClient.StatesRefused inputs states info := by
  constructor
  · intro h
    by_contra hnot
    obtain ⟨hmatch, hrefused⟩ := not_or.mp hnot
    obtain ⟨key, -, hchecked⟩ := PoprfClient.exists_key_of_not_refused hrefused
    obtain ⟨evaluated, blinded, proof, hevaluated, hblinded, hverified⟩ :=
      exists_verifyProof S F key inputs.length
    obtain ⟨outs, houts⟩ := (client.finalizeBatch_isOk_iff S F).mpr
      ⟨key, hchecked evaluated blinded hevaluated.symm hblinded.symm, hverified⟩
    exact hmatch (h evaluated blinded proof outs houts)
  · rintro (h | h) evaluated blinded proof outs houts
    · exact h
    · obtain ⟨key, hacc⟩ := (client.finalizeBatch_isOk_iff S F).mp ⟨outs, houts⟩
      exact absurd hacc.toBatchChecked h.not_checked

end

end PoprfRistretto
