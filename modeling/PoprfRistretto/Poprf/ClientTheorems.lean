import PoprfRistretto.Poprf.Client
import PoprfRistretto.Poprf.Functionality
import PoprfRistretto.DleqTheorems
import PoprfRistretto.Library.ExceptLoop

/-!
# What the client functions compute

`blind` succeeds exactly on the admissible requests. `finalize` and `finalize_batch` succeed exactly
when their lengths are within the cap and the proof verifies under the key that the states carry.
-/

namespace PoprfRistretto

open ExceptLoop

variable {G : Type} [AddCommGroup G] [Module Scalar G] [DecidableEq G]

namespace PoprfClient

variable (S : Suite G) (F : Features) (client : PoprfClient G)

/-! ## Blinding -/

/-- The checks of `blind_with_inner` in their order. -/
theorem blindWithInner_eq (input info : Bytes) (blind : Scalar) :
    client.blindWithInner S input info blind =
      if MAX_LP_LEN < input.length then .error .inputTooLong
      else if MAX_LP_LEN < info.length then .error .inputTooLong
      else if S.tweakedKey client.pk info = 0 then .error .invalidInput
      else if S.inputElement input = 0 then .error .invalidInput
      else .ok (⟨blind, S.tweakedKey client.pk info⟩, ⟨blind • S.inputElement input⟩) := by
  unfold blindWithInner
  by_cases hinput : MAX_LP_LEN < input.length
  · rw [checkLpLen_of_gt hinput, if_pos hinput, error_bind]
  · rw [checkLpLen_of_le (Nat.le_of_not_lt hinput), if_neg hinput, ok_bind]
    by_cases hinfo : MAX_LP_LEN < info.length
    · rw [checkLpLen_of_gt hinfo, if_pos hinfo, error_bind]
    · rw [checkLpLen_of_le (Nat.le_of_not_lt hinfo), if_neg hinfo, ok_bind]
      simp only [isIdentity_iff]
      rfl

/-- `blind_with_inner` accepts exactly the admissible requests, for every blind. -/
theorem blindWithInner_eq_ok_iff {input info : Bytes} {blind : Scalar}
    {res : PoprfBlindState G × BlindedElement G} :
    client.blindWithInner S input info blind = .ok res ↔
      S.Admissible client.pk input info ∧
        res = (⟨blind, S.tweakedKey client.pk info⟩, ⟨blind • S.inputElement input⟩) := by
  rw [blindWithInner_eq]
  constructor
  · intro h
    by_cases hinput : MAX_LP_LEN < input.length
    · rw [if_pos hinput] at h
      cases h
    by_cases hinfo : MAX_LP_LEN < info.length
    · rw [if_neg hinput, if_pos hinfo] at h
      cases h
    by_cases hkey : S.tweakedKey client.pk info = 0
    · rw [if_neg hinput, if_neg hinfo, if_pos hkey] at h
      cases h
    by_cases helem : S.inputElement input = 0
    · rw [if_neg hinput, if_neg hinfo, if_neg hkey, if_pos helem] at h
      cases h
    rw [if_neg hinput, if_neg hinfo, if_neg hkey, if_neg helem] at h
    exact ⟨⟨Nat.le_of_not_lt hinput, Nat.le_of_not_lt hinfo, helem, hkey⟩,
      (Except.ok.inj h).symm⟩
  · rintro ⟨hadm, rfl⟩
    rw [if_neg (Nat.not_lt.mpr hadm.input_le), if_neg (Nat.not_lt.mpr hadm.info_le),
      if_neg hadm.tweakedKey_ne_zero, if_neg hadm.inputElement_ne_zero]

/-- An admissible request is blinded with every blind. -/
theorem blindWithInner_of_admissible {input info : Bytes} (h : S.Admissible client.pk input info)
    (blind : Scalar) :
    client.blindWithInner S input info blind =
      .ok (⟨blind, S.tweakedKey client.pk info⟩, ⟨blind • S.inputElement input⟩) :=
  (client.blindWithInner_eq_ok_iff S).mpr ⟨h, rfl⟩

/-- `blind_with_scalar` parses the blind and runs the body on it. -/
theorem blindWithScalar_eq (input info : Bytes) (blind : Scalar) :
    client.blindWithScalar S input info (S.serializeScalarArray blind) =
      client.blindWithInner S input info blind := by
  unfold blindWithScalar
  rw [S.deserializeScalar_serializeScalarArray, ok_bind]

/-- `blind_with_scalar` accepts the encoded blinds, zero included, on the admissible requests. -/
theorem blindWithScalar_eq_ok_iff {input info : Bytes} {blindBytes : BytesN 32}
    {res : PoprfBlindState G × BlindedElement G} :
    client.blindWithScalar S input info blindBytes = .ok res ↔
      ∃ blind, S.serializeScalarArray blind = blindBytes ∧ S.Admissible client.pk input info ∧
        res = (⟨blind, S.tweakedKey client.pk info⟩, ⟨blind • S.inputElement input⟩) := by
  unfold blindWithScalar
  rw [bind_eq_ok_iff]
  refine exists_congr fun blind => and_congr ?_ (client.blindWithInner_eq_ok_iff S)
  rw [S.deserializeScalar_eq_ok_iff]
  exact ⟨fun h => List.Vector.eq _ _ h, congrArg List.Vector.toList⟩

/-- `blind` draws a nonzero blind and runs the body on it. -/
theorem blind_eq_some_iff {R : Type} [Rng R] {fuel : ℕ} {input info : Bytes} {rng rng' : R}
    {res : Except Error (PoprfBlindState G × BlindedElement G)} :
    client.blind S fuel input info rng = some (res, rng') ↔
      ∃ blind, randomScalar fuel rng = some (blind, rng') ∧
        res = client.blindWithInner S input info blind := by
  unfold PoprfClient.blind
  simp only [Option.bind_eq_bind, Option.pure_def, Option.bind_eq_some_iff, Option.some.injEq,
    Prod.mk.injEq, Prod.exists]
  constructor
  · rintro ⟨blind, rng₁, hdraw, hres, rfl⟩
    exact ⟨blind, hdraw, hres.symm⟩
  · rintro ⟨blind, hdraw, hres⟩
    exact ⟨blind, rng', hdraw, hres.symm, rfl⟩

/-! ## Finalizing -/

omit [DecidableEq G] in
/-- The output hashes the unblinded element. -/
theorem unblindAndHash_eq (input info : Bytes) (state : PoprfBlindState G)
    (evaluated : EvaluatedElement G) :
    client.unblindAndHash S input info state evaluated =
      S.outputOf input info (S.scalarInvert state.blind • evaluated.point) := rfl

omit [DecidableEq G] in
/-- `finalize` reads only the lengths, the proof and the key of the state before it hashes. -/
theorem finalize_eq_ok_iff {input : Bytes} {state : PoprfBlindState G}
    {evaluated : EvaluatedElement G} {blinded : BlindedElement G} {proof : Proof} {info : Bytes}
    {out : PoprfOutput} :
    client.finalize S F input state evaluated blinded proof info = .ok out ↔
      input.length ≤ MAX_LP_LEN ∧ info.length ≤ MAX_LP_LEN ∧
        S.verifyProof F S.basepoint state.tweakedKey [evaluated.point] [blinded.point] proof =
          .ok () ∧
        out = client.unblindAndHash S input info state evaluated := by
  unfold finalize
  simp only [check_bind_eq_ok_iff, checkLpLen_eq_ok_iff, S.generator_eq, pure_eq_ok,
    Except.ok.injEq]
  rw [@eq_comm _ out]

/-- What `finalize_batch` checks before the proof, of a batch whose states carry the key `key`. -/
structure BatchChecked (inputs : List Bytes) (states : List (PoprfBlindState G))
    (evaluated : List (EvaluatedElement G)) (blinded : List (BlindedElement G)) (info : Bytes)
    (key : G) : Prop where
  inputs_ne_nil : inputs ≠ []
  length_states : inputs.length = states.length
  length_evaluated : inputs.length = evaluated.length
  length_blinded : inputs.length = blinded.length
  info_le : info.length ≤ MAX_LP_LEN
  inputs_le : ∀ input ∈ inputs, input.length ≤ MAX_LP_LEN
  states_key : ∀ state ∈ states, state.tweakedKey = key

/-- What `finalize_batch` requires of a batch whose states carry the key `key`. -/
structure BatchAccepted (inputs : List Bytes) (states : List (PoprfBlindState G))
    (evaluated : List (EvaluatedElement G)) (blinded : List (BlindedElement G)) (proof : Proof)
    (info : Bytes) (key : G) : Prop extends
    BatchChecked inputs states evaluated blinded info key where
  verified : S.verifyProof F S.basepoint key (evaluated.map (·.point)) (blinded.map (·.point))
    proof = .ok ()

omit [DecidableEq G] in
/-- The length checks of a batch. -/
theorem forM_checkLpLen_eq_ok_iff {inputs : List Bytes} :
    forM inputs checkLpLen = .ok () ↔ ∀ input ∈ inputs, input.length ≤ MAX_LP_LEN := by
  have hstep : ∀ input, checkLpLen input =
      if input.length ≤ MAX_LP_LEN then .ok () else .error Error.inputTooLong := by
    intro input
    rcases Nat.lt_or_ge MAX_LP_LEN input.length with h | h
    · rw [checkLpLen_of_gt h, if_neg (Nat.not_le.mpr h)]
    · rw [checkLpLen_of_le h, if_pos h]
  rw [forM_check hstep]
  split <;> simp_all

omit [AddCommGroup G] [Module Scalar G] in
/-- The consistency check of a batch. -/
theorem forM_checkTweakedKey_eq_ok_iff {states : List (PoprfBlindState G)} {key : G} :
    (forM states fun s => if s.tweakedKey ≠ key then Except.error Error.inconsistentState
      else .ok ()) = .ok () ↔ ∀ state ∈ states, state.tweakedKey = key := by
  have hstep : ∀ s : PoprfBlindState G,
      (if s.tweakedKey ≠ key then Except.error Error.inconsistentState else .ok ()) =
        if s.tweakedKey = key then .ok () else .error Error.inconsistentState := by
    intro s
    rw [ite_not]
  rw [forM_check hstep]
  split <;> simp_all

omit [AddCommGroup G] [Module Scalar G] [DecidableEq G] in
/-- The test of the four lengths, as a proposition. -/
theorem lengths_iff {inputs : List Bytes} {states : List (PoprfBlindState G)}
    {evaluated : List (EvaluatedElement G)} {blinded : List (BlindedElement G)} :
    ¬(inputs.isEmpty || inputs.length ≠ states.length || inputs.length ≠ evaluated.length ||
        inputs.length ≠ blinded.length) = true ↔
      inputs ≠ [] ∧ inputs.length = states.length ∧ inputs.length = evaluated.length ∧
        inputs.length = blinded.length := by
  simp [not_or, and_assoc]

omit [AddCommGroup G] [Module Scalar G] [DecidableEq G] in
/-- Behind the test of the lengths, the key of a checked batch is that of its first state. -/
theorem batchChecked_cons_iff {inputs : List Bytes} {state₀ : PoprfBlindState G}
    {rest : List (PoprfBlindState G)} {evaluated : List (EvaluatedElement G)}
    {blinded : List (BlindedElement G)} {info : Bytes} {key : G}
    (hlens : inputs ≠ [] ∧ inputs.length = (state₀ :: rest).length ∧
      inputs.length = evaluated.length ∧ inputs.length = blinded.length) :
    BatchChecked inputs (state₀ :: rest) evaluated blinded info key ↔
      info.length ≤ MAX_LP_LEN ∧ (∀ input ∈ inputs, input.length ≤ MAX_LP_LEN) ∧
        (∀ state ∈ rest, state.tweakedKey = state₀.tweakedKey) ∧ state₀.tweakedKey = key := by
  obtain ⟨hne, hstates, hevaluated, hblinded⟩ := hlens
  constructor
  · intro h
    obtain ⟨rfl, hrest⟩ := List.forall_mem_cons.mp h.states_key
    exact ⟨h.info_le, h.inputs_le, hrest, rfl⟩
  · rintro ⟨hinfo, hinputs, hrest, rfl⟩
    exact ⟨hne, hstates, hevaluated, hblinded, hinfo, hinputs,
      List.forall_mem_cons.mpr ⟨rfl, hrest⟩⟩

/-- The outputs of a batch, one for each token. -/
def batchOutputs (inputs : List Bytes) (states : List (PoprfBlindState G))
    (evaluated : List (EvaluatedElement G)) (info : Bytes) : List PoprfOutput :=
  ((inputs.zip states).zip evaluated).map fun ((input, state), e) =>
    client.unblindAndHash S input info state e

/-- `finalize_batch` succeeds on the accepted batches, for whatever key their states carry. -/
theorem finalizeBatch_eq_ok_iff {inputs : List Bytes} {states : List (PoprfBlindState G)}
    {evaluated : List (EvaluatedElement G)} {blinded : List (BlindedElement G)} {proof : Proof}
    {info : Bytes} {outs : List PoprfOutput} :
    client.finalizeBatch S F inputs states evaluated blinded proof info = .ok outs ↔
      (∃ key, BatchAccepted S F inputs states evaluated blinded proof info key) ∧
        outs = client.batchOutputs S inputs states evaluated info := by
  unfold finalizeBatch
  split_ifs with hlens
  · refine ⟨fun h => ?_, ?_⟩
    · cases h
    · rintro ⟨⟨key, hacc⟩, -⟩
      exact absurd hlens (lengths_iff.mpr
        ⟨hacc.inputs_ne_nil, hacc.length_states, hacc.length_evaluated, hacc.length_blinded⟩)
  · rw [lengths_iff] at hlens
    -- the key of the batch is that of the first state
    rcases states with _ | ⟨state₀, rest⟩
    · exact absurd (List.length_eq_zero_iff.mp hlens.2.1) hlens.1
    simp only [check_bind_eq_ok_iff, checkLpLen_eq_ok_iff, forM_checkLpLen_eq_ok_iff,
      forM_checkTweakedKey_eq_ok_iff, S.generator_eq, pure_eq_ok, Except.ok.injEq]
    constructor
    · rintro ⟨hinfo, hinputs, hrest, hverified, rfl⟩
      exact ⟨⟨state₀.tweakedKey,
        (batchChecked_cons_iff hlens).mpr ⟨hinfo, hinputs, hrest, rfl⟩, hverified⟩, rfl⟩
    · rintro ⟨⟨key, hchecked, hverified⟩, rfl⟩
      obtain ⟨hinfo, hinputs, hrest, rfl⟩ := (batchChecked_cons_iff hlens).mp hchecked
      exact ⟨hinfo, hinputs, hrest, hverified, rfl⟩

/-- A batch that passes the checks is decided by its proof. -/
theorem finalizeBatch_eq_of_checked {inputs : List Bytes} {states : List (PoprfBlindState G)}
    {evaluated : List (EvaluatedElement G)} {blinded : List (BlindedElement G)} {info : Bytes}
    {key : G} (h : BatchChecked inputs states evaluated blinded info key) (proof : Proof) :
    client.finalizeBatch S F inputs states evaluated blinded proof info = do
      S.verifyProof F S.basepoint key (evaluated.map (·.point)) (blinded.map (·.point)) proof
      return client.batchOutputs S inputs states evaluated info := by
  have hlens := lengths_iff.mpr
    ⟨h.inputs_ne_nil, h.length_states, h.length_evaluated, h.length_blinded⟩
  cases states with
  | nil => exact absurd (List.length_eq_zero_iff.mp h.length_states) h.inputs_ne_nil
  | cons state₀ rest =>
    obtain ⟨rfl, hrest⟩ := List.forall_mem_cons.mp h.states_key
    unfold finalizeBatch
    rw [if_neg hlens, checkLpLen_of_le h.info_le, ok_bind,
      forM_checkLpLen_eq_ok_iff.mpr h.inputs_le, ok_bind]
    dsimp only
    rw [forM_checkTweakedKey_eq_ok_iff.mpr hrest, ok_bind, S.generator_eq]
    rfl

end PoprfClient

end PoprfRistretto
