import PoprfRistretto.Poprf.ClientTheorems
import PoprfRistretto.Poprf.ServerTheorems
import PoprfRistretto.ReferenceSuite

/-!
# Batches and single tokens

A batch of one is a single token, for values and for errors, on the server and on the client. In a
batch of any length each element is evaluated as it is alone, and the batch fails when one of its
elements fails alone.
-/

namespace PoprfRistretto

open ExceptLoop

variable {G : Type} [AddCommGroup G] [Module Scalar G] [DecidableEq G]

/-! ## The server -/

namespace PoprfServer

variable (S : Suite G) (F : Features) (server : PoprfServer)

omit [DecidableEq G] in
/-- The server's tweak fails in two ways. -/
theorem computeT_eq_error {info : Bytes} {e : Error} (h : server.computeT S info = .error e) :
    e = .inputTooLong ∨ e = .inverse := by
  rw [computeT_eq] at h
  split_ifs at h with hinfo ht
  · cases h
    exact Or.inl rfl
  · cases h
    exact Or.inr rfl

/-- On a batch of one the two bodies agree. -/
theorem blindEvaluateBatchWithRInner_singleton (b : BlindedElement G) (info : Bytes) (r : Scalar) :
    server.blindEvaluateBatchWithRInner S F [b] info r =
      (server.blindEvaluateWithRInner S F b info r).map fun res => ([res.1], res.2) := by
  rw [blindEvaluateBatchWithRInner_eq, blindEvaluateWithRInner_eq, if_neg (List.cons_ne_nil _ _)]
  by_cases hid : b.point = 0
  · simp [hid, Except.map]
  · rw [if_neg hid, if_neg (by simpa using hid)]
    cases server.computeT S info with
    | error e => rfl
    | ok t => rfl

/-- A batch of one is a single evaluation, errors included. -/
theorem blindEvaluateBatchWithProofScalar_singleton (b : BlindedElement G) (info : Bytes)
    (proofRBytes : BytesN 32) :
    server.blindEvaluateBatchWithProofScalar S F [b] info proofRBytes =
      (server.blindEvaluateWithProofScalar S F b info proofRBytes).map
        fun res => ([res.1], res.2) := by
  unfold blindEvaluateBatchWithProofScalar blindEvaluateWithProofScalar
  cases S.deserializeScalar proofRBytes.toList with
  | error e => rfl
  | ok r => exact blindEvaluateBatchWithRInner_singleton S F server b info r

/-- The generator after a call: a nonce is drawn only when the checks have passed. -/
def rngAfter {R α : Type} (res : Except Error α) (rng drawn : R) : R :=
  match res with
  | .error _ => rng
  | .ok _ => drawn

/-- The rng variant returns what the proof-scalar variant returns for the nonce that it draws. -/
theorem blindEvaluate_of_draw {R : Type} [Rng R] {fuel : ℕ} {rng drawn : R} {r : Scalar}
    (hdraw : randomScalar fuel rng = some (r, drawn)) (b : BlindedElement G) (info : Bytes) :
    server.blindEvaluate S F fuel rng b info =
      some (server.blindEvaluateWithProofScalar S F b info (S.serializeScalarArray r),
        rngAfter (server.blindEvaluateWithProofScalar S F b info (S.serializeScalarArray r))
          rng drawn) := by
  rw [blindEvaluateWithProofScalar_eq, blindEvaluateWithRInner, blindEvaluate]
  by_cases hid : isIdentity b.point
  · rw [if_pos hid, if_pos hid]
    rfl
  · rw [if_neg hid, if_neg hid]
    cases server.computeT S info with
    | error e => rfl
    | ok t =>
      simp only [Suite.generateProof, hdraw]
      rfl

/-- The rng variant of the batch returns what the proof-scalar variant returns for the nonce that it
draws. -/
theorem blindEvaluateBatch_of_draw {R : Type} [Rng R] {fuel : ℕ} {rng drawn : R} {r : Scalar}
    (hdraw : randomScalar fuel rng = some (r, drawn)) (blinded : List (BlindedElement G))
    (info : Bytes) :
    server.blindEvaluateBatch S F fuel rng blinded info =
      some (server.blindEvaluateBatchWithProofScalar S F blinded info (S.serializeScalarArray r),
        rngAfter (server.blindEvaluateBatchWithProofScalar S F blinded info
          (S.serializeScalarArray r)) rng drawn) := by
  rw [blindEvaluateBatchWithProofScalar_eq, blindEvaluateBatchWithRInner, blindEvaluateBatch]
  by_cases hnil : blinded.isEmpty
  · rw [if_pos hnil, if_pos hnil]
    rfl
  · rw [if_neg hnil, if_neg hnil]
    cases forM blinded checkNotIdentity with
    | error e => rfl
    | ok _ =>
      cases server.computeT S info with
      | error e => rfl
      | ok t =>
        simp only [Suite.generateProof, hdraw]
        rfl

/-- In an accepted batch each element is evaluated as it is alone, under any nonce. -/
theorem blindEvaluateWithRInner_of_batch {blinded : List (BlindedElement G)} {info : Bytes}
    {r : Scalar} {evaluated : List (EvaluatedElement G)} {proof : Proof}
    (h : server.blindEvaluateBatchWithRInner S F blinded info r = .ok (evaluated, proof))
    (r' : Scalar) :
    List.Forall₂ (fun b e => ∃ proof', server.blindEvaluateWithRInner S F b info r' =
      .ok (e, proof')) blinded evaluated := by
  obtain ⟨-, hid, t, ht, hres⟩ := (blindEvaluateBatchWithRInner_eq_ok_iff S F server).mp h
  obtain ⟨rfl, -⟩ := Prod.mk.inj hres
  rw [issue, List.forall₂_map_right_iff, List.forall₂_same]
  intro b hb
  exact ⟨_, blindEvaluateWithRInner_eq_ok S F server (hid b hb) ht r'⟩

/-- A single token fails on the identity or with the error of the key and the `info`. -/
theorem blindEvaluateWithRInner_eq_error_iff {b : BlindedElement G} {info : Bytes} {r : Scalar}
    {e : Error} :
    server.blindEvaluateWithRInner S F b info r = .error e ↔
      b.point = 0 ∧ e = .inputValidation ∨ b.point ≠ 0 ∧ server.computeT S info = .error e := by
  rw [blindEvaluateWithRInner_eq]
  by_cases hid : b.point = 0
  · simp [hid, eq_comm]
  · rw [if_neg hid, map_eq_error_iff]
    simp [hid]

/-- Why a batch fails. -/
theorem blindEvaluateBatchWithRInner_eq_error_iff {blinded : List (BlindedElement G)} {info : Bytes}
    {r : Scalar} {e : Error} :
    server.blindEvaluateBatchWithRInner S F blinded info r = .error e ↔
      blinded = [] ∧ e = .lengthMismatch ∨
      (∃ b ∈ blinded, b.point = 0) ∧ e = .inputValidation ∨
      blinded ≠ [] ∧ (∀ b ∈ blinded, b.point ≠ 0) ∧ server.computeT S info = .error e := by
  rw [blindEvaluateBatchWithRInner_eq]
  by_cases hnil : blinded = []
  · simp [hnil, eq_comm]
  rw [if_neg hnil]
  by_cases hid : ∃ b ∈ blinded, b.point = 0
  · have hnot : ¬∀ b ∈ blinded, b.point ≠ 0 := fun h => hid.elim fun b hb => h b hb.1 hb.2
    rw [if_pos hid]
    simp only [hnil, hid, hnot, false_and, true_and, false_or, or_false, and_false,
      Except.error.injEq, eq_comm]
  · have hall : ∀ b ∈ blinded, b.point ≠ 0 := fun b hb h0 => hid ⟨b, hb, h0⟩
    rw [if_neg hid, map_eq_error_iff]
    simp only [hnil, hid, false_and, false_or, ne_eq, not_false_eq_true, true_and]
    exact (and_iff_right hall).symm

/-- A batch of elements other than the identity fails with the error of each of its elements. -/
theorem blindEvaluateBatchWithRInner_eq_error_iff_forall {blinded : List (BlindedElement G)}
    {info : Bytes} (hne : blinded ≠ []) (hid : ∀ b ∈ blinded, b.point ≠ 0) {r r' : Scalar}
    {e : Error} :
    server.blindEvaluateBatchWithRInner S F blinded info r = .error e ↔
      (e = .inputTooLong ∨ e = .inverse) ∧
        ∀ b ∈ blinded, server.blindEvaluateWithRInner S F b info r' = .error e := by
  have hbatch : server.blindEvaluateBatchWithRInner S F blinded info r = .error e ↔
      server.computeT S info = .error e := by
    rw [blindEvaluateBatchWithRInner_eq_error_iff]
    constructor
    · rintro (⟨hnil, -⟩ | ⟨⟨b, hb, hzero⟩, -⟩ | ⟨-, -, h⟩)
      · exact absurd hnil hne
      · exact absurd hzero (hid b hb)
      · exact h
    · exact fun h => Or.inr (Or.inr ⟨hne, hid, h⟩)
  have hsingle : ∀ b ∈ blinded, server.blindEvaluateWithRInner S F b info r' = .error e ↔
      server.computeT S info = .error e := by
    intro b hb
    rw [blindEvaluateWithRInner_eq_error_iff, and_iff_right (hid b hb), or_iff_right]
    exact fun h => hid b hb h.1
  obtain ⟨b₀, hb₀⟩ := List.exists_mem_of_ne_nil blinded hne
  rw [hbatch]
  constructor
  · intro h
    exact ⟨server.computeT_eq_error S h, fun b hb => (hsingle b hb).mpr h⟩
  · rintro ⟨-, h⟩
    exact (hsingle b₀ hb₀).mp (h b₀ hb₀)

/-- A batch fails when it is empty or one of its elements fails alone. -/
theorem exists_error_blindEvaluateBatchWithRInner_iff {blinded : List (BlindedElement G)}
    {info : Bytes} {r r' : Scalar} :
    (∃ e, server.blindEvaluateBatchWithRInner S F blinded info r = .error e) ↔
      blinded = [] ∨
        ∃ b ∈ blinded, ∃ e, server.blindEvaluateWithRInner S F b info r' = .error e := by
  simp only [blindEvaluateBatchWithRInner_eq_error_iff, blindEvaluateWithRInner_eq_error_iff]
  constructor
  · rintro ⟨e, ⟨hnil, -⟩ | ⟨⟨b, hb, hzero⟩, -⟩ | ⟨hne, hid, h⟩⟩
    · exact Or.inl hnil
    · exact Or.inr ⟨b, hb, .inputValidation, Or.inl ⟨hzero, rfl⟩⟩
    · obtain ⟨b, hb⟩ := List.exists_mem_of_ne_nil blinded hne
      exact Or.inr ⟨b, hb, e, Or.inr ⟨hid b hb, h⟩⟩
  · rintro (hnil | ⟨b, hb, e, ⟨hzero, -⟩ | ⟨-, h⟩⟩)
    · exact ⟨.lengthMismatch, Or.inl ⟨hnil, rfl⟩⟩
    · exact ⟨.inputValidation, Or.inr (Or.inl ⟨⟨b, hb, hzero⟩, rfl⟩)⟩
    · by_cases hid : ∃ b ∈ blinded, b.point = 0
      · exact ⟨.inputValidation, Or.inr (Or.inl ⟨hid, rfl⟩)⟩
      · exact ⟨e, Or.inr (Or.inr ⟨List.ne_nil_of_mem hb, fun b hb h0 => hid ⟨b, hb, h0⟩, h⟩)⟩

end PoprfServer

/-! ## The client -/

/-- `finalize_batch` on a batch of one is `finalize`. -/
theorem PoprfClient.finalizeBatch_singleton (S : Suite G) (F : Features) (client : PoprfClient G)
    (input : Bytes) (state : PoprfBlindState G) (evaluated : EvaluatedElement G)
    (blinded : BlindedElement G) (proof : Proof) (info : Bytes) :
    client.finalizeBatch S F [input] [state] [evaluated] [blinded] proof info =
      (client.finalize S F input state evaluated blinded proof info).map ([·]) := by
  have hlens : ¬(([input] : List Bytes).isEmpty || ([input] : List Bytes).length ≠ [state].length
      || ([input] : List Bytes).length ≠ [evaluated].length
      || ([input] : List Bytes).length ≠ [blinded].length) = true := by
    simp
  unfold finalizeBatch finalize
  rw [if_neg hlens, List.forM_cons, List.forM_nil]
  -- the two length checks are made in the other order, and raise the same error
  by_cases hinfo : info.length ≤ MAX_LP_LEN
  · by_cases hinput : input.length ≤ MAX_LP_LEN
    · rw [checkLpLen_of_le hinfo, checkLpLen_of_le hinput]
      simp only [ok_bind, pure_eq_ok, List.forM_nil, List.map_cons, List.map_nil]
      cases S.verifyProof F S.generator state.tweakedKey [evaluated.point] [blinded.point] proof with
      | error e => rfl
      | ok _ => rfl
    · rw [checkLpLen_of_le hinfo, checkLpLen_of_gt (Nat.lt_of_not_le hinput)]
      rfl
  · rw [checkLpLen_of_gt (Nat.lt_of_not_le hinfo)]
    by_cases hinput : input.length ≤ MAX_LP_LEN
    · rw [checkLpLen_of_le hinput]
      rfl
    · rw [checkLpLen_of_gt (Nat.lt_of_not_le hinput)]
      rfl

/-! ## Agreement -/

/-- The batch calls and the single-token calls agree: on batches of one, between the rng and the
proof-scalar variants, element by element in an accepted batch, and in why they fail. -/
theorem batch_agrees_single (S : Suite G) (F : Features) (server : PoprfServer) (info : Bytes) :
    (∀ b proofRBytes, server.blindEvaluateBatchWithProofScalar S F [b] info proofRBytes =
      (server.blindEvaluateWithProofScalar S F b info proofRBytes).map
        fun res => ([res.1], res.2)) ∧
    (∀ (R : Type) [Rng R] (fuel : ℕ) (rng drawn : R) (r : Scalar),
      randomScalar fuel rng = some (r, drawn) →
      (∀ b, server.blindEvaluate S F fuel rng b info =
        some (server.blindEvaluateWithProofScalar S F b info (S.serializeScalarArray r),
          PoprfServer.rngAfter (server.blindEvaluateWithProofScalar S F b info (S.serializeScalarArray r))
            rng drawn)) ∧
      ∀ blinded, server.blindEvaluateBatch S F fuel rng blinded info =
        some (server.blindEvaluateBatchWithProofScalar S F blinded info (S.serializeScalarArray r),
          PoprfServer.rngAfter (server.blindEvaluateBatchWithProofScalar S F blinded info
            (S.serializeScalarArray r)) rng drawn)) ∧
    (∀ (blinded : List (BlindedElement G)) (r r' : Scalar),
      let batch := server.blindEvaluateBatchWithProofScalar S F blinded info
        (S.serializeScalarArray r)
      let single := fun b =>
        server.blindEvaluateWithProofScalar S F b info (S.serializeScalarArray r')
      (∀ evaluated proof, batch = .ok (evaluated, proof) →
        List.Forall₂ (fun b e => ∃ proof', single b = .ok (e, proof')) blinded evaluated) ∧
      ((∃ e, batch = .error e) ↔ blinded = [] ∨ ∃ b ∈ blinded, ∃ e, single b = .error e) ∧
      (blinded = [] → batch = .error .lengthMismatch) ∧
      ((∃ b ∈ blinded, b.point = 0) → batch = .error .inputValidation) ∧
      (blinded ≠ [] → (∀ b ∈ blinded, b.point ≠ 0) → ∀ e, batch = .error e ↔
        (e = .inputTooLong ∨ e = .inverse) ∧ ∀ b ∈ blinded, single b = .error e)) ∧
    ∀ (client : PoprfClient G) input state evaluated blinded proof,
      client.finalizeBatch S F [input] [state] [evaluated] [blinded] proof info =
        (client.finalize S F input state evaluated blinded proof info).map ([·]) := by
  refine ⟨?_, ?_, ?_, ?_⟩
  · intro b proofRBytes
    exact server.blindEvaluateBatchWithProofScalar_singleton S F b info proofRBytes
  · intro R _ fuel rng drawn r hdraw
    exact ⟨fun b => server.blindEvaluate_of_draw S F hdraw b info,
      fun blinded => server.blindEvaluateBatch_of_draw S F hdraw blinded info⟩
  · intro blinded r r' batch single
    -- the nonces are read back from their encodings, and do not matter for the elements
    have hbatch : batch = server.blindEvaluateBatchWithRInner S F blinded info r :=
      server.blindEvaluateBatchWithProofScalar_eq S F blinded info r
    have hsingle : single = fun b => server.blindEvaluateWithRInner S F b info r' :=
      funext fun b => server.blindEvaluateWithProofScalar_eq S F b info r'
    rw [hbatch, hsingle]
    refine ⟨?_, ?_, ?_, ?_, ?_⟩
    · intro evaluated proof h
      exact server.blindEvaluateWithRInner_of_batch S F h r'
    · exact server.exists_error_blindEvaluateBatchWithRInner_iff S F
    · intro hnil
      exact (server.blindEvaluateBatchWithRInner_eq_error_iff S F).mpr (Or.inl ⟨hnil, rfl⟩)
    · intro hid
      exact (server.blindEvaluateBatchWithRInner_eq_error_iff S F).mpr (Or.inr (Or.inl ⟨hid, rfl⟩))
    · intro hne hid e
      exact server.blindEvaluateBatchWithRInner_eq_error_iff_forall S F hne hid
  · intro client input state evaluated blinded proof
    exact client.finalizeBatch_singleton S F input state evaluated blinded proof info

/-- Two elements and a nonce on the executable suite: the batch is accepted, the rng variant answers
as with its nonce, and a batch with the identity is refused. -/
theorem batch_agrees_single_reference :
    let S := referenceSuite
    let F : Features := ⟨true, true⟩
    let server := PoprfServer.new ⟨5⟩
    let t := 5 + S.tweak [1]
    (∃ rng', server.blindEvaluate S F 1 (Replay.mk [7]) ⟨2⟩ [1] =
      some (server.blindEvaluateWithProofScalar S F ⟨2⟩ [1] (S.serializeScalarArray 7), rng')) ∧
    List.Forall₂ (fun b e => ∃ proof', server.blindEvaluateWithProofScalar S F b [1]
        (S.serializeScalarArray 9) = .ok (e, proof'))
      [⟨2⟩, ⟨3⟩] [⟨t⁻¹ • 2⟩, ⟨t⁻¹ • 3⟩] ∧
    server.blindEvaluateBatchWithProofScalar S F [⟨2⟩, ⟨0⟩] [1] (S.serializeScalarArray 7) =
      .error .inputValidation ∧
    server.blindEvaluateBatchWithProofScalar S F [] [1] (S.serializeScalarArray 7) =
      .error .lengthMismatch := by
  intro S F server t
  let proof := S.generateProofWithR F t S.basepoint (t • S.basepoint) [t⁻¹ • 2, t⁻¹ • 3] [2, 3] 7
  have ht : server.computeT S [1] = .ok t :=
    server.computeT_of_ne_zero S (by decide) (by decide +kernel)
  have hdraw : randomScalar 1 (Replay.mk [7]) = some (7, Replay.mk []) :=
    randomScalar_replay (by decide +kernel) []
  have hbatch : server.blindEvaluateBatchWithProofScalar S F [⟨2⟩, ⟨3⟩] [1]
      (S.serializeScalarArray 7) = .ok ([⟨t⁻¹ • 2⟩, ⟨t⁻¹ • 3⟩], proof) := by
    rw [server.blindEvaluateBatchWithProofScalar_eq]
    exact server.blindEvaluateBatchWithRInner_eq_ok S F (by decide) (by decide +kernel) ht 7
  obtain ⟨-, hrng, hlist, -⟩ := batch_agrees_single S F server [1]
  refine ⟨⟨_, (hrng Replay 1 ⟨[7]⟩ ⟨[]⟩ 7 hdraw).1 ⟨2⟩⟩, (hlist [⟨2⟩, ⟨3⟩] 7 9).1 _ proof hbatch, ?_, ?_⟩
  · exact (hlist [⟨2⟩, ⟨0⟩] 7 9).2.2.2.1 ⟨⟨0⟩, by simp, rfl⟩
  · exact (hlist [] 7 9).2.2.1 rfl

end PoprfRistretto
