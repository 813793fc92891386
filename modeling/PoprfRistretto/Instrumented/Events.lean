import PoprfRistretto.Instrumented.Poprf
import PoprfRistretto.Poprf.ClientTheorems
import PoprfRistretto.Poprf.ServerTheorems

/-!
# What the protocol functions log

For each instrumented function, when all its events satisfy a predicate. The conditions are on the
arguments: the checks that let an encoder be reached, then the predicate on what it encodes.
-/

namespace PoprfRistretto.Instrumented

open Logged ExceptLoop

variable {G : Type} [AddCommGroup G] [Module Scalar G] [DecidableEq G] (S : Suite G)
  {p : Event → Prop}

/-- Behind a length check only short values are encoded. -/
theorem all_checkLpLen_bind {α : Type} {buf : Bytes}
    {f : Unit → ExceptT Error (Logged Event) α} :
    All p (lift (checkLpLen buf) >>= f).run ↔ (buf.length ≤ MAX_LP_LEN → All p (f ()).run) := by
  rw [all_run_check_bind, ← checkLpLen_eq_ok_iff]

/-! ## Hashes and keys -/

/-- The length of the info is encoded. -/
@[simp] theorem all_framedInfo {info : Bytes} :
    All p (framedInfo info) ↔ p (.i2osp2 info.length) := by
  simp [framedInfo]

omit [DecidableEq G] in
/-- The length of the input is encoded. -/
@[simp] theorem all_lpHasher {input : Bytes} :
    All p (lpHasher S input) ↔ p (.i2osp2 input.length) := by
  simp [lpHasher]

/-- What hashing the element `P` behind `info` logs. -/
def FinalizesElement (p : Event → Prop) (info : Bytes) (P : G) : Prop :=
  p (.finalizeFrom (S.serializeElement P)) ∧ p (.i2osp2 info.length) ∧ p (.i2osp2 32)

omit [DecidableEq G] in
/-- Finalizing an element encodes the lengths of the info and of the element. -/
theorem all_finalizeFrom {hashPrefix : S.Sha512} {info : Bytes} {P : G} :
    All p (finalizeFrom S hashPrefix info (S.serializeElement P)) ↔
      FinalizesElement S p info P := by
  simp [finalizeFrom, FinalizesElement]

omit [DecidableEq G] in
/-- The whole hash encodes the length of the input as well. -/
theorem all_finalizeHash {input info : Bytes} {P : G} :
    All p (finalizeHash S input info (S.serializeElement P)) ↔
      p (.i2osp2 input.length) ∧ FinalizesElement S p info P := by
  rw [finalizeHash, all_bind, all_lpHasher, all_finalizeFrom]

omit [DecidableEq G] in
/-- The key derivation encodes the length of an info that is not too long. -/
theorem all_deriveKeyPair {seed : BytesN 32} {info : Bytes} :
    All p (deriveKeyPair S seed info).run ↔ (info.length ≤ MAX_LP_LEN → p (.i2osp2 info.length)) := by
  unfold deriveKeyPair
  rw [all_checkLpLen_bind, all_run_monadLift_bind, all_i2osp2, and_iff_left (all_run_lift _)]

omit [DecidableEq G] in
/-- So does a server from a seed. -/
theorem all_fromSeed {seed : BytesN 32} {info : Bytes} :
    All p (fromSeed S seed info).run ↔ (info.length ≤ MAX_LP_LEN → p (.i2osp2 info.length)) := by
  unfold fromSeed
  rw [all_run_bind, all_deriveKeyPair]
  exact and_iff_left fun _ _ => all_run_pure _

/-- A table encodes the length of an input that it can be built for. -/
theorem all_newTable {F : Features} {input : Bytes} :
    All p (newTable S F input).run ↔
      (input.length ≤ MAX_LP_LEN → S.inputElement input ≠ 0 → p (.i2osp2 input.length)) := by
  unfold newTable
  rw [all_checkLpLen_bind, all_run_ite]
  simp [Suite.inputElement]

/-! ## The client -/

section Client

variable (F : Features) (client : PoprfClient G)

/-- Blinding encodes the length of an admitted info, and no length of the input. -/
theorem all_blindWithInner {input info : Bytes} {blind : Scalar} :
    All p (blindWithInner S client input info blind).run ↔
      (input.length ≤ MAX_LP_LEN → info.length ≤ MAX_LP_LEN → p (.i2osp2 info.length)) := by
  unfold blindWithInner
  rw [all_checkLpLen_bind, all_checkLpLen_bind]
  refine forall₂_congr fun _ _ => ?_
  rw [all_run_monadLift_bind, all_framedInfo]
  refine and_iff_left (all_run_ite.mpr ⟨fun _ => all_run_lift _, fun _ => ?_⟩)
  exact all_run_ite.mpr ⟨fun _ => all_run_lift _, fun _ => all_run_pure _⟩

/-- So does blinding with a blind that is drawn. -/
theorem all_blind {R : Type} [Rng R] {fuel : ℕ} {input info : Bytes} {rng : R} :
    All p (blind S client fuel input info rng) ↔
      ((randomScalar fuel rng).isSome → input.length ≤ MAX_LP_LEN → info.length ≤ MAX_LP_LEN →
        p (.i2osp2 info.length)) := by
  unfold blind
  cases randomScalar fuel rng with
  | none => simp
  | some draw => simp [all_blindWithInner]

/-- And with a blind that is given and canonical. -/
theorem all_blindWithScalar {input info : Bytes} {blindBytes : BytesN 32} :
    All p (blindWithScalar S client input info blindBytes).run ↔
      ∀ blind, S.deserializeScalar blindBytes.toList = .ok blind →
        input.length ≤ MAX_LP_LEN → info.length ≤ MAX_LP_LEN → p (.i2osp2 info.length) := by
  unfold blindWithScalar
  simp only [all_run_lift_bind, all_blindWithInner]

/-- What unblinding and hashing a token logs. -/
def Unblinds (p : Event → Prop) (input info : Bytes) (state : PoprfBlindState G)
    (evaluated : EvaluatedElement G) : Prop :=
  p (.scalarInvert state.blind) ∧ p (.i2osp2 input.length) ∧
    FinalizesElement S p info (S.scalarInvert state.blind • evaluated.point)

omit [DecidableEq G] in
/-- Unblinding inverts the blind and hashes the element. -/
theorem all_unblindAndHash {input info : Bytes} {state : PoprfBlindState G}
    {evaluated : EvaluatedElement G} :
    All p (unblindAndHash S input info state evaluated) ↔
      Unblinds S p input info state evaluated := by
  unfold unblindAndHash Unblinds
  rw [all_bind, all_scalarInvert]
  exact and_congr_right fun _ => all_finalizeHash S

omit [DecidableEq G] in
/-- A single finalization verifies a proof for one element, and unblinds once it is accepted. -/
theorem all_finalize {input : Bytes} {state : PoprfBlindState G} {evaluated : EvaluatedElement G}
    {blinded : BlindedElement G} {proof : Proof} {info : Bytes} :
    All p (finalize S F input state evaluated blinded proof info).run ↔
      (input.length ≤ MAX_LP_LEN → info.length ≤ MAX_LP_LEN → EncodesBatch F p 1 ∧
        (S.verifyProof F S.basepoint state.tweakedKey [evaluated.point] [blinded.point] proof =
          .ok () → Unblinds S p input info state evaluated)) := by
  unfold finalize
  rw [all_checkLpLen_bind, all_checkLpLen_bind]
  refine forall₂_congr fun _ _ => ?_
  rw [all_run_logged_check_bind, all_verifyProof, value_verifyProof]
  · exact and_congr_right fun _ => imp_congr_right fun _ =>
      all_run_monadLift.trans (all_unblindAndHash S)
  · rfl

/-- A batch is verified behind the checks of the source, and unblinded element by element once the
proof is accepted. -/
theorem all_finalizeBatch {inputs : List Bytes} {states : List (PoprfBlindState G)}
    {evaluated : List (EvaluatedElement G)} {blinded : List (BlindedElement G)} {proof : Proof}
    {info : Bytes} :
    All p (finalizeBatch S F inputs states evaluated blinded proof info).run ↔
      ∀ key, PoprfClient.BatchChecked inputs states evaluated blinded info key →
        EncodesBatch F p inputs.length ∧
          (S.verifyProof F S.basepoint key (evaluated.map (·.point)) (blinded.map (·.point)) proof =
            .ok () → ∀ token ∈ (inputs.zip states).zip evaluated,
              Unblinds S p token.1.1 info token.1.2 token.2) := by
  unfold finalizeBatch
  split_ifs with hlens
  · refine iff_of_true (all_run_lift _) fun key h => ?_
    exact absurd hlens (PoprfClient.lengths_iff.mpr
      ⟨h.inputs_ne_nil, h.length_states, h.length_evaluated, h.length_blinded⟩)
  · rw [PoprfClient.lengths_iff] at hlens
    -- the key of the batch is that of the first state
    rcases states with _ | ⟨state₀, rest⟩
    · exact absurd (List.length_eq_zero_iff.mp hlens.2.1) hlens.1
    have hevaluated : (evaluated.map (·.point)).length = inputs.length := by
      rw [List.length_map, hlens.2.2.1]
    have hblinded : (blinded.map (·.point)).length = inputs.length := by
      rw [List.length_map, hlens.2.2.2]
    -- the checks in the order of the source: the info, the inputs, the other states
    rw [all_checkLpLen_bind, all_run_check_bind, PoprfClient.forM_checkLpLen_eq_ok_iff]
    show (_ → _ → All p (lift (forM rest _) >>= _).run) ↔ _
    rw [all_run_check_bind, PoprfClient.forM_checkTweakedKey_eq_ok_iff, all_run_logged_check_bind,
      all_verifyProof S (hevaluated.trans hblinded.symm), value_verifyProof, hevaluated,
      all_run_monadLift, all_mapM]
    simp only [all_unblindAndHash]
    constructor
    · intro h key hchecked
      obtain ⟨hinfo, hinputs, hrest, rfl⟩ := (PoprfClient.batchChecked_cons_iff hlens).mp hchecked
      exact h hinfo hinputs hrest
    · intro h hinfo hinputs hrest
      exact h _ ((PoprfClient.batchChecked_cons_iff hlens).mpr ⟨hinfo, hinputs, hrest, rfl⟩)

end Client

/-! ## The server -/

section Server

variable (F : Features) (server : PoprfServer)

omit [DecidableEq G] in
/-- The server's tweak encodes the length of an admitted info. -/
theorem all_computeT {info : Bytes} :
    All p (computeT S server info).run ↔ (info.length ≤ MAX_LP_LEN → p (.i2osp2 info.length)) := by
  unfold computeT
  rw [all_checkLpLen_bind]
  refine imp_congr_right fun _ => ?_
  rw [all_run_monadLift_bind, all_framedInfo, and_iff_left (all_run_lift _)]

/-- An evaluation inverts the tweaked key and proves one element, unless it is refused. -/
theorem all_blindEvaluateWithRInner {blinded : BlindedElement G} {info : Bytes} {proofR : Scalar} :
    All p (blindEvaluateWithRInner S F server blinded info proofR).run ↔
      (blinded.point ≠ 0 → (info.length ≤ MAX_LP_LEN → p (.i2osp2 info.length)) ∧
        ∀ t, server.computeT S info = .ok t → p (.scalarInvert t) ∧ EncodesBatch F p 1) := by
  unfold blindEvaluateWithRInner
  rw [all_run_ite, isIdentity_iff, and_iff_right fun _ => all_run_lift _]
  refine imp_congr_right fun _ => ?_
  rw [all_run_bind, all_computeT, value_computeT]
  refine and_congr_right fun _ => forall₂_congr fun t _ => ?_
  rw [all_run_monadLift_bind, all_scalarInvert, all_run_monadLift_bind, all_generateProofWithR,
    and_iff_left (all_run_pure _)]
  · rfl
  · rfl

/-- With a nonce that is given and canonical. -/
theorem all_blindEvaluateWithProofScalar {blinded : BlindedElement G} {info : Bytes}
    {proofRBytes : BytesN 32} :
    All p (blindEvaluateWithProofScalar S F server blinded info proofRBytes).run ↔
      ∀ r, S.deserializeScalar proofRBytes.toList = .ok r →
        All p (blindEvaluateWithRInner S F server blinded info r).run := by
  unfold blindEvaluateWithProofScalar
  rw [all_run_lift_bind]

/-- With a nonce that is drawn after the inversion. -/
theorem all_blindEvaluate {R : Type} [Rng R] {fuel : ℕ} {rng : R} {blinded : BlindedElement G}
    {info : Bytes} :
    All p (blindEvaluate S F server fuel rng blinded info) ↔
      (blinded.point ≠ 0 → (info.length ≤ MAX_LP_LEN → p (.i2osp2 info.length)) ∧
        ∀ t, server.computeT S info = .ok t → p (.scalarInvert t) ∧
          (randomScalar fuel rng = none ∨ EncodesBatch F p 1)) := by
  unfold blindEvaluate
  by_cases hid : blinded.point = 0
  · rw [if_pos (isIdentity_iff.mpr hid)]
    exact iff_of_true (all_pure _) fun h => absurd hid h
  rw [if_neg (mt isIdentity_iff.mp hid), imp_iff_right hid, all_bind, all_computeT, value_computeT]
  refine and_congr_right fun _ => ?_
  cases server.computeT S info with
  | error e =>
    refine iff_of_true (all_pure _) fun t ht => ?_
    cases ht
  | ok t =>
    have hbody : All p (scalarInvert S t >>= fun tInv => do
        let draw ← generateProof S F fuel rng t S.generator (S.scalarMulGen t)
          [scalarMul tInv blinded.point] [blinded.point]
        return draw.map fun res => ((.ok (⟨scalarMul tInv blinded.point⟩, res.1) :
          Except Error (EvaluatedElement G × Proof)), res.2)) ↔
        p (.scalarInvert t) ∧ (randomScalar fuel rng = none ∨ EncodesBatch F p 1) := by
      rw [all_bind, all_scalarInvert, all_bind, all_generateProof, and_iff_left (all_pure _)]
      · rfl
      · rfl
    refine hbody.trans ⟨fun h t' ht' => ?_, fun h => h t rfl⟩
    cases ht'
    exact h

/-- A batch inverts the tweaked key once and proves all elements. -/
theorem all_blindEvaluateBatchWithRInner {blinded : List (BlindedElement G)} {info : Bytes}
    {proofR : Scalar} :
    All p (blindEvaluateBatchWithRInner S F server blinded info proofR).run ↔
      (blinded ≠ [] → (∀ b ∈ blinded, b.point ≠ 0) →
        (info.length ≤ MAX_LP_LEN → p (.i2osp2 info.length)) ∧
        ∀ t, server.computeT S info = .ok t →
          p (.scalarInvert t) ∧ EncodesBatch F p blinded.length) := by
  unfold blindEvaluateBatchWithRInner
  rw [all_run_ite, List.isEmpty_iff, and_iff_right fun _ => all_run_lift _]
  refine imp_congr_right fun _ => ?_
  rw [all_run_check_bind, PoprfServer.forM_checkNotIdentity_eq_ok_iff]
  refine imp_congr_right fun _ => ?_
  rw [all_run_bind, all_computeT, value_computeT]
  refine and_congr_right fun _ => forall₂_congr fun t _ => ?_
  rw [all_run_monadLift_bind, all_scalarInvert, all_run_monadLift_bind, all_generateProofWithR,
    and_iff_left (all_run_pure _), List.length_map]
  rw [List.length_map, List.length_map]

/-- With a nonce that is given and canonical. -/
theorem all_blindEvaluateBatchWithProofScalar {blinded : List (BlindedElement G)} {info : Bytes}
    {proofRBytes : BytesN 32} :
    All p (blindEvaluateBatchWithProofScalar S F server blinded info proofRBytes).run ↔
      ∀ r, S.deserializeScalar proofRBytes.toList = .ok r →
        All p (blindEvaluateBatchWithRInner S F server blinded info r).run := by
  unfold blindEvaluateBatchWithProofScalar
  rw [all_run_lift_bind]

/-- With a nonce that is drawn after the inversion. -/
theorem all_blindEvaluateBatch {R : Type} [Rng R] {fuel : ℕ} {rng : R}
    {blinded : List (BlindedElement G)} {info : Bytes} :
    All p (blindEvaluateBatch S F server fuel rng blinded info) ↔
      (blinded ≠ [] → (∀ b ∈ blinded, b.point ≠ 0) →
        (info.length ≤ MAX_LP_LEN → p (.i2osp2 info.length)) ∧
        ∀ t, server.computeT S info = .ok t → p (.scalarInvert t) ∧
          (randomScalar fuel rng = none ∨ EncodesBatch F p blinded.length)) := by
  unfold blindEvaluateBatch
  by_cases hnil : blinded = []
  · rw [if_pos (List.isEmpty_iff.mpr hnil)]
    exact iff_of_true (all_pure _) fun h => absurd hnil h
  rw [if_neg (mt List.isEmpty_iff.mp hnil), imp_iff_right hnil,
    ← PoprfServer.forM_checkNotIdentity_eq_ok_iff]
  cases forM blinded PoprfServer.checkNotIdentity with
  | error e =>
    refine iff_of_true (all_pure _) fun h => ?_
    cases h
  | ok _ =>
    rw [imp_iff_right rfl]
    show All p ((computeT S server info).run >>= _) ↔ _
    rw [all_bind, all_computeT, value_computeT]
    refine and_congr_right fun _ => ?_
    cases server.computeT S info with
    | error e =>
      refine iff_of_true (all_pure _) fun t ht => ?_
      cases ht
    | ok t =>
      -- the inversion comes before the draw, so that it is logged even if no nonce is found
      have hbody : All p (scalarInvert S t >>= fun tInv => do
          let draw ← generateProof S F fuel rng t S.generator (S.scalarMulGen t)
            (blinded.map fun b => scalarMul tInv b.point) (blinded.map (·.point))
          return draw.map fun res =>
            ((.ok ((blinded.map fun b : BlindedElement G => scalarMul tInv b.point).map
              EvaluatedElement.mk, res.1) : Except Error (List (EvaluatedElement G) × Proof)),
              res.2)) ↔
          p (.scalarInvert t) ∧ (randomScalar fuel rng = none ∨ EncodesBatch F p blinded.length) := by
        rw [all_bind, all_scalarInvert, all_bind, all_generateProof, and_iff_left (all_pure _),
          List.length_map]
        rw [List.length_map, List.length_map]
      refine hbody.trans ⟨fun h t' ht' => ?_, fun h => h t rfl⟩
      cases ht'
      exact h

theorem all_evaluate {input info : Bytes} :
    All p (evaluate S server input info).run ↔
      (input.length ≤ MAX_LP_LEN → S.inputElement input ≠ 0 →
        (info.length ≤ MAX_LP_LEN → p (.i2osp2 info.length)) ∧
        ∀ t, server.computeT S info = .ok t → p (.scalarInvert t) ∧ p (.i2osp2 input.length) ∧
          FinalizesElement S p info (S.scalarInvert t • S.inputElement input)) := by
  unfold evaluate
  rw [all_checkLpLen_bind]
  refine imp_congr_right fun _ => ?_
  rw [all_run_ite, isIdentity_iff, and_iff_right fun _ => all_run_lift _]
  refine imp_congr_right fun _ => ?_
  rw [all_run_bind, all_computeT, value_computeT]
  refine and_congr_right fun _ => forall₂_congr fun t _ => ?_
  rw [all_run_monadLift_bind, all_scalarInvert]
  exact and_congr_right fun _ => all_run_monadLift.trans (all_finalizeHash S)

omit [DecidableEq G] in
theorem all_evaluateTables {tables : List (PoprfInputTable S)} {info : Bytes} :
    All p (evaluateTables S server tables info).run ↔
      (tables ≠ [] → (info.length ≤ MAX_LP_LEN → p (.i2osp2 info.length)) ∧
        ∀ t, server.computeT S info = .ok t → p (.scalarInvert t) ∧
          ∀ tb ∈ tables, FinalizesElement S p info (S.scalarMulFixed (S.scalarInvert t) tb.base)) := by
  unfold evaluateTables
  rw [all_run_ite, List.isEmpty_iff, and_iff_right fun _ => all_run_lift _]
  refine imp_congr_right fun _ => ?_
  rw [all_run_bind, all_computeT, value_computeT]
  refine and_congr_right fun _ => forall₂_congr fun t _ => ?_
  rw [all_run_monadLift_bind, all_scalarInvert]
  refine and_congr_right fun _ => all_run_monadLift.trans (all_mapM.trans ?_)
  exact forall₂_congr fun tb _ => all_finalizeFrom S

end Server

end PoprfRistretto.Instrumented
