import PoprfRistretto.Poprf.Server
import PoprfRistretto.Poprf.Functionality
import PoprfRistretto.DleqTheorems
import PoprfRistretto.Library.ExceptLoop

/-!
# What the server functions compute

One equation or inversion lemma for each function of the server: the checks in their order, then the
value in terms of the protocol's function.
-/

namespace PoprfRistretto

open ExceptLoop

variable {G : Type} [AddCommGroup G] [Module Scalar G] [DecidableEq G]

namespace PoprfServer

variable (S : Suite G) (F : Features) (server : PoprfServer)

omit [DecidableEq G] in
/-- `compute_t` checks the length of `info`, then that `t = skS + m` is invertible. -/
theorem computeT_eq (info : Bytes) :
    server.computeT S info =
      if MAX_LP_LEN < info.length then .error .inputTooLong
      else if server.sk.scalar + S.tweak info = 0 then .error .inverse
      else .ok (server.sk.scalar + S.tweak info) := by
  unfold computeT
  by_cases hinfo : MAX_LP_LEN < info.length
  · rw [checkLpLen_of_gt hinfo, if_pos hinfo]
    rfl
  · rw [checkLpLen_of_le (Nat.le_of_not_lt hinfo), if_neg hinfo, ok_bind]
    simp only [scalarAdd_eq, scalarIsZero_iff]
    rfl

omit [DecidableEq G] in
/-- The tweaked secret key, when the info is admitted and the key is not zero. -/
theorem computeT_eq_ok_iff {info : Bytes} {t : Scalar} :
    server.computeT S info = .ok t ↔
      info.length ≤ MAX_LP_LEN ∧ t = server.sk.scalar + S.tweak info ∧ t ≠ 0 := by
  rw [computeT_eq]
  by_cases hinfo : MAX_LP_LEN < info.length
  · rw [if_pos hinfo]
    simp [Nat.not_le.mpr hinfo]
  · rw [if_neg hinfo]
    by_cases ht : server.sk.scalar + S.tweak info = 0
    · rw [if_pos ht, ht]
      simp
    · rw [if_neg ht, Except.ok.injEq]
      constructor
      · rintro rfl
        exact ⟨Nat.le_of_not_lt hinfo, rfl, ht⟩
      · rintro ⟨-, rfl, -⟩
        rfl

omit [DecidableEq G] in
/-- `compute_t` succeeds with `t = skS + m` when the length and the tweaked key are admitted. -/
theorem computeT_of_ne_zero {info : Bytes} (hinfo : info.length ≤ MAX_LP_LEN)
    (ht : server.sk.scalar + S.tweak info ≠ 0) :
    server.computeT S info = .ok (server.sk.scalar + S.tweak info) :=
  (computeT_eq_ok_iff S server).mpr ⟨hinfo, rfl, ht⟩

/-- `evaluate` checks the input, then `compute_t`, and hashes the divided input element. -/
theorem evaluate_eq (input info : Bytes) :
    server.evaluate S input info =
      if MAX_LP_LEN < input.length then .error .inputTooLong
      else if S.inputElement input = 0 then .error .invalidInput
      else do
        let t ← server.computeT S info
        return S.outputOf input info (S.scalarInvert t • S.inputElement input) := by
  unfold evaluate
  by_cases hinput : MAX_LP_LEN < input.length
  · rw [checkLpLen_of_gt hinput, if_pos hinput]
    rfl
  · rw [checkLpLen_of_le (Nat.le_of_not_lt hinput), if_neg hinput, ok_bind]
    simp only [isIdentity_iff]
    rfl

/-- `evaluate` computes the protocol's function on the admitted requests and fails on the others. -/
theorem evaluate_eq_ok_iff {input info : Bytes} {out : PoprfOutput} :
    server.evaluate S input info = .ok out ↔
      S.Admissible (server.sk.scalar • S.basepoint) input info ∧
        out = S.prf server.sk.scalar input info := by
  rw [evaluate_eq]
  by_cases hinput : MAX_LP_LEN < input.length
  · rw [if_pos hinput]
    constructor
    · intro h
      cases h
    · rintro ⟨hadm, -⟩
      exact absurd hadm.input_le (Nat.not_le.mpr hinput)
  · by_cases helem : S.inputElement input = 0
    · rw [if_neg hinput, if_pos helem]
      constructor
      · intro h
        cases h
      · rintro ⟨hadm, -⟩
        exact absurd helem hadm.inputElement_ne_zero
    · rw [if_neg hinput, if_neg helem, bind_eq_ok_iff]
      constructor
      · rintro ⟨t, ht, h⟩
        obtain ⟨hinfo, rfl, hne⟩ := (computeT_eq_ok_iff S server).mp ht
        refine ⟨⟨Nat.le_of_not_lt hinput, hinfo, helem, ?_⟩, ?_⟩
        · -- the tweaked public key is the identity exactly when the server's scalar is zero
          exact fun h0 => hne ((S.tweakedKey_eq_zero_iff _ _).mp h0)
        · rw [S.scalarInvert_eq_inv hne] at h
          exact (Except.ok.inj h).symm
      · rintro ⟨hadm, rfl⟩
        refine ⟨_, computeT_of_ne_zero S server hadm.info_le hadm.scalar_ne_zero, ?_⟩
        rw [S.scalarInvert_eq_inv hadm.scalar_ne_zero]
        rfl

omit [Module Scalar G] in
/-- The identity check of a batch. -/
theorem forM_checkNotIdentity (blinded : List (BlindedElement G)) :
    forM blinded checkNotIdentity =
      if ∀ b ∈ blinded, b.point ≠ 0 then .ok () else .error Error.inputValidation :=
  forM_check (fun b => by by_cases hb : b.point = 0 <;> simp [checkNotIdentity, hb]) blinded

omit [Module Scalar G] in
/-- The identity check passes on batches without the identity. -/
theorem forM_checkNotIdentity_eq_ok_iff {blinded : List (BlindedElement G)} :
    forM blinded checkNotIdentity = .ok () ↔ ∀ b ∈ blinded, b.point ≠ 0 := by
  rw [forM_checkNotIdentity]
  split <;> simp_all

/-- The elements that a server with evaluation scalar `t` issues. -/
def issue (t : Scalar) (blinded : List (BlindedElement G)) : List (EvaluatedElement G) :=
  blinded.map fun b => ⟨t⁻¹ • b.point⟩

omit [DecidableEq G] in
/-- Issuing keeps the length of the batch. -/
@[simp] theorem length_issue (t : Scalar) (blinded : List (BlindedElement G)) :
    (issue t blinded).length = blinded.length := by
  simp [issue]

omit [DecidableEq G] in
/-- The pairs that a server issues have the discrete logarithm that it proves. -/
theorem map_point_issue {t : Scalar} (ht : t ≠ 0) (blinded : List (BlindedElement G)) :
    blinded.map (·.point) = ((issue t blinded).map (·.point)).map (t • ·) := by
  rw [issue, List.map_map, List.map_map]
  refine List.map_congr_left fun b _ => ?_
  exact (smul_inv_smul₀ ht b.point).symm

/-- The batch body on a batch that passes its checks. -/
theorem blindEvaluateBatchWithRInner_eq_ok {blinded : List (BlindedElement G)} {info : Bytes}
    (hne : blinded ≠ []) (hid : ∀ b ∈ blinded, b.point ≠ 0) {t : Scalar}
    (ht : server.computeT S info = .ok t) (r : Scalar) :
    server.blindEvaluateBatchWithRInner S F blinded info r =
      .ok (issue t blinded, S.generateProofWithR F t S.basepoint (t • S.basepoint)
        ((issue t blinded).map (·.point)) (blinded.map (·.point)) r) := by
  obtain ⟨-, -, hne0⟩ := (computeT_eq_ok_iff S server).mp ht
  have hevals : blinded.map (fun b => scalarMul (S.scalarInvert t) b.point) =
      (issue t blinded).map (·.point) := by
    rw [S.scalarInvert_eq_inv hne0, issue, List.map_map]
    rfl
  have hissue : ((issue t blinded).map (·.point)).map EvaluatedElement.mk = issue t blinded := by
    rw [List.map_map]
    exact List.map_id _
  unfold blindEvaluateBatchWithRInner
  rw [if_neg (by simpa using hne), forM_checkNotIdentity, if_pos hid, ok_bind, ht, ok_bind]
  simp only [hevals, hissue]
  rfl

/-- The single-token body on an element that passes its checks. -/
theorem blindEvaluateWithRInner_eq_ok {blinded : BlindedElement G} {info : Bytes}
    (hid : blinded.point ≠ 0) {t : Scalar} (ht : server.computeT S info = .ok t) (r : Scalar) :
    server.blindEvaluateWithRInner S F blinded info r =
      .ok (⟨t⁻¹ • blinded.point⟩, S.generateProofWithR F t S.basepoint (t • S.basepoint)
        [t⁻¹ • blinded.point] [blinded.point] r) := by
  obtain ⟨-, -, hne0⟩ := (computeT_eq_ok_iff S server).mp ht
  unfold blindEvaluateWithRInner
  rw [if_neg (by simpa using hid), ht, ok_bind, S.scalarInvert_eq_inv hne0]
  rfl

/-- What the single-token body returns: the checks in their order, then the issued element. -/
theorem blindEvaluateWithRInner_eq (blinded : BlindedElement G) (info : Bytes) (r : Scalar) :
    server.blindEvaluateWithRInner S F blinded info r =
      if blinded.point = 0 then .error .inputValidation
      else (server.computeT S info).map fun t =>
        (⟨t⁻¹ • blinded.point⟩, S.generateProofWithR F t S.basepoint (t • S.basepoint)
          [t⁻¹ • blinded.point] [blinded.point] r) := by
  by_cases hid : blinded.point = 0
  · unfold blindEvaluateWithRInner
    rw [if_pos (isIdentity_iff.mpr hid), if_pos hid]
  · rw [if_neg hid]
    cases ht : server.computeT S info with
    | error e =>
      unfold blindEvaluateWithRInner
      rw [if_neg (mt isIdentity_iff.mp hid), ht]
      rfl
    | ok t => exact blindEvaluateWithRInner_eq_ok S F server hid ht r

/-- What the batch body returns: the checks in their order, then the issued elements. -/
theorem blindEvaluateBatchWithRInner_eq (blinded : List (BlindedElement G)) (info : Bytes)
    (r : Scalar) :
    server.blindEvaluateBatchWithRInner S F blinded info r =
      if blinded = [] then .error .lengthMismatch
      else if ∃ b ∈ blinded, b.point = 0 then .error .inputValidation
      else (server.computeT S info).map fun t =>
        (issue t blinded, S.generateProofWithR F t S.basepoint (t • S.basepoint)
          ((issue t blinded).map (·.point)) (blinded.map (·.point)) r) := by
  by_cases hnil : blinded = []
  · subst hnil
    rfl
  · have hempty : ¬blinded.isEmpty = true := by simpa using hnil
    rw [if_neg hnil]
    by_cases hid : ∃ b ∈ blinded, b.point = 0
    · have hnot : ¬∀ b ∈ blinded, b.point ≠ 0 := fun h =>
        hid.elim fun b hb => h b hb.1 hb.2
      unfold blindEvaluateBatchWithRInner
      rw [if_neg hempty, forM_checkNotIdentity, if_neg hnot, if_pos hid, error_bind]
    · have hall : ∀ b ∈ blinded, b.point ≠ 0 := fun b hb h0 => hid ⟨b, hb, h0⟩
      rw [if_neg hid]
      cases ht : server.computeT S info with
      | error e =>
        unfold blindEvaluateBatchWithRInner
        rw [if_neg hempty, forM_checkNotIdentity, if_pos hall, ok_bind, ht]
        rfl
      | ok t => exact blindEvaluateBatchWithRInner_eq_ok S F server hnil hall ht r

/-- The batch body succeeds exactly on a batch that passes its checks. -/
theorem blindEvaluateBatchWithRInner_eq_ok_iff {blinded : List (BlindedElement G)} {info : Bytes}
    {r : Scalar} {res : List (EvaluatedElement G) × Proof} :
    server.blindEvaluateBatchWithRInner S F blinded info r = .ok res ↔
      blinded ≠ [] ∧ (∀ b ∈ blinded, b.point ≠ 0) ∧ ∃ t, server.computeT S info = .ok t ∧
        res = (issue t blinded, S.generateProofWithR F t S.basepoint (t • S.basepoint)
          ((issue t blinded).map (·.point)) (blinded.map (·.point)) r) := by
  rw [blindEvaluateBatchWithRInner_eq]
  by_cases hnil : blinded = []
  · simp [hnil]
  rw [if_neg hnil, and_iff_right hnil]
  by_cases hid : ∃ b ∈ blinded, b.point = 0
  · rw [if_pos hid]
    refine ⟨fun h => ?_, fun ⟨h, _⟩ => ?_⟩
    · cases h
    · exact hid.elim fun b hb => absurd hb.2 (h b hb.1)
  · have hall : ∀ b ∈ blinded, b.point ≠ 0 := fun b hb h0 => hid ⟨b, hb, h0⟩
    rw [if_neg hid, and_iff_right hall, map_eq_ok_iff]
    simp only [eq_comm]

/-- The single-token body succeeds exactly on an element that passes its checks. -/
theorem blindEvaluateWithRInner_eq_ok_iff {blinded : BlindedElement G} {info : Bytes} {r : Scalar}
    {res : EvaluatedElement G × Proof} :
    server.blindEvaluateWithRInner S F blinded info r = .ok res ↔
      blinded.point ≠ 0 ∧ ∃ t, server.computeT S info = .ok t ∧
        res = (⟨t⁻¹ • blinded.point⟩, S.generateProofWithR F t S.basepoint (t • S.basepoint)
          [t⁻¹ • blinded.point] [blinded.point] r) := by
  rw [blindEvaluateWithRInner_eq]
  by_cases hid : blinded.point = 0
  · simp [hid]
  · rw [if_neg hid, and_iff_right hid, map_eq_ok_iff]
    simp only [eq_comm]

/-- The proof of a batch is accepted under the tweaked key, in any build. -/
theorem verifyProof_blindEvaluateBatchWithRInner (F' : Features) {info : Bytes}
    {blinded : List (BlindedElement G)} {evaluated : List (EvaluatedElement G)} {proof : Proof}
    {r : Scalar}
    (h : server.blindEvaluateBatchWithRInner S F blinded info r = .ok (evaluated, proof)) :
    S.verifyProof F' S.generator (S.tweakedKey (server.publicKey S).point info)
      (evaluated.map (·.point)) (blinded.map (·.point)) proof = .ok () := by
  obtain ⟨-, -, t, ht, hres⟩ := (blindEvaluateBatchWithRInner_eq_ok_iff S F server).mp h
  obtain ⟨-, rfl, hne⟩ := (computeT_eq_ok_iff S server).mp ht
  obtain ⟨rfl, rfl⟩ := Prod.mk.inj hres
  have hkey : S.tweakedKey (server.publicKey S).point info =
      (server.sk.scalar + S.tweak info) • S.basepoint := S.tweakedKey_smul_basepoint _ info
  rw [hkey]
  exact S.verifyProof_generateProofWithR F F' _ _ _ _ (map_point_issue hne blinded) r

/-- The proof of a single token is accepted under the tweaked key, in any build. -/
theorem verifyProof_blindEvaluateWithRInner (F' : Features) {info : Bytes}
    {blinded : BlindedElement G}
    {evaluated : EvaluatedElement G} {proof : Proof} {r : Scalar}
    (h : server.blindEvaluateWithRInner S F blinded info r = .ok (evaluated, proof)) :
    S.verifyProof F' S.generator (S.tweakedKey (server.publicKey S).point info)
      [evaluated.point] [blinded.point] proof = .ok () := by
  obtain ⟨-, t, ht, hres⟩ := (blindEvaluateWithRInner_eq_ok_iff S F server).mp h
  obtain ⟨-, rfl, hne⟩ := (computeT_eq_ok_iff S server).mp ht
  obtain ⟨rfl, rfl⟩ := Prod.mk.inj hres
  have hkey : S.tweakedKey (server.publicKey S).point info =
      (server.sk.scalar + S.tweak info) • S.basepoint := S.tweakedKey_smul_basepoint _ info
  rw [hkey]
  exact S.verifyProof_generateProofWithR F F' _ _ _ _ (map_point_issue hne [blinded]) r

/-- The rng variant draws a nonce and returns what the body returns for it. -/
theorem blindEvaluateBatch_eq_some {R : Type} [Rng R] {fuel : ℕ} {rng rng' : R}
    {blinded : List (BlindedElement G)} {info : Bytes}
    {res : Except Error (List (EvaluatedElement G) × Proof)}
    (h : server.blindEvaluateBatch S F fuel rng blinded info = some (res, rng')) :
    ∃ r, res = server.blindEvaluateBatchWithRInner S F blinded info r := by
  unfold blindEvaluateBatch at h
  unfold blindEvaluateBatchWithRInner
  -- a check that fails does so before the nonce is drawn, and for every nonce
  by_cases hnil : blinded.isEmpty
  · rw [if_pos hnil] at h
    cases h
    exact ⟨0, (if_pos hnil).symm⟩
  · rw [if_neg hnil] at h
    simp only [if_neg hnil]
    cases hcheck : forM blinded checkNotIdentity with
    | error e =>
      rw [hcheck] at h
      cases h
      exact ⟨0, rfl⟩
    | ok _ =>
      rw [hcheck] at h
      cases ht : server.computeT S info with
      | error e =>
        rw [ht] at h
        cases h
        exact ⟨0, rfl⟩
      | ok t =>
        rw [ht] at h
        simp only [Suite.generateProof, Option.bind_eq_bind, Option.pure_def,
          Option.bind_eq_some_iff] at h
        obtain ⟨⟨proof, rng₁⟩, ⟨⟨r, rng₂⟩, -, hproof⟩, hres⟩ := h
        cases hproof
        cases hres
        exact ⟨r, rfl⟩

/-- The rng variant draws a nonce and returns what the body returns for it. -/
theorem blindEvaluate_eq_some {R : Type} [Rng R] {fuel : ℕ} {rng rng' : R}
    {blinded : BlindedElement G} {info : Bytes} {res : Except Error (EvaluatedElement G × Proof)}
    (h : server.blindEvaluate S F fuel rng blinded info = some (res, rng')) :
    ∃ r, res = server.blindEvaluateWithRInner S F blinded info r := by
  unfold blindEvaluate at h
  unfold blindEvaluateWithRInner
  by_cases hid : isIdentity blinded.point
  · rw [if_pos hid] at h
    cases h
    -- the error does not depend on the nonce, which is not drawn
    exact ⟨0, (if_pos hid).symm⟩
  · rw [if_neg hid] at h
    simp only [if_neg hid]
    cases ht : server.computeT S info with
    | error e =>
      rw [ht] at h
      cases h
      exact ⟨0, rfl⟩
    | ok t =>
      rw [ht] at h
      simp only [Suite.generateProof, Option.bind_eq_bind, Option.pure_def,
        Option.bind_eq_some_iff] at h
      obtain ⟨⟨proof, rng₁⟩, ⟨⟨r, rng₂⟩, -, hproof⟩, hres⟩ := h
      cases hproof
      cases hres
      exact ⟨r, rfl⟩

/-- The proof-scalar variant parses the nonce and runs the body on it. -/
theorem blindEvaluateBatchWithProofScalar_eq (blinded : List (BlindedElement G)) (info : Bytes)
    (r : Scalar) :
    server.blindEvaluateBatchWithProofScalar S F blinded info (S.serializeScalarArray r) =
      server.blindEvaluateBatchWithRInner S F blinded info r := by
  unfold blindEvaluateBatchWithProofScalar
  rw [S.deserializeScalar_serializeScalarArray, ok_bind]

/-- The proof-scalar variant parses the nonce and runs the body on it. -/
theorem blindEvaluateWithProofScalar_eq (blinded : BlindedElement G) (info : Bytes) (r : Scalar) :
    server.blindEvaluateWithProofScalar S F blinded info (S.serializeScalarArray r) =
      server.blindEvaluateWithRInner S F blinded info r := by
  unfold blindEvaluateWithProofScalar
  rw [S.deserializeScalar_serializeScalarArray, ok_bind]

end PoprfServer

/-! ## Pre-hashed inputs -/

/-- A table is built from the inputs that fit and are hashed off the identity. -/
theorem PoprfInputTable.new_eq_ok_iff (S : Suite G) (F : Features) {input : Bytes}
    {tb : PoprfInputTable S} :
    PoprfInputTable.new S F input = .ok tb ↔
      input.length ≤ MAX_LP_LEN ∧ S.inputElement input ≠ 0 ∧
        tb = ⟨S.lpHasher input, input.length, S.fixedBase F (S.inputElement input)⟩ := by
  unfold PoprfInputTable.new
  rw [check_bind_eq_ok_iff, checkLpLen_eq_ok_iff]
  refine and_congr_right fun _ => ?_
  show (if isIdentity (S.inputElement input) then Except.error Error.invalidInput
    else .ok ⟨S.lpHasher input, input.length, S.fixedBase F (S.inputElement input)⟩) = .ok tb ↔ _
  by_cases helem : S.inputElement input = 0
  · rw [if_pos (isIdentity_iff.mpr helem)]
    simp [helem]
  · rw [if_neg (mt isIdentity_iff.mp helem), Except.ok.injEq, and_iff_right helem]
    exact eq_comm

namespace PoprfServer

variable (S : Suite G) (F : Features) (server : PoprfServer)

/-- What is left of `evaluate` once a table of the input was built. -/
theorem evaluate_eq_of_table {input : Bytes} {tb : PoprfInputTable S}
    (h : PoprfInputTable.new S F input = .ok tb) (info : Bytes) :
    server.evaluate S input info = do
      let t ← server.computeT S info
      return S.outputOf input info (S.scalarInvert t • S.inputElement input) := by
  obtain ⟨hinput, helem, -⟩ := (PoprfInputTable.new_eq_ok_iff S F).mp h
  rw [evaluate_eq, if_neg (Nat.not_lt.mpr hinput), if_neg helem]

/-- A table resumes the hash of its input and multiplies its input element. -/
theorem finalizeFrom_table {input : Bytes} {tb : PoprfInputTable S}
    (h : PoprfInputTable.new S F input = .ok tb) (info : Bytes) (s : Scalar) :
    S.finalizeFrom tb.hashPrefix info (S.serializeElementArray (S.scalarMulFixed s tb.base)).toList =
      S.outputOf input info (s • S.inputElement input) := by
  obtain ⟨-, -, rfl⟩ := (PoprfInputTable.new_eq_ok_iff S F).mp h
  show S.finalizeHash input info (S.serializeElement (S.scalarMulFixed s (S.fixedBase F _))) = _
  rw [S.scalarMulFixed_fixedBase, Suite.outputOf]

/-- `evaluate_tables` on tables of `inputs` shares one `compute_t`. -/
theorem evaluateTables_eq {inputs : List Bytes} {tables : List (PoprfInputTable S)}
    (hne : tables ≠ [])
    (h : List.Forall₂ (fun input tb => PoprfInputTable.new S F input = .ok tb) inputs tables)
    (info : Bytes) :
    server.evaluateTables S tables info = do
      let t ← server.computeT S info
      return inputs.map fun input =>
        S.outputOf input info (S.scalarInvert t • S.inputElement input) := by
  have houts : ∀ t : Scalar,
      (tables.map fun tb => S.finalizeFrom tb.hashPrefix info
        (S.serializeElementArray (S.scalarMulFixed (S.scalarInvert t) tb.base)).toList) =
      inputs.map fun input => S.outputOf input info (S.scalarInvert t • S.inputElement input) := by
    intro t
    clear hne
    induction h with
    | nil => rfl
    | cons htb _ ih => rw [List.map_cons, List.map_cons, ih, finalizeFrom_table S F htb]
  unfold evaluateTables
  rw [if_neg (by simpa using hne)]
  simp only [houts]

end PoprfServer

end PoprfRistretto
