import PoprfRistretto.Api.Calls
import PoprfRistretto.Instrumented.Events
import PoprfRistretto.ReferenceSuite

/-!
# Two-byte prefixes

Every length that is encoded in two bytes was checked against the cap before. The indices of a batch
are encoded in two bytes as well, and the length of a batch is checked by no function: from 65537
elements on the index wraps around in a release build, and a debug build panics.
-/

namespace PoprfRistretto

open Instrumented Logged

variable {G : Type} [AddCommGroup G] [Module Scalar G] [DecidableEq G]

/-- The encoded value is not truncated. -/
def Instrumented.Event.Fits : Event → Prop
  | i2osp2 x => x ≤ 65535
  | _ => True

section

variable (S : Suite G)

/-- The server refuses the batch before it makes a proof. -/
def PoprfServer.RefusesBatch (server : PoprfServer) (blinded : List (BlindedElement G))
    (info : Bytes) : Prop :=
  (∃ b ∈ blinded, b.point = 0) ∨ MAX_LP_LEN < info.length ∨ server.sk.scalar + S.tweak info = 0

end

variable {S : Suite G} {R : Type} [Rng R] {F : Features}

/-- A call encodes no value above `u16::MAX`, and different values differently. -/
structure Call.PrefixesSafe (F : Features) (c : Call S R) : Prop where
  le : ∀ x, .i2osp2 x ∈ (c.exec F).log → x ≤ 65535
  injective : ∀ x y, .i2osp2 x ∈ (c.exec F).log → .i2osp2 y ∈ (c.exec F).log →
    i2osp2 x = i2osp2 y → x = y

/-- The batch has at most `2 ^ 16` elements, or the call ends before their indices are encoded. -/
def Call.BatchFits : Call S R → Prop
  | finalizeBatch _ inputs states evaluated blinded _ info =>
    inputs.length ≤ 65536 ∨
      ¬∃ key, PoprfClient.BatchChecked inputs states evaluated blinded info key
  | blindEvaluateBatch server fuel rng blinded info =>
    blinded.length ≤ 65536 ∨ server.RefusesBatch S blinded info ∨ randomScalar fuel rng = none
  | blindEvaluateBatchWithProofScalar server blinded info proofRBytes =>
    blinded.length ≤ 65536 ∨ server.RefusesBatch S blinded info ∨
      ∀ r, S.deserializeScalar proofRBytes.toList ≠ .ok r
  | _ => True

/-- Values that fit are encoded differently. -/
theorem Call.prefixesSafe_iff_all {c : Call S R} :
    c.PrefixesSafe F ↔ All Event.Fits (c.exec F) := by
  constructor
  · intro h e he
    cases e with
    | i2osp2 x => exact h.le x he
    | scalarInvert _ => trivial
    | finalizeFrom _ => trivial
    | composites _ _ => trivial
    | msm _ _ => trivial
  · intro h
    exact ⟨fun x hx => h _ hx, fun x y hx hy heq => i2osp2_injOn (h _ hx) (h _ hy) heq⟩

/-! ## What fits -/

/-- A value within the cap fits. -/
theorem fits_of_le {buf : Bytes} (h : buf.length ≤ MAX_LP_LEN) :
    Event.Fits (.i2osp2 buf.length) := h.trans (by decide)

/-- The indices of a batch of `2 ^ 16` elements are the two-byte values. -/
theorem encodesBatch_fits_iff {n : ℕ} : EncodesBatch F Event.Fits n ↔ n ≤ 65536 := by
  have hfixed : Event.Fits (.i2osp2 32) ∧ Event.Fits (.i2osp2 SEED_DST.length) ∧
      Event.Fits (.i2osp2 64) := by
    unfold Event.Fits
    decide +kernel
  unfold EncodesBatch
  have hlists : Event.Fits (.composites n n) ∧ (F.fastDleq = true → Event.Fits (.msm n n)) :=
    ⟨trivial, fun _ => trivial⟩
  rw [and_iff_right hfixed, and_iff_left hlists]
  show (∀ i < n, i ≤ 65535) ↔ n ≤ 65536
  constructor
  -- in a longer batch the index `2 ^ 16` occurs, the first that does not fit
  · intro h
    by_contra hn
    have hlast := h 65536 (by omega)
    omega
  · intro hn i hi
    omega

omit [DecidableEq G] in
/-- The prefixes of the hash that finalizes an element fit for every admitted info. -/
theorem finalizesElement_fits {info : Bytes} (hinfo : info.length ≤ MAX_LP_LEN) (P : G) :
    FinalizesElement S Event.Fits info P :=
  ⟨trivial, fits_of_le hinfo, by unfold Event.Fits; decide⟩

omit [DecidableEq G] in
/-- Unblinding encodes the lengths of the input and of the info, which are admitted. -/
theorem unblinds_fits {input info : Bytes} (hinput : input.length ≤ MAX_LP_LEN)
    (hinfo : info.length ≤ MAX_LP_LEN) (state : PoprfBlindState G)
    (evaluated : EvaluatedElement G) : Unblinds S Event.Fits input info state evaluated :=
  ⟨trivial, fits_of_le hinput, finalizesElement_fits hinfo _⟩

omit [DecidableEq G] in
/-- A server that does not refuse a batch has passed its checks. -/
theorem PoprfServer.not_refusesBatch_iff {server : PoprfServer} {blinded : List (BlindedElement G)}
    {info : Bytes} :
    ¬server.RefusesBatch S blinded info ↔
      (∀ b ∈ blinded, b.point ≠ 0) ∧ ∃ t, server.computeT S info = .ok t := by
  unfold RefusesBatch
  simp only [PoprfServer.computeT_eq_ok_iff, not_or, not_exists, not_and, Nat.not_lt]
  refine and_congr_right fun _ => ?_
  constructor
  · rintro ⟨hinfo, ht⟩
    exact ⟨_, hinfo, rfl, ht⟩
  · rintro ⟨_, hinfo, rfl, ht⟩
    exact ⟨hinfo, ht⟩

omit [DecidableEq G] in
/-- The events of a batch evaluation fit if those of its proof do, or no proof is made. -/
theorem blindEvaluateBatch_fits_iff {server : PoprfServer} {blinded : List (BlindedElement G)}
    {info : Bytes} {q : Prop} :
    (blinded ≠ [] → (∀ b ∈ blinded, b.point ≠ 0) →
      (info.length ≤ MAX_LP_LEN → Event.Fits (.i2osp2 info.length)) ∧
      ∀ t, server.computeT S info = .ok t → Event.Fits (.scalarInvert t) ∧ q) ↔
    blinded = [] ∨ server.RefusesBatch S blinded info ∨ q := by
  constructor
  · intro h
    by_cases hne : blinded = []
    · exact .inl hne
    by_cases hrefused : server.RefusesBatch S blinded info
    · exact .inr (.inl hrefused)
    obtain ⟨hid, t, ht⟩ := PoprfServer.not_refusesBatch_iff.mp hrefused
    exact .inr (.inr ((h hne hid).2 t ht).2)
  · intro h hne hid
    refine ⟨fits_of_le, fun t ht => ⟨trivial, ?_⟩⟩
    have hrefused := PoprfServer.not_refusesBatch_iff.mpr ⟨hid, t, ht⟩
    exact (h.resolve_left hne).resolve_left hrefused

/-! ## Calls -/

/-- Every prefix of `finalize_batch` fits if the indices of the batch do. -/
theorem finalizeBatch_fits_iff {inputs : List Bytes} {states : List (PoprfBlindState G)}
    {evaluated : List (EvaluatedElement G)} {blinded : List (BlindedElement G)} {proof : Proof}
    {info : Bytes} :
    All Event.Fits (finalizeBatch S F inputs states evaluated blinded proof info).run ↔
      inputs.length ≤ 65536 ∨
        ¬∃ key, PoprfClient.BatchChecked inputs states evaluated blinded info key := by
  rw [all_finalizeBatch, or_comm, ← imp_iff_not_or]
  constructor
  · rintro h ⟨key, hchecked⟩
    exact encodesBatch_fits_iff.mp (h key hchecked).1
  · intro h key hchecked
    refine ⟨encodesBatch_fits_iff.mpr (h ⟨key, hchecked⟩), ?_⟩
    rintro - ⟨⟨input, state⟩, e⟩ htoken
    have hinput := (List.of_mem_zip (List.of_mem_zip htoken).1).1
    exact unblinds_fits (hchecked.inputs_le input hinput) hchecked.info_le state e

/-- Every prefix that a call encodes fits exactly when the indices of its batch do. -/
theorem Call.all_fits_iff {c : Call S R} : All Event.Fits (c.exec F) ↔ c.BatchFits := by
  have hone : EncodesBatch F Event.Fits 1 := encodesBatch_fits_iff.mpr (by decide)
  cases c with
  -- the three calls that take a batch
  | finalizeBatch client inputs states evaluated blinded proof info =>
    exact all_map.trans finalizeBatch_fits_iff
  | blindEvaluateBatch server fuel rng blinded info =>
    refine all_map.trans ((all_blindEvaluateBatch S F server).trans ?_)
    rw [blindEvaluateBatch_fits_iff, encodesBatch_fits_iff]
    show _ ↔ _ ≤ _ ∨ _ ∨ _
    constructor
    · rintro (rfl | hrefused | hdraw | hlen)
      · exact .inl (Nat.zero_le _)
      · exact .inr (.inl hrefused)
      · exact .inr (.inr hdraw)
      · exact .inl hlen
    · rintro (hlen | hrefused | hdraw)
      · exact .inr (.inr (.inr hlen))
      · exact .inr (.inl hrefused)
      · exact .inr (.inr (.inl hdraw))
  | blindEvaluateBatchWithProofScalar server blinded info proofRBytes =>
    refine all_map.trans ((all_blindEvaluateBatchWithProofScalar S F server).trans ?_)
    simp only [all_blindEvaluateBatchWithRInner, blindEvaluateBatch_fits_iff, encodesBatch_fits_iff]
    show _ ↔ _ ≤ _ ∨ _ ∨ _
    constructor
    · intro h
      by_cases hr : ∃ r, S.deserializeScalar proofRBytes.toList = .ok r
      · obtain ⟨r, hr⟩ := hr
        rcases h r hr with rfl | hrefused | hlen
        · exact .inl (Nat.zero_le _)
        · exact .inr (.inl hrefused)
        · exact .inl hlen
      · exact .inr (.inr (not_exists.mp hr))
    · rintro (hlen | hrefused | hparse) r hr
      · exact .inr (.inr hlen)
      · exact .inr (.inl hrefused)
      · exact absurd hr (hparse r)
  -- the others encode lengths that were checked and at most the index of one element
  | deriveKeyPair seed info =>
    exact iff_of_true (all_map.mpr ((all_deriveKeyPair S).mpr fits_of_le)) trivial
  | serverFromSeed seed info =>
    exact iff_of_true (all_map.mpr ((all_fromSeed S).mpr fits_of_le)) trivial
  | blind client fuel input info rng =>
    exact iff_of_true (all_map.mpr ((all_blind S client).mpr fun _ _ => fits_of_le)) trivial
  | blindWithScalar client input info blindBytes =>
    exact iff_of_true
      (all_map.mpr ((all_blindWithScalar S client).mpr fun _ _ _ => fits_of_le)) trivial
  | finalize client input state evaluated blinded proof info =>
    refine iff_of_true (all_map.mpr ((all_finalize S F).mpr fun hinput hinfo => ?_)) trivial
    exact ⟨hone, fun _ => unblinds_fits hinput hinfo state evaluated⟩
  | blindEvaluate server fuel rng blinded info =>
    refine iff_of_true (all_map.mpr ((all_blindEvaluate S F server).mpr fun _ => ?_)) trivial
    exact ⟨fits_of_le, fun _ _ => ⟨trivial, .inr hone⟩⟩
  | blindEvaluateWithProofScalar server blinded info proofRBytes =>
    refine iff_of_true (all_map.mpr ((all_blindEvaluateWithProofScalar S F server).mpr
      fun r _ => (all_blindEvaluateWithRInner S F server).mpr fun _ => ?_)) trivial
    exact ⟨fits_of_le, fun _ _ => ⟨trivial, hone⟩⟩
  | evaluate server input info =>
    refine iff_of_true (all_map.mpr ((all_evaluate S server).mpr fun hinput _ => ?_)) trivial
    refine ⟨fits_of_le, fun t ht => ⟨trivial, fits_of_le hinput, finalizesElement_fits ?_ _⟩⟩
    exact ((PoprfServer.computeT_eq_ok_iff S server).mp ht).1
  | tableNew input =>
    exact iff_of_true (all_map.mpr ((all_newTable S).mpr fun hinput _ => fits_of_le hinput)) trivial
  | evaluateTables server tables info =>
    refine iff_of_true (all_map.mpr ((all_evaluateTables S server).mpr fun _ => ?_)) trivial
    refine ⟨fits_of_le, fun t ht => ⟨trivial, fun tb _ => finalizesElement_fits ?_ _⟩⟩
    exact ((PoprfServer.computeT_eq_ok_iff S server).mp ht).1
  | _ => exact iff_of_true (all_pure _) trivial

/-- A call of a public function truncates no two-byte value, and gives different values different
bytes, exactly when its batch has at most `2 ^ 16` elements or is refused before the proof. -/
theorem prefixesSafe_iff_batchFits (S : Suite G) {R : Type} [Rng R] (F : Features) (c : Call S R) :
    c.PrefixesSafe F ↔ c.BatchFits :=
  Call.prefixesSafe_iff_all.trans Call.all_fits_iff

/-- A server of the executable suite answers a batch of 65537 elements, whose first and last weights
are computed from the same index bytes. -/
theorem batch_index_wraps :
    let blinded : List (BlindedElement Scalar) := List.replicate 65537 ⟨1⟩
    let c : Call referenceSuite Replay := .blindEvaluateBatchWithProofScalar ⟨⟨5⟩⟩ blinded []
      (referenceSuite.serializeScalarArray 11)
    (∃ values, c.run ⟨true, true⟩ = some (.ok values)) ∧
      .i2osp2 0 ∈ (c.exec ⟨true, true⟩).log ∧ .i2osp2 65536 ∈ (c.exec ⟨true, true⟩).log ∧
      PoprfRistretto.i2osp2 0 = PoprfRistretto.i2osp2 65536 ∧ ¬c.PrefixesSafe ⟨true, true⟩ := by
  intro blinded c
  have hne : blinded ≠ [] := List.cons_ne_nil _ _
  have hid : ∀ b ∈ blinded, b.point ≠ 0 := by
    intro b hb
    rw [List.eq_of_mem_replicate hb]
    exact one_ne_zero
  have ht : (PoprfServer.mk ⟨5⟩).computeT referenceSuite [] = .ok (5 + referenceSuite.tweak []) :=
    PoprfServer.computeT_of_ne_zero _ _ (by decide) (by decide +kernel)
  -- every index of the batch is encoded
  have hindex : ∀ i < 65537, Event.i2osp2 i ∈ (c.exec ⟨true, true⟩).log := by
    intro i hi
    refine mem_log_iff.mpr fun h => ?_
    have hbody := (all_blindEvaluateBatchWithProofScalar _ _ _).mp (all_map.mp h) 11
      (Suite.deserializeScalar_serializeScalarArray _ _)
    have hbatch := (((all_blindEvaluateBatchWithRInner _ _ _).mp hbody hne hid).2 _ ht).2
    rw [List.length_replicate] at hbatch
    exact hbatch.2.1 i hi rfl
  have hwraps : PoprfRistretto.i2osp2 0 = PoprfRistretto.i2osp2 65536 := i2osp2_eq_iff.mpr rfl
  refine ⟨?_, hindex 0 (by decide), hindex 65536 (by decide), hwraps, fun h => ?_⟩
  · have hres := (PoprfServer.blindEvaluateBatchWithProofScalar_eq _ _ _ blinded [] 11).trans
      (PoprfServer.blindEvaluateBatchWithRInner_eq_ok _ ⟨true, true⟩ _ hne hid ht 11)
    exact ⟨_, returns_eq_ok_iff.mpr ⟨_, hres, rfl⟩⟩
  · exact absurd (h.injective _ _ (hindex 0 (by decide)) (hindex 65536 (by decide)) hwraps)
      (by decide)

end PoprfRistretto
