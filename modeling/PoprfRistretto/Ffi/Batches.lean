import PoprfRistretto.Ffi.Contracts
import PoprfRistretto.ReferenceSuite

/-!
# The batch functions of the C ABI

`poprf_blind_evaluate_batch` and `poprf_evaluate_tables` either write every slot that the caller gave
them, with what the core returns for the handles in order, or leave the caller's memory alone.
-/

namespace PoprfRistretto.Ffi

open Memory PartialState

variable {G : Type} [AddCommGroup G] [Module Scalar G] {S : Suite G} {R : Type}

/-! ## The batch functions -/

/-- On a failure the caller's memory is as it was, on success the slots are written. -/
def AllOrNothing (s : State S R) (Written : State S R → Prop) (ret : ℤ) (s' : State S R) : Prop :=
  (ret ≠ 0 → s'.memory = s.memory) ∧ (ret = 0 → Written s')

/-- What `poprf_blind_evaluate_batch` has done when it succeeds: the slots hold what the core returns
for the elements that the handles point to. The proof is written last: where the caller has passed its
slot for an element as well, it is the proof that is there. -/
def BlindEvaluateBatchDone [DecidableEq G] (F : Features) [Rng R] (fuel : ℕ) (s : State S R)
    (sk blindedArr : Ptr) (n : ℕ) (info : RawSlice) (outEvaluated outProof : Ptr) (s' : State S R) :
    Prop :=
  ∃ skS box blindeds infoBytes evaluateds proof osRng,
    s.heap.get sk = some ⟨.secretKey, skS⟩ ∧
    (blindeds.length = n ∧ PointsTo s .blindedElement blindedArr box blindeds) ∧
    bytesFromRaw info = some infoBytes ∧
    (PoprfServer.new skS).blindEvaluateBatch S F fuel s.osRng blindeds infoBytes =
      some (.ok (evaluateds, proof), osRng) ∧
    (evaluateds.length = n ∧
      HoldsNewBut s s' outProof .evaluatedElement outEvaluated evaluateds ∧
      ((∀ i < n, outEvaluated + i ≠ outProof) →
        HoldsNew s s' .evaluatedElement outEvaluated evaluateds)) ∧
    HoldsNew s s' .proof outProof [proof]

/-- What `poprf_evaluate_tables` has done when it succeeds. -/
def EvaluateTablesDone (s : State S R) (sk tablesArr : Ptr) (n : ℕ) (info : RawSlice)
    (outOutputs : Ptr) (s' : State S R) : Prop :=
  ∃ skS box tables infoBytes outputs,
    s.heap.get sk = some ⟨.secretKey, skS⟩ ∧
    (tables.length = n ∧ PointsTo s .inputTable tablesArr box tables) ∧
    bytesFromRaw info = some infoBytes ∧
    (PoprfServer.new skS).evaluateTables S tables infoBytes = .ok outputs ∧
    outputs.length = n ∧ HoldsNew s s' .output outOutputs outputs

/-- A call that fails before it writes leaves the caller's memory alone. -/
theorem post_failWith {s u : State S R} {Written : State S R → Prop} (msg : String)
    (hu : u.memory = s.memory) :
    Post (failWith msg (-1)) u (AllOrNothing s Written) :=
  post_bind (post_modify (post_pure ⟨fun _ => hu, fun h => absurd h (by decide)⟩))

/-- The proof is written after the evaluated elements. -/
theorem post_writeProof {s u : State S R} {out : Ptr} {evaluateds : List (EvaluatedElement G)}
    (outProof : Ptr) (proof : Proof) (h : Filled s .evaluatedElement out evaluateds u) :
    Post (do
      let p ← intoRaw .proof proof
      writePointer outProof p
      return (0 : ℤ)) u fun ret s' => ret = 0 ∧
        HoldsNewBut s s' outProof .evaluatedElement out evaluateds ∧
        HoldsNew s s' .proof outProof [proof] := by
  intro ret s' hrun
  obtain ⟨p, u₁, hbox, hrun⟩ := run_bind_eq_some_iff.mp hrun
  cases hbox
  obtain ⟨_, u₂, hwrite, hrun⟩ := run_bind_eq_some_iff.mp hrun
  obtain ⟨-, rfl⟩ := run_writePointer_eq_some_iff.mp hwrite
  cases hrun
  refine ⟨rfl, h.holdsNew.but (fun cell hcell => ?_) fun q b hq => Heap.get_alloc_of_eq_some hq _, ?_⟩
  · exact Function.update_of_ne hcell ..
  · refine holdsNew_singleton (Function.update_self ..) (Heap.get_alloc_next _ _) ?_
    rw [h.next]
    exact s.heap.get_of_next_le _ (Nat.le_add_right _ _)

/-- All slots are filled when the slot of the proof is none of them. -/
theorem HoldsNewBut.holdsNew {s s' : State S R} {other : Ptr} {t : HandleType} {out : Ptr}
    {values : List (t.Value S)} (h : HoldsNewBut s s' other t out values)
    (hapart : ∀ i < values.length, out + i ≠ other) : HoldsNew s s' t out values := by
  obtain ⟨box, hboxes, hinj, hnew⟩ := h
  refine ⟨box, fun i v hv => ?_, hinj, hnew⟩
  obtain ⟨hi, -⟩ := List.getElem?_eq_some_iff.mp hv
  obtain ⟨hcell, hbox⟩ := hboxes i v hv
  exact ⟨hcell (hapart i hi), hbox⟩

/-- The batch evaluation writes all of its slots or none of them. -/
theorem post_poprfBlindEvaluateBatch [DecidableEq G] (F : Features) [Rng R] (fuel : ℕ)
    (s : State S R) (sk blindedArr : Ptr) (n : ℕ) (info : RawSlice) (outEvaluated outProof : Ptr) :
    Post (poprfBlindEvaluateBatch F fuel sk blindedArr n info outEvaluated outProof) s
      (AllOrNothing s
        (BlindEvaluateBatchDone F fuel s sk blindedArr n info outEvaluated outProof)) := by
  refine post_bind (post_modify ?_)
  split
  · exact post_failWith _ rfl
  split
  · exact post_failWith _ rfl
  split
  · rename_i infoBytes hinfo
    refine post_bind ((post_pointersFromRaw _ _ _).mono fun ptrs u hptrs => ?_)
    obtain ⟨rfl, hptrs⟩ := hptrs
    refine post_bind ((post_cloneBlindeds _ 0 ptrs).mono fun blindeds u hclones => ?_)
    split
    · rename_i blindeds
      -- nothing is written before the core has succeeded
      obtain ⟨rfl, hblindeds⟩ := hclones.2 blindeds rfl
      refine post_bind ((post_deref _ _ sk).mono fun skS u hsk => ?_)
      obtain ⟨rfl, hsk⟩ := hsk
      refine post_bind ((post_withOsRng _ _).mono fun res u hres => ?_)
      obtain ⟨osRng, hres, rfl⟩ := hres
      split
      · exact post_failWith _ rfl
      · rename_i evaluateds proof
        split
        · exact post_failWith _ rfl
        · rename_i hlen
          refine post_bind ((post_pointersFromRaw _ _ _).mono fun _ u hslice => ?_)
          obtain ⟨rfl, -⟩ := hslice
          refine post_bind ((post_writeEvaluateds _ _ _).mono fun _ u hfilled => ?_)
          refine (post_writeProof outProof proof hfilled).mono fun ret s' hwritten => ?_
          obtain ⟨rfl, hevaluateds, hproof⟩ := hwritten
          refine ⟨fun h => absurd rfl h, fun _ => ?_⟩
          obtain rfl := not_not.mp hlen
          exact ⟨skS, _, blindeds, infoBytes, evaluateds, proof, osRng, hsk,
            pointsTo_of_forall₂ hptrs hblindeds, hinfo, hres,
            ⟨rfl, hevaluateds, hevaluateds.holdsNew⟩, hproof⟩
    · -- the loop has met NULL and has reported it
      exact post_pure ⟨fun _ => hclones.1, fun h => absurd h (by decide)⟩
  · exact post_failWith _ rfl

/-- The evaluation of tables writes all of its slots or none of them. -/
theorem post_poprfEvaluateTables (s : State S R) (sk tablesArr : Ptr) (n : ℕ) (info : RawSlice)
    (outOutputs : Ptr) :
    Post (poprfEvaluateTables sk tablesArr n info outOutputs) s
      (AllOrNothing s (EvaluateTablesDone s sk tablesArr n info outOutputs)) := by
  refine post_bind (post_modify ?_)
  split
  · exact post_failWith _ rfl
  split
  · exact post_failWith _ rfl
  split
  · rename_i infoBytes hinfo
    refine post_bind ((post_pointersFromRaw _ _ _).mono fun ptrs u hptrs => ?_)
    obtain ⟨rfl, hptrs⟩ := hptrs
    split
    · exact post_failWith _ rfl
    · refine post_bind ((post_mapM (fun p => post_deref _ _ p) ptrs).mono fun tables u htables => ?_)
      obtain ⟨rfl, htables⟩ := htables
      refine post_bind ((post_deref _ _ sk).mono fun skS u hsk => ?_)
      obtain ⟨rfl, hsk⟩ := hsk
      dsimp only
      split
      · exact post_failWith _ rfl
      · rename_i outputs houtputs
        split
        · exact post_failWith _ rfl
        · rename_i hlen
          obtain rfl := not_not.mp hlen
          refine post_bind ((post_writeOutputs _ _ _).mono fun _ u hfilled => ?_)
          refine post_pure ⟨fun h => absurd rfl h, fun _ => ?_⟩
          exact ⟨skS, _, tables, infoBytes, outputs, hsk, pointsTo_of_forall₂ hptrs htables, hinfo,
            houtputs, rfl, hfilled.holdsNew⟩
  · exact post_failWith _ rfl

/-- A key and two blinded elements, with an array of their handles, initialised slots for two elements
and one slot for a proof. -/
def twoHandles : State referenceSuite Replay where
  heap := (((Heap.empty.alloc ⟨.secretKey, ⟨5⟩⟩).2.alloc ⟨.blindedElement, ⟨7⟩⟩).2.alloc
    ⟨.blindedElement, ⟨8⟩⟩).2
  memory
    | 10 => some (some 2)
    | 11 => some (some 3)
    | 20 => some (some NULL)
    | 21 => some (some NULL)
    | 30 => some none
    | _ => none
  osRng := ⟨[3]⟩
  lastError := none

/-- The caller of the two handles keeps to the contract of the batch call. -/
theorem contract_twoHandles :
    (Call.poprfBlindEvaluateBatch 1 10 2 (.null 0) 20 30).Contract twoHandles.toShared := by
  refine ⟨.inr ⟨⟨5⟩, rfl⟩, .inr fun i hi => ?_, .inr fun i hi => ?_, .inr fun i hi => ?_,
    .inr (.inr fun i hi => ?_)⟩
  · interval_cases i
    · exact ⟨2, rfl, .inr ⟨⟨7⟩, rfl⟩⟩
    · exact ⟨3, rfl, .inr ⟨⟨8⟩, rfl⟩⟩
  · interval_cases i <;> exact ⟨NULL, rfl⟩
  · interval_cases i
    rfl
  · interval_cases i <;> decide

/-- The batch call on the two handles succeeds. -/
theorem exists_run_twoHandles : ∃ s', (poprfBlindEvaluateBatch ⟨true, true⟩ 1 1 10 2 (.null 0) 20
    30).run twoHandles = some (0, s') := by
  have hret : ((poprfBlindEvaluateBatch ⟨true, true⟩ 1 1 10 2 (.null 0) 20 30).run twoHandles).map
      Prod.fst = some 0 := by
    decide +kernel
  obtain ⟨⟨ret, s'⟩, hrun, rfl⟩ := Option.map_eq_some_iff.mp hret
  exact ⟨s', hrun⟩

/-- A batch call that returns has written every slot with what the core returns for the handles in
order, or has left the caller's memory as it was; within its contract it returns, once the generator
yields a nonce. -/
theorem batchCalls_allOrNothing [DecidableEq G] (F : Features) [Rng R] (fuel : ℕ) (s : State S R) :
    (∀ sk blindedArr n info outEvaluated outProof,
      Post (poprfBlindEvaluateBatch F fuel sk blindedArr n info outEvaluated outProof) s
        (AllOrNothing s
          (BlindEvaluateBatchDone F fuel s sk blindedArr n info outEvaluated outProof)) ∧
      ((Call.poprfBlindEvaluateBatch sk blindedArr n info outEvaluated outProof).Contract s.toShared →
        (∃ r drawn, randomScalar fuel s.osRng = some (r, drawn)) →
        Defined (poprfBlindEvaluateBatch F fuel sk blindedArr n info outEvaluated outProof) s)) ∧
    ∀ sk tablesArr n info outOutputs,
      Post (poprfEvaluateTables sk tablesArr n info outOutputs) s
        (AllOrNothing s (EvaluateTablesDone s sk tablesArr n info outOutputs)) ∧
      ((Call.poprfEvaluateTables sk tablesArr n info outOutputs).Contract s.toShared →
        Defined (poprfEvaluateTables sk tablesArr n info outOutputs) s) := by
  refine ⟨fun sk blindedArr n info outEvaluated outProof => ⟨?_, ?_⟩,
    fun sk tablesArr n info outOutputs => ⟨?_, ?_⟩⟩
  · exact post_poprfBlindEvaluateBatch F fuel s sk blindedArr n info outEvaluated outProof
  · intro hcontract hdraw
    obtain ⟨hsk, harr, hout, hproof, -⟩ := hcontract
    obtain ⟨r, drawn, hdraw⟩ := hdraw
    exact defined_poprfBlindEvaluateBatch F hdraw hsk harr hout hproof info
  · exact post_poprfEvaluateTables s sk tablesArr n info outOutputs
  · intro hcontract
    obtain ⟨hsk, harr, hout⟩ := hcontract
    exact defined_poprfEvaluateTables hsk harr hout info

/-- On two handles the call is within its contract, and it succeeds. -/
theorem batchCalls_allOrNothing_reference :
    (Call.poprfBlindEvaluateBatch 1 10 2 (.null 0) 20 30).Contract twoHandles.toShared ∧
    ∃ s', (poprfBlindEvaluateBatch ⟨true, true⟩ 1 1 10 2 (.null 0) 20 30).run twoHandles =
        some (0, s') ∧
      BlindEvaluateBatchDone ⟨true, true⟩ 1 twoHandles 1 10 2 (.null 0) 20 30 s' := by
  have hdraw : randomScalar 1 twoHandles.osRng = some (3, ⟨[]⟩) :=
    randomScalar_replay (by decide +kernel) []
  obtain ⟨hbatch, -⟩ := batchCalls_allOrNothing ⟨true, true⟩ 1 twoHandles
  obtain ⟨hpost, hdefined⟩ := hbatch 1 10 2 (.null 0) 20 30
  obtain ⟨ret, s', hrun⟩ := hdefined contract_twoHandles ⟨3, ⟨[]⟩, hdraw⟩
  obtain ⟨s'', hsuccess⟩ := exists_run_twoHandles
  obtain ⟨rfl, rfl⟩ := Prod.mk.inj (Option.some.inj (hrun.symm.trans hsuccess))
  exact ⟨contract_twoHandles, s', hrun, (hpost 0 s' hrun).2 rfl⟩

end PoprfRistretto.Ffi
