import PoprfRistretto.Ffi.Calls
import PoprfRistretto.Ffi.Handles
import PoprfRistretto.Poprf.Batching

/-!
# Calls within their safety contracts

The contracts of the `# Safety` blocks, with NULL wherever the code checks for it. A call within its
contract returns, once the generator yields a nonce.
-/

namespace PoprfRistretto.Ffi

open Memory PartialState

variable {G : Type} [AddCommGroup G] [Module Scalar G] {S : Suite G} {R : Type}

/-- NULL, or a pointer that the library returned and that was not destroyed since. -/
def IsHandle (s : Shared S R) (t : HandleType) (p : Ptr) : Prop :=
  p = NULL ∨ ∃ v, s.heap.get p = some ⟨t, v⟩

/-- NULL, or an array of `n` handles. -/
def IsHandleArray (s : Shared S R) (t : HandleType) (arr : Ptr) (n : ℕ) : Prop :=
  arr = NULL ∨ ∀ i < n, ∃ p, s.memory (arr + i) = some (some p) ∧ IsHandle s t p

/-- NULL, or an array of `n` writable slots, initialised or not. -/
def IsSlotArray (s : Shared S R) (arr : Ptr) (n : ℕ) : Prop :=
  arr = NULL ∨ ∀ i < n, (s.memory (arr + i)).isSome

/-- NULL, or an array of `n` writable slots that are initialised. -/
def IsInitSlotArray (s : Shared S R) (arr : Ptr) (n : ℕ) : Prop :=
  arr = NULL ∨ ∀ i < n, ∃ p, s.memory (arr + i) = some (some p)

/-- NULL, or `n` slots and one more that is none of them. -/
def SlotsApart (outEvaluated : Ptr) (n : ℕ) (outProof : Ptr) : Prop :=
  outEvaluated = NULL ∨ outProof = NULL ∨ ∀ i < n, outEvaluated + i ≠ outProof

/-- The caller passes a slot of its own for each result. -/
def Call.SlotsApart : Call → Prop
  | poprfBlindEvaluateBatch _ _ n _ outEvaluated outProof => Ffi.SlotsApart outEvaluated n outProof
  | _ => True

instance (outEvaluated : Ptr) (n : ℕ) (outProof : Ptr) :
    Decidable (SlotsApart outEvaluated n outProof) :=
  inferInstanceAs (Decidable (_ ∨ _ ∨ _))

instance : (call : Call) → Decidable call.SlotsApart
  | .poprfBlindEvaluateBatch _ _ n _ outEvaluated outProof =>
    inferInstanceAs (Decidable (Ffi.SlotsApart outEvaluated n outProof))
  -- no other call writes into slots of two arrays
  | .poprfLastErrorMessage | .poprfCCharDestroy _
  | .poprfSecretKeyFromSeed _ _ | .poprfSecretKeyDecodeBase64 _ | .poprfSecretKeyEncodeBase64 _
  | .poprfSecretKeyDestroy _
  | .poprfPublicKeyFromSecret _ | .poprfPublicKeyEncodeBase64 _ | .poprfPublicKeyDestroy _
  | .poprfBlindedElementDecodeBase64 _ | .poprfBlindedElementDestroy _
  | .poprfEvaluatedElementEncodeBase64 _ | .poprfEvaluatedElementDestroy _
  | .poprfProofEncodeBase64 _ | .poprfProofDestroy _
  | .poprfEvaluate _ _ _ | .poprfInputTableNew _ | .poprfInputTableDestroy _
  | .poprfEvaluateTables _ _ _ _ _
  | .poprfOutputEncodeBase64 _ | .poprfOutputEqBase64 _ _ | .poprfOutputDestroy _ => .isTrue trivial

/-- The safety contract of a call. A slice is always within it: what it points to is readable. The
slots of the evaluated elements must be initialised, which the source asks for by
`slice::from_raw_parts_mut` and not by its `# Safety` block. -/
def Call.Contract (s : Shared S R) : Call → Prop
  | poprfCCharDestroy p => IsHandle s .cChar p
  | poprfSecretKeyEncodeBase64 sk => IsHandle s .secretKey sk
  | poprfSecretKeyDestroy sk => IsHandle s .secretKey sk
  | poprfPublicKeyFromSecret sk => IsHandle s .secretKey sk
  | poprfPublicKeyEncodeBase64 pk => IsHandle s .publicKey pk
  | poprfPublicKeyDestroy pk => IsHandle s .publicKey pk
  | poprfBlindedElementDestroy b => IsHandle s .blindedElement b
  | poprfEvaluatedElementEncodeBase64 e => IsHandle s .evaluatedElement e
  | poprfEvaluatedElementDestroy e => IsHandle s .evaluatedElement e
  | poprfProofEncodeBase64 p => IsHandle s .proof p
  | poprfProofDestroy p => IsHandle s .proof p
  | poprfBlindEvaluateBatch sk blindedArr n _ outEvaluated outProof =>
    IsHandle s .secretKey sk ∧ IsHandleArray s .blindedElement blindedArr n ∧
      IsInitSlotArray s outEvaluated n ∧ IsSlotArray s outProof 1 ∧
      Ffi.SlotsApart outEvaluated n outProof
  | poprfEvaluate sk _ _ => IsHandle s .secretKey sk
  | poprfInputTableDestroy t => IsHandle s .inputTable t
  | poprfEvaluateTables sk tablesArr n _ outOutputs =>
    IsHandle s .secretKey sk ∧ IsHandleArray s .inputTable tablesArr n ∧
      IsSlotArray s outOutputs n
  | poprfOutputEncodeBase64 o => IsHandle s .output o
  | poprfOutputEqBase64 o _ => IsHandle s .output o
  | poprfOutputDestroy o => IsHandle s .output o
  | _ => True

/-! ## The steps -/

variable {α : Type}

/-- Reporting an error touches no memory of the caller. -/
theorem defined_failWith (msg : String) (ret : α) (s : State S R) :
    Defined (failWith msg ret : CAbi S R α) s :=
  defined_bind (defined_modify _ s) fun _ _ _ => defined_pure _ _

/-- A value can always be handed out. -/
theorem defined_intoRaw (t : HandleType) (v : t.Value S) (s : State S R) :
    Defined (intoRaw t v : CAbi S R Ptr) s := ⟨_, _, rfl⟩

/-- An encoder's result is handed out, or its NUL is reported. -/
theorem defined_cstringOrNull (base64 : Base64) (buf : Bytes) (s : State S R) :
    Defined (cstringOrNull base64 buf : CAbi S R Ptr) s := by
  rw [cstringOrNull]
  split
  · exact defined_intoRaw _ _ s
  · exact defined_failWith _ _ s

/-- A handle that is not NULL can be followed. -/
theorem defined_deref {s : State S R} {t : HandleType} {p : Ptr} (h : IsHandle s.toShared t p)
    (hp : p ≠ NULL) : Defined (deref t p : CAbi S R (t.Value S)) s := by
  obtain ⟨v, hv⟩ := h.resolve_left hp
  exact ⟨v, s, run_deref_eq_some_iff.mpr ⟨hv, rfl⟩⟩

/-- A handle can be destroyed, and so can NULL. -/
theorem defined_destroy {s : State S R} {t : HandleType} {p : Ptr} (h : IsHandle s.toShared t p) :
    Defined (destroy t p : CAbi S R Unit) s := by
  rw [destroy]
  split
  · rename_i hp
    exact ⟨(), _, run_dropRaw_eq_some_iff.mpr ⟨h.resolve_left hp, rfl⟩⟩
  · exact defined_pure () s

/-- Clearing the last error comes before anything that can fail. -/
theorem defined_clearError {x : CAbi S R α} {s : State S R}
    (h : Defined x { s with lastError := none }) : Defined (clearError >>= fun _ => x) s :=
  defined_bind (defined_modify _ s) (post_modify h)

/-- An array of handles is initialised. -/
theorem IsHandleArray.isInitSlotArray {s : Shared S R} {t : HandleType} {arr : Ptr} {n : ℕ}
    (h : IsHandleArray s t arr n) : IsInitSlotArray s arr n :=
  h.imp_right fun hcells i hi => (hcells i hi).imp fun _ hp => hp.1

/-- An initialised array can be read. -/
theorem defined_pointersFromRaw {s : State S R} {arr : Ptr} {n : ℕ}
    (h : IsInitSlotArray s.toShared arr n) (harr : arr ≠ NULL) :
    Defined (pointersFromRaw arr n : CAbi S R (List Ptr)) s := by
  refine defined_mapM (fun i hi => ?_) fun i => ?_
  · obtain ⟨p, hp⟩ := h.resolve_left harr i (List.mem_range.mp hi)
    exact ⟨p, s, run_readPointer_eq_some_iff.mpr ⟨hp, rfl⟩⟩
  · intro p s' hrun
    exact (run_readPointer_eq_some_iff.mp hrun).2.symm

/-- The pointers that are read are handles. -/
theorem isHandle_of_mem {s : State S R} {t : HandleType} {arr : Ptr} {n : ℕ}
    (h : IsHandleArray s.toShared t arr n) (harr : arr ≠ NULL) {ptrs : List Ptr}
    (hptrs : List.Forall₂ (fun i p => s.memory (arr + i) = some (some p)) (List.range n) ptrs) :
    ∀ p ∈ ptrs, IsHandle s.toShared t p := by
  intro p hp
  obtain ⟨hlen, hcell⟩ := List.forall₂_iff_get.mp hptrs
  obtain ⟨j, rfl⟩ := List.mem_iff_get.mp hp
  have hj : (j : ℕ) < (List.range n).length := by
    rw [hlen]
    exact j.isLt
  have hread := hcell j hj j.isLt
  rw [List.get_eq_getElem, List.getElem_range] at hread
  rw [List.length_range] at hj
  obtain ⟨p, hp', hhandle⟩ := h.resolve_left harr j hj
  have heq : some (some p) = some (some (ptrs.get j)) := hp'.symm.trans hread
  rwa [← Option.some.inj (Option.some.inj heq)]

/-- Handles can be cloned up to the first that is NULL. -/
theorem defined_cloneBlindeds {s : State S R} {ptrs : List Ptr}
    (h : ∀ p ∈ ptrs, IsHandle s.toShared .blindedElement p) (i : ℕ) :
    Defined (cloneBlindeds i ptrs : CAbi S R (Option (List (BlindedElement G)))) s := by
  induction ptrs generalizing i with
  | nil => exact defined_pure _ s
  | cons p ptrs ih =>
    rw [List.forall_mem_cons] at h
    rw [cloneBlindeds]
    split
    · exact defined_failWith _ _ s
    · rename_i hp
      refine defined_bind (defined_deref h.1 hp) ((post_deref s _ p).mono fun b u hb => ?_)
      obtain ⟨rfl, -⟩ := hb
      exact defined_bind (ih h.2 (i + 1)) fun _ u _ => defined_pure _ u

section Slots

variable {s : State S R} {t : HandleType}

/-- A cell that is there can be written. -/
theorem defined_writePointer {cell : Ptr} (p : Ptr) (h : (s.memory cell).isSome) :
    Defined (writePointer cell p : CAbi S R Unit) s :=
  ⟨(), _, run_writePointer_eq_some_iff.mpr ⟨h, rfl⟩⟩

/-- Writing creates and removes no cell. -/
theorem post_writeBox_isSome (v : t.Value S) (cell : Ptr) :
    Post (do let p ← intoRaw t v; writePointer cell p) s fun _ s' =>
      ∀ k, (s'.memory k).isSome = (s.memory k).isSome := by
  intro _ s' hrun k
  obtain ⟨p, u, hbox, hwrite⟩ := run_bind_eq_some_iff.mp hrun
  cases hbox
  obtain ⟨hcell, rfl⟩ := run_writePointer_eq_some_iff.mp hwrite
  by_cases hk : k = cell
  · rw [hk, hcell]
    dsimp only
    rw [Function.update_self]
    rfl
  · dsimp only
    rw [Function.update_of_ne hk]

variable {ι : Type} {cell : ι → Ptr} {value : ι → t.Value S} {is : List ι}

/-- Filling cells adds none and removes none. -/
theorem post_fillCells_isSome :
    Post (fillCells t cell value is) s fun _ s' =>
      ∀ k, (s'.memory k).isSome = (s.memory k).isSome := by
  apply post_forM (fun _ (u : State S R) => ∀ k, (u.memory k).isSome = (s.memory k).isSome)
  · intro _ x u hu
    exact (post_writeBox_isSome (value x) (cell x)).mono fun _ u' hu' k => (hu' k).trans (hu k)
  · exact fun _ => rfl

/-- A write loop finds its slots. -/
theorem defined_fillCells (h : ∀ x ∈ is, (s.memory (cell x)).isSome) :
    Defined (fillCells t cell value is) s := by
  apply defined_forM (fun u : State S R => ∀ k, (u.memory k).isSome = (s.memory k).isSome)
  · intro x hx u hu
    refine defined_bind (defined_intoRaw t (value x) u) ?_
    intro p u' hbox
    cases hbox
    exact defined_writePointer _ ((hu _).trans (h x hx))
  · intro x u hu
    exact (post_writeBox_isSome (value x) (cell x)).mono fun _ u' hu' k => (hu' k).trans (hu k)
  · exact fun _ => rfl

end Slots

/-! ## The functions -/

section Functions

variable (base64 : Base64) (F : Features) {s : State S R}

/-- An encoder returns on its handle. -/
theorem defined_encodeBase64 {t : HandleType} {p : Ptr} (h : IsHandle s.toShared t p) (nullMsg : String)
    (toBytes : t.Value S → Bytes) :
    Defined (encodeBase64 base64 t nullMsg toBytes p : CAbi S R Ptr) s := by
  refine defined_clearError ?_
  split
  · exact defined_failWith _ _ _
  · rename_i hp
    exact defined_bind (defined_deref h hp) fun v u _ => defined_cstringOrNull base64 _ u

/-- A decoder returns on every string. -/
theorem defined_decodeBase64 (t : HandleType) (name : String)
    (fromBytes : Bytes → Except Error (t.Value S)) (slice : RawSlice) :
    Defined (decodeBase64 base64 t name fromBytes slice : CAbi S R Ptr) s := by
  refine defined_clearError ?_
  split
  · split
    · exact defined_failWith _ _ _
    · split
      · exact defined_intoRaw _ _ _
      · exact defined_failWith _ _ _
  · exact defined_failWith _ _ _

/-- The last error can be asked for at any time. -/
theorem defined_poprfLastErrorMessage (s : State S R) :
    Defined (poprfLastErrorMessage : CAbi S R Ptr) s := by
  refine defined_bind ⟨_, _, rfl⟩ ?_
  intro u s' _
  split
  · split
    · exact defined_intoRaw _ _ s'
    · exact defined_pure _ s'
  · exact defined_pure _ s'

/-- Every seed has an answer, be it that its length is wrong. -/
theorem defined_poprfSecretKeyFromSeed (seed info : RawSlice) :
    Defined (poprfSecretKeyFromSeed seed info : CAbi S R Ptr) s := by
  refine defined_clearError ?_
  split
  · split
    · split
      · exact defined_intoRaw _ _ _
      · exact defined_failWith _ _ _
    · exact defined_failWith _ _ _
  · exact defined_failWith _ _ _

/-- The public key of a handle can be taken. -/
theorem defined_poprfPublicKeyFromSecret {sk : Ptr} (h : IsHandle s.toShared .secretKey sk) :
    Defined (poprfPublicKeyFromSecret sk : CAbi S R Ptr) s := by
  refine defined_clearError ?_
  split
  · exact defined_failWith _ _ _
  · rename_i hsk
    exact defined_bind (defined_deref h hsk) fun skS u _ => defined_intoRaw _ _ u

/-- An evaluation returns on its handle. -/
theorem defined_poprfEvaluate [DecidableEq G] {sk : Ptr} (h : IsHandle s.toShared .secretKey sk)
    (input info : RawSlice) : Defined (poprfEvaluate sk input info : CAbi S R Ptr) s := by
  refine defined_clearError ?_
  split
  · exact defined_failWith _ _ _
  rename_i hsk
  split
  · split
    · refine defined_bind (defined_deref h hsk) ?_
      intro skS u _
      dsimp only
      split
      · exact defined_intoRaw _ _ u
      · exact defined_failWith _ _ u
    · exact defined_failWith _ _ _
  · exact defined_failWith _ _ _

/-- A table is built, or refused, for every input. -/
theorem defined_poprfInputTableNew [DecidableEq G] (input : RawSlice) :
    Defined (poprfInputTableNew F input : CAbi S R Ptr) s := by
  refine defined_clearError ?_
  split
  · split
    · exact defined_intoRaw _ _ _
    · exact defined_failWith _ _ _
  · exact defined_failWith _ _ _

/-- A comparison returns on its handle, whatever the expected text. -/
theorem defined_poprfOutputEqBase64 {o : Ptr} (h : IsHandle s.toShared .output o)
    (expectedB64 : RawSlice) :
    Defined (poprfOutputEqBase64 base64 o expectedB64 : CAbi S R ℤ) s := by
  refine defined_clearError ?_
  split
  · exact defined_failWith _ _ _
  rename_i ho
  split
  · split
    · exact defined_failWith _ _ _
    · split
      · exact defined_failWith _ _ _
      · exact defined_bind (defined_deref h ho) fun o u _ => defined_pure _ u
  · exact defined_failWith _ _ _

/-- A batch evaluation returns once the generator yields a nonce: the only wait of the C ABI. -/
theorem defined_poprfBlindEvaluateBatch [DecidableEq G] [Rng R] {fuel : ℕ} {r : Scalar} {drawn : R}
    (hdraw : randomScalar fuel s.osRng = some (r, drawn)) {sk blindedArr : Ptr} {n : ℕ}
    {outEvaluated outProof : Ptr} (hsk : IsHandle s.toShared .secretKey sk)
    (harr : IsHandleArray s.toShared .blindedElement blindedArr n)
    (hout : IsInitSlotArray s.toShared outEvaluated n)
    (hproof : IsSlotArray s.toShared outProof 1) (info : RawSlice) :
    Defined (poprfBlindEvaluateBatch F fuel sk blindedArr n info outEvaluated outProof :
      CAbi S R ℤ) s := by
  refine defined_clearError ?_
  split
  · exact defined_failWith _ _ _
  rename_i hnull
  rw [not_or, not_or, not_or] at hnull
  obtain ⟨hskNull, harrNull, houtNull, hproofNull⟩ := hnull
  split
  · exact defined_failWith _ _ _
  split
  · refine defined_bind (defined_pointersFromRaw harr.isInitSlotArray harrNull) ?_
    refine (post_pointersFromRaw _ _ _).mono fun ptrs u hptrs => ?_
    obtain ⟨rfl, hptrs⟩ := hptrs
    have hhandles := isHandle_of_mem (s := { s with lastError := none }) harr harrNull hptrs
    refine defined_bind (defined_cloneBlindeds hhandles 0) ?_
    refine (post_cloneBlindeds _ 0 ptrs).mono fun blindeds u hclones => ?_
    split
    · rename_i blindeds
      obtain ⟨rfl, -⟩ := hclones.2 blindeds rfl
      refine defined_bind (defined_deref hsk hskNull) ((post_deref _ _ sk).mono fun skS u hskS => ?_)
      obtain ⟨rfl, -⟩ := hskS
      -- the core waits for its generator only
      have hbatch := (PoprfServer.new skS).blindEvaluateBatch_of_draw S F hdraw blindeds
      refine defined_bind ⟨_, _, run_withOsRng_eq_some_iff.mpr ⟨_, hbatch _, rfl⟩⟩ ?_
      refine (post_withOsRng _ _).mono fun res u hres => ?_
      obtain ⟨osRng, -, rfl⟩ := hres
      split
      · exact defined_failWith _ _ _
      · rename_i evaluateds proof
        split
        · exact defined_failWith _ _ _
        · rename_i hlen
          -- the slice over the slots refers to them, so that they must be initialised
          refine defined_bind (defined_pointersFromRaw hout houtNull) ?_
          refine (post_pointersFromRaw _ _ _).mono fun _ u hslice => ?_
          obtain ⟨rfl, -⟩ := hslice
          refine defined_bind (defined_fillCells fun x hx => ?_) ?_
          · have hlt := List.snd_lt_of_mem_zipIdx hx
            obtain ⟨p, hp⟩ := hout.resolve_left houtNull x.2 (by omega)
            exact Option.isSome_of_eq_some hp
          · refine post_fillCells_isSome.mono fun _ u hu => ?_
            refine defined_bind (defined_intoRaw _ _ u) ?_
            intro p u' hbox
            cases hbox
            refine defined_bind (defined_writePointer _ ?_) fun _ u'' _ => defined_pure _ u''
            -- filling the slots has not removed the one of the proof
            exact (hu _).trans (hproof.resolve_left hproofNull 0 Nat.zero_lt_one)
    · exact defined_pure _ u
  · exact defined_failWith _ _ _

/-- An evaluation of tables returns, and draws nothing. -/
theorem defined_poprfEvaluateTables {sk tablesArr : Ptr} {n : ℕ} {outOutputs : Ptr}
    (hsk : IsHandle s.toShared .secretKey sk)
    (harr : IsHandleArray s.toShared .inputTable tablesArr n)
    (hout : IsSlotArray s.toShared outOutputs n) (info : RawSlice) :
    Defined (poprfEvaluateTables sk tablesArr n info outOutputs : CAbi S R ℤ) s := by
  refine defined_clearError ?_
  split
  · exact defined_failWith _ _ _
  rename_i hnull
  rw [not_or, not_or] at hnull
  obtain ⟨hskNull, harrNull, houtNull⟩ := hnull
  split
  · exact defined_failWith _ _ _
  split
  · refine defined_bind (defined_pointersFromRaw harr.isInitSlotArray harrNull) ?_
    refine (post_pointersFromRaw _ _ _).mono fun ptrs u hptrs => ?_
    obtain ⟨rfl, hptrs⟩ := hptrs
    split
    · exact defined_failWith _ _ _
    · rename_i hfind
      have hhandles := isHandle_of_mem (s := { s with lastError := none }) harr harrNull hptrs
      have hread : ∀ p ∈ ptrs, Defined (deref .inputTable p : CAbi S R (PoprfInputTable S))
          { s with lastError := none } := by
        intro p hp
        have hp' := List.findIdx?_eq_none_iff.mp hfind p hp
        exact defined_deref (hhandles p hp) (of_decide_eq_false hp')
      -- reading a table changes nothing, so that the next one is still there
      have hkeep : ∀ p, Post (deref .inputTable p : CAbi S R (PoprfInputTable S))
          { s with lastError := none } fun _ s' => s' = { s with lastError := none } := fun p =>
        (post_deref _ _ p).mono fun _ _ h => h.1
      refine defined_bind (defined_mapM hread hkeep) ?_
      refine (post_mapM (fun p => post_deref _ _ p) ptrs).mono fun tables u htables => ?_
      obtain ⟨rfl, -⟩ := htables
      refine defined_bind (defined_deref hsk hskNull) ((post_deref _ _ sk).mono fun skS u hskS => ?_)
      obtain ⟨rfl, -⟩ := hskS
      dsimp only
      split
      · exact defined_failWith _ _ _
      · split
        · exact defined_failWith _ _ _
        · refine defined_bind (defined_fillCells fun x hx => ?_) fun _ u _ => defined_pure _ u
          -- the slots that are written are those of the contract
          have hmem := (List.of_mem_zip hx).1
          obtain ⟨i, hi, hcell⟩ := List.mem_map.mp hmem
          have hslot := hout.resolve_left houtNull i (List.mem_range.mp hi)
          rwa [hcell] at hslot
  · exact defined_failWith _ _ _

/-- A call within its contract has a slot for each of its results. -/
theorem Call.Contract.slotsApart {s : Shared S R} {call : Call} (h : call.Contract s) :
    call.SlotsApart := by
  cases call with
  | poprfBlindEvaluateBatch sk blindedArr n info outEvaluated outProof => exact h.2.2.2.2
  | _ => trivial

/-- A call within its contract returns, once the generator yields a nonce. -/
theorem defined_run [DecidableEq G] [Rng R] {fuel : ℕ} {r : Scalar} {drawn : R}
    (hdraw : randomScalar fuel s.osRng = some (r, drawn)) {call : Call}
    (h : call.Contract s.toShared) : Defined (call.run base64 F fuel : CAbi S R Ret) s := by
  cases call with
  | poprfLastErrorMessage => exact defined_map (defined_poprfLastErrorMessage s) _
  | poprfCCharDestroy p => exact defined_map (defined_destroy h) _
  | poprfSecretKeyFromSeed seed info => exact defined_map (defined_poprfSecretKeyFromSeed seed info) _
  | poprfSecretKeyDecodeBase64 slice => exact defined_map (defined_decodeBase64 base64 _ _ _ slice) _
  | poprfSecretKeyEncodeBase64 sk => exact defined_map (defined_encodeBase64 base64 h _ _) _
  | poprfSecretKeyDestroy sk => exact defined_map (defined_destroy h) _
  | poprfPublicKeyFromSecret sk => exact defined_map (defined_poprfPublicKeyFromSecret h) _
  | poprfPublicKeyEncodeBase64 pk => exact defined_map (defined_encodeBase64 base64 h _ _) _
  | poprfPublicKeyDestroy pk => exact defined_map (defined_destroy h) _
  | poprfBlindedElementDecodeBase64 slice =>
    exact defined_map (defined_decodeBase64 base64 _ _ _ slice) _
  | poprfBlindedElementDestroy b => exact defined_map (defined_destroy h) _
  | poprfEvaluatedElementEncodeBase64 e => exact defined_map (defined_encodeBase64 base64 h _ _) _
  | poprfEvaluatedElementDestroy e => exact defined_map (defined_destroy h) _
  | poprfProofEncodeBase64 p => exact defined_map (defined_encodeBase64 base64 h _ _) _
  | poprfProofDestroy p => exact defined_map (defined_destroy h) _
  | poprfBlindEvaluateBatch sk blindedArr n info outEvaluated outProof =>
    obtain ⟨hsk, harr, hout, hproof, -⟩ := h
    exact defined_map (defined_poprfBlindEvaluateBatch F hdraw hsk harr hout hproof info) _
  | poprfEvaluate sk input info => exact defined_map (defined_poprfEvaluate h input info) _
  | poprfInputTableNew input => exact defined_map (defined_poprfInputTableNew F input) _
  | poprfInputTableDestroy t => exact defined_map (defined_destroy h) _
  | poprfEvaluateTables sk tablesArr n info outOutputs =>
    obtain ⟨hsk, harr, hout⟩ := h
    exact defined_map (defined_poprfEvaluateTables hsk harr hout info) _
  | poprfOutputEncodeBase64 o => exact defined_map (defined_encodeBase64 base64 h _ _) _
  | poprfOutputEqBase64 o expectedB64 => exact defined_map (defined_poprfOutputEqBase64 base64 h expectedB64) _
  | poprfOutputDestroy o => exact defined_map (defined_destroy h) _

end Functions

end PoprfRistretto.Ffi
