import PoprfRistretto.Ffi.Contracts

/-!
# What a call allocates and frees

A call other than a destructor allocates the handles that the caller finds in the result or in its
slots, and frees nothing. A destructor frees its handle.
-/

namespace PoprfRistretto.Ffi

open Memory PartialState

variable {G : Type} [AddCommGroup G] [Module Scalar G] {S : Suite G} {R α β : Type}

/-- A pointer that the caller holds, with its type. -/
abbrev Handle := HandleType × Ptr

/-! ## What the caller receives and gives back -/

/-- The pointers in an array of the caller. -/
def slots (memory : CallerMemory) (t : HandleType) (arr : Ptr) (n : ℕ) : List Handle :=
  (List.range n).map fun i => (t, (memory (arr + i)).join.getD NULL)

namespace Call

/-- The type of the pointer that a call returns. -/
def returns : Call → Option HandleType
  | poprfLastErrorMessage => some .cChar
  | poprfSecretKeyFromSeed _ _ => some .secretKey
  | poprfSecretKeyDecodeBase64 _ => some .secretKey
  | poprfSecretKeyEncodeBase64 _ => some .cChar
  | poprfPublicKeyFromSecret _ => some .publicKey
  | poprfPublicKeyEncodeBase64 _ => some .cChar
  | poprfBlindedElementDecodeBase64 _ => some .blindedElement
  | poprfEvaluatedElementEncodeBase64 _ => some .cChar
  | poprfProofEncodeBase64 _ => some .cChar
  | poprfEvaluate _ _ _ => some .output
  | poprfInputTableNew _ => some .inputTable
  | poprfOutputEncodeBase64 _ => some .cChar
  | _ => none

/-- The handles that the caller receives from a call: a pointer other than NULL that is returned, or
the slots that are filled when a batch call succeeds. -/
def received (memory : CallerMemory) : Call → Ret → List Handle
  | poprfBlindEvaluateBatch _ _ n _ outEvaluated outProof, .int c =>
    if c = 0 then slots memory .evaluatedElement outEvaluated n ++ slots memory .proof outProof 1
    else []
  | poprfEvaluateTables _ _ n _ outOutputs, .int c =>
    if c = 0 then slots memory .output outOutputs n else []
  | call, .ptr p => if p = NULL then [] else (call.returns.map (·, p)).toList
  | _, _ => []

/-- The handle that the caller gives back to a destructor. -/
def released : Call → Option Handle
  | poprfCCharDestroy s => some (.cChar, s)
  | poprfSecretKeyDestroy sk => some (.secretKey, sk)
  | poprfPublicKeyDestroy pk => some (.publicKey, pk)
  | poprfBlindedElementDestroy b => some (.blindedElement, b)
  | poprfEvaluatedElementDestroy e => some (.evaluatedElement, e)
  | poprfProofDestroy p => some (.proof, p)
  | poprfInputTableDestroy t => some (.inputTable, t)
  | poprfOutputDestroy o => some (.output, o)
  | _ => none

end Call

/-! ## Computations that leave the heap alone -/

/-- The computation does not touch the heap. -/
def KeepsHeap (x : CAbi S R α) : Prop := ∀ s, Post x s fun _ s' => s'.heap = s.heap

/-- What changes no state keeps the heap. -/
theorem keepsHeap_of_post {x : CAbi S R α} (h : ∀ s, Post x s fun _ s' => s' = s) : KeepsHeap x :=
  fun s => (h s).mono fun _ _ hs => by rw [hs]

theorem keepsHeap_deref (t : HandleType) (p : Ptr) :
    KeepsHeap (deref t p : CAbi S R (t.Value S)) :=
  keepsHeap_of_post fun s => (post_deref s t p).mono fun _ _ h => h.1

theorem keepsHeap_pointersFromRaw (arr : Ptr) (n : ℕ) :
    KeepsHeap (pointersFromRaw arr n : CAbi S R (List Ptr)) :=
  keepsHeap_of_post fun s => (post_pointersFromRaw s arr n).mono fun _ _ h => h.1

theorem keepsHeap_mapM_deref (t : HandleType) (ptrs : List Ptr) :
    KeepsHeap (ptrs.mapM (deref t) : CAbi S R (List (t.Value S))) :=
  keepsHeap_of_post fun s =>
    (post_mapM (fun p => post_deref s t p) ptrs).mono fun _ _ h => h.1

theorem keepsHeap_withOsRng (f : R → Option (α × R)) :
    KeepsHeap (withOsRng f : CAbi S R α) := by
  intro s
  refine (post_withOsRng s f).mono fun _ s' hs => ?_
  obtain ⟨osRng, -, rfl⟩ := hs
  rfl

/-- Cloning elements keeps the heap: the clones are values, not boxes. -/
theorem keepsHeap_cloneBlindeds (i : ℕ) (ptrs : List Ptr) :
    KeepsHeap (cloneBlindeds i ptrs : CAbi S R (Option (List (BlindedElement G)))) := by
  induction ptrs generalizing i with
  | nil => exact fun s => post_pure rfl
  | cons p ptrs ih =>
    intro s
    rw [cloneBlindeds]
    split
    · exact post_bind (post_modify (post_pure rfl))
    · refine post_bind ((keepsHeap_deref _ p s).mono fun b t ht => ?_)
      refine post_bind ((ih (i + 1) t).mono fun bs u hu => ?_)
      exact post_pure (hu.trans ht)

/-! ## Computations that hand out what they allocate -/

/-- The handles of boxes that are allocated from the address `next` on. -/
def handles (next : ℕ) (new : List (Boxed S)) : List Handle :=
  new.mapIdx fun i b => (b.type, next + i)

/-- The handles of values that are allocated one after the other. -/
theorem handles_append (next : ℕ) (new new' : List (Boxed S)) :
    handles next (new ++ new') = handles next new ++ handles (next + new.length) new' := by
  simp only [handles, List.mapIdx_append]
  congr 2
  funext i b
  rw [Nat.add_assoc, Nat.add_comm new.length]

/-- A handle is the address of its value, counted from where the heap ended. -/
theorem mem_handles_iff {next : ℕ} {new : List (Boxed S)} {t : HandleType} {p : Ptr} :
    (t, p) ∈ handles next new ↔ ∃ i v, p = next + i ∧ new[i]? = some ⟨t, v⟩ := by
  rw [handles, List.mem_mapIdx]
  constructor
  · rintro ⟨i, hi, heq⟩
    obtain ⟨ht, hp⟩ := Prod.mk.inj heq
    subst ht
    exact ⟨i, _, hp.symm, List.getElem?_eq_getElem hi⟩
  · rintro ⟨i, v, rfl, hi⟩
    obtain ⟨hi, hget⟩ := List.getElem?_eq_some_iff.mp hi
    exact ⟨i, hi, by rw [hget]⟩

/-- The addresses of new boxes are distinct. -/
theorem nodup_handles (next : ℕ) (new : List (Boxed S)) : (handles next new).Nodup := by
  have hsnd : (handles next new).map Prod.snd = List.range' next new.length :=
    List.ext_getElem (by simp [handles]) fun i _ _ => by simp [handles]
  refine List.Nodup.of_map Prod.snd ?_
  rw [hsnd]
  exact List.nodup_range' _

/-- The handles of new boxes point to them. -/
theorem forall₂_handles {heap heap' : Heap (Boxed S)} {new : List (Boxed S)}
    (h : heap.Extends heap' new) :
    List.Forall₂ (fun handle b => handle.1 = b.type ∧ heap'.get handle.2 = some b)
      (handles heap.next new) new := by
  refine List.forall₂_iff_get.mpr ⟨by simp [handles], fun i _ hi => ?_⟩
  have hget := h.get_new i _ (List.getElem?_eq_getElem hi)
  simpa [handles] using hget

/-- What the computation allocates are the handles that `found` finds in its result and in the caller's
memory. It frees nothing. -/
def HandsOut (found : α → CallerMemory → List Handle) (x : CAbi S R α) : Prop :=
  ∀ s, Post x s fun a s' => ∃ new, s.heap.Extends s'.heap new ∧
    found a s'.memory = handles s.heap.next new

section HandsOut

variable {found : β → CallerMemory → List Handle}

/-- What comes before the last step must keep the heap. -/
theorem handsOut_bind {x : CAbi S R α} {f : α → CAbi S R β} (hx : KeepsHeap x)
    (hf : ∀ a, HandsOut found (f a)) : HandsOut found (x >>= f) := by
  intro s
  refine post_bind ((hx s).mono fun a t ht => (hf a t).mono fun b s' hs' => ?_)
  rwa [ht] at hs'

/-- A result without handles hands out nothing. -/
theorem handsOut_pure {b : β} (h : ∀ memory, found b memory = []) :
    HandsOut found (pure b : CAbi S R β) := fun _ => post_pure ⟨[], .refl _, h _⟩

theorem handsOut_failWith {ret : β} (msg : String) (h : ∀ memory, found ret memory = []) :
    HandsOut found (failWith msg ret : CAbi S R β) :=
  fun _ => post_bind (post_modify (post_pure ⟨[], .refl _, h _⟩))

theorem handsOut_clearError {x : CAbi S R β} (hx : HandsOut found x) :
    HandsOut found (clearError >>= fun _ => x) :=
  handsOut_bind (fun _ => post_modify rfl) fun _ => hx

/-- The pointer that is returned. -/
def returned (t : HandleType) (p : Ptr) (_ : CallerMemory) : List Handle :=
  if p = NULL then [] else [(t, p)]

/-- A value that is handed out is the one new value. -/
theorem handsOut_intoRaw (t : HandleType) (v : t.Value S) :
    HandsOut (returned t) (intoRaw t v : CAbi S R Ptr) := by
  intro s p s' hrun
  cases hrun
  exact ⟨[⟨t, v⟩], .alloc _ _, if_neg s.heap.next_ne_zero⟩

/-- A C string is handed out, or nothing. -/
theorem handsOut_cstringOrNull (base64 : Base64) (buf : Bytes) :
    HandsOut (returned .cChar) (cstringOrNull base64 buf : CAbi S R Ptr) := by
  rw [cstringOrNull]
  split
  · exact handsOut_intoRaw _ _
  · exact handsOut_failWith _ fun _ => rfl

/-- Filled cells hold the handles of what was boxed for them, also when another cell is written
afterwards. -/
theorem Filled.slots_eq {s s' : State S R} {t : HandleType} {out : Ptr} {values : List (t.Value S)}
    (h : Filled s t out values s') (memory : CallerMemory)
    (hmemory : ∀ i < values.length, memory (out + i) = s'.memory (out + i)) :
    slots memory t out values.length = handles s.heap.next (values.map (Boxed.mk (S := S) t)) := by
  refine List.ext_getElem (by simp [slots, handles]) fun i hi _ => ?_
  have hi' : i < values.length := by simpa [slots] using hi
  simp [slots, handles, hmemory i hi', h.memory i hi']

end HandsOut

/-! ## The functions -/

section Functions

variable (base64 : Base64)

/-- An encoder hands out one string at most. -/
theorem handsOut_encodeBase64 (t : HandleType) (nullMsg : String) (toBytes : t.Value S → Bytes)
    (p : Ptr) : HandsOut (returned .cChar) (encodeBase64 base64 t nullMsg toBytes p : CAbi S R Ptr) := by
  refine handsOut_clearError ?_
  split
  · exact handsOut_failWith _ fun _ => rfl
  · exact handsOut_bind (keepsHeap_deref t p) fun v => handsOut_cstringOrNull base64 (toBytes v)

/-- A decoder hands out one value at most. -/
theorem handsOut_decodeBase64 (t : HandleType) (name : String)
    (fromBytes : Bytes → Except Error (t.Value S)) (s : RawSlice) :
    HandsOut (returned t) (decodeBase64 base64 t name fromBytes s : CAbi S R Ptr) := by
  refine handsOut_clearError ?_
  split
  · split
    · exact handsOut_failWith _ fun _ => rfl
    · split
      · exact handsOut_intoRaw _ _
      · exact handsOut_failWith _ fun _ => rfl
  · exact handsOut_failWith _ fun _ => rfl

/-- The last error is handed out as a copy. -/
theorem handsOut_poprfLastErrorMessage :
    HandsOut (returned .cChar) (poprfLastErrorMessage : CAbi S R Ptr) := by
  refine handsOut_bind (fun s _ _ hrun => ?_) fun s => ?_
  · cases hrun
    rfl
  · split
    · split
      · exact handsOut_intoRaw _ _
      · exact handsOut_pure fun _ => rfl
    · exact handsOut_pure fun _ => rfl

/-- The key derivation hands out the secret key and drops the public one. -/
theorem handsOut_poprfSecretKeyFromSeed (seed info : RawSlice) :
    HandsOut (returned .secretKey) (poprfSecretKeyFromSeed seed info : CAbi S R Ptr) := by
  refine handsOut_clearError ?_
  split
  · split
    · split
      · exact handsOut_intoRaw _ _
      · exact handsOut_failWith _ fun _ => rfl
    · exact handsOut_failWith _ fun _ => rfl
  · exact handsOut_failWith _ fun _ => rfl

theorem handsOut_poprfPublicKeyFromSecret (sk : Ptr) :
    HandsOut (returned .publicKey) (poprfPublicKeyFromSecret sk : CAbi S R Ptr) := by
  refine handsOut_clearError ?_
  split
  · exact handsOut_failWith _ fun _ => rfl
  · exact handsOut_bind (keepsHeap_deref _ _) fun sk => handsOut_intoRaw _ _

/-- The handles of a batch call that has succeeded. -/
def filled (found : CallerMemory → List Handle) (c : ℤ) (memory : CallerMemory) : List Handle :=
  if c = 0 then found memory else []

/-- The batch evaluation hands out what its slots hold, if the slot of the proof is none of the
others: otherwise the element whose pointer is overwritten would be lost. -/
theorem handsOut_poprfBlindEvaluateBatch [DecidableEq G] (F : Features) [Rng R] (fuel : ℕ)
    (sk blindedArr : Ptr) {n : ℕ} (info : RawSlice) {outEvaluated outProof : Ptr}
    (hapart : SlotsApart outEvaluated n outProof) :
    HandsOut (filled fun memory =>
        slots memory .evaluatedElement outEvaluated n ++ slots memory .proof outProof 1)
      (poprfBlindEvaluateBatch F fuel sk blindedArr n info outEvaluated outProof : CAbi S R ℤ) := by
  have hcode : (-1 : ℤ) ≠ 0 := by decide
  have hnone : ∀ found memory, filled found (-1) memory = [] := fun _ _ => if_neg hcode
  refine handsOut_clearError ?_
  split
  · exact handsOut_failWith _ (hnone _)
  rename_i hnull
  split
  · exact handsOut_failWith _ (hnone _)
  split
  · refine handsOut_bind (keepsHeap_pointersFromRaw _ _) fun ptrs => ?_
    refine handsOut_bind (keepsHeap_cloneBlindeds 0 ptrs) fun blindeds => ?_
    split
    · refine handsOut_bind (keepsHeap_deref _ _) fun sk => ?_
      refine handsOut_bind (keepsHeap_withOsRng _) fun res => ?_
      split
      · exact handsOut_failWith _ (hnone _)
      · rename_i evaluateds proof
        split
        · exact handsOut_failWith _ (hnone _)
        · rename_i hlen
          obtain rfl := not_not.mp hlen
          refine handsOut_bind (keepsHeap_pointersFromRaw _ _) fun _ s => ?_
          refine post_bind ((post_writeEvaluateds s outEvaluated evaluateds).mono fun _ u hfilled => ?_)
          intro c s' hrun
          obtain ⟨p, u₁, hbox, hrun⟩ := run_bind_eq_some_iff.mp hrun
          cases hbox
          obtain ⟨_, u₂, hwrite, hrun⟩ := run_bind_eq_some_iff.mp hrun
          obtain ⟨-, rfl⟩ := run_writePointer_eq_some_iff.mp hwrite
          cases hrun
          -- the proof goes to a slot of its own, so that the others stay as the loop has left them
          have hproof : ∀ i < evaluateds.length, outEvaluated + i ≠ outProof := by
            rcases hapart with hout | hout | hne
            · tauto
            · tauto
            · exact hne
          have hslots := hfilled.slots_eq
            (Function.update u.memory outProof (some (some u.heap.next)))
            fun i hi => Function.update_of_ne (hproof i hi) ..
          refine ⟨_ ++ [⟨.proof, proof⟩], hfilled.extends_heap.trans (.alloc _ _), ?_⟩
          rw [handles_append, ← hslots, ← hfilled.extends_heap.next_eq]
          simp [filled, slots, handles]
    · exact handsOut_pure (hnone _)
  · exact handsOut_failWith _ (hnone _)

theorem handsOut_poprfEvaluate [DecidableEq G] (sk : Ptr) (input info : RawSlice) :
    HandsOut (returned .output) (poprfEvaluate sk input info : CAbi S R Ptr) := by
  refine handsOut_clearError ?_
  split
  · exact handsOut_failWith _ fun _ => rfl
  split
  · split
    · refine handsOut_bind (keepsHeap_deref _ _) fun sk => ?_
      dsimp only
      split
      · exact handsOut_intoRaw _ _
      · exact handsOut_failWith _ fun _ => rfl
    · exact handsOut_failWith _ fun _ => rfl
  · exact handsOut_failWith _ fun _ => rfl

theorem handsOut_poprfInputTableNew [DecidableEq G] (F : Features) (input : RawSlice) :
    HandsOut (returned .inputTable) (poprfInputTableNew F input : CAbi S R Ptr) := by
  refine handsOut_clearError ?_
  split
  · split
    · exact handsOut_intoRaw _ _
    · exact handsOut_failWith _ fun _ => rfl
  · exact handsOut_failWith _ fun _ => rfl

/-- The evaluation of tables hands out what its slots hold. -/
theorem handsOut_poprfEvaluateTables (sk tablesArr : Ptr) (n : ℕ) (info : RawSlice)
    (outOutputs : Ptr) :
    HandsOut (filled fun memory => slots memory .output outOutputs n)
      (poprfEvaluateTables sk tablesArr n info outOutputs : CAbi S R ℤ) := by
  have hcode : (-1 : ℤ) ≠ 0 := by decide
  have hnone : ∀ found memory, filled found (-1) memory = [] := fun _ _ => if_neg hcode
  refine handsOut_clearError ?_
  split
  · exact handsOut_failWith _ (hnone _)
  split
  · exact handsOut_failWith _ (hnone _)
  split
  · refine handsOut_bind (keepsHeap_pointersFromRaw _ _) fun ptrs => ?_
    split
    · exact handsOut_failWith _ (hnone _)
    · refine handsOut_bind (keepsHeap_mapM_deref _ ptrs) fun tables => ?_
      refine handsOut_bind (keepsHeap_deref _ _) fun sk => ?_
      dsimp only
      split
      · exact handsOut_failWith _ (hnone _)
      · rename_i outputs _
        split
        · exact handsOut_failWith _ (hnone _)
        · rename_i hlen
          obtain rfl := not_not.mp hlen
          -- the writes of a success fill all slots, and the boxes are those of the outputs
          intro s
          refine post_bind ((post_writeOutputs s outOutputs outputs).mono fun _ u hfilled => ?_)
          exact post_pure ⟨_, hfilled.extends_heap, hfilled.slots_eq _ fun _ _ => rfl⟩
  · exact handsOut_failWith _ (hnone _)

/-- A comparison hands out nothing. -/
theorem handsOut_poprfOutputEqBase64 (o : Ptr) (expectedB64 : RawSlice) :
    HandsOut (fun _ _ => []) (poprfOutputEqBase64 base64 o expectedB64 : CAbi S R ℤ) := by
  refine handsOut_clearError ?_
  split
  · exact handsOut_failWith _ fun _ => rfl
  split
  · split
    · exact handsOut_failWith _ fun _ => rfl
    · split
      · exact handsOut_failWith _ fun _ => rfl
      · exact handsOut_bind (keepsHeap_deref _ _) fun o => handsOut_pure fun _ => rfl
  · exact handsOut_failWith _ fun _ => rfl

end Functions

/-! ## Calls -/

/-- A computation that frees the handle, or does nothing on NULL. -/
def Frees (t : HandleType) (p : Ptr) (x : CAbi S R α) : Prop :=
  ∀ s, Post x s fun _ s' => (p = NULL ∧ s'.heap = s.heap) ∨
    ((∃ v, s.heap.get p = some ⟨t, v⟩) ∧ s'.heap = s.heap.free p)

/-- A destructor frees its handle and nothing else. -/
theorem frees_destroy (t : HandleType) (p : Ptr) : Frees t p (destroy t p : CAbi S R Unit) := by
  intro s
  rw [destroy]
  split
  · intro _ s' hrun
    obtain ⟨hvalue, rfl⟩ := run_dropRaw_eq_some_iff.mp hrun
    exact .inr ⟨hvalue, rfl⟩
  · rename_i hp
    exact post_pure (.inl ⟨not_not.mp hp, rfl⟩)

theorem frees_map {t : HandleType} {p : Ptr} {x : CAbi S R α} (h : Frees t p x) (f : α → β) :
    Frees t p (f <$> x) := by
  intro s
  rw [map_eq_pure_bind]
  exact post_bind ((h s).mono fun _ _ hs => post_pure hs)

theorem handsOut_map {found : α → CallerMemory → List Handle}
    {found' : β → CallerMemory → List Handle} {x : CAbi S R α} {f : α → β} (h : HandsOut found x)
    (hfound : ∀ a memory, found' (f a) memory = found a memory) : HandsOut found' (f <$> x) := by
  intro s
  rw [map_eq_pure_bind]
  refine post_bind ((h s).mono fun a t ht => post_pure ?_)
  rwa [hfound]

section Calls

variable [DecidableEq G] [Rng R] (base64 : Base64) (F : Features) (fuel : ℕ)

/-- A destructor frees the handle that it is given. -/
theorem frees_run {call : Call} {t : HandleType} {p : Ptr} (h : call.released = some (t, p)) :
    Frees t p (call.run base64 F fuel : CAbi S R Ret) := by
  cases call with
  | poprfCCharDestroy s =>
    cases h
    exact frees_map (frees_destroy _ _) _
  | poprfSecretKeyDestroy sk =>
    cases h
    exact frees_map (frees_destroy _ _) _
  | poprfPublicKeyDestroy pk =>
    cases h
    exact frees_map (frees_destroy _ _) _
  | poprfBlindedElementDestroy b =>
    cases h
    exact frees_map (frees_destroy _ _) _
  | poprfEvaluatedElementDestroy e =>
    cases h
    exact frees_map (frees_destroy _ _) _
  | poprfProofDestroy p =>
    cases h
    exact frees_map (frees_destroy _ _) _
  | poprfInputTableDestroy t =>
    cases h
    exact frees_map (frees_destroy _ _) _
  | poprfOutputDestroy o =>
    cases h
    exact frees_map (frees_destroy _ _) _
  | _ => cases h

/-- Every other call hands out what it allocates, when the caller has passed a slot of its own for each
result. -/
theorem handsOut_run {call : Call} (h : call.released = none) (hapart : call.SlotsApart) :
    HandsOut (fun ret memory => call.received memory ret)
      (call.run base64 F fuel : CAbi S R Ret) := by
  cases call with
  | poprfLastErrorMessage => exact handsOut_map handsOut_poprfLastErrorMessage fun _ _ => rfl
  | poprfSecretKeyFromSeed seed info =>
    exact handsOut_map (handsOut_poprfSecretKeyFromSeed seed info) fun _ _ => rfl
  | poprfSecretKeyDecodeBase64 s =>
    exact handsOut_map (handsOut_decodeBase64 base64 _ _ _ s) fun _ _ => rfl
  | poprfSecretKeyEncodeBase64 sk =>
    exact handsOut_map (handsOut_encodeBase64 base64 _ _ _ sk) fun _ _ => rfl
  | poprfPublicKeyFromSecret sk =>
    exact handsOut_map (handsOut_poprfPublicKeyFromSecret sk) fun _ _ => rfl
  | poprfPublicKeyEncodeBase64 pk =>
    exact handsOut_map (handsOut_encodeBase64 base64 _ _ _ pk) fun _ _ => rfl
  | poprfBlindedElementDecodeBase64 s =>
    exact handsOut_map (handsOut_decodeBase64 base64 _ _ _ s) fun _ _ => rfl
  | poprfEvaluatedElementEncodeBase64 e =>
    exact handsOut_map (handsOut_encodeBase64 base64 _ _ _ e) fun _ _ => rfl
  | poprfProofEncodeBase64 p =>
    exact handsOut_map (handsOut_encodeBase64 base64 _ _ _ p) fun _ _ => rfl
  | poprfBlindEvaluateBatch sk blindedArr n info outEvaluated outProof =>
    exact handsOut_map (handsOut_poprfBlindEvaluateBatch F fuel sk blindedArr info hapart)
      fun _ _ => rfl
  | poprfEvaluate sk input info =>
    exact handsOut_map (handsOut_poprfEvaluate sk input info) fun _ _ => rfl
  | poprfInputTableNew input =>
    exact handsOut_map (handsOut_poprfInputTableNew F input) fun _ _ => rfl
  | poprfEvaluateTables sk tablesArr n info outOutputs =>
    exact handsOut_map (handsOut_poprfEvaluateTables sk tablesArr n info outOutputs) fun _ _ => rfl
  | poprfOutputEncodeBase64 o =>
    exact handsOut_map (handsOut_encodeBase64 base64 _ _ _ o) fun _ _ => rfl
  | poprfOutputEqBase64 o expectedB64 =>
    exact handsOut_map (handsOut_poprfOutputEqBase64 base64 o expectedB64) fun _ _ => rfl
  | _ => cases h

end Calls

end PoprfRistretto.Ffi
