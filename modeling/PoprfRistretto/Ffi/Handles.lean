import Mathlib.Data.Set.Function
import PoprfRistretto.Ffi.Functions
import PoprfRistretto.Library.PartialState

/-!
# Arrays of handles

The arrays of pointers by which the batch functions take their handles and hand out their results,
with what reading the one and writing the other does.
-/

namespace PoprfRistretto.Ffi

open Memory PartialState

variable {G : Type} [AddCommGroup G] [Module Scalar G] {S : Suite G} {R : Type}

/-- The cells from `arr` on hold the addresses `box 0`, `box 1`, …, and the boxes there hold the
values. -/
def PointsTo (s : State S R) (t : HandleType) (arr : Ptr) (box : ℕ → Ptr)
    (values : List (t.Value S)) : Prop :=
  ∀ (i : ℕ) (v : t.Value S), values[i]? = some v →
    s.memory (arr + i) = some (some (box i)) ∧ s.heap.get (box i) = some ⟨t, v⟩

/-- The cells from `out` on hold new boxes, one for each of the values. -/
def HoldsNew (s s' : State S R) (t : HandleType) (out : Ptr) (values : List (t.Value S)) : Prop :=
  ∃ box : ℕ → Ptr, PointsTo s' t out box values ∧ Set.InjOn box (Set.Iio values.length) ∧
    ∀ i < values.length, s.heap.get (box i) = none

/-- There are new boxes, one for each of the values, and the cells from `out` on hold them, but for the
cell `other`. -/
def HoldsNewBut (s s' : State S R) (other : Ptr) (t : HandleType) (out : Ptr)
    (values : List (t.Value S)) : Prop :=
  ∃ box : ℕ → Ptr, (∀ (i : ℕ) (v : t.Value S), values[i]? = some v →
      (out + i ≠ other → s'.memory (out + i) = some (some (box i))) ∧
        s'.heap.get (box i) = some ⟨t, v⟩) ∧
    Set.InjOn box (Set.Iio values.length) ∧ ∀ i < values.length, s.heap.get (box i) = none

/-! ## Reading handles -/

/-- Following a pointer reads its box. -/
theorem post_deref (s : State S R) (t : HandleType) (p : Ptr) :
    Post (deref t p) s fun v s' => s' = s ∧ s.heap.get p = some ⟨t, v⟩ := by
  intro v s' hrun
  obtain ⟨hget, rfl⟩ := run_deref_eq_some_iff.mp hrun
  exact ⟨rfl, hget⟩

/-- A draw changes the generator only. -/
theorem post_withOsRng {α : Type} (s : State S R) (f : R → Option (α × R)) :
    Post (withOsRng f) s fun a s' => ∃ osRng, f s.osRng = some (a, osRng) ∧ s' = { s with osRng } := by
  intro a s' hrun
  obtain ⟨osRng, hf, rfl⟩ := run_withOsRng_eq_some_iff.mp hrun
  exact ⟨osRng, hf, rfl⟩

/-- An array that can be read has its cells initialised. -/
theorem post_pointersFromRaw (s : State S R) (arr : Ptr) (n : ℕ) :
    Post (pointersFromRaw arr n) s fun ptrs s' => s' = s ∧
      List.Forall₂ (fun i p => s.memory (arr + i) = some (some p)) (List.range n) ptrs := by
  refine post_mapM (fun i => ?_) _
  intro p s' hrun
  obtain ⟨hcell, rfl⟩ := run_readPointer_eq_some_iff.mp hrun
  exact ⟨rfl, hcell⟩

/-- An array of pointers to values. -/
theorem pointsTo_of_forall₂ {s : State S R} {t : HandleType} {arr : Ptr} {n : ℕ} {ptrs : List Ptr}
    {values : List (t.Value S)}
    (hptrs : List.Forall₂ (fun i p => s.memory (arr + i) = some (some p)) (List.range n) ptrs)
    (hvalues : List.Forall₂ (fun p v => s.heap.get p = some ⟨t, v⟩) ptrs values) :
    values.length = n ∧ PointsTo s t arr (ptrs.getD · NULL) values := by
  obtain ⟨hlen, hcell⟩ := List.forall₂_iff_get.mp hptrs
  obtain ⟨hlen', hbox⟩ := List.forall₂_iff_get.mp hvalues
  rw [List.length_range] at hlen
  refine ⟨hlen'.symm.trans hlen.symm, fun i v hv => ?_⟩
  obtain ⟨hi, rfl⟩ := List.getElem?_eq_some_iff.mp hv
  have hi' : i < ptrs.length := by omega
  have hbox' : ptrs.getD i NULL = ptrs.get ⟨i, hi'⟩ := by
    rw [List.getD_eq_getElem?_getD, List.getElem?_eq_getElem hi']
    rfl
  dsimp only
  rw [hbox']
  refine ⟨?_, hbox i hi' hi⟩
  have hmem := hcell i (by rw [List.length_range]; omega) hi'
  rwa [List.get_eq_getElem, List.getElem_range] at hmem

/-- The loop over the blinded elements does not write, and on success has cloned what they point
to. -/
theorem post_cloneBlindeds (s : State S R) (i : ℕ) (ptrs : List Ptr) :
    Post (cloneBlindeds i ptrs : CAbi S R _) s fun blindeds s' => s'.memory = s.memory ∧
      ∀ bs, blindeds = some bs → s' = s ∧
        List.Forall₂ (fun p b => s.heap.get p = some ⟨.blindedElement, b⟩) ptrs bs := by
  induction ptrs generalizing i with
  | nil =>
    refine post_pure ⟨rfl, fun bs hbs => ⟨rfl, ?_⟩⟩
    rw [← Option.some.inj hbs]
    exact List.Forall₂.nil
  | cons p ptrs ih =>
    rw [cloneBlindeds]
    split
    · exact post_bind (post_modify (post_pure ⟨rfl, nofun⟩))
    · refine post_bind ((post_deref s _ p).mono fun b t hb => ?_)
      obtain ⟨rfl, hb⟩ := hb
      refine post_bind ((ih (i + 1)).mono fun blindeds t' hrest => ?_)
      refine post_pure ⟨hrest.1, fun bs hbs => ?_⟩
      obtain ⟨bs', hbs', rfl⟩ := Option.map_eq_some_iff.mp hbs
      obtain ⟨rfl, hall⟩ := hrest.2 bs' hbs'
      exact ⟨rfl, List.Forall₂.cons hb hall⟩

/-! ## Writing slots -/

/-- The loops that box values and write them into cells. -/
def fillCells {ι : Type} (t : HandleType) (cell : ι → Ptr) (value : ι → t.Value S) (is : List ι) :
    CAbi S R PUnit :=
  forM is fun i => do
    let p ← intoRaw t (value i)
    writePointer (cell i) p

/-- The cells from `out` on hold the addresses from the next free one on, which are boxes of the values,
and nothing else has changed. -/
structure Filled (s : State S R) (t : HandleType) (out : Ptr) (values : List (t.Value S))
    (s' : State S R) : Prop where
  next : s'.heap.next = s.heap.next + values.length
  memory : ∀ i < values.length, s'.memory (out + i) = some (some (s.heap.next + i))
  get : ∀ (i : ℕ) (v : t.Value S), values[i]? = some v →
    s'.heap.get (s.heap.next + i) = some ⟨t, v⟩
  memory_of_ne : ∀ cell, (∀ i < values.length, cell ≠ out + i) → s'.memory cell = s.memory cell
  get_of_lt : ∀ p : ℕ, p < s.heap.next → s'.heap.get p = s.heap.get p

section Filled

variable {s s' : State S R} {t : HandleType} {out : Ptr} {values : List (t.Value S)}

/-- Nothing has been written. -/
theorem Filled.refl (s : State S R) (t : HandleType) (out : Ptr) : Filled s t out [] s where
  next := rfl
  memory i hi := absurd hi (Nat.not_lt_zero i)
  get i v hv := by simp at hv
  memory_of_ne _ _ := rfl
  get_of_lt _ _ := rfl

/-- One more value is boxed and written to the cell behind the others. -/
theorem Filled.append {u : State S R} (h : Filled s t out values u) (v : t.Value S) :
    Filled s t out (values ++ [v])
      { u with
        heap := (u.heap.alloc ⟨t, v⟩).2
        memory := Function.update u.memory (out + values.length) (some (some u.heap.next)) } where
  next := by
    rw [List.length_append, List.length_singleton, ← Nat.add_assoc, ← h.next]
    rfl
  memory i hi := by
    rw [List.length_append, List.length_singleton] at hi
    -- the slots before are not touched, the last one holds the new pointer
    rcases Nat.lt_or_eq_of_le (Nat.le_of_lt_succ hi) with hlt | rfl
    · have hne : out + i ≠ out + values.length := fun heq =>
        Nat.ne_of_lt hlt (Nat.add_left_cancel heq)
      exact (Function.update_of_ne hne ..).trans (h.memory i hlt)
    · rw [← h.next]
      exact Function.update_self ..
  get i w hw := by
    rcases Nat.lt_or_ge i values.length with hlt | hge
    · rw [List.getElem?_append_left hlt] at hw
      exact Heap.get_alloc_of_eq_some (h.get i w hw) _
    · obtain ⟨hi, rfl⟩ := List.getElem?_eq_some_iff.mp hw
      rw [List.length_append, List.length_singleton] at hi
      obtain rfl : i = values.length := by omega
      rw [← h.next, List.getElem_concat_length rfl]
      exact Heap.get_alloc_next _ _
  memory_of_ne cell hcell := by
    rw [List.length_append, List.length_singleton] at hcell
    have hlast := hcell values.length (Nat.lt_succ_self _)
    exact (Function.update_of_ne hlast ..).trans
      (h.memory_of_ne cell fun i hi => hcell i (Nat.lt_succ_of_lt hi))
  get_of_lt p hp := by
    have hlt : p < u.heap.next := by
      rw [h.next]
      omega
    exact (Heap.get_alloc_of_lt hlt _).trans (h.get_of_lt p hp)

/-- Filled cells hold new boxes. -/
theorem Filled.holdsNew (h : Filled s t out values s') : HoldsNew s s' t out values := by
  refine ⟨fun i => s.heap.next + i, fun i v hv => ?_, fun i _ j _ hij => ?_, fun i _ => ?_⟩
  · obtain ⟨hi, -⟩ := List.getElem?_eq_some_iff.mp hv
    exact ⟨h.memory i hi, h.get i v hv⟩
  · exact Nat.add_left_cancel hij
  · exact s.heap.get_of_next_le _ (Nat.le_add_right _ _)

/-- Filling cells allocates one box after the other. -/
theorem Filled.extends_heap (h : Filled s t out values s') :
    s.heap.Extends s'.heap (values.map (Boxed.mk t)) where
  next_eq := by rw [h.next, List.length_map]
  get_of_lt := h.get_of_lt
  get_new i b hb := by
    rw [List.getElem?_map, Option.map_eq_some_iff] at hb
    obtain ⟨v, hv, rfl⟩ := hb
    exact h.get i v hv

end Filled

/-- A loop that writes the cells from `out` on, in order, fills them. -/
theorem post_fillCells {ι : Type} (s : State S R) (t : HandleType) (value : ι → t.Value S)
    {cell : ι → Ptr} {is : List ι} {out : Ptr}
    (hcell : ∀ (i : ℕ) (x : ι), is[i]? = some x → cell x = out + i) :
    Post (fillCells t cell value is) s fun _ s' => Filled s t out (is.map value) s' := by
  -- a round continues what the rounds before it have filled, where its cell is the next one
  have hstep : ∀ (done : List ι) (x : ι) (u : State S R),
      ((∀ (i : ℕ) (y : ι), done[i]? = some y → cell y = out + i) →
        Filled s t out (done.map value) u) →
      Post (do let p ← intoRaw t (value x); writePointer (cell x) p) u fun _ u' =>
        (∀ (i : ℕ) (y : ι), (done ++ [x])[i]? = some y → cell y = out + i) →
          Filled s t out ((done ++ [x]).map value) u' := by
    intro done x u hfilled _ u' hrun hcells
    obtain ⟨p, u₁, hbox, hwrite⟩ := run_bind_eq_some_iff.mp hrun
    cases hbox
    obtain ⟨-, rfl⟩ := run_writePointer_eq_some_iff.mp hwrite
    have hdone := hfilled fun i y hy => hcells i y (by
      obtain ⟨hi, -⟩ := List.getElem?_eq_some_iff.mp hy
      rwa [List.getElem?_append_left hi])
    have hlast := hcells done.length x List.getElem?_concat_length
    have hnext := hdone.append (value x)
    rw [List.length_map, ← hlast] at hnext
    rw [List.map_append]
    exact hnext
  intro _ s' hrun
  have hloop := post_forM (fun done u => (∀ (i : ℕ) (x : ι), done[i]? = some x → cell x = out + i) →
    Filled s t out (done.map value) u) hstep is (fun _ => Filled.refl s t out)
  exact hloop _ s' hrun hcell

/-- The write loop over the evaluated elements fills the slots. -/
theorem post_writeEvaluateds (s : State S R) (out : Ptr) (evaluateds : List (EvaluatedElement G)) :
    Post (forM evaluateds.zipIdx fun (e, i) => do
      let p ← intoRaw .evaluatedElement e
      writePointer (out + i) p) s fun _ s' => Filled s .evaluatedElement out evaluateds s' := by
  have hcell : ∀ (i : ℕ) (x : EvaluatedElement G × ℕ), evaluateds.zipIdx[i]? = some x →
      out + x.2 = out + i := by
    intro i x hx
    rw [List.getElem?_zipIdx, Option.map_eq_some_iff] at hx
    obtain ⟨e, -, rfl⟩ := hx
    rw [Nat.zero_add]
  have hfill := post_fillCells s .evaluatedElement Prod.fst hcell
  rwa [List.zipIdx_map_fst] at hfill

/-- The write loop over the outputs fills the slots. -/
theorem post_writeOutputs (s : State S R) (out : Ptr) (outputs : List PoprfOutput) :
    Post (forM (((List.range outputs.length).map (out + ·)).zip outputs) fun (slot, o) => do
      let p ← intoRaw .output o
      writePointer slot p) s fun _ s' => Filled s .output out outputs s' := by
  have hlen : outputs.length ≤ ((List.range outputs.length).map (out + ·)).length := by
    rw [List.length_map, List.length_range]
  have hcell : ∀ (i : ℕ) (x : Ptr × PoprfOutput),
      (((List.range outputs.length).map (out + ·)).zip outputs)[i]? = some x → x.1 = out + i := by
    intro i x hx
    rw [List.getElem?_zip_eq_some, List.getElem?_map, Option.map_eq_some_iff] at hx
    obtain ⟨⟨j, hj, hx⟩, -⟩ := hx
    obtain ⟨hi, hij⟩ := List.getElem?_eq_some_iff.mp hj
    rw [← hx, ← hij, List.getElem_range]
  have hfill := post_fillCells s .output Prod.snd hcell
  rwa [List.map_snd_zip hlen] at hfill

/-- A single cell. -/
theorem holdsNew_singleton {s s' : State S R} {t : HandleType} {cell p : Ptr} {v : t.Value S}
    (hmemory : s'.memory cell = some (some p)) (hget : s'.heap.get p = some ⟨t, v⟩)
    (hnew : s.heap.get p = none) : HoldsNew s s' t cell [v] := by
  refine ⟨fun _ => p, fun i w hw => ?_, ?_, fun _ _ => hnew⟩
  · obtain ⟨hi, rfl⟩ := List.getElem?_eq_some_iff.mp hw
    rw [List.length_singleton, Nat.lt_one_iff] at hi
    subst hi
    exact ⟨hmemory, hget⟩
  · intro i hi j hj _
    rw [List.length_singleton, Set.mem_Iio, Nat.lt_one_iff] at hi hj
    rw [hi, hj]

/-- Boxes stay where they are while others are added elsewhere and one cell is written. -/
theorem HoldsNew.but {s s' s'' : State S R} {t : HandleType} {out : Ptr}
    {values : List (t.Value S)} (h : HoldsNew s s' t out values) {other : Ptr}
    (hmemory : ∀ cell ≠ other, s''.memory cell = s'.memory cell)
    (hheap : ∀ (p : ℕ) (b : Boxed S), s'.heap.get p = some b → s''.heap.get p = some b) :
    HoldsNewBut s s'' other t out values := by
  obtain ⟨box, hpoints, hinj, hnew⟩ := h
  refine ⟨box, fun i v hv => ?_, hinj, hnew⟩
  obtain ⟨hcell, hbox⟩ := hpoints i v hv
  exact ⟨fun hne => (hmemory _ hne).trans hcell, hheap _ _ hbox⟩

end PoprfRistretto.Ffi
