import Mathlib.Data.List.Basic

/-!
# Programs over a state that may be undefined

Rules for the states that a program of `StateT σ Option` ends in. `none` stands for a run that has no
result: what the program does there is left open.

* `Post x s Q` — where the run of `x` from `s` is defined, it ends in `Q`.
* `Defined x s` — the run of `x` from `s` is defined.
-/

universe u

namespace PartialState

variable {σ α β ι : Type u} {x : StateT σ Option α} {f : α → StateT σ Option β} {s : σ}

/-- Where the run of `x` from `s` is defined, it ends in `Q`. -/
def Post (x : StateT σ Option α) (s : σ) (Q : α → σ → Prop) : Prop :=
  ∀ a s', x.run s = some (a, s') → Q a s'

/-- The run of `x` from `s` is defined. -/
def Defined (x : StateT σ Option α) (s : σ) : Prop := ∃ a s', x.run s = some (a, s')

/-- A sequence has a result when both of its parts do. -/
theorem run_bind_eq_some_iff {b : β} {s' : σ} :
    (x >>= f).run s = some (b, s') ↔
      ∃ a t, x.run s = some (a, t) ∧ (f a).run t = some (b, s') := by
  rw [StateT.run_bind]
  show (x.run s).bind _ = _ ↔ _
  rw [Option.bind_eq_some_iff, Prod.exists]

/-! ## Results where the run is defined -/

theorem post_pure {a : α} {Q : α → σ → Prop} (h : Q a s) : Post (pure a) s Q := by
  intro a' s' hrun
  cases hrun
  exact h

/-- The rule of sequences. -/
theorem post_bind {Q : β → σ → Prop} (h : Post x s fun a t => Post (f a) t Q) :
    Post (x >>= f) s Q := by
  intro b s' hrun
  obtain ⟨a, t, hx, hf⟩ := run_bind_eq_some_iff.mp hrun
  exact h a t hx b s' hf

/-- The rule of consequence. -/
theorem Post.mono {Q Q' : α → σ → Prop} (h : Post x s Q) (himp : ∀ a s', Q a s' → Q' a s') :
    Post x s Q' := fun a s' hrun => himp a s' (h a s' hrun)

/-- Two postconditions of one run. -/
theorem Post.and {Q Q' : α → σ → Prop} (h : Post x s Q) (h' : Post x s Q') :
    Post x s fun a s' => Q a s' ∧ Q' a s' := fun a s' hrun => ⟨h a s' hrun, h' a s' hrun⟩

theorem post_modify {g : σ → σ} {Q : PUnit → σ → Prop} (h : Q ⟨⟩ (g s)) :
    Post (modify g : StateT σ Option PUnit) s Q := by
  intro a s' hrun
  cases hrun
  exact h

/-- A loop over a list keeps an invariant over the elements that it has processed. -/
theorem post_forM {g : ι → StateT σ Option PUnit} (Inv : List ι → σ → Prop)
    (hstep : ∀ done i t, Inv done t → Post (g i) t fun _ t' => Inv (done ++ [i]) t') (is : List ι)
    (h : Inv [] s) : Post (forM is g) s fun _ s' => Inv is s' := by
  suffices hloop : ∀ done t, Inv done t → Post (forM is g) t fun _ s' => Inv (done ++ is) s' from
    hloop [] s h
  clear h
  induction is with
  | nil =>
    intro done t ht
    rw [List.append_nil]
    exact post_pure ht
  | cons i is ih =>
    intro done t ht
    rw [List.forM_cons]
    refine post_bind ((hstep done i t ht).mono fun _ t' ht' => ?_)
    have hrest := ih (done ++ [i]) t' ht'
    rwa [List.append_assoc, List.singleton_append] at hrest

/-- A loop that reads leaves the state alone and collects what each round reads. -/
theorem post_mapM {g : ι → StateT σ Option α} {P : ι → α → Prop}
    (hstep : ∀ i, Post (g i) s fun a s' => s' = s ∧ P i a) (is : List ι) :
    Post (is.mapM g) s fun as s' => s' = s ∧ List.Forall₂ P is as := by
  induction is with
  | nil => exact post_pure ⟨rfl, List.Forall₂.nil⟩
  | cons i is ih =>
    rw [List.mapM_cons]
    refine post_bind ((hstep i).mono fun a t ha => ?_)
    obtain ⟨rfl, ha⟩ := ha
    refine post_bind (ih.mono fun as t has => ?_)
    obtain ⟨rfl, has⟩ := has
    exact post_pure ⟨rfl, List.Forall₂.cons ha has⟩

/-! ## Runs that are defined -/

theorem defined_pure (a : α) (s : σ) : Defined (pure a) s := ⟨a, s, rfl⟩

theorem defined_modify (g : σ → σ) (s : σ) : Defined (modify g : StateT σ Option PUnit) s :=
  ⟨⟨⟩, g s, rfl⟩

/-- A sequence is defined when its first part is, and its second part after it. -/
theorem defined_bind (hx : Defined x s) (hf : Post x s fun a t => Defined (f a) t) :
    Defined (x >>= f) s := by
  obtain ⟨a, t, hrun⟩ := hx
  obtain ⟨b, s', hrun'⟩ := hf a t hrun
  exact ⟨b, s', run_bind_eq_some_iff.mpr ⟨a, t, hrun, hrun'⟩⟩

/-- A map is defined when its argument is. -/
theorem defined_map (hx : Defined x s) (g : α → β) : Defined (g <$> x) s := by
  rw [map_eq_pure_bind]
  exact defined_bind hx fun a t _ => defined_pure (g a) t

/-- A loop that reads is defined when each of its rounds is. -/
theorem defined_mapM {g : ι → StateT σ Option α} {is : List ι} (h : ∀ i ∈ is, Defined (g i) s)
    (hkeep : ∀ i, Post (g i) s fun _ s' => s' = s) : Defined (is.mapM g) s := by
  induction is with
  | nil => exact defined_pure [] s
  | cons i is ih =>
    rw [List.forall_mem_cons] at h
    rw [List.mapM_cons]
    refine defined_bind h.1 ((hkeep i).mono fun a t ht => ?_)
    subst ht
    exact defined_bind (ih h.2) fun as t _ => defined_pure (a :: as) t

/-- A loop is defined when each of its rounds is and keeps what they need. -/
theorem defined_forM {g : ι → StateT σ Option PUnit} (Inv : σ → Prop) {is : List ι}
    (h : ∀ i ∈ is, ∀ t, Inv t → Defined (g i) t)
    (hkeep : ∀ i t, Inv t → Post (g i) t fun _ t' => Inv t') (hs : Inv s) :
    Defined (forM is g) s := by
  induction is generalizing s with
  | nil => exact defined_pure PUnit.unit s
  | cons i is ih =>
    rw [List.forall_mem_cons] at h
    rw [List.forM_cons]
    exact defined_bind (h.1 s hs) ((hkeep i s hs).mono fun _ t ht => ih h.2 ht)

end PartialState
