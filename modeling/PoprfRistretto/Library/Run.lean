import Mathlib.Data.List.Induction
import Mathlib.Tactic.TypeStar

/-!
# Runs of a labelled step relation

A run is a finite sequence of labelled steps. An invariant is carried along a run from what one step
does to it, once for all the developments that state their step relation this way.
-/

universe u v

variable {State : Type u} {Label : Type v}

/-- The steps labelled `labels` lead from `start` to the last state. -/
inductive Run (Step : State → Label → State → Prop) (start : State) : List Label → State → Prop
  | refl : Run Step start [] start
  | snoc {labels : List Label} {s s' : State} {label : Label} (prior : Run Step start labels s)
      (step : Step s label s') : Run Step start (labels ++ [label]) s'

/-- If each step keeps `Inv` exactly when its label satisfies `P`, then a run keeps `Inv` exactly when
all its labels do. -/
theorem Run.invariant_iff {Step : State → Label → State → Prop} {Inv : State → Prop}
    {P : Label → Prop} (hstep : ∀ {s label s'}, Step s label s' → (Inv s' ↔ Inv s ∧ P label))
    {start s : State} {labels : List Label} (h : Run Step start labels s) :
    Inv s ↔ Inv start ∧ ∀ label ∈ labels, P label := by
  induction h with
  | refl => simp
  | snoc prior step ih =>
    rw [hstep step, ih, List.forall_mem_append, List.forall_mem_singleton, and_assoc]

/-- A relation between the labels of a run and its state holds throughout when it holds before the
first step and each step keeps it. -/
theorem Run.history {Step : State → Label → State → Prop} {Inv : List Label → State → Prop}
    {start : State} (hstart : Inv [] start)
    (hstep : ∀ {labels s label s'}, Inv labels s → Step s label s' → Inv (labels ++ [label]) s')
    {s : State} {labels : List Label} (h : Run Step start labels s) : Inv labels s := by
  induction h with
  | refl => exact hstart
  | snoc prior step ih => exact hstep ih step

/-- A run that is not empty ends with its last step. -/
theorem run_snoc_iff {Step : State → Label → State → Prop} {start s' : State} {labels : List Label}
    {label : Label} :
    Run Step start (labels ++ [label]) s' ↔ ∃ s, Run Step start labels s ∧ Step s label s' := by
  constructor
  · intro h
    generalize hall : labels ++ [label] = all at h
    cases h with
    | refl => exact absurd hall (List.append_ne_nil_of_right_ne_nil _ (List.cons_ne_nil _ _))
    | snoc prior step =>
      obtain ⟨rfl, hlabel⟩ := List.append_inj' hall rfl
      obtain rfl := List.singleton_inj.mp hlabel
      exact ⟨_, prior, step⟩
  · rintro ⟨s, prior, step⟩
    exact .snoc prior step

/-- An empty run stays where it is. -/
theorem run_nil_iff {Step : State → Label → State → Prop} {start s' : State} :
    Run Step start [] s' ↔ s' = start := by
  constructor
  · intro h
    generalize hall : ([] : List Label) = all at h
    cases h with
    | refl => rfl
    | snoc prior step => exact absurd hall.symm (List.append_ne_nil_of_right_ne_nil _ (List.cons_ne_nil _ _))
  · rintro rfl
    exact .refl

/-- A run of two parts passes through the state between them. -/
theorem run_append_iff {Step : State → Label → State → Prop} {start s' : State}
    {labels labels' : List Label} :
    Run Step start (labels ++ labels') s' ↔ ∃ s, Run Step start labels s ∧ Run Step s labels' s' := by
  induction labels' using List.reverseRecOn generalizing s' with
  | nil => simp [run_nil_iff]
  | append_singleton labels' label ih =>
    rw [← List.append_assoc, run_snoc_iff]
    constructor
    · rintro ⟨t, hrun, hstep⟩
      obtain ⟨s, hfirst, hrest⟩ := ih.mp hrun
      exact ⟨s, hfirst, .snoc hrest hstep⟩
    · rintro ⟨s, hfirst, hrest⟩
      obtain ⟨t, hrest, hstep⟩ := run_snoc_iff.mp hrest
      exact ⟨t, ih.mpr ⟨s, hfirst, hrest⟩, hstep⟩

/-- A run passes through the state before each of its steps. -/
theorem run_append_cons_iff {Step : State → Label → State → Prop} {start s' : State}
    {labels labels' : List Label} {label : Label} :
    Run Step start (labels ++ label :: labels') s' ↔
      ∃ s t, Run Step start labels s ∧ Step s label t ∧ Run Step t labels' s' := by
  rw [List.append_cons, run_append_iff]
  simp only [run_snoc_iff]
  constructor
  · rintro ⟨t, ⟨s, hbefore, hstep⟩, hafter⟩
    exact ⟨s, t, hbefore, hstep, hafter⟩
  · rintro ⟨s, t, hbefore, hstep, hafter⟩
    exact ⟨t, ⟨s, hbefore, hstep⟩, hafter⟩

/-- A run can be continued at its start. -/
theorem run_cons {Step : State → Label → State → Prop} {start s s' : State} {label : Label}
    {labels : List Label} (hstep : Step start label s) (h : Run Step s labels s') :
    Run Step start (label :: labels) s' :=
  run_append_cons_iff.mpr ⟨start, s, .refl, hstep, h⟩

/-! ## Executable steps -/

/-- Make moves one after the other, each of which makes a step or is refused. -/
def execute {Move : Type*} (step : State → Move → Option (Label × State)) (s : State) :
    List Move → Option (List Label × State)
  | [] => some ([], s)
  | move :: moves => do
    let (label, s₁) ← step s move
    let (labels, s') ← execute step s₁ moves
    return (label :: labels, s')

/-- Moves that make steps make a run. -/
theorem run_of_execute {Step : State → Label → State → Prop} {Move : Type*}
    {step : State → Move → Option (Label × State)}
    (hstep : ∀ {s move label s'}, step s move = some (label, s') → Step s label s') {s s' : State}
    {moves : List Move} {labels : List Label} (h : execute step s moves = some (labels, s')) :
    Run Step s labels s' := by
  induction moves generalizing s labels with
  | nil =>
    cases h
    exact .refl
  | cons move moves ih =>
    simp only [execute, Option.bind_eq_bind, Option.bind_eq_some_iff, Prod.exists] at h
    obtain ⟨label, s₁, hmove, labels', s₂, hmoves, h⟩ := h
    cases h
    exact run_cons (hstep hmove) (ih hmoves)
