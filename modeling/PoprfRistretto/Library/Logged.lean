import Mathlib.Control.Lawful
import Mathlib.Data.List.Basic

/-!
# Computations that log what they do

`Logged ω α` is a value with the list of events on the way to it, and `ExceptT ε (Logged ω)` adds
errors that keep the events before them. A logged program is compared with a plain one by its `value`,
and what it does is stated by `All p`: every event satisfies `p`. The rules below compute both through
`bind` and through loops, so that neither the log nor its order has to be written out.
-/

universe u v

/-- A value and the events that were logged on the way to it. -/
structure Logged (ω : Type v) (α : Type u) where
  value : α
  log : List ω

namespace Logged

variable {ω : Type v} {α β : Type u} {ε : Type u} {p : ω → Prop}

/-- What is logged is joined in the order of the computation. -/
instance : Monad (Logged ω) where
  pure a := ⟨a, []⟩
  bind x f := ⟨(f x.value).value, x.log ++ (f x.value).log⟩

/-- The laws are those of lists of events. -/
instance : LawfulMonad (Logged ω) := LawfulMonad.mk' (Logged ω)
  (by
    intro α x
    show Logged.mk x.value (x.log ++ []) = x
    rw [List.append_nil])
  (by
    intro α β a f
    rfl)
  (by
    intro α β γ x f g
    exact congrArg (Logged.mk _) (List.append_assoc _ _ _))

/-- Log an event and return `a`. -/
def emit (e : ω) (a : α) : Logged ω α := ⟨a, [e]⟩

/-- Every logged event satisfies `p`. -/
def All (p : ω → Prop) (x : Logged ω α) : Prop := ∀ e ∈ x.log, p e

/-! ## Values -/

@[simp] theorem value_pure (a : α) : (pure a : Logged ω α).value = a := rfl

/-- The values of a logged computation are those of the plain one. -/
@[simp] theorem value_bind (x : Logged ω α) (f : α → Logged ω β) :
    (x >>= f).value = (f x.value).value := rfl

@[simp] theorem value_map (x : Logged ω α) (f : α → β) : (f <$> x).value = f x.value := rfl

@[simp] theorem value_emit (e : ω) (a : α) : (emit e a).value = a := rfl

@[simp] theorem value_ite {c : Prop} [Decidable c] (x y : Logged ω α) :
    (if c then x else y).value = if c then x.value else y.value := by
  split <;> rfl

/-- A collecting loop collects the values of its rounds. -/
@[simp] theorem value_mapM (f : α → Logged ω β) (l : List α) :
    (l.mapM f).value = l.map fun a => (f a).value := by
  induction l with
  | nil => rfl
  | cons a l ih => rw [List.mapM_cons, value_bind, value_bind, value_pure, ih, List.map_cons]

/-- An accumulating loop folds the values of its rounds. -/
@[simp] theorem value_foldlM (f : β → α → Logged ω β) (l : List α) (b : β) :
    (l.foldlM f b).value = l.foldl (fun b a => (f b a).value) b := by
  induction l generalizing b with
  | nil => rfl
  | cons a l ih => rw [List.foldlM_cons, value_bind, ih, List.foldl_cons]

/-! ## Events -/

/-- An event was logged unless all events differ from it. -/
theorem mem_log_iff {x : Logged ω α} {e : ω} : e ∈ x.log ↔ ¬All (· ≠ e) x := by
  simp [All]

@[simp] theorem all_pure (a : α) : All p (pure a : Logged ω α) := fun _ he => by cases he

@[simp] theorem all_emit {e : ω} {a : α} : All p (emit e a) ↔ p e := by
  simp [All, emit]

/-- The events of a sequence are those of its parts. -/
@[simp] theorem all_bind {x : Logged ω α} {f : α → Logged ω β} :
    All p (x >>= f) ↔ All p x ∧ All p (f x.value) := by
  show (∀ e ∈ x.log ++ (f x.value).log, p e) ↔ _
  rw [List.forall_mem_append]
  rfl

@[simp] theorem all_map {x : Logged ω α} {f : α → β} : All p (f <$> x) ↔ All p x := by
  show All p (x >>= fun a => pure (f a)) ↔ All p x
  rw [all_bind, and_iff_left (all_pure _)]

/-- The events of a collecting loop are those of its rounds. -/
@[simp] theorem all_mapM {f : α → Logged ω β} {l : List α} :
    All p (l.mapM f) ↔ ∀ a ∈ l, All p (f a) := by
  induction l with
  | nil => simp
  | cons a l ih => rw [List.mapM_cons, all_bind, all_bind, ih, List.forall_mem_cons,
      and_iff_left (all_pure _)]

/-- The events of an accumulating loop are those of its rounds, when these do not depend on the
accumulator. -/
theorem all_foldlM {f : β → α → Logged ω β} {q : α → Prop} (hf : ∀ b a, All p (f b a) ↔ q a)
    {l : List α} {b : β} : All p (l.foldlM f b) ↔ ∀ a ∈ l, q a := by
  induction l generalizing b with
  | nil => simp
  | cons a l ih => rw [List.foldlM_cons, all_bind, ih, hf, List.forall_mem_cons]

/-! ## Errors -/

/-- A plain computation with errors, which logs nothing. -/
def lift (x : Except ε α) : ExceptT ε (Logged ω) α := ExceptT.mk (pure x)

/-- A plain check logs nothing. -/
@[simp] theorem run_lift (x : Except ε α) : (lift x : ExceptT ε (Logged ω) α).run = pure x := rfl

/-- A logged step and the rest after it. -/
@[simp] theorem value_run_monadLift_bind (x : Logged ω α) (f : α → ExceptT ε (Logged ω) β) :
    ((monadLift x : ExceptT ε (Logged ω) α) >>= f).run.value = (f x.value).run.value := rfl

@[simp] theorem all_run_monadLift_bind {x : Logged ω α} {f : α → ExceptT ε (Logged ω) β} :
    All p ((monadLift x : ExceptT ε (Logged ω) α) >>= f).run ↔
      All p x ∧ All p (f x.value).run := by
  show All p ((Except.ok <$> x) >>= _) ↔ _
  rw [all_bind, all_map]
  rfl

/-- A step that may fail and the rest after it. -/
theorem value_run_bind (x : ExceptT ε (Logged ω) α) (f : α → ExceptT ε (Logged ω) β) :
    (x >>= f).run.value = x.run.value >>= fun a => (f a).run.value := by
  show (ExceptT.bindCont f x.run.value).value = _
  cases x.run.value <;> rfl

/-- The rest logs only where the step succeeds. -/
theorem all_run_bind {x : ExceptT ε (Logged ω) α} {f : α → ExceptT ε (Logged ω) β} :
    All p (x >>= f).run ↔ All p x.run ∧ ∀ a, x.run.value = .ok a → All p (f a).run := by
  show All p (x.run >>= ExceptT.bindCont f) ↔ _
  rw [all_bind]
  refine and_congr_right fun _ => ?_
  cases hx : x.run.value with
  | error e =>
    refine ⟨fun _ a h => ?_, fun _ => all_pure _⟩
    cases h
  | ok a =>
    refine ⟨fun h b hb => ?_, fun h => h a rfl⟩
    cases hb
    exact h

@[simp] theorem value_run_pure (a : α) : (pure a : ExceptT ε (Logged ω) α).run.value = .ok a := rfl

@[simp] theorem all_run_pure (a : α) : All p (pure a : ExceptT ε (Logged ω) α).run := all_pure _

@[simp] theorem all_run_lift (x : Except ε α) : All p (lift x : ExceptT ε (Logged ω) α).run :=
  all_pure _

/-- Behind a plain check the value is that of the plain computation. -/
@[simp] theorem value_run_lift_bind (x : Except ε α) (f : α → ExceptT ε (Logged ω) β) :
    (lift x >>= f).run.value = x >>= fun a => (f a).run.value := by
  rw [value_run_bind, run_lift, value_pure]

/-- A plain step logs nothing, and the rest only where it succeeds. -/
@[simp] theorem all_run_lift_bind {x : Except ε α} {f : α → ExceptT ε (Logged ω) β} :
    All p (lift x >>= f).run ↔ ∀ a, x = .ok a → All p (f a).run := by
  rw [all_run_bind, and_iff_right (all_run_lift x), run_lift, value_pure]

/-- A check logs nothing, and the rest only where it passes. -/
theorem all_run_check_bind {x : Except ε PUnit} {f : PUnit → ExceptT ε (Logged ω) β} :
    All p (lift x >>= f).run ↔ (x = .ok ⟨⟩ → All p (f ⟨⟩).run) := by
  rw [all_run_lift_bind]
  exact ⟨fun h hx => h ⟨⟩ hx, fun h _ hx => h hx⟩

/-- A logging check lets the rest log where it passes. -/
theorem all_run_logged_check_bind {x : ExceptT ε (Logged ω) PUnit}
    {f : PUnit → ExceptT ε (Logged ω) β} :
    All p (x >>= f).run ↔ All p x.run ∧ (x.run.value = .ok ⟨⟩ → All p (f ⟨⟩).run) := by
  rw [all_run_bind]
  exact and_congr_right fun _ => ⟨fun h hx => h ⟨⟩ hx, fun h _ hx => h hx⟩

@[simp] theorem all_run_monadLift {x : Logged ω α} :
    All p (monadLift x : ExceptT ε (Logged ω) α).run ↔ All p x := all_map

@[simp] theorem value_run_ite {c : Prop} [Decidable c] (x y : ExceptT ε (Logged ω) α) :
    (if c then x else y).run.value = if c then x.run.value else y.run.value := by
  split <;> rfl

theorem all_run_ite {c : Prop} [Decidable c] {x y : ExceptT ε (Logged ω) α} :
    All p (if c then x else y).run ↔ (c → All p x.run) ∧ (¬c → All p y.run) := by
  by_cases hc : c
  · rw [if_pos hc]
    simp [hc]
  · rw [if_neg hc]
    simp [hc]

end Logged
