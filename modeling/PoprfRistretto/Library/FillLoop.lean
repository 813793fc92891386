import Mathlib.Data.Vector.Basic
import Mathlib.Control.Lawful

/-!
# Loops that fill an array

A loop `for i in 0..n { out[i] = f(i)?; }` over an array of `n` slots, in any monad. Whatever the array
held before, the loop collects the values of its rounds.

* `foldlM_set_finRange` — the loop is the collection `mOfFn` of its rounds.
* `foldlM_prod_eq_run` — a loop that carries a state along is a loop in the state monad.
* `mOfFn_mk_pure` — rounds without effects but failure are collected as options.
-/

universe u v

namespace FillLoop

variable {m : Type u → Type v} [Monad m] [LawfulMonad m] {α : Type u} {n : ℕ}

/-- Setting behind the head leaves the head. -/
theorem set_succ (a : α) (out : List.Vector α n) (i : Fin n) (x : α) :
    (a ::ᵥ out).set i.succ x = a ::ᵥ out.set i x := by
  apply List.Vector.eq
  rw [List.Vector.toList_set, List.Vector.toList_cons, List.Vector.toList_cons,
    List.Vector.toList_set]
  rfl

/-- Setting the head leaves the tail. -/
theorem set_zero (out : List.Vector α (n + 1)) (x : α) : out.set 0 x = x ::ᵥ out.tail := by
  apply List.Vector.eq
  obtain ⟨a, out, rfl⟩ := out.exists_eq_cons
  rw [List.Vector.toList_set, List.Vector.toList_cons, List.Vector.tail_cons,
    List.Vector.toList_cons]
  rfl

/-- Filling the slots after the first leaves the first alone. -/
theorem foldlM_set_map_succ (f : Fin (n + 1) → m α) (is : List (Fin n)) (a : α)
    (out : List.Vector α n) :
    (is.map Fin.succ).foldlM (fun out i => do return out.set i (← f i)) (a ::ᵥ out) =
      (a ::ᵥ ·) <$> is.foldlM (fun out i => do return out.set i (← f i.succ)) out := by
  induction is generalizing out with
  | nil => simp
  | cons i is ih =>
    simp only [List.map_cons, List.foldlM_cons, bind_assoc, pure_bind, map_bind, set_succ, ih]

/-- A loop that writes every slot in order collects the values of its rounds. -/
theorem foldlM_set_finRange (f : Fin n → m α) (init : List.Vector α n) :
    (List.finRange n).foldlM (fun out i => do return out.set i (← f i)) init =
      List.Vector.mOfFn f := by
  induction n with
  | zero =>
    rw [List.finRange_zero, List.foldlM_nil, List.Vector.mOfFn, init.eq_nil]
  | succ n ih =>
    rw [List.finRange_succ, List.foldlM_cons, List.Vector.mOfFn, bind_assoc]
    refine bind_congr fun a => ?_
    rw [pure_bind, set_zero, foldlM_set_map_succ, ih, map_eq_pure_bind]

/-- A loop that carries a state beside its accumulator is a loop in the state monad. -/
theorem foldlM_prod_eq_run {m : Type u → Type v} [Monad m] {β σ ι : Type u}
    (f : β → ι → StateT σ m β) (is : List ι) (init : β) (s : σ) :
    is.foldlM (fun p i => (f p.1 i).run p.2) (init, s) = (is.foldlM f init).run s := by
  induction is generalizing init s with
  | nil => rfl
  | cons i is ih =>
    rw [List.foldlM_cons, List.foldlM_cons, StateT.run_bind]
    exact bind_congr fun p => ih p.1 p.2

/-- Rounds that have no effect but failure are collected as options. -/
theorem mOfFn_mk_pure {m : Type u → Type u} [Monad m] [LawfulMonad m] (f : Fin n → Option α) :
    (List.Vector.mOfFn fun i => OptionT.mk (pure (f i) : m (Option α))) =
      OptionT.mk (pure (List.Vector.mOfFn f)) := by
  induction n with
  | zero => rfl
  | succ n ih =>
    rw [List.Vector.mOfFn, ih, List.Vector.mOfFn]
    apply OptionT.ext
    cases hhead : f 0 with
    | none => simp
    | some a =>
      cases htail : List.Vector.mOfFn fun i => f i.succ with
      | none => simp
      | some out => simp

end FillLoop
