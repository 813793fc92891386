import Mathlib.Data.List.Basic
import Mathlib.Logic.Function.Basic

/-!
# A heap of allocations and memory cells

The memory of a program that hands out pointers. Addresses of the heap are not used again after they
are freed, so that an address names its allocation. The cells belong to somebody else: they can be
written where they exist, and are never created.

* `Heap.get_alloc_of_eq_some` — an allocation leaves what was allocated before.
* `Heap.Extends.get_eq_some_iff` — after allocations there is what was there before and what is new.
* `writeCell_eq_some_iff` — a write changes one cell.
-/

universe u v

namespace Memory

/-- A heap. Address `0` is not an address of the heap. -/
structure Heap (α : Type u) where
  get : ℕ → Option α
  next : ℕ
  next_ne_zero : next ≠ 0
  get_of_next_le : ∀ p, next ≤ p → get p = none

namespace Heap

variable {α : Type u} (heap : Heap α)

/-- The heap before any allocation. -/
def empty : Heap α where
  get _ := none
  next := 1
  next_ne_zero := Nat.one_ne_zero
  get_of_next_le _ _ := rfl

/-- Allocate at an address that was never used. -/
def alloc (a : α) : ℕ × Heap α :=
  (heap.next,
    { get := Function.update heap.get heap.next (some a)
      next := heap.next + 1
      next_ne_zero := Nat.succ_ne_zero heap.next
      get_of_next_le := fun p hp => by
        rw [Function.update_of_ne (Nat.ne_of_gt hp)]
        exact heap.get_of_next_le p (Nat.le_of_succ_le hp) })

/-- Free the allocation at an address. -/
def free (p : ℕ) : Heap α where
  get := Function.update heap.get p none
  next := heap.next
  next_ne_zero := heap.next_ne_zero
  get_of_next_le q hq := by
    by_cases h : q = p
    · rw [h, Function.update_self]
    · rw [Function.update_of_ne h]
      exact heap.get_of_next_le q hq

/-- What is allocated is found at its address. -/
theorem get_alloc_next (a : α) : (heap.alloc a).2.get heap.next = some a := Function.update_self ..

variable {heap}

/-- An address in use is below the next one. -/
theorem lt_next_of_get_eq_some {p : ℕ} {a : α} (h : heap.get p = some a) : p < heap.next := by
  by_contra hge
  rw [heap.get_of_next_le p (Nat.le_of_not_lt hge)] at h
  cases h

/-- An allocation leaves what was allocated before. -/
theorem get_alloc_of_lt {p : ℕ} (h : p < heap.next) (a : α) : (heap.alloc a).2.get p = heap.get p :=
  Function.update_of_ne (Nat.ne_of_lt h) ..

theorem get_alloc_of_eq_some {p : ℕ} {b : α} (h : heap.get p = some b) (a : α) :
    (heap.alloc a).2.get p = some b := by
  rw [get_alloc_of_lt (lt_next_of_get_eq_some h), h]

/-- `new` has been allocated, in this order, and nothing else has happened. -/
structure Extends (heap heap' : Heap α) (new : List α) : Prop where
  next_eq : heap'.next = heap.next + new.length
  get_of_lt : ∀ p < heap.next, heap'.get p = heap.get p
  get_new : ∀ (i : ℕ) (a : α), new[i]? = some a → heap'.get (heap.next + i) = some a

namespace Extends

variable {heap' heap'' : Heap α} {new new' : List α}

/-- A heap extends itself by nothing. -/
theorem refl (heap : Heap α) : heap.Extends heap [] where
  next_eq := rfl
  get_of_lt _ _ := rfl
  get_new i a h := by simp at h

/-- An allocation adds one value at the end. -/
theorem alloc (heap : Heap α) (a : α) : heap.Extends (heap.alloc a).2 [a] where
  next_eq := rfl
  get_of_lt _ hp := get_alloc_of_lt hp a
  get_new i b h := by
    obtain ⟨hi, rfl⟩ := List.getElem?_eq_some_iff.mp h
    rw [List.length_singleton, Nat.lt_one_iff] at hi
    subst hi
    exact heap.get_alloc_next a

/-- Extensions can be put together. -/
theorem trans (h : heap.Extends heap' new) (h' : heap'.Extends heap'' new') :
    heap.Extends heap'' (new ++ new') where
  next_eq := by rw [h'.next_eq, h.next_eq, List.length_append, Nat.add_assoc]
  get_of_lt p hp := (h'.get_of_lt p (h.next_eq ▸ Nat.lt_add_right _ hp)).trans (h.get_of_lt p hp)
  get_new i a ha := by
    by_cases hi : i < new.length
    · rw [List.getElem?_append_left hi] at ha
      rw [h'.get_of_lt _ (by rw [h.next_eq]; omega)]
      exact h.get_new i a ha
    · rw [List.getElem?_append_right (Nat.le_of_not_lt hi)] at ha
      rw [← h'.get_new _ a ha, h.next_eq]
      congr 1
      omega

/-- What was allocated can be read off the heaps. -/
theorem unique (h : heap.Extends heap' new) (h' : heap.Extends heap' new') : new = new' := by
  have hlen : new.length = new'.length := Nat.add_left_cancel (h.next_eq.symm.trans h'.next_eq)
  refine List.ext_getElem hlen fun i hi hi' => ?_
  have hget := h.get_new i _ (List.getElem?_eq_getElem hi)
  rw [h'.get_new i _ (List.getElem?_eq_getElem hi')] at hget
  exact (Option.some.inj hget).symm

/-- What was allocated stays. -/
theorem get_of_eq_some (h : heap.Extends heap' new) {p : ℕ} {a : α} (hp : heap.get p = some a) :
    heap'.get p = some a := (h.get_of_lt p (lt_next_of_get_eq_some hp)).trans hp

/-- What is allocated was allocated before, or is new. -/
theorem get_eq_some_iff (h : heap.Extends heap' new) {p : ℕ} {a : α} :
    heap'.get p = some a ↔ heap.get p = some a ∨ ∃ i, p = heap.next + i ∧ new[i]? = some a := by
  constructor
  · intro hp
    by_cases hlt : p < heap.next
    · exact .inl ((h.get_of_lt p hlt).symm.trans hp)
    · have hnext := lt_next_of_get_eq_some hp
      rw [h.next_eq] at hnext
      have hi : p - heap.next < new.length := by omega
      have hnew := h.get_new _ _ (List.getElem?_eq_getElem hi)
      have heq : heap.next + (p - heap.next) = p := by omega
      rw [heq] at hnew
      refine .inr ⟨p - heap.next, heq.symm, ?_⟩
      rw [List.getElem?_eq_getElem hi, ← hnew, hp]
  · rintro (hp | ⟨i, rfl, hi⟩)
    · exact h.get_of_eq_some hp
    · exact h.get_new i a hi

end Extends

end Heap

/-! ## Cells -/

section Cells

variable {κ : Type u} {α : Type v} [DecidableEq κ]

/-- Write a cell that exists. -/
def writeCell (cells : κ → Option α) (k : κ) (a : α) : Option (κ → Option α) :=
  if (cells k).isSome then some (Function.update cells k (some a)) else none

/-- A write needs a cell, and changes this cell only. -/
theorem writeCell_eq_some_iff {cells cells' : κ → Option α} {k : κ} {a : α} :
    writeCell cells k a = some cells' ↔
      (cells k).isSome ∧ Function.update cells k (some a) = cells' := by
  rw [writeCell, Option.ite_none_right_eq_some, Option.some.injEq]

end Cells

end Memory
