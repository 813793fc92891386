import Mathlib.Data.List.Forall2

/-!
# Loops that stop at the first error

Inversion of `bind` in `Except`, and what a loop over a list computes when each round either goes on
or stops with an error.
-/

namespace ExceptLoop

universe u v

variable {ε : Type u} {α β : Type v}

/-- A sequence succeeds when both of its parts do. -/
theorem bind_eq_ok_iff {x : Except ε α} {f : α → Except ε β} {b : β} :
    (x >>= f) = .ok b ↔ ∃ a, x = .ok a ∧ f a = .ok b := by
  cases x with
  | error e => simp [Bind.bind, Except.bind]
  | ok a => simp [Bind.bind, Except.bind]

/-- A check lets the rest run when it passes. -/
theorem check_bind_eq_ok_iff {x : Except ε PUnit.{v + 1}} {f : PUnit.{v + 1} → Except ε β} {b : β} :
    (x >>= f) = .ok b ↔ x = .ok ⟨⟩ ∧ f ⟨⟩ = .ok b := by
  rw [bind_eq_ok_iff]
  exact ⟨fun ⟨_, hx, hf⟩ => ⟨hx, hf⟩, fun ⟨hx, hf⟩ => ⟨⟨⟩, hx, hf⟩⟩

/-- A computation in two steps fails when the first step fails, or the second on the first's value. -/
theorem bind_eq_error_iff {x : Except ε α} {f : α → Except ε β} {e : ε} :
    (x >>= f) = .error e ↔ x = .error e ∨ ∃ a, x = .ok a ∧ f a = .error e := by
  cases x with
  | error e' => simp [Bind.bind, Except.bind]
  | ok a => simp [Bind.bind, Except.bind]

/-- A map succeeds when its argument does. -/
theorem map_eq_ok_iff {x : Except ε α} {f : α → β} {b : β} :
    x.map f = .ok b ↔ ∃ a, x = .ok a ∧ f a = b := by
  cases x with
  | error e => simp [Except.map]
  | ok a => simp [Except.map]

/-- A map fails with the error of its argument. -/
theorem map_eq_error_iff {x : Except ε α} {f : α → β} {e : ε} :
    x.map f = .error e ↔ x = .error e := by
  cases x with
  | error e' => simp [Except.map]
  | ok a => simp [Except.map]

/-- A function of the result applies to what the second step returns. -/
theorem map_bind {γ : Type v} (x : Except ε α) (f : α → Except ε β) (g : β → γ) :
    (x >>= f).map g = x >>= fun a => (f a).map g := by
  cases x <;> rfl

@[simp] theorem ok_bind (a : α) (f : α → Except ε β) : (Except.ok a >>= f) = f a := rfl

@[simp] theorem error_bind (e : ε) (f : α → Except ε β) :
    (Except.error e >>= f) = Except.error e := rfl

@[simp] theorem pure_eq_ok (a : α) : (pure a : Except ε α) = .ok a := rfl

/-- A collecting loop succeeds when every round does, with the values in order. -/
theorem mapM_eq_ok_iff {f : α → Except ε β} {l : List α} {r : List β} :
    l.mapM f = .ok r ↔ List.Forall₂ (fun a b => f a = .ok b) l r := by
  induction l generalizing r with
  | nil =>
    rw [List.mapM_nil, List.forall₂_nil_left_iff, pure_eq_ok, Except.ok.injEq, eq_comm]
  | cons a l ih =>
    rw [List.mapM_cons, bind_eq_ok_iff, List.forall₂_cons_left_iff]
    constructor
    · rintro ⟨b, hb, h⟩
      obtain ⟨r', hr', h'⟩ := bind_eq_ok_iff.mp h
      cases h'
      exact ⟨b, r', hb, ih.mp hr', rfl⟩
    · rintro ⟨b, r', hb, hr', rfl⟩
      exact ⟨b, hb, bind_eq_ok_iff.mpr ⟨r', ih.mpr hr', rfl⟩⟩

/-- A collecting loop whose rounds all succeed collects their values. -/
theorem mapM_eq_ok_map {f : α → Except ε β} {g : α → β} {l : List α}
    (h : ∀ a ∈ l, f a = .ok (g a)) : l.mapM f = .ok (l.map g) := by
  rw [mapM_eq_ok_iff, List.forall₂_map_right_iff, List.forall₂_same]
  exact h

/-- Each element on the left of related lists is related to one on the right. -/
theorem exists_of_forall₂_mem_left {R : α → β → Prop} {l : List α} {r : List β}
    (h : List.Forall₂ R l r) {a : α} (ha : a ∈ l) : ∃ b, R a b := by
  induction h with
  | nil => cases ha
  | cons hab _ ih =>
    rcases List.mem_cons.mp ha with rfl | ha
    · exact ⟨_, hab⟩
    · exact ih ha

/-- An element of a related list is related to an element of the other list. -/
theorem exists_mem_of_forall₂ {R : α → β → Prop} {l : List α} {r : List β} (h : List.Forall₂ R l r)
    {a : α} (ha : a ∈ l) : ∃ b ∈ r, R a b := by
  induction h with
  | nil => cases ha
  | @cons _ b _ r hab _ ih =>
    rcases List.mem_cons.mp ha with rfl | ha
    · exact ⟨b, List.mem_cons_self, hab⟩
    · obtain ⟨b', hb', hR⟩ := ih ha
      exact ⟨b', List.mem_cons_of_mem b hb', hR⟩

/-- Lists that are related through a value for each pair are related through a list of values. -/
theorem forall₂_exists_iff {γ : Type v} {R : α → γ → Prop} {Q : γ → β → Prop} {l : List α}
    {r : List β} :
    List.Forall₂ (fun a b => ∃ c, R a c ∧ Q c b) l r ↔
      ∃ m, List.Forall₂ R l m ∧ List.Forall₂ Q m r := by
  constructor
  · intro h
    induction h with
    | nil => exact ⟨[], .nil, .nil⟩
    | cons hab _ ih =>
      obtain ⟨c, hac, hcb⟩ := hab
      obtain ⟨m, hl, hr⟩ := ih
      exact ⟨c :: m, .cons hac hl, .cons hcb hr⟩
  · rintro ⟨m, hl, hr⟩
    induction hl generalizing r with
    | nil =>
      cases hr
      exact .nil
    | cons hac _ ih =>
      obtain ⟨b, r', hcb, hrest, rfl⟩ := List.forall₂_cons_left_iff.mp hr
      exact .cons ⟨_, hac, hcb⟩ (ih hrest)

/-- The error of a computation that fails. -/
def failure {γ : Type*} : Except ε γ → Option ε
  | .error e => some e
  | .ok _ => none

@[simp] theorem failure_error {γ : Type*} (e : ε) : failure (.error e : Except ε γ) = some e := rfl

@[simp] theorem failure_ok {γ : Type*} (a : γ) : failure (.ok a : Except ε γ) = none := rfl

/-- A result without a failure is a success. -/
theorem failure_eq_none_iff {γ : Type*} {x : Except ε γ} : failure x = none ↔ ∃ a, x = .ok a := by
  cases x with
  | error e => simp
  | ok a => simp

/-- The failure of a result is its error. -/
theorem failure_eq_some_iff {γ : Type*} {x : Except ε γ} {e : ε} :
    failure x = some e ↔ x = .error e := by
  cases x with
  | error e' => simp
  | ok a => simp

/-- A search through lists one after the other. -/
theorem findSome?_flatMap {γ δ : Type*} (f : γ → List δ) (p : δ → Option ε) (l : List γ) :
    (l.flatMap f).findSome? p = l.findSome? fun a => (f a).findSome? p := by
  induction l with
  | nil => rfl
  | cons a l ih =>
    rw [List.flatMap_cons, List.findSome?_append, ih, List.findSome?_cons]
    cases (f a).findSome? p <;> rfl

/-- A collecting loop fails as the first round that does. -/
theorem failure_mapM (f : α → Except ε β) (l : List α) :
    failure (l.mapM f) = l.findSome? fun a => failure (f a) := by
  induction l with
  | nil => rfl
  | cons a l ih =>
    rw [List.mapM_cons, List.findSome?_cons]
    cases hf : f a with
    | error e => rfl
    | ok b =>
      rw [ok_bind, failure_ok, ← ih]
      cases l.mapM f <;> rfl

/-- A list that is related to one with a last element has a last element itself. -/
theorem forall₂_concat_left_iff {R : α → β → Prop} {l : List α} {a : α} {r : List β} :
    List.Forall₂ R (l ++ [a]) r ↔ ∃ r' b, List.Forall₂ R l r' ∧ R a b ∧ r = r' ++ [b] := by
  constructor
  · intro h
    induction l generalizing r with
    | nil =>
      obtain ⟨b, r', hab, hnil, rfl⟩ := List.forall₂_cons_left_iff.mp h
      rw [List.forall₂_nil_left_iff] at hnil
      exact ⟨[], b, .nil, hab, by rw [hnil]; rfl⟩
    | cons x l ih =>
      obtain ⟨y, r', hxy, hr', rfl⟩ := List.forall₂_cons_left_iff.mp h
      obtain ⟨r'', b, hr'', hab, rfl⟩ := ih hr'
      exact ⟨y :: r'', b, .cons hxy hr'', hab, rfl⟩
  · rintro ⟨r', b, hr', hab, rfl⟩
    exact List.rel_append hr' (.cons hab .nil)

/-- A loop of checks that all raise one error. -/
theorem forM_check {f : α → Except ε PUnit} {p : α → Prop} [DecidablePred p] {e : ε}
    (hf : ∀ a, f a = if p a then .ok () else .error e) (l : List α) :
    forM l f = if ∀ a ∈ l, p a then .ok () else .error e := by
  induction l with
  | nil => simp
  | cons a l ih =>
    rw [List.forM_cons, hf a, ih]
    by_cases ha : p a
    · rw [if_pos ha, ok_bind]
      simp [ha]
    · rw [if_neg ha, error_bind]
      simp [ha]

end ExceptLoop
