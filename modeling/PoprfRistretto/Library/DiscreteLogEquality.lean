import Mathlib.Algebra.Field.Basic
import Mathlib.Algebra.Module.Basic
import Mathlib.Algebra.BigOperators.Group.List.Basic
import Mathlib.Data.Fintype.Basic
import Mathlib.Tactic.Abel
import Mathlib.Tactic.Module
import Mathlib.Tactic.Ring

/-!
# Batched equality of discrete logarithms

Algebra of the Chaum–Pedersen protocol over a vector space `G` on a field `F`. A batch of claims
`D i = k • C i` is folded into the single claim `Z = k • M` by weighted sums, and the single claim is
proved by a challenge `c` and a response `s` that recompute two commitments.

* `weightedSum_set_eq_zero_iff` — with the other weights fixed, one value of a weight folds a false
  batch into a true claim.
* `commitments_honest` — the honest response recomputes the commitments of the nonce.
* `challenge_unique` — the commitments of a false claim can be met at one challenge only.
* `response_unique` — at one challenge a commitment has one response.
* `map_univ_honest_eq_simulated` — the conversations of a true claim can be produced without its
  discrete logarithm.
* `extract_eq` — two responses that share their nonce tell the key when their challenges differ;
  `IsOf.exists_nonce` — and nothing about it when the challenges are equal.
-/

namespace DiscreteLogEquality

variable {F G : Type*} [Field F] [AddCommGroup G] [Module F G]

/-! ## Weighted sums -/

/-- The sum of `w i • P i` over the indices that both lists have. -/
def weightedSum (ws : List F) (Ps : List G) : G := (List.zipWith (· • ·) ws Ps).sum

@[simp] theorem weightedSum_nil_left (Ps : List G) : weightedSum ([] : List F) Ps = 0 := by
  simp [weightedSum]

@[simp] theorem weightedSum_nil_right (ws : List F) : weightedSum ws ([] : List G) = 0 := by
  simp [weightedSum]

@[simp] theorem weightedSum_cons (w : F) (ws : List F) (P : G) (Ps : List G) :
    weightedSum (w :: ws) (P :: Ps) = w • P + weightedSum ws Ps := by
  simp [weightedSum]

/-- A weighted sum over one indexing list is the sum of the terms. -/
theorem weightedSum_map_map {α : Type*} (w : α → F) (P : α → G) (l : List α) :
    weightedSum (l.map w) (l.map P) = (l.map fun a => w a • P a).sum := by
  induction l with
  | nil => simp
  | cons a l ih => simp [ih]

/-- A multiple of a weighted sum is the sum of the multiples. -/
theorem smul_weightedSum (k : F) (ws : List F) (Ps : List G) :
    k • weightedSum ws Ps = weightedSum ws (Ps.map (k • ·)) := by
  induction ws generalizing Ps with
  | nil => simp
  | cons w ws ih =>
    cases Ps with
    | nil => simp
    | cons P Ps => rw [weightedSum_cons, List.map_cons, weightedSum_cons, smul_add, ih, smul_comm]

/-- How far each pair of a batch is from satisfying `D = k • C`. -/
def deviations (k : F) (Cs Ds : List G) : List G := List.zipWith (fun C D => D - k • C) Cs Ds

/-- There is a deviation for every pair. -/
@[simp] theorem length_deviations (k : F) (Cs Ds : List G) :
    (deviations k Cs Ds).length = min Cs.length Ds.length := by
  simp [deviations]

theorem getElem_deviations (k : F) (Cs Ds : List G) (j : ℕ) (hC : j < Cs.length)
    (hD : j < Ds.length) (h : j < (deviations k Cs Ds).length) :
    (deviations k Cs Ds)[j] = Ds[j] - k • Cs[j] := by
  simp [deviations]

/-- The folded claim deviates by the weighted sum of the batch's deviations. -/
theorem weightedSum_deviations (k : F) (ws : List F) {Cs Ds : List G}
    (hlen : Cs.length = Ds.length) :
    weightedSum ws (deviations k Cs Ds) = weightedSum ws Ds - k • weightedSum ws Cs := by
  induction ws generalizing Cs Ds with
  | nil => simp
  | cons w ws ih =>
    rcases Cs with _ | ⟨C, Cs⟩ <;> rcases Ds with _ | ⟨D, Ds⟩
    · simp [deviations]
    · simp at hlen
    · simp at hlen
    · have htail : Cs.length = Ds.length := by simpa using hlen
      have hcons : deviations k (C :: Cs) (D :: Ds) = (D - k • C) :: deviations k Cs Ds := rfl
      rw [hcons, weightedSum_cons, weightedSum_cons, weightedSum_cons, ih htail]
      module

/-- Replacing one weight moves the sum along the point it multiplies. -/
theorem weightedSum_set (ws : List F) (Ps : List G) (j : ℕ) (hw : j < ws.length)
    (hP : j < Ps.length) (x : F) :
    weightedSum (ws.set j x) Ps = weightedSum ws Ps + (x - ws[j]) • Ps[j] := by
  induction ws generalizing Ps j with
  | nil => simp at hw
  | cons w ws ih =>
    rcases Ps with _ | ⟨P, Ps⟩
    · simp at hP
    · rcases j with _ | j
      · rw [List.set_cons_zero, weightedSum_cons, weightedSum_cons, List.getElem_cons_zero,
          List.getElem_cons_zero]
        module
      · rw [List.set_cons_succ, weightedSum_cons, weightedSum_cons, List.getElem_cons_succ,
          List.getElem_cons_succ, ih Ps j (by simpa using hw) (by simpa using hP)]
        abel

/-- If a weighted sum vanishes, the weight of a nonzero point is determined by the others. -/
theorem weightedSum_set_eq_zero_iff {ws : List F} {Ps : List G} {j : ℕ} (hw : j < ws.length)
    (hP : j < Ps.length) (hne : Ps[j] ≠ 0) (hsum : weightedSum ws Ps = 0) (x : F) :
    weightedSum (ws.set j x) Ps = 0 ↔ x = ws[j] := by
  rw [weightedSum_set ws Ps j hw hP x, hsum, zero_add, smul_eq_zero, or_iff_left hne, sub_eq_zero]

/-! ## The Chaum–Pedersen equations -/

/-- The two commitments that a verifier recomputes from a challenge and a response. -/
def commitments (A B M Z : G) (c s : F) : G × G := (s • A + c • B, s • M + c • Z)

/-- The honest response to a true claim recomputes the commitments of the nonce. -/
theorem commitments_honest {A B M Z : G} {k : F} (hB : B = k • A) (hZ : Z = k • M) (c r : F) :
    commitments A B M Z c (r - c * k) = (r • A, r • M) := by
  subst hB hZ
  rw [commitments, Prod.mk.injEq]
  constructor <;> module

/-- The commitments of a false claim are met at one challenge only. -/
theorem challenge_unique {A B M Z : G} {k c s c' s' : F} (hA : A ≠ 0) (hB : B = k • A)
    (hZ : Z ≠ k • M) (h : commitments A B M Z c s = commitments A B M Z c' s') : c = c' := by
  subst hB
  obtain ⟨h2, h3⟩ := Prod.mk.inj h
  -- the first equation ties the two responses to the two challenges
  have hs : s - s' = (c' - c) * k := by
    have hsmul : (s - s' - (c' - c) * k) • A = 0 := by
      calc (s - s' - (c' - c) * k) • A = (s • A + c • k • A) - (s' • A + c' • k • A) := by module
        _ = 0 := by rw [h2, sub_self]
    exact sub_eq_zero.mp ((smul_eq_zero.mp hsmul).resolve_right hA)
  -- the second then scales the deviation of the claim by the difference of the challenges
  have hdev : (c - c') • (Z - k • M) = 0 := by
    calc (c - c') • (Z - k • M)
        = (s • M + c • Z) - (s' • M + c' • Z) - (s - s' - (c' - c) * k) • M := by module
      _ = 0 := by rw [h3, hs, sub_self, sub_self, zero_smul, sub_zero]
  exact sub_eq_zero.mp ((smul_eq_zero.mp hdev).resolve_right (sub_ne_zero.mpr hZ))

/-- At one challenge a commitment has one response. -/
theorem response_unique {A B M Z : G} {c s s' : F} (hA : A ≠ 0)
    (h : (commitments A B M Z c s).1 = (commitments A B M Z c s').1) : s = s' := by
  have hsmul : s • A = s' • A := add_right_cancel h
  exact smul_left_injective F hA hsmul

/-! ## Zero knowledge -/

/-- The commitments and the response of a prover that knows `k` and drew the nonce `r`. -/
def honest (A M : G) (k c r : F) : (G × G) × F := ((r • A, r • M), r - c * k)

/-- The commitments and the response of a simulator that draws the response first. -/
def simulated (A B M Z : G) (c s : F) : (G × G) × F := (commitments A B M Z c s, s)

/-- The response as a change of variables of the nonce. -/
def responseEquiv (c k : F) : F ≃ F := Equiv.subRight (c * k)

/-- A prover of a true claim says what the simulator says for its response. -/
theorem honest_eq_simulated {A B M Z : G} {k : F} (hB : B = k • A) (hZ : Z = k • M) (c r : F) :
    honest A M k c r = simulated A B M Z c (responseEquiv c k r) :=
  Prod.ext (commitments_honest hB hZ c r).symm rfl

/-- At each challenge the prover's conversations over all nonces are the simulator's over all
responses, each as often. -/
theorem map_univ_honest_eq_simulated [Fintype F] {A B M Z : G} {k : F} (hB : B = k • A)
    (hZ : Z = k • M) (c : F) :
    Finset.univ.val.map (honest A M k c) = Finset.univ.val.map (simulated A B M Z c) := by
  have hcomp : honest A M k c = simulated A B M Z c ∘ responseEquiv c k :=
    funext (honest_eq_simulated hB hZ c)
  rw [hcomp, ← Multiset.map_map, Multiset.map_univ_val_equiv]

/-! ## One nonce for two responses -/

/-- A response to the challenge `c` for a key that is shifted by a public `tweak`. -/
structure Response (F : Type*) where
  tweak : F
  c : F
  s : F

/-- The response that the nonce `r` gives for the key `k`. -/
def Response.IsOf (p : Response F) (k r : F) : Prop := p.s = r - p.c * (k + p.tweak)

/-- The key that two responses tell if they share their nonce. -/
def extract (p p' : Response F) : F :=
  (p.s - p'.s - (p'.c * p'.tweak - p.c * p.tweak)) / (p'.c - p.c)

/-- Two responses that share their nonce tell the key when their challenges differ. -/
theorem extract_eq {p p' : Response F} {k r : F} (h : p.IsOf k r) (h' : p'.IsOf k r)
    (hne : p.c ≠ p'.c) : extract p p' = k := by
  have hdiff : p'.c - p.c ≠ 0 := sub_ne_zero.mpr hne.symm
  -- the nonce cancels, and so do the tweaks
  have hs : p.s - p'.s - (p'.c * p'.tweak - p.c * p.tweak) = k * (p'.c - p.c) := by
    rw [h, h']
    ring
  rw [extract, hs, mul_div_cancel_right₀ k hdiff]

/-- At one challenge two responses that share their nonce do so for every key. -/
theorem Response.IsOf.exists_nonce {p p' : Response F} {k r : F} (h : p.IsOf k r) (h' : p'.IsOf k r)
    (hc : p.c = p'.c) (k' : F) : ∃ r', p.IsOf k' r' ∧ p'.IsOf k' r' := by
  refine ⟨r + p.c * (k' - k), ?_, ?_⟩
  · show p.s = _
    rw [h]
    ring
  · show p'.s = _
    rw [h', hc]
    ring

end DiscreteLogEquality
