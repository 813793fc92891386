import Mathlib.Algebra.Module.Torsion.Field
import Mathlib.Algebra.Group.Units.Equiv
import Mathlib.Logic.Equiv.Basic

/-!
# Blinding in a group of prime order

A group of prime order is a one-dimensional vector space over its scalar field: every point is a
multiple of one generator. Multiplying a point by a nonzero scalar hides it perfectly, because every
nonzero point is reached from every other by exactly one nonzero scalar.

* `unblind_smul` — dividing by the blind undoes the blinding around another multiplication.
* `exists_ratio` — two nonzero points differ by one nonzero factor.
* `exists_blindEquiv` — the change of blinds that carries one family of points to another.
-/

namespace Blinding

variable {F G : Type*} [Field F] [AddCommGroup G] [Module F G]

/-- Dividing by the blind undoes the blinding around a multiplication by `t`. -/
theorem unblind_smul {b : F} (hb : b ≠ 0) (t : F) (P : G) : b⁻¹ • t • b • P = t • P := by
  rw [smul_comm t b P, inv_smul_smul₀ hb]

/-- Division of one nonzero point by different scalars gives different points. -/
theorem inv_smul_injective {s t : F} {P : G} (hP : P ≠ 0) (h : s⁻¹ • P = t⁻¹ • P) : s = t :=
  inv_injective (smul_left_injective F hP h)

/-- Two points agree after divisions when they agree after multiplications, crosswise. -/
theorem inv_smul_eq_inv_smul_iff {s t : F} (hs : s ≠ 0) (ht : t ≠ 0) {P Q : G} :
    s⁻¹ • P = t⁻¹ • Q ↔ s • Q = t • P := by
  rw [inv_smul_eq_iff₀ hs, smul_comm s, eq_inv_smul_iff₀ ht, eq_comm]

/-- In a cyclic group, a nonzero point is a nonzero multiple of any nonzero point. -/
theorem exists_ratio {g : G} (hgen : ∀ P : G, ∃ k : F, k • g = P) {P Q : G} (hP : P ≠ 0)
    (hQ : Q ≠ 0) : ∃ r : Fˣ, P = (r : F) • Q := by
  obtain ⟨p, rfl⟩ := hgen P
  obtain ⟨q, rfl⟩ := hgen Q
  have hp : p ≠ 0 := fun h => hP (by rw [h, zero_smul])
  have hq : q ≠ 0 := fun h => hQ (by rw [h, zero_smul])
  refine ⟨Units.mk0 (p * q⁻¹) (mul_ne_zero hp (inv_ne_zero hq)), ?_⟩
  rw [Units.val_mk0, smul_smul, inv_mul_cancel_right₀ hq]

/-- Blinding hides a family of nonzero points: for each family of blinds of the points `P` there is
exactly one family of blinds of the points `Q` with the same blinded points, and each is met once. -/
theorem exists_blindEquiv {ι : Type*} {g : G} (hgen : ∀ P : G, ∃ k : F, k • g = P) {P Q : ι → G}
    (hP : ∀ i, P i ≠ 0) (hQ : ∀ i, Q i ≠ 0) :
    ∃ φ : (ι → Fˣ) ≃ (ι → Fˣ), ∀ b c,
      (∀ i, (b i : F) • P i = (c i : F) • Q i) ↔ c = φ b := by
  choose r hr using fun i => exists_ratio hgen (hP i) (hQ i)
  refine ⟨Equiv.piCongrRight fun i => Equiv.mulRight (r i), fun b c => ?_⟩
  rw [funext_iff]
  refine forall_congr' fun i => ?_
  have hprod : (b i : F) • P i = ((b i * r i : Fˣ) : F) • Q i := by
    rw [Units.val_mul, mul_smul, ← hr i]
  rw [hprod, Equiv.piCongrRight_apply, Pi.map_apply, Equiv.coe_mulRight]
  constructor
  · intro h
    exact (Units.ext (smul_left_injective F (hQ i) h)).symm
  · intro h
    rw [h]

end Blinding
