import Mathlib.Algebra.GroupWithZero.Units.Basic
import Mathlib.Data.Vector.Basic
import Mathlib.SetTheory.Cardinal.Finite

/-!
# Rejection sampling of nonzero values

Values are drawn from a tape, one after the other, and zeros are drawn again. Multiplying the accepted
values of a tape by units, and leaving its zeros where they are, is a bijection of the tapes of each
length. Every list of nonzero values is therefore drawn from equally many tapes.

* `drawMany_rescale` — the samples of a rescaled tape are the rescaled samples.
* `card_drawMany_eq` — lists of samples of one length are equally likely.
-/

namespace RejectionSampling

variable {F : Type*} [GroupWithZero F] [DecidableEq F]

/-- Draw until the value is nonzero, `fuel` times at most, and return the rest of the tape. -/
def draw : ℕ → List F → Option (Fˣ × List F)
  | 0, _ => none
  | _ + 1, [] => none
  | fuel + 1, s :: tape => if h : s = 0 then draw fuel tape else some (Units.mk0 s h, tape)

/-- Draw several nonzero values. -/
def drawMany (fuel : ℕ) : ℕ → List F → Option (List Fˣ × List F)
  | 0, tape => some ([], tape)
  | n + 1, tape => do
    let (b, tape) ← draw fuel tape
    let (bs, tape) ← drawMany fuel n tape
    return (b :: bs, tape)

/-- The first sample is drawn first, the others from what it leaves. -/
theorem drawMany_succ_eq_some_iff {fuel n : ℕ} {tape rest : List F} {b : Fˣ} {bs : List Fˣ} :
    drawMany fuel (n + 1) tape = some (b :: bs, rest) ↔
      ∃ tape', draw fuel tape = some (b, tape') ∧ drawMany fuel n tape' = some (bs, rest) := by
  constructor
  · intro h
    obtain ⟨⟨b', tape₁⟩, hb, h⟩ := Option.bind_eq_some_iff.mp h
    obtain ⟨⟨bs', tape₂⟩, hbs, h⟩ := Option.bind_eq_some_iff.mp h
    cases h
    exact ⟨tape₁, hb, hbs⟩
  · rintro ⟨tape', hb, hbs⟩
    exact Option.bind_eq_some_iff.mpr ⟨_, hb, Option.bind_eq_some_iff.mpr ⟨_, hbs, rfl⟩⟩

/-- Every list of nonzero values is drawn from some tape. -/
theorem drawMany_append {fuel : ℕ} (hfuel : 0 < fuel) (bs : List Fˣ) (rest : List F) :
    drawMany fuel bs.length (bs.map (↑) ++ rest) = some (bs, rest) := by
  obtain ⟨fuel, rfl⟩ := Nat.exists_eq_add_of_lt hfuel
  induction bs with
  | nil => rfl
  | cons b bs ih =>
    refine drawMany_succ_eq_some_iff.mpr ⟨_, ?_, ih⟩
    rw [List.map_cons, List.cons_append, Nat.zero_add, draw, dif_neg b.ne_zero, Units.mk0_val]

/-! ## Rescaling -/

/-- Multiply the first nonzero values of a tape by the units, in order. -/
def rescale : List Fˣ → List F → List F
  | _, [] => []
  | [], s :: tape => s :: tape
  | r :: rs, s :: tape => if s = 0 then s :: rescale (r :: rs) tape else r * s :: rescale rs tape

@[simp] theorem rescale_nil (tape : List F) : rescale [] tape = tape := by
  cases tape <;> rfl

@[simp] theorem length_rescale (rs : List Fˣ) (tape : List F) :
    (rescale rs tape).length = tape.length := by
  induction tape generalizing rs with
  | nil => cases rs <;> rfl
  | cons s tape ih =>
    cases rs with
    | nil => rfl
    | cons r rs =>
      rw [rescale]
      split
      · rw [List.length_cons, ih, List.length_cons]
      · rw [List.length_cons, ih, List.length_cons]

omit [DecidableEq F] in
theorem units_mul_ne_zero (r : Fˣ) {s : F} (hs : s ≠ 0) : (r : F) * s ≠ 0 := fun h =>
  hs ((Units.mul_right_eq_zero r).mp h)

/-- A tape that is rescaled by the inverses is the tape again. -/
theorem rescale_inv_rescale (rs : List Fˣ) (tape : List F) :
    rescale (rs.map (·⁻¹)) (rescale rs tape) = tape := by
  induction tape generalizing rs with
  | nil => cases rs <;> rfl
  | cons s tape ih =>
    cases rs with
    | nil => rfl
    | cons r rs =>
      rw [rescale, List.map_cons]
      split
      · rename_i hs
        rw [rescale, if_pos hs, ← List.map_cons, ih]
      · rename_i hs
        rw [rescale, if_neg (units_mul_ne_zero r hs), ih, Units.inv_mul_cancel_left]

/-- Rescaling by the inverses is undone. -/
theorem rescale_rescale_inv (rs : List Fˣ) (tape : List F) :
    rescale rs (rescale (rs.map (·⁻¹)) tape) = tape := by
  have hback := rescale_inv_rescale (rs.map (·⁻¹)) tape
  rwa [List.map_map, show ((·⁻¹) ∘ (·⁻¹) : Fˣ → Fˣ) = id from funext inv_inv, List.map_id] at hback

/-- Rescaling the tapes of one length. -/
def rescaleEquiv (rs : List Fˣ) (n : ℕ) : List.Vector F n ≃ List.Vector F n where
  toFun tape := ⟨rescale rs tape.toList, by rw [length_rescale, List.Vector.toList_length]⟩
  invFun tape :=
    ⟨rescale (rs.map (·⁻¹)) tape.toList, by rw [length_rescale, List.Vector.toList_length]⟩
  left_inv tape := List.Vector.eq _ _ (rescale_inv_rescale rs tape.toList)
  right_inv tape := List.Vector.eq _ _ (rescale_rescale_inv rs tape.toList)

/-! ## Samples of a rescaled tape -/

/-- The first sample is rescaled by the first unit. -/
theorem draw_rescale {fuel : ℕ} {r : Fˣ} {rs : List Fˣ} {tape rest : List F} {b : Fˣ}
    (h : draw fuel tape = some (b, rest)) :
    draw fuel (rescale (r :: rs) tape) = some (r * b, rescale rs rest) := by
  induction fuel generalizing tape with
  | zero => cases h
  | succ fuel ih =>
    cases tape with
    | nil => cases h
    | cons s tape =>
      rw [draw] at h
      rw [rescale]
      split at h
      · rename_i hs
        rw [if_pos hs, draw, dif_pos hs]
        exact ih h
      · rename_i hs
        cases h
        rw [if_neg hs, draw, dif_neg (units_mul_ne_zero r hs)]
        exact congrArg some (Prod.ext (Units.ext rfl) rfl)

/-- The samples are rescaled each by its unit, and the rest of the tape is the same. -/
theorem drawMany_rescale {fuel : ℕ} {rs bs : List Fˣ} {tape rest : List F}
    (hlen : rs.length = bs.length) (h : drawMany fuel bs.length tape = some (bs, rest)) :
    drawMany fuel bs.length (rescale rs tape) = some (List.zipWith (· * ·) rs bs, rest) := by
  induction bs generalizing rs tape with
  | nil =>
    obtain rfl := List.length_eq_zero_iff.mp hlen
    rw [rescale_nil]
    exact h
  | cons b bs ih =>
    cases rs with
    | nil => cases hlen
    | cons r rs =>
      obtain ⟨tape', hb, hbs⟩ := drawMany_succ_eq_some_iff.mp h
      exact drawMany_succ_eq_some_iff.mpr ⟨_, draw_rescale hb, ih (Nat.succ.inj hlen) hbs⟩

/-- The factors that carry the list `bs` to the list `cs`. -/
def ratios (bs cs : List Fˣ) : List Fˣ := List.zipWith (fun b c => c * b⁻¹) bs cs

omit [DecidableEq F] in
/-- The ratios carry one list of samples to the other. -/
theorem zipWith_ratios {bs cs : List Fˣ} (hlen : bs.length = cs.length) :
    List.zipWith (· * ·) (ratios bs cs) bs = cs := by
  induction bs generalizing cs with
  | nil => exact (List.length_eq_zero_iff.mp hlen.symm).symm
  | cons b bs ih =>
    cases cs with
    | nil => cases hlen
    | cons c cs =>
      rw [ratios, List.zipWith_cons_cons, List.zipWith_cons_cons, ← ratios, ih (Nat.succ.inj hlen),
        inv_mul_cancel_right]

omit [DecidableEq F] in
/-- The other way they are the inverses. -/
theorem map_inv_ratios (bs cs : List Fˣ) : (ratios bs cs).map (·⁻¹) = ratios cs bs := by
  rw [ratios, ratios, List.map_zipWith, List.zipWith_comm]
  simp only [mul_inv_rev, inv_inv]

/-- A tape that yields one list of samples is rescaled to a tape that yields another. -/
theorem drawMany_ratios {fuel : ℕ} {bs cs : List Fˣ} (hlen : bs.length = cs.length)
    {tape rest : List F} (h : drawMany fuel bs.length tape = some (bs, rest)) :
    drawMany fuel cs.length (rescale (ratios bs cs) tape) = some (cs, rest) := by
  have hratios : (ratios bs cs).length = bs.length := by
    rw [ratios, List.length_zipWith, ← hlen, min_self]
  have hrescale := drawMany_rescale hratios h
  rwa [zipWith_ratios hlen, hlen] at hrescale

/-- Lists of samples of one length are drawn from equally many tapes, with each rest. -/
theorem card_drawMany_eq (fuel n : ℕ) {bs cs : List Fˣ} (hlen : bs.length = cs.length)
    (rest : List F) :
    Nat.card {tape : List.Vector F n // drawMany fuel bs.length tape.toList = some (bs, rest)} =
      Nat.card {tape : List.Vector F n // drawMany fuel cs.length tape.toList = some (cs, rest)} := by
  refine Nat.card_congr ((rescaleEquiv (ratios bs cs) n).subtypeEquiv fun tape =>
    ⟨drawMany_ratios hlen, fun h => ?_⟩)
  have hback := drawMany_ratios hlen.symm h
  have htape : rescale (ratios cs bs) (rescale (ratios bs cs) tape.toList) = tape.toList := by
    rw [← map_inv_ratios bs cs, rescale_inv_rescale]
  rw [← htape]
  exact hback

end RejectionSampling
