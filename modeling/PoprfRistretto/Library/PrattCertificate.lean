import Mathlib.NumberTheory.LucasPrimality

/-!
# Pratt certificates evaluated by the kernel

Lucas's criterion (`lucas_primality`) reduces the primality of `p` to finitely many powers modulo
`p`. `powMod` computes such a power by repeated squaring, so that the kernel can evaluate it on
numbers of a few hundred bits, and `prime_of_check` turns the outcome into a primality proof.
-/

namespace PrattCertificate

/-- `a ^ e % p` by repeated squaring over `fuel` bits of the exponent. -/
def powMod (p a : ℕ) : ℕ → ℕ → ℕ
  | 0, _ => 1 % p
  | fuel + 1, e =>
    let r := powMod p a fuel (e / 2)
    if e % 2 = 0 then r * r % p else r * r % p * a % p

/-- Repeated squaring computes the power once the fuel covers the exponent's bits. -/
theorem powMod_eq (p a : ℕ) (fuel e : ℕ) (he : e < 2 ^ fuel) :
    powMod p a fuel e = a ^ e % p := by
  induction fuel generalizing e with
  | zero =>
    obtain rfl : e = 0 := by simpa using he
    simp [powMod]
  | succ fuel ih =>
    have hhalf : e / 2 < 2 ^ fuel := by rw [pow_succ] at he; omega
    have hsq : a ^ (e / 2) % p * (a ^ (e / 2) % p) % p = a ^ (2 * (e / 2)) % p := by
      rw [← Nat.mul_mod, ← pow_add, two_mul]
    simp only [powMod, ih (e / 2) hhalf, hsq]
    split
    · rw [show 2 * (e / 2) = e by omega]
    · rw [Nat.mod_mul_mod, ← pow_succ, show 2 * (e / 2) + 1 = e by omega]

/-- Lucas's conditions for the base `a`, with `qs` the prime factors of `p - 1`, repeated ones
repeated. -/
def check (p a : ℕ) (qs : List ℕ) : Bool :=
  1 < p && qs.prod == p - 1 && powMod p a (p.log2 + 1) (p - 1) == 1 &&
    qs.all fun q => powMod p a (p.log2 + 1) ((p - 1) / q) != 1

/-- A power in `ZMod p` is one exactly when its residue is. -/
theorem pow_eq_one_iff {p : ℕ} (hp : 1 < p) (a e : ℕ) :
    (a : ZMod p) ^ e = 1 ↔ a ^ e % p = 1 := by
  rw [← Nat.cast_pow, ← Nat.cast_one, ZMod.natCast_eq_natCast_iff, Nat.ModEq, Nat.mod_eq_of_lt hp]

/-- A number that passes `check` against a list of primes is prime. -/
theorem prime_of_check {p : ℕ} (a : ℕ) (qs : List ℕ) (hqs : ∀ q ∈ qs, q.Prime)
    (h : check p a qs = true) : p.Prime := by
  simp only [check, Bool.and_eq_true, decide_eq_true_eq, beq_iff_eq, List.all_eq_true,
    bne_iff_ne, ne_eq] at h
  obtain ⟨⟨⟨hp, hprod⟩, hfull⟩, hpart⟩ := h
  have hfits : ∀ e, e ≤ p - 1 → e < 2 ^ (p.log2 + 1) := fun e he =>
    lt_of_le_of_lt he (lt_of_le_of_lt (Nat.sub_le p 1) Nat.lt_log2_self)
  refine lucas_primality p (a : ZMod p) ?_ ?_
  · rw [pow_eq_one_iff hp, ← powMod_eq p a _ _ (hfits _ le_rfl)]
    exact hfull
  · intro q hq hdvd
    rw [← hprod] at hdvd
    obtain ⟨q', hmem, hdvd'⟩ := (Prime.dvd_prod_iff hq.prime).mp hdvd
    obtain rfl : q = q' := (Nat.prime_dvd_prime_iff_eq hq (hqs q' hmem)).mp hdvd'
    rw [ne_eq, pow_eq_one_iff hp, ← powMod_eq p a _ _ (hfits _ (Nat.div_le_self _ _))]
    exact hpart q hmem

/-- Certificates in order: the factors of each were known or have been certified before it. -/
def checkChain (known : List ℕ) : List (ℕ × ℕ × List ℕ) → Bool
  | [] => true
  | (p, a, qs) :: rest =>
    qs.all (fun q => known.contains q) && check p a qs && checkChain (p :: known) rest

/-- A chain of certificates over known primes certifies primes. -/
theorem prime_of_checkChain {known : List ℕ} {chain : List (ℕ × ℕ × List ℕ)}
    (hknown : ∀ q ∈ known, q.Prime) (h : checkChain known chain = true) :
    ∀ c ∈ chain, c.1.Prime := by
  induction chain generalizing known with
  | nil => exact fun c hc => absurd hc List.not_mem_nil
  | cons c chain ih =>
    obtain ⟨p, a, qs⟩ := c
    rw [checkChain, Bool.and_eq_true, Bool.and_eq_true, List.all_eq_true] at h
    obtain ⟨⟨hqs, hcheck⟩, hrest⟩ := h
    have hp : p.Prime :=
      prime_of_check a qs (fun q hq => hknown q (List.contains_iff_mem.mp (hqs q hq))) hcheck
    rw [List.forall_mem_cons]
    exact ⟨hp, ih (List.forall_mem_cons.mpr ⟨hp, hknown⟩) hrest⟩

end PrattCertificate
