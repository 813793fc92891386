import Mathlib.Algebra.Field.ZMod
import Mathlib.Tactic.NormNum.Prime
import PoprfRistretto.Library.PrattCertificate

/-!
# The scalar field of ristretto255

`curve25519_dalek::Scalar` is an integer modulo the prime order `ℓ` of the ristretto255 group.
The certificate below follows the factorisation of `ℓ - 1` down to primes of a few digits.
-/

namespace PoprfRistretto

/-- The order `ℓ` of the ristretto255 group, `constants::BASEPOINT_ORDER` of `curve25519_dalek`. -/
def ORDER : ℕ := 2 ^ 252 + 27742317777372353535851937790883648493

/-- `curve25519_dalek::scalar::Scalar`: an integer modulo `ℓ`. -/
abbrev Scalar := ZMod ORDER

namespace OrderCertificate

/-- The primes of a few digits that the certificates use. -/
def smallPrimes : List ℕ :=
  [2, 3, 5, 7, 11, 23, 41, 43, 73, 269, 307, 1361, 2851, 5879, 30703, 82163, 132667, 137849, 531581,
    1224481, 14741173]

/-- The certificates, with a base and the factors of `p - 1` for each prime `p`. -/
def chain : List (ℕ × ℕ × List ℕ) :=
  [(58964693, 2, [2, 2, 14741173]),
    (3044861653679985063343, 5, [2, 3, 11, 30703, 82163, 132667, 137849]),
    (198211423230930754013084525763697, 5, [2, 2, 2, 2, 3, 23, 58964693, 3044861653679985063343]),
    (292386187, 2, [2, 3, 3, 3, 3, 307, 5879]),
    (213441916511, 13, [2, 5, 73, 292386187]),
    (1257559732178653, 2, [2, 2, 3, 7, 23, 531581, 1224481]),
    (4434155615661930479, 17, [2, 41, 43, 1257559732178653]),
    (172054593956031949258510691, 2, [2, 5, 1361, 2851, 4434155615661930479]),
    (19757330305831588566944191468367130476339, 2,
      [2, 269, 213441916511, 172054593956031949258510691]),
    (276602624281642239937218680557139826668747, 2,
      [2, 7, 19757330305831588566944191468367130476339]),
    (ORDER, 2,
      [2, 2, 3, 11, 198211423230930754013084525763697,
        276602624281642239937218680557139826668747])]

/-- The primes that the certificate takes for granted. -/
theorem prime_of_mem_smallPrimes : ∀ q ∈ smallPrimes, q.Prime := by
  norm_num [smallPrimes]

end OrderCertificate

open OrderCertificate in
/-- `ℓ` is prime. -/
theorem prime_order : ORDER.Prime := by
  have hchain : PrattCertificate.checkChain smallPrimes chain = true := by decide +kernel
  have hmem : chain.getLast (by simp [chain]) ∈ chain := List.getLast_mem _
  exact PrattCertificate.prime_of_checkChain prime_of_mem_smallPrimes hchain _ hmem

/-- The scalars are a field. -/
instance : Fact ORDER.Prime := ⟨prime_order⟩

end PoprfRistretto
