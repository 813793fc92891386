import PoprfRistretto.Transcripts

/-!
# The function the protocol computes

The purpose of the protocol in its own terms, to which the client and the server are compared below:
which requests it admits, and the pseudorandom function it evaluates on them. The function is
`x ↦ H'(x, info, t⁻¹ • H(x))` with `t = skS + m(info)`, and a request is admitted when its lengths
are within the cap, its input is hashed off the identity and its tweaked key `m·G + pkS` is not the
identity.
-/

namespace PoprfRistretto.Suite

variable {G : Type} [AddCommGroup G] [Module Scalar G] (S : Suite G)

/-- `m = HashToScalar(framedInfo)`. -/
def tweak (info : Bytes) : Scalar := S.hashToScalar [framedInfo info] HASH_TO_SCALAR_DST

/-- `tweakedKey = m·G + pkS`. -/
def tweakedKey (pk : G) (info : Bytes) : G := S.tweak info • S.basepoint + pk

/-- `HashToGroup(input)`. -/
def inputElement (input : Bytes) : G := S.hashToGroup [input] HASH_TO_GROUP_DST

/-- The requests that the protocol admits under the public key `pk`. -/
structure Admissible (pk : G) (input info : Bytes) : Prop where
  input_le : input.length ≤ MAX_LP_LEN
  info_le : info.length ≤ MAX_LP_LEN
  inputElement_ne_zero : S.inputElement input ≠ 0
  tweakedKey_ne_zero : S.tweakedKey pk info ≠ 0

/-- The output for the issued element `P`. -/
def outputOf (input info : Bytes) (P : G) : PoprfOutput :=
  S.finalizeHash input info (S.serializeElement P)

/-- The pseudorandom function under the secret key `sk`. -/
def prf (sk : Scalar) (input info : Bytes) : PoprfOutput :=
  S.outputOf input info ((sk + S.tweak info)⁻¹ • S.inputElement input)

/-- The tweaked key of `skS·G` is `t·G` for `t = skS + m`. -/
theorem tweakedKey_smul_basepoint (sk : Scalar) (info : Bytes) :
    S.tweakedKey (sk • S.basepoint) info = (sk + S.tweak info) • S.basepoint := by
  rw [tweakedKey, add_smul, add_comm]

/-- The client's identity check on the tweaked key is the server's zero check on `t`. -/
theorem tweakedKey_eq_zero_iff (sk : Scalar) (info : Bytes) :
    S.tweakedKey (sk • S.basepoint) info = 0 ↔ sk + S.tweak info = 0 := by
  rw [tweakedKey_smul_basepoint, smul_basepoint_eq_zero_iff]

/-- On an admitted request the evaluation scalar is invertible. -/
theorem Admissible.scalar_ne_zero {S : Suite G} {sk : Scalar} {input info : Bytes}
    (h : S.Admissible (sk • S.basepoint) input info) : sk + S.tweak info ≠ 0 := fun ht =>
  h.tweakedKey_ne_zero ((S.tweakedKey_eq_zero_iff sk info).mpr ht)

/-- An output is the digest of its preimage. -/
theorem outputOf_eq (input info : Bytes) (P : G) :
    S.outputOf input info P =
      ⟨S.sha512 (finalizePreimage input info (S.serializeElement P))⟩ :=
  S.finalizeHash_eq input info (S.serializeElement P)

end PoprfRistretto.Suite
