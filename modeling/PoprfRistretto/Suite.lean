import Mathlib.Data.Vector.Basic
import Mathlib.Algebra.BigOperators.Group.List.Basic
import Mathlib.Algebra.Module.Basic
import PoprfRistretto.GroupOrder
import PoprfRistretto.Library.LittleEndian

/-!
# The dependencies of the crate

The crate computes in the ristretto255 group of `curve25519_dalek`, hashes with `sha2` and expands
messages with `elliptic_curve::hash2curve`. A `Suite` is what it takes from them: their operations,
each with the documented behaviour that the crate relies on. Nothing is assumed of the hash
functions beyond the way they absorb their input.
-/

namespace PoprfRistretto

/-- A byte slice `&[u8]` or `Vec<u8>`. -/
abbrev Bytes := List UInt8

/-- A byte array `[u8; N]`. -/
abbrev BytesN (n : ℕ) := List.Vector UInt8 n

/-- The ristretto255 operations of `curve25519_dalek`, over a group `G` that is a vector space over
the scalar field, so of exponent `ℓ`. -/
structure Dalek (G : Type) [AddCommGroup G] [Module Scalar G] where
  /-- `RISTRETTO_BASEPOINT_POINT`. -/
  basepoint : G
  basepoint_ne_zero : basepoint ≠ 0
  /-- The group is generated by the basepoint, so of order `ℓ`. -/
  basepoint_generates : ∀ P : G, ∃ k : Scalar, k • basepoint = P
  /-- `RistrettoPoint::compress`, then `CompressedRistretto::to_bytes`. -/
  compress : G → BytesN 32
  /-- `CompressedRistretto::decompress`. -/
  decompress : BytesN 32 → Option G
  /-- Each point has exactly one encoding that decompresses, its compression. -/
  decompress_eq_some_iff : ∀ b P, decompress b = some P ↔ compress P = b
  /-- `RistrettoPoint::from_uniform_bytes`. -/
  fromUniformBytes : BytesN 64 → G
  /-- `RistrettoPoint::vartime_multiscalar_mul`. -/
  vartimeMultiscalarMul : List Scalar → List G → G
  vartimeMultiscalarMul_eq_sum : ∀ ss Ps, ss.length = Ps.length →
    vartimeMultiscalarMul ss Ps = (List.zipWith (· • ·) ss Ps).sum
  /-- `RistrettoBasepointTable`. -/
  BasepointTable : Type
  /-- `RistrettoBasepointTable::create`. -/
  createTable : G → BasepointTable
  /-- `scalar * table`. -/
  mulTable : Scalar → BasepointTable → G
  mulTable_createTable : ∀ s P, mulTable s (createTable P) = s • P
  /-- `Scalar::to_bytes`. -/
  scalarToBytes : Scalar → BytesN 32
  scalarToBytes_littleEndian : ∀ s, LittleEndian.ofLe (scalarToBytes s).toList = s.val
  /-- `Scalar::from_canonical_bytes`. -/
  fromCanonicalBytes : BytesN 32 → Option Scalar
  /-- The canonical encodings are the bytes of the scalars. -/
  fromCanonicalBytes_eq_some_iff : ∀ b s, fromCanonicalBytes b = some s ↔ scalarToBytes s = b
  /-- `Scalar::from_bytes_mod_order_wide`. -/
  fromBytesModOrderWide : BytesN 64 → Scalar
  /-- `Scalar::invert`, whose documentation promises nothing at zero. -/
  invert : Scalar → Scalar
  invert_mul_cancel : ∀ s, s ≠ 0 → invert s * s = 1

/-- The SHA-512 hasher of `sha2`. -/
structure Sha2 where
  /-- `Sha512`, the state of a running hash. -/
  Sha512 : Type
  /-- `Sha512::default`. -/
  default : Sha512
  /-- `Update::chain`, and `Update::update`. -/
  chain : Sha512 → Bytes → Sha512
  chain_chain : ∀ h a b, chain (chain h a) b = chain h (a ++ b)
  /-- `FixedOutput::finalize_fixed`. -/
  finalizeFixed : Sha512 → BytesN 64

/-- `ExpandMsgXmd<Sha512>` of `elliptic_curve::hash2curve`, asked for 64 bytes. -/
structure HashToCurve where
  /-- `expand_message(inputs, &[dst], 64)`, then `fill_bytes`. -/
  expandMessage : List Bytes → Bytes → BytesN 64
  /-- The message is the concatenation of the input slices. -/
  expandMessage_flatten : ∀ inputs dst,
    expandMessage inputs dst = expandMessage [inputs.flatten] dst

/-- What the crate takes from its dependencies. -/
structure Suite (G : Type) [AddCommGroup G] [Module Scalar G] extends
  Dalek G, Sha2, HashToCurve

/-- A generator `R: RngCore + CryptoRng`, by what `Scalar::random` draws from it. -/
class Rng (R : Type) where
  /-- `Scalar::random`: the scalar drawn and the generator after the draw. -/
  scalarRandom : R → Scalar × R

/-- The cargo features that select between two bodies of one function. -/
structure Features where
  /-- `fast-dleq`. -/
  fastDleq : Bool
  /-- `precomputed-tables`. -/
  precomputedTables : Bool

end PoprfRistretto
