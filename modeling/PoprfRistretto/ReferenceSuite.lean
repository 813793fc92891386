import Mathlib.Algebra.Module.Basic
import PoprfRistretto.Group

/-!
# An executable suite

A suite that Lean can run. The group is the scalar field with generator `1`, points and scalars are
encoded as 32 little-endian bytes, and the hash functions keep the first 64 bytes of what they absorb.
It has every documented property of the dependencies and none of their security, so that the
functions of the crate can be evaluated on it.
-/

namespace PoprfRistretto

namespace ReferenceSuite

open LittleEndian

/-- The 32 little-endian bytes of a scalar. -/
def encode (s : Scalar) : BytesN 32 := ⟨toLe 32 s.val, length_toLe 32 s.val⟩

/-- The scalar whose canonical encoding is `b`. -/
def decode (b : BytesN 32) : Option Scalar :=
  if ofLe b.toList < ORDER then some (ofLe b.toList : Scalar) else none

/-- The first 64 bytes of a string, with zeros where it is shorter. -/
def digest (buf : Bytes) : BytesN 64 :=
  ⟨(buf ++ List.replicate 64 0).take 64, by simp⟩

/-- The residue of 64 little-endian bytes. -/
def reduceWide (b : BytesN 64) : Scalar := (ofLe b.toList : Scalar)

/-- The bytes of a scalar are its value. -/
theorem ofLe_encode (s : Scalar) : ofLe (encode s).toList = s.val := by
  have hfits : s.val < 256 ^ 32 := lt_trans (ZMod.val_lt s) (by norm_num [ORDER])
  show ofLe (toLe 32 s.val) = s.val
  rw [ofLe_toLe, Nat.mod_eq_of_lt hfits]

/-- The digest ignores what follows the first 64 bytes. -/
theorem digest_append {buf : Bytes} (h : 64 ≤ buf.length) (rest : Bytes) :
    digest (buf ++ rest) = digest buf := by
  refine List.Vector.eq _ _ ?_
  show (buf ++ rest ++ List.replicate 64 0).take 64 = (buf ++ List.replicate 64 0).take 64
  rw [List.append_assoc, List.take_append_of_le_length h, List.take_append_of_le_length h]

/-- The canonical strings are the encodings. -/
theorem decode_eq_some_iff (b : BytesN 32) (s : Scalar) : decode b = some s ↔ encode s = b := by
  unfold decode
  constructor
  · intro h
    split at h
    · rename_i hlt
      obtain rfl := Option.some.inj h
      refine List.Vector.eq _ _ (ofLe_injective_of_length ?_ ?_)
      · rw [List.Vector.toList_length, List.Vector.toList_length]
      · rw [ofLe_encode, ZMod.val_natCast_of_lt hlt]
    · cases h
  · rintro rfl
    rw [ofLe_encode, if_pos (ZMod.val_lt s), ZMod.natCast_zmod_val]

end ReferenceSuite

open ReferenceSuite in
/-- The executable suite. -/
def referenceSuite : Suite Scalar where
  basepoint := 1
  basepoint_ne_zero := one_ne_zero
  basepoint_generates P := ⟨P, by rw [smul_eq_mul, mul_one]⟩
  compress := encode
  decompress := decode
  decompress_eq_some_iff := decode_eq_some_iff
  fromUniformBytes := reduceWide
  vartimeMultiscalarMul ss Ps := (List.zipWith (· • ·) ss Ps).sum
  vartimeMultiscalarMul_eq_sum _ _ _ := rfl
  BasepointTable := Scalar
  createTable P := P
  mulTable s t := s • t
  mulTable_createTable _ _ := rfl
  scalarToBytes := encode
  scalarToBytes_littleEndian := ofLe_encode
  fromCanonicalBytes := decode
  fromCanonicalBytes_eq_some_iff := decode_eq_some_iff
  fromBytesModOrderWide := reduceWide
  invert s := s⁻¹
  invert_mul_cancel _ hs := inv_mul_cancel₀ hs
  Sha512 := Bytes
  default := []
  chain h a := h ++ a
  chain_chain _ _ _ := List.append_assoc _ _ _
  finalizeFixed := digest
  expandMessage inputs _ := digest inputs.flatten
  expandMessage_flatten inputs _ := by rw [List.flatten_singleton]

/-- A generator that replays a list of scalars, then ones. -/
structure Replay where
  scalars : List Scalar

/-- The next scalar of the list is drawn. -/
instance : Rng Replay where
  scalarRandom
    | ⟨[]⟩ => (1, ⟨[]⟩)
    | ⟨s :: scalars⟩ => (s, ⟨scalars⟩)

/-- A scalar of the list is drawn at once when it is not zero. -/
theorem randomScalar_replay {r : Scalar} (hr : r ≠ 0) (scalars : List Scalar) :
    randomScalar 1 (Replay.mk (r :: scalars)) = some (r, Replay.mk scalars) := by
  rw [randomScalar]
  exact if_neg hr

end PoprfRistretto
