import PoprfRistretto.Suite

/-!
# Errors, length prefixes and domain separation tags

The model of `error.rs` and `util.rs`.
-/

namespace PoprfRistretto

/-- All errors raised by the crate. -/
inductive Error where
  | deserialize
  | inputValidation
  | invalidInput
  | lengthMismatch
  | verify
  | inverse
  | deriveKeyPair
  | inputTooLong
  | inconsistentState
deriving DecidableEq, Repr

/-- `impl fmt::Display for Error`. -/
def Error.display : Error → String
  | .deserialize => "deserialization failed"
  | .inputValidation => "input validation failed"
  | .invalidInput => "invalid input"
  | .lengthMismatch => "batched-API length mismatch"
  | .verify => "DLEQ proof verification failed"
  | .inverse => "inversion of zero scalar"
  | .deriveKeyPair => "DeriveKeyPair counter exhausted"
  | .inputTooLong => "input or info length must be smaller than 2^16 - 1 bytes"
  | .inconsistentState => "PoprfBlindState entries disagree on tweakedKey"

/-- A byte-string literal `b"..."` of ASCII characters. -/
def ascii (s : String) : Bytes := s.toUTF8.data.toList

/-- Maximum permitted byte length of a length-prefixed input or info value. -/
def MAX_LP_LEN : ℕ := 2 ^ 16 - 2

/-- Reject byte strings that exceed `MAX_LP_LEN`. -/
def checkLpLen (buf : Bytes) : Except Error Unit :=
  if buf.length > MAX_LP_LEN then .error .inputTooLong else .ok ()

/-- `I2OSP(x, 1)`. -/
def i2osp1 (x : UInt8) : BytesN 1 := ⟨[x], rfl⟩

/-- `u16::to_be_bytes`. -/
def toBeBytes (x : UInt16) : BytesN 2 := ⟨[(x >>> 8).toUInt8, x.toUInt8], rfl⟩

/-- `I2OSP(x, 2)` as a release build computes it: `x as u16` drops the high bits. -/
def i2osp2 (x : ℕ) : BytesN 2 := toBeBytes (UInt16.ofNat x)

/-- Append `I2OSP(buf.len(), 2) || buf` to `out`. -/
def appendLp (out buf : Bytes) : Bytes := out ++ (i2osp2 buf.length).toList ++ buf

/-- `"HashToGroup-" || contextString`. -/
def HASH_TO_GROUP_DST : Bytes := ascii "HashToGroup-OPRFV1-\x02-ristretto255-SHA512"

/-- `"HashToScalar-" || contextString`. -/
def HASH_TO_SCALAR_DST : Bytes := ascii "HashToScalar-OPRFV1-\x02-ristretto255-SHA512"

/-- `"DeriveKeyPair" || contextString`. -/
def DERIVE_KEY_PAIR_DST : Bytes := ascii "DeriveKeyPairOPRFV1-\x02-ristretto255-SHA512"

/-- `"Seed-" || contextString`. -/
def SEED_DST : Bytes := ascii "Seed-OPRFV1-\x02-ristretto255-SHA512"

/-! ## The length cap -/

/-- The check lets pass what is not longer than the cap. -/
theorem checkLpLen_eq_ok_iff {buf : Bytes} : checkLpLen buf = .ok () ↔ buf.length ≤ MAX_LP_LEN := by
  unfold checkLpLen
  split <;> simp_all

theorem checkLpLen_of_le {buf : Bytes} (h : buf.length ≤ MAX_LP_LEN) : checkLpLen buf = .ok () :=
  checkLpLen_eq_ok_iff.mpr h

theorem checkLpLen_of_gt {buf : Bytes} (h : MAX_LP_LEN < buf.length) :
    checkLpLen buf = .error .inputTooLong := if_pos h

/-! ## Two-byte prefixes -/

@[simp] theorem length_i2osp2 (x : ℕ) : (i2osp2 x).toList.length = 2 := rfl

/-- Two bytes determine the number. -/
theorem toBeBytes_injective : Function.Injective toBeBytes := by
  intro x y h
  have hbytes : [(x >>> 8).toUInt8, x.toUInt8] = [(y >>> 8).toUInt8, y.toUInt8] :=
    congrArg List.Vector.toList h
  simp only [List.cons.injEq, and_true] at hbytes
  have hhi := congrArg UInt8.toNat hbytes.1
  have hlo := congrArg UInt8.toNat hbytes.2
  have hshift : UInt16.toNat 8 % 16 = 8 := rfl
  simp only [UInt16.toNat_toUInt8, UInt16.toNat_shiftRight, hshift, Nat.shiftRight_eq_div_pow]
    at hhi hlo
  have hx := x.toNat_lt
  have hy := y.toNat_lt
  apply UInt16.toNat_inj.mp
  omega

/-- Two-byte prefixes are equal exactly when the prefixed values agree modulo `2 ^ 16`. -/
theorem i2osp2_eq_iff {x y : ℕ} : i2osp2 x = i2osp2 y ↔ x % 2 ^ 16 = y % 2 ^ 16 := by
  unfold i2osp2
  rw [toBeBytes_injective.eq_iff, ← UInt16.toNat_inj, UInt16.toNat_ofNat', UInt16.toNat_ofNat']

/-- On values that fit in `u16` the prefix is injective. -/
theorem i2osp2_injOn : Set.InjOn i2osp2 {x | x ≤ 65535} := by
  intro x hx y hy h
  have hmod := i2osp2_eq_iff.mp h
  simp only [Set.mem_ofPred_eq] at hx hy
  omega

end PoprfRistretto
