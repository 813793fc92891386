import PoprfRistretto.Library.Base64
import PoprfRistretto.Ffi.State

/-!
# The Base64 engine

What the bindings rely on of the engine `STANDARD`: it reads back what it writes, it reads nothing
else, and what it writes is ASCII text without a NUL.
-/

namespace PoprfRistretto.Ffi

open Utf8 Base64Codec

/-- The documented behaviour of the engine. -/
structure Base64.Lawful (base64 : Base64) : Prop where
  decode_encode : ∀ bytes, base64.decode (utf8Bytes (base64.encode bytes)) = .ok bytes
  encode_of_decode : ∀ s bytes, base64.decode s = .ok bytes → utf8Bytes (base64.encode bytes) = s
  zero_not_mem_encode : ∀ bytes, 0 ∉ utf8Bytes (base64.encode bytes)

/-- An engine that reads and writes the standard alphabet. -/
def standardBase64 : Base64 where
  encode := encodeString
  decode s :=
    match Base64Codec.decode s with
    | some bytes => .ok bytes
    | none => .error "invalid base64"

/-- The engine decodes what the codec does. -/
theorem decode_standardBase64_eq_ok_iff {s bytes : Bytes} :
    standardBase64.decode s = .ok bytes ↔ Base64Codec.decode s = some bytes := by
  simp only [standardBase64]
  split
  · rename_i bytes' h
    rw [h, Except.ok.injEq, Option.some.injEq]
  · rename_i h
    simp [h]

/-- The standard alphabet with padding keeps the laws of the engine. -/
theorem standardBase64_lawful : standardBase64.Lawful where
  decode_encode bytes := by
    rw [decode_standardBase64_eq_ok_iff]
    exact (congrArg Base64Codec.decode (utf8Bytes_encodeString bytes)).trans (decode_encode bytes)
  encode_of_decode s bytes h :=
    (utf8Bytes_encodeString bytes).trans (encode_of_decode (decode_standardBase64_eq_ok_iff.mp h))
  zero_not_mem_encode bytes h := by
    rw [show standardBase64.encode bytes = encodeString bytes from rfl,
      utf8Bytes_encodeString] at h
    exact (isText_of_mem_encode bytes 0 h).2 rfl

end PoprfRistretto.Ffi
