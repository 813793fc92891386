import Mathlib.Data.Vector.Basic
import PoprfRistretto.Suite
import PoprfRistretto.Library.Utf8

/-!
# Serde helpers

The model of `serde_util.rs`. A data format is what it reports of itself and the token that it hands
to a visitor. Indexing a slice out of bounds is a panic, an outcome of its own.
-/

namespace PoprfRistretto

open Utf8

/-- A panic of the standard library. -/
inductive Panic where
  | indexOutOfBounds (len index : ℕ)
deriving DecidableEq

/-- `slice[index]`. -/
def indexSlice (slice : Bytes) (index : ℕ) : Except Panic UInt8 :=
  match slice[index]? with
  | some b => .ok b
  | none => .error (.indexOutOfBounds slice.length index)

/-! ## The hex codec -/

/-- `NIBBLE`, the bytes of `"0123456789abcdef"`. -/
def NIBBLE : List.Vector UInt8 16 :=
  ⟨[0x30, 0x31, 0x32, 0x33, 0x34, 0x35, 0x36, 0x37, 0x38, 0x39, 0x61, 0x62, 0x63, 0x64, 0x65, 0x66],
    rfl⟩

/-- The high nibble indexes the table. -/
theorem toNat_shiftRight_lt (b : UInt8) : (b >>> 4).toNat < 16 := by
  have hb := b.toNat_lt
  have hshift : UInt8.toNat 4 % 8 = 4 := rfl
  rw [UInt8.toNat_shiftRight, hshift, Nat.shiftRight_eq_div_pow]
  omega

/-- The low nibble indexes the table. -/
theorem toNat_and_lt (b : UInt8) : (b &&& 0x0f).toNat < 16 := by
  have hmask : UInt8.toNat 0x0f = 15 := rfl
  rw [UInt8.toNat_and, hmask]
  exact Nat.lt_succ_of_le Nat.and_le_right

/-- `hex_encode`. -/
def hexEncode (bytes : Bytes) : String :=
  bytes.foldl (fun s (b : UInt8) =>
    let hi := NIBBLE.get ⟨(b >>> 4).toNat, toNat_shiftRight_lt b⟩
    let lo := NIBBLE.get ⟨(b &&& 0x0f).toNat, toNat_and_lt b⟩
    (s.push (Char.ofUInt8 hi)).push (Char.ofUInt8 lo)) ""

/-- `nibble_from_hex`, with the codes of `0`, `9`, `a`, `f`, `A` and `F`. -/
def nibbleFromHex (b : UInt8) : Option UInt8 :=
  if 0x30 ≤ b ∧ b ≤ 0x39 then some (b - 0x30)
  else if 0x61 ≤ b ∧ b ≤ 0x66 then some (b - 0x61 + 10)
  else if 0x41 ≤ b ∧ b ≤ 0x46 then some (b - 0x41 + 10)
  else none

/-- `hex_decode::<N>`. -/
def hexDecode (N : ℕ) (s : String) : OptionT (Except Panic) (BytesN N) :=
  let bytes := utf8Bytes s
  if bytes.length ≠ N * 2 then failure
  else
    -- `for i in 0..N`
    (List.finRange N).foldlM (fun (out : BytesN N) (i : Fin N) => do
      let hi ← OptionT.mk (nibbleFromHex <$> indexSlice bytes (2 * i))
      let lo ← OptionT.mk (nibbleFromHex <$> indexSlice bytes (2 * i + 1))
      return out.set i ((hi <<< 4) ||| lo)) (List.Vector.replicate N 0)

/-! ## Visitors -/

/-- The errors `de::Error` that the visitors raise, with the text of `expecting` where serde adds it. -/
inductive DeError where
  | custom (msg : String)
  | invalidLength (len : ℕ) (expecting : String)
  | invalidType (expecting : String)
deriving DecidableEq

/-- `SeqAccess`: the next element of a sequence that is being read, and the rest of it. -/
class SeqAccess (A : Type) where
  nextElement : A → Except DeError (Option UInt8 × A)

/-- A sequence of bytes yields them in order. -/
instance : SeqAccess Bytes where
  nextElement
    | [] => .ok (none, [])
    | x :: xs => .ok (some x, xs)

/-- What a data format hands to a visitor. -/
inductive SerdeToken where
  | str (v : String)
  | bytes (v : Bytes)
  | borrowedBytes (v : Bytes)
  | byteBuf (v : Bytes)
  | seq (elements : Bytes)

namespace HexVisitor

/-- What the visitor says that it expects. -/
def expecting (N : ℕ) : String := "a " ++ toString N ++ "-byte lowercase hex string"

/-- A string is decoded as hex. -/
def visitStr (N : ℕ) (v : String) : ExceptT DeError (Except Panic) (BytesN N) :=
  ExceptT.mk do
    match ← (hexDecode N v).run with
    | some out => return .ok out
    | none => return .error (.custom "invalid hex")

/-- The visitor has one entry point; the default methods refuse the other tokens. -/
def visit (N : ℕ) : SerdeToken → ExceptT DeError (Except Panic) (BytesN N)
  | .str v => visitStr N v
  | _ => throw (.invalidType (expecting N))

end HexVisitor

namespace BytesVisitor

def expecting (N : ℕ) : String := "exactly " ++ toString N ++ " bytes"

/-- A slice must have the width of the array. -/
def visitBytes (N : ℕ) (v : Bytes) : Except DeError (BytesN N) :=
  if h : v.length = N then .ok ⟨v, h⟩ else .error (.invalidLength v.length (expecting N))

/-- Borrowed slices are no different. -/
def visitBorrowedBytes (N : ℕ) (v : Bytes) : Except DeError (BytesN N) := visitBytes N v

/-- Owned slices are no different. -/
def visitByteBuf (N : ℕ) (v : Bytes) : Except DeError (BytesN N) := visitBytes N v

/-- A sequence must yield as many bytes as the array has, and no more. -/
def visitSeq {A : Type} [SeqAccess A] (N : ℕ) (seq : A) : Except DeError (BytesN N) := do
  let (out, seq) ← (List.finRange N).foldlM (fun ((out, seq) : BytesN N × A) slot => do
    match ← SeqAccess.nextElement seq with
    | (some x, seq) => return (out.set slot x, seq)
    | (none, _) => .error (.invalidLength N (expecting N))) (List.Vector.replicate N 0, seq)
  match ← SeqAccess.nextElement seq with
  | (some _, _) => .error (.invalidLength (N + 1) (expecting N))
  | (none, _) => return out

/-- The entry points of the visitor; the default method refuses a string. -/
def visit (N : ℕ) : SerdeToken → Except DeError (BytesN N)
  | .bytes v => visitBytes N v
  | .borrowedBytes v => visitBorrowedBytes N v
  | .byteBuf v => visitByteBuf N v
  | .seq elements => visitSeq N elements
  | .str _ => .error (.invalidType (expecting N))

end BytesVisitor

/-! ## Fixed-length arrays -/

/-- `ser_fixed`: the token that is written. -/
def serFixed (humanReadable : Bool) (bytes : Bytes) : SerdeToken :=
  if humanReadable then .str (hexEncode bytes) else .bytes bytes

/-- `deser_fixed::<N>` on the token that the format reads. -/
def deserFixed (N : ℕ) (humanReadable : Bool) (token : SerdeToken) :
    ExceptT DeError (Except Panic) (BytesN N) :=
  if humanReadable then HexVisitor.visit N token
  else ExceptT.mk (.ok (BytesVisitor.visit N token))

end PoprfRistretto
