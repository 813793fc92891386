import PoprfRistretto.Dleq
import PoprfRistretto.Key

/-!
# Wire types and transcripts of the protocol

The model of the types of `poprf.rs` and of its internal helpers: the framed `info` and the hash
that `Finalize` and `Evaluate` share.
-/

namespace PoprfRistretto

variable {G : Type} [AddCommGroup G] [Module Scalar G]

/-- SHA-512 output length (`Nh`). -/
abbrev HASH_LEN : ℕ := 64

/-- A blinded element sent from client to server. -/
structure BlindedElement (G : Type) where
  point : G
deriving DecidableEq

/-- An evaluated element returned from server to client. -/
structure EvaluatedElement (G : Type) where
  point : G
deriving DecidableEq

/-- POPRF output: a SHA-512 digest. -/
structure PoprfOutput where
  bytes : BytesN HASH_LEN
deriving DecidableEq

/-- Client-side state kept between `blind` and `finalize`. -/
structure PoprfBlindState (G : Type) where
  blind : Scalar
  tweakedKey : G
deriving DecidableEq

namespace BlindedElement

variable (S : Suite G)

/-- `BlindedElement::LEN`. -/
abbrev LEN : ℕ := ELEMENT_LEN

def toBytes (b : BlindedElement G) : BytesN LEN := S.serializeElementArray b.point

/-- Deserialize, rejecting the identity element and non-canonical encodings. -/
def fromBytes [DecidableEq G] (buf : Bytes) : Except Error (BlindedElement G) := do
  let point ← S.deserializeElement buf
  return ⟨point⟩

end BlindedElement

namespace EvaluatedElement

variable (S : Suite G)

/-- `EvaluatedElement::LEN`. -/
abbrev LEN : ℕ := ELEMENT_LEN

def toBytes (e : EvaluatedElement G) : BytesN LEN := S.serializeElementArray e.point

/-- Deserialize, rejecting the identity element and non-canonical encodings. -/
def fromBytes [DecidableEq G] (buf : Bytes) : Except Error (EvaluatedElement G) := do
  let point ← S.deserializeElement buf
  return ⟨point⟩

end EvaluatedElement

namespace PoprfOutput

/-- `PoprfOutput::LEN`. -/
abbrev LEN : ℕ := HASH_LEN

/-- The hash itself. -/
def asBytes (o : PoprfOutput) : BytesN LEN := o.bytes

/-- Construct from raw bytes: only the length is checked. -/
def fromBytes (buf : Bytes) : Except Error PoprfOutput :=
  if h : buf.length = LEN then .ok ⟨⟨buf, h⟩⟩ else .error .deserialize

end PoprfOutput

namespace PoprfBlindState

variable (S : Suite G)

/-- `PoprfBlindState::LEN`. -/
abbrev LEN : ℕ := SCALAR_LEN + ELEMENT_LEN

/-- Serialize as `SerializeScalar(blind) || SerializeElement(tweakedKey)`. -/
def toBytes (st : PoprfBlindState G) : BytesN LEN :=
  ⟨(S.serializeScalarArray st.blind).toList ++ (S.serializeElementArray st.tweakedKey).toList, by
    rw [List.length_append, List.Vector.toList_length, List.Vector.toList_length]⟩

/-- Parse from wire format. -/
def fromBytes [DecidableEq G] (buf : Bytes) : Except Error (PoprfBlindState G) :=
  if buf.length ≠ LEN then .error .deserialize
  else do
    let blind ← S.deserializeScalar (buf.take SCALAR_LEN)
    let tweakedKey ← S.deserializeElement (buf.drop SCALAR_LEN)
    return { blind, tweakedKey }

end PoprfBlindState

/-- `framedInfo = "Info" || I2OSP(len(info), 2) || info`. -/
def framedInfo (info : Bytes) : Bytes :=
  ascii "Info" ++ (i2osp2 info.length).toList ++ info

namespace Suite

variable (S : Suite G)

/-- SHA-512 after absorbing `I2OSP(len(input), 2) || input`. -/
def lpHasher (input : Bytes) : S.Sha512 :=
  S.chain (S.chain S.default (i2osp2 input.length).toList) input

/-- Finish `finalizeHash` from an `lpHasher` state. -/
def finalizeFrom (hashPrefix : S.Sha512) (info unblinded : Bytes) : PoprfOutput :=
  let h := S.chain (S.chain hashPrefix (i2osp2 info.length).toList) info
  let h := S.chain (S.chain (S.chain h (i2osp2 unblinded.length).toList) unblinded)
    (ascii "Finalize")
  ⟨S.finalizeFixed h⟩

/-- POPRF Finalize hash. -/
def finalizeHash (input info unblinded : Bytes) : PoprfOutput :=
  S.finalizeFrom (S.lpHasher input) info unblinded

end Suite

/-- A pre-hashed POPRF input, for repeated offline evaluation of the same input. -/
structure PoprfInputTable (S : Suite G) where
  hashPrefix : S.Sha512
  inputLen : ℕ
  base : S.FixedBase

/-- Hash `input` once, moving the input checks of `evaluate` to build time. -/
def PoprfInputTable.new [DecidableEq G] (S : Suite G) (F : Features) (input : Bytes) :
    Except Error (PoprfInputTable S) := do
  checkLpLen input
  let p := S.hashToGroup [input] HASH_TO_GROUP_DST
  if isIdentity p then .error .invalidInput
  else .ok { hashPrefix := S.lpHasher input, inputLen := input.length, base := S.fixedBase F p }

end PoprfRistretto
