import PoprfRistretto.Group

/-!
# Key types and key generation

The model of `key.rs`.
-/

namespace PoprfRistretto

variable {G : Type} [AddCommGroup G] [Module Scalar G]

/-- POPRF server secret key `skS`. -/
structure SecretKey where
  scalar : Scalar
deriving DecidableEq

/-- POPRF server public key `pkS = skS·G`. -/
structure PublicKey (G : Type) where
  point : G
deriving DecidableEq

namespace SecretKey

variable (S : Suite G)

/-- `SecretKey::LEN`. -/
abbrev LEN : ℕ := SCALAR_LEN

/-- Serialize as `SerializeScalar(skS)`. -/
def toBytes (sk : SecretKey) : BytesN LEN := S.serializeScalarArray sk.scalar

/-- Deserialize from `SerializeScalar` form, rejecting non-canonical or zero scalars. -/
def fromBytes (buf : Bytes) : Except Error SecretKey := do
  let s ← S.deserializeScalar buf
  if s = 0 then .error .inputValidation else .ok ⟨s⟩

/-- Derive the corresponding `PublicKey`. -/
def publicKey (sk : SecretKey) : PublicKey G := ⟨S.scalarMulGen sk.scalar⟩

end SecretKey

namespace PublicKey

variable (S : Suite G)

/-- `PublicKey::LEN`. -/
abbrev LEN : ℕ := ELEMENT_LEN

/-- Serialize as `SerializeElement(pkS)`. -/
def toBytes (pk : PublicKey G) : BytesN LEN := S.serializeElementArray pk.point

/-- Deserialize from `SerializeElement` form. -/
def fromBytes [DecidableEq G] (buf : Bytes) : Except Error (PublicKey G) := do
  let point ← S.deserializeElement buf
  return ⟨point⟩

end PublicKey

/-- `GenerateKeyPair()`, `none` when no nonzero scalar is drawn within `fuel` draws. -/
def generateKeyPair {R : Type} [Rng R] (S : Suite G) (fuel : ℕ) (rng : R) :
    Option ((SecretKey × PublicKey G) × R) := do
  let (s, rng) ← randomScalar fuel rng
  let sk : SecretKey := ⟨s⟩
  let pk := sk.publicKey S
  return ((sk, pk), rng)

/-- The retry loop of `derive_key_pair` over the counters still to try. -/
def deriveLoop (S : Suite G) (deriveInput : Bytes) :
    List UInt16 → Except Error (SecretKey × PublicKey G)
  | [] => .error .deriveKeyPair
  | counter :: counters =>
    let counterByte := i2osp1 counter.toUInt8
    let sk := S.hashToScalar [deriveInput, counterByte.toList] DERIVE_KEY_PAIR_DST
    if scalarIsZero sk then deriveLoop S deriveInput counters
    else
      let sk : SecretKey := ⟨sk⟩
      .ok (sk, sk.publicKey S)

/-- `DeriveKeyPair(seed, info)`. -/
def deriveKeyPair (S : Suite G) (seed : BytesN 32) (info : Bytes) :
    Except Error (SecretKey × PublicKey G) := do
  checkLpLen info
  let deriveInput := seed.toList ++ (i2osp2 info.length).toList ++ info
  -- `for counter in 0u16..=255`
  deriveLoop S deriveInput ((List.range 256).map UInt16.ofNat)

end PoprfRistretto
