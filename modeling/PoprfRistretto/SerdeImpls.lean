import PoprfRistretto.Poprf.Codecs
import PoprfRistretto.SerdeTheorems

/-!
# Serde implementations of the wire types

The model of the `serde_impls` of `key.rs`, `dleq.rs` and `poprf.rs`. Every type is written as its bytes
and read through its parser, so that a token of either kind of format is read as a value exactly when it
carries the bytes of that value.
-/

namespace PoprfRistretto

variable {G : Type} [AddCommGroup G] [Module Scalar G] {V : Type} {N : ℕ}

/-! ## The implementations -/

/-- `ser_fixed(&self.to_bytes(), s)`. -/
def serializeBytes (toBytes : V → BytesN N) (humanReadable : Bool) (v : V) : SerdeToken :=
  serFixed humanReadable (toBytes v).toList

/-- `deser_fixed`, then `from_bytes(&bytes).map_err(serde::de::Error::custom)`. -/
def deserializeBytes (N : ℕ) (fromBytes : Bytes → Except Error V) (humanReadable : Bool) (d : SerdeToken) :
    ExceptT DeError (Except Panic) V := do
  let bytes ← deserFixed N humanReadable d
  ExceptT.mk (.ok ((fromBytes bytes.toList).mapError fun e => .custom e.display))

variable (S : Suite G)

/-- `impl Serialize for SecretKey`. -/
def SecretKey.serialize : Bool → SecretKey → SerdeToken :=
  serializeBytes (SecretKey.toBytes S)

/-- `impl Deserialize for SecretKey`. -/
def SecretKey.deserialize : Bool → SerdeToken → ExceptT DeError (Except Panic) SecretKey :=
  deserializeBytes SecretKey.LEN (SecretKey.fromBytes S)

/-- `impl Serialize for PublicKey`. -/
def PublicKey.serialize : Bool → PublicKey G → SerdeToken :=
  serializeBytes (PublicKey.toBytes S)

/-- `impl Serialize for Proof`. -/
def Proof.serialize : Bool → Proof → SerdeToken := serializeBytes (Proof.toBytes S)

/-- `impl Deserialize for Proof`. -/
def Proof.deserialize : Bool → SerdeToken → ExceptT DeError (Except Panic) Proof :=
  deserializeBytes Proof.LEN (Proof.fromBytes S)

/-- `impl Serialize for BlindedElement`. -/
def BlindedElement.serialize : Bool → BlindedElement G → SerdeToken :=
  serializeBytes (BlindedElement.toBytes S)

/-- `impl Serialize for EvaluatedElement`. -/
def EvaluatedElement.serialize : Bool → EvaluatedElement G → SerdeToken :=
  serializeBytes (EvaluatedElement.toBytes S)

/-- `impl Serialize for PoprfBlindState`. -/
def PoprfBlindState.serialize : Bool → PoprfBlindState G → SerdeToken :=
  serializeBytes (PoprfBlindState.toBytes S)

/-- `impl Serialize for PoprfOutput`. -/
def PoprfOutput.serialize : Bool → PoprfOutput → SerdeToken :=
  serializeBytes PoprfOutput.asBytes

/-- `impl Deserialize for PoprfOutput`. -/
def PoprfOutput.deserialize : Bool → SerdeToken → ExceptT DeError (Except Panic) PoprfOutput :=
  deserializeBytes PoprfOutput.LEN PoprfOutput.fromBytes

variable [DecidableEq G]

/-- `impl Deserialize for PublicKey`. -/
def PublicKey.deserialize : Bool → SerdeToken → ExceptT DeError (Except Panic) (PublicKey G) :=
  deserializeBytes PublicKey.LEN (PublicKey.fromBytes S)

/-- `impl Deserialize for BlindedElement`. -/
def BlindedElement.deserialize : Bool → SerdeToken → ExceptT DeError (Except Panic) (BlindedElement G) :=
  deserializeBytes BlindedElement.LEN (BlindedElement.fromBytes S)

/-- `impl Deserialize for EvaluatedElement`. -/
def EvaluatedElement.deserialize :
    Bool → SerdeToken → ExceptT DeError (Except Panic) (EvaluatedElement G) :=
  deserializeBytes EvaluatedElement.LEN (EvaluatedElement.fromBytes S)

/-- `impl Deserialize for PoprfBlindState`. -/
def PoprfBlindState.deserialize :
    Bool → SerdeToken → ExceptT DeError (Except Panic) (PoprfBlindState G) :=
  deserializeBytes PoprfBlindState.LEN (PoprfBlindState.fromBytes S)

/-! ## Tokens -/

/-- The token carries the bytes: as hex digits, of either case, in a human-readable format, and in a
binary format as a byte string or a sequence. -/
def SerdeToken.Carries (humanReadable : Bool) (bytes : Bytes) : SerdeToken → Prop
  | .str s => humanReadable = true ∧ (∀ c ∈ s.toList, IsHexDigit c) ∧ hexEncode bytes = s.toLower
  | .bytes v => humanReadable = false ∧ v = bytes
  | .borrowedBytes v => humanReadable = false ∧ v = bytes
  | .byteBuf v => humanReadable = false ∧ v = bytes
  | .seq v => humanReadable = false ∧ v = bytes

/-- What is written carries the bytes. -/
theorem carries_serFixed (humanReadable : Bool) (bytes : Bytes) :
    (serFixed humanReadable bytes).Carries humanReadable bytes := by
  cases humanReadable with
  | true =>
    refine ⟨rfl, fun c hc => ?_, (toLower_hexEncode bytes).symm⟩
    exact isHexDigit_of_isLowerHexDigit (isLowerHexDigit_of_mem_hexEncode hc)
  | false => exact ⟨rfl, rfl⟩

/-- A visit of a binary format takes the tokens that carry an array. -/
theorem BytesVisitor.visit_eq_of_carries {token : SerdeToken} {b : BytesN N}
    (h : token.Carries false b.toList) : BytesVisitor.visit N token = .ok b := by
  cases token with
  | str s => cases h.1
  | seq v =>
    obtain ⟨-, rfl⟩ := h
    exact (BytesVisitor.visitSeq_acceptsExactly N b.toList).1 b.toList_length
  | _ =>
    obtain ⟨-, rfl⟩ := h
    exact (BytesVisitor.visitBytes_acceptsExactly N b.toList).1 b.toList_length

/-- It refuses every other token. -/
theorem BytesVisitor.visit_of_not_carries {token : SerdeToken}
    (h : ∀ b : BytesN N, ¬token.Carries false b.toList) :
    ∃ e, BytesVisitor.visit N token = .error e := by
  cases token with
  | str s => exact ⟨_, rfl⟩
  | seq v =>
    exact (BytesVisitor.visitSeq_acceptsExactly N v).2 fun hlen => h ⟨v, hlen⟩ ⟨rfl, rfl⟩
  | bytes v | borrowedBytes v | byteBuf v =>
    exact (BytesVisitor.visitBytes_acceptsExactly N v).2 fun hlen => h ⟨v, hlen⟩ ⟨rfl, rfl⟩

/-- An array is read from the tokens that carry it. -/
theorem deserFixed_of_carries {humanReadable : Bool} {token : SerdeToken} {b : BytesN N}
    (h : token.Carries humanReadable b.toList) :
    (deserFixed N humanReadable token).run = .ok (.ok b) := by
  cases humanReadable with
  | true =>
    cases token with
    | str s => exact congrArg ExceptT.run (HexVisitor.visitStr_of_some (run_hexDecode_eq_some_iff.mpr h.2))
    | _ => cases h.1
  | false => exact congrArg Except.ok (BytesVisitor.visit_eq_of_carries h)

/-- No array is read from any other token, and nothing panics. -/
theorem deserFixed_of_not_carries {humanReadable : Bool} {token : SerdeToken}
    (h : ∀ b : BytesN N, ¬token.Carries humanReadable b.toList) :
    ∃ e, (deserFixed N humanReadable token).run = .ok (.error e) := by
  cases humanReadable with
  | true =>
    cases token with
    | str s =>
      obtain ⟨out, hout⟩ := exists_run_hexDecode N s
      cases out with
      | none =>
        refine ⟨.custom "invalid hex", ?_⟩
        show (HexVisitor.visitStr N s).run = _
        rw [HexVisitor.visitStr, hout]
        rfl
      | some b => exact absurd ⟨rfl, run_hexDecode_eq_some_iff.mp hout⟩ (h b)
    | _ => exact ⟨_, rfl⟩
  | false =>
    obtain ⟨e, he⟩ := BytesVisitor.visit_of_not_carries h
    exact ⟨e, congrArg Except.ok he⟩

/-! ## Values -/

/-- The implementations of a type are exact: a token is read by parsing the bytes that it carries, in
formats of either kind and with the parser's own error, and every other token is refused. What is written
carries the bytes of the value, so that the valid values are read back, and nothing else is read as
them. -/
structure IsSerdeCodec (toBytes : V → BytesN N) (fromBytes : Bytes → Except Error V) (Valid : V → Prop)
    (serialize : Bool → V → SerdeToken)
    (deserialize : Bool → SerdeToken → ExceptT DeError (Except Panic) V) : Prop where
  carries : ∀ humanReadable v, (serialize humanReadable v).Carries humanReadable (toBytes v).toList
  roundTrip : ∀ humanReadable v, Valid v →
    (deserialize humanReadable (serialize humanReadable v)).run = .ok (.ok v)
  exact : ∀ humanReadable token v, (deserialize humanReadable token).run = .ok (.ok v) ↔
    Valid v ∧ token.Carries humanReadable (toBytes v).toList
  parses : ∀ humanReadable token (b : BytesN N), token.Carries humanReadable b.toList →
    (deserialize humanReadable token).run =
      .ok ((fromBytes b.toList).mapError fun e => .custom e.display)
  refuses : ∀ humanReadable token, (∀ b : BytesN N, ¬token.Carries humanReadable b.toList) →
    ∃ e, (deserialize humanReadable token).run = .ok (.error e)

/-- The impls of a type are as exact as its parser. -/
theorem isSerdeCodec {toBytes : V → BytesN N} {fromBytes : Bytes → Except Error V} {Valid : V → Prop}
    (h : ∀ {buf v}, fromBytes buf = .ok v ↔ (toBytes v).toList = buf ∧ Valid v) :
    IsSerdeCodec toBytes fromBytes Valid (serializeBytes toBytes) (deserializeBytes N fromBytes) := by
  have hparses : ∀ humanReadable token (b : BytesN N), token.Carries humanReadable b.toList →
      (deserializeBytes N fromBytes humanReadable token).run =
        .ok ((fromBytes b.toList).mapError fun e => .custom e.display) := by
    intro humanReadable token b hb
    unfold deserializeBytes
    rw [ExceptT.run_bind, deserFixed_of_carries hb]
    rfl
  have hrefuses : ∀ humanReadable token, (∀ b : BytesN N, ¬token.Carries humanReadable b.toList) →
      ∃ e, (deserializeBytes N fromBytes humanReadable token).run = .ok (.error e) := by
    intro humanReadable token hno
    obtain ⟨e, he⟩ := deserFixed_of_not_carries hno
    refine ⟨e, ?_⟩
    unfold deserializeBytes
    rw [ExceptT.run_bind, he]
    rfl
  have hvalid : ∀ humanReadable token v, Valid v → token.Carries humanReadable (toBytes v).toList →
      (deserializeBytes N fromBytes humanReadable token).run = .ok (.ok v) := by
    intro humanReadable token v hv hcarries
    rw [hparses humanReadable token (toBytes v) hcarries, h.mpr ⟨rfl, hv⟩]
    rfl
  refine ⟨fun humanReadable v => carries_serFixed humanReadable _, fun humanReadable v hv =>
    hvalid humanReadable _ v hv (carries_serFixed humanReadable _), ?_, hparses, hrefuses⟩
  intro humanReadable token v
  constructor
  · intro hread
    -- what carries no bytes of the right width is refused before the parser runs
    by_cases hcarries : ∃ b : BytesN N, token.Carries humanReadable b.toList
    · obtain ⟨b, hb⟩ := hcarries
      rw [hparses humanReadable token b hb] at hread
      cases hparse : fromBytes b.toList with
      | error e =>
        rw [hparse] at hread
        cases hread
      | ok w =>
        rw [hparse] at hread
        cases hread
        obtain ⟨hbytes, hv⟩ := h.mp hparse
        rw [hbytes]
        exact ⟨hv, hb⟩
    · obtain ⟨e, he⟩ := hrefuses humanReadable token fun b hb => hcarries ⟨b, hb⟩
      rw [he] at hread
      cases hread
  · rintro ⟨hv, hcarries⟩
    exact hvalid humanReadable token v hv hcarries

/-- The serde implementations of the wire types are exact. -/
theorem serdeImpls_exact :
    IsSerdeCodec (SecretKey.toBytes S) (SecretKey.fromBytes S) (·.scalar ≠ 0)
      (SecretKey.serialize S) (SecretKey.deserialize S) ∧
    IsSerdeCodec (PublicKey.toBytes S) (PublicKey.fromBytes S) (·.point ≠ 0)
      (PublicKey.serialize S) (PublicKey.deserialize S) ∧
    IsSerdeCodec (Proof.toBytes S) (Proof.fromBytes S) (fun _ => True)
      (Proof.serialize S) (Proof.deserialize S) ∧
    IsSerdeCodec (BlindedElement.toBytes S) (BlindedElement.fromBytes S) (·.point ≠ 0)
      (BlindedElement.serialize S) (BlindedElement.deserialize S) ∧
    IsSerdeCodec (EvaluatedElement.toBytes S) (EvaluatedElement.fromBytes S) (·.point ≠ 0)
      (EvaluatedElement.serialize S) (EvaluatedElement.deserialize S) ∧
    IsSerdeCodec (PoprfBlindState.toBytes S) (PoprfBlindState.fromBytes S) (·.tweakedKey ≠ 0)
      (PoprfBlindState.serialize S) (PoprfBlindState.deserialize S) ∧
    IsSerdeCodec PoprfOutput.asBytes PoprfOutput.fromBytes (fun _ => True)
      PoprfOutput.serialize PoprfOutput.deserialize :=
  ⟨isSerdeCodec (SecretKey.fromBytes_eq_ok_iff S), isSerdeCodec (PublicKey.fromBytes_eq_ok_iff S),
    isSerdeCodec (by simp [Proof.fromBytes_eq_ok_iff S]),
    isSerdeCodec (BlindedElement.fromBytes_eq_ok_iff S),
    isSerdeCodec (EvaluatedElement.fromBytes_eq_ok_iff S),
    isSerdeCodec (PoprfBlindState.fromBytes_eq_ok_iff S),
    isSerdeCodec (by simp [PoprfOutput.fromBytes_eq_ok_iff])⟩

end PoprfRistretto
