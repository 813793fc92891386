import PoprfRistretto.Poprf.Types
import PoprfRistretto.Library.ExceptLoop

/-!
# Round trips of the wire formats

The parser of each type accepts exactly the encodings of its well-formed values: of nonzero secret
keys, of elements other than the identity, of states with any blind and of proofs with any scalars.
What it rejects is told apart by its error: `Deserialize` when the length or some 32-byte part is
wrong as an encoding, `InputValidation` when the parts are encodings and one has the value that its
place forbids.
-/

namespace PoprfRistretto

open ExceptLoop

variable {G : Type} [AddCommGroup G] [Module Scalar G] (S : Suite G)

/-- Fields of fixed length are cut out of their concatenation. -/
theorem take_drop_append {n : ℕ} {a b buf : Bytes} (ha : a.length = n) (h : a ++ b = buf) :
    buf.take n = a ∧ buf.drop n = b := by
  subst h ha
  exact ⟨List.take_left, List.drop_left⟩

/-! ## Canonical formats -/

/-- The kinds of 32-byte parts that the wire formats are made of. -/
inductive WirePart where
  /-- A scalar of any value. -/
  | scalar
  /-- The scalar of a secret key, which must not be zero. -/
  | secretScalar
  /-- An element, which must not be the identity. -/
  | element

/-- The part encodes a value: an integer below `ℓ`, or a point by its compression. -/
def WirePart.IsCanonical : WirePart → Bytes → Prop
  | .scalar, part => part.length = SCALAR_LEN ∧ LittleEndian.ofLe part < ORDER
  | .secretScalar, part => part.length = SCALAR_LEN ∧ LittleEndian.ofLe part < ORDER
  | .element, part => ∃ P, S.serializeElement P = part

/-- The part encodes the one value that its place forbids. -/
def WirePart.IsForbidden : WirePart → Bytes → Prop
  | .scalar, _ => False
  | .secretScalar, part => part.length = SCALAR_LEN ∧ LittleEndian.ofLe part = 0
  | .element, part => part = S.serializeElement 0

/-- The `i`-th 32-byte part of a message. -/
def wirePart (buf : Bytes) (i : ℕ) : Bytes := (buf.drop (32 * i)).take 32

/-- A wire format of the given parts in which every value has one encoding, and the error of a
rejected string says what is wrong with it. -/
structure IsCanonicalCodec {V : Type} {n : ℕ} (parts : List WirePart) (toBytes : V → BytesN n)
    (fromBytes : Bytes → Except Error V) (Valid : V → Prop) : Prop where
  toBytes_of_fromBytes : ∀ buf v, fromBytes buf = .ok v → (toBytes v).toList = buf
  valid_of_fromBytes : ∀ buf v, fromBytes buf = .ok v → Valid v
  fromBytes_toBytes : ∀ v, Valid v → fromBytes (toBytes v).toList = .ok v
  deserialize_iff : ∀ buf, fromBytes buf = .error .deserialize ↔
    buf.length ≠ n ∨ ∃ p ∈ parts.zipIdx, ¬p.1.IsCanonical S (wirePart buf p.2)
  inputValidation_iff : ∀ buf, fromBytes buf = .error .inputValidation ↔
    buf.length = n ∧ (∀ p ∈ parts.zipIdx, p.1.IsCanonical S (wirePart buf p.2)) ∧
      ∃ p ∈ parts.zipIdx, p.1.IsForbidden S (wirePart buf p.2)

variable {S}

/-- Every part of a value takes 32 bytes. -/
theorem WirePart.IsCanonical.length_eq {p : WirePart} {part : Bytes} (h : p.IsCanonical S part) :
    part.length = 32 := by
  cases p with
  | scalar => exact h.1
  | secretScalar => exact h.1
  | element =>
    obtain ⟨P, rfl⟩ := h
    exact S.length_serializeElement P

/-- A value of one part is that part. -/
theorem wirePart_zero_of_length {buf : Bytes} (h : buf.length = 32) : wirePart buf 0 = buf := by
  rw [wirePart, Nat.mul_zero, List.drop_zero, List.take_of_length_le h.le]

/-- A value of two parts is its two halves. -/
theorem wirePart_halves {buf : Bytes} (h : buf.length = 64) :
    wirePart buf 0 = buf.take 32 ∧ wirePart buf 1 = buf.drop 32 := by
  constructor
  · rw [wirePart, Nat.mul_zero, List.drop_zero]
  · rw [wirePart, Nat.mul_one, List.take_of_length_le]
    rw [List.length_drop, h]

/-- A message of one part is the part. -/
theorem not_isCanonical_iff {p : WirePart} {buf : Bytes} :
    ¬p.IsCanonical S buf ↔ buf.length ≠ 32 ∨ ¬p.IsCanonical S (wirePart buf 0) := by
  by_cases hlen : buf.length = 32
  · rw [wirePart_zero_of_length hlen, or_iff_right (not_not.mpr hlen)]
  · exact iff_of_true (fun h => hlen h.length_eq) (Or.inl hlen)

/-- A forbidden value is canonically encoded. -/
theorem WirePart.IsForbidden.isCanonical {p : WirePart} {part : Bytes} (h : p.IsForbidden S part) :
    p.IsCanonical S part := by
  cases p with
  | scalar => exact h.elim
  | secretScalar => exact ⟨h.1, h.2.trans_lt (by norm_num [ORDER])⟩
  | element => exact ⟨0, h.symm⟩

/-- A format of one part, from what its parser does. -/
theorem isCanonicalCodec_of_part {V : Type} {p : WirePart} {toBytes : V → BytesN 32}
    {fromBytes : Bytes → Except Error V} {Valid : V → Prop}
    (hok : ∀ {buf v}, fromBytes buf = .ok v ↔ (toBytes v).toList = buf ∧ Valid v)
    (hdes : ∀ {buf}, fromBytes buf = .error .deserialize ↔ ¬p.IsCanonical S buf)
    (hinv : ∀ {buf}, fromBytes buf = .error .inputValidation ↔ p.IsForbidden S buf) :
    IsCanonicalCodec S [p] toBytes fromBytes Valid where
  toBytes_of_fromBytes _ _ h := (hok.mp h).1
  valid_of_fromBytes _ _ h := (hok.mp h).2
  fromBytes_toBytes _ hv := hok.mpr ⟨rfl, hv⟩
  deserialize_iff buf := by
    simpa using hdes.trans not_isCanonical_iff
  inputValidation_iff buf := by
    rw [hinv]
    constructor
    · intro h
      have hlen := h.isCanonical.length_eq
      rw [← wirePart_zero_of_length hlen] at h
      exact ⟨hlen, by simpa using h.isCanonical, by simpa using h⟩
    · rintro ⟨hlen, -, h⟩
      simpa [wirePart_zero_of_length hlen] using h

/-- A format of two parts, from what its parser does on the halves of a message. -/
theorem isCanonicalCodec_of_parts {V : Type} {p q : WirePart} {toBytes : V → BytesN 64}
    {fromBytes : Bytes → Except Error V} {Valid : V → Prop}
    (hok : ∀ {buf v}, fromBytes buf = .ok v ↔ (toBytes v).toList = buf ∧ Valid v)
    (hdes : ∀ {buf}, fromBytes buf = .error .deserialize ↔
      buf.length ≠ 64 ∨ ¬p.IsCanonical S (buf.take 32) ∨ ¬q.IsCanonical S (buf.drop 32))
    (hinv : ∀ {buf}, fromBytes buf = .error .inputValidation ↔
      buf.length = 64 ∧ (p.IsCanonical S (buf.take 32) ∧ q.IsCanonical S (buf.drop 32)) ∧
        (p.IsForbidden S (buf.take 32) ∨ q.IsForbidden S (buf.drop 32))) :
    IsCanonicalCodec S [p, q] toBytes fromBytes Valid where
  toBytes_of_fromBytes _ _ h := (hok.mp h).1
  valid_of_fromBytes _ _ h := (hok.mp h).2
  fromBytes_toBytes _ hv := hok.mpr ⟨rfl, hv⟩
  deserialize_iff buf := by
    by_cases hlen : buf.length = 64
    · obtain ⟨hp, hq⟩ := wirePart_halves hlen
      simpa [hp, hq, hlen] using @hdes buf
    · exact iff_of_true (hdes.mpr (Or.inl hlen)) (Or.inl hlen)
  inputValidation_iff buf := by
    rw [hinv]
    refine and_congr_right fun hlen => ?_
    obtain ⟨hp, hq⟩ := wirePart_halves hlen
    simp [hp, hq]

variable (S)

/-! ## Keys -/

/-- A string is read as the secret key that it encodes, which is not zero. -/
theorem SecretKey.fromBytes_eq_ok_iff {buf : Bytes} {sk : SecretKey} :
    SecretKey.fromBytes S buf = .ok sk ↔ (sk.toBytes S).toList = buf ∧ sk.scalar ≠ 0 := by
  unfold SecretKey.fromBytes
  rw [bind_eq_ok_iff]
  constructor
  · rintro ⟨s, hs, h⟩
    rw [S.deserializeScalar_eq_ok_iff] at hs
    by_cases hzero : s = 0
    · rw [if_pos hzero] at h
      cases h
    · rw [if_neg hzero] at h
      cases h
      exact ⟨hs, hzero⟩
  · rintro ⟨hbuf, hzero⟩
    exact ⟨sk.scalar, S.deserializeScalar_eq_ok_iff.mpr hbuf, if_neg hzero⟩

variable [DecidableEq G]

/-- A string is read as the public key that it encodes, which is not the identity. -/
theorem PublicKey.fromBytes_eq_ok_iff {buf : Bytes} {pk : PublicKey G} :
    PublicKey.fromBytes S buf = .ok pk ↔ (pk.toBytes S).toList = buf ∧ pk.point ≠ 0 := by
  unfold PublicKey.fromBytes
  rw [bind_eq_ok_iff]
  constructor
  · rintro ⟨P, hP, h⟩
    cases h
    exact S.deserializeElement_eq_ok_iff.mp hP
  · intro h
    exact ⟨pk.point, S.deserializeElement_eq_ok_iff.mpr h, rfl⟩

/-! ## Elements -/

/-- A string is read as the blinded element that it encodes. -/
theorem BlindedElement.fromBytes_eq_ok_iff {buf : Bytes} {b : BlindedElement G} :
    BlindedElement.fromBytes S buf = .ok b ↔ (b.toBytes S).toList = buf ∧ b.point ≠ 0 := by
  unfold BlindedElement.fromBytes
  rw [bind_eq_ok_iff]
  constructor
  · rintro ⟨P, hP, h⟩
    cases h
    exact S.deserializeElement_eq_ok_iff.mp hP
  · intro h
    exact ⟨b.point, S.deserializeElement_eq_ok_iff.mpr h, rfl⟩

/-- A string is read as the evaluated element that it encodes. -/
theorem EvaluatedElement.fromBytes_eq_ok_iff {buf : Bytes} {e : EvaluatedElement G} :
    EvaluatedElement.fromBytes S buf = .ok e ↔ (e.toBytes S).toList = buf ∧ e.point ≠ 0 := by
  unfold EvaluatedElement.fromBytes
  rw [bind_eq_ok_iff]
  constructor
  · rintro ⟨P, hP, h⟩
    cases h
    exact S.deserializeElement_eq_ok_iff.mp hP
  · intro h
    exact ⟨e.point, S.deserializeElement_eq_ok_iff.mpr h, rfl⟩

/-! ## Proofs and states -/

omit [DecidableEq G] in
/-- A string is read as the proof that it encodes, with zero scalars or not. -/
theorem Proof.fromBytes_eq_ok_iff {buf : Bytes} {p : Proof} :
    Proof.fromBytes S buf = .ok p ↔ (p.toBytes S).toList = buf := by
  unfold Proof.fromBytes
  constructor
  · intro h
    by_cases hlen : buf.length ≠ Proof.LEN
    · rw [if_pos hlen] at h
      cases h
    · rw [if_neg hlen] at h
      obtain ⟨c, hc, h⟩ := bind_eq_ok_iff.mp h
      obtain ⟨s, hs, h⟩ := bind_eq_ok_iff.mp h
      cases h
      rw [S.deserializeScalar_eq_ok_iff] at hc hs
      show (S.serializeScalarArray c).toList ++ (S.serializeScalarArray s).toList = buf
      rw [hc, hs, List.take_append_drop]
  · intro h
    -- the string is cut where the first scalar ends
    obtain ⟨hc, hs⟩ := take_drop_append (S.length_serializeScalarArray p.c) h
    have hlen : buf.length = Proof.LEN := by rw [← h, List.Vector.toList_length]
    rw [if_neg (not_not.mpr hlen), hc, hs, S.deserializeScalar_serializeScalarArray, ok_bind,
      S.deserializeScalar_serializeScalarArray, ok_bind]
    rfl

/-- A string of 64 bytes is read as itself. -/
theorem PoprfOutput.fromBytes_eq_ok_iff {buf : Bytes} {o : PoprfOutput} :
    PoprfOutput.fromBytes buf = .ok o ↔ o.asBytes.toList = buf := by
  unfold PoprfOutput.fromBytes
  constructor
  · intro h
    split at h
    · cases h
      rfl
    · cases h
  · rintro rfl
    exact dif_pos o.bytes.2

/-- The state parser puts no condition on the blind. -/
theorem PoprfBlindState.fromBytes_eq_ok_iff {buf : Bytes} {st : PoprfBlindState G} :
    PoprfBlindState.fromBytes S buf = .ok st ↔
      (st.toBytes S).toList = buf ∧ st.tweakedKey ≠ 0 := by
  unfold PoprfBlindState.fromBytes
  constructor
  · intro h
    by_cases hlen : buf.length ≠ PoprfBlindState.LEN
    · rw [if_pos hlen] at h
      cases h
    · rw [if_neg hlen] at h
      obtain ⟨blind, hblind, h⟩ := bind_eq_ok_iff.mp h
      obtain ⟨tweakedKey, hkey, h⟩ := bind_eq_ok_iff.mp h
      cases h
      rw [S.deserializeScalar_eq_ok_iff] at hblind
      obtain ⟨hkey, hne⟩ := S.deserializeElement_eq_ok_iff.mp hkey
      refine ⟨?_, hne⟩
      show (S.serializeScalarArray blind).toList ++ S.serializeElement tweakedKey = buf
      rw [hblind, hkey, List.take_append_drop]
  · rintro ⟨h, hne⟩
    obtain ⟨hblind, hkey⟩ := take_drop_append (S.length_serializeScalarArray st.blind) h
    have hlen : buf.length = PoprfBlindState.LEN := by rw [← h, List.Vector.toList_length]
    rw [if_neg (not_not.mpr hlen), hblind, hkey, S.deserializeScalar_serializeScalarArray, ok_bind,
      S.toList_serializeElementArray, S.deserializeElement_of_ne_zero hne, ok_bind]
    rfl

/-! ## What the parsers reject -/

omit [DecidableEq G] in
theorem SecretKey.isCanonicalCodec :
    IsCanonicalCodec S [.secretScalar] (SecretKey.toBytes S) (SecretKey.fromBytes S)
      (·.scalar ≠ 0) := by
  refine isCanonicalCodec_of_part (SecretKey.fromBytes_eq_ok_iff S) ?_ ?_
  · intro buf
    unfold SecretKey.fromBytes
    rw [bind_eq_error_iff, S.deserializeScalar_eq_error_iff]
    constructor
    · rintro (⟨-, h⟩ | ⟨s, -, h⟩)
      · exact h
      · split at h <;> cases h
    · exact fun h => Or.inl ⟨rfl, h⟩
  · intro buf
    unfold SecretKey.fromBytes
    rw [bind_eq_error_iff, S.deserializeScalar_eq_error_iff]
    constructor
    · rintro (⟨h, -⟩ | ⟨s, hs, h⟩)
      · cases h
      · -- zero is read as a scalar, and refused as a key
        rw [S.deserializeScalar_eq_ok_iff] at hs
        have hval : LittleEndian.ofLe buf = s.val := by
          rw [← hs]
          exact S.scalarToBytes_littleEndian s
        split at h
        · rename_i hzero
          refine ⟨by rw [← hs, S.length_serializeScalarArray], ?_⟩
          rw [hval, hzero, ZMod.val_zero]
        · cases h
    · intro h
      -- a string of zeros is canonical
      obtain ⟨s, hs⟩ := S.exists_serializeScalarArray_iff.mpr
        (WirePart.IsForbidden.isCanonical (p := .secretScalar) (S := S) h)
      have hval : s.val = 0 := by
        rw [← S.scalarToBytes_littleEndian s, ← h.2, ← hs]
        rfl
      exact Or.inr ⟨s, S.deserializeScalar_eq_ok_iff.mpr hs, if_pos ((ZMod.val_eq_zero s).mp hval)⟩

/-- A wrapper around an element has the element's format. -/
theorem isCanonicalCodec_of_element {V : Type} {toBytes : V → BytesN ELEMENT_LEN} {point : V → G}
    {mk : G → V}
    (hok : ∀ {buf v}, (S.deserializeElement buf >>= fun P => pure (mk P)) = .ok v ↔
      (toBytes v).toList = buf ∧ point v ≠ 0) :
    IsCanonicalCodec S [.element] toBytes
      (fun buf => S.deserializeElement buf >>= fun P => pure (mk P)) (point · ≠ 0) := by
  have herr : ∀ {buf e}, (S.deserializeElement buf >>= fun P => (pure (mk P) : Except Error V)) =
      .error e ↔ S.deserializeElement buf = .error e := by
    intro buf e
    rw [bind_eq_error_iff]
    simp
  exact isCanonicalCodec_of_part hok (herr.trans S.deserializeElement_eq_deserialize_iff)
    (herr.trans S.deserializeElement_eq_inputValidation_iff)

theorem PublicKey.isCanonicalCodec :
    IsCanonicalCodec S [.element] (PublicKey.toBytes S) (PublicKey.fromBytes S) (·.point ≠ 0) :=
  isCanonicalCodec_of_element S (PublicKey.fromBytes_eq_ok_iff S)

theorem BlindedElement.isCanonicalCodec :
    IsCanonicalCodec S [.element] (BlindedElement.toBytes S) (BlindedElement.fromBytes S)
      (·.point ≠ 0) :=
  isCanonicalCodec_of_element S (BlindedElement.fromBytes_eq_ok_iff S)

theorem EvaluatedElement.isCanonicalCodec :
    IsCanonicalCodec S [.element] (EvaluatedElement.toBytes S) (EvaluatedElement.fromBytes S)
      (·.point ≠ 0) :=
  isCanonicalCodec_of_element S (EvaluatedElement.fromBytes_eq_ok_iff S)

/-- A parser of two halves reports the first one that fails. -/
theorem parseHalves_eq_error_iff {A B V : Type} {parseA : Bytes → Except Error A}
    {parseB : Bytes → Except Error B} {mk : A → B → V} {buf : Bytes} {e : Error} :
    (if buf.length ≠ 64 then .error .deserialize
      else parseA (buf.take 32) >>= fun a => parseB (buf.drop 32) >>= fun b => pure (mk a b)) =
        .error e ↔
      buf.length ≠ 64 ∧ e = .deserialize ∨
        buf.length = 64 ∧ (parseA (buf.take 32) = .error e ∨
          (∃ a, parseA (buf.take 32) = .ok a) ∧ parseB (buf.drop 32) = .error e) := by
  by_cases hlen : buf.length = 64
  · simp [hlen, bind_eq_error_iff]
  · simp [hlen, eq_comm]

omit [DecidableEq G] in
/-- A scalar is read from the canonical strings. -/
theorem deserializeScalar_ok_iff_canonical {part : Bytes} :
    (∃ s, S.deserializeScalar part = .ok s) ↔ WirePart.scalar.IsCanonical S part := by
  simp only [S.deserializeScalar_eq_ok_iff]
  exact S.exists_serializeScalarArray_iff

omit [DecidableEq G] in
/-- All other strings fail in one way. -/
theorem deserializeScalar_error_iff_canonical {part : Bytes} {e : Error} :
    S.deserializeScalar part = .error e ↔
      e = .deserialize ∧ ¬WirePart.scalar.IsCanonical S part :=
  S.deserializeScalar_eq_error_iff

omit [DecidableEq G] in
/-- A proof is two scalars, of which none is forbidden. -/
theorem Proof.isCanonicalCodec :
    IsCanonicalCodec S [.scalar, .scalar] (Proof.toBytes S) (Proof.fromBytes S)
      (fun _ => True) := by
  refine isCanonicalCodec_of_parts (by simp [Proof.fromBytes_eq_ok_iff S]) ?_ ?_
  · intro buf
    refine parseHalves_eq_error_iff.trans ?_
    rw [deserializeScalar_error_iff_canonical, deserializeScalar_error_iff_canonical,
      deserializeScalar_ok_iff_canonical]
    tauto
  · intro buf
    refine parseHalves_eq_error_iff.trans ?_
    rw [deserializeScalar_error_iff_canonical, deserializeScalar_error_iff_canonical]
    simp [WirePart.IsForbidden]

/-- A state is a blind and a tweaked key. The source refuses the identity as the key, and accepts
zero as the blind. -/
theorem PoprfBlindState.isCanonicalCodec :
    IsCanonicalCodec S [.scalar, .element] (PoprfBlindState.toBytes S)
      (PoprfBlindState.fromBytes S) (·.tweakedKey ≠ 0) := by
  refine isCanonicalCodec_of_parts (PoprfBlindState.fromBytes_eq_ok_iff S) ?_ ?_
  · intro buf
    refine parseHalves_eq_error_iff.trans ?_
    rw [deserializeScalar_error_iff_canonical, deserializeScalar_ok_iff_canonical,
      S.deserializeElement_eq_deserialize_iff]
    have helement : (∃ P, S.serializeElement P = buf.drop 32) ↔
        WirePart.element.IsCanonical S (buf.drop 32) := Iff.rfl
    rw [helement]
    tauto
  · intro buf
    refine parseHalves_eq_error_iff.trans ?_
    rw [deserializeScalar_error_iff_canonical, deserializeScalar_ok_iff_canonical,
      S.deserializeElement_eq_inputValidation_iff]
    have hforbidden : buf.drop 32 = S.serializeElement 0 →
        WirePart.element.IsCanonical S (buf.drop 32) := fun h => ⟨0, h.symm⟩
    simp only [WirePart.IsForbidden, reduceCtorEq, and_false, false_and, false_or]
    tauto

/-- The six wire formats are canonical: each accepted string is the encoding of one valid value, and
the error of a rejected string says whether its encoding or its value is wrong. -/
theorem wireFormats_canonical (S : Suite G) :
    IsCanonicalCodec S [.secretScalar] (SecretKey.toBytes S) (SecretKey.fromBytes S)
        (·.scalar ≠ 0) ∧
      IsCanonicalCodec S [.element] (PublicKey.toBytes S) (PublicKey.fromBytes S) (·.point ≠ 0) ∧
      IsCanonicalCodec S [.element] (BlindedElement.toBytes S) (BlindedElement.fromBytes S)
        (·.point ≠ 0) ∧
      IsCanonicalCodec S [.element] (EvaluatedElement.toBytes S) (EvaluatedElement.fromBytes S)
        (·.point ≠ 0) ∧
      IsCanonicalCodec S [.scalar, .scalar] (Proof.toBytes S) (Proof.fromBytes S) (fun _ => True) ∧
      IsCanonicalCodec S [.scalar, .element] (PoprfBlindState.toBytes S)
        (PoprfBlindState.fromBytes S) (·.tweakedKey ≠ 0) :=
  ⟨SecretKey.isCanonicalCodec S, PublicKey.isCanonicalCodec S, BlindedElement.isCanonicalCodec S,
    EvaluatedElement.isCanonicalCodec S, Proof.isCanonicalCodec S,
    PoprfBlindState.isCanonicalCodec S⟩

end PoprfRistretto
