import PoprfRistretto.Util

/-!
# Group operations

The model of `group.rs`. Scalars and points are those of the suite; the `subtle::Choice` of a
constant-time comparison is a `Bool`.
-/

namespace PoprfRistretto

/-- Serialized length of a ristretto255 element (`Ne`). -/
abbrev ELEMENT_LEN : ℕ := 32

/-- Serialized length of a ristretto255 scalar (`Ns`). -/
abbrev SCALAR_LEN : ℕ := 32

/-! ## Scalars -/

def scalarAdd (a b : Scalar) : Scalar := a + b

def scalarSub (a b : Scalar) : Scalar := a - b

def scalarMulScalar (a b : Scalar) : Scalar := a * b

/-- Whether a scalar is zero; the source compares in constant time. -/
def scalarIsZero (scalar : Scalar) : Bool := scalar = 0

@[simp] theorem scalarIsZero_iff {s : Scalar} : scalarIsZero s = true ↔ s = 0 := by
  simp [scalarIsZero]

/-- `RandomScalar()`: draw until the scalar is nonzero. `none` means that `fuel` draws were all
zero; the source loops on. -/
def randomScalar {R : Type} [Rng R] : ℕ → R → Option (Scalar × R)
  | 0, _ => none
  | fuel + 1, rng =>
    let (s, rng) := Rng.scalarRandom rng
    if s = 0 then randomScalar fuel rng else some (s, rng)

/-- The loop draws again until the scalar is not zero. -/
theorem randomScalar_ne_zero {R : Type} [Rng R] {fuel : ℕ} {rng rng' : R} {s : Scalar}
    (h : randomScalar fuel rng = some (s, rng')) : s ≠ 0 := by
  induction fuel generalizing rng with
  | zero => simp [randomScalar] at h
  | succ fuel ih =>
    simp only [randomScalar] at h
    split at h
    · exact ih h
    · rename_i hs
      cases h
      exact hs

/-! ## Elements -/

section Elements

variable {G : Type} [AddCommGroup G]

abbrev identity : G := 0

def scalarMul [Module Scalar G] (scalar : Scalar) (element : G) : G := scalar • element

def elementAdd (a b : G) : G := a + b

def isIdentity [DecidableEq G] (element : G) : Bool := element = identity

@[simp] theorem isIdentity_iff [DecidableEq G] {P : G} : isIdentity P = true ↔ P = 0 := by
  simp [isIdentity]

@[simp] theorem scalarMul_eq [Module Scalar G] (s : Scalar) (P : G) : scalarMul s P = s • P := rfl

@[simp] theorem elementAdd_eq (P Q : G) : elementAdd P Q = P + Q := rfl

end Elements

@[simp] theorem scalarAdd_eq (a b : Scalar) : scalarAdd a b = a + b := rfl

@[simp] theorem scalarSub_eq (a b : Scalar) : scalarSub a b = a - b := rfl

@[simp] theorem scalarMulScalar_eq (a b : Scalar) : scalarMulScalar a b = a * b := rfl

/-! ## Operations that go through a dependency -/

namespace Suite

variable {G : Type} [AddCommGroup G] [Module Scalar G] (S : Suite G)

def generator : G := S.basepoint

def scalarMulGen (scalar : Scalar) : G := scalar • S.basepoint

def scalarInvert (scalar : Scalar) : Scalar := S.invert scalar

/-- A caller-supplied base point prepared for repeated multiplication: a windowed table under
`precomputed-tables`, else the bare point. -/
inductive FixedBase where
  | table (t : S.BasepointTable)
  | point (P : G)

/-- Prepare `p` for repeated `scalar * p`. -/
def fixedBase (F : Features) (p : G) : S.FixedBase :=
  if F.precomputedTables then .table (S.createTable p) else .point p

/-- `scalar * base` where `base` came from `fixedBase`. -/
def scalarMulFixed (scalar : Scalar) : S.FixedBase → G
  | .table t => S.mulTable scalar t
  | .point P => scalar • P

/-- `HashToGroup(input, dst)`. -/
def hashToGroup (inputs : List Bytes) (dst : Bytes) : G :=
  S.fromUniformBytes (S.expandMessage inputs dst)

/-- `HashToScalar(input, dst)`. -/
def hashToScalar (inputs : List Bytes) (dst : Bytes) : Scalar :=
  S.fromBytesModOrderWide (S.expandMessage inputs dst)

/-- `SerializeElement(A)`. -/
def serializeElement (element : G) : Bytes := (S.compress element).toList

/-- `SerializeElement(A)` to a fixed-size array. -/
def serializeElementArray (element : G) : BytesN ELEMENT_LEN := S.compress element

/-- `DeserializeElement(buf)`. -/
def deserializeElement [DecidableEq G] (buf : Bytes) : Except Error G :=
  if h : buf.length = ELEMENT_LEN then
    match S.decompress ⟨buf, h⟩ with
    | none => .error .deserialize
    | some point => if point = identity then .error .inputValidation else .ok point
  else .error .deserialize

/-- `SerializeScalar(s)` to a fixed-size array. -/
def serializeScalarArray (scalar : Scalar) : BytesN SCALAR_LEN := S.scalarToBytes scalar

/-- `DeserializeScalar(buf)`. -/
def deserializeScalar (buf : Bytes) : Except Error Scalar :=
  if h : buf.length = SCALAR_LEN then
    match S.fromCanonicalBytes ⟨buf, h⟩ with
    | none => .error .deserialize
    | some s => .ok s
  else .error .deserialize

/-- `Σ scalars[i] · points[i]`. -/
def msm (scalars : List Scalar) (points : List G) : G := S.vartimeMultiscalarMul scalars points

/-! ### What the operations compute -/

@[simp] theorem generator_eq : S.generator = S.basepoint := rfl

@[simp] theorem scalarMulGen_eq (s : Scalar) : S.scalarMulGen s = s • S.basepoint := rfl

/-- On nonzero scalars the inversion is that of the field. -/
theorem scalarInvert_eq_inv {s : Scalar} (hs : s ≠ 0) : S.scalarInvert s = s⁻¹ :=
  eq_inv_of_mul_eq_one_left (S.invert_mul_cancel s hs)

/-- A table of a point multiplies that point, in both builds. -/
@[simp] theorem scalarMulFixed_fixedBase (F : Features) (s : Scalar) (P : G) :
    S.scalarMulFixed s (S.fixedBase F P) = s • P := by
  unfold fixedBase
  split
  · exact S.mulTable_createTable s P
  · rfl

/-- On lists of one length, a multiscalar multiplication is the sum of the multiples. -/
theorem msm_eq_sum {ss : List Scalar} {Ps : List G} (h : ss.length = Ps.length) :
    S.msm ss Ps = (List.zipWith (· • ·) ss Ps).sum :=
  S.vartimeMultiscalarMul_eq_sum ss Ps h

/-- Only a zero scalar sends the generator to the identity. -/
theorem smul_basepoint_eq_zero_iff {k : Scalar} : k • S.basepoint = 0 ↔ k = 0 := by
  rw [smul_eq_zero, or_iff_left S.basepoint_ne_zero]

/-! ### Encodings -/

/-- What is compressed can be decompressed. -/
theorem decompress_compress (P : G) : S.decompress (S.compress P) = some P :=
  (S.decompress_eq_some_iff _ P).mpr rfl

/-- Different points are compressed to different strings. -/
theorem compress_injective : Function.Injective S.compress := by
  intro P Q h
  have hP := S.decompress_compress P
  rw [h, S.decompress_compress] at hP
  exact (Option.some.inj hP).symm

/-- Different elements have different encodings. -/
theorem serializeElement_injective : Function.Injective S.serializeElement := fun _ _ h =>
  S.compress_injective (List.Vector.eq _ _ h)

@[simp] theorem length_serializeElement (P : G) : (S.serializeElement P).length = 32 :=
  (S.compress P).2

@[simp] theorem toList_serializeElementArray (P : G) :
    (S.serializeElementArray P).toList = S.serializeElement P := rfl

/-- An element is read back unless it is the identity, which parses to a validation error. -/
theorem deserializeElement_serializeElement [DecidableEq G] (P : G) :
    S.deserializeElement (S.serializeElement P) =
      if P = 0 then .error .inputValidation else .ok P := by
  have hlen : (S.serializeElement P).length = ELEMENT_LEN := S.length_serializeElement P
  have hdec : S.decompress ⟨S.serializeElement P, hlen⟩ = some P := S.decompress_compress P
  simp only [deserializeElement, dif_pos hlen, hdec]

/-- The encoding of an element other than the identity is read back. -/
theorem deserializeElement_of_ne_zero [DecidableEq G] {P : G} (hP : P ≠ 0) :
    S.deserializeElement (S.serializeElement P) = .ok P := by
  rw [deserializeElement_serializeElement, if_neg hP]

/-- The parser accepts exactly the encodings of non-identity elements. -/
theorem deserializeElement_eq_ok_iff [DecidableEq G] {buf : Bytes} {P : G} :
    S.deserializeElement buf = .ok P ↔ S.serializeElement P = buf ∧ P ≠ 0 := by
  constructor
  · intro h
    unfold deserializeElement at h
    split at h
    · rename_i hlen
      split at h
      · cases h
      · rename_i Q hQ
        split at h
        · cases h
        · rename_i hne
          cases h
          have hcomp := (S.decompress_eq_some_iff _ P).mp hQ
          exact ⟨congrArg List.Vector.toList hcomp, hne⟩
    · cases h
  · rintro ⟨rfl, hP⟩
    exact S.deserializeElement_of_ne_zero hP

/-- A string that is no encoding of an element fails to parse. -/
theorem deserializeElement_eq_deserialize_iff [DecidableEq G] {buf : Bytes} :
    S.deserializeElement buf = .error .deserialize ↔ ¬∃ P, S.serializeElement P = buf := by
  constructor
  · rintro h ⟨P, rfl⟩
    rw [deserializeElement_serializeElement] at h
    split at h <;> cases h
  · intro h
    unfold deserializeElement
    split
    · rename_i hlen
      split
      · rfl
      · rename_i P hP
        have hcomp := (S.decompress_eq_some_iff _ P).mp hP
        exact absurd ⟨P, congrArg List.Vector.toList hcomp⟩ h
    · rfl

/-- Only the encoding of the identity parses to a validation error. -/
theorem deserializeElement_eq_inputValidation_iff [DecidableEq G] {buf : Bytes} :
    S.deserializeElement buf = .error .inputValidation ↔ buf = S.serializeElement 0 := by
  constructor
  · intro h
    by_cases henc : ∃ P, S.serializeElement P = buf
    · obtain ⟨P, rfl⟩ := henc
      by_cases hP : P = 0
      · rw [hP]
      · rw [S.deserializeElement_of_ne_zero hP] at h
        cases h
    · rw [S.deserializeElement_eq_deserialize_iff.mpr henc] at h
      cases h
  · rintro rfl
    rw [deserializeElement_serializeElement, if_pos rfl]

@[simp] theorem length_serializeScalarArray (s : Scalar) :
    (S.serializeScalarArray s).toList.length = 32 := (S.serializeScalarArray s).2

/-- Every scalar is read back. -/
@[simp] theorem deserializeScalar_serializeScalarArray (s : Scalar) :
    S.deserializeScalar (S.serializeScalarArray s).toList = .ok s := by
  have hlen : (S.serializeScalarArray s).toList.length = SCALAR_LEN :=
    S.length_serializeScalarArray s
  have hdec : S.fromCanonicalBytes ⟨(S.serializeScalarArray s).toList, hlen⟩ = some s :=
    (S.fromCanonicalBytes_eq_some_iff _ s).mpr rfl
  simp only [deserializeScalar, dif_pos hlen, hdec]

/-- The parser accepts exactly the encodings of scalars, zero included. -/
theorem deserializeScalar_eq_ok_iff {buf : Bytes} {s : Scalar} :
    S.deserializeScalar buf = .ok s ↔ (S.serializeScalarArray s).toList = buf := by
  constructor
  · intro h
    unfold deserializeScalar at h
    split at h
    · split at h
      · cases h
      · rename_i t ht
        cases h
        exact congrArg List.Vector.toList ((S.fromCanonicalBytes_eq_some_iff _ s).mp ht)
    · cases h
  · rintro rfl
    exact S.deserializeScalar_serializeScalarArray s

/-- The encodings of scalars are the 32-byte integers below the group order. -/
theorem exists_serializeScalarArray_iff {buf : Bytes} :
    (∃ s, (S.serializeScalarArray s).toList = buf) ↔
      buf.length = SCALAR_LEN ∧ LittleEndian.ofLe buf < ORDER := by
  constructor
  · rintro ⟨s, rfl⟩
    refine ⟨S.length_serializeScalarArray s, ?_⟩
    rw [serializeScalarArray, S.scalarToBytes_littleEndian]
    exact ZMod.val_lt s
  · rintro ⟨hlen, hlt⟩
    refine ⟨(LittleEndian.ofLe buf : Scalar), LittleEndian.ofLe_injective_of_length ?_ ?_⟩
    · rw [length_serializeScalarArray, hlen]
    · rw [serializeScalarArray, S.scalarToBytes_littleEndian, ZMod.val_cast_of_lt hlt]

/-- The scalar parser raises one error, on strings that are no encoding. -/
theorem deserializeScalar_eq_error_iff {buf : Bytes} {e : Error} :
    S.deserializeScalar buf = .error e ↔
      e = .deserialize ∧ ¬(buf.length = SCALAR_LEN ∧ LittleEndian.ofLe buf < ORDER) := by
  rw [← S.exists_serializeScalarArray_iff]
  constructor
  · intro h
    refine ⟨?_, ?_⟩
    · unfold deserializeScalar at h
      split at h
      · split at h
        · cases h; rfl
        · cases h
      · cases h; rfl
    · rintro ⟨s, rfl⟩
      rw [deserializeScalar_serializeScalarArray] at h
      cases h
  · rintro ⟨rfl, h⟩
    unfold deserializeScalar
    split
    · split
      · rfl
      · rename_i s hs
        have henc := (S.fromCanonicalBytes_eq_some_iff _ s).mp hs
        -- what the library accepts is the encoding of what it returns
        exact absurd ⟨s, congrArg List.Vector.toList henc⟩ h
    · rfl

/-- Hashing to a scalar reads the concatenation of the slices. -/
theorem hashToScalar_flatten (inputs : List Bytes) (dst : Bytes) :
    S.hashToScalar inputs dst = S.hashToScalar [inputs.flatten] dst := by
  rw [hashToScalar, hashToScalar, S.expandMessage_flatten]

end Suite

end PoprfRistretto
