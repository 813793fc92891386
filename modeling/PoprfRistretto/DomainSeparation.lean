import PoprfRistretto.DleqTheorems
import PoprfRistretto.Poprf.Functionality

/-!
# Separation of the hash inputs

`hash_to_scalar` makes the tweak, the weights and the challenges under one domain separation tag, and
bare SHA-512 makes the seeds and the outputs under none. What keeps them apart is the framing of the
hashed strings: each string determines which of the values it is hashed for, and from what.
-/

namespace PoprfRistretto

open PrefixCode

variable {G : Type} [AddCommGroup G] [Module Scalar G]

/-- A byte string that passes `check_lp_len`. -/
abbrev LpBytes := {buf : Bytes // buf.length ≤ MAX_LP_LEN}

/-- What `hash_to_scalar` hashes under `HASH_TO_SCALAR_DST`. -/
inductive ScalarInput (G : Type) where
  /-- The framed `info`, hashed to the tweak `m`. -/
  | tweak (info : LpBytes)
  /-- The transcript of `composite_di`, hashed to a weight `dᵢ`. -/
  | weight (seed : BytesN 64) (i : Fin 65536) (ci diPt : G)
  /-- The transcript of a proof, hashed to its challenge. -/
  | challenge (b m z t2 t3 : G)

/-- What bare SHA-512 hashes. -/
inductive DigestInput (G : Type) where
  /-- The transcript of `composite_seed`. -/
  | seed (b : G)
  /-- The preimage of an output. -/
  | output (input info : LpBytes) (issued : G)

namespace Suite

variable (S : Suite G)

/-- The slices of `composite_di` as one string. -/
def compositeTranscript (seed : Bytes) (i : ℕ) (ci diPt : G) : Bytes :=
  lengthPrefixed seed ++ (i2osp2 i).toList ++ lengthPrefixed (S.serializeElement ci) ++
    lengthPrefixed (S.serializeElement diPt) ++ ascii "Composite"

/-- The transcript of `composite_seed`. -/
def seedTranscript (b : G) : Bytes :=
  lengthPrefixed (S.serializeElement b) ++ lengthPrefixed SEED_DST

/-! ## The strings that the code hashes -/

/-- A weight is the hash of its transcript. -/
theorem compositeDi_eq (seed : BytesN 64) (i : ℕ) (ci diPt : G) :
    S.compositeDi (i2osp2 64) seed.toList i (i2osp2 ELEMENT_LEN) ci diPt =
      S.hashToScalar [S.compositeTranscript seed.toList i ci diPt] HASH_TO_SCALAR_DST := by
  have hflat : [(i2osp2 64).toList, seed.toList, (i2osp2 i).toList, (i2osp2 ELEMENT_LEN).toList,
      S.serializeElement ci, (i2osp2 ELEMENT_LEN).toList, S.serializeElement diPt,
      ascii "Composite"].flatten = S.compositeTranscript seed.toList i ci diPt := by
    simp only [compositeTranscript, lengthPrefixed, length_serializeElement,
      List.Vector.toList_length, List.flatten_cons, List.flatten_nil, List.append_nil,
      List.append_assoc]
  rw [compositeDi, S.hashToScalar_flatten, hflat]

/-- The seed of the weights is the hash of its transcript. -/
theorem compositeSeed_eq (b : G) :
    S.compositeSeed b = (S.sha512 (S.seedTranscript b)).toList := by
  simp only [compositeSeed, appendLp_eq, List.nil_append]
  rfl

/-! ## Injectivity of one family -/

/-- Infos that fit their prefix are framed differently. -/
theorem framedInfo_inj {info info' : Bytes} (hinfo : info.length ≤ MAX_LP_LEN)
    (hinfo' : info'.length ≤ MAX_LP_LEN) (h : framedInfo info = framedInfo info') :
    info = info' := by
  simp only [framedInfo, List.append_assoc] at h
  have hprefixed := List.append_cancel_left h
  have happend : lengthPrefixed info ++ [] = lengthPrefixed info' ++ [] := by
    rw [List.append_nil, List.append_nil]
    exact hprefixed
  exact (isPrefixCodeOn_lengthPrefixed (le_of_le_max_lp_len hinfo) (le_of_le_max_lp_len hinfo')
    happend).1

/-- Seeds, indices and points that fit their prefixes make different weights' transcripts. -/
theorem compositeTranscript_inj {seed seed' : BytesN 64} {i i' : Fin 65536} {ci diPt ci' diPt' : G}
    (h : S.compositeTranscript seed.toList i ci diPt =
      S.compositeTranscript seed'.toList i' ci' diPt') :
    seed = seed' ∧ i = i' ∧ ci = ci' ∧ diPt = diPt' := by
  have hfits : ∀ s : BytesN 64, s.toList.length ≤ 65535 := fun s => by
    rw [List.Vector.toList_length]; norm_num
  simp only [compositeTranscript, List.append_assoc] at h
  obtain ⟨hseed, h⟩ := isPrefixCodeOn_lengthPrefixed (hfits seed) (hfits seed') h
  obtain ⟨hi, h⟩ := List.append_inj h (by rw [length_i2osp2, length_i2osp2])
  obtain ⟨hci, h⟩ := S.lengthPrefixed_element_append_inj h
  obtain ⟨hdi, -⟩ := S.lengthPrefixed_element_append_inj h
  have hindex : (i : ℕ) = i' :=
    i2osp2_injOn (Nat.le_of_lt_succ i.isLt) (Nat.le_of_lt_succ i'.isLt) (List.Vector.eq _ _ hi)
  exact ⟨List.Vector.eq _ _ hseed, Fin.ext hindex, hci, hdi⟩

/-- The transcript of the seed determines the public key. -/
theorem seedTranscript_inj {b b' : G} (h : S.seedTranscript b = S.seedTranscript b') : b = b' :=
  (S.lengthPrefixed_element_append_inj h).1

end Suite

/-! ## Separation of the families -/

/-- The first two bytes of a string that `hash_to_scalar` hashes: a letter pair or a length. -/
def ScalarInput.tag : ScalarInput G → Bytes
  | .tweak _ => ascii "In"
  | .weight _ _ _ _ => (i2osp2 64).toList
  | .challenge _ _ _ _ _ => (i2osp2 32).toList

/-- The hashed string. -/
def ScalarInput.bytes (S : Suite G) : ScalarInput G → Bytes
  | .tweak info => framedInfo info
  | .weight seed i ci diPt => S.compositeTranscript seed.toList i ci diPt
  | .challenge b m z t2 t3 => S.challengeTranscript b m z t2 t3

/-- The hashed string. -/
def DigestInput.bytes (S : Suite G) : DigestInput G → Bytes
  | .seed b => S.seedTranscript b
  | .output input info issued => finalizePreimage input info (S.serializeElement issued)

/-- What is hashed to a scalar starts with the tag of its kind. -/
theorem ScalarInput.take_bytes (S : Suite G) (x : ScalarInput G) : (x.bytes S).take 2 = x.tag := by
  cases x with
  | tweak info =>
    have hinfo : ascii "Info" = ascii "In" ++ ascii "fo" := by decide
    show (framedInfo info.val).take 2 = _
    rw [framedInfo, hinfo, List.append_assoc, List.append_assoc]
    exact List.take_left' (by decide)
  | weight seed i ci diPt =>
    show (S.compositeTranscript seed.toList i ci diPt).take 2 = _
    simp only [Suite.compositeTranscript, lengthPrefixed, List.Vector.toList_length,
      List.append_assoc]
    exact List.take_left' (length_i2osp2 64)
  | challenge b m z t2 t3 =>
    show (S.challengeTranscript b m z t2 t3).take 2 = _
    simp only [Suite.challengeTranscript, lengthPrefixed, Suite.length_serializeElement,
      List.append_assoc]
    exact List.take_left' (length_i2osp2 32)

/-- A string that `hash_to_scalar` hashes determines the value it is hashed for and its arguments. -/
theorem ScalarInput.bytes_injective (S : Suite G) : Function.Injective (ScalarInput.bytes S) := by
  intro x y h
  have htag : x.tag = y.tag := by
    rw [← x.take_bytes S, ← y.take_bytes S, h]
  -- the first two bytes tell the kinds apart: a text and two different lengths
  have hweight : ascii "In" ≠ (i2osp2 64).toList := by decide
  have hchallenge : ascii "In" ≠ (i2osp2 32).toList := by decide
  have hlengths : (i2osp2 64).toList ≠ (i2osp2 32).toList := by decide
  cases x with
  | tweak info =>
    cases y with
    | tweak info' =>
      have hinfo := Suite.framedInfo_inj info.2 info'.2 h
      rw [Subtype.ext hinfo]
    | weight => exact absurd htag hweight
    | challenge => exact absurd htag hchallenge
  | weight seed i ci diPt =>
    cases y with
    | tweak => exact absurd htag.symm hweight
    | weight seed' i' ci' diPt' =>
      obtain ⟨rfl, rfl, rfl, rfl⟩ := S.compositeTranscript_inj h
      rfl
    | challenge => exact absurd htag hlengths
  | challenge b m z t2 t3 =>
    cases y with
    | tweak => exact absurd htag.symm hchallenge
    | weight => exact absurd htag.symm hlengths
    | challenge b' m' z' t2' t3' =>
      obtain ⟨rfl, rfl, rfl, rfl, rfl⟩ := S.challengeTranscript_inj h
      rfl

/-- The seed's transcript ends in its tag, an output's preimage in `Finalize`. -/
theorem Suite.seedTranscript_ne_finalizePreimage (S : Suite G) (b : G) (input info issued : Bytes) :
    S.seedTranscript b ≠ finalizePreimage input info issued := by
  have hdst : SEED_DST = ascii "Seed-OPRFV1-\x02-ristretto25" ++ ascii "5-SHA512" := by
    decide +kernel
  intro h
  rw [seedTranscript, lengthPrefixed, lengthPrefixed, hdst, ← List.append_assoc, ← List.append_assoc,
    finalizePreimage] at h
  have hlast := (List.append_inj' h (by decide)).2
  exact absurd hlast (by decide)

/-- A string that bare SHA-512 hashes determines the value it is hashed for and its arguments. -/
theorem DigestInput.bytes_injective (S : Suite G) : Function.Injective (DigestInput.bytes S) := by
  intro x y h
  cases x with
  | seed b =>
    cases y with
    | seed b' => rw [S.seedTranscript_inj h]
    | output input info issued => exact absurd h (S.seedTranscript_ne_finalizePreimage b _ _ _)
  | output input info issued =>
    cases y with
    | seed b => exact absurd h.symm (S.seedTranscript_ne_finalizePreimage b _ _ _)
    | output input' info' issued' =>
      have hfits : ∀ P : G, (S.serializeElement P).length ≤ MAX_LP_LEN := fun P => by
        rw [S.length_serializeElement]; decide
      obtain ⟨hinput, hinfo, hissued⟩ := finalizePreimage_inj input.2 info.2 (hfits issued) input'.2
        info'.2 (hfits issued') h
      rw [Subtype.ext hinput, Subtype.ext hinfo, S.serializeElement_injective hissued]

/-- The strings hashed for the tweak, the weights and the challenges under one tag are different for
different values and arguments, and so are those hashed for the seeds and the outputs without a tag.
They are the strings that the code hashes. -/
theorem hash_inputs_separated (S : Suite G) :
    let toScalar := fun x : ScalarInput G => S.hashToScalar [x.bytes S] HASH_TO_SCALAR_DST
    let digest := fun x : DigestInput G => S.sha512 (x.bytes S)
    Function.Injective (ScalarInput.bytes S) ∧ Function.Injective (DigestInput.bytes S) ∧
    (∀ info : LpBytes, S.tweak info = toScalar (.tweak info)) ∧
    (∀ (seed : BytesN 64) (i : Fin 65536) (ci diPt : G),
      S.compositeDi (i2osp2 64) seed.toList i (i2osp2 ELEMENT_LEN) ci diPt =
        toScalar (.weight seed i ci diPt)) ∧
    (∀ F k a b cList dList r,
      let (m, z) := S.computeCompositesFast F k b cList dList
      (S.generateProofWithR F k a b cList dList r).c = toScalar (.challenge b m z (r • a) (r • m))) ∧
    (∀ F a b cList dList proof,
      let (m, z) := S.computeComposites F b cList dList
      S.verifyProof F a b cList dList proof =
        if toScalar (.challenge b m z (proof.s • a + proof.c • b) (proof.s • m + proof.c • z)) =
          proof.c then .ok () else .error .verify) ∧
    (∀ b, S.compositeSeed b = (digest (.seed b)).toList) ∧
    ∀ (input info : LpBytes) (P : G),
      S.finalizeHash input info (S.serializeElement P) = ⟨digest (.output input info P)⟩ := by
  intro toScalar digest
  refine ⟨ScalarInput.bytes_injective S, DigestInput.bytes_injective S, fun info => rfl,
    fun seed i ci diPt => S.compositeDi_eq seed i ci diPt, ?_, ?_, S.compositeSeed_eq,
    fun input info P => S.finalizeHash_eq input info (S.serializeElement P)⟩
  · intro F k a b cList dList r
    rw [S.generateProofWithR_eq F k a b cList dList r rfl]
    rfl
  · intro F a b cList dList proof
    exact S.verifyProof_eq F a b cList dList proof

end PoprfRistretto
