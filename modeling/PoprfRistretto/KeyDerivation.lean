import Mathlib.Data.List.Basic
import PoprfRistretto.Poprf.Codecs
import PoprfRistretto.ReferenceSuite

/-!
# What key derivation computes

`derive_key_pair` hashes the seed, the framed `info` and one counter byte, and takes the first counter
whose hash is not zero. With a real hash the first counter is all that is ever tried; what the loop
does after it is decided here for every hash function.
-/

namespace PoprfRistretto

open ExceptLoop

variable {G : Type} [AddCommGroup G] [Module Scalar G] (S : Suite G)

/-- The string that is hashed for a counter. -/
def deriveInput (seed : BytesN 32) (info : Bytes) (counter : UInt8) : Bytes :=
  seed.toList ++ (i2osp2 info.length).toList ++ info ++ [counter]

/-- The candidate key for a counter. -/
def deriveCandidate (seed : BytesN 32) (info : Bytes) (counter : UInt8) : Scalar :=
  S.hashToScalar [deriveInput seed info counter] DERIVE_KEY_PAIR_DST

/-- The hashed string determines the seed, the `info` and the counter. -/
theorem deriveInput_inj {seed seed' : BytesN 32} {info info' : Bytes} {counter counter' : UInt8}
    (h : deriveInput seed info counter = deriveInput seed' info' counter') :
    seed = seed' ∧ info = info' ∧ counter = counter' := by
  obtain ⟨hfront, hcounter⟩ := List.append_inj' h rfl
  rw [List.append_assoc, List.append_assoc] at hfront
  have hseedLen : seed.toList.length = seed'.toList.length := by
    rw [List.Vector.toList_length, List.Vector.toList_length]
  obtain ⟨hseed, hrest⟩ := List.append_inj hfront hseedLen
  obtain ⟨-, hinfo⟩ := List.append_inj hrest (by rw [length_i2osp2, length_i2osp2])
  exact ⟨List.Vector.eq _ _ hseed, hinfo, List.head_eq_of_cons_eq hcounter⟩

/-! ## The loop -/

/-- The retry loop returns the first counter whose candidate is not zero. The cast of the `u16`
counter to a byte loses nothing on the counters that are tried. -/
theorem deriveLoop_eq_find (seed : BytesN 32) (info : Bytes) (counters : List ℕ) :
    deriveLoop S (seed.toList ++ (i2osp2 info.length).toList ++ info)
        (counters.map UInt16.ofNat) =
      match counters.find? fun c => deriveCandidate S seed info (UInt8.ofNat c) ≠ 0 with
      | none => .error .deriveKeyPair
      | some c =>
        .ok (⟨deriveCandidate S seed info (UInt8.ofNat c)⟩,
          SecretKey.publicKey S ⟨deriveCandidate S seed info (UInt8.ofNat c)⟩) := by
  induction counters with
  | nil => rfl
  | cons c counters ih =>
    have hhash : S.hashToScalar [seed.toList ++ (i2osp2 info.length).toList ++ info,
        (i2osp1 (UInt16.ofNat c).toUInt8).toList] DERIVE_KEY_PAIR_DST =
        deriveCandidate S seed info (UInt8.ofNat c) := by
      rw [S.hashToScalar_flatten, UInt16.toUInt8_ofNat']
      simp [deriveCandidate, deriveInput, i2osp1]
    rw [List.map_cons, deriveLoop, hhash, List.find?_cons]
    by_cases hzero : deriveCandidate S seed info (UInt8.ofNat c) = 0
    · rw [if_pos (scalarIsZero_iff.mpr hzero), decide_eq_false (not_not.mpr hzero), ih]
    · rw [if_neg (mt scalarIsZero_iff.mp hzero), decide_eq_true hzero]

/-- A list of the 256 counters is searched as the bytes are ordered. -/
theorem find_counter_eq_some_iff {p : UInt8 → Prop} [DecidablePred p] {c : ℕ} :
    (List.range 256).find? (fun c => p (UInt8.ofNat c)) = some c ↔
      c < 256 ∧ p (UInt8.ofNat c) ∧ ∀ counter < UInt8.ofNat c, ¬p counter := by
  rw [List.find?_range_eq_some]
  simp only [decide_eq_true_eq, List.mem_range, Bool.not_eq_true', decide_eq_false_iff_not]
  constructor
  · rintro ⟨hp, hc, hbefore⟩
    refine ⟨hc, hp, fun counter hlt => ?_⟩
    have hlt' : counter.toNat < c := by
      rw [UInt8.lt_iff_toNat_lt, UInt8.toNat_ofNat', Nat.mod_eq_of_lt hc] at hlt
      exact hlt
    have h := hbefore counter.toNat hlt'
    rwa [UInt8.ofNat_toNat] at h
  · rintro ⟨hc, hp, hbefore⟩
    refine ⟨hp, hc, fun j hj => hbefore _ ?_⟩
    rw [UInt8.lt_iff_toNat_lt, UInt8.toNat_ofNat', UInt8.toNat_ofNat', Nat.mod_eq_of_lt hc,
      Nat.mod_eq_of_lt (hj.trans hc)]
    exact hj

/-- The search runs through all counters of one byte. -/
theorem find_counter_eq_none_iff {p : UInt8 → Prop} [DecidablePred p] :
    (List.range 256).find? (fun c => p (UInt8.ofNat c)) = none ↔ ∀ counter, ¬p counter := by
  rw [List.find?_range_eq_none]
  simp only [Bool.not_eq_true', decide_eq_false_iff_not]
  constructor
  · intro h counter
    have hc := h counter.toNat counter.toNat_lt
    rwa [UInt8.ofNat_toNat] at hc
  · exact fun h c _ => h (UInt8.ofNat c)

/-! ## Derived keys -/

/-- A nonzero secret key has a public key other than the identity. -/
theorem SecretKey.publicKey_ne_zero {sk : SecretKey} (h : sk.scalar ≠ 0) :
    (sk.publicKey S).point ≠ 0 := fun h0 => h (S.smul_basepoint_eq_zero_iff.mp h0)

/-- A length that passes the check leads into the loop over the 256 counters. -/
theorem deriveKeyPair_of_le (seed : BytesN 32) {info : Bytes} (hinfo : info.length ≤ MAX_LP_LEN) :
    deriveKeyPair S seed info =
      match (List.range 256).find? fun c => deriveCandidate S seed info (UInt8.ofNat c) ≠ 0 with
      | none => .error .deriveKeyPair
      | some c =>
        .ok (⟨deriveCandidate S seed info (UInt8.ofNat c)⟩,
          SecretKey.publicKey S ⟨deriveCandidate S seed info (UInt8.ofNat c)⟩) := by
  unfold deriveKeyPair
  rw [checkLpLen_of_le hinfo, ok_bind]
  exact deriveLoop_eq_find S seed info (List.range 256)

/-- An info that is too long is refused before anything is hashed. -/
theorem deriveKeyPair_of_gt (seed : BytesN 32) {info : Bytes} (hinfo : MAX_LP_LEN < info.length) :
    deriveKeyPair S seed info = .error .inputTooLong := by
  unfold deriveKeyPair
  rw [checkLpLen_of_gt hinfo, error_bind]

/-- The loop stops at the least byte whose candidate is not zero. -/
theorem deriveKeyPair_of_least (seed : BytesN 32) {info : Bytes}
    (hinfo : info.length ≤ MAX_LP_LEN) {counter : UInt8}
    (hne : deriveCandidate S seed info counter ≠ 0)
    (hleast : ∀ counter' < counter, deriveCandidate S seed info counter' = 0) :
    deriveKeyPair S seed info = .ok (⟨deriveCandidate S seed info counter⟩,
      SecretKey.publicKey S ⟨deriveCandidate S seed info counter⟩) := by
  have hfind : (List.range 256).find?
      (fun c => deriveCandidate S seed info (UInt8.ofNat c) ≠ 0) = some counter.toNat := by
    refine (find_counter_eq_some_iff (p := fun c => deriveCandidate S seed info c ≠ 0)).mpr ?_
    rw [UInt8.ofNat_toNat]
    exact ⟨counter.toNat_lt, hne, fun counter' hlt => not_not.mpr (hleast counter' hlt)⟩
  simp only [deriveKeyPair_of_le S seed hinfo, hfind, UInt8.ofNat_toNat]

/-- The loop is exhausted when the candidates of all bytes are zero. -/
theorem deriveKeyPair_of_exhausted (seed : BytesN 32) {info : Bytes}
    (hinfo : info.length ≤ MAX_LP_LEN)
    (hzero : ∀ counter, deriveCandidate S seed info counter = 0) :
    deriveKeyPair S seed info = .error .deriveKeyPair := by
  have hfind : (List.range 256).find?
      (fun c => deriveCandidate S seed info (UInt8.ofNat c) ≠ 0) = none :=
    find_counter_eq_none_iff.mpr fun counter => not_not.mpr (hzero counter)
  rw [deriveKeyPair_of_le S seed hinfo, hfind]

/-- A byte with a property has a least one below it. -/
theorem exists_least_byte {p : UInt8 → Prop} (h : ∃ counter, p counter) :
    ∃ counter, p counter ∧ ∀ counter' < counter, ¬p counter' := by
  classical
  cases hfind : (List.range 256).find? fun c => p (UInt8.ofNat c) with
  | none => exact absurd h (not_exists.mpr (find_counter_eq_none_iff.mp hfind))
  | some c => exact ⟨_, (find_counter_eq_some_iff.mp hfind).2⟩

/-- A derived secret key is not zero, and the public key belongs to it. -/
theorem deriveKeyPair_eq_ok {seed : BytesN 32} {info : Bytes} {sk : SecretKey} {pk : PublicKey G}
    (h : deriveKeyPair S seed info = .ok (sk, pk)) : sk.scalar ≠ 0 ∧ pk = sk.publicKey S := by
  have hinfo : info.length ≤ MAX_LP_LEN := by
    by_contra hgt
    rw [deriveKeyPair_of_gt S seed (Nat.lt_of_not_le hgt)] at h
    cases h
  by_cases hex : ∃ counter, deriveCandidate S seed info counter ≠ 0
  · obtain ⟨counter, hne, hleast⟩ := exists_least_byte hex
    rw [deriveKeyPair_of_least S seed hinfo hne fun c hc => not_not.mp (hleast c hc)] at h
    cases h
    exact ⟨hne, rfl⟩
  · rw [deriveKeyPair_of_exhausted S seed hinfo fun c => not_not.mp (not_exists.mp hex c)] at h
    cases h

variable [DecidableEq G]

/-- Key derivation refuses an overlong `info`, otherwise returns the key of the least counter whose
hash is not zero, and fails when there is none. Different seeds, infos and counters are hashed as
different strings. -/
theorem deriveKeyPair_spec (S : Suite G) (seed : BytesN 32) (info : Bytes) :
    let H := fun msg => S.hashToScalar [msg] DERIVE_KEY_PAIR_DST
    (MAX_LP_LEN < info.length → deriveKeyPair S seed info = .error .inputTooLong) ∧
    (info.length ≤ MAX_LP_LEN →
      ((∃ counter, H (deriveInput seed info counter) ≠ 0) →
        ∃ counter sk pk, H (deriveInput seed info counter) ≠ 0 ∧
          (∀ counter' < counter, H (deriveInput seed info counter') = 0) ∧
          deriveKeyPair S seed info = .ok (sk, pk) ∧
          sk.scalar = H (deriveInput seed info counter) ∧ sk.scalar ≠ 0 ∧
          pk.point = sk.scalar • S.basepoint ∧ pk.point ≠ 0 ∧
          PublicKey.fromBytes S (pk.toBytes S).toList = .ok pk) ∧
      ((∀ counter, H (deriveInput seed info counter) = 0) →
        deriveKeyPair S seed info = .error .deriveKeyPair)) ∧
    ∀ seed' info' counter counter',
      deriveInput seed info counter = deriveInput seed' info' counter' →
        seed = seed' ∧ info = info' ∧ counter = counter' := by
  intro H
  refine ⟨deriveKeyPair_of_gt S seed, fun hinfo => ⟨fun hex => ?_, ?_⟩, ?_⟩
  · obtain ⟨counter, hne, hleast⟩ := exists_least_byte hex
    have hbefore : ∀ counter' < counter, H (deriveInput seed info counter') = 0 := fun c hc =>
      not_not.mp (hleast c hc)
    have hpk : (SecretKey.publicKey S ⟨deriveCandidate S seed info counter⟩).point ≠ 0 :=
      SecretKey.publicKey_ne_zero S hne
    exact ⟨counter, _, _, hne, hbefore, deriveKeyPair_of_least S seed hinfo hne hbefore, rfl, hne,
      rfl, hpk, (PublicKey.fromBytes_eq_ok_iff S).mpr ⟨rfl, hpk⟩⟩
  · exact deriveKeyPair_of_exhausted S seed hinfo
  · intro seed' info' counter counter' h
    exact deriveInput_inj h

/-- A retry on the executable suite: the zero seed with the empty `info` hashes to zero under the
counter `0` and not under `1`. -/
theorem deriveKeyPair_spec_reference :
    let S := referenceSuite
    let seed : BytesN 32 := ⟨List.replicate 32 0, rfl⟩
    deriveCandidate S seed [] 0 = 0 ∧ deriveCandidate S seed [] 1 ≠ 0 ∧
      (∃ sk pk, deriveKeyPair S seed [] = .ok (sk, pk) ∧ sk.scalar ≠ 0) ∧
      deriveKeyPair S seed (List.replicate 65535 0) = .error .inputTooLong := by
  intro S seed
  have hzero : deriveCandidate S seed [] 0 = 0 := by decide +kernel
  have hone : deriveCandidate S seed [] 1 ≠ 0 := by decide +kernel
  obtain ⟨counter, sk, pk, -, -, hres, -, hne, -⟩ :=
    ((deriveKeyPair_spec S seed []).2.1 (by decide)).1 ⟨1, hone⟩
  have hlong : MAX_LP_LEN < (List.replicate 65535 (0 : UInt8)).length := by
    rw [List.length_replicate]
    decide
  exact ⟨hzero, hone, ⟨sk, pk, hres, hne⟩, (deriveKeyPair_spec S seed _).1 hlong⟩

end PoprfRistretto
