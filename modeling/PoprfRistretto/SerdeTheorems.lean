import PoprfRistretto.Serde
import PoprfRistretto.Library.FillLoop

/-!
# The hex codec and the visitors

The hex codec loses nothing and reads either case, over all strings. The visitor of binary formats
accepts the same arrays whether they come as a slice, as a buffer or element by element.
-/

namespace PoprfRistretto

open Utf8 FillLoop

/-! ## Digits and nibbles -/

/-- A decidable property of bytes is checked on the 256 values. -/
theorem forall_byte {p : UInt8 → Prop} (h : ∀ n < 256, p (UInt8.ofNat n)) (b : UInt8) : p b := by
  have hb := h b.toNat b.toNat_lt
  rwa [UInt8.ofNat_toNat] at hb

/-- A hex digit of either case. -/
def IsHexDigit (c : Char) : Prop :=
  ('0' ≤ c ∧ c ≤ '9') ∨ ('a' ≤ c ∧ c ≤ 'f') ∨ ('A' ≤ c ∧ c ≤ 'F')

/-- A hex digit in lower case. -/
def IsLowerHexDigit (c : Char) : Prop := ('0' ≤ c ∧ c ≤ '9') ∨ ('a' ≤ c ∧ c ≤ 'f')

instance : DecidablePred IsHexDigit := fun _ => inferInstanceAs (Decidable (_ ∨ _ ∨ _))

instance : DecidablePred IsLowerHexDigit := fun _ => inferInstanceAs (Decidable (_ ∨ _))

/-- The character that `hex_encode` pushes for a nibble. -/
def hexDigit (n : Fin 16) : Char := Char.ofUInt8 (NIBBLE.get n)

/-- The two characters that `hex_encode` pushes for a byte. -/
def hexPair (b : UInt8) : List Char :=
  [hexDigit ⟨(b >>> 4).toNat, toNat_shiftRight_lt b⟩, hexDigit ⟨(b &&& 0x0f).toNat, toNat_and_lt b⟩]

/-- The byte that `hex_decode` writes for two nibbles. -/
def packNibbles (hi lo : Fin 16) : UInt8 := (UInt8.ofNat hi <<< 4) ||| UInt8.ofNat lo

theorem hexDigit_injective : Function.Injective hexDigit := by decide

/-- The encoder writes lowercase digits. -/
theorem isLowerHexDigit_hexDigit : ∀ n, IsLowerHexDigit (hexDigit n) := by decide

/-- The decoder accepts lowercase digits. -/
theorem isHexDigit_of_isLowerHexDigit {c : Char} (h : IsLowerHexDigit c) : IsHexDigit c :=
  h.imp_right Or.inl

theorem toLower_hexDigit : ∀ n, (hexDigit n).toLower = hexDigit n := by decide

theorem toNat_lt_of_isHexDigit {c : Char} (h : IsHexDigit c) : c.toNat < 128 := by
  have hle : ∀ d : Char, c ≤ d → c.toNat ≤ d.toNat := fun d hd => hd
  rcases h with ⟨-, h⟩ | ⟨-, h⟩ | ⟨-, h⟩
  · exact Nat.lt_of_le_of_lt (hle _ h) (by decide)
  · exact Nat.lt_of_le_of_lt (hle _ h) (by decide)
  · exact Nat.lt_of_le_of_lt (hle _ h) (by decide)

/-- Both nibbles of a byte give it back. -/
theorem packNibbles_nibbles (b : UInt8) :
    packNibbles ⟨(b >>> 4).toNat, toNat_shiftRight_lt b⟩ ⟨(b &&& 0x0f).toNat, toNat_and_lt b⟩ = b := by
  revert b
  exact forall_byte (by decide +kernel)

/-- A byte is written as its two nibbles. -/
theorem hexPair_packNibbles :
    ∀ hi lo, hexPair (packNibbles hi lo) = [hexDigit hi, hexDigit lo] := by
  decide +kernel

/-- The characters of a byte determine it. -/
theorem hexPair_eq_iff {b : UInt8} {hi lo : Fin 16} :
    hexPair b = [hexDigit hi, hexDigit lo] ↔ packNibbles hi lo = b := by
  constructor
  · intro h
    rw [hexPair, List.cons.injEq, List.cons.injEq, hexDigit_injective.eq_iff,
      hexDigit_injective.eq_iff] at h
    obtain ⟨rfl, rfl, -⟩ := h
    exact packNibbles_nibbles b
  · intro h
    rw [← h, hexPair_packNibbles]

/-- A byte that is no hex digit has no nibble. -/
theorem nibbleFromHex_spec (b : UInt8) :
    (IsHexDigit (Char.ofUInt8 b) ∧ ∃ n : Fin 16, nibbleFromHex b = some (UInt8.ofNat n) ∧
      (Char.ofUInt8 b).toLower = hexDigit n) ∨
    (¬IsHexDigit (Char.ofUInt8 b) ∧ nibbleFromHex b = none) := by
  revert b
  exact forall_byte (by decide +kernel)

/-! ## Reading the digits in pairs -/

/-- The bytes that pairs of digits denote. -/
def decodePairs : Bytes → Option Bytes
  | [] => some []
  | [_] => none
  | hi :: lo :: rest => do
    let hi ← nibbleFromHex hi
    let lo ← nibbleFromHex lo
    return ((hi <<< 4) ||| lo) :: (← decodePairs rest)

/-- Two digits are read as the byte whose characters they are, up to case. -/
theorem decodePairs_cons_cons_eq_some_iff {hi lo : UInt8} {rest bs : Bytes} :
    decodePairs (hi :: lo :: rest) = some bs ↔
      ∃ b bs', bs = b :: bs' ∧ (IsHexDigit (Char.ofUInt8 hi) ∧ IsHexDigit (Char.ofUInt8 lo) ∧
        [(Char.ofUInt8 hi).toLower, (Char.ofUInt8 lo).toLower] = hexPair b) ∧
        decodePairs rest = some bs' := by
  rcases nibbleFromHex_spec hi with ⟨hhi, x, hx, hlower⟩ | ⟨hhi, hx⟩
  · rcases nibbleFromHex_spec lo with ⟨hlo, y, hy, hlower'⟩ | ⟨hlo, hy⟩
    · simp only [decodePairs, hx, hy, hhi, hlo, hlower, hlower', true_and, Option.bind_eq_bind,
        Option.bind_some, Option.pure_def, Option.bind_eq_some_iff, Option.some.injEq,
        eq_comm (b := hexPair _), hexPair_eq_iff]
      constructor
      · rintro ⟨bs', hrest, rfl⟩
        exact ⟨_, bs', rfl, rfl, hrest⟩
      · rintro ⟨_, bs', rfl, rfl, hrest⟩
        exact ⟨bs', hrest, rfl⟩
    · simp [decodePairs, hx, hy, hlo]
  · simp [decodePairs, hx, hhi]

/-- Digits denote the bytes whose encoding they are, up to case. -/
theorem decodePairs_eq_some_iff (bytes : Bytes) (bs : Bytes) :
    decodePairs bytes = some bs ↔
      (∀ b ∈ bytes, IsHexDigit (Char.ofUInt8 b)) ∧
        bytes.map (fun b => (Char.ofUInt8 b).toLower) = bs.flatMap hexPair := by
  induction bytes using decodePairs.induct generalizing bs with
  | case1 =>
    cases bs with
    | nil => simp [decodePairs]
    | cons b bs => simp [decodePairs, hexPair]
  | case2 b =>
    cases bs with
    | nil => simp [decodePairs]
    | cons b bs => simp [decodePairs, hexPair]
  | case3 hi lo rest ih =>
    rw [decodePairs_cons_cons_eq_some_iff, List.forall_mem_cons, List.forall_mem_cons]
    constructor
    · rintro ⟨b, bs', rfl, ⟨hhi, hlo, hpair⟩, hrest⟩
      obtain ⟨hdigits, hmap⟩ := (ih bs').mp hrest
      refine ⟨⟨hhi, hlo, hdigits⟩, ?_⟩
      rw [List.flatMap_cons, ← hpair, ← hmap]
      rfl
    · rintro ⟨⟨hhi, hlo, hdigits⟩, hmap⟩
      cases bs with
      | nil => cases hmap
      | cons b bs' =>
        rw [List.flatMap_cons, hexPair, List.map_cons, List.map_cons] at hmap
        injection hmap with h₁ hmap
        injection hmap with h₂ hmap
        refine ⟨b, bs', rfl, ⟨hhi, hlo, ?_⟩, (ih bs').mpr ⟨hdigits, hmap⟩⟩
        rw [h₁, h₂, hexPair]

/-- Digits denote half as many bytes. -/
theorem length_of_decodePairs_eq_some {bytes bs : Bytes} (h : decodePairs bytes = some bs) :
    bytes.length = bs.length * 2 := by
  have hmap := congrArg List.length ((decodePairs_eq_some_iff bytes bs).mp h).2
  have hpair : (bs.map fun b => (hexPair b).length).sum = bs.length * 2 := by
    simp [hexPair]
  rwa [List.length_map, List.length_flatMap, hpair] at hmap

/-- An even number of hex digits denotes bytes. -/
theorem exists_decodePairs_eq_some {bytes : Bytes} {n : ℕ} (hlen : bytes.length = n * 2)
    (h : ∀ b ∈ bytes, IsHexDigit (Char.ofUInt8 b)) : ∃ bs, decodePairs bytes = some bs := by
  induction bytes using decodePairs.induct generalizing n with
  | case1 => exact ⟨[], rfl⟩
  | case2 b =>
    rw [List.length_singleton] at hlen
    omega
  | case3 hi lo rest ih =>
    rw [List.length_cons, List.length_cons] at hlen
    rw [List.forall_mem_cons, List.forall_mem_cons] at h
    have hrest : rest.length = (n - 1) * 2 := by omega
    obtain ⟨bs, hbs⟩ := ih hrest h.2.2
    rcases nibbleFromHex_spec hi with ⟨-, x, hx, -⟩ | ⟨hhi, -⟩
    · rcases nibbleFromHex_spec lo with ⟨-, y, hy, -⟩ | ⟨hlo, -⟩
      · refine ⟨((UInt8.ofNat x <<< 4) ||| UInt8.ofNat y) :: bs, ?_⟩
        simp [decodePairs, hx, hy, hbs]
      · exact absurd h.2.1 hlo
    · exact absurd h.1 hhi

/-! ## The loop of `hex_decode` -/

/-- What a round of `hex_decode` writes. -/
def hexDecodeRound (bytes : Bytes) (i : ℕ) : OptionT (Except Panic) UInt8 := do
  let hi ← OptionT.mk (nibbleFromHex <$> indexSlice bytes (2 * i))
  let lo ← OptionT.mk (nibbleFromHex <$> indexSlice bytes (2 * i + 1))
  return (hi <<< 4) ||| lo

/-- What it writes for two digits. -/
def decodePair (hi lo : UInt8) : Option UInt8 := do
  let hi ← nibbleFromHex hi
  let lo ← nibbleFromHex lo
  return (hi <<< 4) ||| lo

/-- The loop collects its rounds. -/
theorem hexDecode_eq_mOfFn {N : ℕ} {s : String} (hlen : (utf8Bytes s).length = N * 2) :
    hexDecode N s = List.Vector.mOfFn fun i : Fin N => hexDecodeRound (utf8Bytes s) i := by
  rw [hexDecode, if_neg (not_not_intro hlen), ← foldlM_set_finRange _ (List.Vector.replicate N 0)]
  simp only [hexDecodeRound, bind_assoc, pure_bind]

/-- An index within the slice does not panic. -/
theorem indexSlice_of_lt {bytes : Bytes} {k : ℕ} (hk : k < bytes.length) :
    indexSlice bytes k = .ok (bytes.getD k 0) := by
  rw [indexSlice, List.getD_eq_getElem?_getD, List.getElem?_eq_getElem hk]
  rfl

/-- A round below half the length stays within bounds. -/
theorem hexDecodeRound_of_lt {bytes : Bytes} {i : ℕ} (hi : 2 * i + 1 < bytes.length) :
    hexDecodeRound bytes i =
      OptionT.mk (pure (decodePair (bytes.getD (2 * i) 0) (bytes.getD (2 * i + 1) 0))) := by
  have hlo : 2 * i < bytes.length := Nat.lt_of_succ_lt hi
  have hmap : ∀ b, (nibbleFromHex <$> Except.ok b : Except Panic _) = .ok (nibbleFromHex b) :=
    fun _ => rfl
  rw [hexDecodeRound, indexSlice_of_lt hi, indexSlice_of_lt hlo, hmap, hmap, decodePair]
  apply OptionT.ext
  cases nibbleFromHex (bytes.getD (2 * i) 0) with
  | none => rfl
  | some hi =>
    cases nibbleFromHex (bytes.getD (2 * i + 1) 0) with
    | none => rfl
    | some lo => rfl

/-- The rounds collect the bytes that the pairs of digits denote. -/
theorem map_mOfFn_decodePair {N : ℕ} {bytes : Bytes} (hlen : bytes.length = N * 2) :
    (List.Vector.mOfFn fun i : Fin N =>
      decodePair (bytes.getD (2 * i) 0) (bytes.getD (2 * i + 1) 0)).map List.Vector.toList =
      decodePairs bytes := by
  induction N generalizing bytes with
  | zero =>
    rw [List.length_eq_zero_iff.mp hlen]
    rfl
  | succ N ih =>
    match bytes, hlen with
    | [_], hlen =>
      rw [List.length_singleton] at hlen
      omega
    | hi :: lo :: rest, hlen =>
      have hrest : rest.length = N * 2 := by
        rw [List.length_cons, List.length_cons] at hlen
        omega
      -- the round `0` reads the first pair, the round `i + 1` the pair `i` of the rest
      have hhead : decodePair ((hi :: lo :: rest).getD (2 * ((0 : Fin (N + 1)) : ℕ)) 0)
          ((hi :: lo :: rest).getD (2 * ((0 : Fin (N + 1)) : ℕ) + 1) 0) = decodePair hi lo := rfl
      have htail : (fun i : Fin N => decodePair ((hi :: lo :: rest).getD (2 * (i.succ : ℕ)) 0)
          ((hi :: lo :: rest).getD (2 * (i.succ : ℕ) + 1) 0)) =
          fun i : Fin N => decodePair (rest.getD (2 * i) 0) (rest.getD (2 * i + 1) 0) := rfl
      rw [decodePairs, ← ih hrest, List.Vector.mOfFn, hhead, htail, decodePair]
      simp only [Option.bind_eq_bind, Option.pure_def, Option.map_bind, Option.bind_map, Option.bind_assoc,
        Option.bind_some, Function.comp_def, Option.map_some, List.Vector.toList_cons]

/-- `hex_decode` never indexes out of bounds, and reads the pairs of digits. -/
theorem run_hexDecode {N : ℕ} {s : String} (hlen : (utf8Bytes s).length = N * 2) :
    ∃ out, (hexDecode N s).run = .ok out ∧
      out.map List.Vector.toList = decodePairs (utf8Bytes s) := by
  refine ⟨_, ?_, map_mOfFn_decodePair hlen⟩
  rw [hexDecode_eq_mOfFn hlen]
  have hround : (fun i : Fin N => hexDecodeRound (utf8Bytes s) i) = fun i : Fin N => OptionT.mk
      (pure (decodePair ((utf8Bytes s).getD (2 * i) 0) ((utf8Bytes s).getD (2 * i + 1) 0))) := by
    funext i
    apply hexDecodeRound_of_lt
    omega
  rw [hround, mOfFn_mk_pure]
  rfl

/-- A string of the wrong length is refused before it is indexed. -/
theorem run_hexDecode_of_length_ne {N : ℕ} {s : String} (hlen : (utf8Bytes s).length ≠ N * 2) :
    (hexDecode N s).run = .ok none := by
  rw [hexDecode, if_pos hlen]
  rfl

/-! ## Over strings -/

/-- An ASCII character is one byte. -/
theorem ofUInt8_toUInt8 {c : Char} (h : c.toNat < 128) : Char.ofUInt8 c.toUInt8 = c := by
  apply Char.ext
  apply UInt32.toNat_inj.mp
  have hmod : c.val.toNat % 256 = c.val.toNat := Nat.mod_eq_of_lt (Nat.lt_trans h (by decide))
  show c.val.toUInt8.toUInt32.toNat = c.val.toNat
  rw [UInt8.toNat_toUInt32, UInt32.toNat_toUInt8, hmod]

/-- The bytes of a string are hex digits when its characters are. -/
theorem forall_isHexDigit_utf8Bytes_iff (s : String) :
    (∀ b ∈ utf8Bytes s, IsHexDigit (Char.ofUInt8 b)) ↔ ∀ c ∈ s.toList, IsHexDigit c := by
  have hascii : ∀ b, IsHexDigit (Char.ofUInt8 b) → b.toNat < 128 := fun b hb =>
    toNat_lt_of_isHexDigit hb
  rw [forall_utf8Bytes_iff hascii]
  refine forall₂_congr fun c _ => ⟨fun h => ?_, fun h => ?_⟩
  · rw [ofUInt8_toUInt8 h.1] at h
    exact h.2
  · have hc := toNat_lt_of_isHexDigit h
    rw [ofUInt8_toUInt8 hc]
    exact ⟨hc, h⟩

/-- The characters of an encoding, byte by byte. -/
theorem toList_hexEncode (bs : Bytes) : (hexEncode bs).toList = bs.flatMap hexPair := by
  have hloop : ∀ s : String, (bs.foldl (fun s b =>
      (s.push (hexDigit ⟨(b >>> 4).toNat, toNat_shiftRight_lt b⟩)).push
        (hexDigit ⟨(b &&& 0x0f).toNat, toNat_and_lt b⟩)) s).toList = s.toList ++ bs.flatMap hexPair := by
    induction bs with
    | nil => simp
    | cons b bs ih =>
      intro s
      rw [List.foldl_cons, ih, String.toList_push, String.toList_push, List.flatMap_cons, hexPair]
      simp
  exact hloop ""

/-- An encoding consists of lowercase digits. -/
theorem isLowerHexDigit_of_mem_hexEncode {bs : Bytes} {c : Char} (h : c ∈ (hexEncode bs).toList) :
    IsLowerHexDigit c := by
  rw [toList_hexEncode, List.mem_flatMap] at h
  obtain ⟨b, -, hc⟩ := h
  rw [hexPair, List.mem_pair] at hc
  rcases hc with rfl | rfl
  · exact isLowerHexDigit_hexDigit _
  · exact isLowerHexDigit_hexDigit _

theorem toLower_hexEncode (bs : Bytes) : (hexEncode bs).toLower = hexEncode bs := by
  have hlower : (hexEncode bs).toLower.toList = (hexEncode bs).toList.map Char.toLower :=
    String.toList_map
  apply String.toList_inj.mp
  rw [hlower, toList_hexEncode, List.map_flatMap]
  congr 1
  funext b
  rw [hexPair, List.map_cons, List.map_singleton, toLower_hexDigit, toLower_hexDigit]

/-- A string of hex digits is read as the bytes whose encoding it is, up to case. -/
theorem decodePairs_utf8Bytes_eq_some_iff (s : String) (bs : Bytes) :
    decodePairs (utf8Bytes s) = some bs ↔
      (∀ c ∈ s.toList, IsHexDigit c) ∧ hexEncode bs = s.toLower := by
  rw [decodePairs_eq_some_iff, forall_isHexDigit_utf8Bytes_iff]
  refine and_congr_right fun hdigits => ?_
  have hascii : ∀ c ∈ s.toList, c.toNat < 128 := fun c hc => toNat_lt_of_isHexDigit (hdigits c hc)
  have hmap : (utf8Bytes s).map (fun b => (Char.ofUInt8 b).toLower) = s.toList.map Char.toLower := by
    rw [utf8Bytes_of_ascii hascii, List.map_map]
    refine List.map_congr_left fun c hc => ?_
    exact congrArg Char.toLower (ofUInt8_toUInt8 (hascii c hc))
  rw [hmap, ← toList_hexEncode, ← String.toList_map, String.toList_inj, eq_comm]
  rfl

/-- `hex_decode` over all strings. -/
theorem run_hexDecode_eq_some_iff {N : ℕ} {s : String} {b : BytesN N} :
    (hexDecode N s).run = .ok (some b) ↔
      (∀ c ∈ s.toList, IsHexDigit c) ∧ hexEncode b.toList = s.toLower := by
  rw [← decodePairs_utf8Bytes_eq_some_iff]
  by_cases hlen : (utf8Bytes s).length = N * 2
  · obtain ⟨out, hrun, hout⟩ := run_hexDecode hlen
    rw [hrun, Except.ok.injEq, ← hout]
    cases out with
    | none => simp
    | some out =>
      rw [Option.map_some, Option.some.injEq, Option.some.injEq]
      exact ⟨congrArg List.Vector.toList, fun h => Subtype.ext h⟩
  · rw [run_hexDecode_of_length_ne hlen]
    constructor
    · intro h
      injection h with h
      cases h
    · intro h
      -- two digits make a byte, so that the length would be right
      have hpairs := length_of_decodePairs_eq_some h
      rw [b.toList_length] at hpairs
      exact absurd hpairs hlen

/-- `hex_decode` does not panic. -/
theorem exists_run_hexDecode (N : ℕ) (s : String) : ∃ out, (hexDecode N s).run = .ok out := by
  by_cases hlen : (utf8Bytes s).length = N * 2
  · obtain ⟨out, hrun, -⟩ := run_hexDecode hlen
    exact ⟨out, hrun⟩
  · exact ⟨none, run_hexDecode_of_length_ne hlen⟩

/-- `hex_decode` accepts the strings of as many hex digits as the array needs. -/
theorem exists_run_hexDecode_iff {N : ℕ} {s : String} :
    (∃ b, (hexDecode N s).run = .ok (some b)) ↔ s.length = 2 * N ∧ ∀ c ∈ s.toList, IsHexDigit c := by
  have hbytes : (∀ c ∈ s.toList, IsHexDigit c) → (utf8Bytes s).length = s.length := fun h => by
    rw [utf8Bytes_of_ascii fun c hc => toNat_lt_of_isHexDigit (h c hc), List.length_map,
      String.length_toList]
  simp only [run_hexDecode_eq_some_iff, ← decodePairs_utf8Bytes_eq_some_iff]
  constructor
  · rintro ⟨b, hb⟩
    have hdigits := ((decodePairs_utf8Bytes_eq_some_iff s b.toList).mp hb).1
    have hlen := length_of_decodePairs_eq_some hb
    rw [hbytes hdigits, b.toList_length] at hlen
    exact ⟨by omega, hdigits⟩
  · rintro ⟨hlen, hdigits⟩
    have heven : (utf8Bytes s).length = N * 2 := by
      rw [hbytes hdigits]
      omega
    obtain ⟨bs, hbs⟩ :=
      exists_decodePairs_eq_some heven ((forall_isHexDigit_utf8Bytes_iff s).mpr hdigits)
    have hN : bs.length = N := by
      have hpairs := length_of_decodePairs_eq_some hbs
      omega
    exact ⟨⟨bs, hN⟩, hbs⟩

/-- An encoded array is read back. -/
theorem run_hexDecode_hexEncode {N : ℕ} (b : BytesN N) :
    (hexDecode N (hexEncode b.toList)).run = .ok (some b) := by
  refine run_hexDecode_eq_some_iff.mpr ⟨fun c hc => ?_, (toLower_hexEncode b.toList).symm⟩
  exact isHexDigit_of_isLowerHexDigit (isLowerHexDigit_of_mem_hexEncode hc)

/-- The visitor accepts what can be decoded. -/
theorem HexVisitor.visitStr_of_some {N : ℕ} {v : String} {out : BytesN N}
    (h : (hexDecode N v).run = .ok (some out)) : visitStr N v = ExceptT.mk (.ok (.ok out)) := by
  rw [visitStr, h]
  rfl

/-! ## The visitors of binary formats -/

/-- A visit takes exactly the sequence `v`, and only when it has `N` elements. -/
def AcceptsExactly (N : ℕ) (v : Bytes) (visited : Except DeError (BytesN N)) : Prop :=
  (∀ h : v.length = N, visited = .ok ⟨v, h⟩) ∧ (v.length ≠ N → ∃ e, visited = .error e)

namespace BytesVisitor

/-- A slice is accepted when it has the width. -/
theorem visitBytes_acceptsExactly (N : ℕ) (v : Bytes) : AcceptsExactly N v (visitBytes N v) := by
  constructor
  · intro h
    rw [visitBytes, dif_pos h]
  · intro h
    exact ⟨_, dif_neg h⟩

/-- `next_element()?.ok_or_else(..)?` -/
def readElement (e : DeError) : StateT Bytes (Except DeError) UInt8 := fun seq => do
  match ← SeqAccess.nextElement seq with
  | (some x, seq) => return (x, seq)
  | (none, _) => .error e

/-- Reading `n` elements splits the sequence, or fails when it is too short. -/
theorem run_mOfFn_readElement (e : DeError) (n : ℕ) (v : Bytes) :
    (∃ (out : BytesN n) (rest : Bytes), v = out.toList ++ rest ∧
      (List.Vector.mOfFn fun _ : Fin n => readElement e).run v = .ok (out, rest)) ∨
    (v.length < n ∧ (List.Vector.mOfFn fun _ : Fin n => readElement e).run v = .error e) := by
  induction n generalizing v with
  | zero => exact Or.inl ⟨List.Vector.nil, v, rfl, rfl⟩
  | succ n ih =>
    cases v with
    | nil => exact Or.inr ⟨Nat.succ_pos n, rfl⟩
    | cons x xs =>
      have hrun : (List.Vector.mOfFn fun _ : Fin (n + 1) => readElement e).run (x :: xs) =
          (fun p => (x ::ᵥ p.1, p.2)) <$> (List.Vector.mOfFn fun _ : Fin n => readElement e).run xs := by
        rfl
      rcases ih xs with ⟨out, rest, hxs, hout⟩ | ⟨hlen, herr⟩
      · refine Or.inl ⟨x ::ᵥ out, rest, ?_, ?_⟩
        · rw [List.Vector.toList_cons, List.cons_append, ← hxs]
        · rw [hrun, hout]
          rfl
      · refine Or.inr ⟨Nat.succ_lt_succ hlen, ?_⟩
        rw [hrun, herr]
        rfl

/-- The loop over the slots reads one element for each. -/
theorem visitSeq_eq (N : ℕ) (v : Bytes) :
    visitSeq N v = do
      let (out, seq) ← (List.Vector.mOfFn fun _ : Fin N =>
        readElement (.invalidLength N (expecting N))).run v
      match ← SeqAccess.nextElement seq with
      | (some _, _) => .error (.invalidLength (N + 1) (expecting N))
      | (none, _) => return out := by
  rw [visitSeq, ← foldlM_set_finRange _ (List.Vector.replicate N 0), ← foldlM_prod_eq_run]
  congr 1
  · congr 1
    funext ⟨out, seq⟩ slot
    cases seq with
    | nil => rfl
    | cons x xs => rfl
  · funext ⟨out, seq⟩
    cases seq with
    | nil => rfl
    | cons x xs => rfl

/-- A sequence is accepted when it has the width. -/
theorem visitSeq_acceptsExactly (N : ℕ) (v : Bytes) : AcceptsExactly N v (visitSeq N v) := by
  rw [visitSeq_eq]
  rcases run_mOfFn_readElement (.invalidLength N (expecting N)) N v with
    ⟨out, rest, hv, hout⟩ | ⟨hlen, herr⟩
  · have hlen : v.length = N + rest.length := by
      rw [hv, List.length_append, out.toList_length]
    rw [hout]
    cases rest with
    | nil =>
      rw [List.append_nil] at hv
      refine ⟨fun h => ?_, fun h => absurd hlen h⟩
      exact congrArg Except.ok (Subtype.ext hv.symm)
    | cons x rest =>
      rw [List.length_cons] at hlen
      exact ⟨fun h => by omega, fun _ => ⟨_, rfl⟩⟩
  · rw [herr]
    exact ⟨fun h => by omega, fun _ => ⟨_, rfl⟩⟩

end BytesVisitor

/-- The hex codec is exact over every width and every string, and the visitor of binary formats takes
exactly the arrays of its width from each of its entry points. -/
theorem serdeCodec_exact (N : ℕ) :
    (∀ b : BytesN N, (hexDecode N (hexEncode b.toList)).run = .ok (some b) ∧
      ∀ c ∈ (hexEncode b.toList).toList, IsLowerHexDigit c) ∧
    (∀ s : String,
      ((∃ b, (hexDecode N s).run = .ok (some b)) ↔
        s.length = 2 * N ∧ ∀ c ∈ s.toList, IsHexDigit c) ∧
      (∀ b, (hexDecode N s).run = .ok (some b) → hexEncode b.toList = s.toLower) ∧
      (¬(s.length = 2 * N ∧ ∀ c ∈ s.toList, IsHexDigit c) → (hexDecode N s).run = .ok none)) ∧
    ∀ v : Bytes,
      AcceptsExactly N v (BytesVisitor.visitBytes N v) ∧
      AcceptsExactly N v (BytesVisitor.visitBorrowedBytes N v) ∧
      AcceptsExactly N v (BytesVisitor.visitByteBuf N v) ∧
      AcceptsExactly N v (BytesVisitor.visitSeq N v) := by
  refine ⟨fun b => ⟨run_hexDecode_hexEncode b, fun c hc => isLowerHexDigit_of_mem_hexEncode hc⟩,
    fun s => ⟨exists_run_hexDecode_iff, fun b hb => (run_hexDecode_eq_some_iff.mp hb).2, fun h => ?_⟩,
    fun v => ⟨BytesVisitor.visitBytes_acceptsExactly N v, BytesVisitor.visitBytes_acceptsExactly N v,
      BytesVisitor.visitBytes_acceptsExactly N v, BytesVisitor.visitSeq_acceptsExactly N v⟩⟩
  obtain ⟨out, hout⟩ := exists_run_hexDecode N s
  cases out with
  | none => exact hout
  | some b => exact absurd (exists_run_hexDecode_iff.mp ⟨b, hout⟩) h

end PoprfRistretto
