import Mathlib.Data.List.Basic
import PoprfRistretto.Library.Utf8

/-!
# Base64

The standard alphabet with padding. Three bytes are four symbols, and a last group of one or two bytes
is padded. The decoder demands the padding and that the bits which it stands for are zero, so that
encoder and decoder are inverse to each other.

* `decode_encode` — what is encoded is decoded.
* `encode_of_decode` — only encodings are decoded.
* `utf8Bytes_encodeString` — the text is ASCII.
-/

namespace Base64Codec

open Utf8

/-- The symbol of six bits. -/
def symbol (n : ℕ) : UInt8 :=
  if n < 26 then UInt8.ofNat (0x41 + n)
  else if n < 52 then UInt8.ofNat (0x61 + (n - 26))
  else if n < 62 then UInt8.ofNat (0x30 + (n - 52))
  else if n = 62 then 0x2b
  else 0x2f

/-- The six bits of a symbol. -/
def sextet (b : UInt8) : Option ℕ :=
  if 0x41 ≤ b.toNat ∧ b.toNat ≤ 0x5a then some (b.toNat - 0x41)
  else if 0x61 ≤ b.toNat ∧ b.toNat ≤ 0x7a then some (b.toNat - 0x61 + 26)
  else if 0x30 ≤ b.toNat ∧ b.toNat ≤ 0x39 then some (b.toNat - 0x30 + 52)
  else if b.toNat = 0x2b then some 62
  else if b.toNat = 0x2f then some 63
  else none

/-- `=`. -/
def PAD : UInt8 := 0x3d

/-- The symbols of three bytes. -/
def encodeGroup (a b c : UInt8) : List UInt8 :=
  [symbol (a.toNat / 4), symbol (a.toNat % 4 * 16 + b.toNat / 16),
    symbol (b.toNat % 16 * 4 + c.toNat / 64), symbol (c.toNat % 64)]

/-- The symbols of a byte string. -/
def encode : List UInt8 → List UInt8
  | [] => []
  | [a] => [symbol (a.toNat / 4), symbol (a.toNat % 4 * 16), PAD, PAD]
  | [a, b] =>
    [symbol (a.toNat / 4), symbol (a.toNat % 4 * 16 + b.toNat / 16), symbol (b.toNat % 16 * 4), PAD]
  | a :: b :: c :: rest => encodeGroup a b c ++ encode rest

/-- The bytes of four symbols, of which the last group may be padded. -/
def decodeGroup (last : Bool) (w x y z : UInt8) : Option (List UInt8) := do
  let w ← sextet w
  let x ← sextet x
  if last && z == PAD then
    if y == PAD then
      if x % 16 = 0 then some [UInt8.ofNat (w * 4 + x / 16)] else none
    else do
      let y ← sextet y
      if y % 4 = 0 then
        some [UInt8.ofNat (w * 4 + x / 16), UInt8.ofNat (x % 16 * 16 + y / 4)]
      else none
  else do
    let y ← sextet y
    let z ← sextet z
    some [UInt8.ofNat (w * 4 + x / 16), UInt8.ofNat (x % 16 * 16 + y / 4),
      UInt8.ofNat (y % 4 * 64 + z)]

/-- The bytes of a string of symbols. -/
def decode : List UInt8 → Option (List UInt8)
  | [] => some []
  | w :: x :: y :: z :: more => do
    let bytes ← decodeGroup more.isEmpty w x y z
    let rest ← decode more
    return bytes ++ rest
  | _ => none

/-! ## Symbols -/

/-- The symbols stand for the numbers below 64. -/
theorem sextet_symbol {n : ℕ} (h : n < 64) : sextet (symbol n) = some n := by
  have hall : ∀ n : Fin 64, sextet (symbol n) = some n.val := by decide
  exact hall ⟨n, h⟩

/-- No symbol is the padding. -/
theorem symbol_ne_pad {n : ℕ} (h : n < 64) : symbol n ≠ PAD := by
  have hall : ∀ n : Fin 64, symbol n ≠ PAD := by decide
  exact hall ⟨n, h⟩

/-- Only the symbol of six bits stands for them. -/
theorem sextet_eq_some {b : UInt8} {n : ℕ} (h : sextet b = some n) : n < 64 ∧ symbol n = b := by
  have hb := b.toNat_lt
  unfold sextet at h
  split_ifs at h with h₁ h₂ h₃ h₄ h₅
  all_goals
    obtain rfl := Option.some.inj h
    refine ⟨by omega, UInt8.toNat_inj.mp ?_⟩
    unfold symbol
  · rw [if_pos (by omega), UInt8.toNat_ofNat']
    omega
  · rw [if_neg (by omega), if_pos (by omega), UInt8.toNat_ofNat']
    omega
  · rw [if_neg (by omega), if_neg (by omega), if_pos (by omega), UInt8.toNat_ofNat']
    omega
  · exact h₄.symm
  · exact h₅.symm

/-! ## One group -/

theorem ofNat_of_eq {n : ℕ} {a : UInt8} (h : n = a.toNat) : UInt8.ofNat n = a := by
  rw [h, UInt8.ofNat_toNat]

theorem toNat_ofNat_of_lt {n : ℕ} (h : n < 256) : (UInt8.ofNat n).toNat = n := by
  rw [UInt8.toNat_ofNat', Nat.mod_eq_of_lt h]

/-- A full group is decoded to three bytes. -/
theorem decodeGroup_full (last : Bool) {w x y z : ℕ} (hw : w < 64) (hx : x < 64) (hy : y < 64)
    (hz : z < 64) :
    decodeGroup last (symbol w) (symbol x) (symbol y) (symbol z) =
      some [UInt8.ofNat (w * 4 + x / 16), UInt8.ofNat (x % 16 * 16 + y / 4),
        UInt8.ofNat (y % 4 * 64 + z)] := by
  have hpad : (symbol z == PAD) = false := beq_eq_false_iff_ne.mpr (symbol_ne_pad hz)
  simp [decodeGroup, sextet_symbol hw, sextet_symbol hx, sextet_symbol hy, sextet_symbol hz, hpad]

/-- A last group of three symbols is decoded to two bytes. -/
theorem decodeGroup_pad {w x y : ℕ} (hw : w < 64) (hx : x < 64) (hy : y < 64) (hzero : y % 4 = 0) :
    decodeGroup true (symbol w) (symbol x) (symbol y) PAD =
      some [UInt8.ofNat (w * 4 + x / 16), UInt8.ofNat (x % 16 * 16 + y / 4)] := by
  have hpad : (symbol y == PAD) = false := beq_eq_false_iff_ne.mpr (symbol_ne_pad hy)
  simp [decodeGroup, sextet_symbol hw, sextet_symbol hx, sextet_symbol hy, hpad, hzero]

/-- A last group of two symbols is decoded to one byte. -/
theorem decodeGroup_pad_pad {w x : ℕ} (hw : w < 64) (hx : x < 64) (hzero : x % 16 = 0) :
    decodeGroup true (symbol w) (symbol x) PAD PAD = some [UInt8.ofNat (w * 4 + x / 16)] := by
  simp [decodeGroup, sextet_symbol hw, sextet_symbol hx, hzero]

/-- A group that is decoded is the encoding of its bytes, which are three unless it is the last. -/
theorem encode_of_decodeGroup {last : Bool} {w x y z : UInt8} {bytes : List UInt8}
    (h : decodeGroup last w x y z = some bytes) :
    encode bytes = [w, x, y, z] ∧ (last = false → bytes.length = 3) := by
  simp only [decodeGroup, Option.bind_eq_bind, Option.bind_eq_some_iff] at h
  obtain ⟨w', hw, x', hx, h⟩ := h
  obtain ⟨hw, rfl⟩ := sextet_eq_some hw
  obtain ⟨hx, rfl⟩ := sextet_eq_some hx
  -- the first byte takes six bits of the first symbol and two of the second
  have hfirst : (UInt8.ofNat (w' * 4 + x' / 16)).toNat = w' * 4 + x' / 16 :=
    toNat_ofNat_of_lt (by omega)
  have hw' : (w' * 4 + x' / 16) / 4 = w' := by omega
  split at h
  · rename_i hlast
    -- the last group may end in padding
    obtain ⟨rfl, hz⟩ := Bool.and_eq_true_iff.mp hlast
    obtain rfl := beq_iff_eq.mp hz
    split at h
    · rename_i hy
      -- two paddings: one byte, and the unused bits must be zero
      obtain rfl := beq_iff_eq.mp hy
      split at h
      · obtain rfl := Option.some.inj h
        refine ⟨?_, nofun⟩
        have hx' : (w' * 4 + x' / 16) % 4 * 16 = x' := by omega
        rw [encode, hfirst, hw', hx']
      · cases h
    · simp only [Option.bind_eq_some_iff] at h
      -- one padding: two bytes
      obtain ⟨y', hy, h⟩ := h
      obtain ⟨hy, rfl⟩ := sextet_eq_some hy
      have hsecond : (UInt8.ofNat (x' % 16 * 16 + y' / 4)).toNat = x' % 16 * 16 + y' / 4 :=
        toNat_ofNat_of_lt (by omega)
      split at h
      · obtain rfl := Option.some.inj h
        refine ⟨?_, nofun⟩
        have hx' : (w' * 4 + x' / 16) % 4 * 16 + (x' % 16 * 16 + y' / 4) / 16 = x' := by omega
        have hy' : (x' % 16 * 16 + y' / 4) % 16 * 4 = y' := by omega
        rw [encode, hfirst, hsecond, hw', hx', hy']
      · cases h
  · simp only [Option.bind_eq_some_iff] at h
    -- no padding: three bytes
    obtain ⟨y', hy, z', hz, h⟩ := h
    obtain ⟨hy, rfl⟩ := sextet_eq_some hy
    obtain ⟨hz, rfl⟩ := sextet_eq_some hz
    have hsecond : (UInt8.ofNat (x' % 16 * 16 + y' / 4)).toNat = x' % 16 * 16 + y' / 4 :=
      toNat_ofNat_of_lt (by omega)
    have hthird : (UInt8.ofNat (y' % 4 * 64 + z')).toNat = y' % 4 * 64 + z' :=
      toNat_ofNat_of_lt (by omega)
    obtain rfl := Option.some.inj h
    refine ⟨?_, fun _ => rfl⟩
    have hx' : (w' * 4 + x' / 16) % 4 * 16 + (x' % 16 * 16 + y' / 4) / 16 = x' := by omega
    have hy' : (x' % 16 * 16 + y' / 4) % 16 * 4 + (y' % 4 * 64 + z') / 64 = y' := by omega
    have hz' : (y' % 4 * 64 + z') % 64 = z' := by omega
    rw [encode, encodeGroup, hfirst, hsecond, hthird, hw', hx', hy', hz']
    rfl

/-! ## Strings -/

/-- Three bytes are encoded by themselves. -/
theorem encode_append {bytes : List UInt8} (h : bytes.length = 3) (rest : List UInt8) :
    encode (bytes ++ rest) = encode bytes ++ encode rest := by
  obtain ⟨a, b, c, rfl⟩ := List.length_eq_three.mp h
  simp [encode]

/-- What is encoded is decoded. -/
theorem decode_encode (bytes : List UInt8) : decode (encode bytes) = some bytes := by
  induction bytes using encode.induct with
  | case1 => rfl
  | case2 a =>
    have ha := a.toNat_lt
    rw [encode, decode]
    -- nothing follows, so that the group is the last one
    show (decodeGroup true _ _ PAD PAD >>= _) = _
    rw [decodeGroup_pad_pad (by omega) (by omega) (by omega), ofNat_of_eq (a := a) (by omega)]
    rfl
  | case3 a b =>
    have ha := a.toNat_lt
    have hb := b.toNat_lt
    rw [encode, decode]
    show (decodeGroup true _ _ _ PAD >>= _) = _
    rw [decodeGroup_pad (by omega) (by omega) (by omega) (by omega),
      ofNat_of_eq (a := a) (by omega), ofNat_of_eq (a := b) (by omega)]
    rfl
  | case4 a b c rest ih =>
    have ha := a.toNat_lt
    have hb := b.toNat_lt
    have hc := c.toNat_lt
    rw [encode]
    -- a full group may be followed by others
    show (decodeGroup _ _ _ _ _ >>= fun bytes => decode (encode rest) >>= _) = _
    rw [decodeGroup_full _ (by omega) (by omega) (by omega) (by omega),
      ofNat_of_eq (a := a) (by omega), ofNat_of_eq (a := b) (by omega),
      ofNat_of_eq (a := c) (by omega), ih]
    rfl

/-- Only encodings are decoded. -/
theorem encode_of_decode {symbols bytes : List UInt8} (h : decode symbols = some bytes) :
    encode bytes = symbols := by
  induction symbols using decode.induct generalizing bytes with
  | case1 =>
    obtain rfl := Option.some.inj h
    rfl
  | case2 w x y z more ih =>
    simp only [decode, Option.bind_eq_bind, Option.bind_eq_some_iff, Option.pure_def] at h
    obtain ⟨group, hgroup, rest, hrest, hbytes⟩ := h
    obtain rfl := Option.some.inj hbytes
    obtain ⟨hencode, hlen⟩ := encode_of_decodeGroup hgroup
    cases more with
    | nil =>
      obtain rfl := Option.some.inj hrest
      rw [List.append_nil, hencode]
    | cons s more =>
      -- the group is not the last one: it has three bytes
      rw [encode_append (hlen rfl), hencode, ih hrest]
      rfl
  | case3 symbols hnil hcons =>
    unfold decode at h
    split at h
    · exact absurd rfl hnil
    · exact absurd rfl (hcons _ _ _ _ _)
    · cases h

/-! ## Text -/

/-- The symbols as text. -/
def encodeString (bytes : List UInt8) : String := String.ofList ((encode bytes).map Char.ofUInt8)

/-- A symbol is an ASCII character, and not NUL. -/
def IsText (b : UInt8) : Prop := b.toNat < 128 ∧ b ≠ 0

/-- The symbols are printable. -/
theorem isText_symbol {n : ℕ} (h : n < 64) : IsText (symbol n) := by
  have hall : ∀ n : Fin 64, (symbol n).toNat < 128 ∧ symbol n ≠ 0 := by decide
  exact hall ⟨n, h⟩

theorem isText_pad : IsText PAD := by
  unfold IsText
  decide

/-- An encoding is printable. -/
theorem isText_of_mem_encode (bytes : List UInt8) : ∀ b ∈ encode bytes, IsText b := by
  induction bytes using encode.induct with
  | case1 => exact fun _ h => absurd h List.not_mem_nil
  | case2 a =>
    have ha := a.toNat_lt
    simp only [encode, List.forall_mem_cons]
    exact ⟨isText_symbol (by omega), isText_symbol (by omega), isText_pad, isText_pad,
      fun _ h => absurd h List.not_mem_nil⟩
  | case3 a b =>
    have ha := a.toNat_lt
    have hb := b.toNat_lt
    simp only [encode, List.forall_mem_cons]
    exact ⟨isText_symbol (by omega), isText_symbol (by omega), isText_symbol (by omega), isText_pad,
      fun _ h => absurd h List.not_mem_nil⟩
  | case4 a b c rest ih =>
    have ha := a.toNat_lt
    have hb := b.toNat_lt
    have hc := c.toNat_lt
    simp only [encode, encodeGroup, List.forall_mem_append, List.forall_mem_cons]
    exact ⟨⟨isText_symbol (by omega), isText_symbol (by omega), isText_symbol (by omega),
      isText_symbol (by omega), fun _ h => absurd h List.not_mem_nil⟩, ih⟩

theorem toUInt8_ofUInt8 (b : UInt8) : (Char.ofUInt8 b).toUInt8 = b := UInt8.toUInt8_toUInt32 b

/-- The bytes of the text are the symbols. -/
theorem utf8Bytes_encodeString (bytes : List UInt8) : utf8Bytes (encodeString bytes) = encode bytes := by
  have htext := isText_of_mem_encode bytes
  rw [utf8Bytes_of_ascii, encodeString, String.toList_ofList, List.map_map]
  · exact (List.map_congr_left fun b _ => toUInt8_ofUInt8 b).trans (List.map_id _)
  · intro c hc
    rw [encodeString, String.toList_ofList] at hc
    obtain ⟨b, hb, rfl⟩ := List.mem_map.mp hc
    exact (htext b hb).1

end Base64Codec
