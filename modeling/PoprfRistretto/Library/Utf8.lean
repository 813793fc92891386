import Mathlib.Data.List.Basic

/-!
# UTF-8 bytes of ASCII text

A string is told to be ASCII by its bytes: a character of more than one byte begins with a byte above
`0x7f`. On ASCII strings bytes and characters correspond one to one.

* `utf8Bytes_of_ascii` — the bytes of an ASCII string are the codes of its characters.
* `forall_utf8Bytes_iff` — a property of ASCII characters is checked on the bytes.
-/

namespace Utf8

/-- `str::as_bytes`. -/
def utf8Bytes (s : String) : List UInt8 := s.toUTF8.data.toList

/-- A string is encoded character by character. -/
theorem utf8Bytes_eq_flatMap (s : String) :
    utf8Bytes s = s.toList.flatMap String.utf8EncodeChar := by
  rw [utf8Bytes, String.toUTF8_eq_toByteArray, ← String.utf8Encode_toList, List.utf8Encode,
    List.toList_data_toByteArray]

/-- Strings that are joined are encoded one after the other. -/
theorem utf8Bytes_append (s s' : String) : utf8Bytes (s ++ s') = utf8Bytes s ++ utf8Bytes s' := by
  rw [utf8Bytes_eq_flatMap, String.toList_append, List.flatMap_append, ← utf8Bytes_eq_flatMap,
    ← utf8Bytes_eq_flatMap]

/-- An ASCII character is encoded as its code. -/
theorem utf8EncodeChar_of_ascii {c : Char} (h : c.toNat < 128) :
    String.utf8EncodeChar c = [c.toUInt8] := by
  have hle : c.val.toNat ≤ 0x7f := Nat.le_of_lt_succ h
  rw [String.utf8EncodeChar]
  simp only [if_pos hle]
  rfl

/-- Any other character is encoded with a byte above `0x7f` first. -/
theorem exists_high_byte {c : Char} (h : 128 ≤ c.toNat) :
    ∃ b ∈ String.utf8EncodeChar c, 128 ≤ b.toNat := by
  have hgt : ¬c.val.toNat ≤ 0x7f := Nat.not_le.mpr h
  rw [String.utf8EncodeChar]
  simp only [if_neg hgt]
  split
  · refine ⟨_, List.mem_cons_self, ?_⟩
    rw [UInt8.toNat_ofNat']
    omega
  · split
    · refine ⟨_, List.mem_cons_self, ?_⟩
      rw [UInt8.toNat_ofNat']
      omega
    · refine ⟨_, List.mem_cons_self, ?_⟩
      rw [UInt8.toNat_ofNat']
      omega

/-- The bytes of an ASCII string are the codes of its characters. -/
theorem utf8Bytes_of_ascii {s : String} (h : ∀ c ∈ s.toList, c.toNat < 128) :
    utf8Bytes s = s.toList.map Char.toUInt8 := by
  rw [utf8Bytes_eq_flatMap]
  generalize s.toList = cs at h
  induction cs with
  | nil => rfl
  | cons c cs ih =>
    rw [List.forall_mem_cons] at h
    rw [List.flatMap_cons, utf8EncodeChar_of_ascii h.1, ih h.2, List.map_cons]
    rfl

/-- A string has a property of ASCII characters throughout when its bytes have it. -/
theorem forall_utf8Bytes_iff {p : UInt8 → Prop} (hp : ∀ b, p b → b.toNat < 128) {s : String} :
    (∀ b ∈ utf8Bytes s, p b) ↔ ∀ c ∈ s.toList, c.toNat < 128 ∧ p c.toUInt8 := by
  rw [utf8Bytes_eq_flatMap]
  constructor
  · intro h c hc
    have hchar : ∀ b ∈ String.utf8EncodeChar c, p b := fun b hb =>
      h b (List.mem_flatMap.mpr ⟨c, hc, hb⟩)
    have hascii : c.toNat < 128 := by
      by_contra hge
      obtain ⟨b, hb, hhigh⟩ := exists_high_byte (Nat.le_of_not_lt hge)
      exact absurd (hp b (hchar b hb)) (Nat.not_lt.mpr hhigh)
    rw [utf8EncodeChar_of_ascii hascii, List.forall_mem_singleton] at hchar
    exact ⟨hascii, hchar⟩
  · intro h b hb
    obtain ⟨c, hc, hb⟩ := List.mem_flatMap.mp hb
    rw [utf8EncodeChar_of_ascii (h c hc).1, List.mem_singleton] at hb
    rw [hb]
    exact (h c hc).2

/-- A numeral has no NUL. -/
theorem zero_not_mem_utf8Bytes_toString (n : ℕ) : 0 ∉ utf8Bytes (toString n) := by
  have hdigits : ∀ b ∈ utf8Bytes (toString n), b.toNat < 128 ∧ b ≠ 0 := by
    rw [forall_utf8Bytes_iff fun b hb => hb.1]
    intro c hc
    have hmem : c ∈ Nat.toDigits 10 n := by
      rw [← Nat.toList_repr]
      exact hc
    have hdigit : c.isDigit := Nat.isDigit_of_mem_toDigits (by decide) (by decide) hmem
    have hlow : 48 ≤ c.toNat := (Char.isDigit_iff_toNat.mp hdigit).1
    have hhigh : c.toNat ≤ 57 := (Char.isDigit_iff_toNat.mp hdigit).2
    have hcode : c.toUInt8.toNat = c.toNat := by
      show c.val.toUInt8.toNat = c.val.toNat
      rw [UInt32.toNat_toUInt8]
      exact Nat.mod_eq_of_lt (Nat.lt_of_le_of_lt hhigh (by decide))
    refine ⟨by omega, by omega, fun hzero => ?_⟩
    have hzero' : c.toNat = 0 := by rw [← hcode, hzero]; rfl
    omega
  exact fun hzero => (hdigits 0 hzero).2 rfl

end Utf8
