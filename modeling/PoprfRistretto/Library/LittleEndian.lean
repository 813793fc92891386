import Mathlib.Data.Nat.Digits.Lemmas

/-!
# Fixed-width little-endian integers

`ofLe` reads a byte string as a little-endian integer and `toLe n` writes the low `n` bytes of one.
-/

namespace LittleEndian

/-- The integer whose little-endian bytes are `bs`. -/
def ofLe (bs : List UInt8) : ℕ := Nat.ofDigits 256 (bs.map UInt8.toNat)

/-- The low `n` bytes of `x`, least significant first. -/
def toLe : ℕ → ℕ → List UInt8
  | 0, _ => []
  | n + 1, x => UInt8.ofNat x :: toLe n (x / 256)

@[simp] theorem length_toLe (n x : ℕ) : (toLe n x).length = n := by
  induction n generalizing x with
  | zero => rfl
  | succ n ih => simp [toLe, ih]

/-- Writing `n` bytes and reading them back reduces modulo `256 ^ n`. -/
theorem ofLe_toLe (n x : ℕ) : ofLe (toLe n x) = x % 256 ^ n := by
  induction n generalizing x with
  | zero => simp [ofLe, toLe, Nat.mod_one]
  | succ n ih =>
    have hstep : ofLe (toLe (n + 1) x) = x % 256 + 256 * ofLe (toLe n (x / 256)) := by
      simp [ofLe, toLe, Nat.ofDigits_cons]
    rw [hstep, ih, pow_succ', Nat.mod_mul]

/-- Byte strings of one length are determined by their integers. -/
theorem ofLe_injective_of_length {as bs : List UInt8} (hlen : as.length = bs.length)
    (h : ofLe as = ofLe bs) : as = bs := by
  have hbyte : ∀ cs : List UInt8, ∀ d ∈ cs.map UInt8.toNat, d < 256 := by
    intro cs d hd
    obtain ⟨c, -, rfl⟩ := List.mem_map.mp hd
    exact c.toNat_lt
  have hdigits : as.map UInt8.toNat = bs.map UInt8.toNat :=
    Nat.ofDigits_inj_of_len_eq (by norm_num) (by simpa using hlen) (hbyte as) (hbyte bs) h
  exact List.map_injective_iff.mpr (fun _ _ => UInt8.toNat_inj.mp) hdigits

end LittleEndian
