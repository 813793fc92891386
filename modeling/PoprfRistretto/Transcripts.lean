import PoprfRistretto.Poprf.Types
import PoprfRistretto.Library.PrefixCode

/-!
# The hashed byte strings

What the crate hashes, written as one byte string each: the challenge transcript of a DLEQ proof and
the preimage of a POPRF output. Both are injective, as concatenations of length-prefixed fields.
-/

namespace PoprfRistretto

open PrefixCode

/-- `I2OSP(buf.len(), 2) || buf`. -/
def lengthPrefixed (buf : Bytes) : Bytes := (i2osp2 buf.length).toList ++ buf

/-- A buffer is appended behind its length. -/
theorem appendLp_eq (out buf : Bytes) : appendLp out buf = out ++ lengthPrefixed buf := by
  rw [appendLp, lengthPrefixed, List.append_assoc]

/-- Strings that fit their two-byte prefix can be read back from the front of a transcript. -/
theorem isPrefixCodeOn_lengthPrefixed :
    IsPrefixCodeOn {buf : Bytes | buf.length ≤ 65535} lengthPrefixed := by
  have hlen : IsPrefixCodeOn {n | n ≤ 65535} fun n => (i2osp2 n).toList :=
    isPrefixCodeOn_of_length (fun x hx y hy h => i2osp2_injOn hx hy (List.Vector.eq _ _ h))
      fun n _ => length_i2osp2 n
  exact hlen.lengthPrefixed

/-- The cap keeps a length below two bytes. -/
theorem le_of_le_max_lp_len {buf : Bytes} (h : buf.length ≤ MAX_LP_LEN) : buf.length ≤ 65535 :=
  h.trans (by decide)

/-! ## The output preimage -/

/-- The string whose digest is a POPRF output. -/
def finalizePreimage (input info unblinded : Bytes) : Bytes :=
  lengthPrefixed input ++ lengthPrefixed info ++ lengthPrefixed unblinded ++ ascii "Finalize"

/-- Within the length cap, different output inputs are hashed as different strings. -/
theorem finalizePreimage_inj {input info unblinded input' info' unblinded' : Bytes}
    (hinput : input.length ≤ MAX_LP_LEN) (hinfo : info.length ≤ MAX_LP_LEN)
    (hunblinded : unblinded.length ≤ MAX_LP_LEN) (hinput' : input'.length ≤ MAX_LP_LEN)
    (hinfo' : info'.length ≤ MAX_LP_LEN) (hunblinded' : unblinded'.length ≤ MAX_LP_LEN)
    (h : finalizePreimage input info unblinded = finalizePreimage input' info' unblinded') :
    input = input' ∧ info = info' ∧ unblinded = unblinded' := by
  simp only [finalizePreimage, List.append_assoc] at h
  obtain ⟨h1, h⟩ := isPrefixCodeOn_lengthPrefixed (le_of_le_max_lp_len hinput)
    (le_of_le_max_lp_len hinput') h
  obtain ⟨h2, h⟩ := isPrefixCodeOn_lengthPrefixed (le_of_le_max_lp_len hinfo)
    (le_of_le_max_lp_len hinfo') h
  obtain ⟨h3, -⟩ := isPrefixCodeOn_lengthPrefixed (le_of_le_max_lp_len hunblinded)
    (le_of_le_max_lp_len hunblinded') h
  exact ⟨h1, h2, h3⟩

namespace Suite

variable {G : Type} [AddCommGroup G] [Module Scalar G] (S : Suite G)

/-! ## The challenge transcript -/

/-- The transcript of a DLEQ challenge: the key, the composites and the commitments. -/
def challengeTranscript (b m z t2 t3 : G) : Bytes :=
  lengthPrefixed (S.serializeElement b) ++ lengthPrefixed (S.serializeElement m) ++
    lengthPrefixed (S.serializeElement z) ++ lengthPrefixed (S.serializeElement t2) ++
    lengthPrefixed (S.serializeElement t3) ++ ascii "Challenge"

/-- The challenge of a transcript. -/
def challenge (b m z t2 t3 : G) : Scalar :=
  S.hashToScalar [S.challengeTranscript b m z t2 t3] HASH_TO_SCALAR_DST

/-- A length-prefixed element can be read back from the front of a transcript. -/
theorem lengthPrefixed_element_append_inj {P Q : G} {u v : Bytes}
    (h : lengthPrefixed (S.serializeElement P) ++ u = lengthPrefixed (S.serializeElement Q) ++ v) :
    P = Q ∧ u = v := by
  have hfits : ∀ R : G, (S.serializeElement R).length ≤ 65535 := fun R => by
    rw [length_serializeElement]; norm_num
  obtain ⟨hser, hrest⟩ := isPrefixCodeOn_lengthPrefixed (hfits P) (hfits Q) h
  exact ⟨S.serializeElement_injective hser, hrest⟩

/-- Different challenge inputs are hashed as different strings. -/
theorem challengeTranscript_inj {b m z t2 t3 b' m' z' t2' t3' : G}
    (h : S.challengeTranscript b m z t2 t3 = S.challengeTranscript b' m' z' t2' t3') :
    b = b' ∧ m = m' ∧ z = z' ∧ t2 = t2' ∧ t3 = t3' := by
  simp only [challengeTranscript, List.append_assoc] at h
  obtain ⟨hb, h⟩ := S.lengthPrefixed_element_append_inj h
  obtain ⟨hm, h⟩ := S.lengthPrefixed_element_append_inj h
  obtain ⟨hz, h⟩ := S.lengthPrefixed_element_append_inj h
  obtain ⟨h2, h⟩ := S.lengthPrefixed_element_append_inj h
  obtain ⟨h3, -⟩ := S.lengthPrefixed_element_append_inj h
  exact ⟨hb, hm, hz, h2, h3⟩

/-! ## The output digest -/

/-- `Hash(bytes)` in one call. -/
def sha512 (bytes : Bytes) : BytesN 64 := S.finalizeFixed (S.chain S.default bytes)

/-- The chained hash is the digest of the preimage. -/
theorem finalizeHash_eq (input info unblinded : Bytes) :
    S.finalizeHash input info unblinded =
      ⟨S.sha512 (finalizePreimage input info unblinded)⟩ := by
  simp only [finalizeHash, finalizeFrom, lpHasher, sha512, finalizePreimage, lengthPrefixed,
    S.chain_chain, List.append_assoc]

end Suite

end PoprfRistretto
