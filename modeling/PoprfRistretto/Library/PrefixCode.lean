import Mathlib.Data.Set.Function

/-!
# Prefix codes

An encoding into strings is a prefix code when it can be read back from the front of any longer
string. Concatenations of such encodings determine their parts, which is what makes a transcript of
length-prefixed fields injective.
-/

namespace PrefixCode

variable {α β : Type*}

/-- On the values in `s`, the encoding `f` can be read back from the front of any string. -/
def IsPrefixCodeOn (s : Set α) (f : α → List β) : Prop :=
  ∀ ⦃a⦄, a ∈ s → ∀ ⦃b⦄, b ∈ s → ∀ ⦃u v⦄, f a ++ u = f b ++ v → a = b ∧ u = v

/-- An injective encoding into strings of one length is a prefix code. -/
theorem isPrefixCodeOn_of_length {s : Set α} {f : α → List β} {n : ℕ} (hinj : Set.InjOn f s)
    (hlen : ∀ a ∈ s, (f a).length = n) : IsPrefixCodeOn s f := by
  intro a ha b hb u v h
  obtain ⟨hf, hrest⟩ := List.append_inj h (by rw [hlen a ha, hlen b hb])
  exact ⟨hinj ha hb hf, hrest⟩

/-- Strings behind a prefix code of their length form a prefix code. -/
theorem IsPrefixCodeOn.lengthPrefixed {N : ℕ} {len : ℕ → List β}
    (hlen : IsPrefixCodeOn {n | n ≤ N} len) :
    IsPrefixCodeOn {x : List β | x.length ≤ N} fun x => len x.length ++ x := by
  intro x hx y hy u v h
  simp only [List.append_assoc] at h
  obtain ⟨hlength, hrest⟩ := hlen hx hy h
  exact List.append_inj hrest hlength

end PrefixCode
