import PoprfRistretto.Poprf.Exchange

/-!
# Offline evaluation

The three ways to the output of a request refuse the same requests: blinding, `evaluate` and the
pre-hashed tables. The tables return what `evaluate` returns, and two evaluations with one output
are of one request under one key, or their preimages collide.
-/

namespace PoprfRistretto

open ExceptLoop Blinding

variable {G : Type} [AddCommGroup G] [Module Scalar G] [DecidableEq G]

section

variable (S : Suite G) (F : Features)

/-! ## Refusals -/

/-- `evaluate` accepts exactly the admissible requests. -/
theorem PoprfServer.evaluate_isOk_iff (server : PoprfServer) (input info : Bytes) :
    (∃ out, server.evaluate S input info = .ok out) ↔
      S.Admissible (server.publicKey S).point input info := by
  constructor
  · rintro ⟨out, hout⟩
    exact ((PoprfServer.evaluate_eq_ok_iff S server).mp hout).1
  · intro hadm
    exact ⟨_, (PoprfServer.evaluate_eq_ok_iff S server).mpr ⟨hadm, rfl⟩⟩

/-- Blinding accepts exactly the admissible requests. -/
theorem PoprfClient.Blinds.isOk_iff {S : Suite G} {client : PoprfClient G} {input info : Bytes}
    {res : Except Error (PoprfBlindState G × BlindedElement G)}
    (h : client.Blinds S input info res) :
    (∃ token, res = .ok token) ↔ S.Admissible client.pk input info := by
  obtain ⟨blind, -, rfl⟩ := h.exists_blind
  constructor
  · rintro ⟨token, htoken⟩
    exact ((client.blindWithInner_eq_ok_iff S).mp htoken).1
  · intro hadm
    exact ⟨_, client.blindWithInner_of_admissible S hadm blind⟩

omit [DecidableEq G] in
/-- `evaluate_tables` on one table accepts the infos that `compute_t` accepts. -/
theorem PoprfServer.evaluateTables_isOk_iff (server : PoprfServer) (tb : PoprfInputTable S)
    (info : Bytes) :
    (∃ outs, server.evaluateTables S [tb] info = .ok outs) ↔
      ∃ t, server.computeT S info = .ok t := by
  unfold PoprfServer.evaluateTables
  rw [if_neg (by simp)]
  simp only [bind_eq_ok_iff]
  constructor
  · rintro ⟨outs, t, ht, -⟩
    exact ⟨t, ht⟩
  · rintro ⟨t, ht⟩
    exact ⟨_, t, ht, rfl⟩

/-- The table path accepts exactly the admissible requests. -/
theorem PoprfServer.table_isOk_iff (server : PoprfServer) (input info : Bytes) :
    (∃ tb, PoprfInputTable.new S F input = .ok tb ∧
      ∃ outs, server.evaluateTables S [tb] info = .ok outs) ↔
      S.Admissible (server.publicKey S).point input info := by
  constructor
  · rintro ⟨tb, htb, houts⟩
    obtain ⟨hinput, helem, -⟩ := (PoprfInputTable.new_eq_ok_iff S F).mp htb
    obtain ⟨t, ht⟩ := (server.evaluateTables_isOk_iff S tb info).mp houts
    obtain ⟨hinfo, rfl, hne⟩ := (PoprfServer.computeT_eq_ok_iff S server).mp ht
    exact ⟨hinput, hinfo, helem, fun hkey => hne ((S.tweakedKey_eq_zero_iff _ _).mp hkey)⟩
  · intro hadm
    refine ⟨_, (PoprfInputTable.new_eq_ok_iff S F).mpr
      ⟨hadm.input_le, hadm.inputElement_ne_zero, rfl⟩, ?_⟩
    rw [server.evaluateTables_isOk_iff S]
    exact ⟨_, server.computeT_of_ne_zero S hadm.info_le hadm.scalar_ne_zero⟩

/-- Within the cap, the server reports a zero `t` exactly where the tweaked key is the identity. -/
theorem PoprfServer.evaluate_eq_inverse_iff (server : PoprfServer) {input info : Bytes}
    (hinput : input.length ≤ MAX_LP_LEN) (hinfo : info.length ≤ MAX_LP_LEN)
    (helem : S.inputElement input ≠ 0) :
    server.evaluate S input info = .error .inverse ↔
      S.tweakedKey (server.publicKey S).point info = 0 := by
  rw [server.evaluate_eq S, if_neg (Nat.not_lt.mpr hinput), if_neg helem, server.computeT_eq S,
    if_neg (Nat.not_lt.mpr hinfo)]
  show _ ↔ S.tweakedKey (server.sk.scalar • S.basepoint) info = 0
  rw [S.tweakedKey_eq_zero_iff]
  by_cases ht : server.sk.scalar + S.tweak info = 0
  · rw [if_pos ht, error_bind]
    exact ⟨fun _ => ht, fun _ => rfl⟩
  · rw [if_neg ht, ok_bind]
    refine ⟨fun h => ?_, fun h => absurd h ht⟩
    cases h

/-- Within the cap, blinding fails with `InvalidInput` where the tweaked key or the input element is
the identity. -/
theorem PoprfClient.Blinds.eq_invalidInput_iff {S : Suite G} {client : PoprfClient G}
    {input info : Bytes} {res : Except Error (PoprfBlindState G × BlindedElement G)}
    (h : client.Blinds S input info res) (hinput : input.length ≤ MAX_LP_LEN)
    (hinfo : info.length ≤ MAX_LP_LEN) :
    res = .error .invalidInput ↔
      S.tweakedKey client.pk info = 0 ∨ S.inputElement input = 0 := by
  obtain ⟨blind, -, rfl⟩ := h.exists_blind
  rw [client.blindWithInner_eq S, if_neg (Nat.not_lt.mpr hinput), if_neg (Nat.not_lt.mpr hinfo)]
  by_cases hkey : S.tweakedKey client.pk info = 0
  · rw [if_pos hkey]
    exact ⟨fun _ => Or.inl hkey, fun _ => rfl⟩
  rw [if_neg hkey, or_iff_right hkey]
  by_cases helem : S.inputElement input = 0
  · rw [if_pos helem]
    exact ⟨fun _ => helem, fun _ => rfl⟩
  · rw [if_neg helem]
    refine ⟨fun h => ?_, fun h => absurd h helem⟩
    cases h

end

/-- Client, server and table path refuse the same requests, and a zero `t` of the server is an
identity tweaked key of the client. -/
theorem refusals_agree (S : Suite G) (F : Features) (sk : SecretKey) (_hsk : sk.scalar ≠ 0)
    (input info : Bytes) :
    let server := PoprfServer.new sk
    let client := PoprfClient.new (server.publicKey S)
    (∀ res, client.Blinds S input info res →
      ((∃ token, res = .ok token) ↔ ∃ out, server.evaluate S input info = .ok out)) ∧
    ((∃ out, server.evaluate S input info = .ok out) ↔
      ∃ tb, PoprfInputTable.new S F input = .ok tb ∧
        ∃ outs, server.evaluateTables S [tb] info = .ok outs) ∧
    (∀ token, client.Blinds S input info (.ok token) →
      (∀ reply, server.Replies S F info reply → ∃ res, reply token.2 = .ok res) ∧
      ∀ reply, server.RepliesBatch S F info reply → ∃ res, reply [token.2] = .ok res) ∧
    (input.length ≤ MAX_LP_LEN → info.length ≤ MAX_LP_LEN →
      ∀ res, client.Blinds S input info res →
        (S.tweakedKey client.pk info = 0 → res = .error .invalidInput) ∧
        (S.inputElement input ≠ 0 →
          (S.tweakedKey client.pk info = 0 ↔ server.evaluate S input info = .error .inverse) ∧
          (res = .error .invalidInput ↔ server.evaluate S input info = .error .inverse))) := by
  intro server client
  refine ⟨?_, ?_, ?_, ?_⟩
  · intro res hres
    -- both succeed exactly on the admissible requests
    rw [hres.isOk_iff, server.evaluate_isOk_iff S]
    rfl
  · rw [server.evaluate_isOk_iff S, server.table_isOk_iff S F]
  · intro token htoken
    refine ⟨fun reply hreply => ?_, fun reply hreply => ?_⟩
    · obtain ⟨r, hr⟩ := reply_eq_ok S F htoken hreply
      exact ⟨_, hr⟩
    · have htokens : List.Forall₂ (Token S sk.scalar info) [input] [token] := .cons htoken .nil
      obtain ⟨r, hr⟩ := replyBatch_eq_ok S F (List.cons_ne_nil _ _) htokens hreply
      exact ⟨_, hr⟩
  · intro hinput hinfo res hres
    refine ⟨fun hkey => (hres.eq_invalidInput_iff hinput hinfo).mpr (Or.inl hkey), ?_⟩
    intro helem
    have hinverse := server.evaluate_eq_inverse_iff S hinput hinfo helem
    refine ⟨hinverse.symm, ?_⟩
    rw [hres.eq_invalidInput_iff hinput hinfo, or_iff_left helem]
    exact hinverse.symm

/-- An admissible request on the executable suite. -/
theorem refusals_agree_reference :
    let server := PoprfServer.new ⟨5⟩
    let client := PoprfClient.new (server.publicKey referenceSuite)
    let token : PoprfBlindState Scalar × BlindedElement Scalar :=
      (⟨7, referenceSuite.tweakedKey client.pk [1]⟩, ⟨(7 : Scalar) • referenceSuite.inputElement [2]⟩)
    let reply := fun blinded => server.blindEvaluateWithProofScalar referenceSuite ⟨true, true⟩
      blinded [1] (referenceSuite.serializeScalarArray 11)
    (∃ out, server.evaluate referenceSuite [2] [1] = .ok out) ∧
    (∃ res, reply token.2 = .ok res) ∧
    (referenceSuite.tweakedKey client.pk [1] = 0 ↔
      server.evaluate referenceSuite [2] [1] = .error .inverse) := by
  intro server client token reply
  have helem : referenceSuite.inputElement [2] ≠ 0 := by decide +kernel
  have hadm : referenceSuite.Admissible client.pk [2] [1] :=
    ⟨by decide, by decide, helem, by decide +kernel⟩
  have htoken : client.Blinds referenceSuite [2] [1] (.ok token) :=
    .of_admissible hadm (by decide +kernel)
  obtain ⟨hok, -, hreply, herror⟩ :=
    refusals_agree referenceSuite ⟨true, true⟩ ⟨5⟩ (by decide +kernel) [2] [1]
  exact ⟨(hok _ htoken).mp ⟨token, rfl⟩, (hreply token htoken).1 reply (.proofScalar 11 fun _ => rfl),
    ((herror (by decide) (by decide) _ htoken).2 helem).1⟩

/-! ## Tables -/

/-- `evaluate_tables` on tables of `inputs` is `evaluate` on each of them, in values and errors. -/
theorem evaluateTables_eq_evaluate (S : Suite G) (F : Features) (server : PoprfServer)
    {inputs : List Bytes} {tables : List (PoprfInputTable S)} (hne : tables ≠ [])
    (h : List.Forall₂ (fun input tb => PoprfInputTable.new S F input = .ok tb) inputs tables)
    (info : Bytes) :
    (∀ outs, server.evaluateTables S tables info = .ok outs ↔
      List.Forall₂ (fun input out => server.evaluate S input info = .ok out) inputs outs) ∧
    ∀ e, server.evaluateTables S tables info = .error e ↔
      ∀ input ∈ inputs, server.evaluate S input info = .error e := by
  have heval : ∀ input ∈ inputs, server.evaluate S input info = do
      let t ← server.computeT S info
      return S.outputOf input info (S.scalarInvert t • S.inputElement input) := by
    intro input hmem
    obtain ⟨tb, htb⟩ := exists_of_forall₂_mem_left h hmem
    exact PoprfServer.evaluate_eq_of_table S F server htb info
  obtain ⟨input₀, hmem₀⟩ : ∃ input, input ∈ inputs := by
    refine List.exists_mem_of_ne_nil inputs fun hnil => hne ?_
    rw [hnil, List.forall₂_nil_left_iff] at h
    exact h
  rw [server.evaluateTables_eq S F hne h]
  cases ht : server.computeT S info with
  -- without a `t` every evaluation fails with the one error of `compute_t`
  | error e₀ =>
    have hall : ∀ input ∈ inputs, server.evaluate S input info = .error e₀ := by
      intro input hmem
      rw [heval input hmem, ht, error_bind]
    refine ⟨fun outs => ?_, fun e => ?_⟩
    · rw [error_bind, ← mapM_eq_ok_iff]
      refine ⟨fun hok => ?_, fun hok => ?_⟩
      · cases hok
      · obtain ⟨out, hout⟩ := exists_of_forall₂_mem_left (mapM_eq_ok_iff.mp hok) hmem₀
        rw [hall input₀ hmem₀] at hout
        cases hout
    · rw [error_bind, Except.error.injEq]
      constructor
      · rintro rfl
        exact hall
      · intro herror
        exact Except.error.inj ((hall input₀ hmem₀).symm.trans (herror input₀ hmem₀))
  -- with it every evaluation of a tabled input succeeds
  | ok t =>
    have hall : ∀ input ∈ inputs, server.evaluate S input info =
        .ok (S.outputOf input info (S.scalarInvert t • S.inputElement input)) := by
      intro input hmem
      rw [heval input hmem, ht, ok_bind, pure_eq_ok]
    refine ⟨fun outs => ?_, fun e => ?_⟩
    · rw [ok_bind, pure_eq_ok, ← mapM_eq_ok_iff, mapM_eq_ok_map hall]
    · rw [ok_bind, pure_eq_ok]
      refine ⟨fun hok => ?_, fun herror => ?_⟩
      · cases hok
      · have hout := herror input₀ hmem₀
        rw [hall input₀ hmem₀] at hout
        cases hout

/-- Two tables of one input on the executable suite. -/
theorem evaluateTables_eq_evaluate_reference :
    let server := PoprfServer.new ⟨5⟩
    let tb : PoprfInputTable referenceSuite :=
      ⟨referenceSuite.lpHasher [2], 1, referenceSuite.fixedBase ⟨true, true⟩
        (referenceSuite.inputElement [2])⟩
    (∀ outs, server.evaluateTables referenceSuite [tb, tb] [1] = .ok outs ↔
      List.Forall₂ (fun input out => server.evaluate referenceSuite input [1] = .ok out)
        [[2], [2]] outs) ∧
    ∀ e, server.evaluateTables referenceSuite [tb, tb] [1] = .error e ↔
      ∀ input ∈ [[2], [2]], server.evaluate referenceSuite input [1] = .error e := by
  intro server tb
  have htb : PoprfInputTable.new referenceSuite ⟨true, true⟩ [2] = .ok tb :=
    (PoprfInputTable.new_eq_ok_iff referenceSuite ⟨true, true⟩).mpr
      ⟨by decide, by decide +kernel, rfl⟩
  exact evaluateTables_eq_evaluate referenceSuite ⟨true, true⟩ server (List.cons_ne_nil _ _)
    (.cons htb (.cons htb .nil)) [1]

/-! ## Collisions -/

/-- The preimage that `evaluate` hashes for an admissible request. -/
def Suite.evaluatePreimage (S : Suite G) (sk : SecretKey) (input info : Bytes) : Bytes :=
  finalizePreimage input info
    (S.serializeElement ((sk.scalar + S.tweak info)⁻¹ • S.inputElement input))

/-- An output of `evaluate` is the digest of its preimage. -/
theorem PoprfServer.evaluate_eq_sha512 (S : Suite G) {server : PoprfServer} {input info : Bytes}
    {out : PoprfOutput} (h : server.evaluate S input info = .ok out) :
    out.bytes = S.sha512 (S.evaluatePreimage server.sk input info) := by
  obtain ⟨-, rfl⟩ := (server.evaluate_eq_ok_iff S).mp h
  exact congrArg PoprfOutput.bytes (S.outputOf_eq input info _)

omit [DecidableEq G] in
/-- The preimage determines the request and the key of an admissible evaluation. -/
theorem Suite.evaluatePreimage_inj (S : Suite G) {sk₁ sk₂ : SecretKey}
    {input₁ info₁ input₂ info₂ : Bytes}
    (hadm₁ : S.Admissible (sk₁.scalar • S.basepoint) input₁ info₁)
    (hadm₂ : S.Admissible (sk₂.scalar • S.basepoint) input₂ info₂)
    (h : S.evaluatePreimage sk₁ input₁ info₁ = S.evaluatePreimage sk₂ input₂ info₂) :
    sk₁ = sk₂ ∧ input₁ = input₂ ∧ info₁ = info₂ := by
  have hfits : ∀ P : G, (S.serializeElement P).length ≤ MAX_LP_LEN := fun P => by
    rw [S.length_serializeElement]; decide
  obtain ⟨rfl, rfl, helem⟩ := finalizePreimage_inj hadm₁.input_le hadm₁.info_le (hfits _)
    hadm₂.input_le hadm₂.info_le (hfits _) h
  -- division of one nonzero point is injective in the divisor, which is the key shifted by `m`
  have hscalar := inv_smul_injective hadm₁.inputElement_ne_zero (S.serializeElement_injective helem)
  have hsk : sk₁.scalar = sk₂.scalar := add_right_cancel hscalar
  cases sk₁
  cases sk₂
  exact ⟨congrArg SecretKey.mk hsk, rfl, rfl⟩

/-- Equal outputs of different evaluations are a collision of SHA-512. -/
theorem evaluate_collision (S : Suite G) {sk₁ sk₂ : SecretKey} (_hsk₁ : sk₁.scalar ≠ 0)
    (_hsk₂ : sk₂.scalar ≠ 0) {input₁ info₁ input₂ info₂ : Bytes} {out₁ out₂ : PoprfOutput}
    (h₁ : (PoprfServer.new sk₁).evaluate S input₁ info₁ = .ok out₁)
    (h₂ : (PoprfServer.new sk₂).evaluate S input₂ info₂ = .ok out₂)
    (hne : (sk₁, input₁, info₁) ≠ (sk₂, input₂, info₂)) (hout : out₁ = out₂) :
    S.evaluatePreimage sk₁ input₁ info₁ ≠ S.evaluatePreimage sk₂ input₂ info₂ ∧
      S.sha512 (S.evaluatePreimage sk₁ input₁ info₁) =
        S.sha512 (S.evaluatePreimage sk₂ input₂ info₂) ∧
      out₁.bytes = S.sha512 (S.evaluatePreimage sk₁ input₁ info₁) := by
  have hbytes₁ := PoprfServer.evaluate_eq_sha512 S h₁
  have hbytes₂ := PoprfServer.evaluate_eq_sha512 S h₂
  refine ⟨fun hpre => hne ?_, ?_, hbytes₁⟩
  · obtain ⟨hadm₁, -⟩ := (PoprfServer.evaluate_eq_ok_iff S _).mp h₁
    obtain ⟨hadm₂, -⟩ := (PoprfServer.evaluate_eq_ok_iff S _).mp h₂
    obtain ⟨rfl, rfl, rfl⟩ := S.evaluatePreimage_inj hadm₁ hadm₂ hpre
    rfl
  · rw [hout, hbytes₂] at hbytes₁
    exact hbytes₁.symm

/-- Two infos behind an input of 64 bytes on the executable suite, whose digest ends before them. -/
theorem evaluate_collision_reference :
    let input : Bytes := List.replicate 64 1
    referenceSuite.evaluatePreimage ⟨5⟩ input [1] ≠ referenceSuite.evaluatePreimage ⟨5⟩ input [2] ∧
      referenceSuite.sha512 (referenceSuite.evaluatePreimage ⟨5⟩ input [1]) =
        referenceSuite.sha512 (referenceSuite.evaluatePreimage ⟨5⟩ input [2]) ∧
      (referenceSuite.prf 5 input [1]).bytes =
        referenceSuite.sha512 (referenceSuite.evaluatePreimage ⟨5⟩ input [1]) := by
  intro input
  have hprf : ∀ info, referenceSuite.prf 5 input info =
      ⟨ReferenceSuite.digest (lengthPrefixed input)⟩ := by
    intro info
    have hlen : 64 ≤ (lengthPrefixed input).length := by decide
    rw [Suite.prf, Suite.outputOf_eq, finalizePreimage, List.append_assoc, List.append_assoc]
    exact congrArg PoprfOutput.mk (ReferenceSuite.digest_append hlen _)
  have hok : ∀ info, referenceSuite.Admissible ((5 : Scalar) • referenceSuite.basepoint) input info →
      (PoprfServer.new ⟨5⟩).evaluate referenceSuite input info =
        .ok (referenceSuite.prf 5 input info) := fun info hadm =>
    (PoprfServer.evaluate_eq_ok_iff referenceSuite _).mpr ⟨hadm, rfl⟩
  exact evaluate_collision referenceSuite (by decide +kernel) (by decide +kernel)
    (hok [1] ⟨by decide, by decide, by decide +kernel, by decide +kernel⟩)
    (hok [2] ⟨by decide, by decide, by decide +kernel, by decide +kernel⟩)
    (fun h => by cases congrArg (fun p => p.2.2) h) ((hprf [1]).trans (hprf [2]).symm)

end PoprfRistretto
