import PoprfRistretto.Api.Calls
import PoprfRistretto.Instrumented.Events
import PoprfRistretto.KeyDerivation
import PoprfRistretto.Poprf.Codecs
import PoprfRistretto.ReferenceSuite

/-!
# The values a program can reach

Whatever a program calls, the scalars it holds are not zero and its elements are not the identity,
unless one of two calls hands it a state with a zero blind: `blind_with_scalar` and
`PoprfBlindState::from_bytes` parse the blind with `deserialize_scalar`, which accepts zero, and check
no more.
-/

namespace PoprfRistretto

open Instrumented Logged ExceptLoop

variable {G : Type} [AddCommGroup G] [Module Scalar G] [DecidableEq G]

/-! ## Valid values -/

section Values

variable {S : Suite G} (F : Features)

/-- Scalars that are keys or blinds are nonzero, elements are not the identity, and tables come from
`PoprfInputTable::new`. -/
def Value.Valid : Value S → Prop
  | secretKey sk => sk.scalar ≠ 0
  | publicKey pk => pk.point ≠ 0
  | blinded b => b.point ≠ 0
  | evaluated e => e.point ≠ 0
  | proof _ => True
  | state st => st.blind ≠ 0 ∧ st.tweakedKey ≠ 0
  | output _ => True
  | table tb => ∃ input, PoprfInputTable.new S F input = .ok tb
  | client cl => cl.pk ≠ 0
  | server srv => srv.sk.scalar ≠ 0

/-- The encoding of the value parses to the value, when its type has one. -/
def Value.RoundTrips : Value S → Prop
  | secretKey sk => SecretKey.fromBytes S (sk.toBytes S).toList = .ok sk
  | publicKey pk => PublicKey.fromBytes S (pk.toBytes S).toList = .ok pk
  | blinded b => BlindedElement.fromBytes S (b.toBytes S).toList = .ok b
  | evaluated e => EvaluatedElement.fromBytes S (e.toBytes S).toList = .ok e
  | proof prf => Proof.fromBytes S (prf.toBytes S).toList = .ok prf
  | state st => PoprfBlindState.fromBytes S (st.toBytes S).toList = .ok st
  | output o => PoprfOutput.fromBytes o.asBytes.toList = .ok o
  | table _ | client _ | server _ => True

/-- Valid values survive the wire. -/
theorem Value.Valid.roundTrips {v : Value S} (h : v.Valid F) : v.RoundTrips := by
  cases v with
  | secretKey sk => exact (SecretKey.fromBytes_eq_ok_iff S).mpr ⟨rfl, h⟩
  | publicKey pk => exact (PublicKey.fromBytes_eq_ok_iff S).mpr ⟨rfl, h⟩
  | blinded blinded => exact (BlindedElement.fromBytes_eq_ok_iff S).mpr ⟨rfl, h⟩
  | evaluated evaluated => exact (EvaluatedElement.fromBytes_eq_ok_iff S).mpr ⟨rfl, h⟩
  | proof proof => exact (Proof.fromBytes_eq_ok_iff S).mpr rfl
  | state state => exact (PoprfBlindState.fromBytes_eq_ok_iff S).mpr ⟨rfl, h.2⟩
  | output output => exact dif_pos output.bytes.2
  | table _ => trivial
  | client _ => trivial
  | server _ => trivial

end Values

/-- No zero scalar is inverted and the identity is not hashed into an output. -/
def Instrumented.Event.Regular (S : Suite G) : Event → Prop
  | i2osp2 _ => True
  | scalarInvert scalar => scalar ≠ 0
  | finalizeFrom unblinded => unblinded ≠ S.serializeElement 0
  | composites _ _ => True
  | msm _ _ => True

/-- Every value at hand is valid and survives the wire, and every event was regular. -/
structure Session.Sound {S : Suite G} (F : Features) (σ : Session S) : Prop where
  valid : ∀ v ∈ σ.pool, v.Valid F
  roundTrips : ∀ v ∈ σ.pool, v.RoundTrips
  regular : ∀ e ∈ σ.log, e.Regular S

/-- The call accepts no zero blind: when it is given one, it fails for another reason. -/
def Call.RefusesZeroBlind {S : Suite G} {R : Type} : Call S R → Prop
  | blindWithScalar client input info blindBytes =>
    S.serializeScalarArray 0 = blindBytes → ¬S.Admissible client.pk input info
  | blindStateFromBytes buf =>
    (S.serializeScalarArray 0).toList = buf.take SCALAR_LEN →
      ∀ tweakedKey, S.deserializeElement (buf.drop SCALAR_LEN) ≠ .ok tweakedKey
  | _ => True

/-! ## What the functions return -/

section Results

variable (S : Suite G) (F : Features)

omit [DecidableEq G] in
/-- An inverse is not zero. -/
theorem Suite.scalarInvert_ne_zero {s : Scalar} (hs : s ≠ 0) : S.scalarInvert s ≠ 0 := by
  rw [S.scalarInvert_eq_inv hs]
  exact inv_ne_zero hs

omit [DecidableEq G] in
/-- A server from a seed has a nonzero key. -/
theorem PoprfServer.fromSeed_eq_ok {seed : BytesN 32} {info : Bytes} {server : PoprfServer}
    (h : PoprfServer.fromSeed S seed info = .ok server) : server.sk.scalar ≠ 0 := by
  obtain ⟨⟨sk, pk⟩, hkeys, h⟩ := bind_eq_ok_iff.mp h
  cases h
  exact (deriveKeyPair_eq_ok S hkeys).1

omit [DecidableEq G] in
/-- A generated key is not zero, and its public key belongs to it. -/
theorem generateKeyPair_eq_some {R : Type} [Rng R] {fuel : ℕ} {rng rng' : R} {sk : SecretKey}
    {pk : PublicKey G} (h : generateKeyPair S fuel rng = some ((sk, pk), rng')) :
    sk.scalar ≠ 0 ∧ pk = sk.publicKey S := by
  obtain ⟨⟨s, rng₁⟩, hdraw, h⟩ := Option.bind_eq_some_iff.mp h
  cases h
  exact ⟨randomScalar_ne_zero hdraw, rfl⟩

omit [DecidableEq G] in
/-- A generated server has a nonzero key. -/
theorem PoprfServer.generate_eq_some {R : Type} [Rng R] {fuel : ℕ} {rng rng' : R}
    {server : PoprfServer} (h : PoprfServer.generate S fuel rng = some (server, rng')) :
    server.sk.scalar ≠ 0 := by
  obtain ⟨⟨⟨sk, pk⟩, rng₁⟩, hkeys, h⟩ := Option.bind_eq_some_iff.mp h
  cases h
  exact (generateKeyPair_eq_some S hkeys).1

/-- A nonzero blind gives a valid state and token. -/
theorem PoprfClient.blindWithInner_valid {client : PoprfClient G} {input info : Bytes}
    {blind : Scalar} (hblind : blind ≠ 0) {state : PoprfBlindState G} {blinded : BlindedElement G}
    (h : client.blindWithInner S input info blind = .ok (state, blinded)) :
    (state.blind ≠ 0 ∧ state.tweakedKey ≠ 0) ∧ blinded.point ≠ 0 := by
  obtain ⟨hadm, hres⟩ := (client.blindWithInner_eq_ok_iff S).mp h
  cases hres
  exact ⟨⟨hblind, hadm.tweakedKey_ne_zero⟩, smul_ne_zero hblind hadm.inputElement_ne_zero⟩

/-- What a server issues is not the identity. -/
theorem PoprfServer.blindEvaluateWithRInner_ne_zero {server : PoprfServer}
    {blinded : BlindedElement G} {info : Bytes} {r : Scalar} {evaluated : EvaluatedElement G}
    {proof : Proof}
    (h : server.blindEvaluateWithRInner S F blinded info r = .ok (evaluated, proof)) :
    evaluated.point ≠ 0 := by
  obtain ⟨hblinded, t, ht, hres⟩ := (blindEvaluateWithRInner_eq_ok_iff S F server).mp h
  cases hres
  exact smul_ne_zero (inv_ne_zero ((computeT_eq_ok_iff S server).mp ht).2.2) hblinded

/-- What a server issues to a batch is not the identity. -/
theorem PoprfServer.blindEvaluateBatchWithRInner_ne_zero {server : PoprfServer}
    {blinded : List (BlindedElement G)} {info : Bytes} {r : Scalar}
    {evaluated : List (EvaluatedElement G)} {proof : Proof}
    (h : server.blindEvaluateBatchWithRInner S F blinded info r = .ok (evaluated, proof)) :
    ∀ e ∈ evaluated, e.point ≠ 0 := by
  obtain ⟨-, hblinded, t, ht, hres⟩ := (blindEvaluateBatchWithRInner_eq_ok_iff S F server).mp h
  cases hres
  intro e he
  obtain ⟨b, hb, rfl⟩ := List.mem_map.mp he
  exact smul_ne_zero (inv_ne_zero ((computeT_eq_ok_iff S server).mp ht).2.2) (hblinded b hb)

end Results

/-! ## What a call returns -/

section Calls

variable {S : Suite G} {R : Type} [Rng R] {F : Features}

/-- A call on valid values that accepts no zero blind returns valid values. -/
theorem Call.valid_of_run {c : Call S R} (hargs : ∀ v ∈ c.args, v.Valid F)
    (hblind : c.RefusesZeroBlind) {values : List (Value S)} (h : c.run F = some (.ok values)) :
    ∀ v ∈ values, v.Valid F := by
  cases c with
  | secretKeyFromBytes buf =>
    obtain ⟨sk, hsk, rfl⟩ := returns_eq_ok_iff.mp h
    exact List.forall_mem_singleton.mpr ((SecretKey.fromBytes_eq_ok_iff S).mp hsk).2
  | publicKeyFromBytes buf =>
    obtain ⟨pk, hpk, rfl⟩ := returns_eq_ok_iff.mp h
    exact List.forall_mem_singleton.mpr ((PublicKey.fromBytes_eq_ok_iff S).mp hpk).2
  | blindedElementFromBytes buf =>
    obtain ⟨b, hb, rfl⟩ := returns_eq_ok_iff.mp h
    exact List.forall_mem_singleton.mpr ((BlindedElement.fromBytes_eq_ok_iff S).mp hb).2
  | evaluatedElementFromBytes buf =>
    obtain ⟨e, he, rfl⟩ := returns_eq_ok_iff.mp h
    exact List.forall_mem_singleton.mpr ((EvaluatedElement.fromBytes_eq_ok_iff S).mp he).2
  | proofFromBytes buf =>
    obtain ⟨proof, -, rfl⟩ := returns_eq_ok_iff.mp h
    exact List.forall_mem_singleton.mpr trivial
  | blindStateFromBytes buf =>
    obtain ⟨st, hst, rfl⟩ := returns_eq_ok_iff.mp h
    obtain ⟨hbuf, hkey⟩ := (PoprfBlindState.fromBytes_eq_ok_iff S).mp hst
    obtain ⟨htake, hdrop⟩ := take_drop_append (S.length_serializeScalarArray st.blind) hbuf
    -- the parser puts no condition on the blind: a zero is excluded by the call alone
    refine List.forall_mem_singleton.mpr ⟨fun hzero => ?_, hkey⟩
    rw [hzero] at htake
    refine hblind htake.symm st.tweakedKey ?_
    rw [hdrop, S.toList_serializeElementArray, S.deserializeElement_of_ne_zero hkey]
  | outputFromBytes buf =>
    obtain ⟨o, -, rfl⟩ := returns_eq_ok_iff.mp h
    exact List.forall_mem_singleton.mpr trivial
  | secretKeyPublicKey sk =>
    cases h
    have hsk : sk.scalar ≠ 0 := hargs (.secretKey sk) List.mem_cons_self
    exact List.forall_mem_singleton.mpr (SecretKey.publicKey_ne_zero S hsk)
  | generateKeyPair fuel rng =>
    obtain ⟨⟨⟨sk, pk⟩, rng'⟩, hkeys, hvalues⟩ := Option.map_eq_some_iff.mp h
    cases hvalues
    obtain ⟨hsk, rfl⟩ := generateKeyPair_eq_some S hkeys
    exact List.forall_mem_cons.mpr
      ⟨hsk, List.forall_mem_singleton.mpr (SecretKey.publicKey_ne_zero S hsk)⟩
  | deriveKeyPair seed info =>
    obtain ⟨⟨sk, pk⟩, hkeys, rfl⟩ := returns_eq_ok_iff.mp h
    obtain ⟨hsk, rfl⟩ := deriveKeyPair_eq_ok S hkeys
    exact List.forall_mem_cons.mpr
      ⟨hsk, List.forall_mem_singleton.mpr (SecretKey.publicKey_ne_zero S hsk)⟩
  | clientNew pk =>
    cases h
    exact List.forall_mem_singleton.mpr (hargs (.publicKey pk) List.mem_cons_self)
  | clientPublicKey client =>
    cases h
    exact List.forall_mem_singleton.mpr (hargs (.client client) List.mem_cons_self)
  | serverNew sk =>
    cases h
    exact List.forall_mem_singleton.mpr (hargs (.secretKey sk) List.mem_cons_self)
  | serverGenerate fuel rng =>
    obtain ⟨⟨server, rng'⟩, hserver, hvalues⟩ := Option.map_eq_some_iff.mp h
    cases hvalues
    exact List.forall_mem_singleton.mpr (PoprfServer.generate_eq_some S hserver)
  | serverFromSeed seed info =>
    obtain ⟨server, hserver, rfl⟩ := returns_eq_ok_iff.mp h
    exact List.forall_mem_singleton.mpr (PoprfServer.fromSeed_eq_ok S hserver)
  | serverPublicKey server =>
    cases h
    have hsk : server.sk.scalar ≠ 0 := hargs (.server server) List.mem_cons_self
    exact List.forall_mem_singleton.mpr (SecretKey.publicKey_ne_zero S hsk)
  | serverSecretKey server =>
    cases h
    exact List.forall_mem_singleton.mpr (hargs (.server server) List.mem_cons_self)
  | blind client fuel input info rng =>
    obtain ⟨⟨state, blinded⟩, rng', hres, rfl⟩ := draws_eq_ok_iff.mp h
    obtain ⟨r, hdraw, hres⟩ := (client.blind_eq_some_iff S).mp hres
    -- `random_scalar` draws again until the blind is not zero
    obtain ⟨hstate, hblinded⟩ :=
      PoprfClient.blindWithInner_valid S (randomScalar_ne_zero hdraw) hres.symm
    exact List.forall_mem_cons.mpr ⟨hstate, List.forall_mem_singleton.mpr hblinded⟩
  | blindWithScalar client input info blindBytes =>
    obtain ⟨⟨state, blinded⟩, hres, rfl⟩ := returns_eq_ok_iff.mp h
    obtain ⟨r, hr, hadm, hres⟩ := (client.blindWithScalar_eq_ok_iff S).mp hres
    -- nor does `deserialize_scalar` on an admissible request
    have hne : r ≠ 0 := by
      rintro rfl
      exact hblind hr hadm
    obtain ⟨hstate, hblinded⟩ := PoprfClient.blindWithInner_valid S hne
      ((client.blindWithInner_eq_ok_iff S).mpr ⟨hadm, hres⟩)
    exact List.forall_mem_cons.mpr ⟨hstate, List.forall_mem_singleton.mpr hblinded⟩
  | finalize client input state evaluated blinded proof info =>
    obtain ⟨o, -, rfl⟩ := returns_eq_ok_iff.mp h
    exact List.forall_mem_singleton.mpr trivial
  | finalizeBatch client inputs states evaluated blinded proof info =>
    obtain ⟨os, -, rfl⟩ := returns_eq_ok_iff.mp h
    exact List.forall_mem_map.mpr fun _ _ => trivial
  | blindEvaluate server fuel rng blinded info =>
    obtain ⟨⟨evaluated, proof⟩, rng', hres, rfl⟩ := draws_eq_ok_iff.mp h
    obtain ⟨r, hres⟩ := server.blindEvaluate_eq_some S F hres
    exact List.forall_mem_cons.mpr
      ⟨PoprfServer.blindEvaluateWithRInner_ne_zero S F hres.symm,
        List.forall_mem_singleton.mpr trivial⟩
  | blindEvaluateWithProofScalar server blinded info proofRBytes =>
    obtain ⟨⟨evaluated, proof⟩, hres, rfl⟩ := returns_eq_ok_iff.mp h
    obtain ⟨r, -, hres⟩ := bind_eq_ok_iff.mp hres
    exact List.forall_mem_cons.mpr
      ⟨PoprfServer.blindEvaluateWithRInner_ne_zero S F hres, List.forall_mem_singleton.mpr trivial⟩
  | blindEvaluateBatch server fuel rng blinded info =>
    obtain ⟨⟨evaluated, proof⟩, rng', hres, rfl⟩ := draws_eq_ok_iff.mp h
    obtain ⟨r, hres⟩ := server.blindEvaluateBatch_eq_some S F hres
    exact List.forall_mem_cons.mpr ⟨trivial, List.forall_mem_map.mpr
      (PoprfServer.blindEvaluateBatchWithRInner_ne_zero S F hres.symm)⟩
  | blindEvaluateBatchWithProofScalar server blinded info proofRBytes =>
    obtain ⟨⟨evaluated, proof⟩, hres, rfl⟩ := returns_eq_ok_iff.mp h
    obtain ⟨r, -, hres⟩ := bind_eq_ok_iff.mp hres
    exact List.forall_mem_cons.mpr ⟨trivial, List.forall_mem_map.mpr
      (PoprfServer.blindEvaluateBatchWithRInner_ne_zero S F hres)⟩
  | evaluate server input info =>
    obtain ⟨o, -, rfl⟩ := returns_eq_ok_iff.mp h
    exact List.forall_mem_singleton.mpr trivial
  | tableNew input =>
    obtain ⟨tb, htb, rfl⟩ := returns_eq_ok_iff.mp h
    exact List.forall_mem_singleton.mpr ⟨input, htb⟩
  | evaluateTables server tables info =>
    obtain ⟨os, -, rfl⟩ := returns_eq_ok_iff.mp h
    exact List.forall_mem_map.mpr fun _ _ => trivial

/-- A call that accepts a zero blind returns a state with it. -/
theorem Call.refusesZeroBlind_of_results {c : Call S R}
    (h : ∀ v ∈ c.results F, v.Valid F) : c.RefusesZeroBlind := by
  cases c with
  | blindWithScalar client input info blindBytes =>
    rintro rfl hadm
    -- were the zero blind accepted, the state would hold it
    have hres := (client.blindWithScalar_eq_ok_iff S).mpr ⟨0, rfl, hadm, rfl⟩
    have hmem : Value.state ⟨0, S.tweakedKey client.pk info⟩ ∈
        (Call.blindWithScalar client input info (S.serializeScalarArray 0) : Call S R).results F :=
      Call.mem_results_iff.mpr ⟨_, returns_eq_ok_iff.mpr ⟨_, hres, rfl⟩, List.mem_cons_self⟩
    exact (h _ hmem).1 rfl
  | blindStateFromBytes buf =>
    intro hzero tweakedKey hkey
    obtain ⟨hdrop, hne⟩ := S.deserializeElement_eq_ok_iff.mp hkey
    have hbuf : ((⟨0, tweakedKey⟩ : PoprfBlindState G).toBytes S).toList = buf := by
      show (S.serializeScalarArray 0).toList ++ S.serializeElement tweakedKey = buf
      rw [hzero, hdrop, List.take_append_drop]
    have hres := (PoprfBlindState.fromBytes_eq_ok_iff S).mpr ⟨hbuf, hne⟩
    have hmem : Value.state ⟨0, tweakedKey⟩ ∈
        (Call.blindStateFromBytes buf : Call S R).results F :=
      Call.mem_results_iff.mpr ⟨_, returns_eq_ok_iff.mpr ⟨_, hres, rfl⟩, List.mem_singleton_self _⟩
    exact (h _ hmem).1 rfl
  | _ => trivial

/-! ## What a call logs -/

omit [Rng R] [DecidableEq G] in
/-- A proof over `n` pairs inverts no scalar and hashes no element into an output. -/
theorem encodesBatch_regular (n : ℕ) : EncodesBatch F (Event.Regular S) n :=
  ⟨⟨trivial, trivial, trivial⟩, fun _ _ => trivial, trivial, fun _ => trivial⟩

omit [Rng R] [DecidableEq G] in
/-- Hashing an element into an output is regular unless it is the identity. -/
theorem finalizesElement_regular {info : Bytes} {P : G} (hP : P ≠ 0) :
    FinalizesElement S (Event.Regular S) info P :=
  ⟨fun h => hP (S.serializeElement_injective h), trivial, trivial⟩

omit [Rng R] [DecidableEq G] in
/-- Unblinding is regular for a nonzero blind. -/
theorem unblinds_regular {input info : Bytes} {state : PoprfBlindState G}
    {evaluated : EvaluatedElement G} (hblind : state.blind ≠ 0) (hevaluated : evaluated.point ≠ 0) :
    Unblinds S (Event.Regular S) input info state evaluated :=
  ⟨hblind, trivial,
    finalizesElement_regular (smul_ne_zero (S.scalarInvert_ne_zero hblind) hevaluated)⟩

omit [Rng R] in
/-- A server inverts and divides by a nonzero scalar only. -/
theorem blindEvaluateWithRInner_regular {server : PoprfServer} {blinded : BlindedElement G}
    {info : Bytes} {r : Scalar} :
    All (Event.Regular S) (blindEvaluateWithRInner S F server blinded info r).run := by
  refine (all_blindEvaluateWithRInner S F server).mpr fun _ => ⟨fun _ => trivial, fun t ht => ?_⟩
  exact ⟨((PoprfServer.computeT_eq_ok_iff S server).mp ht).2.2, encodesBatch_regular 1⟩

omit [Rng R] in
/-- A server inverts and divides by a nonzero scalar only. -/
theorem blindEvaluateBatchWithRInner_regular {server : PoprfServer}
    {blinded : List (BlindedElement G)} {info : Bytes} {r : Scalar} :
    All (Event.Regular S) (blindEvaluateBatchWithRInner S F server blinded info r).run := by
  refine (all_blindEvaluateBatchWithRInner S F server).mpr
    fun _ _ => ⟨fun _ => trivial, fun t ht => ?_⟩
  exact ⟨((PoprfServer.computeT_eq_ok_iff S server).mp ht).2.2, encodesBatch_regular _⟩

/-- A call on valid values inverts no zero scalar and hashes no identity. -/
theorem Call.regular {c : Call S R} (hargs : ∀ v ∈ c.args, v.Valid F) :
    All (Event.Regular S) (c.exec F) := by
  cases c with
  | deriveKeyPair seed info =>
    exact all_map.mpr ((all_deriveKeyPair S).mpr fun _ => trivial)
  | serverFromSeed seed info =>
    exact all_map.mpr ((all_fromSeed S).mpr fun _ => trivial)
  | blind client fuel input info rng =>
    exact all_map.mpr ((all_blind S client).mpr fun _ _ _ => trivial)
  | blindWithScalar client input info blindBytes =>
    exact all_map.mpr ((all_blindWithScalar S client).mpr fun _ _ _ _ => trivial)
  | finalize client input state evaluated blinded proof info =>
    have hstate : state.blind ≠ 0 ∧ state.tweakedKey ≠ 0 := hargs (.state state) (by simp [args])
    have hevaluated : evaluated.point ≠ 0 := hargs (.evaluated evaluated) (by simp [args])
    refine all_map.mpr ((all_finalize S F).mpr fun _ _ => ⟨encodesBatch_regular 1, fun _ => ?_⟩)
    exact unblinds_regular hstate.1 hevaluated
  | finalizeBatch client inputs states evaluated blinded proof info =>
    refine all_map.mpr ((all_finalizeBatch S F).mpr fun _ _ => ⟨encodesBatch_regular _, ?_⟩)
    rintro - ⟨⟨input, state⟩, e⟩ htoken
    -- the state and the element of a token are among the arguments
    obtain ⟨hpair, he⟩ := List.of_mem_zip htoken
    have hst := (List.of_mem_zip hpair).2
    have hstate : state.blind ≠ 0 ∧ state.tweakedKey ≠ 0 :=
      hargs (.state state) (by simp [args, hst])
    have hevaluated : e.point ≠ 0 := hargs (.evaluated e) (by simp [args, he])
    exact unblinds_regular hstate.1 hevaluated
  | blindEvaluate server fuel rng blinded info =>
    refine all_map.mpr ((all_blindEvaluate S F server).mpr fun _ => ⟨fun _ => trivial, ?_⟩)
    intro t ht
    exact ⟨((PoprfServer.computeT_eq_ok_iff S server).mp ht).2.2, .inr (encodesBatch_regular 1)⟩
  | blindEvaluateWithProofScalar server blinded info proofRBytes =>
    exact all_map.mpr ((all_blindEvaluateWithProofScalar S F server).mpr
      fun _ _ => blindEvaluateWithRInner_regular)
  | blindEvaluateBatch server fuel rng blinded info =>
    refine all_map.mpr ((all_blindEvaluateBatch S F server).mpr fun _ _ => ⟨fun _ => trivial, ?_⟩)
    intro t ht
    exact ⟨((PoprfServer.computeT_eq_ok_iff S server).mp ht).2.2, .inr (encodesBatch_regular _)⟩
  | blindEvaluateBatchWithProofScalar server blinded info proofRBytes =>
    exact all_map.mpr ((all_blindEvaluateBatchWithProofScalar S F server).mpr
      fun _ _ => blindEvaluateBatchWithRInner_regular)
  | evaluate server input info =>
    refine all_map.mpr ((all_evaluate S server).mpr
      fun _ helem => ⟨fun _ => trivial, fun t ht => ?_⟩)
    have hne := ((PoprfServer.computeT_eq_ok_iff S server).mp ht).2.2
    exact ⟨hne, trivial, finalizesElement_regular (smul_ne_zero (S.scalarInvert_ne_zero hne) helem)⟩
  | tableNew input =>
    exact all_map.mpr ((all_newTable S).mpr fun _ _ => trivial)
  | evaluateTables server tables info =>
    refine all_map.mpr ((all_evaluateTables S server).mpr
      fun _ => ⟨fun _ => trivial, fun t ht => ?_⟩)
    have hne := ((PoprfServer.computeT_eq_ok_iff S server).mp ht).2.2
    refine ⟨hne, fun tb htb => finalizesElement_regular ?_⟩
    -- a valid table was built from an input that is hashed off the identity
    obtain ⟨input, hnew⟩ : (Value.table tb).Valid F := hargs (.table tb) (by simp [args, htb])
    obtain ⟨-, helem, rfl⟩ := (PoprfInputTable.new_eq_ok_iff S F).mp hnew
    rw [S.scalarMulFixed_fixedBase]
    exact smul_ne_zero (S.scalarInvert_ne_zero hne) helem
  | _ => exact all_pure _

/-! ## Runs -/

/-- One call keeps a session sound exactly when it accepts no zero blind. -/
theorem Session.Step.sound_iff {σ σ' : Session S} {c : Call S R} (h : Session.Step F σ c σ') :
    σ'.Sound F ↔ σ.Sound F ∧ c.RefusesZeroBlind := by
  obtain ⟨held⟩ := h
  constructor
  -- pool and log only grow, so a sound session was sound before the call
  · intro hsound
    have hvalid := List.forall_mem_append.mp hsound.valid
    exact ⟨⟨hvalid.1, (List.forall_mem_append.mp hsound.roundTrips).1,
      (List.forall_mem_append.mp hsound.regular).1⟩, Call.refusesZeroBlind_of_results hvalid.2⟩
  · rintro ⟨hsound, hblind⟩
    have hargs : ∀ v ∈ c.args, v.Valid F := fun v hv => hsound.valid v (held v hv)
    have hvalid : ∀ v ∈ σ.pool ++ c.results F, v.Valid F := by
      refine List.forall_mem_append.mpr ⟨hsound.valid, fun v hv => ?_⟩
      obtain ⟨values, hrun, hmem⟩ := Call.mem_results_iff.mp hv
      exact Call.valid_of_run hargs hblind hrun v hmem
    exact ⟨hvalid, fun v hv => (hvalid v hv).roundTrips,
      List.forall_mem_append.mpr ⟨hsound.regular, Call.regular hargs⟩⟩

omit [Rng R] in
/-- A session starts without values, all of them sound. -/
theorem Session.start_sound : (Session.start : Session S).Sound F :=
  ⟨fun _ h => absurd h List.not_mem_nil, fun _ h => absurd h List.not_mem_nil,
    fun _ h => absurd h List.not_mem_nil⟩

/-- A run goes on with any call on values at hand. What the call returns is held and what it does is
logged. -/
theorem Session.Reached.extend {calls : List (Call S R)} {σ : Session S}
    (h : Session.Reached F calls σ) {c : Call S R} (held : ∀ v ∈ c.args, v ∈ σ.pool)
    {values : List (Value S)} (hrun : c.run F = some (.ok values)) :
    ∃ σ', Session.Reached F (calls ++ [c]) σ' ∧ (∀ v ∈ values ++ σ.pool, v ∈ σ'.pool) ∧
      ∀ e ∈ (c.exec F).log, e ∈ σ'.log := by
  refine ⟨_, Run.snoc h (.call held), fun v hv => ?_, fun e he => List.mem_append_right _ he⟩
  rcases List.mem_append.mp hv with hvalues | hpool
  · exact List.mem_append_right _ (Call.mem_results_iff.mpr ⟨values, hrun, hvalues⟩)
  · exact List.mem_append_left _ hpool

/-- A client of any public key but the identity can be set up. -/
theorem exists_reached_client (F : Features) (pk : PublicKey G) (hpk : pk.point ≠ 0) :
    ∃ σ, Session.Reached F [Call.publicKeyFromBytes (pk.toBytes S).toList,
      (Call.clientNew pk : Call S R)] σ ∧ .client (.new pk) ∈ σ.pool := by
  obtain ⟨σ₁, hrun₁, hpool₁, -⟩ := Session.Reached.extend (R := R) (F := F) (.refl : Run _ _ _ _)
    (c := .publicKeyFromBytes (pk.toBytes S).toList) (fun _ h => absurd h List.not_mem_nil)
    (returns_eq_ok_iff.mpr ⟨pk, (PublicKey.fromBytes_eq_ok_iff S).mpr ⟨rfl, hpk⟩, rfl⟩)
  obtain ⟨σ₂, hrun₂, hpool₂, -⟩ := hrun₁.extend (c := .clientNew pk)
    (List.forall_mem_singleton.mpr (hpool₁ _ List.mem_cons_self)) rfl
  exact ⟨σ₂, hrun₂, hpool₂ _ List.mem_cons_self⟩

/-- Any evaluated element, blinded element and proof can be received, but for the identity. -/
theorem Session.Reached.receive {calls : List (Call S R)} {σ : Session S}
    (h : Session.Reached F calls σ) {e : EvaluatedElement G} {b : BlindedElement G} (proof : Proof)
    (he : e.point ≠ 0) (hb : b.point ≠ 0) :
    ∃ calls' σ', Session.Reached F (calls ++ calls' : List (Call S R)) σ' ∧
      (∀ v ∈ σ.pool, v ∈ σ'.pool) ∧ .evaluated e ∈ σ'.pool ∧ .blinded b ∈ σ'.pool ∧
      .proof proof ∈ σ'.pool := by
  obtain ⟨σ₁, hrun₁, hpool₁, -⟩ := h.extend
    (c := .evaluatedElementFromBytes (e.toBytes S).toList) (fun _ h => absurd h List.not_mem_nil)
    (returns_eq_ok_iff.mpr ⟨e, (EvaluatedElement.fromBytes_eq_ok_iff S).mpr ⟨rfl, he⟩, rfl⟩)
  obtain ⟨σ₂, hrun₂, hpool₂, -⟩ := hrun₁.extend
    (c := .blindedElementFromBytes (b.toBytes S).toList) (fun _ h => absurd h List.not_mem_nil)
    (returns_eq_ok_iff.mpr ⟨b, (BlindedElement.fromBytes_eq_ok_iff S).mpr ⟨rfl, hb⟩, rfl⟩)
  obtain ⟨σ₃, hrun₃, hpool₃, -⟩ := hrun₂.extend
    (c := .proofFromBytes (proof.toBytes S).toList) (fun _ h => absurd h List.not_mem_nil)
    (returns_eq_ok_iff.mpr ⟨proof, (Proof.fromBytes_eq_ok_iff S).mpr rfl, rfl⟩)
  have hkept₂ : ∀ v ∈ σ₂.pool, v ∈ σ₃.pool := fun v hv => hpool₃ v (List.mem_append_right _ hv)
  have hkept₁ : ∀ v ∈ σ₁.pool, v ∈ σ₃.pool := fun v hv =>
    hkept₂ v (hpool₂ v (List.mem_append_right _ hv))
  rw [List.append_assoc, List.append_assoc] at hrun₃
  exact ⟨_, σ₃, hrun₃, fun v hv => hkept₁ v (hpool₁ v (List.mem_append_right _ hv)),
    hkept₁ _ (hpool₁ _ List.mem_cons_self), hkept₂ _ (hpool₂ _ List.mem_cons_self),
    hpool₃ _ List.mem_cons_self⟩

end Calls

/-- After any sequence of calls every value is valid, survives the wire, and no zero was inverted nor
the identity hashed, exactly when no call of the sequence accepted a zero blind. -/
theorem reached_sound_iff (S : Suite G) {R : Type} [Rng R] (F : Features) {calls : List (Call S R)}
    {σ : Session S} (h : Session.Reached F calls σ) :
    σ.Sound F ↔ ∀ c ∈ calls, c.RefusesZeroBlind := by
  have hrun : Run (Session.Step F) .start calls σ := h
  rw [hrun.invariant_iff fun hstep => hstep.sound_iff, and_iff_right Session.start_sound]

/-- A session of the executable suite in which a token is blinded with the scalar `7` is sound. -/
theorem reached_sound_iff_reference :
    ∃ σ : Session referenceSuite,
      Session.Reached (R := Replay) ⟨true, true⟩
        [.publicKeyFromBytes (referenceSuite.serializeElement 5), .clientNew ⟨5⟩,
          .blindWithScalar ⟨5⟩ [3] [1] (referenceSuite.serializeScalarArray 7)] σ ∧
      σ.Sound ⟨true, true⟩ := by
  obtain ⟨σ, hrun, hclient⟩ := exists_reached_client (S := referenceSuite) (R := Replay)
    ⟨true, true⟩ ⟨5⟩ (by decide)
  have hadm : referenceSuite.Admissible (5 : Scalar) [3] [1] :=
    ⟨by decide, by decide, by decide +kernel, by decide +kernel⟩
  have hres := (PoprfClient.mk 5).blindWithInner_of_admissible referenceSuite hadm 7
  rw [← PoprfClient.blindWithScalar_eq] at hres
  obtain ⟨σ', hrun', -⟩ := hrun.extend
    (c := .blindWithScalar ⟨5⟩ [3] [1] (referenceSuite.serializeScalarArray 7))
    (List.forall_mem_singleton.mpr hclient) (returns_eq_ok_iff.mpr ⟨_, hres, rfl⟩)
  refine ⟨σ', hrun', (reached_sound_iff referenceSuite ⟨true, true⟩ hrun').mpr ?_⟩
  have hne : referenceSuite.serializeScalarArray 0 ≠ referenceSuite.serializeScalarArray 7 := by
    decide +kernel
  intro c hc
  simp only [List.cons_append, List.nil_append, List.mem_cons, List.not_mem_nil, or_false] at hc
  -- only the last call is given a blind
  rcases hc with rfl | rfl | rfl
  · trivial
  · trivial
  · exact fun h => absurd h hne

/-- In the executable suite a client blinds with the scalar zero: it holds a zero blind and a blinded
identity. Finalized with any evaluated element that verifies, the token inverts zero and its output
is the hash of the identity. -/
theorem zero_blind_reached :
    ∃ (calls : List (Call referenceSuite Replay)) (σ : Session referenceSuite),
      Session.Reached ⟨true, true⟩ calls σ ∧
      (∃ tweakedKey, .state ⟨0, tweakedKey⟩ ∈ σ.pool) ∧ .blinded ⟨0⟩ ∈ σ.pool ∧
      .scalarInvert 0 ∈ σ.log ∧ .finalizeFrom (referenceSuite.serializeElement 0) ∈ σ.log ∧
      ¬σ.Sound ⟨true, true⟩ := by
  let S := referenceSuite
  let F : Features := ⟨true, true⟩
  let client : PoprfClient Scalar := ⟨5⟩
  let state : PoprfBlindState Scalar := ⟨0, S.tweakedKey 5 [1]⟩
  let t := S.tweak [1] + 5
  let proof := S.generateProofWithR F t S.basepoint t [1] [t] 11
  have hadm : S.Admissible (5 : Scalar) [3] [1] :=
    ⟨by decide, by decide, by decide +kernel, by decide +kernel⟩
  -- the client, the token with the zero blind, and an answer that verifies under its key
  obtain ⟨σ₁, hrun₁, hclient⟩ := exists_reached_client (S := S) (R := Replay) F ⟨5⟩ (by decide)
  have hblind : client.blindWithScalar S [3] [1] (S.serializeScalarArray 0) = .ok (state, ⟨0⟩) := by
    rw [client.blindWithScalar_eq, client.blindWithInner_of_admissible S hadm, zero_smul]
  obtain ⟨σ₂, hrun₂, hpool₂, -⟩ := hrun₁.extend
    (c := .blindWithScalar client [3] [1] (S.serializeScalarArray 0))
    (List.forall_mem_singleton.mpr hclient) (returns_eq_ok_iff.mpr ⟨_, hblind, rfl⟩)
  obtain ⟨calls, σ₃, hrun₃, hkept, hevaluated, hblinded, hproof⟩ :=
    hrun₂.receive (e := ⟨1⟩) (b := ⟨t⟩) proof (by decide) (by decide +kernel)
  have hstate : .state state ∈ σ₃.pool := hkept _ (hpool₂ _ List.mem_cons_self)
  have hheld : ∀ v ∈ (Call.finalize client [3] state ⟨1⟩ ⟨t⟩ proof [1] : Call S Replay).args,
      v ∈ σ₃.pool := by
    intro v hv
    simp only [Call.args, List.mem_cons, List.not_mem_nil, or_false] at hv
    rcases hv with rfl | rfl | rfl | rfl | rfl
    · exact hkept _ (hpool₂ _ (List.mem_append_right _ hclient))
    · exact hstate
    · exact hevaluated
    · exact hblinded
    · exact hproof
  have hverified : S.verifyProof F S.basepoint state.tweakedKey [1] [t] proof = .ok () := by
    decide +kernel
  have hfinalize : client.finalize S F [3] state ⟨1⟩ ⟨t⟩ proof [1] =
      .ok (client.unblindAndHash S [3] [1] state ⟨1⟩) :=
    (client.finalize_eq_ok_iff S F).mpr ⟨by decide, by decide, hverified, rfl⟩
  obtain ⟨σ₄, hrun₄, hpool₄, hlog₄⟩ := hrun₃.extend hheld
    (returns_eq_ok_iff.mpr ⟨_, hfinalize, rfl⟩)
  -- the final call inverts the blind and hashes the unblinded element
  have hevents : ∀ p : Event → Prop,
      All p ((Call.finalize client [3] state ⟨1⟩ ⟨t⟩ proof [1] : Call S Replay).exec F) →
        Unblinds S p [3] [1] state ⟨1⟩ := fun p h =>
    ((all_finalize S F).mp (all_map.mp h) (by decide) (by decide)).2 hverified
  have hinvert : .scalarInvert 0 ∈ σ₄.log :=
    hlog₄ _ (mem_log_iff.mpr fun h => (hevents _ h).1 rfl)
  have hinv : S.scalarInvert 0 • (1 : Scalar) = 0 := by decide +kernel
  have hhash : .finalizeFrom (S.serializeElement 0) ∈ σ₄.log :=
    hlog₄ _ (mem_log_iff.mpr fun h => (hevents _ h).2.2.1
      (congrArg (Event.finalizeFrom ∘ S.serializeElement) hinv))
  have hidentity : .blinded ⟨0⟩ ∈ σ₃.pool := hkept _ (hpool₂ _ (by simp [tokenValues]))
  exact ⟨_, σ₄, hrun₄, ⟨_, hpool₄ _ (List.mem_append_right _ hstate)⟩,
    hpool₄ _ (List.mem_append_right _ hidentity), hinvert, hhash,
    fun hsound => hsound.regular _ hinvert rfl⟩

end PoprfRistretto
