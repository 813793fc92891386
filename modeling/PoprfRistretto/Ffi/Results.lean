import PoprfRistretto.Ffi.Process
import PoprfRistretto.Ffi.Batches

/-!
# The C ABI computes what the core computes

A call that succeeds hands out what the core computes from the values of its handles, and it fails
exactly when the core does or when an argument is missing.
-/

namespace PoprfRistretto.Ffi

open Memory PartialState Utf8

variable {G : Type} [AddCommGroup G] [Module Scalar G] {S : Suite G} {R α : Type}

/-! ## What the calls compute -/

/-- The handle points to the value. -/
def PointsAt (s : Shared S R) (t : HandleType) (p : Ptr) (v : t.Value S) : Prop :=
  p ≠ NULL ∧ s.heap.get p = some ⟨t, v⟩

/-- The array holds handles that point to the values. -/
def ArrayPointsAt (s : Shared S R) (t : HandleType) (arr : Ptr) (n : ℕ) (values : List (t.Value S)) :
    Prop :=
  ∃ ptrs : List Ptr,
    List.Forall₂ (fun i p => s.memory (arr + i) = some (some p)) (List.range n) ptrs ∧
    List.Forall₂ (PointsAt s t) ptrs values

/-- The text is an encoding of the value. -/
def Reads {β : Type} (base64 : Base64) (fromBytes : Bytes → Except Error β) (text : RawSlice) (v : β) :
    Prop :=
  ∃ s bytes, bytesFromRaw text = some s ∧ base64.decode s = .ok bytes ∧ fromBytes bytes = .ok v

/-- A string is made of the value that a handle points to. -/
def Encodes (base64 : Base64) (s : Shared S R) (t : HandleType) (toBytes : t.Value S → Bytes) (p : Ptr)
    (new : List (Boxed S)) : Prop :=
  ∃ v c, PointsAt s t p v ∧ c.bytes = utf8Bytes (base64.encode (toBytes v)) ∧ new = [⟨.cChar, c⟩]

/-- A handle is made of the value that a text encodes. -/
def Decodes (base64 : Base64) (t : HandleType) (fromBytes : Bytes → Except Error (t.Value S))
    (text : RawSlice) (new : List (Boxed S)) : Prop :=
  ∃ v, Reads base64 fromBytes text v ∧ new = [⟨t, v⟩]

/-- What an operation hands out when it succeeds: what the core computes from the values of the handles
and from the bytes that are passed. -/
def Call.Computes [DecidableEq G] [Rng R] (base64 : Base64) (F : Features) (fuel : ℕ)
    (s : Shared S R) : Call → List (Boxed S) → Prop
  | poprfSecretKeyFromSeed seed info, new => ∃ seedBytes infoBytes sk pk,
    (bytesFromRaw seed).bind seedArr = some seedBytes ∧ bytesFromRaw info = some infoBytes ∧
    deriveKeyPair S seedBytes infoBytes = .ok (sk, pk) ∧ new = [⟨.secretKey, sk⟩]
  | poprfSecretKeyDecodeBase64 text, new =>
    Decodes base64 .secretKey (SecretKey.fromBytes S) text new
  | poprfSecretKeyEncodeBase64 sk, new =>
    Encodes base64 s .secretKey (fun sk => (sk.toBytes S).toList) sk new
  | poprfPublicKeyFromSecret sk, new => ∃ skS, PointsAt s .secretKey sk skS ∧
    new = [⟨.publicKey, skS.publicKey S⟩]
  | poprfPublicKeyEncodeBase64 pk, new =>
    Encodes base64 s .publicKey (fun pk => (pk.toBytes S).toList) pk new
  | poprfBlindedElementDecodeBase64 text, new =>
    Decodes base64 .blindedElement (BlindedElement.fromBytes S) text new
  | poprfEvaluatedElementEncodeBase64 e, new =>
    Encodes base64 s .evaluatedElement (fun e => (e.toBytes S).toList) e new
  | poprfProofEncodeBase64 p, new => Encodes base64 s .proof (fun p => (p.toBytes S).toList) p new
  | poprfBlindEvaluateBatch sk blindedArr n info outEvaluated outProof, new =>
    (blindedArr ≠ NULL ∧ outEvaluated ≠ NULL ∧ outProof ≠ NULL ∧ n ≠ 0) ∧
    ∃ skS blindeds infoBytes evaluateds proof osRng, PointsAt s .secretKey sk skS ∧
      ArrayPointsAt s .blindedElement blindedArr n blindeds ∧ bytesFromRaw info = some infoBytes ∧
      (PoprfServer.new skS).blindEvaluateBatch S F fuel s.osRng blindeds infoBytes =
        some (.ok (evaluateds, proof), osRng) ∧
      new = evaluateds.map (Boxed.mk .evaluatedElement) ++ [⟨.proof, proof⟩]
  | poprfEvaluate sk input info, new => ∃ skS inputBytes infoBytes out,
    PointsAt s .secretKey sk skS ∧ bytesFromRaw input = some inputBytes ∧
    bytesFromRaw info = some infoBytes ∧
    (PoprfServer.new skS).evaluate S inputBytes infoBytes = .ok out ∧ new = [⟨.output, out⟩]
  | poprfInputTableNew input, new => ∃ inputBytes tb, bytesFromRaw input = some inputBytes ∧
    PoprfInputTable.new S F inputBytes = .ok tb ∧ new = [⟨.inputTable, tb⟩]
  | poprfEvaluateTables sk tablesArr n info outOutputs, new =>
    (tablesArr ≠ NULL ∧ outOutputs ≠ NULL ∧ n ≠ 0) ∧
    ∃ skS tables infoBytes outputs, PointsAt s .secretKey sk skS ∧
      ArrayPointsAt s .inputTable tablesArr n tables ∧ bytesFromRaw info = some infoBytes ∧
      (PoprfServer.new skS).evaluateTables S tables infoBytes = .ok outputs ∧
      new = outputs.map (Boxed.mk .output)
  | poprfOutputEncodeBase64 o, new => Encodes base64 s .output (fun o => o.asBytes.toList) o new
  | poprfOutputEqBase64 o expectedB64, new => ∃ out other, PointsAt s .output o out ∧
    Reads base64 PoprfOutput.fromBytes expectedB64 other ∧ new = []
  | _, _ => False

/-! ## The functions -/

/-- A failure, when nothing is computed, or a success that hands out what is computed. -/
def Outcome (failed : α → Prop) (computes : List (Boxed S) → Prop) (s : State S R) (a : α)
    (s' : State S R) : Prop :=
  (failed a ∧ s'.heap = s.heap ∧ ∀ new, ¬computes new) ∨
    ¬failed a ∧ ∃ new, computes new ∧ s.heap.Extends s'.heap new

section Outcome

variable {failed : α → Prop} {computes : List (Boxed S) → Prop} {s u : State S R}

/-- An early exit is the outcome of a failure, provided that the core computes nothing. -/
theorem outcome_failWith {ret : α} (msg : String) (hu : u.heap = s.heap) (hfailed : failed ret)
    (hnone : ∀ new, ¬computes new) : Post (failWith msg ret) u (Outcome failed computes s) :=
  post_bind (post_modify (post_pure (.inl ⟨hfailed, hu, hnone⟩)))

/-- A value that is handed out is the outcome of a success. -/
theorem outcome_intoRaw {t : HandleType} {v : t.Value S} (hu : u.heap = s.heap)
    (hnew : computes [⟨t, v⟩]) : Post (intoRaw t v) u (Outcome (· = NULL) computes s) := by
  intro p s' hrun
  cases hrun
  refine .inr ⟨u.heap.next_ne_zero, [⟨t, v⟩], hnew, ?_⟩
  rw [← hu]
  exact .alloc _ _

end Outcome

/-- A C string is made of its bytes. -/
theorem CString.new_eq_some_iff {bytes : Bytes} {c : CString} :
    CString.new bytes = some c ↔ c.bytes = bytes := by
  unfold CString.new
  constructor
  · intro h
    split at h
    · rw [← Option.some.inj h]
    · cases h
  · rintro rfl
    exact dif_pos c.nul_not_mem

/-- A handle points to one value. -/
theorem value_unique {heap : Heap (Boxed S)} {t : HandleType} {p : Ptr} {v v' : t.Value S}
    (h : heap.get p = some ⟨t, v⟩) (h' : heap.get p = some ⟨t, v'⟩) : v = v' := by
  have hbox : some (⟨t, v⟩ : Boxed S) = some ⟨t, v'⟩ := h.symm.trans h'
  cases hbox
  rfl

/-- A text encodes one value. -/
theorem reads_unique {β : Type} {base64 : Base64} {fromBytes : Bytes → Except Error β}
    {text : RawSlice} {s bytes : Bytes} (hs : bytesFromRaw text = some s)
    (hdecode : base64.decode s = .ok bytes) {v : β} (h : Reads base64 fromBytes text v) :
    fromBytes bytes = .ok v := by
  obtain ⟨s', bytes', hs', hdecode', hparse⟩ := h
  obtain rfl := Option.some.inj (hs.symm.trans hs')
  obtain rfl := Except.ok.inj (hdecode.symm.trans hdecode')
  exact hparse

section Functions

variable (base64 : Base64) (s : State S R)

/-- An encoder fails on NULL and succeeds on a handle. -/
theorem outcome_encodeBase64 (t : HandleType) (nullMsg : String) (toBytes : t.Value S → Bytes)
    (p : Ptr) :
    Post (encodeBase64 base64 t nullMsg toBytes p) s
      (Outcome (· = NULL) (Encodes base64 s.toShared t toBytes p) s) := by
  refine post_bind (post_modify ?_)
  split
  · rename_i hp
    refine outcome_failWith _ rfl rfl ?_
    rintro new ⟨v, c, ⟨hne, -⟩, -⟩
    exact hne hp
  · rename_i hp
    refine post_bind ((post_deref _ t p).mono fun v u hv => ?_)
    obtain ⟨rfl, hv⟩ := hv
    rw [cstringOrNull]
    split
    · rename_i c hc
      refine outcome_intoRaw rfl ⟨v, c, ⟨hp, hv⟩, ?_, rfl⟩
      exact CString.new_eq_some_iff.mp hc
    · rename_i hc
      refine outcome_failWith _ rfl rfl ?_
      rintro new ⟨v', c, ⟨-, hv'⟩, hbytes, -⟩
      obtain rfl := value_unique hv hv'
      -- a text with a NUL is no C string, so that nothing is computed
      rw [← hbytes, CString.new_bytes] at hc
      cases hc

/-- A decoder succeeds on the texts of its values. -/
theorem outcome_decodeBase64 (t : HandleType) (name : String)
    (fromBytes : Bytes → Except Error (t.Value S)) (text : RawSlice) :
    Post (decodeBase64 base64 t name fromBytes text) s
      (Outcome (· = NULL) (Decodes base64 t fromBytes text) s) := by
  refine post_bind (post_modify ?_)
  split
  · rename_i bytes hs
    split
    · rename_i e hdecode
      refine outcome_failWith _ rfl rfl ?_
      rintro new ⟨v, ⟨s', bytes', hs', hdecode', -⟩, -⟩
      obtain rfl := Option.some.inj (hs.symm.trans hs')
      rw [hdecode] at hdecode'
      cases hdecode'
    · rename_i decoded hdecode
      split
      · rename_i v hparse
        exact outcome_intoRaw rfl ⟨v, ⟨_, _, hs, hdecode, hparse⟩, rfl⟩
      · rename_i e hparse
        refine outcome_failWith _ rfl rfl ?_
        rintro new ⟨v, hreads, -⟩
        rw [reads_unique hs hdecode hreads] at hparse
        cases hparse
  · rename_i hnone
    refine outcome_failWith _ rfl rfl ?_
    rintro new ⟨v, ⟨s', -, hs', -⟩, -⟩
    exact hnone s' hs'

/-- The key derivation succeeds when the core's does, on a seed of 32 bytes. -/
theorem outcome_poprfSecretKeyFromSeed (seed info : RawSlice) :
    Post (poprfSecretKeyFromSeed seed info : CAbi S R Ptr) s
      (Outcome (· = NULL) (fun new => ∃ seedBytes infoBytes sk pk,
        (bytesFromRaw seed).bind seedArr = some seedBytes ∧ bytesFromRaw info = some infoBytes ∧
        deriveKeyPair S seedBytes infoBytes = .ok (sk, pk) ∧ new = [⟨.secretKey, sk⟩]) s) := by
  refine post_bind (post_modify ?_)
  split
  · rename_i seedBytes hseed
    split
    · rename_i infoBytes hinfo
      split
      · rename_i sk pk hderive
        exact outcome_intoRaw rfl ⟨_, _, sk, pk, hseed, hinfo, hderive, rfl⟩
      · rename_i e hderive
        refine outcome_failWith _ rfl rfl ?_
        rintro new ⟨_, _, sk, pk, hseed', hinfo', hderive', -⟩
        obtain rfl := Option.some.inj (hseed.symm.trans hseed')
        obtain rfl := Option.some.inj (hinfo.symm.trans hinfo')
        rw [hderive] at hderive'
        cases hderive'
    · rename_i hnone
      refine outcome_failWith _ rfl rfl ?_
      rintro new ⟨_, infoBytes, _, _, -, hinfo', -⟩
      exact hnone infoBytes hinfo'
  · rename_i hnone
    refine outcome_failWith _ rfl rfl ?_
    rintro new ⟨seedBytes, _, _, _, hseed', -⟩
    exact hnone seedBytes hseed'

/-- Taking the public key succeeds on every secret key. -/
theorem outcome_poprfPublicKeyFromSecret (sk : Ptr) :
    Post (poprfPublicKeyFromSecret sk : CAbi S R Ptr) s
      (Outcome (· = NULL) (fun new => ∃ skS, PointsAt s.toShared .secretKey sk skS ∧
        new = [⟨.publicKey, skS.publicKey S⟩]) s) := by
  refine post_bind (post_modify ?_)
  split
  · rename_i hsk
    refine outcome_failWith _ rfl rfl ?_
    rintro new ⟨skS, ⟨hne, -⟩, -⟩
    exact hne hsk
  · rename_i hsk
    refine post_bind ((post_deref _ _ sk).mono fun skS u hskS => ?_)
    obtain ⟨rfl, hskS⟩ := hskS
    exact outcome_intoRaw rfl ⟨skS, ⟨hsk, hskS⟩, rfl⟩

/-- The evaluation succeeds when the core's does. -/
theorem outcome_poprfEvaluate [DecidableEq G] (sk : Ptr) (input info : RawSlice) :
    Post (poprfEvaluate sk input info : CAbi S R Ptr) s
      (Outcome (· = NULL) (fun new => ∃ skS inputBytes infoBytes out,
        PointsAt s.toShared .secretKey sk skS ∧ bytesFromRaw input = some inputBytes ∧
        bytesFromRaw info = some infoBytes ∧
        (PoprfServer.new skS).evaluate S inputBytes infoBytes = .ok out ∧
        new = [⟨.output, out⟩]) s) := by
  refine post_bind (post_modify ?_)
  split
  · rename_i hsk
    refine outcome_failWith _ rfl rfl ?_
    rintro new ⟨skS, _, _, _, ⟨hne, -⟩, -⟩
    exact hne hsk
  rename_i hsk
  split
  · rename_i inputBytes hinput
    split
    · rename_i infoBytes hinfo
      refine post_bind ((post_deref _ _ sk).mono fun skS u hskS => ?_)
      obtain ⟨rfl, hskS⟩ := hskS
      dsimp only
      split
      · rename_i out hout
        exact outcome_intoRaw rfl ⟨skS, _, _, out, ⟨hsk, hskS⟩, hinput, hinfo, hout, rfl⟩
      · rename_i e he
        refine outcome_failWith _ rfl rfl ?_
        rintro new ⟨skS', _, _, out, ⟨-, hskS'⟩, hinput', hinfo', hout, -⟩
        obtain rfl := Option.some.inj (hinput.symm.trans hinput')
        obtain rfl := Option.some.inj (hinfo.symm.trans hinfo')
        obtain rfl := value_unique hskS hskS'
        rw [he] at hout
        cases hout
    · rename_i hnone
      refine outcome_failWith _ rfl rfl ?_
      rintro new ⟨_, _, infoBytes, _, -, -, hinfo', -⟩
      exact hnone infoBytes hinfo'
  · rename_i hnone
    refine outcome_failWith _ rfl rfl ?_
    rintro new ⟨_, inputBytes, _, _, -, hinput', -⟩
    exact hnone inputBytes hinput'

/-- A table is built when the core builds it. -/
theorem outcome_poprfInputTableNew [DecidableEq G] (F : Features) (input : RawSlice) :
    Post (poprfInputTableNew F input : CAbi S R Ptr) s
      (Outcome (· = NULL) (fun new => ∃ inputBytes tb, bytesFromRaw input = some inputBytes ∧
        PoprfInputTable.new S F inputBytes = .ok tb ∧ new = [⟨.inputTable, tb⟩]) s) := by
  refine post_bind (post_modify ?_)
  split
  · rename_i inputBytes hinput
    split
    · rename_i tb htb
      exact outcome_intoRaw rfl ⟨_, tb, hinput, htb, rfl⟩
    · rename_i e he
      refine outcome_failWith _ rfl rfl ?_
      rintro new ⟨_, tb, hinput', htb, -⟩
      obtain rfl := Option.some.inj (hinput.symm.trans hinput')
      rw [he] at htb
      cases htb
  · rename_i hnone
    refine outcome_failWith _ rfl rfl ?_
    rintro new ⟨inputBytes, _, hinput', -⟩
    exact hnone inputBytes hinput'

/-- A comparison fails when its text is that of no output. -/
theorem outcome_poprfOutputEqBase64 (o : Ptr) (expectedB64 : RawSlice) :
    Post (poprfOutputEqBase64 base64 o expectedB64 : CAbi S R ℤ) s
      (Outcome (fun ret => ret ≠ 0 ∧ ret ≠ 1) (fun new => ∃ out other,
        PointsAt s.toShared .output o out ∧
        Reads base64 PoprfOutput.fromBytes expectedB64 other ∧ new = []) s) := by
  have hcode : (-1 : ℤ) ≠ 0 ∧ (-1 : ℤ) ≠ 1 := by decide
  refine post_bind (post_modify ?_)
  split
  · rename_i ho
    refine outcome_failWith _ rfl hcode ?_
    rintro new ⟨out, other, ⟨hne, -⟩, -⟩
    exact hne ho
  rename_i ho
  split
  · rename_i text htext
    split
    · rename_i e hdecode
      refine outcome_failWith _ rfl hcode ?_
      rintro new ⟨out, other, -, ⟨text', bytes, htext', hdecode', -⟩, -⟩
      obtain rfl := Option.some.inj (htext.symm.trans htext')
      rw [hdecode] at hdecode'
      cases hdecode'
    · rename_i bytes hdecode
      split
      · rename_i e hparse
        refine outcome_failWith _ rfl hcode ?_
        rintro new ⟨out, other, -, hreads, -⟩
        rw [reads_unique htext hdecode hreads] at hparse
        cases hparse
      · rename_i other hparse
        -- the handle is followed last, once the text is that of an output
        refine post_bind ((post_deref _ _ o).mono fun out u hout => ?_)
        obtain ⟨rfl, hout⟩ := hout
        refine post_pure (.inr ⟨?_, [], ⟨out, other, ⟨ho, hout⟩, ⟨_, _, htext, hdecode, hparse⟩, rfl⟩,
          .refl _⟩)
        split <;> decide
  · rename_i hnone
    refine outcome_failWith _ rfl hcode ?_
    rintro new ⟨_, _, -, ⟨text, _, htext, -⟩, -⟩
    exact hnone text htext

/-! ## The batch functions -/

/-- A batch has one evaluated element for each blinded element. -/
theorem length_of_blindEvaluateBatch [DecidableEq G] [Rng R] {F : Features} {fuel : ℕ} {rng rng' : R}
    {server : PoprfServer} {blinded : List (BlindedElement G)} {info : Bytes}
    {evaluateds : List (EvaluatedElement G)} {proof : Proof}
    (h : server.blindEvaluateBatch S F fuel rng blinded info = some (.ok (evaluateds, proof), rng')) :
    evaluateds.length = blinded.length := by
  unfold PoprfServer.blindEvaluateBatch at h
  split at h
  · cases h
  split at h
  · cases h
  split at h
  · cases h
  obtain ⟨⟨proof', rng''⟩, -, h⟩ := Option.bind_eq_some_iff.mp h
  cases h
  rw [List.length_map, List.length_map]

/-- A batch has one output for each table. -/
theorem length_of_evaluateTables {server : PoprfServer} {tables : List (PoprfInputTable S)}
    {info : Bytes} {outputs : List PoprfOutput}
    (h : server.evaluateTables S tables info = .ok outputs) : outputs.length = tables.length := by
  unfold PoprfServer.evaluateTables at h
  split at h
  · cases h
  obtain ⟨t, -, h⟩ := ExceptLoop.bind_eq_ok_iff.mp h
  cases h
  rw [List.length_map]

/-- The loop over the blinded elements stops at a null pointer, and else has cloned what the handles
point to. -/
theorem post_cloneBlindeds_pointsAt (s : State S R) (i : ℕ) (ptrs : List Ptr) :
    Post (cloneBlindeds i ptrs : CAbi S R _) s fun blindeds s' =>
      (blindeds = none → s'.heap = s.heap ∧ NULL ∈ ptrs) ∧
      ∀ bs, blindeds = some bs →
        s' = s ∧ List.Forall₂ (PointsAt s.toShared .blindedElement) ptrs bs := by
  induction ptrs generalizing i with
  | nil =>
    refine post_pure ⟨fun h => absurd h (Option.some_ne_none _), fun bs hbs => ⟨rfl, ?_⟩⟩
    rw [← Option.some.inj hbs]
    exact List.Forall₂.nil
  | cons p ptrs ih =>
    rw [cloneBlindeds]
    split
    · rename_i hp
      -- the loop stops at the first NULL
      exact post_bind (post_modify (post_pure ⟨fun _ => ⟨rfl, hp ▸ List.mem_cons_self⟩,
        fun _ h => absurd h.symm (Option.some_ne_none _)⟩))
    · rename_i hp
      refine post_bind ((post_deref s _ p).mono fun b t hb => ?_)
      obtain ⟨rfl, hb⟩ := hb
      refine post_bind ((ih (i + 1)).mono fun blindeds t' hrest => post_pure ⟨?_, ?_⟩)
      · intro hnone
        -- or at a later one
        obtain ⟨hheap, hmem⟩ := hrest.1 (Option.map_eq_none_iff.mp hnone)
        exact ⟨hheap, List.mem_cons_of_mem _ hmem⟩
      · intro bs hbs
        obtain ⟨bs', hbs', rfl⟩ := Option.map_eq_some_iff.mp hbs
        obtain ⟨rfl, hall⟩ := hrest.2 bs' hbs'
        exact ⟨rfl, List.Forall₂.cons ⟨hp, hb⟩ hall⟩

section Arrays

variable {s : Shared S R} {t : HandleType} {arr : Ptr} {n : ℕ} {ptrs : List Ptr}

/-- The pointers in an array of handles are those that are read. -/
theorem ArrayPointsAt.forall₂ {values : List (t.Value S)} (h : ArrayPointsAt s t arr n values)
    (hptrs : List.Forall₂ (fun i p => s.memory (arr + i) = some (some p)) (List.range n) ptrs) :
    List.Forall₂ (PointsAt s t) ptrs values := by
  obtain ⟨ptrs', hptrs', hvalues⟩ := h
  have hunique : Relator.RightUnique fun (i : ℕ) (p : Ptr) => s.memory (arr + i) = some (some p) :=
    fun i p p' hp hp' => Option.some.inj (Option.some.inj (hp.symm.trans hp'))
  rwa [List.right_unique_forall₂' hunique hptrs hptrs']

/-- An array of handles has no null pointer. -/
theorem ArrayPointsAt.null_not_mem {values : List (t.Value S)} (h : ArrayPointsAt s t arr n values)
    (hptrs : List.Forall₂ (fun i p => s.memory (arr + i) = some (some p)) (List.range n) ptrs) :
    NULL ∉ ptrs := by
  intro hmem
  obtain ⟨v, hne, -⟩ := ExceptLoop.exists_of_forall₂_mem_left (h.forall₂ hptrs) hmem
  exact hne rfl

/-- Handles point to one list of values. -/
theorem ArrayPointsAt.unique {values values' : List (t.Value S)} (h : ArrayPointsAt s t arr n values)
    (h' : ArrayPointsAt s t arr n values') : values = values' := by
  obtain ⟨ptrs, hptrs, hvalues⟩ := h
  have hunique : Relator.RightUnique (PointsAt s t) := fun p v v' hv hv' => value_unique hv.2 hv'.2
  exact List.right_unique_forall₂' hunique hvalues (h'.forall₂ hptrs)

end Arrays

/-- The batch evaluation succeeds when the core's does; the core returns as many elements as it was
given, so that the mismatch is not met. -/
theorem outcome_poprfBlindEvaluateBatch [DecidableEq G] (F : Features) [Rng R] (fuel : ℕ)
    (sk blindedArr : Ptr) (n : ℕ) (info : RawSlice) (outEvaluated outProof : Ptr) :
    Post (poprfBlindEvaluateBatch F fuel sk blindedArr n info outEvaluated outProof) s
      (Outcome (· ≠ 0) (fun new =>
        (blindedArr ≠ NULL ∧ outEvaluated ≠ NULL ∧ outProof ≠ NULL ∧ n ≠ 0) ∧
        ∃ skS blindeds infoBytes evaluateds proof osRng, PointsAt s.toShared .secretKey sk skS ∧
          ArrayPointsAt s.toShared .blindedElement blindedArr n blindeds ∧
          bytesFromRaw info = some infoBytes ∧
          (PoprfServer.new skS).blindEvaluateBatch S F fuel s.osRng blindeds infoBytes =
            some (.ok (evaluateds, proof), osRng) ∧
          new = evaluateds.map (Boxed.mk .evaluatedElement) ++ [⟨.proof, proof⟩]) s) := by
  have hcode : (-1 : ℤ) ≠ 0 := by decide
  refine post_bind (post_modify ?_)
  split
  · -- each early exit is a failure, for which the core must compute nothing
    rename_i hnull
    refine outcome_failWith _ rfl hcode ?_
    rintro new ⟨⟨harr, hout, hproof, -⟩, skS, _, _, _, _, _, ⟨hsk, -⟩, -⟩
    tauto
  rename_i hnull
  rw [not_or, not_or, not_or] at hnull
  obtain ⟨hsk, harr, hout, hproof⟩ := hnull
  split
  · rename_i hn
    refine outcome_failWith _ rfl hcode ?_
    rintro new ⟨⟨-, -, -, hne⟩, -⟩
    exact hne hn
  rename_i hn
  split
  · rename_i infoBytes hinfo
    refine post_bind ((post_pointersFromRaw _ _ _).mono fun ptrs u hptrs => ?_)
    obtain ⟨rfl, hptrs⟩ := hptrs
    refine post_bind ((post_cloneBlindeds_pointsAt _ 0 ptrs).mono fun blindeds u hclones => ?_)
    split
    · rename_i blindeds
      obtain ⟨rfl, hblindeds⟩ := hclones.2 blindeds rfl
      -- no pointer of the array is NULL: the clones are the elements that it points to
      have harray : ArrayPointsAt s.toShared .blindedElement blindedArr n blindeds :=
        ⟨ptrs, hptrs, hblindeds⟩
      refine post_bind ((post_deref _ _ sk).mono fun skS u hskS => ?_)
      obtain ⟨rfl, hskS⟩ := hskS
      refine post_bind ((post_withOsRng _ _).mono fun res u hres => ?_)
      obtain ⟨osRng, hres, rfl⟩ := hres
      split
      · rename_i e
        refine outcome_failWith _ rfl hcode ?_
        rintro new ⟨-, skS', blindeds', _, evaluateds, proof, _, hskS', harray', hinfo', hres', -⟩
        obtain rfl := Option.some.inj (hinfo.symm.trans hinfo')
        obtain rfl := value_unique hskS hskS'.2
        obtain rfl := harray.unique harray'
        -- the draw of the model is that of the core, which has failed
        have heq := hres.symm.trans hres'
        cases heq
      · rename_i evaluateds proof
        -- the core returns as many elements as it was given
        have hlen : evaluateds.length = n := by
          rw [length_of_blindEvaluateBatch hres, ← hblindeds.length_eq, ← hptrs.length_eq,
            List.length_range]
        rw [if_neg (not_not.mpr hlen)]
        refine post_bind ((post_pointersFromRaw _ _ _).mono fun _ u hslice => ?_)
        obtain ⟨rfl, -⟩ := hslice
        refine post_bind ((post_writeEvaluateds _ outEvaluated evaluateds).mono fun _ u hfilled => ?_)
        intro c s' hrun
        obtain ⟨p, u₁, hbox, hrun⟩ := run_bind_eq_some_iff.mp hrun
        cases hbox
        obtain ⟨_, u₂, hwrite, hrun⟩ := run_bind_eq_some_iff.mp hrun
        obtain ⟨-, rfl⟩ := run_writePointer_eq_some_iff.mp hwrite
        cases hrun
        exact .inr ⟨not_not.mpr rfl, _, ⟨⟨harr, hout, hproof, hn⟩, skS, blindeds, infoBytes, evaluateds,
          proof, osRng, ⟨hsk, hskS⟩, harray, hinfo, hres, rfl⟩, hfilled.extends_heap.trans (.alloc _ _)⟩
    · rename_i hnone
      obtain ⟨hheap, hmem⟩ := hclones.1 (Option.eq_none_iff_forall_ne_some.mpr hnone)
      refine post_pure (.inl ⟨hcode, hheap, ?_⟩)
      rintro new ⟨-, _, blindeds', _, _, _, _, -, harray', -⟩
      -- an array of elements has no NULL
      exact harray'.null_not_mem hptrs hmem
  · rename_i hnone
    refine outcome_failWith _ rfl hcode ?_
    rintro new ⟨-, _, _, infoBytes, _, _, _, -, -, hinfo', -⟩
    exact hnone infoBytes hinfo'

/-- The evaluation of tables succeeds when the core's does, on a batch that is not empty. -/
theorem outcome_poprfEvaluateTables (sk tablesArr : Ptr) (n : ℕ) (info : RawSlice)
    (outOutputs : Ptr) :
    Post (poprfEvaluateTables sk tablesArr n info outOutputs) s
      (Outcome (· ≠ 0) (fun new => (tablesArr ≠ NULL ∧ outOutputs ≠ NULL ∧ n ≠ 0) ∧
        ∃ skS tables infoBytes outputs, PointsAt s.toShared .secretKey sk skS ∧
          ArrayPointsAt s.toShared .inputTable tablesArr n tables ∧
          bytesFromRaw info = some infoBytes ∧
          (PoprfServer.new skS).evaluateTables S tables infoBytes = .ok outputs ∧
          new = outputs.map (Boxed.mk .output)) s) := by
  have hcode : (-1 : ℤ) ≠ 0 := by decide
  refine post_bind (post_modify ?_)
  split
  · -- each early exit is a failure, for which the core must compute nothing
    rename_i hnull
    refine outcome_failWith _ rfl hcode ?_
    rintro new ⟨⟨harr, hout, -⟩, skS, _, _, _, ⟨hsk, -⟩, -⟩
    tauto
  rename_i hnull
  rw [not_or, not_or] at hnull
  obtain ⟨hsk, harr, hout⟩ := hnull
  split
  · rename_i hn
    refine outcome_failWith _ rfl hcode ?_
    rintro new ⟨⟨-, -, hne⟩, -⟩
    exact hne hn
  rename_i hn
  split
  · rename_i infoBytes hinfo
    refine post_bind ((post_pointersFromRaw _ _ _).mono fun ptrs u hptrs => ?_)
    obtain ⟨rfl, hptrs⟩ := hptrs
    split
    · rename_i i hfind
      refine outcome_failWith _ rfl hcode ?_
      rintro new ⟨-, _, tables', _, _, -, harray', -⟩
      -- a NULL was found, and an array of tables has none
      obtain ⟨hi, hp, -⟩ := List.findIdx?_eq_some_iff_getElem.mp hfind
      exact harray'.null_not_mem hptrs (of_decide_eq_true hp ▸ List.getElem_mem hi)
    · rename_i hfind
      refine post_bind ((post_mapM (fun p => post_deref _ _ p) ptrs).mono fun tables u htables => ?_)
      obtain ⟨rfl, htables⟩ := htables
      have harray : ArrayPointsAt s.toShared .inputTable tablesArr n tables := by
        refine ⟨ptrs, hptrs, ?_⟩
        -- no NULL was found
        have hne : ∀ p ∈ ptrs, p ≠ NULL := fun p hp =>
          of_decide_eq_false (List.findIdx?_eq_none_iff.mp hfind p hp)
        exact (List.forall₂_and_left _ _).mpr ⟨hne, htables⟩
      refine post_bind ((post_deref _ _ sk).mono fun skS u hskS => ?_)
      obtain ⟨rfl, hskS⟩ := hskS
      dsimp only
      split
      · rename_i e he
        refine outcome_failWith _ rfl hcode ?_
        rintro new ⟨-, skS', tables', _, outputs, hskS', harray', hinfo', houtputs, -⟩
        obtain rfl := Option.some.inj (hinfo.symm.trans hinfo')
        obtain rfl := value_unique hskS hskS'.2
        obtain rfl := harray.unique harray'
        rw [he] at houtputs
        cases houtputs
      · rename_i outputs houtputs
        -- the core returns as many outputs as it was given tables
        have hlen : outputs.length = n := by
          rw [length_of_evaluateTables houtputs, ← htables.length_eq, ← hptrs.length_eq,
            List.length_range]
        subst hlen
        rw [if_neg (not_not.mpr rfl)]
        refine post_bind ((post_writeOutputs _ outOutputs outputs).mono fun _ u hfilled => ?_)
        exact post_pure (.inr ⟨not_not.mpr rfl, _, ⟨⟨harr, hout, hn⟩, skS, tables, infoBytes, outputs,
          ⟨hsk, hskS⟩, harray, hinfo, houtputs, rfl⟩, hfilled.extends_heap⟩)
  · rename_i hnone
    refine outcome_failWith _ rfl hcode ?_
    rintro new ⟨-, _, _, infoBytes, _, -, -, hinfo', -⟩
    exact hnone infoBytes hinfo'

end Functions

/-! ## Calls -/

section Calls

variable [DecidableEq G] [Rng R] (base64 : Base64) (F : Features) (fuel : ℕ)

omit [DecidableEq G] [Rng R] in
theorem outcome_map {β : Type} {failed : α → Prop} {failed' : β → Prop}
    {computes : List (Boxed S) → Prop} {s : State S R} {x : CAbi S R α} {f : α → β}
    (h : Post x s (Outcome failed computes s)) (hf : ∀ a, failed' (f a) ↔ failed a) :
    Post (f <$> x) s (Outcome failed' computes s) := by
  rw [map_eq_pure_bind]
  refine post_bind (h.mono fun a t ht => post_pure ?_)
  unfold Outcome at ht ⊢
  rwa [hf]

/-- An operation fails when the core computes nothing, and else hands out what it computes. -/
theorem outcome_run {call : Call} (h : call.isOperation) (s : State S R) :
    Post (call.run base64 F fuel) s
      (Outcome call.Failed (call.Computes base64 F fuel s.toShared) s) := by
  cases call with
  | poprfSecretKeyFromSeed seed info =>
    exact outcome_map (outcome_poprfSecretKeyFromSeed s seed info) fun _ => Iff.rfl
  | poprfSecretKeyDecodeBase64 text =>
    exact outcome_map (outcome_decodeBase64 base64 s _ _ _ text) fun _ => Iff.rfl
  | poprfSecretKeyEncodeBase64 sk =>
    exact outcome_map (outcome_encodeBase64 base64 s _ _ _ sk) fun _ => Iff.rfl
  | poprfPublicKeyFromSecret sk =>
    exact outcome_map (outcome_poprfPublicKeyFromSecret s sk) fun _ => Iff.rfl
  | poprfPublicKeyEncodeBase64 pk =>
    exact outcome_map (outcome_encodeBase64 base64 s _ _ _ pk) fun _ => Iff.rfl
  | poprfBlindedElementDecodeBase64 text =>
    exact outcome_map (outcome_decodeBase64 base64 s _ _ _ text) fun _ => Iff.rfl
  | poprfEvaluatedElementEncodeBase64 e =>
    exact outcome_map (outcome_encodeBase64 base64 s _ _ _ e) fun _ => Iff.rfl
  | poprfProofEncodeBase64 p =>
    exact outcome_map (outcome_encodeBase64 base64 s _ _ _ p) fun _ => Iff.rfl
  | poprfBlindEvaluateBatch sk blindedArr n info outEvaluated outProof =>
    exact outcome_map
      (outcome_poprfBlindEvaluateBatch s F fuel sk blindedArr n info outEvaluated outProof)
      fun _ => Iff.rfl
  | poprfEvaluate sk input info =>
    exact outcome_map (outcome_poprfEvaluate s sk input info) fun _ => Iff.rfl
  | poprfInputTableNew input =>
    exact outcome_map (outcome_poprfInputTableNew s F input) fun _ => Iff.rfl
  | poprfEvaluateTables sk tablesArr n info outOutputs =>
    exact outcome_map (outcome_poprfEvaluateTables s sk tablesArr n info outOutputs) fun _ => Iff.rfl
  | poprfOutputEncodeBase64 o =>
    exact outcome_map (outcome_encodeBase64 base64 s _ _ _ o) fun _ => Iff.rfl
  | poprfOutputEqBase64 o expectedB64 =>
    exact outcome_map (outcome_poprfOutputEqBase64 base64 s o expectedB64) fun _ => Iff.rfl
  | _ => exact absurd h Bool.false_ne_true

/-- An operation is not a destructor. -/
theorem Call.released_of_isOperation {call : Call} (h : call.isOperation) : call.released = none := by
  cases call with
  | poprfCCharDestroy | poprfSecretKeyDestroy | poprfPublicKeyDestroy | poprfBlindedElementDestroy
  | poprfEvaluatedElementDestroy | poprfProofDestroy | poprfInputTableDestroy | poprfOutputDestroy =>
    exact absurd h Bool.false_ne_true
  | _ => rfl

end Calls

section Runs

variable [DecidableEq G] [Rng R] {base64 : Base64} {F : Features}

/-- An operation fails when the core computes nothing, and else the handles that the caller receives
point to what it computes, when the caller has passed a slot of its own for each of them. -/
theorem received_of_run {p : Process S R} {thread fuel : ℕ} {call : Call} (hop : call.isOperation)
    {ret : Ret} {s : State S R} (h : (call.run base64 F fuel).run (p.view thread) = some (ret, s)) :
    (call.Failed ret ∧ ∀ new, ¬call.Computes base64 F fuel p.shared new) ∨
    ¬call.Failed ret ∧ ∃ new, call.Computes base64 F fuel p.shared new ∧
      (call.SlotsApart →
        List.Forall₂ (fun handle b => handle.1 = b.type ∧ s.heap.get handle.2 = some b)
          (call.received s.memory ret) new) := by
  rcases outcome_run base64 F fuel hop _ _ _ h with ⟨hfailed, -, hnone⟩ | ⟨hok, new, hnew, hextends⟩
  · exact .inl ⟨hfailed, hnone⟩
  · refine .inr ⟨hok, new, hnew, fun hapart => ?_⟩
    obtain ⟨new', hextends', hreceived⟩ :=
      handsOut_run base64 F fuel (Call.released_of_isOperation hop) hapart _ _ _ h
    obtain rfl := hextends.unique hextends'
    have hhandles : call.received s.memory ret = handles p.shared.heap.next new := hreceived
    rw [hhandles]
    exact forall₂_handles hextends

/-- An operation, on any thread and in any state of the process, fails exactly when the core computes
nothing from the values of its handles; otherwise the handles that the caller receives point to what the
core computes, when the caller has passed a slot of its own for each of them. -/
theorem operations_compute {p : Process S R} {thread fuel : ℕ} {call : Call} (hop : call.isOperation)
    {ret : Ret} {s : State S R} (h : (call.run base64 F fuel).run (p.view thread) = some (ret, s)) :
    (call.Failed ret ↔ ∀ new, ¬call.Computes base64 F fuel p.shared new) ∧
    (¬call.Failed ret → ∃ new, call.Computes base64 F fuel p.shared new ∧
      (call.SlotsApart →
        List.Forall₂ (fun handle b => handle.1 = b.type ∧ s.heap.get handle.2 = some b)
          (call.received s.memory ret) new)) := by
  rcases received_of_run hop h with ⟨hfailed, hnone⟩ | ⟨hok, new, hnew, hreceived⟩
  · exact ⟨iff_of_true hfailed hnone, fun hok => absurd hfailed hok⟩
  · exact ⟨iff_of_false hok fun hnone => hnone new hnew, fun _ => ⟨new, hnew, hreceived⟩⟩

/-- A thread that has two elements evaluated in one batch gets handles to what the core computes. -/
theorem operations_compute_reference :
    let call : Call := .poprfBlindEvaluateBatch 1 10 2 (.null 0) 20 30
    ∃ (ret : Ret) (s : State referenceSuite Replay), ¬call.Failed ret ∧
      ∃ new, call.Computes standardBase64 ⟨true, true⟩ 1 twoHandles.toShared new ∧
        List.Forall₂ (fun handle b => handle.1 = b.type ∧ s.heap.get handle.2 = some b)
          (call.received s.memory ret) new := by
  intro call
  let p : Process referenceSuite Replay := ⟨twoHandles.toShared, fun _ => none⟩
  obtain ⟨s, hbatch⟩ := exists_run_twoHandles
  have hrun : (call.run standardBase64 ⟨true, true⟩ 1).run (p.view 0) = some (.int 0, s) := by
    have hmap : (call.run standardBase64 ⟨true, true⟩ 1).run twoHandles =
        ((poprfBlindEvaluateBatch ⟨true, true⟩ 1 1 10 2 (.null 0) 20 30).run twoHandles).map
          fun res => (.int res.1, res.2) := StateT.run_map ..
    rw [hbatch] at hmap
    exact hmap
  have hok : ¬call.Failed (.int 0) := fun hfailed => hfailed rfl
  have hapart : call.SlotsApart := contract_twoHandles.slotsApart
  obtain ⟨new, hnew, hreceived⟩ := (operations_compute rfl hrun).2 hok
  exact ⟨.int 0, s, hok, new, hnew, hreceived hapart⟩

end Runs

end PoprfRistretto.Ffi
