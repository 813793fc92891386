import PoprfRistretto.Ffi.Requests
import PoprfRistretto.Protocol.World

/-!
# The C ABI as the server of the protocol

A program answers a request by decoding its texts, evaluating them in one batch and making strings of
what it finds in its slots. Whatever the threads of the process call in between, it sends what the server
of the protocol answers.
-/

namespace PoprfRistretto.Ffi

open Memory PartialState Utf8 ExceptLoop
open Protocol (serve Answer)

variable {G : Type} [AddCommGroup G] [Module Scalar G] [DecidableEq G] {S : Suite G} {R : Type} [Rng R]
variable {base64 : Base64} {F : Features}

/-! ## Requests -/

/-- The array holds handles that the caller has decoded from the texts. -/
def DecodedArray (trace : List Event) (memory : CallerMemory) (arr : Ptr) (texts : List Bytes) : Prop :=
  ∃ ptrs : List Ptr,
    List.Forall₂ (fun i p => memory (arr + i) = some (some p))
      (List.range texts.length) ptrs ∧
    List.Forall₂ (fun p text =>
      Issued trace (.poprfBlindedElementDecodeBase64 (.points text)) (.blindedElement, p)) ptrs texts

/-- An array stays decoded when other events come before. -/
theorem DecodedArray.append_left {trace : List Event} {memory : CallerMemory} {arr : Ptr}
    {texts : List Bytes} (h : DecodedArray trace memory arr texts) (before : List Event) :
    DecodedArray (before ++ trace) memory arr texts := by
  obtain ⟨ptrs, hptrs, hissued⟩ := h
  exact ⟨ptrs, hptrs, hissued.imp fun _ _ hq => hq.append_left before⟩

section Answers

variable {start p : Process S R} {trace : List Event}

/-- An array that is decoded from texts points to the blinded elements of the messages. -/
theorem DecodedArray.exists_messages (hstart : start.shared.heap = Heap.empty)
    (h : Run (Process.Step base64 F) start trace p) {arr : Ptr} {texts : List Bytes}
    (hdecoded : DecodedArray trace p.shared.memory arr texts) :
    ∃ messages blindeds,
      List.Forall₂ (fun text message => base64.decode text = .ok message) texts messages ∧
      messages.mapM (BlindedElement.fromBytes S) = .ok blindeds ∧
      ArrayPointsAt p.shared .blindedElement arr texts.length blindeds := by
  obtain ⟨ptrs, hptrs, hissued⟩ := hdecoded
  have haccounts := accounts_run hstart h
  have hvalues : List.Forall₂ (fun q text => ∃ b, PointsAt p.shared .blindedElement q b ∧
      ∃ message, BlindedElement.fromBytes S message = .ok b ∧ base64.decode text = .ok message)
      ptrs texts := by
    refine hissued.imp fun q text hq => ?_
    obtain ⟨_, _, new, b, hnew, hmem, hget⟩ := value_of_issued rfl h hq
    obtain ⟨b', ⟨bytes, message, hraw, hdecode, hparse⟩, rfl⟩ := hnew
    obtain rfl : text = bytes := Option.some.inj hraw
    have hbox := List.mem_singleton.mp hmem
    cases hbox
    have howned := (haccounts.mem_iff .blindedElement q).mpr ⟨b, hget⟩
    exact ⟨b, ⟨haccounts.ne_null _ q howned, hget⟩, message, hparse, hdecode⟩
  obtain ⟨blindeds, hblindeds, hparsed⟩ := forall₂_exists_iff.mp hvalues
  obtain ⟨messages, hmessages, hdecoded⟩ := forall₂_exists_iff.mp hparsed
  exact ⟨messages, blindeds, hdecoded.flip, mapM_eq_ok_iff.mpr hmessages.flip, ptrs, hptrs, hblindeds⟩

/-- With its arguments in place, a batch evaluation hands out what the core answers for the nonce that
is drawn. -/
theorem computes_poprfBlindEvaluateBatch_iff {shared : Shared S R}
    {sk blindedArr outEvaluated outProof : Ptr} {n : ℕ} {info : RawSlice} {skS : SecretKey}
    {blindeds : List (BlindedElement G)} {infoBytes : Bytes} (hsk : PointsAt shared .secretKey sk skS)
    (harray : ArrayPointsAt shared .blindedElement blindedArr n blindeds)
    (hinfo : bytesFromRaw info = some infoBytes)
    (hargs : blindedArr ≠ NULL ∧ outEvaluated ≠ NULL ∧ outProof ≠ NULL ∧ n ≠ 0) {fuel : ℕ}
    {nonce : Scalar} {drawn : R} (hdraw : randomScalar fuel shared.osRng = some (nonce, drawn))
    {new : List (Boxed S)} :
    (Call.poprfBlindEvaluateBatch sk blindedArr n info outEvaluated outProof).Computes base64 F fuel
        shared new ↔
      ∃ evaluateds proof, (PoprfServer.new skS).blindEvaluateBatchWithProofScalar S F blindeds infoBytes
          (S.serializeScalarArray nonce) = .ok (evaluateds, proof) ∧
        new = evaluateds.map (Boxed.mk .evaluatedElement) ++ [⟨.proof, proof⟩] := by
  have hbatch := (PoprfServer.new skS).blindEvaluateBatch_of_draw S F hdraw blindeds infoBytes
  constructor
  · rintro ⟨-, skS', blindeds', infoBytes', evaluateds, proof, osRng, hsk', harray', hinfo', hok, rfl⟩
    obtain rfl := value_unique hsk.2 hsk'.2
    obtain rfl := harray.unique harray'
    obtain rfl := Option.some.inj (hinfo.symm.trans hinfo')
    rw [hbatch] at hok
    exact ⟨evaluateds, proof, (Prod.mk.inj (Option.some.inj hok)).1, rfl⟩
  · rintro ⟨evaluateds, proof, hok, rfl⟩
    rw [hok] at hbatch
    exact ⟨hargs, skS, blindeds, infoBytes, evaluateds, proof, _, hsk, harray, hinfo, hbatch, rfl⟩

omit [DecidableEq G] [Rng R] in
/-- The slots of a batch that has succeeded are those of the elements, and that of the proof. -/
theorem forall₂_slots {rel : Handle → Boxed S → Prop} {memory : CallerMemory}
    {outEvaluated outProof : Ptr} {evaluateds : List (EvaluatedElement G)} {n : ℕ} {proof : Proof}
    (hlen : evaluateds.length = n)
    (h : List.Forall₂ rel
      (slots memory .evaluatedElement outEvaluated n ++ slots memory .proof outProof 1)
      (evaluateds.map (Boxed.mk .evaluatedElement) ++ [⟨.proof, proof⟩])) :
    List.Forall₂ (fun handle e => rel handle ⟨.evaluatedElement, e⟩)
        (slots memory .evaluatedElement outEvaluated n) evaluateds ∧
      List.Forall₂ (fun handle e => rel handle ⟨.proof, e⟩) (slots memory .proof outProof 1) [proof] := by
  have hslots : (slots memory .evaluatedElement outEvaluated n).length =
      (evaluateds.map (Boxed.mk (S := S) .evaluatedElement)).length := by
    rw [List.length_map, hlen, slots, List.length_map, List.length_range]
  have hfirst := List.forall₂_take_append _ _ _ h
  have hlast := List.forall₂_drop_append _ _ _ h
  rw [← hslots] at hfirst hlast
  rw [List.take_left, List.forall₂_map_right_iff] at hfirst
  rw [List.drop_left] at hlast
  exact ⟨hfirst, (List.forall₂_map_right_iff (u := [proof]) (f := Boxed.mk .proof)).mp hlast⟩

omit [DecidableEq G] in
/-- The server of the protocol answers when the core does, with the encodings. -/
theorem serve_eq_ok_iff [DecidableEq G] {server : PoprfServer} {messages : List Bytes}
    {blindeds : List (BlindedElement G)} {info : Bytes} {nonce : Scalar} {answer : Answer}
    (hparsed : messages.mapM (BlindedElement.fromBytes S) = .ok blindeds) :
    serve S F server messages info nonce = .ok answer ↔ ∃ evaluateds proof,
      server.blindEvaluateBatchWithProofScalar S F blindeds info (S.serializeScalarArray nonce) =
        .ok (evaluateds, proof) ∧
      answer = ⟨evaluateds.map (·.toBytes S), proof.toBytes S⟩ := by
  unfold serve
  rw [hparsed, ok_bind, bind_eq_ok_iff, Prod.exists]
  simp only [pure_eq_ok, Except.ok.injEq, eq_comm]

/-- A batch evaluation fails when it returns another code than `0`. -/
theorem failed_poprfBlindEvaluateBatch_iff {sk blindedArr : Ptr} {n : ℕ} {info : RawSlice}
    {outEvaluated outProof : Ptr} {fuel : ℕ} {u s : State S R} {ret : Ret}
    (h : ((Call.poprfBlindEvaluateBatch sk blindedArr n info outEvaluated outProof).run
      base64 F fuel).run u = some (ret, s)) :
    (Call.poprfBlindEvaluateBatch sk blindedArr n info outEvaluated outProof).Failed ret ↔
      ret ≠ .int 0 := by
  rw [Call.run, map_eq_pure_bind] at h
  obtain ⟨code, _, -, hpure⟩ := PartialState.run_bind_eq_some_iff.mp h
  cases hpure
  simp [Call.Failed]

/-- The slots of a batch hold handles to the elements and the proof. -/
structure SlotsHold (s : State S R) (outEvaluated outProof : Ptr) (n : ℕ)
    (evaluateds : List (EvaluatedElement G)) (proof : Proof) : Prop where
  elements : List.Forall₂ (fun handle e => handle.1 = .evaluatedElement ∧
    s.heap.get handle.2 = some ⟨.evaluatedElement, e⟩) (slots s.memory .evaluatedElement outEvaluated n)
      evaluateds
  proof : List.Forall₂ (fun handle e => handle.1 = .proof ∧
    s.heap.get handle.2 = some ⟨.proof, e⟩) (slots s.memory .proof outProof 1) [proof]

/-- A batch evaluation succeeds when the core answers for the nonce that is drawn, and leaves handles to
the answer in the slots, when each result has a slot of its own. -/
theorem slots_of_run {sk blindedArr outEvaluated outProof : Ptr} {n : ℕ} {info : RawSlice}
    {skS : SecretKey} {blindeds : List (BlindedElement G)} {infoBytes : Bytes}
    (hsk : PointsAt p.shared .secretKey sk skS)
    (harray : ArrayPointsAt p.shared .blindedElement blindedArr n blindeds)
    (hinfo : bytesFromRaw info = some infoBytes)
    (hargs : blindedArr ≠ NULL ∧ outEvaluated ≠ NULL ∧ outProof ≠ NULL ∧ n ≠ 0) {fuel : ℕ}
    {nonce : Scalar} {drawn : R} (hdraw : randomScalar fuel p.shared.osRng = some (nonce, drawn))
    {thread : ℕ} {ret : Ret} {s : State S R}
    (hrun : ((Call.poprfBlindEvaluateBatch sk blindedArr n info outEvaluated outProof).run
      base64 F fuel).run (p.view thread) = some (ret, s)) :
    let result := (PoprfServer.new skS).blindEvaluateBatchWithProofScalar S F blindeds infoBytes
      (S.serializeScalarArray nonce)
    (ret = .int 0 ↔ ∃ evaluateds proof, result = .ok (evaluateds, proof)) ∧
    ∀ evaluateds proof, result = .ok (evaluateds, proof) → SlotsApart outEvaluated n outProof →
      SlotsHold s outEvaluated outProof n evaluateds proof := by
  intro result
  have hcomputes : ∀ new, Call.Computes base64 F fuel p.shared _ new ↔ _ := fun new =>
    computes_poprfBlindEvaluateBatch_iff hsk harray hinfo hargs hdraw
  rcases received_of_run rfl hrun with ⟨hfailed, hnone⟩ | ⟨hok, new, hnew, hreceived⟩
  · have hret := (failed_poprfBlindEvaluateBatch_iff hrun).mp hfailed
    have hno : ∀ evaluateds proof, result ≠ .ok (evaluateds, proof) := fun evaluateds proof hbatch =>
      hnone _ ((hcomputes _).mpr ⟨evaluateds, proof, hbatch, rfl⟩)
    refine ⟨iff_of_false hret ?_, fun evaluateds proof hbatch => absurd hbatch (hno evaluateds proof)⟩
    rintro ⟨evaluateds, proof, hbatch⟩
    exact hno evaluateds proof hbatch
  · obtain rfl := not_not.mp (mt (failed_poprfBlindEvaluateBatch_iff hrun).mpr hok)
    obtain ⟨evaluateds, proof, hbatch, rfl⟩ := (hcomputes new).mp hnew
    refine ⟨iff_of_true rfl ⟨evaluateds, proof, hbatch⟩, fun evaluateds' proof' hbatch' hapart => ?_⟩
    obtain ⟨rfl, rfl⟩ := Prod.mk.inj (Except.ok.inj (hbatch.symm.trans hbatch'))
    have hhandles := hreceived hapart
    have hlen : evaluateds.length = n := by
      simpa [Call.received, slots] using hhandles.length_eq.symm
    -- the handles that are received are those in the slots, in order
    obtain ⟨helements, hlast⟩ := forall₂_slots hlen hhandles
    exact ⟨helements, hlast⟩

/-- Strings that are made of the handles in the slots are the texts of what they point to. -/
theorem texts_of_slots {p' : Process S R} {trace : List Event} {thread : ℕ} {s : State S R}
    (h : Run (Process.Step base64 F) (p.resume thread s) trace p') {outEvaluated outProof : Ptr} {n : ℕ}
    {evaluateds : List (EvaluatedElement G)} {proof : Proof}
    (hslots : SlotsHold s outEvaluated outProof n evaluateds proof) {cs : List Ptr} {c : Ptr}
    (hevaluateds : List.Forall₂ (Written trace .poprfEvaluatedElementEncodeBase64)
      (slots s.memory .evaluatedElement outEvaluated n) cs)
    (hproof : List.Forall₂ (Written trace .poprfProofEncodeBase64)
      (slots s.memory .proof outProof 1) [c]) :
    List.Forall₂ (IsText base64 p'.shared.heap) cs (evaluateds.map fun e => (e.toBytes S).toList) ∧
      IsText base64 p'.shared.heap c (proof.toBytes S).toList := by
  have htext := forall₂_isText .proof h hslots.proof hproof
  exact ⟨forall₂_isText .evaluatedElement h hslots.elements hevaluateds, (List.forall₂_cons.mp htext).1⟩

/-- Strings can be made of the handles in the slots. -/
theorem exists_texts (hbase64 : base64.Lawful) (hstart : start.shared.heap = Heap.empty) {thread : ℕ}
    {s : State S R} (h : Run (Process.Step base64 F) start trace (p.resume thread s))
    {outEvaluated outProof : Ptr} {n : ℕ} {evaluateds : List (EvaluatedElement G)} {proof : Proof}
    (hslots : SlotsHold s outEvaluated outProof n evaluateds proof) :
    ∃ after p' cs c, Run (Process.Step base64 F) (p.resume thread s) after p' ∧
      List.Forall₂ (Written after .poprfEvaluatedElementEncodeBase64)
        (slots s.memory .evaluatedElement outEvaluated n) cs ∧
      List.Forall₂ (Written after .poprfProofEncodeBase64) (slots s.memory .proof outProof 1) [c] := by
  have haccounts : Accounts (ledger trace) s.heap := accounts_run hstart h
  have hne : ∀ {t : HandleType} {q : Ptr} {v : t.Value S}, s.heap.get q = some ⟨t, v⟩ → q ≠ NULL :=
    fun {t q v} hv => haccounts.ne_null t q ((haccounts.mem_iff t q).mpr ⟨v, hv⟩)
  obtain ⟨after, p₁, cs, hrun, hkeeps, hcs⟩ := exists_written hbase64 .evaluatedElement
    (slots s.memory .evaluatedElement outEvaluated n) (p.resume thread s) fun handle hmem => by
      obtain ⟨e, htype, he⟩ := exists_of_forall₂_mem_left hslots.elements hmem
      exact ⟨htype, e, hne he, he⟩
  obtain ⟨after', p', cs', hrun', hkeeps', hcs'⟩ := exists_written hbase64 .proof
    (slots s.memory .proof outProof 1) p₁ fun handle hmem => by
      obtain ⟨e, htype, he⟩ := exists_of_forall₂_mem_left hslots.proof hmem
      exact ⟨htype, e, hne he, value_run hrun he fun event hevent => hkeeps event hevent _⟩
  obtain ⟨c, rfl⟩ : ∃ c, cs' = [c] := List.length_eq_one_iff.mp hcs'.length_eq.symm
  exact ⟨_, p', cs, c, run_append_iff.mpr ⟨p₁, hrun, hrun'⟩,
    hcs.imp fun _ _ hc => hc.append hkeeps', hcs'.imp fun _ _ hc => hc.append_left hkeeps⟩

end Answers

/-! ## Making a request -/

section Requests

variable {p : Process S R}

/-- The memory of a caller that has written the handles into an array, from address `1` on. After it
stand NULL slots, one for each handle and one for the proof. -/
def requestMemory (ptrs : List Ptr) : CallerMemory := fun cell =>
  if 1 ≤ cell ∧ cell ≤ 2 * ptrs.length + 1 then some (some (ptrs.getD (cell - 1) NULL)) else none

/-- The cells of the request are those from 1 on, two for each element and one for the proof. -/
theorem requestMemory_of_le {ptrs : List Ptr} {cell : Ptr} (hone : 1 ≤ cell)
    (hle : cell ≤ 2 * ptrs.length + 1) :
    requestMemory ptrs cell = some (some (ptrs.getD (cell - 1) NULL)) := if_pos ⟨hone, hle⟩

/-- The first of them hold the pointers, in order. -/
theorem forall₂_requestMemory (ptrs : List Ptr) :
    List.Forall₂ (fun i q => requestMemory ptrs (1 + i) = some (some q)) (List.range ptrs.length)
      ptrs := by
  refine List.forall₂_iff_get.mpr ⟨List.length_range, fun i _ hi => ?_⟩
  have hle : 1 + i ≤ 2 * ptrs.length + 1 := by omega
  rw [List.get_eq_getElem, List.getElem_range, requestMemory_of_le (Nat.le_add_right 1 i) hle,
    Nat.add_sub_cancel_left, List.getD_eq_getElem?_getD, List.getElem?_eq_getElem hi]
  rfl

/-- None of the arrays is NULL. -/
theorem requestArrays_ne_null (n : ℕ) : (1 : Ptr) ≠ NULL ∧ 1 + n ≠ NULL ∧ 1 + 2 * n ≠ NULL :=
  ⟨Nat.one_ne_zero, Nat.ne_of_gt (Nat.add_pos_left Nat.one_pos n),
    Nat.ne_of_gt (Nat.add_pos_left Nat.one_pos (2 * n))⟩

/-- The text of a key can be decoded. -/
theorem exists_key {start : Process S R} {text : Bytes} {skS : SecretKey}
    (h : Reads base64 (SecretKey.fromBytes S) (.points text) skS) (hstart : start.shared.heap = Heap.empty)
    {trace : List Event} (hrun : Run (Process.Step base64 F) start trace p) :
    ∃ trace' p' sk, Run (Process.Step base64 F) p trace' p' ∧ PointsAt p'.shared .secretKey sk skS := by
  have hdefined : Defined ((Call.poprfSecretKeyDecodeBase64 (.points text)).run base64 F 0)
      (p.view 0) := defined_map (defined_decodeBase64 base64 _ _ _ _) _
  have hapart : (Call.poprfSecretKeyDecodeBase64 (.points text)).SlotsApart := trivial
  obtain ⟨ret, memory, p', q, hstep, hmem⟩ := exists_step_of_computes (t := .secretKey) rfl hapart
    hdefined ⟨skS, h, rfl⟩ fun new ⟨b', _, hnew⟩ => ⟨b', hnew⟩
  obtain ⟨_, _, v, ⟨skS', hread, rfl⟩, hv, hget⟩ := hstep.value_of_received rfl hmem
  obtain rfl : v = skS' := by
    have hbox := List.mem_singleton.mp hv
    cases hbox
    rfl
  obtain rfl : v = skS := by
    obtain ⟨bytes, decoded, hraw, hdecode, hparse⟩ := h
    exact Except.ok.inj ((reads_unique hraw hdecode hread).symm.trans hparse)
  have haccounts := accounts_run hstart (.snoc hrun hstep)
  have howned := (haccounts.mem_iff .secretKey q).mpr ⟨v, hget⟩
  exact ⟨_, p', q, .snoc .refl hstep, haccounts.ne_null _ q howned, hget⟩

/-- From any state, a caller that holds a key can have texts decoded and evaluated, with an array of
initialised slots behind the array of handles and the slot of the proof behind both. -/
theorem exists_batch {texts : List Bytes} {blindeds : List (BlindedElement G)}
    (h : List.Forall₂ (fun text b => Reads base64 (BlindedElement.fromBytes S) (.points text) b) texts
      blindeds) {sk : Ptr} {skS : SecretKey} (hsk : PointsAt p.shared .secretKey sk skS)
    (info : RawSlice) {fuel : ℕ} {nonce : Scalar} {osRng drawn : R}
    (hdraw : randomScalar fuel osRng = some (nonce, drawn)) :
    ∃ trace p' ret s, Run (Process.Step base64 F) p trace p' ∧ Keeps trace ∧
      PointsAt p'.shared .secretKey sk skS ∧ DecodedArray trace p'.shared.memory 1 texts ∧
      p'.shared.osRng = osRng ∧
      (Call.poprfBlindEvaluateBatch sk 1 texts.length info (1 + texts.length)
        (1 + 2 * texts.length)).SlotsApart ∧
      ((Call.poprfBlindEvaluateBatch sk 1 texts.length info (1 + texts.length)
        (1 + 2 * texts.length)).run base64 F fuel).run (p'.view 0) = some (ret, s) := by
  obtain ⟨trace, p₁, ptrs, hrun, hkeeps, hissued⟩ := exists_decoded h p
  -- the caller lays the pointers out in its memory, with slots behind them
  let p' : Process S R := { p₁ with shared := { p₁.shared with memory := requestMemory ptrs, osRng } }
  have hhost : Keeps [.host] := List.forall_mem_singleton.mpr fun _ => id
  have hrun' : Run (Process.Step base64 F) p (trace ++ [.host]) p' := .snoc hrun (.host _ _)
  have hkeeps' : Keeps (trace ++ [.host]) := hkeeps.append hhost
  have hsk' : PointsAt p'.shared .secretKey sk skS :=
    ⟨hsk.1, value_run hrun' hsk.2 fun event hevent => hkeeps' event hevent _⟩
  have hissued' := hissued.imp fun q text (hq : Issued trace _ _) => hq.append hhost
  have hlen : ptrs.length = texts.length := hissued.length_eq
  have hcells := forall₂_requestMemory ptrs
  rw [hlen] at hcells
  -- the slots are `1 + n, .., 2 * n`, and the proof comes behind them
  have hapart : SlotsApart (1 + texts.length) texts.length (1 + 2 * texts.length) := by
    refine .inr (.inr fun i hi => Nat.ne_of_lt ?_)
    omega
  have hcontract : (Call.poprfBlindEvaluateBatch sk 1 texts.length info (1 + texts.length)
      (1 + 2 * texts.length)).Contract (p'.view 0).toShared := by
    refine ⟨.inr ⟨skS, hsk'.2⟩, .inr fun i hi => ?_, .inr fun i hi => ?_, .inr fun i hi => ?_, hapart⟩
    · -- the pointers are still those of the decoded elements
      obtain ⟨q, hq, hcell⟩ := exists_mem_of_forall₂ hcells (List.mem_range.mpr hi)
      obtain ⟨text, hq⟩ := exists_of_forall₂_mem_left hissued' hq
      obtain ⟨_, _, _, b, ⟨_, -, rfl⟩, hb, hget⟩ := value_of_issued rfl hrun' hq
      exact ⟨q, hcell, .inr ⟨b, hget⟩⟩
    · have hone : 1 ≤ 1 + texts.length + i := by omega
      have hle : 1 + texts.length + i ≤ 2 * ptrs.length + 1 := by omega
      exact ⟨_, requestMemory_of_le hone hle⟩
    · have hone : 1 ≤ 1 + 2 * texts.length + i := by omega
      have hle : 1 + 2 * texts.length + i ≤ 2 * ptrs.length + 1 := by omega
      exact Option.isSome_of_eq_some (requestMemory_of_le hone hle)
  obtain ⟨ret, s, hbatch⟩ := defined_run base64 F hdraw hcontract
  exact ⟨_, p', ret, s, hrun', hkeeps', hsk', ⟨ptrs, hcells, hissued'⟩, rfl, hapart, hbatch⟩

end Requests

section Answers

variable {start p : Process S R} {trace : List Event}

/-- A program that decodes texts, evaluates them in one batch and makes strings of what it finds in its
slots sends what the server of the protocol answers to the messages, and the batch fails when the server
does. Each result has a slot of its own. -/
theorem answers_serve (hstart : start.shared.heap = Heap.empty)
    (h : Run (Process.Step base64 F) start trace p) {sk blindedArr outEvaluated outProof : Ptr}
    {texts : List Bytes} {info : RawSlice} {skS : SecretKey} {infoBytes : Bytes}
    (hsk : PointsAt p.shared .secretKey sk skS)
    (hdecoded : DecodedArray trace p.shared.memory blindedArr texts)
    (hinfo : bytesFromRaw info = some infoBytes)
    (hargs : blindedArr ≠ NULL ∧ outEvaluated ≠ NULL ∧ outProof ≠ NULL ∧ texts.length ≠ 0)
    {fuel : ℕ} {nonce : Scalar} {drawn : R}
    (hdraw : randomScalar fuel p.shared.osRng = some (nonce, drawn)) {thread : ℕ} {ret : Ret}
    {s : State S R}
    (hrun : ((Call.poprfBlindEvaluateBatch sk blindedArr texts.length info outEvaluated outProof).run
      base64 F fuel).run (p.view thread) = some (ret, s)) :
    ∃ messages,
      List.Forall₂ (fun text message => base64.decode text = .ok message) texts messages ∧
      (ret = .int 0 ↔ ∃ answer, serve S F (.new skS) messages infoBytes nonce = .ok answer) ∧
      ∀ answer, serve S F (.new skS) messages infoBytes nonce = .ok answer →
        SlotsApart outEvaluated texts.length outProof →
        ∀ after p', Run (Process.Step base64 F) (p.resume thread s) after p' → ∀ cs c,
          List.Forall₂ (Written after .poprfEvaluatedElementEncodeBase64)
            (slots s.memory .evaluatedElement outEvaluated texts.length) cs →
          List.Forall₂ (Written after .poprfProofEncodeBase64) (slots s.memory .proof outProof 1) [c] →
          List.Forall₂ (IsText base64 p'.shared.heap) cs (answer.evaluated.map (·.toList)) ∧
            IsText base64 p'.shared.heap c answer.proof.toList := by
  obtain ⟨messages, blindeds, hmessages, hparsed, harray⟩ := hdecoded.exists_messages hstart h
  obtain ⟨hret, hslots⟩ := slots_of_run hsk harray hinfo hargs hdraw hrun
  refine ⟨messages, hmessages, ?_⟩
  simp only [serve_eq_ok_iff hparsed]
  constructor
  · rw [hret]
    constructor
    · rintro ⟨evaluateds, proof, hbatch⟩
      exact ⟨_, evaluateds, proof, hbatch, rfl⟩
    · rintro ⟨-, evaluateds, proof, hbatch, -⟩
      exact ⟨evaluateds, proof, hbatch⟩
  · rintro answer ⟨evaluateds, proof, hbatch, rfl⟩ hapart after p' hafter cs c hevaluateds hproof
    rw [List.map_map]
    exact texts_of_slots hafter (hslots evaluateds proof hbatch hapart) hevaluateds hproof

end Answers

/-! ## A request on the executable suite -/

/-- A program decodes the key `5`. -/
theorem exists_referenceServer : ∃ (trace : List Event) (p : Process referenceSuite Replay) (sk : Ptr),
    Run (Process.Step standardBase64 ⟨true, true⟩) freshProcess trace p ∧
    PointsAt p.shared .secretKey sk ⟨5⟩ := by
  let key : SecretKey := ⟨5⟩
  have hkey : Reads standardBase64 (SecretKey.fromBytes referenceSuite)
      (.points (utf8Bytes (standardBase64.encode (key.toBytes referenceSuite).toList))) key :=
    ⟨_, _, rfl, standardBase64_lawful.decode_encode _,
      (SecretKey.fromBytes_eq_ok_iff referenceSuite).mpr ⟨rfl, by decide +kernel⟩⟩
  have hfresh : Run (Process.Step standardBase64 ⟨true, true⟩) freshProcess [] freshProcess := .refl
  exact exists_key hkey rfl hfresh

/-- The text of the blinded element at a multiple of the basepoint. -/
def referenceText (k : Scalar) : Bytes :=
  utf8Bytes (standardBase64.encode ((BlindedElement.mk k).toBytes referenceSuite).toList)

/-- The text of a blinded element is read back. -/
theorem reads_referenceText {k : Scalar} (hk : k ≠ 0) :
    Reads standardBase64 (BlindedElement.fromBytes referenceSuite) (.points (referenceText k)) ⟨k⟩ :=
  ⟨_, _, rfl, standardBase64_lawful.decode_encode _,
    (BlindedElement.fromBytes_eq_ok_iff referenceSuite).mpr ⟨rfl, hk⟩⟩

/-- What the texts of two blinded elements decode to. -/
theorem eq_of_decode_referenceText {k k' : Scalar} {messages : List Bytes}
    (h : List.Forall₂ (fun text message => standardBase64.decode text = .ok message)
      [referenceText k, referenceText k'] messages) :
    messages = [((BlindedElement.mk k).toBytes referenceSuite).toList,
      ((BlindedElement.mk k').toBytes referenceSuite).toList] := by
  have hunique : Relator.RightUnique fun text message => standardBase64.decode text = .ok message :=
    fun text message message' h h' => Except.ok.inj (h.symm.trans h')
  refine List.right_unique_forall₂' hunique h ?_
  exact .cons (standardBase64_lawful.decode_encode _) (.cons (standardBase64_lawful.decode_encode _) .nil)

/-- The server with the key `5` answers a request of two elements. -/
theorem exists_referenceAnswer : ∃ answer, serve referenceSuite ⟨true, true⟩ (.new ⟨5⟩)
    [((BlindedElement.mk (7 : Scalar)).toBytes referenceSuite).toList,
      ((BlindedElement.mk (8 : Scalar)).toBytes referenceSuite).toList] [1] 11 = .ok answer := by
  have hserve : ((serve referenceSuite ⟨true, true⟩ (.new ⟨5⟩)
      [((BlindedElement.mk (7 : Scalar)).toBytes referenceSuite).toList,
        ((BlindedElement.mk (8 : Scalar)).toBytes referenceSuite).toList] [1] 11).map fun _ => ()) =
        .ok () := by
    decide +kernel
  obtain ⟨answer, hanswer, -⟩ := map_eq_ok_iff.mp hserve
  exact ⟨answer, hanswer⟩

/-- A caller decodes the texts of two blinded elements and has them evaluated under the key `5`. It gets
strings for the two elements and the proof, and they are the texts of what the server answers. -/
theorem answers_serve_reference : ∃ (trace : List Event) (p : Process referenceSuite Replay) (sk : Ptr)
    (s : State referenceSuite Replay) (messages : List Bytes) (answer : Answer),
    Run (Process.Step standardBase64 ⟨true, true⟩) freshProcess trace p ∧
    ((Call.poprfBlindEvaluateBatch sk 1 2 (.points [1]) 3 5).run standardBase64 ⟨true, true⟩ 1).run
      (p.view 0) = some (.int 0, s) ∧
    List.Forall₂ (fun text message => standardBase64.decode text = .ok message)
      [referenceText 7, referenceText 8] messages ∧
    serve referenceSuite ⟨true, true⟩ (.new ⟨5⟩) messages [1] 11 = .ok answer ∧
    ∃ after p' cs c, Run (Process.Step standardBase64 ⟨true, true⟩) (p.resume 0 s) after p' ∧
      List.Forall₂ (IsText standardBase64 p'.shared.heap) cs (answer.evaluated.map (·.toList)) ∧
      IsText standardBase64 p'.shared.heap c answer.proof.toList := by
  have hreads : List.Forall₂ (fun text b => Reads standardBase64 (BlindedElement.fromBytes referenceSuite)
      (.points text) b) [referenceText 7, referenceText 8] [⟨7⟩, ⟨8⟩] :=
    .cons (reads_referenceText (by decide +kernel)) (.cons (reads_referenceText (by decide +kernel)) .nil)
  have hdraw : randomScalar 1 (Replay.mk [11]) = some (11, Replay.mk []) :=
    randomScalar_replay (by decide +kernel) []
  obtain ⟨trace, p, sk, hrun, hsk⟩ := exists_referenceServer
  obtain ⟨trace', p', ret, s, hrun', -, hsk', hdecoded, hosRng, hapart, hbatch⟩ :=
    exists_batch hreads hsk (.points [1]) hdraw
  have hall := run_append_iff.mpr ⟨p, hrun, hrun'⟩
  have hdecoded' := hdecoded.append_left trace
  have hargs : (1 : Ptr) ≠ NULL ∧ (3 : Ptr) ≠ NULL ∧ (5 : Ptr) ≠ NULL ∧
      [referenceText 7, referenceText 8].length ≠ 0 := by decide
  obtain ⟨messages, hmessages, hret, htexts⟩ := answers_serve rfl hall hsk' hdecoded' rfl hargs
    (hosRng ▸ hdraw) hbatch
  obtain ⟨answer, hanswer⟩ := exists_referenceAnswer
  obtain rfl := eq_of_decode_referenceText hmessages
  obtain rfl := hret.mpr ⟨answer, hanswer⟩
  -- what the slots hold, for the strings that the caller has made of it
  obtain ⟨messages, blindeds, hmessages', hparsed, harray⟩ := hdecoded'.exists_messages rfl hall
  obtain rfl := eq_of_decode_referenceText hmessages'
  obtain ⟨evaluateds, proof, hevaluated, -⟩ := (serve_eq_ok_iff hparsed).mp hanswer
  have hslots := (slots_of_run hsk' harray rfl hargs (hosRng ▸ hdraw) hbatch).2 _ _ hevaluated hapart
  have hstep : Run (Process.Step standardBase64 ⟨true, true⟩) freshProcess _ (p'.resume 0 s) :=
    .snoc hall (.returns hapart hbatch)
  obtain ⟨after, p'', cs, c, hafter, hcs, hc⟩ := exists_texts standardBase64_lawful rfl hstep hslots
  exact ⟨_, p', sk, s, _, answer, hall, hbatch, hmessages, hanswer, after, p'', cs, c, hafter,
    htexts answer hanswer hapart after p'' hafter cs c hcs hc⟩

end PoprfRistretto.Ffi
