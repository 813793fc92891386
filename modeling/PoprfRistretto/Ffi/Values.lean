import PoprfRistretto.Api.Sessions
import PoprfRistretto.Ffi.Results

/-!
# The values behind the handles

Whatever the threads of a process call, every handle points to a valid value: no key is zero, no element
is the identity and every table is the table of an input. A handle that the caller holds was received
from a call of the run, and points to what the core computed then.

* `encoders_roundTrip` — every handle points to a valid value, and the string that is made of it reads
  back as that value.
* `poprfEvaluateTables_agrees` — a batch of tables is evaluated like the inputs that they were made of.
-/

namespace PoprfRistretto.Ffi

open Memory PartialState Utf8 ExceptLoop

variable {G : Type} [AddCommGroup G] [Module Scalar G] {S : Suite G} {R : Type}

/-- The value of the core that a handle of type `t` points to. Strings are none. -/
def HandleType.value : (t : HandleType) → t.Value S → Option (PoprfRistretto.Value S)
  | secretKey, sk => some (.secretKey sk)
  | publicKey, pk => some (.publicKey pk)
  | blindedElement, b => some (.blinded b)
  | evaluatedElement, e => some (.evaluated e)
  | proof, p => some (.proof p)
  | inputTable, tb => some (.table tb)
  | output, o => some (.output o)
  | cChar, _ => none

variable [DecidableEq G]

/-- A box holds a valid value, or a string. -/
def Boxed.Valid (F : Features) (b : Boxed S) : Prop :=
  (b.type.value b.value).elim True (·.Valid F)

/-- Every box of the heap is valid. -/
def HeapValid (F : Features) (heap : Heap (Boxed S)) : Prop :=
  ∀ p b, heap.get p = some b → b.Valid F

section Steps

variable {base64 : Base64} {F : Features}

/-- A string is no value of the core. -/
theorem Boxed.valid_of_cChar {b : Boxed S} (h : b.type = .cChar) : b.Valid F := by
  obtain ⟨t, v⟩ := b
  obtain rfl : t = .cChar := h
  trivial

/-- The calls that are no operation hand out nothing but strings. -/
theorem type_of_mem_received {call : Call} (h : ¬call.isOperation) {memory : CallerMemory} {ret : Ret}
    {handle : Handle} (hmem : handle ∈ call.received memory ret) : handle.1 = .cChar := by
  cases call with
  | poprfLastErrorMessage =>
    cases ret with
    | ptr p =>
      by_cases hp : p = NULL
      · simp [Call.received, hp] at hmem
      · simp [Call.received, Call.returns, hp] at hmem
        rw [hmem]
    | int c => cases hmem
    | void => cases hmem
  | poprfCCharDestroy | poprfSecretKeyDestroy | poprfPublicKeyDestroy | poprfBlindedElementDestroy
  | poprfEvaluatedElementDestroy | poprfProofDestroy | poprfInputTableDestroy | poprfOutputDestroy =>
    rw [received_of_released rfl] at hmem
    cases hmem
  | _ => exact absurd rfl h

/-- What a call computes from valid values is valid. -/
theorem Call.valid_of_computes [Rng R] {fuel : ℕ} {s : Shared S R} (hs : HeapValid F s.heap)
    {call : Call} {new : List (Boxed S)} (h : call.Computes base64 F fuel s new) :
    ∀ b ∈ new, b.Valid F := by
  cases call with
  | poprfSecretKeyFromSeed seed info =>
    obtain ⟨_, _, sk, pk, -, -, hderive, rfl⟩ := h
    exact List.forall_mem_singleton.mpr
      (show sk.scalar ≠ 0 from (deriveKeyPair_eq_ok S hderive).1)
  | poprfSecretKeyDecodeBase64 text =>
    obtain ⟨sk, ⟨_, _, -, -, hparse⟩, rfl⟩ := h
    exact List.forall_mem_singleton.mpr
      (show sk.scalar ≠ 0 from ((SecretKey.fromBytes_eq_ok_iff S).mp hparse).2)
  | poprfPublicKeyFromSecret sk =>
    obtain ⟨skS, ⟨-, hskS⟩, rfl⟩ := h
    -- the key on the heap is valid already
    have hvalid : skS.scalar ≠ 0 := hs _ _ hskS
    exact List.forall_mem_singleton.mpr
      (show (skS.publicKey S).point ≠ 0 from SecretKey.publicKey_ne_zero S hvalid)
  | poprfBlindedElementDecodeBase64 text =>
    obtain ⟨b, ⟨_, _, -, -, hparse⟩, rfl⟩ := h
    exact List.forall_mem_singleton.mpr
      (show b.point ≠ 0 from ((BlindedElement.fromBytes_eq_ok_iff S).mp hparse).2)
  | poprfBlindEvaluateBatch sk blindedArr n info outEvaluated outProof =>
    obtain ⟨-, skS, blindeds, infoBytes, evaluateds, proof, _, -, -, -, hbatch, rfl⟩ := h
    obtain ⟨r, hbatch⟩ := (PoprfServer.new skS).blindEvaluateBatch_eq_some S F hbatch
    -- an evaluation of a valid element is not the identity
    have hvalid := PoprfServer.blindEvaluateBatchWithRInner_ne_zero S F hbatch.symm
    exact List.forall_mem_append.mpr ⟨List.forall_mem_map.mpr hvalid,
      List.forall_mem_singleton.mpr trivial⟩
  | poprfEvaluate sk input info =>
    obtain ⟨_, _, _, out, -, -, -, -, rfl⟩ := h
    exact List.forall_mem_singleton.mpr trivial
  | poprfInputTableNew input =>
    obtain ⟨inputBytes, tb, -, htb, rfl⟩ := h
    exact List.forall_mem_singleton.mpr ⟨inputBytes, htb⟩
  | poprfEvaluateTables sk tablesArr n info outOutputs =>
    obtain ⟨-, _, _, _, outputs, -, -, -, -, rfl⟩ := h
    exact List.forall_mem_map.mpr fun _ _ => trivial
  | poprfOutputEqBase64 o expectedB64 =>
    obtain ⟨_, _, -, -, rfl⟩ := h
    exact fun _ hb => absurd hb List.not_mem_nil
  | poprfSecretKeyEncodeBase64 | poprfPublicKeyEncodeBase64 | poprfEvaluatedElementEncodeBase64
  | poprfProofEncodeBase64 | poprfOutputEncodeBase64 =>
    obtain ⟨_, c, -, -, rfl⟩ := h
    exact List.forall_mem_singleton.mpr trivial
  | _ => cases h

/-- A heap stays valid when valid boxes are added. -/
theorem HeapValid.extend {heap heap' : Heap (Boxed S)} {new : List (Boxed S)} (h : HeapValid F heap)
    (hextends : heap.Extends heap' new) (hnew : ∀ b ∈ new, b.Valid F) : HeapValid F heap' := by
  intro p b hb
  rcases hextends.get_eq_some_iff.mp hb with hold | ⟨i, -, hi⟩
  · exact h p b hold
  · exact hnew b (List.mem_of_getElem? hi)

/-- A heap stays valid when a box is freed. -/
theorem HeapValid.free {heap : Heap (Boxed S)} (h : HeapValid F heap) (q : Ptr) :
    HeapValid F (heap.free q) := by
  intro p b hb
  by_cases hp : p = q
  · rw [hp] at hb
    exact absurd ((Function.update_self ..).symm.trans hb) (Option.some_ne_none _).symm
  · exact h p b ((Function.update_of_ne hp ..).symm.trans hb)

/-- A step keeps the heap valid. -/
theorem Process.Step.heapValid [Rng R] {p p' : Process S R} {event : Event}
    (h : HeapValid F p.shared.heap) (hstep : Process.Step base64 F p event p') :
    HeapValid F p'.shared.heap := by
  cases hstep with
  | @returns thread fuel call ret s hapart hrun =>
    show HeapValid F s.heap
    cases hreleased : call.released with
    | some handle =>
      obtain ⟨t, q⟩ := handle
      rcases frees_run base64 F fuel hreleased _ _ _ hrun with ⟨-, hheap⟩ | ⟨-, hheap⟩
      · rwa [hheap]
      · rw [hheap]
        exact h.free q
    | none =>
      by_cases hop : call.isOperation
      · rcases outcome_run base64 F fuel hop _ _ _ hrun with ⟨-, hheap, -⟩ | ⟨-, new, hnew, hextends⟩
        · rwa [hheap]
        · exact h.extend hextends (Call.valid_of_computes h hnew)
      · -- the error message is the one call left, and it hands out a string
        obtain ⟨new, hextends, hreceived⟩ := handsOut_run base64 F fuel hreleased hapart _ _ _ hrun
        have hhandles : call.received s.memory ret = handles p.shared.heap.next new := hreceived
        refine h.extend hextends fun b hb => ?_
        obtain ⟨i, hi⟩ := List.mem_iff_getElem?.mp hb
        have hmem : (b.type, p.shared.heap.next + i) ∈ call.received s.memory ret := by
          rw [hhandles]
          exact mem_handles_iff.mpr ⟨i, b.value, rfl, hi⟩
        exact Boxed.valid_of_cChar (type_of_mem_received hop hmem)
  | host => exact h

end Steps

/-! ## Handles that were received in a run -/

/-- The caller has received the handle from the call, and has not given it back since. -/
def Issued (trace : List Event) (call : Call) (handle : Handle) : Prop :=
  ∃ before thread ret memory after, trace = before ++ .returns thread call ret memory :: after ∧
    handle ∈ call.received memory ret ∧ ∀ event ∈ after, ¬event.Releases handle

/-- The caller receives nothing from a call that fails. -/
theorem received_of_failed {call : Call} {ret : Ret} (h : call.Failed ret) (memory : CallerMemory) :
    call.received memory ret = [] := by
  cases ret with
  | ptr p =>
    have hp : p = NULL := by cases call <;> exact h
    subst hp
    cases call <;> rfl
  | int c =>
    cases call with
    | poprfBlindEvaluateBatch _ _ _ _ _ _ => exact if_neg h
    | poprfEvaluateTables _ _ _ _ _ => exact if_neg h
    | _ => rfl
  | void => cases call <;> rfl

section Handles

variable [Rng R] {base64 : Base64} {F : Features} {start p p' : Process S R} {trace : List Event}

/-- What the caller receives in a step points to what the core computes. -/
theorem Process.Step.value_of_received {thread : ℕ} {call : Call} {ret : Ret} {memory : CallerMemory}
    (hstep : Process.Step base64 F p (.returns thread call ret memory) p') (hop : call.isOperation)
    {t : HandleType} {q : Ptr} (hmem : (t, q) ∈ call.received memory ret) :
    ∃ fuel new v, call.Computes base64 F fuel p.shared new ∧ (⟨t, v⟩ : Boxed S) ∈ new ∧
      p'.shared.heap.get q = some ⟨t, v⟩ := by
  cases hstep with
  | @returns _ fuel _ _ s hapart hrun =>
    rcases received_of_run hop hrun with ⟨hfailed, -⟩ | ⟨-, new, hnew, hreceived⟩
    · rw [received_of_failed hfailed] at hmem
      cases hmem
    · obtain ⟨⟨t', v⟩, hb, htype, hget⟩ := exists_mem_of_forall₂ (hreceived hapart) hmem
      obtain rfl : t = t' := htype
      exact ⟨fuel, new, v, hnew, hb, hget⟩

/-- A handle that the caller has received from an operation points to what the core computed. -/
theorem value_of_issued {call : Call} (hop : call.isOperation) {t : HandleType} {q : Ptr}
    (h : Run (Process.Step base64 F) start trace p) (hissued : Issued trace call (t, q)) :
    ∃ fuel, ∃ (shared : Shared S R), ∃ new v, call.Computes base64 F fuel shared new ∧
      (⟨t, v⟩ : Boxed S) ∈ new ∧ p.shared.heap.get q = some ⟨t, v⟩ := by
  obtain ⟨before, thread, ret, memory, after, rfl, hmem, hkept⟩ := hissued
  obtain ⟨p₀, p₁, -, hstep, hafter⟩ := run_append_cons_iff.mp h
  obtain ⟨fuel, new, v, hnew, hb, hv⟩ := hstep.value_of_received hop hmem
  exact ⟨fuel, p₀.shared, new, v, hnew, hb, value_run hafter hv hkept⟩

omit [DecidableEq G] [Rng R] in
/-- A handle that was received stays so, until it is given back. -/
theorem Issued.concat {call : Call} {handle : Handle} (h : Issued trace call handle) {event : Event}
    (hkept : ¬event.Releases handle) : Issued (trace ++ [event]) call handle := by
  obtain ⟨before, thread, ret, memory, after, rfl, hmem, hafter⟩ := h
  refine ⟨before, thread, ret, memory, after ++ [event], by simp, hmem, ?_⟩
  exact List.forall_mem_append.mpr ⟨hafter, List.forall_mem_singleton.mpr hkept⟩

/-- Every handle of the ledger was received from a call. -/
theorem exists_issued (hstart : start.shared.heap = Heap.empty)
    (h : Run (Process.Step base64 F) start trace p) {handle : Handle} (hmem : handle ∈ ledger trace) :
    ∃ call, Issued trace call handle := by
  induction h with
  | refl => exact absurd hmem List.not_mem_nil
  | @snoc trace p p' event prior step ih =>
    rw [ledger_concat] at hmem
    cases event with
    | host =>
      obtain ⟨call, hissued⟩ := ih hmem
      exact ⟨call, hissued.concat fun hreleases => hreleases⟩
    | returns thread call ret memory =>
      rcases List.mem_append.mp hmem with hold | hnew
      · cases hreleased : call.released with
        | none =>
          rw [hreleased] at hold
          obtain ⟨call', hissued⟩ := ih hold
          exact ⟨call', hissued.concat fun hreleases => Option.some_ne_none _
            (hreleases.symm.trans hreleased)⟩
        | some released =>
          -- the ledger has no handle twice, so one that is left is not the one given back
          rw [hreleased, Option.elim_some, (accounts_run hstart prior).nodup.mem_erase_iff] at hold
          obtain ⟨hne, hold⟩ := hold
          obtain ⟨call', hissued⟩ := ih hold
          exact ⟨call', hissued.concat fun hreleases => hne
            (Option.some.inj (hreleases.symm.trans hreleased))⟩
      · exact ⟨call, trace, thread, ret, memory, [], rfl, hnew, fun _ h => absurd h List.not_mem_nil⟩

/-- A table that a call computes is the table of an input, and the call is `poprf_input_table_new`. -/
theorem Call.eq_poprfInputTableNew {fuel : ℕ} {shared : Shared S R} {call : Call}
    {new : List (Boxed S)} (h : call.Computes base64 F fuel shared new) {tb : PoprfInputTable S}
    (hmem : (⟨.inputTable, tb⟩ : Boxed S) ∈ new) : ∃ input inputBytes,
      call = .poprfInputTableNew input ∧ bytesFromRaw input = some inputBytes ∧
      PoprfInputTable.new S F inputBytes = .ok tb := by
  cases call with
  | poprfInputTableNew input =>
    obtain ⟨inputBytes, tb', hinput, htb, rfl⟩ := h
    cases List.mem_singleton.mp hmem
    exact ⟨input, inputBytes, rfl, hinput, htb⟩
  -- no other operation hands out a table
  | poprfBlindEvaluateBatch sk blindedArr n info outEvaluated outProof =>
    obtain ⟨-, _, _, _, _, _, _, -, -, -, -, rfl⟩ := h
    rcases List.mem_append.mp hmem with hevaluated | hproof
    · obtain ⟨_, -, heq⟩ := List.mem_map.mp hevaluated
      cases heq
    · cases List.mem_singleton.mp hproof
  | poprfEvaluateTables sk tablesArr n info outOutputs =>
    obtain ⟨-, _, _, _, _, -, -, -, -, rfl⟩ := h
    obtain ⟨_, -, heq⟩ := List.mem_map.mp hmem
    cases heq
  | poprfOutputEqBase64 o expectedB64 =>
    obtain ⟨_, _, -, -, rfl⟩ := h
    cases hmem
  | poprfSecretKeyFromSeed seed info =>
    obtain ⟨_, _, _, _, -, -, -, rfl⟩ := h
    cases List.mem_singleton.mp hmem
  | poprfEvaluate sk input info =>
    obtain ⟨_, _, _, _, -, -, -, -, rfl⟩ := h
    cases List.mem_singleton.mp hmem
  | poprfSecretKeyEncodeBase64 | poprfPublicKeyEncodeBase64 | poprfEvaluatedElementEncodeBase64
  | poprfProofEncodeBase64 | poprfOutputEncodeBase64 =>
    obtain ⟨_, _, -, -, rfl⟩ := h
    cases List.mem_singleton.mp hmem
  | poprfSecretKeyDecodeBase64 | poprfBlindedElementDecodeBase64 | poprfPublicKeyFromSecret =>
    obtain ⟨_, -, rfl⟩ := h
    cases List.mem_singleton.mp hmem
  | _ => cases h

/-- The handle of a table was received from `poprf_input_table_new`, for this input. -/
def TableOf (trace : List Event) (q : Ptr) (input : Bytes) : Prop :=
  ∃ raw, bytesFromRaw raw = some input ∧ Issued trace (.poprfInputTableNew raw) (.inputTable, q)

/-- What a call that makes a table has returned points to the table of its input. -/
theorem TableOf.exists_pointsAt (hstart : start.shared.heap = Heap.empty)
    (h : Run (Process.Step base64 F) start trace p) {q : Ptr} {input : Bytes}
    (htable : TableOf trace q input) :
    ∃ tb, PointsAt p.shared .inputTable q tb ∧ PoprfInputTable.new S F input = .ok tb := by
  obtain ⟨raw, hraw, hissued⟩ := htable
  obtain ⟨fuel, shared, new, tb, hnew, hmem, htb⟩ := value_of_issued rfl h hissued
  obtain ⟨raw', input', hcall, hraw', htable⟩ := Call.eq_poprfInputTableNew hnew hmem
  cases hcall
  obtain rfl := Option.some.inj (hraw.symm.trans hraw')
  have haccounts := accounts_run hstart h
  exact ⟨tb, ⟨haccounts.ne_null _ q ((haccounts.mem_iff _ q).mpr ⟨tb, htb⟩), htb⟩, htable⟩

/-- Every table of the ledger is the table of the input that it was made of. -/
theorem exists_tableOf (hstart : start.shared.heap = Heap.empty)
    (h : Run (Process.Step base64 F) start trace p) {q : Ptr} {tb : PoprfInputTable S}
    (htb : p.shared.heap.get q = some ⟨.inputTable, tb⟩) :
    ∃ input, TableOf trace q input ∧ PoprfInputTable.new S F input = .ok tb := by
  have hmem : (.inputTable, q) ∈ ledger trace := ((accounts_run hstart h).mem_iff _ _).mpr ⟨tb, htb⟩
  obtain ⟨call, hissued⟩ := exists_issued hstart h hmem
  by_cases hop : call.isOperation
  · obtain ⟨fuel, shared, new, tb', hnew, hb, htb'⟩ := value_of_issued hop h hissued
    obtain rfl := value_unique htb htb'
    obtain ⟨raw, input, rfl, hraw, htable⟩ := Call.eq_poprfInputTableNew hnew hb
    exact ⟨input, ⟨raw, hraw, hissued⟩, htable⟩
  · obtain ⟨_, _, _, _, _, -, hreceived, -⟩ := hissued
    cases type_of_mem_received hop hreceived

/-- The array holds the handles of tables that were made of the inputs. -/
def TablesOf (trace : List Event) (memory : CallerMemory) (arr : Ptr) (n : ℕ) (inputs : List Bytes) :
    Prop :=
  ∃ ptrs : List Ptr, List.Forall₂ (fun i q => memory (arr + i) = some (some q)) (List.range n) ptrs ∧
    List.Forall₂ (TableOf trace) ptrs inputs

/-- An array of tables that were made of inputs points to the tables of the inputs. -/
theorem TablesOf.exists_tables (hstart : start.shared.heap = Heap.empty)
    (h : Run (Process.Step base64 F) start trace p) {arr : Ptr} {n : ℕ} {inputs : List Bytes}
    (htables : TablesOf trace p.shared.memory arr n inputs) :
    ∃ tables, ArrayPointsAt p.shared .inputTable arr n tables ∧
      List.Forall₂ (fun input tb => PoprfInputTable.new S F input = .ok tb) inputs tables := by
  obtain ⟨ptrs, hptrs, hinputs⟩ := htables
  obtain ⟨tables, hvalues, hmade⟩ :=
    forall₂_exists_iff.mp (hinputs.imp fun q input hq => hq.exists_pointsAt hstart h)
  exact ⟨tables, ⟨ptrs, hptrs, hvalues⟩, hmade.flip⟩

/-- An array that points to tables holds tables that were made of inputs. -/
theorem exists_tablesOf (hstart : start.shared.heap = Heap.empty)
    (h : Run (Process.Step base64 F) start trace p) {arr : Ptr} {n : ℕ}
    {tables : List (PoprfInputTable S)} (harr : ArrayPointsAt p.shared .inputTable arr n tables) :
    ∃ inputs, TablesOf trace p.shared.memory arr n inputs ∧
      List.Forall₂ (fun input tb => PoprfInputTable.new S F input = .ok tb) inputs tables := by
  obtain ⟨ptrs, hptrs, hvalues⟩ := harr
  have hboth : List.Forall₂ (fun q tb => ∃ input, TableOf trace q input ∧
      PoprfInputTable.new S F input = .ok tb) ptrs tables :=
    hvalues.imp fun q tb hq => exists_tableOf hstart h hq.2
  obtain ⟨inputs, hinputs, hmade⟩ := forall₂_exists_iff.mp hboth
  exact ⟨inputs, ⟨ptrs, hptrs, hinputs⟩, hmade⟩

end Handles

section Runs

variable [Rng R] {base64 : Base64} {F : Features} {start p : Process S R} {trace : List Event}

/-- The heap is valid in every run. -/
theorem heapValid_run (hstart : start.shared.heap = Heap.empty)
    (h : Run (Process.Step base64 F) start trace p) : HeapValid F p.shared.heap := by
  induction h with
  | refl =>
    rw [hstart]
    exact fun _ _ hb => nomatch hb
  | snoc prior step ih => exact step.heapValid ih

omit [Rng R] in
/-- What a batch of tables is evaluated to are the evaluations of their inputs. -/
theorem forall₂_evaluate {server : PoprfServer} {inputs : List Bytes}
    {tables : List (PoprfInputTable S)} {info : Bytes} {outputs : List PoprfOutput}
    (htables : List.Forall₂ (fun input tb => PoprfInputTable.new S F input = .ok tb) inputs tables)
    (h : server.evaluateTables S tables info = .ok outputs) :
    List.Forall₂ (fun input out => server.evaluate S input info = .ok out) inputs outputs := by
  have hne : tables ≠ [] := by
    rintro rfl
    cases h
  rw [server.evaluateTables_eq S F hne htables] at h
  obtain ⟨t, ht, h⟩ := bind_eq_ok_iff.mp h
  cases h
  rw [List.forall₂_map_right_iff, List.forall₂_same]
  intro input hinput
  obtain ⟨tb, htb⟩ := exists_of_forall₂_mem_left htables hinput
  rw [server.evaluate_eq_of_table S F htb, ht]
  rfl

omit [Rng R] in
/-- A batch of tables is evaluated when one of their inputs is. -/
theorem exists_evaluateTables {server : PoprfServer} {inputs : List Bytes}
    {tables : List (PoprfInputTable S)} {info : Bytes}
    (htables : List.Forall₂ (fun input tb => PoprfInputTable.new S F input = .ok tb) inputs tables)
    {input : Bytes} (hinput : input ∈ inputs) {out : PoprfOutput}
    (h : server.evaluate S input info = .ok out) :
    ∃ outputs, server.evaluateTables S tables info = .ok outputs := by
  obtain ⟨tb, htb⟩ := exists_of_forall₂_mem_left htables hinput
  have hne : tables ≠ [] := by
    rintro rfl
    rw [List.forall₂_nil_right_iff] at htables
    rw [htables] at hinput
    cases hinput
  rw [server.evaluate_eq_of_table S F htb] at h
  obtain ⟨t, ht, -⟩ := bind_eq_ok_iff.mp h
  exact ⟨_, by rw [server.evaluateTables_eq S F hne htables, ht]; rfl⟩

end Runs

/-! ## Strings -/

/-- The functions that write a value as a string, with the parser of what they write. -/
inductive Encoder (S : Suite G) : (t : HandleType) → (Ptr → Call) → (t.Value S → Bytes) →
    (Bytes → Except Error (t.Value S)) → Prop
  | secretKey : Encoder S .secretKey .poprfSecretKeyEncodeBase64 (fun sk => (sk.toBytes S).toList)
      (SecretKey.fromBytes S)
  | publicKey : Encoder S .publicKey .poprfPublicKeyEncodeBase64 (fun pk => (pk.toBytes S).toList)
      (PublicKey.fromBytes S)
  | evaluatedElement : Encoder S .evaluatedElement .poprfEvaluatedElementEncodeBase64
      (fun e => (e.toBytes S).toList) (EvaluatedElement.fromBytes S)
  | proof : Encoder S .proof .poprfProofEncodeBase64 (fun p => (p.toBytes S).toList)
      (Proof.fromBytes S)
  | output : Encoder S .output .poprfOutputEncodeBase64 (fun o => o.asBytes.toList)
      PoprfOutput.fromBytes

namespace Encoder

variable {t : HandleType} {encode : Ptr → Call} {toBytes : t.Value S → Bytes}
  {fromBytes : Bytes → Except Error (t.Value S)}

/-- A valid value is read back. -/
theorem fromBytes_toBytes (h : Encoder S t encode toBytes fromBytes) {F : Features} {v : t.Value S}
    (hv : (⟨t, v⟩ : Boxed S).Valid F) : fromBytes (toBytes v) = .ok v := by
  cases h with
  | secretKey => exact (SecretKey.fromBytes_eq_ok_iff S).mpr ⟨rfl, hv⟩
  | publicKey => exact (PublicKey.fromBytes_eq_ok_iff S).mpr ⟨rfl, hv⟩
  | evaluatedElement => exact (EvaluatedElement.fromBytes_eq_ok_iff S).mpr ⟨rfl, hv⟩
  | proof => exact (Proof.fromBytes_eq_ok_iff S).mpr rfl
  | output => exact dif_pos v.bytes.2

/-- An encoder is an operation that makes a string of what the handle points to. -/
theorem computes_iff [Rng R] (h : Encoder S t encode toBytes fromBytes) {base64 : Base64} {F : Features}
    {fuel : ℕ} {s : Shared S R} {q : Ptr} {new : List (Boxed S)} :
    (encode q).Computes base64 F fuel s new ↔ Encodes base64 s t toBytes q new := by
  cases h <;> exact Iff.rfl

/-- An encoder is an operation. -/
theorem isOperation (h : Encoder S t encode toBytes fromBytes) (q : Ptr) :
    (encode q).isOperation := by
  cases h <;> rfl

/-- An encoder writes no slots. -/
theorem slotsApart (h : Encoder S t encode toBytes fromBytes) (q : Ptr) : (encode q).SlotsApart := by
  cases h <;> trivial

/-- A call of an encoder returns. -/
theorem defined_run [Rng R] (h : Encoder S t encode toBytes fromBytes) {base64 : Base64} {F : Features}
    {fuel : ℕ} {s : State S R} {q : Ptr} (hq : IsHandle s.toShared t q) :
    Defined ((encode q).run base64 F fuel) s := by
  cases h <;> exact defined_map (defined_encodeBase64 base64 hq _ _) _

/-- An encoder returns a string. -/
theorem eq_ptr_of_received (h : Encoder S t encode toBytes fromBytes) {q : Ptr} {memory : CallerMemory}
    {ret : Ret} {handle : Handle} (hreceived : (encode q).received memory ret = [handle]) :
    ret = .ptr handle.2 := by
  have hptr : ∀ a, (encode q).received memory (.ptr a) = returned .cChar a memory := by
    cases h <;> exact fun _ => rfl
  cases ret with
  | ptr a =>
    rw [hptr, returned] at hreceived
    split at hreceived
    · cases hreceived
    · rw [← List.singleton_inj.mp hreceived]
  | int c => cases h <;> cases hreceived
  | void => cases h <;> cases hreceived

end Encoder

section Runs

variable [Rng R] {base64 : Base64} {F : Features} {start p : Process S R} {trace : List Event}

/-- A string that is made of a valid handle reads back as the value of the handle. -/
theorem Encoder.exists_run (hbase64 : base64.Lawful) {t : HandleType} {encode : Ptr → Call}
    {toBytes : t.Value S → Bytes} {fromBytes : Bytes → Except Error (t.Value S)}
    (hencoder : Encoder S t encode toBytes fromBytes) {q : Ptr} {v : t.Value S}
    (hv : PointsAt p.shared t q v) (hparse : fromBytes (toBytes v) = .ok v) (thread fuel : ℕ) :
    ∃ a s c, ((encode q).run base64 F fuel).run (p.view thread) = some (.ptr a, s) ∧
      s.heap.get a = some ⟨.cChar, c⟩ ∧ Reads base64 fromBytes (.points c.bytes) v := by
  have hdefined : Defined ((encode q).run base64 F fuel) (p.view thread) :=
    hencoder.defined_run (.inr ⟨v, hv.2⟩)
  obtain ⟨ret, s, hrun⟩ := hdefined
  rcases received_of_run (hencoder.isOperation q) hrun with ⟨-, hnone⟩ | ⟨-, new, hnew, hreceived⟩
  · let c : CString := ⟨_, hbase64.zero_not_mem_encode (toBytes v)⟩
    exact absurd (hencoder.computes_iff.mpr ⟨v, c, hv, rfl, rfl⟩) (hnone _)
  · obtain ⟨v', c, hv', hc, rfl⟩ := hencoder.computes_iff.mp hnew
    obtain rfl := value_unique hv.2 hv'.2
    obtain ⟨handle, _, ⟨htype, hget⟩, hnil, hhandle⟩ :=
      List.forall₂_cons_right_iff.mp (hreceived (hencoder.slotsApart q))
    rw [List.forall₂_nil_right_iff.mp hnil] at hhandle
    obtain rfl := hencoder.eq_ptr_of_received hhandle
    refine ⟨handle.2, s, c, hrun, hget, _, toBytes v, rfl, ?_, hparse⟩
    rw [hc]
    exact hbase64.decode_encode _

/-- At every point of every run of a process, every handle that the caller holds points to a valid value:
no key is zero, no element the identity and every table that of an input. On any thread, the encoder of
its type makes a string of it that reads back as that value. -/
theorem encoders_roundTrip (hbase64 : base64.Lawful) (hstart : start.shared.heap = Heap.empty)
    (h : Run (Process.Step base64 F) start trace p) :
    (∀ t q, (t, q) ∈ ledger trace → ∃ v : t.Value S, p.shared.heap.get q = some ⟨t, v⟩ ∧
      (⟨t, v⟩ : Boxed S).Valid F) ∧
    ∀ {t : HandleType} {encode : Ptr → Call} {toBytes : t.Value S → Bytes}
      {fromBytes : Bytes → Except Error (t.Value S)},
      Encoder S t encode toBytes fromBytes → ∀ q, (t, q) ∈ ledger trace →
      ∃ v : t.Value S, p.shared.heap.get q = some ⟨t, v⟩ ∧ fromBytes (toBytes v) = .ok v ∧
        ∀ thread fuel, ∃ a s c,
          ((encode q).run base64 F fuel).run (p.view thread) = some (.ptr a, s) ∧
          s.heap.get a = some ⟨.cChar, c⟩ ∧ Reads base64 fromBytes (.points c.bytes) v := by
  have haccounts := accounts_run hstart h
  have hvalid : ∀ t q, (t, q) ∈ ledger trace → ∃ v : t.Value S, p.shared.heap.get q = some ⟨t, v⟩ ∧
      (⟨t, v⟩ : Boxed S).Valid F := by
    intro t q hq
    obtain ⟨v, hv⟩ := (haccounts.mem_iff t q).mp hq
    exact ⟨v, hv, heapValid_run hstart h q _ hv⟩
  refine ⟨hvalid, fun hencoder q hq => ?_⟩
  obtain ⟨v, hv, hboxed⟩ := hvalid _ q hq
  have hparse := hencoder.fromBytes_toBytes hboxed
  exact ⟨v, hv, hparse, hencoder.exists_run hbase64 ⟨haccounts.ne_null _ q hq, hv⟩ hparse⟩

/-- At every point of every run of a process, on any thread, a batch of tables is evaluated as
`poprf_evaluate` evaluates the inputs that calls of the run have made the tables of, one by one and in
order; when it fails on an array of tables, each of these evaluations fails. -/
theorem poprfEvaluateTables_agrees (hstart : start.shared.heap = Heap.empty)
    (h : Run (Process.Step base64 F) start trace p) {thread fuel : ℕ} {sk tablesArr : Ptr} {n : ℕ}
    {info : RawSlice} {outOutputs : Ptr} {ret : Ret} {s : State S R}
    (hrun : ((Call.poprfEvaluateTables sk tablesArr n info outOutputs).run base64 F fuel).run
      (p.view thread) = some (ret, s)) :
    (∀ inputs, TablesOf trace p.shared.memory tablesArr n inputs →
      ∃ tables, ArrayPointsAt p.shared .inputTable tablesArr n tables ∧
        List.Forall₂ (fun input tb => PoprfInputTable.new S F input = .ok tb) inputs tables) ∧
    (ret = .int 0 → ∃ skS infoBytes tables inputs outputs, PointsAt p.shared .secretKey sk skS ∧
      ArrayPointsAt p.shared .inputTable tablesArr n tables ∧ bytesFromRaw info = some infoBytes ∧
      TablesOf trace p.shared.memory tablesArr n inputs ∧
      List.Forall₂ (fun input tb => PoprfInputTable.new S F input = .ok tb) inputs tables ∧
      List.Forall₂ (fun input out => (PoprfServer.new skS).evaluate S input infoBytes = .ok out)
        inputs outputs ∧
      List.Forall₂ (fun handle out => handle.1 = .output ∧ s.heap.get handle.2 = some ⟨.output, out⟩)
        (slots s.memory .output outOutputs n) outputs) ∧
    (ret ≠ .int 0 → tablesArr ≠ NULL ∧ outOutputs ≠ NULL ∧ n ≠ 0 →
      ∀ skS infoBytes tables inputs, PointsAt p.shared .secretKey sk skS →
      ArrayPointsAt p.shared .inputTable tablesArr n tables → bytesFromRaw info = some infoBytes →
      List.Forall₂ (fun input tb => PoprfInputTable.new S F input = .ok tb) inputs tables →
      ∀ input ∈ inputs, ∃ e, (PoprfServer.new skS).evaluate S input infoBytes = .error e) := by
  refine ⟨fun inputs htables => htables.exists_tables hstart h, ?_⟩
  obtain ⟨code, rfl⟩ : ∃ code, ret = .int code := by
    rw [Call.run, map_eq_pure_bind] at hrun
    obtain ⟨code, _, -, hpure⟩ := run_bind_eq_some_iff.mp hrun
    cases hpure
    exact ⟨code, rfl⟩
  have hfailed : (Call.poprfEvaluateTables sk tablesArr n info outOutputs).Failed (.int code) ↔
      Ret.int code ≠ .int 0 := by
    simp [Call.Failed]
  rcases received_of_run rfl hrun with ⟨hret, hnone⟩ | ⟨hok, new, hnew, hreceived⟩
  · refine ⟨fun h0 => absurd h0 (hfailed.mp hret), fun _ hargs skS infoBytes tables inputs hsk harr
      hinfo htables input hinput => ?_⟩
    cases heval : (PoprfServer.new skS).evaluate S input infoBytes with
    | error e => exact ⟨e, rfl⟩
    | ok out =>
      -- one evaluation is enough for the batch to succeed
      obtain ⟨outputs, houtputs⟩ := exists_evaluateTables htables hinput heval
      exact absurd ⟨hargs, skS, tables, infoBytes, outputs, hsk, harr, hinfo, houtputs, rfl⟩ (hnone _)
  · have hret : Ret.int code = .int 0 := not_not.mp (mt hfailed.mpr hok)
    refine ⟨fun _ => ?_, fun h0 => absurd hret h0⟩
    obtain rfl := Ret.int.inj hret
    obtain ⟨-, skS, tables, infoBytes, outputs, hsk, harr, hinfo, houtputs, rfl⟩ := hnew
    obtain ⟨inputs, hmade, hinputs⟩ := exists_tablesOf hstart h harr
    have hslots := hreceived trivial
    rw [List.forall₂_map_right_iff] at hslots
    exact ⟨skS, infoBytes, tables, inputs, outputs, hsk, harr, hinfo, hmade, hinputs,
      forall₂_evaluate hinputs houtputs, hslots⟩

end Runs

/-! ## A run on the executable suite -/

/-- Three handles point to valid values, and the key reads back from the string that is made of it. -/
theorem encoders_roundTrip_reference :
    ∃ (trace : List Event) (p : Process referenceSuite Replay),
      Run (Process.Step standardBase64 ⟨true, true⟩) freshProcess trace p ∧
      ledger trace = [(.secretKey, 1), (.inputTable, 2), (.inputTable, 3)] ∧
      (∀ t q, (t, q) ∈ ledger trace → ∃ v : t.Value referenceSuite,
        p.shared.heap.get q = some ⟨t, v⟩ ∧ (⟨t, v⟩ : Boxed referenceSuite).Valid ⟨true, true⟩) ∧
      ∃ v : SecretKey, p.shared.heap.get 1 = some ⟨.secretKey, v⟩ ∧
        SecretKey.fromBytes referenceSuite (v.toBytes referenceSuite).toList = .ok v ∧
        ∀ thread fuel, ∃ a s c,
          ((Call.poprfSecretKeyEncodeBase64 1).run standardBase64 ⟨true, true⟩ fuel).run
            (p.view thread) = some (.ptr a, s) ∧ s.heap.get a = some ⟨.cChar, c⟩ ∧
          Reads standardBase64 (SecretKey.fromBytes referenceSuite) (.points c.bytes) v := by
  obtain ⟨trace, p, hrun, -, hledger, -⟩ := exists_run_reference
  obtain ⟨hvalid, hencoders⟩ := encoders_roundTrip standardBase64_lawful rfl hrun
  refine ⟨trace, p, hrun, hledger, hvalid, hencoders .secretKey 1 ?_⟩
  rw [hledger]
  exact List.mem_cons_self

/-- The two tables that a thread evaluates are evaluated as the inputs that the threads have hashed. -/
theorem poprfEvaluateTables_agrees_reference :
    ∃ (trace : List Event) (p : Process referenceSuite Replay) (s : State referenceSuite Replay),
      Run (Process.Step standardBase64 ⟨true, true⟩) freshProcess trace p ∧
      ((Call.poprfEvaluateTables 1 10 2 (.points [1]) 20).run standardBase64 ⟨true, true⟩ 0).run
        (p.view 1) = some (.int 0, s) ∧
      ∃ skS infoBytes tables inputs outputs, PointsAt p.shared .secretKey 1 skS ∧
        ArrayPointsAt p.shared .inputTable 10 2 tables ∧ bytesFromRaw (.points [1]) = some infoBytes ∧
        TablesOf trace p.shared.memory 10 2 inputs ∧
        List.Forall₂ (fun input tb => PoprfInputTable.new referenceSuite ⟨true, true⟩ input = .ok tb)
          inputs tables ∧
        List.Forall₂ (fun input out =>
          (PoprfServer.new skS).evaluate referenceSuite input infoBytes = .ok out) inputs outputs ∧
        List.Forall₂ (fun handle out => handle.1 = .output ∧
          s.heap.get handle.2 = some ⟨.output, out⟩) (slots s.memory .output 20 2) outputs := by
  obtain ⟨trace, p, hrun, -, -, -, -, s, hcall⟩ := exists_run_reference
  exact ⟨trace, p, s, hrun, hcall, (poprfEvaluateTables_agrees rfl hrun hcall).2.1 rfl⟩

end PoprfRistretto.Ffi
