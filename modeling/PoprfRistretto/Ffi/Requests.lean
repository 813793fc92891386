import PoprfRistretto.Ffi.Values

/-!
# Handles and strings along a run

What the caller can tell of a string from what happened so far: a string that it had made of a handle is
the text of the value, and a comparison tells the text of an output. Handles and strings can be had from
any state.
-/

namespace PoprfRistretto.Ffi

open Memory PartialState Utf8 ExceptLoop

variable {G : Type} [AddCommGroup G] [Module Scalar G] {S : Suite G} {R : Type}

/-! ## Strings of a run -/

/-- The caller has had a string made of a handle that it holds, and has not given the string back
since. -/
def Written (trace : List Event) (encode : Ptr → Call) (handle : Handle) (c : Ptr) : Prop :=
  ∃ before thread ret memory after,
    trace = before ++ .returns thread (encode handle.2) ret memory :: after ∧
    (.cChar, c) ∈ (encode handle.2).received memory ret ∧
    (∀ event ∈ before, ¬event.Releases handle) ∧ ∀ event ∈ after, ¬event.Releases (.cChar, c)

/-- The pointer is a string, the Base64 text of the bytes. -/
def IsText (base64 : Base64) (heap : Heap (Boxed S)) (c : Ptr) (bytes : Bytes) : Prop :=
  ∃ s : CString, heap.get c = some ⟨.cChar, s⟩ ∧ s.bytes = utf8Bytes (base64.encode bytes)

variable [DecidableEq G] [Rng R] {base64 : Base64} {F : Features}

section Strings

variable {p p' : Process S R} {trace : List Event}

/-- A string that the caller has had made of a handle is the text of its value. -/
theorem isText_of_written {t : HandleType} {encode : Ptr → Call} {toBytes : t.Value S → Bytes}
    {fromBytes : Bytes → Except Error (t.Value S)} (hencoder : Encoder S t encode toBytes fromBytes)
    (h : Run (Process.Step base64 F) p trace p') {q : Ptr} {v : t.Value S}
    (hv : p.shared.heap.get q = some ⟨t, v⟩) {c : Ptr} (hwritten : Written trace encode (t, q) c) :
    IsText base64 p'.shared.heap c (toBytes v) := by
  obtain ⟨before, thread, ret, memory, after, rfl, hmem, hbefore, hkept⟩ := hwritten
  obtain ⟨p₀, p₁, hrun, hstep, hafter⟩ := run_append_cons_iff.mp h
  have hv₀ := value_run hrun hv hbefore
  obtain ⟨fuel, new, s, hnew, hb, hs⟩ := hstep.value_of_received (hencoder.isOperation q) hmem
  obtain ⟨v', c', hv', hbytes, rfl⟩ := hencoder.computes_iff.mp hnew
  obtain rfl := value_unique hv₀ hv'.2
  obtain rfl : s = c' := by
    have hbox := List.mem_singleton.mp hb
    cases hbox
    rfl
  exact ⟨s, value_run hafter hs hkept, hbytes⟩

/-- Strings that are made of handles are the texts of their values. -/
theorem forall₂_isText {t : HandleType} {encode : Ptr → Call} {toBytes : t.Value S → Bytes}
    {fromBytes : Bytes → Except Error (t.Value S)} (hencoder : Encoder S t encode toBytes fromBytes)
    (h : Run (Process.Step base64 F) p trace p') {handles : List Handle} {values : List (t.Value S)}
    (hvalues : List.Forall₂ (fun handle v => handle.1 = t ∧
      p.shared.heap.get handle.2 = some ⟨t, v⟩) handles values)
    {cs : List Ptr} (hwritten : List.Forall₂ (Written trace encode) handles cs) :
    List.Forall₂ (IsText base64 p'.shared.heap) cs (values.map toBytes) := by
  rw [List.forall₂_map_right_iff]
  refine (forall₂_exists_iff.mpr ⟨handles, hwritten.flip, hvalues⟩).imp fun c v hc => ?_
  obtain ⟨⟨t', q⟩, hwritten, htype, hv⟩ := hc
  obtain rfl : t' = t := htype
  exact isText_of_written hencoder h hv hwritten

end Strings

/-! ## Comparing -/

/-- The text is the Base64 text of the output. -/
def IsTextOf (base64 : Base64) (text : RawSlice) (out : PoprfOutput) : Prop :=
  bytesFromRaw text = some (utf8Bytes (base64.encode out.asBytes.toList))

/-- What the result of a comparison with an output tells of the text. -/
structure Compares (base64 : Base64) (text : RawSlice) (out : PoprfOutput) (code : ℤ) : Prop where
  equal : code = 1 ↔ IsTextOf base64 text out
  different : code = 0 ↔ ∃ other ≠ out, IsTextOf base64 text other
  codes : code = 1 ∨ code = 0 ∨ code = -1

section Comparing

variable {text : RawSlice} {out other : PoprfOutput}

/-- A text of an output compares by the output. -/
theorem compares_of_isTextOf (hbase64 : base64.Lawful) (h : IsTextOf base64 text other) :
    Compares base64 text out (if out = other then 1 else 0) := by
  have hunique : ∀ {o : PoprfOutput}, IsTextOf base64 text o → o = other := by
    intro o ho
    have hdecode := hbase64.decode_encode o.asBytes.toList
    rw [Option.some.inj (ho.symm.trans h), hbase64.decode_encode] at hdecode
    exact congrArg PoprfOutput.mk (List.Vector.eq _ _ (Except.ok.inj hdecode).symm)
  by_cases heq : out = other
  · rw [if_pos heq]
    refine ⟨iff_of_true rfl (heq ▸ h), iff_of_false (by decide) ?_, .inl rfl⟩
    rintro ⟨o, hne, ho⟩
    exact hne ((hunique ho).trans heq.symm)
  · rw [if_neg heq]
    exact ⟨iff_of_false (by decide) fun hout => heq (hunique hout),
      iff_of_true rfl ⟨other, Ne.symm heq, h⟩, .inr (.inl rfl)⟩

/-- A text of no output is an error. -/
theorem compares_of_not_isTextOf (h : ∀ o, ¬IsTextOf base64 text o) :
    Compares base64 text out (-1) := by
  refine ⟨iff_of_false (by decide) (h out), iff_of_false (by decide) ?_, .inr (.inr rfl)⟩
  rintro ⟨o, -, ho⟩
  exact h o ho

omit [DecidableEq G] [Rng R] in
/-- A comparison tells the text of the output from the texts of other outputs, and those from any other
text. -/
theorem post_poprfOutputEqBase64 (hbase64 : base64.Lawful) {s : State S R} {o : Ptr}
    (ho : PointsAt s.toShared .output o out) (text : RawSlice) :
    Post (poprfOutputEqBase64 base64 o text) s fun code _ => Compares base64 text out code := by
  refine post_bind (post_modify ?_)
  rw [if_neg ho.1]
  split
  · rename_i t ht
    split
    · rename_i e hdecode
      refine post_bind (post_modify (post_pure (compares_of_not_isTextOf fun other hother => ?_)))
      obtain rfl := Option.some.inj (ht.symm.trans hother)
      rw [hbase64.decode_encode] at hdecode
      cases hdecode
    · rename_i bytes hdecode
      -- what is decoded is the encoding of the bytes, and of nothing else
      have htext := hbase64.encode_of_decode t bytes hdecode
      split
      · rename_i e hparse
        refine post_bind (post_modify (post_pure (compares_of_not_isTextOf fun other hother => ?_)))
        obtain rfl := Option.some.inj (ht.symm.trans hother)
        obtain rfl := Except.ok.inj ((hbase64.decode_encode _).symm.trans hdecode)
        rw [PoprfOutput.fromBytes_eq_ok_iff.mpr rfl] at hparse
        cases hparse
      · rename_i other hparse
        refine post_bind ((post_deref _ _ o).mono fun v u hv => ?_)
        obtain ⟨-, hv⟩ := hv
        obtain rfl := value_unique ho.2 hv
        refine post_pure (compares_of_isTextOf hbase64 ?_)
        unfold IsTextOf
        rw [ht, PoprfOutput.fromBytes_eq_ok_iff.mp hparse, htext]
  · rename_i hnone
    exact post_bind (post_modify (post_pure (compares_of_not_isTextOf fun other hother =>
      hnone _ hother)))

end Comparing

/-! ## Making a run -/

/-- No handle is given back in the run. -/
def Keeps (trace : List Event) : Prop := ∀ event ∈ trace, ∀ handle, ¬event.Releases handle

/-- Events that destroy nothing, one after the other. -/
theorem Keeps.append {trace trace' : List Event} (h : Keeps trace) (h' : Keeps trace') :
    Keeps (trace ++ trace') := fun event hevent => (List.mem_append.mp hevent).elim (h event) (h' event)

/-- A call that is not a destructor gives nothing back. -/
theorem keeps_singleton {thread : ℕ} {call : Call} (h : call.released = none) (ret : Ret)
    (memory : CallerMemory) : Keeps [.returns thread call ret memory] := by
  refine List.forall_mem_singleton.mpr fun handle hreleased => ?_
  exact Option.some_ne_none handle (hreleased.symm.trans h)

/-- A handle stays issued while nothing is destroyed. -/
theorem Issued.append {trace trace' : List Event} {call : Call} {handle : Handle}
    (h : Issued trace call handle) (hkeeps : Keeps trace') : Issued (trace ++ trace') call handle := by
  obtain ⟨before, thread, ret, memory, after, rfl, hmem, hkept⟩ := h
  refine ⟨before, thread, ret, memory, after ++ trace', by simp, hmem, ?_⟩
  exact List.forall_mem_append.mpr ⟨hkept, fun event hevent => hkeeps event hevent handle⟩

/-- Earlier events do not matter. -/
theorem Issued.append_left {trace : List Event} {call : Call} {handle : Handle}
    (h : Issued trace call handle) (before : List Event) : Issued (before ++ trace) call handle := by
  obtain ⟨before', thread, ret, memory, after, rfl, hmem, hkept⟩ := h
  exact ⟨before ++ before', thread, ret, memory, after, by simp, hmem, hkept⟩

/-- A string stays written while nothing is destroyed. -/
theorem Written.append {trace trace' : List Event} {encode : Ptr → Call} {handle : Handle} {c : Ptr}
    (h : Written trace encode handle c) (hkeeps : Keeps trace') :
    Written (trace ++ trace') encode handle c := by
  obtain ⟨before, thread, ret, memory, after, rfl, hmem, hbefore, hkept⟩ := h
  refine ⟨before, thread, ret, memory, after ++ trace', by simp, hmem, hbefore, ?_⟩
  exact List.forall_mem_append.mpr ⟨hkept, fun event hevent => hkeeps event hevent _⟩

/-- Earlier events that destroy nothing do not matter. -/
theorem Written.append_left {trace trace' : List Event} {encode : Ptr → Call} {handle : Handle}
    {c : Ptr} (h : Written trace' encode handle c) (hkeeps : Keeps trace) :
    Written (trace ++ trace') encode handle c := by
  obtain ⟨before, thread, ret, memory, after, rfl, hmem, hbefore, hkept⟩ := h
  refine ⟨trace ++ before, thread, ret, memory, after, by simp, hmem, ?_, hkept⟩
  exact List.forall_mem_append.mpr ⟨fun event hevent => hkeeps event hevent handle, hbefore⟩

section Runs

variable {p : Process S R}

/-- A call that computes a value of type `t` can be made, and hands out a handle of that type. -/
theorem exists_step_of_computes {thread fuel : ℕ} {call : Call} (hop : call.isOperation)
    (hapart : call.SlotsApart) (hdefined : Defined (call.run base64 F fuel) (p.view thread))
    {new : List (Boxed S)}
    (hnew : call.Computes base64 F fuel p.shared new) {t : HandleType}
    (htype : ∀ new, call.Computes base64 F fuel p.shared new → ∃ v : t.Value S, new = [⟨t, v⟩]) :
    ∃ ret memory p' q, Process.Step base64 F p (.returns thread call ret memory) p' ∧
      (t, q) ∈ call.received memory ret := by
  obtain ⟨ret, s, hrun⟩ := hdefined
  rcases received_of_run hop hrun with ⟨-, hnone⟩ | ⟨-, new', hnew', hreceived⟩
  · exact absurd hnew (hnone new)
  · obtain ⟨v, rfl⟩ := htype new' hnew'
    obtain ⟨⟨t', q⟩, rest, ⟨ht, -⟩, -, hhandle⟩ := List.forall₂_cons_right_iff.mp
      (hreceived hapart)
    obtain rfl : t' = t := ht
    refine ⟨ret, s.memory, _, q, .returns hapart hrun, ?_⟩
    rw [hhandle]
    exact List.mem_cons_self

/-- The texts of blinded elements can be decoded. -/
theorem exists_decoded {texts : List Bytes} {blindeds : List (BlindedElement G)}
    (h : List.Forall₂ (fun text b => Reads base64 (BlindedElement.fromBytes S) (.points text) b) texts
      blindeds) (p : Process S R) :
    ∃ trace p' ptrs, Run (Process.Step base64 F) p trace p' ∧ Keeps trace ∧
      List.Forall₂ (fun q text =>
        Issued trace (.poprfBlindedElementDecodeBase64 (.points text)) (.blindedElement, q)) ptrs
        texts := by
  induction h generalizing p with
  | nil => exact ⟨[], p, [], .refl, fun _ h => absurd h List.not_mem_nil, .nil⟩
  | @cons text b texts _ hread _ ih =>
    have hdefined : Defined ((Call.poprfBlindedElementDecodeBase64 (.points text)).run base64 F 0)
        (p.view 0) := defined_map (defined_decodeBase64 base64 _ _ _ _) _
    have hapart : (Call.poprfBlindedElementDecodeBase64 (.points text)).SlotsApart := trivial
    obtain ⟨ret, memory, p₁, q, hstep, hmem⟩ := exists_step_of_computes (t := .blindedElement) rfl
      hapart hdefined ⟨b, hread, rfl⟩ fun new ⟨b', _, hnew⟩ => ⟨b', hnew⟩
    obtain ⟨trace, p', ptrs, hrun, hkeeps, hissued⟩ := ih p₁
    have hfirst : Keeps [.returns 0 (.poprfBlindedElementDecodeBase64 (.points text)) ret memory] :=
      keeps_singleton rfl ret memory
    refine ⟨_, p', q :: ptrs, run_cons hstep hrun, hfirst.append hkeeps, .cons ?_ ?_⟩
    · exact ⟨[], 0, ret, memory, trace, rfl, hmem, fun event hevent => hkeeps event hevent _⟩
    · exact hissued.imp fun q text hq => hq.append_left [_]

/-- Strings can be made of handles. -/
theorem exists_written (hbase64 : base64.Lawful) {t : HandleType} {encode : Ptr → Call}
    {toBytes : t.Value S → Bytes} {fromBytes : Bytes → Except Error (t.Value S)}
    (hencoder : Encoder S t encode toBytes fromBytes) (handles : List Handle) (p : Process S R)
    (h : ∀ handle ∈ handles, handle.1 = t ∧ ∃ v, PointsAt p.shared t handle.2 v) :
    ∃ trace p' cs, Run (Process.Step base64 F) p trace p' ∧ Keeps trace ∧
      List.Forall₂ (Written trace encode) handles cs := by
  induction handles generalizing p with
  | nil => exact ⟨[], p, [], .refl, fun _ h => absurd h List.not_mem_nil, .nil⟩
  | cons handle handles ih =>
    rw [List.forall_mem_cons] at h
    obtain ⟨⟨htype, v, hv⟩, hrest⟩ := h
    -- the encoder is called on the first handle, and then on those that are left
    have hdefined : Defined ((encode handle.2).run base64 F 0) (p.view 0) :=
      hencoder.defined_run (.inr ⟨v, hv.2⟩)
    have hop := hencoder.isOperation handle.2
    let s : CString := ⟨_, hbase64.zero_not_mem_encode (toBytes v)⟩
    have hnew : (encode handle.2).Computes base64 F 0 p.shared [⟨.cChar, s⟩] :=
      hencoder.computes_iff.mpr ⟨v, s, hv, rfl, rfl⟩
    obtain ⟨ret, memory, p₁, c, hstep, hmem⟩ := exists_step_of_computes (t := .cChar) hop
      (hencoder.slotsApart _) hdefined hnew fun new hnew => by
        obtain ⟨_, c, -, -, hc⟩ := hencoder.computes_iff.mp hnew
        exact ⟨c, hc⟩
    have hfirst : Keeps [.returns 0 (encode handle.2) ret memory] :=
      keeps_singleton (Call.released_of_isOperation hop) ret memory
    obtain ⟨trace, p', cs, hrun, hkeeps, hwritten⟩ := ih p₁ fun handle hhandle => by
      -- an encoder gives no handle back
      obtain ⟨htype, w, hne, hw⟩ := hrest handle hhandle
      exact ⟨htype, w, hne, hstep.value hw (hfirst _ (List.mem_singleton_self _) _)⟩
    refine ⟨_, p', c :: cs, run_cons hstep hrun, hfirst.append hkeeps, .cons ?_ ?_⟩
    · exact ⟨[], 0, ret, memory, trace, rfl, hmem, fun _ h => absurd h List.not_mem_nil,
        fun event hevent => hkeeps event hevent _⟩
    · exact hwritten.imp fun handle c hc => hc.append_left hfirst

end Runs

end PoprfRistretto.Ffi
