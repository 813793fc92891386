import PoprfRistretto.Ffi.Calls
import PoprfRistretto.Library.PartialState
import PoprfRistretto.Library.Run
import PoprfRistretto.ReferenceSuite

/-!
# The last error over runs of calls

Each function that can fail clears the last error on entry, sets it on the paths that report failure
and on no other. Over a run of calls the message is therefore there exactly when the most recent call
that can fail has failed.
-/

namespace PoprfRistretto.Ffi

open Memory PartialState

variable {G : Type} [AddCommGroup G] [Module Scalar G] {S : Suite G} {R α β : Type}

/-! ## Computations that leave the last error alone -/

/-- The computation does not touch the last error. -/
def KeepsLastError (x : CAbi S R α) : Prop := ∀ s, Post x s fun _ s' => s'.lastError = s.lastError

theorem keeps_pure (a : α) : KeepsLastError (pure a : CAbi S R α) := fun _ => post_pure rfl

/-- A computation keeps the last error when its parts do. -/
theorem keeps_bind {x : CAbi S R α} {f : α → CAbi S R β} (hx : KeepsLastError x)
    (hf : ∀ a, KeepsLastError (f a)) : KeepsLastError (x >>= f) := by
  intro s
  refine post_bind ((hx s).mono fun a t ht => ?_)
  exact (hf a t).mono fun b s' hs' => hs'.trans ht

theorem keeps_forM {ι : Type} {f : ι → CAbi S R PUnit} (hf : ∀ i, KeepsLastError (f i))
    (is : List ι) : KeepsLastError (forM is f) := by
  intro s
  have hstep : ∀ (done : List ι) (i : ι) (t : State S R), t.lastError = s.lastError →
      Post (f i) t fun _ t' => t'.lastError = s.lastError := fun _ i t ht =>
    (hf i t).mono fun _ _ ht' => ht'.trans ht
  exact post_forM (fun _ (s' : State S R) => s'.lastError = s.lastError) hstep is rfl

theorem keeps_mapM {ι : Type} {f : ι → CAbi S R α} (hf : ∀ i, KeepsLastError (f i)) (is : List ι) :
    KeepsLastError (is.mapM f) := by
  induction is with
  | nil => exact keeps_pure []
  | cons i is ih =>
    rw [List.mapM_cons]
    exact keeps_bind (hf i) fun a => keeps_bind ih fun as => keeps_pure (a :: as)

/-- Handing out a value reports nothing. -/
theorem keeps_intoRaw (t : HandleType) (v : t.Value S) :
    KeepsLastError (intoRaw t v : CAbi S R Ptr) := by
  intro s a s' hrun
  cases hrun
  rfl

theorem keeps_dropRaw (t : HandleType) (p : Ptr) : KeepsLastError (dropRaw t p : CAbi S R Unit) := by
  intro s a s' hrun
  obtain ⟨-, rfl⟩ := run_dropRaw_eq_some_iff.mp hrun
  rfl

theorem keeps_deref (t : HandleType) (p : Ptr) : KeepsLastError (deref t p : CAbi S R (t.Value S)) := by
  intro s a s' hrun
  obtain ⟨-, rfl⟩ := run_deref_eq_some_iff.mp hrun
  rfl

theorem keeps_pointersFromRaw (arr : Ptr) (n : ℕ) :
    KeepsLastError (pointersFromRaw arr n : CAbi S R (List Ptr)) := by
  refine keeps_mapM (fun i => ?_) _
  intro s a s' hrun
  obtain ⟨-, rfl⟩ := run_readPointer_eq_some_iff.mp hrun
  rfl

theorem keeps_writePointer (cell p : Ptr) :
    KeepsLastError (writePointer cell p : CAbi S R Unit) := by
  intro s a s' hrun
  obtain ⟨-, rfl⟩ := run_writePointer_eq_some_iff.mp hrun
  rfl

theorem keeps_withOsRng (f : R → Option (α × R)) : KeepsLastError (withOsRng f : CAbi S R α) := by
  intro s a s' hrun
  obtain ⟨_, -, rfl⟩ := run_withOsRng_eq_some_iff.mp hrun
  rfl

/-- A destructor keeps the last error. -/
theorem keeps_destroy (t : HandleType) (p : Ptr) : KeepsLastError (destroy t p : CAbi S R Unit) := by
  rw [destroy]
  split
  · exact keeps_dropRaw t p
  · exact keeps_pure ()

/-! ## Computations that report their failure -/

/-- Entered without an error, the computation leaves one exactly when its result is a failure. -/
def Reports (failed : α → Prop) (x : CAbi S R α) : Prop :=
  ∀ s, s.lastError = none → Post x s fun a s' => s'.lastError.isSome ↔ failed a

/-- However it is entered, the computation leaves an error exactly when its result is a failure. -/
def Tracks (failed : α → Prop) (x : CAbi S R α) : Prop :=
  ∀ s, Post x s fun a s' => s'.lastError.isSome ↔ failed a

section Reports

variable {failed : β → Prop}

/-- A result that is no failure is reported by saying nothing. -/
theorem reports_pure {b : β} (h : ¬failed b) : Reports failed (pure b : CAbi S R β) := by
  intro s hs
  refine post_pure ?_
  rw [hs]
  simpa using h

/-- A failure is reported together with its message. -/
theorem reports_failWith {ret : β} (msg : String) (h : failed ret) :
    Reports failed (failWith msg ret : CAbi S R β) := by
  intro s _
  refine post_bind (post_modify (post_pure ?_))
  simpa using h

/-- What comes before the last step must not report. -/
theorem reports_bind {x : CAbi S R α} {f : α → CAbi S R β} (hx : KeepsLastError x)
    (hf : ∀ a, Reports failed (f a)) : Reports failed (x >>= f) := by
  intro s hs
  exact post_bind ((hx s).mono fun a t ht => hf a t (ht.trans hs))

/-- A step that reports its failure, followed by a continuation that returns a failure as well. -/
theorem reports_bind_of_reports {failed' : α → Prop} {x : CAbi S R α} {f : α → CAbi S R β}
    (hx : Reports failed' x) (hok : ∀ a, ¬failed' a → Reports failed (f a))
    (hfail : ∀ a, failed' a → ∃ ret, f a = pure ret ∧ failed ret) : Reports failed (x >>= f) := by
  intro s hs
  refine post_bind ((hx s hs).mono fun a t ht => ?_)
  by_cases ha : failed' a
  · obtain ⟨ret, hret, hfailed⟩ := hfail a ha
    rw [hret]
    exact post_pure (iff_of_true (ht.mpr ha) hfailed)
  · exact hok a ha t (by simpa using mt ht.mp ha)

/-- A handle is never NULL, so that handing it out is no failure. -/
theorem reports_intoRaw (t : HandleType) (v : t.Value S) :
    Reports (· = NULL) (intoRaw t v : CAbi S R Ptr) := by
  intro s hs a s' hrun
  cases hrun
  have hnone : ¬s.lastError.isSome := by rw [hs]; decide
  exact iff_of_false hnone s.heap.next_ne_zero

/-- An encoder's result is handed out, or the NUL in it is reported. -/
theorem reports_cstringOrNull (base64 : Base64) (buf : Bytes) :
    Reports (· = NULL) (cstringOrNull base64 buf : CAbi S R Ptr) := by
  rw [cstringOrNull]
  split
  · exact reports_intoRaw _ _
  · exact reports_failWith _ rfl

/-- The loop over the blinded elements reports a null pointer at any index. -/
theorem reports_cloneBlindeds (i : ℕ) (ptrs : List Ptr) :
    Reports (· = none) (cloneBlindeds i ptrs : CAbi S R (Option (List (BlindedElement G)))) := by
  induction ptrs generalizing i with
  | nil =>
    exact reports_pure (Option.some_ne_none _)
  | cons p ptrs ih =>
    rw [cloneBlindeds]
    split
    · exact reports_failWith _ rfl
    · refine reports_bind (keeps_deref _ _) fun b => ?_
      refine reports_bind_of_reports (ih (i + 1)) (fun bs hbs => reports_pure ?_) fun bs hbs => ?_
      · simpa using hbs
      · exact ⟨none, by rw [hbs]; rfl, rfl⟩

/-- A function that clears the last error on entry tracks its failures. -/
theorem tracks_clearError {x : CAbi S R β} (hx : Reports failed x) :
    Tracks failed (clearError >>= fun _ => x) := by
  intro s
  exact post_bind (post_modify (hx _ rfl))

end Reports

/-! ## The functions that can fail -/

section Functions

variable (base64 : Base64)

/-- The encoders track their errors. -/
theorem tracks_encodeBase64 (t : HandleType) (nullMsg : String) (toBytes : t.Value S → Bytes)
    (p : Ptr) : Tracks (· = NULL) (encodeBase64 base64 t nullMsg toBytes p : CAbi S R Ptr) := by
  refine tracks_clearError ?_
  split
  · exact reports_failWith _ rfl
  · exact reports_bind (keeps_deref t p) fun v => reports_cstringOrNull base64 (toBytes v)

/-- The decoders track their errors. -/
theorem tracks_decodeBase64 (t : HandleType) (name : String)
    (fromBytes : Bytes → Except Error (t.Value S)) (s : RawSlice) :
    Tracks (· = NULL) (decodeBase64 base64 t name fromBytes s : CAbi S R Ptr) := by
  refine tracks_clearError ?_
  split
  · split
    · exact reports_failWith _ rfl
    · split
      · exact reports_intoRaw _ _
      · exact reports_failWith _ rfl
  · exact reports_failWith _ rfl

theorem tracks_poprfSecretKeyFromSeed (seed info : RawSlice) :
    Tracks (· = NULL) (poprfSecretKeyFromSeed seed info : CAbi S R Ptr) := by
  refine tracks_clearError ?_
  split
  · split
    · split
      · exact reports_intoRaw _ _
      · exact reports_failWith _ rfl
    · exact reports_failWith _ rfl
  · exact reports_failWith _ rfl

theorem tracks_poprfPublicKeyFromSecret (sk : Ptr) :
    Tracks (· = NULL) (poprfPublicKeyFromSecret sk : CAbi S R Ptr) := by
  refine tracks_clearError ?_
  split
  · exact reports_failWith _ rfl
  · exact reports_bind (keeps_deref _ _) fun sk => reports_intoRaw _ _

/-- The batch evaluation tracks its errors, those of the loop that clones included. -/
theorem tracks_poprfBlindEvaluateBatch [DecidableEq G] (F : Features) [Rng R] (fuel : ℕ)
    (sk blindedArr : Ptr) (n : ℕ) (info : RawSlice) (outEvaluated outProof : Ptr) :
    Tracks (· ≠ 0) (poprfBlindEvaluateBatch F fuel sk blindedArr n info outEvaluated outProof :
      CAbi S R ℤ) := by
  have hcode : (-1 : ℤ) ≠ 0 := by decide
  refine tracks_clearError ?_
  split
  · exact reports_failWith _ hcode
  split
  · exact reports_failWith _ hcode
  split
  · refine reports_bind (keeps_pointersFromRaw _ _) fun ptrs => ?_
    refine reports_bind_of_reports (reports_cloneBlindeds 0 ptrs) (fun blindeds hsome => ?_)
      fun blindeds hnone => ?_
    · -- the loop that clones has reported nothing
      obtain ⟨blindeds, rfl⟩ := Option.ne_none_iff_exists'.mp hsome
      refine reports_bind (keeps_deref _ _) fun sk => reports_bind (keeps_withOsRng _) fun res => ?_
      split
      · exact reports_failWith _ hcode
      · split
        · exact reports_failWith _ hcode
        · refine reports_bind (keeps_pointersFromRaw _ _) fun _ => ?_
          refine reports_bind (keeps_forM (fun _ => ?_) _) fun _ => ?_
          · exact keeps_bind (keeps_intoRaw _ _) fun p => keeps_writePointer _ p
          · refine reports_bind (keeps_intoRaw _ _) fun p => ?_
            exact reports_bind (keeps_writePointer _ p) fun _ => reports_pure (not_not.mpr rfl)
    · -- the loop has reported a NULL, and the call returns its code
      exact ⟨-1, by rw [hnone], hcode⟩
  · exact reports_failWith _ hcode

theorem tracks_poprfEvaluate [DecidableEq G] (sk : Ptr) (input info : RawSlice) :
    Tracks (· = NULL) (poprfEvaluate sk input info : CAbi S R Ptr) := by
  refine tracks_clearError ?_
  split
  · exact reports_failWith _ rfl
  split
  · split
    · refine reports_bind (keeps_deref _ _) fun sk => ?_
      dsimp only
      split
      · exact reports_intoRaw _ _
      · exact reports_failWith _ rfl
    · exact reports_failWith _ rfl
  · exact reports_failWith _ rfl

theorem tracks_poprfInputTableNew [DecidableEq G] (F : Features) (input : RawSlice) :
    Tracks (· = NULL) (poprfInputTableNew F input : CAbi S R Ptr) := by
  refine tracks_clearError ?_
  split
  · split
    · exact reports_intoRaw _ _
    · exact reports_failWith _ rfl
  · exact reports_failWith _ rfl

theorem tracks_poprfEvaluateTables (sk tablesArr : Ptr) (n : ℕ) (info : RawSlice)
    (outOutputs : Ptr) :
    Tracks (· ≠ 0) (poprfEvaluateTables sk tablesArr n info outOutputs : CAbi S R ℤ) := by
  have hcode : (-1 : ℤ) ≠ 0 := by decide
  refine tracks_clearError ?_
  split
  · exact reports_failWith _ hcode
  split
  · exact reports_failWith _ hcode
  split
  · refine reports_bind (keeps_pointersFromRaw _ _) fun ptrs => ?_
    split
    · exact reports_failWith _ hcode
    · refine reports_bind (keeps_mapM (fun p => keeps_deref _ p) ptrs) fun tables => ?_
      refine reports_bind (keeps_deref _ _) fun sk => ?_
      dsimp only
      split
      · exact reports_failWith _ hcode
      · split
        · exact reports_failWith _ hcode
        · refine reports_bind (keeps_forM (fun _ => ?_) _) fun _ => reports_pure (not_not.mpr rfl)
          exact keeps_bind (keeps_intoRaw _ _) fun p => keeps_writePointer _ p
  · exact reports_failWith _ hcode

/-- The comparison answers with `0` or `1`, and fails with anything else. -/
theorem tracks_poprfOutputEqBase64 (o : Ptr) (expectedB64 : RawSlice) :
    Tracks (fun ret => ret ≠ 0 ∧ ret ≠ 1)
      (poprfOutputEqBase64 base64 o expectedB64 : CAbi S R ℤ) := by
  have hcode : (-1 : ℤ) ≠ 0 ∧ (-1 : ℤ) ≠ 1 := by decide
  refine tracks_clearError ?_
  split
  · exact reports_failWith _ hcode
  split
  · split
    · exact reports_failWith _ hcode
    · split
      · exact reports_failWith _ hcode
      · refine reports_bind (keeps_deref _ _) fun o => ?_
        split
        · exact reports_pure (by decide)
        · exact reports_pure (by decide)
  · exact reports_failWith _ hcode

end Functions

/-! ## Reading the message -/

/-- The message is a copy of the last error. -/
theorem run_poprfLastErrorMessage (s : State S R) :
    (poprfLastErrorMessage : CAbi S R Ptr).run s =
      match s.lastError with
      | some c => some (s.heap.next, { s with heap := (s.heap.alloc ⟨.cChar, c⟩).2 })
      | none => some (NULL, s) := by
  obtain ⟨shared, lastError⟩ := s
  cases lastError with
  | none => rfl
  | some c =>
    show (match CString.new c.bytes with
      | some c => intoRaw .cChar c
      | none => pure NULL : CAbi S R Ptr) _ = _
    rw [CString.new_bytes]
    rfl

/-- Asking for the last error keeps it. -/
theorem keeps_poprfLastErrorMessage : KeepsLastError (poprfLastErrorMessage : CAbi S R Ptr) := by
  intro s p s' hrun
  rw [run_poprfLastErrorMessage] at hrun
  split at hrun
  · cases hrun
    rfl
  · cases hrun
    rfl

/-! ## Calls -/

theorem tracks_map {failed : α → Prop} {failed' : β → Prop} {x : CAbi S R α} {f : α → β}
    (hx : Tracks failed x) (hf : ∀ a, failed' (f a) ↔ failed a) : Tracks failed' (f <$> x) := by
  intro s
  rw [map_eq_pure_bind]
  exact post_bind ((hx s).mono fun a t ht => post_pure (ht.trans (hf a).symm))

theorem keeps_map {x : CAbi S R α} (hx : KeepsLastError x) (f : α → β) : KeepsLastError (f <$> x) := by
  rw [map_eq_pure_bind]
  exact keeps_bind hx fun a => keeps_pure (f a)

section Calls

variable [DecidableEq G] [Rng R] (base64 : Base64) (F : Features) (fuel : ℕ)

/-- An operation leaves an error exactly when its result is a failure. -/
theorem tracks_run {call : Call} (h : call.isOperation) :
    Tracks call.Failed (call.run base64 F fuel : CAbi S R Ret) := by
  cases call with
  | poprfSecretKeyFromSeed seed info =>
    exact tracks_map (tracks_poprfSecretKeyFromSeed seed info) fun _ => Iff.rfl
  | poprfSecretKeyDecodeBase64 s =>
    exact tracks_map (tracks_decodeBase64 base64 _ _ _ s) fun _ => Iff.rfl
  | poprfSecretKeyEncodeBase64 sk =>
    exact tracks_map (tracks_encodeBase64 base64 _ _ _ sk) fun _ => Iff.rfl
  | poprfPublicKeyFromSecret sk =>
    exact tracks_map (tracks_poprfPublicKeyFromSecret sk) fun _ => Iff.rfl
  | poprfPublicKeyEncodeBase64 pk =>
    exact tracks_map (tracks_encodeBase64 base64 _ _ _ pk) fun _ => Iff.rfl
  | poprfBlindedElementDecodeBase64 s =>
    exact tracks_map (tracks_decodeBase64 base64 _ _ _ s) fun _ => Iff.rfl
  | poprfEvaluatedElementEncodeBase64 e =>
    exact tracks_map (tracks_encodeBase64 base64 _ _ _ e) fun _ => Iff.rfl
  | poprfProofEncodeBase64 p =>
    exact tracks_map (tracks_encodeBase64 base64 _ _ _ p) fun _ => Iff.rfl
  | poprfBlindEvaluateBatch sk blindedArr n info outEvaluated outProof =>
    exact tracks_map (tracks_poprfBlindEvaluateBatch F fuel sk blindedArr n info outEvaluated outProof)
      fun _ => Iff.rfl
  | poprfEvaluate sk input info =>
    exact tracks_map (tracks_poprfEvaluate sk input info) fun _ => Iff.rfl
  | poprfInputTableNew input => exact tracks_map (tracks_poprfInputTableNew F input) fun _ => Iff.rfl
  | poprfEvaluateTables sk tablesArr n info outOutputs =>
    exact tracks_map (tracks_poprfEvaluateTables sk tablesArr n info outOutputs) fun _ => Iff.rfl
  | poprfOutputEncodeBase64 o =>
    exact tracks_map (tracks_encodeBase64 base64 _ _ _ o) fun _ => Iff.rfl
  | poprfOutputEqBase64 o expectedB64 =>
    exact tracks_map (tracks_poprfOutputEqBase64 base64 o expectedB64) fun _ => Iff.rfl
  | _ => exact absurd h Bool.false_ne_true

/-- The other calls do not touch the last error. -/
theorem keeps_run {call : Call} (h : ¬call.isOperation) :
    KeepsLastError (call.run base64 F fuel : CAbi S R Ret) := by
  cases call with
  | poprfLastErrorMessage => exact keeps_map keeps_poprfLastErrorMessage _
  | poprfCCharDestroy s => exact keeps_map (keeps_destroy _ s) _
  | poprfSecretKeyDestroy sk => exact keeps_map (keeps_destroy _ sk) _
  | poprfPublicKeyDestroy pk => exact keeps_map (keeps_destroy _ pk) _
  | poprfBlindedElementDestroy b => exact keeps_map (keeps_destroy _ b) _
  | poprfEvaluatedElementDestroy e => exact keeps_map (keeps_destroy _ e) _
  | poprfProofDestroy p => exact keeps_map (keeps_destroy _ p) _
  | poprfInputTableDestroy t => exact keeps_map (keeps_destroy _ t) _
  | poprfOutputDestroy o => exact keeps_map (keeps_destroy _ o) _
  | _ => exact absurd rfl h

end Calls

/-! ## Runs -/

/-- The most recent operation of a run, with its result. -/
def lastReport (trace : List (Call × Ret)) : Option (Call × Ret) :=
  (trace.filter fun label => label.1.isOperation).getLast?

/-- An operation is the last report. -/
theorem lastReport_append_of_isOperation {trace : List (Call × Ret)} {label : Call × Ret}
    (h : label.1.isOperation) : lastReport (trace ++ [label]) = some label := by
  have hlabel : [label].filter (fun label => label.1.isOperation) = [label] := by simp [h]
  rw [lastReport, List.filter_append, hlabel, List.getLast?_concat]

/-- Other calls do not count. -/
theorem lastReport_append_of_not_isOperation {trace : List (Call × Ret)} {label : Call × Ret}
    (h : ¬label.1.isOperation) : lastReport (trace ++ [label]) = lastReport trace := by
  have hlabel : [label].filter (fun label => label.1.isOperation) = [] := by simpa using h
  rw [lastReport, List.filter_append, hlabel, List.append_nil, lastReport]

section Runs

variable [DecidableEq G] [Rng R] {base64 : Base64} {F : Features}

/-- The last error of a state, against the calls that led there. -/
def TellsLastReport (trace : List (Call × Ret)) (s : State S R) : Prop :=
  s.lastError.isSome ↔ ∃ report ∈ lastReport trace, report.1.Failed report.2

/-- A call keeps the last error in step with the last report. -/
theorem tellsLastReport_step {trace : List (Call × Ret)} {s s' : State S R} {label : Call × Ret}
    (h : TellsLastReport trace s) (hstep : Step base64 F s label s') :
    TellsLastReport (trace ++ [label]) s' := by
  obtain ⟨call, ret⟩ := label
  obtain ⟨shared, fuel, hrun⟩ := hstep
  rw [TellsLastReport]
  by_cases hop : call.isOperation
  · have hreport := tracks_run base64 F fuel hop _ _ _ hrun
    rw [lastReport_append_of_isOperation hop]
    simpa using hreport
  · have hkeep := keeps_run base64 F fuel hop _ _ _ hrun
    rw [lastReport_append_of_not_isOperation hop, hkeep]
    exact h

/-- A thread's last error is what its last operation reported, in every run. -/
theorem tellsLastReport_run {start s : State S R} {trace : List (Call × Ret)}
    (hstart : start.lastError = none) (h : Run (Step base64 F) start trace s) :
    TellsLastReport trace s := by
  refine h.history ?_ tellsLastReport_step
  rw [TellsLastReport, hstart]
  simp [lastReport]

/-- A reading returns NULL without an error, and else a copy of it at a new address. -/
theorem step_lastErrorMessage_iff {s s' : State S R} {ret : Ret} :
    Step base64 F s (.poprfLastErrorMessage, ret) s' ↔ ∃ shared : Shared S R,
      (s.lastError = none ∧ ret = .ptr NULL ∧ s' = { shared with lastError := s.lastError }) ∨
      ∃ c, s.lastError = some c ∧ ret = .ptr shared.heap.next ∧
        s' = { shared with heap := (shared.heap.alloc ⟨.cChar, c⟩).2, lastError := s.lastError } := by
  refine exists_congr fun shared => ?_
  have hrun : ∀ fuel, (Call.run base64 F fuel .poprfLastErrorMessage : CAbi S R Ret).run
      { shared with lastError := s.lastError } =
      ((poprfLastErrorMessage : CAbi S R Ptr).run { shared with lastError := s.lastError }).map
        fun p => (.ptr p.1, p.2) := fun _ => StateT.run_map ..
  simp only [hrun, run_poprfLastErrorMessage]
  cases s.lastError with
  | none => simp [eq_comm]
  | some c => simp [eq_comm]

/-- Over every run of calls on a thread, the message is there exactly when the most recent call that
is neither a destructor nor a reading of the message has reported failure. Reading it and freeing
handles change nothing about it. -/
theorem lastErrorMessage_tells {start s : State S R} {trace : List (Call × Ret)}
    (hstart : start.lastError = none) (h : Run (Step base64 F) start trace s) :
    (∃ p s', Step base64 F s (.poprfLastErrorMessage, .ptr p) s') ∧
    (∀ ret s', Step base64 F s (.poprfLastErrorMessage, ret) s' → ∃ p, ret = .ptr p ∧
      (p ≠ NULL ↔ ∃ report ∈ lastReport trace, report.1.Failed report.2) ∧
      (p ≠ NULL → ∃ c, s.lastError = some c ∧ s'.heap.get p = some ⟨.cChar, c⟩)) ∧
    ∀ call ret s', Step base64 F s (call, ret) s' → call.isDestructor ∨ call.isLastErrorMessage →
      s'.lastError = s.lastError := by
  -- the message is there exactly when the last operation has failed
  have htells : s.lastError.isSome ↔ ∃ report ∈ lastReport trace, report.1.Failed report.2 :=
    tellsLastReport_run hstart h
  refine ⟨?_, fun ret s' hstep => ?_, fun call ret s' hstep hcall => ?_⟩
  · cases hlast : s.lastError with
    | none => exact ⟨_, _, step_lastErrorMessage_iff.mpr ⟨s.toShared, Or.inl ⟨hlast, rfl, rfl⟩⟩⟩
    | some c => exact ⟨_, _, step_lastErrorMessage_iff.mpr ⟨s.toShared, Or.inr ⟨c, hlast, rfl, rfl⟩⟩⟩
  · rw [← htells]
    obtain ⟨shared, ⟨hlast, rfl, rfl⟩ | ⟨c, hlast, rfl, rfl⟩⟩ := step_lastErrorMessage_iff.mp hstep
    · exact ⟨NULL, rfl, by simp [hlast], fun hp => absurd rfl hp⟩
    · refine ⟨shared.heap.next, rfl, iff_of_true shared.heap.next_ne_zero ?_, fun _ => ⟨c, hlast, ?_⟩⟩
      · rw [hlast]
        rfl
      · exact shared.heap.get_alloc_next _
  · obtain ⟨shared, fuel, hrun⟩ := hstep
    have hop : ¬call.isOperation := by
      rw [Call.isOperation]
      rcases hcall with hcall | hcall
      · simp [hcall]
      · simp [hcall]
    have hkeep := keeps_run base64 F fuel hop _ _ _ hrun
    exact hkeep

/-- An engine that answers as the crate does on the text `"!"`. -/
def rejectingEngine : Base64 where
  encode _ := ""
  decode _ := .error "Invalid symbol 33, offset 0."

/-- A failed decoding is told after a destructor has been called. -/
theorem lastErrorMessage_tells_reference :
    let shared : Shared referenceSuite Replay := ⟨Heap.empty, fun _ => none, ⟨[]⟩⟩
    ∃ s, Run (Step rejectingEngine ⟨true, true⟩) { shared with lastError := none }
        [(.poprfSecretKeyDecodeBase64 (.points [33]), .ptr NULL), (.poprfSecretKeyDestroy NULL, .void)] s ∧
      ∀ ret s', Step rejectingEngine ⟨true, true⟩ s (.poprfLastErrorMessage, ret) s' →
        ∃ p, ret = .ptr p ∧ p ≠ NULL := by
  intro shared
  let decode : Call × Ret := (.poprfSecretKeyDecodeBase64 (.points [33]), .ptr NULL)
  let destroy : Call × Ret := (.poprfSecretKeyDestroy NULL, .void)
  have hrun : ∃ s, Run (Step rejectingEngine ⟨true, true⟩) { shared with lastError := none }
      ([] ++ [decode] ++ [destroy]) s :=
    ⟨_, .snoc (.snoc .refl ⟨shared, 0, rfl⟩) ⟨shared, 0, rfl⟩⟩
  obtain ⟨s, hrun⟩ := hrun
  refine ⟨s, hrun, fun ret s' hstep => ?_⟩
  obtain ⟨p, hret, hp, -⟩ := (lastErrorMessage_tells rfl hrun).2.1 ret s' hstep
  exact ⟨p, hret, hp.mpr ⟨decode, rfl, rfl⟩⟩

end Runs

end PoprfRistretto.Ffi
