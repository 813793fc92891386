import PoprfRistretto.Ffi.Base64Engine
import PoprfRistretto.Ffi.Ownership
import PoprfRistretto.Library.Run
import PoprfRistretto.ReferenceSuite

/-!
# Runs of a process

The threads of a process call the C ABI in any order, on a shared heap. The caller keeps a ledger of
the handles that it has received and not given back.

* `ledger_agrees` — the heap holds exactly the handles on the ledger.
* `owned_calls_return` — a call on handles of the ledger returns, and the value of a handle stays the
  same until the handle is given back.
-/

namespace PoprfRistretto.Ffi

open Memory PartialState

variable {G : Type} [AddCommGroup G] [Module Scalar G] {S : Suite G} {R : Type}

/-- A process: what its threads share, and the last error of each of them. -/
structure Process (S : Suite G) (R : Type) where
  shared : Shared S R
  lastErrors : ℕ → Option CString

/-- What a thread of the process sees. -/
def Process.view (p : Process S R) (thread : ℕ) : State S R :=
  { p.shared with lastError := p.lastErrors thread }

/-- What happens in a process: a call returns, after which the caller sees the result and its own
memory, or something else happens. -/
inductive Event where
  | returns (thread : ℕ) (call : Call) (ret : Ret) (memory : CallerMemory)
  | host

/-- The steps of a process. A caller passes a slot of its own for each result of a call. Between two
calls the caller writes its memory, and other processes draw from the generator. -/
inductive Process.Step [DecidableEq G] [Rng R] (base64 : Base64) (F : Features) :
    Process S R → Event → Process S R → Prop
  | returns {p : Process S R} {thread fuel : ℕ} {call : Call} {ret : Ret} {s : State S R}
      (hapart : call.SlotsApart)
      (h : (call.run base64 F fuel).run (p.view thread) = some (ret, s)) :
      Step base64 F p (.returns thread call ret s.memory)
        ⟨s.toShared, Function.update p.lastErrors thread s.lastError⟩
  | host {p : Process S R} (memory : CallerMemory) (osRng : R) :
      Step base64 F p .host { p with shared := { p.shared with memory, osRng } }

/-- The process after a call, when the thread is in the state `s`. -/
def Process.resume (p : Process S R) (thread : ℕ) (s : State S R) : Process S R :=
  ⟨s.toShared, Function.update p.lastErrors thread s.lastError⟩

/-- What makes a step: a thread calls, or the host writes. -/
inductive Process.Move (R : Type) where
  | call (thread fuel : ℕ) (call : Call)
  | host (memory : CallerMemory) (osRng : R)

/-- The step that a move makes, if it makes one. -/
def Process.step [DecidableEq G] [Rng R] (base64 : Base64) (F : Features) (p : Process S R) :
    Process.Move R → Option (Event × Process S R)
  | .call thread fuel call =>
    if call.SlotsApart then
      ((call.run base64 F fuel).run (p.view thread)).map fun (ret, s) =>
        (.returns thread call ret s.memory, p.resume thread s)
    else none
  | .host memory osRng => some (.host, { p with shared := { p.shared with memory, osRng } })

/-- The steps are those that the moves make. -/
theorem Process.step_iff [DecidableEq G] [Rng R] {base64 : Base64} {F : Features} {p p' : Process S R}
    {event : Event} :
    Process.Step base64 F p event p' ↔ ∃ move, p.step base64 F move = some (event, p') := by
  constructor
  · intro h
    cases h with
    | @returns thread fuel call ret s hapart hrun =>
      refine ⟨.call thread fuel call, ?_⟩
      rw [Process.step, if_pos hapart, hrun]
      rfl
    | host memory osRng => exact ⟨.host memory osRng, rfl⟩
  · rintro ⟨move, h⟩
    cases move with
    | call thread fuel call =>
      rw [Process.step, Option.ite_none_right_eq_some, Option.map_eq_some_iff] at h
      obtain ⟨hapart, ⟨ret, s⟩, hrun, h⟩ := h
      cases h
      exact .returns hapart hrun
    | host memory osRng =>
      cases h
      exact .host memory osRng

/-- Moves that a process makes one after the other are a run. -/
theorem Process.run_of_moves [DecidableEq G] [Rng R] {base64 : Base64} {F : Features}
    {p p' : Process S R} {moves : List (Process.Move R)} {trace : List Event}
    (h : execute (Process.step base64 F) p moves = some (trace, p')) :
    Run (Process.Step base64 F) p trace p' := by
  refine run_of_execute ?_ h
  intro q move event q' hmove
  exact Process.step_iff.mpr ⟨move, hmove⟩

/-! ## The ledger -/

/-- What the caller writes into its ledger. -/
def Event.record (owned : List Handle) : Event → List Handle
  | .returns _ call ret memory => (call.released.elim owned owned.erase) ++ call.received memory ret
  | .host => owned

/-- The handles that the caller has received and not given back. -/
def ledger (trace : List Event) : List Handle := trace.foldl Event.record []

/-- The ledger is kept event by event. -/
theorem ledger_concat (trace : List Event) (event : Event) :
    ledger (trace ++ [event]) = event.record (ledger trace) := by
  rw [ledger, List.foldl_append]
  rfl

/-- The heap holds the handles of the ledger, and nothing else. -/
structure Accounts (owned : List Handle) (heap : Heap (Boxed S)) : Prop where
  nodup : owned.Nodup
  ne_null : ∀ t p, (t, p) ∈ owned → p ≠ NULL
  mem_iff : ∀ t p, (t, p) ∈ owned ↔ ∃ v, heap.get p = some ⟨t, v⟩

namespace Accounts

variable {owned : List Handle} {heap heap' : Heap (Boxed S)}

/-- An empty heap is accounted for by an empty ledger. -/
theorem empty : Accounts [] (Heap.empty : Heap (Boxed S)) where
  nodup := List.nodup_nil
  ne_null _ _ h := absurd h List.not_mem_nil
  mem_iff _ _ := iff_of_false List.not_mem_nil fun ⟨_, h⟩ => nomatch h

/-- New boxes are written into the ledger. -/
theorem extend (h : Accounts owned heap) {new : List (Boxed S)} (hnew : heap.Extends heap' new) :
    Accounts (owned ++ handles heap.next new) heap' where
  nodup := by
    refine List.nodup_append.mpr ⟨h.nodup, nodup_handles _ _, ?_⟩
    rintro ⟨t, p⟩ howned ⟨t', p'⟩ hhandle heq
    obtain ⟨rfl, rfl⟩ := Prod.mk.inj heq
    obtain ⟨v, hv⟩ := (h.mem_iff t p).mp howned
    obtain ⟨i, -, rfl, -⟩ := mem_handles_iff.mp hhandle
    exact absurd (Heap.lt_next_of_get_eq_some hv) (by omega)
  ne_null t p hp := by
    rcases List.mem_append.mp hp with howned | hhandle
    · exact h.ne_null t p howned
    · obtain ⟨i, -, rfl, -⟩ := mem_handles_iff.mp hhandle
      have hnext := heap.next_ne_zero
      show heap.next + i ≠ 0
      omega
  mem_iff t p := by
    simp only [List.mem_append, h.mem_iff, mem_handles_iff, hnew.get_eq_some_iff, exists_or]
    exact or_congr_right exists_comm

/-- A box that is freed is struck off the ledger. -/
theorem free (h : Accounts owned heap) {t : HandleType} {p : Ptr} {v : t.Value S}
    (hv : heap.get p = some ⟨t, v⟩) : Accounts (owned.erase (t, p)) (heap.free p) where
  nodup := h.nodup.erase _
  ne_null t' p' hp := h.ne_null t' p' (List.mem_of_mem_erase hp)
  mem_iff t' p' := by
    rw [h.nodup.mem_erase_iff, h.mem_iff]
    by_cases hp : p' = p
    · subst hp
      refine iff_of_false (fun ⟨hne, v', hv'⟩ => hne ?_) fun ⟨v', hv'⟩ => ?_
      · rw [hv] at hv'
        cases hv'
        rfl
      · exact Option.some_ne_none _ (hv'.symm.trans (Function.update_self ..))
    · have hget : (heap.free p).get p' = heap.get p' := Function.update_of_ne hp ..
      rw [hget]
      exact and_iff_right fun heq => hp (Prod.mk.inj heq).2

/-- NULL is not on the ledger. -/
theorem erase_null (h : Accounts owned heap) (t : HandleType) : owned.erase (t, NULL) = owned :=
  List.erase_of_not_mem fun hmem => h.ne_null t NULL hmem rfl

end Accounts

/-- The caller receives nothing from a destructor. -/
theorem received_of_released {call : Call} {handle : Handle} (h : call.released = some handle)
    (memory : CallerMemory) (ret : Ret) : call.received memory ret = [] := by
  cases call with
  | poprfCCharDestroy | poprfSecretKeyDestroy | poprfPublicKeyDestroy | poprfBlindedElementDestroy
  | poprfEvaluatedElementDestroy | poprfProofDestroy | poprfInputTableDestroy | poprfOutputDestroy =>
    cases ret with
    | ptr p => exact ite_self []
    | int c => rfl
    | void => rfl
  | _ => cases h

section Runs

variable [DecidableEq G] [Rng R] {base64 : Base64} {F : Features}

/-- A step keeps the accounts, when the caller writes down what it receives and gives back. -/
theorem Process.Step.accounts {p p' : Process S R} {event : Event} {owned : List Handle}
    (h : Accounts owned p.shared.heap) (hstep : Process.Step base64 F p event p') :
    Accounts (event.record owned) p'.shared.heap := by
  cases hstep with
  | @returns thread fuel call ret s hapart hrun =>
    cases hreleased : call.released with
    | none =>
      -- what is new on the heap is what the caller receives
      obtain ⟨new, hnew, hhandles⟩ := handsOut_run base64 F fuel hreleased hapart _ _ _ hrun
      have hreceived : call.received s.memory ret = handles p.shared.heap.next new := hhandles
      simp only [Event.record, hreleased, Option.elim_none]
      rw [hreceived]
      exact h.extend hnew
    | some handle =>
      obtain ⟨t, q⟩ := handle
      simp only [Event.record, hreleased, Option.elim_some, received_of_released hreleased,
        List.append_nil]
      -- a destructor is called on NULL, or on a handle that is struck off
      rcases frees_run base64 F fuel hreleased _ _ _ hrun with ⟨rfl, hheap⟩ | ⟨⟨v, hv⟩, hheap⟩
      · rw [h.erase_null]
        show Accounts owned s.heap
        rwa [hheap]
      · show Accounts _ s.heap
        rw [hheap]
        exact h.free hv
  | host => exact h

/-- The ledger accounts for the heap in every run. -/
theorem accounts_run {start p : Process S R} {trace : List Event}
    (hstart : start.shared.heap = Heap.empty) (h : Run (Process.Step base64 F) start trace p) :
    Accounts (ledger trace) p.shared.heap := by
  induction h with
  | refl =>
    rw [hstart]
    exact .empty
  | snoc prior step ih =>
    rw [ledger_concat]
    exact step.accounts ih

/-- At every point of every run of a process, on any number of threads, the heap of the library holds
exactly the handles that the caller has received and not given back: nothing leaks, nothing is freed
behind the caller's back, and no pointer is handed out twice. -/
theorem ledger_agrees {start p : Process S R} {trace : List Event}
    (hstart : start.shared.heap = Heap.empty) (h : Run (Process.Step base64 F) start trace p) :
    (ledger trace).Nodup ∧ (∀ t q, (t, q) ∈ ledger trace → q ≠ NULL) ∧
    (∀ t q, (t, q) ∈ ledger trace ↔ ∃ v, p.shared.heap.get q = some ⟨t, v⟩) ∧
    (ledger trace = [] ↔ ∀ q, p.shared.heap.get q = none) := by
  have haccounts := accounts_run hstart h
  refine ⟨haccounts.nodup, haccounts.ne_null, haccounts.mem_iff, ?_⟩
  rw [List.eq_nil_iff_forall_not_mem]
  constructor
  · intro hnil q
    rw [Option.eq_none_iff_forall_ne_some]
    exact fun b hb => hnil (b.type, q) ((haccounts.mem_iff _ _).mpr ⟨b.value, hb⟩)
  · rintro hnone ⟨t, q⟩ hmem
    obtain ⟨v, hv⟩ := (haccounts.mem_iff t q).mp hmem
    rw [hnone] at hv
    cases hv

/-- A process that has not called the library. -/
def freshProcess : Process referenceSuite Replay :=
  ⟨⟨Heap.empty, fun _ => none, ⟨[]⟩⟩, fun _ => none⟩

/-- The caller's arrays: the handles of two tables, and two slots that are not initialised. -/
def referenceMemory : CallerMemory
  | 10 => some (some 2)
  | 11 => some (some 3)
  | 20 => some none
  | 21 => some none
  | _ => none

/-- Two threads derive a key and hash three inputs, one of them gives the last table back, and the caller
writes its arrays. -/
def referenceMoves : List (Process.Move Replay) :=
  [.call 0 0 (.poprfSecretKeyFromSeed (.points (List.replicate 32 0)) (.points [])),
    .call 1 0 (.poprfInputTableNew (.points [2])), .call 0 0 (.poprfInputTableNew (.points [3])),
    .call 1 0 (.poprfInputTableNew (.points [4])), .call 0 0 (.poprfInputTableDestroy 4),
    .host referenceMemory ⟨[]⟩]

/-- After the moves the ledger has the key and the two tables of the array, and a thread that evaluates
the tables succeeds. -/
theorem exists_run_reference : ∃ (trace : List Event) (p : Process referenceSuite Replay),
    Run (Process.Step standardBase64 ⟨true, true⟩) freshProcess trace p ∧ trace.length = 6 ∧
    ledger trace = [(.secretKey, 1), (.inputTable, 2), (.inputTable, 3)] ∧
    [10, 11, 20, 21].map p.shared.memory = [some (some 2), some (some 3), some none, some none] ∧
    p.shared.osRng.scalars = [] ∧
    ∃ s, ((Call.poprfEvaluateTables 1 10 2 (.points [1]) 20).run standardBase64 ⟨true, true⟩ 0).run
      (p.view 1) = some (.int 0, s) := by
  -- two evaluations, of what the events are and of what is left behind
  have hmoves : (execute (Process.step standardBase64 ⟨true, true⟩) freshProcess referenceMoves).map
      (fun res => (res.1.length, ledger res.1)) =
        some (6, [(.secretKey, 1), (.inputTable, 2), (.inputTable, 3)]) := by
    decide +kernel
  have hstate : (execute (Process.step standardBase64 ⟨true, true⟩) freshProcess referenceMoves).map
      (fun res => ([10, 11, 20, 21].map res.2.shared.memory, res.2.shared.osRng.scalars,
        (((Call.poprfEvaluateTables 1 10 2 (.points [1]) 20).run standardBase64 ⟨true, true⟩ 0).run
          (res.2.view 1)).map Prod.fst)) =
        some ([some (some 2), some (some 3), some none, some none], [], some (.int 0)) := by
    decide +kernel
  obtain ⟨⟨trace, p⟩, hexecute, heq⟩ := Option.map_eq_some_iff.mp hmoves
  obtain ⟨hlength, hledger⟩ := Prod.mk.inj heq
  rw [hexecute] at hstate
  obtain ⟨hmemory, heq⟩ := Prod.mk.inj (Option.some.inj hstate)
  obtain ⟨hosRng, hcall⟩ := Prod.mk.inj heq
  obtain ⟨⟨ret, s⟩, hcall, hret⟩ := Option.map_eq_some_iff.mp hcall
  obtain rfl : ret = .int 0 := hret
  exact ⟨trace, p, Process.run_of_moves hexecute, hlength, hledger, hmemory, hosRng, s, hcall⟩

/-- After six steps the heap holds the key and the two tables of the ledger, and nothing else. -/
theorem ledger_agrees_reference : ∃ (trace : List Event) (p : Process referenceSuite Replay),
    Run (Process.Step standardBase64 ⟨true, true⟩) freshProcess trace p ∧ trace.length = 6 ∧
    ledger trace = [(.secretKey, 1), (.inputTable, 2), (.inputTable, 3)] ∧
    ∀ t q, (t, q) ∈ ledger trace ↔ ∃ v, p.shared.heap.get q = some ⟨t, v⟩ := by
  obtain ⟨trace, p, hrun, hlength, hledger, -⟩ := exists_run_reference
  exact ⟨trace, p, hrun, hlength, hledger, (ledger_agrees rfl hrun).2.2.1⟩

/-! ## Calls on handles of the ledger -/

/-- The event gives the handle back. -/
def Event.Releases (handle : Handle) : Event → Prop
  | .returns _ call _ _ => call.released = some handle
  | .host => False

/-- A step leaves the value of a handle as it is, unless it gives the handle back. -/
theorem Process.Step.value {p p' : Process S R} {event : Event}
    (hstep : Process.Step base64 F p event p') {t : HandleType} {q : Ptr} {v : t.Value S}
    (hv : p.shared.heap.get q = some ⟨t, v⟩) (hkept : ¬event.Releases (t, q)) :
    p'.shared.heap.get q = some ⟨t, v⟩ := by
  cases hstep with
  | @returns thread fuel call ret s hapart hrun =>
    show s.heap.get q = _
    cases hreleased : call.released with
    | none =>
      obtain ⟨new, hnew, -⟩ := handsOut_run base64 F fuel hreleased hapart _ _ _ hrun
      exact hnew.get_of_eq_some hv
    | some handle =>
      obtain ⟨t', q'⟩ := handle
      rcases frees_run base64 F fuel hreleased _ _ _ hrun with ⟨-, hheap⟩ | ⟨⟨v', hv'⟩, hheap⟩
      · rw [hheap]
        exact hv
      · rw [hheap]
        refine (Function.update_of_ne (fun hq => hkept ?_) ..).trans hv
        -- were it the same pointer, the call would release the handle
        subst hq
        have hbox : some (⟨t, v⟩ : Boxed S) = some ⟨t', v'⟩ := hv.symm.trans hv'
        cases hbox
        exact hreleased
  | host => exact hv

/-- A run leaves the value of a handle as it is, until the handle is given back. -/
theorem value_run {p p' : Process S R} {trace : List Event}
    (h : Run (Process.Step base64 F) p trace p') {t : HandleType} {q : Ptr} {v : t.Value S}
    (hv : p.shared.heap.get q = some ⟨t, v⟩) (hkept : ∀ event ∈ trace, ¬event.Releases (t, q)) :
    p'.shared.heap.get q = some ⟨t, v⟩ := by
  induction h with
  | refl => exact hv
  | snoc prior step ih =>
    rw [List.forall_mem_append, List.forall_mem_singleton] at hkept
    exact step.value (ih hkept.1) hkept.2

end Runs

/-- NULL, or a handle of the ledger. -/
def Listed (owned : List Handle) (t : HandleType) (p : Ptr) : Prop := p = NULL ∨ (t, p) ∈ owned

/-- NULL, or an array of `n` handles of the ledger. -/
def ListedArray (owned : List Handle) (memory : CallerMemory) (t : HandleType) (arr : Ptr) (n : ℕ) :
    Prop :=
  arr = NULL ∨ ∀ i < n, ∃ p, memory (arr + i) = some (some p) ∧ Listed owned t p

/-- The caller passes handles of its ledger and arrays of its memory: initialised slots for evaluated
elements, any slots for the other results, and a slot of its own for each result. -/
def Call.Owned (owned : List Handle) (s : Shared S R) : Call → Prop
  | poprfCCharDestroy p => Listed owned .cChar p
  | poprfSecretKeyEncodeBase64 sk => Listed owned .secretKey sk
  | poprfSecretKeyDestroy sk => Listed owned .secretKey sk
  | poprfPublicKeyFromSecret sk => Listed owned .secretKey sk
  | poprfPublicKeyEncodeBase64 pk => Listed owned .publicKey pk
  | poprfPublicKeyDestroy pk => Listed owned .publicKey pk
  | poprfBlindedElementDestroy b => Listed owned .blindedElement b
  | poprfEvaluatedElementEncodeBase64 e => Listed owned .evaluatedElement e
  | poprfEvaluatedElementDestroy e => Listed owned .evaluatedElement e
  | poprfProofEncodeBase64 p => Listed owned .proof p
  | poprfProofDestroy p => Listed owned .proof p
  | poprfBlindEvaluateBatch sk blindedArr n _ outEvaluated outProof =>
    Listed owned .secretKey sk ∧ ListedArray owned s.memory .blindedElement blindedArr n ∧
      IsInitSlotArray s outEvaluated n ∧ IsSlotArray s outProof 1 ∧
      Ffi.SlotsApart outEvaluated n outProof
  | poprfEvaluate sk _ _ => Listed owned .secretKey sk
  | poprfInputTableDestroy t => Listed owned .inputTable t
  | poprfEvaluateTables sk tablesArr n _ outOutputs =>
    Listed owned .secretKey sk ∧ ListedArray owned s.memory .inputTable tablesArr n ∧
      IsSlotArray s outOutputs n
  | poprfOutputEncodeBase64 o => Listed owned .output o
  | poprfOutputEqBase64 o _ => Listed owned .output o
  | poprfOutputDestroy o => Listed owned .output o
  | _ => True

namespace Accounts

variable {owned : List Handle} {s : Shared S R}

/-- A pointer is listed exactly when it is a handle. -/
theorem listed_iff (h : Accounts owned s.heap) {t : HandleType} {p : Ptr} :
    Listed owned t p ↔ IsHandle s t p := or_congr_right (h.mem_iff t p)

/-- So is an array of pointers. -/
theorem listedArray_iff (h : Accounts owned s.heap) {t : HandleType} {arr : Ptr} {n : ℕ} :
    ListedArray owned s.memory t arr n ↔ IsHandleArray s t arr n := by
  unfold ListedArray IsHandleArray
  simp only [h.listed_iff]

/-- The caller can tell from its ledger whether a call is within its contract. -/
theorem owned_iff (h : Accounts owned s.heap) {call : Call} : call.Owned owned s ↔ call.Contract s := by
  cases call <;> simp only [Call.Owned, Call.Contract, h.listed_iff, h.listedArray_iff]

end Accounts

section Runs

variable [DecidableEq G] [Rng R] {base64 : Base64} {F : Features}

/-- At every point of every run of a process, on any thread, a call on handles of the ledger returns,
once the generator yields a nonce. Each handle of the ledger points to a value of its type, and to the
same value at every later point, until it is given back. -/
theorem owned_calls_return {start p : Process S R} {trace : List Event}
    (hstart : start.shared.heap = Heap.empty) (h : Run (Process.Step base64 F) start trace p) :
    (∀ thread fuel call, (∃ r drawn, randomScalar fuel p.shared.osRng = some (r, drawn)) →
      call.Owned (ledger trace) p.shared → ∃ ret p',
        Process.Step base64 F p (.returns thread call ret p'.shared.memory) p') ∧
    ∀ t q, (t, q) ∈ ledger trace → ∃ v : t.Value S, ∀ trace' p',
      Run (Process.Step base64 F) p trace' p' → (∀ event ∈ trace', ¬event.Releases (t, q)) →
      p'.shared.heap.get q = some ⟨t, v⟩ := by
  have haccounts := accounts_run hstart h
  constructor
  · intro thread fuel call hdraw howned
    obtain ⟨r, drawn, hdraw⟩ := hdraw
    have hcontract : call.Contract (p.view thread).toShared := haccounts.owned_iff.mp howned
    obtain ⟨ret, s, hrun⟩ := defined_run base64 F hdraw hcontract
    exact ⟨ret, ⟨s.toShared, _⟩, .returns hcontract.slotsApart hrun⟩
  · intro t q hmem
    obtain ⟨v, hv⟩ := (haccounts.mem_iff t q).mp hmem
    exact ⟨v, fun trace' p' hrun hkept => value_run hrun hv hkept⟩

/-- A thread can evaluate the two tables, and the table of the first input stays what it is. -/
theorem owned_calls_return_reference : ∃ (trace : List Event) (p : Process referenceSuite Replay),
    Run (Process.Step standardBase64 ⟨true, true⟩) freshProcess trace p ∧
    (∃ ret p', Process.Step standardBase64 ⟨true, true⟩ p
      (.returns 1 (.poprfEvaluateTables 1 10 2 (.points [1]) 20) ret p'.shared.memory) p') ∧
    ∃ v, ∀ trace' p', Run (Process.Step standardBase64 ⟨true, true⟩) p trace' p' →
      (∀ event ∈ trace', ¬event.Releases (.inputTable, 2)) →
      p'.shared.heap.get 2 = some ⟨.inputTable, v⟩ := by
  obtain ⟨trace, p, hrun, -, hledger, hmemory, hosRng, -⟩ := exists_run_reference
  have hdraw : ∃ r drawn, randomScalar 1 p.shared.osRng = some (r, drawn) := by
    obtain ⟨⟨heap, memory, ⟨scalars⟩⟩, lastErrors⟩ := p
    obtain rfl : scalars = [] := hosRng
    exact ⟨1, ⟨[]⟩, by rw [randomScalar]; exact if_neg (by decide +kernel)⟩
  -- the two tables are in the cells 10 and 11, the slots are 20 and 21
  simp only [List.map_cons, List.map_nil, List.cons.injEq, and_true] at hmemory
  obtain ⟨h10, h11, h20, h21⟩ := hmemory
  have howned : (Call.poprfEvaluateTables 1 10 2 (.points [1]) 20).Owned (ledger trace) p.shared := by
    rw [hledger]
    refine ⟨.inr (by decide), .inr fun i hi => ?_, .inr fun i hi => ?_⟩
    · interval_cases i
      · exact ⟨2, h10, .inr (by decide)⟩
      · exact ⟨3, h11, .inr (by decide)⟩
    · interval_cases i
      · exact Option.isSome_of_eq_some h20
      · exact Option.isSome_of_eq_some h21
  obtain ⟨hreturn, hvalue⟩ := owned_calls_return rfl hrun
  refine ⟨trace, p, hrun, hreturn 1 1 _ hdraw howned, hvalue .inputTable 2 ?_⟩
  rw [hledger]
  decide

end Runs

end PoprfRistretto.Ffi
