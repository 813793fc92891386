import PoprfRistretto.Ffi.LastError
import PoprfRistretto.Ffi.Requests

/-!
# What the last error says

The checks of each operation in the order of the source, each with its message. A failed operation
leaves the message of the first check that fails. The thread reads it at any later time, whatever other
threads have done, until its next operation.
-/

namespace PoprfRistretto.Ffi

open Memory PartialState Utf8 ExceptLoop

variable {G : Type} [AddCommGroup G] [Module Scalar G] {S : Suite G} {R α : Type}

/-! ## The checks -/

/-- The string that `set_error` keeps. -/
def CString.ofMessage (msg : String) : CString := (CString.new (utf8Bytes msg)).getD errorText

/-- The message of a check, when it fails. -/
def complain (failed : Bool) (msg : String) : Option String := if failed then some msg else none

/-- The message of an error of the library. -/
def complainOf {β : Type} (what : String) (res : Except Error β) : Option String :=
  (failure res).map fun e => what ++ e.display

/-- The value that a handle points to. -/
def valueAt (s : Shared S R) (t : HandleType) (p : Ptr) : Option (t.Value S) :=
  (s.heap.get p).bind (·.cast t)

/-- The pointers in an array. -/
def pointersAt (s : Shared S R) (arr : Ptr) (n : ℕ) : Option (List Ptr) :=
  (List.range n).mapM fun i => (s.memory (arr + i)).join

section Checks

variable (base64 : Base64) (F : Features) (fuel : ℕ) (s : Shared S R)

/-- The checks of an encoder, in order. -/
def encodeChecks (t : HandleType) (nullMsg : String) (toBytes : t.Value S → Bytes) (p : Ptr) :
    List (Option String) :=
  [complain (p = NULL) nullMsg,
    do
      let v ← valueAt s t p
      complain (CString.new (utf8Bytes (base64.encode (toBytes v)))).isNone
        "internal: NUL in base64 output"]

/-- The checks of a decoder, in order. -/
def decodeChecks {β : Type} (name : String) (fromBytes : Bytes → Except Error β) (text : RawSlice) :
    List (Option String) :=
  [complain (bytesFromRaw text).isNone "invalid base64 pointer",
    do
      let text ← bytesFromRaw text
      let e ← failure (base64.decode text)
      some ("base64 decode: " ++ e),
    do
      let text ← bytesFromRaw text
      let bytes ← (base64.decode text).toOption
      complainOf (name ++ "::from_bytes: ") (fromBytes bytes)]

/-- The message about the first null pointer in an array. -/
def nullAt (s : Shared S R) (name : String) (arr : Ptr) (n : ℕ) : Option String := do
  let ptrs ← pointersAt s arr n
  let i ← ptrs.findIdx? (· = NULL)
  some ("null " ++ name ++ " at index " ++ toString i)

/-- The checks of an operation in the order of the source, each with the message that it leaves when it
fails. A check that needs a value which an earlier check has refused passes. -/
def Call.checks [DecidableEq G] [Rng R] : Call → List (Option String)
  | poprfSecretKeyFromSeed seed info =>
    [complain ((bytesFromRaw seed).bind seedArr).isNone "seed must be exactly 32 bytes",
      complain (bytesFromRaw info).isNone "invalid info pointer",
      do
        let seed ← (bytesFromRaw seed).bind seedArr
        let info ← bytesFromRaw info
        complainOf "derive_key_pair: " (deriveKeyPair S seed info)]
  | poprfSecretKeyDecodeBase64 text =>
    decodeChecks base64 "SecretKey" (SecretKey.fromBytes S) text
  | poprfSecretKeyEncodeBase64 sk =>
    encodeChecks base64 s .secretKey "null SecretKey" (fun sk => (sk.toBytes S).toList) sk
  | poprfPublicKeyFromSecret sk => [complain (sk = NULL) "null SecretKey"]
  | poprfPublicKeyEncodeBase64 pk =>
    encodeChecks base64 s .publicKey "null PublicKey" (fun pk => (pk.toBytes S).toList) pk
  | poprfBlindedElementDecodeBase64 text =>
    decodeChecks base64 "BlindedElement" (BlindedElement.fromBytes S) text
  | poprfEvaluatedElementEncodeBase64 e =>
    encodeChecks base64 s .evaluatedElement "null EvaluatedElement" (fun e => (e.toBytes S).toList) e
  | poprfProofEncodeBase64 p =>
    encodeChecks base64 s .proof "null Proof" (fun p => (p.toBytes S).toList) p
  | poprfBlindEvaluateBatch sk blindedArr n info outEvaluated outProof =>
    [complain (sk = NULL ∨ blindedArr = NULL ∨ outEvaluated = NULL ∨ outProof = NULL)
        "null pointer in blind_evaluate_batch",
      complain (n = 0) "blind_evaluate_batch requires n >= 1",
      complain (bytesFromRaw info).isNone "invalid info pointer",
      nullAt s "BlindedElement" blindedArr n,
      do
        let ptrs ← pointersAt s blindedArr n
        let blindeds ← ptrs.mapM (valueAt s .blindedElement)
        let info ← bytesFromRaw info
        let sk ← valueAt s .secretKey sk
        let (res, _) ← (PoprfServer.new sk).blindEvaluateBatch S F fuel s.osRng blindeds info
        complainOf "blind_evaluate_batch: " res]
  | poprfEvaluate sk input info =>
    [complain (sk = NULL) "null SecretKey",
      complain (bytesFromRaw input).isNone "invalid input pointer",
      complain (bytesFromRaw info).isNone "invalid info pointer",
      do
        let sk ← valueAt s .secretKey sk
        let input ← bytesFromRaw input
        let info ← bytesFromRaw info
        complainOf "evaluate: " ((PoprfServer.new sk).evaluate S input info)]
  | poprfInputTableNew input =>
    [complain (bytesFromRaw input).isNone "invalid input pointer",
      do
        let input ← bytesFromRaw input
        complainOf "PoprfInputTable::new: " (PoprfInputTable.new S F input)]
  | poprfEvaluateTables sk tablesArr n info outOutputs =>
    [complain (sk = NULL ∨ tablesArr = NULL ∨ outOutputs = NULL) "null pointer in evaluate_tables",
      complain (n = 0) "evaluate_tables requires n >= 1",
      complain (bytesFromRaw info).isNone "invalid info pointer",
      nullAt s "PoprfInputTable" tablesArr n,
      do
        let ptrs ← pointersAt s tablesArr n
        let tables ← ptrs.mapM (valueAt s .inputTable)
        let info ← bytesFromRaw info
        let sk ← valueAt s .secretKey sk
        complainOf "evaluate_tables: " ((PoprfServer.new sk).evaluateTables S tables info)]
  | poprfOutputEncodeBase64 o =>
    encodeChecks base64 s .output "null PoprfOutput" (fun o => o.asBytes.toList) o
  | poprfOutputEqBase64 o expectedB64 =>
    [complain (o = NULL) "null PoprfOutput",
      complain (bytesFromRaw expectedB64).isNone "invalid expected b64 pointer",
      do
        let text ← bytesFromRaw expectedB64
        let e ← failure (base64.decode text)
        some ("base64 decode: " ++ e),
      do
        let text ← bytesFromRaw expectedB64
        let bytes ← (base64.decode text).toOption
        complainOf "PoprfOutput::from_bytes: " (PoprfOutput.fromBytes bytes)]
  | _ => []

/-- The message of the first check that fails. -/
def Call.message [DecidableEq G] [Rng R] (call : Call) : Option String :=
  (call.checks base64 F fuel s).findSome? id

end Checks

/-! ## The functions -/

/-- The computation ends with the message as the last error. -/
def Leaves (msg : Option String) (x : CAbi S R α) (s : State S R) : Prop :=
  Post x s fun _ s' => s'.lastError = msg.map CString.ofMessage

section Leaves

variable {s u : State S R} {x : CAbi S R α} {msg msg' : Option String}

theorem Leaves.of_eq (h : Leaves msg x s) (heq : msg' = msg) : Leaves msg' x s := heq ▸ h

/-- A failure leaves its message. -/
theorem leaves_failWith (msg : String) (ret : α) :
    Leaves (some msg) (failWith msg ret) u := post_bind (post_modify (post_pure rfl))

/-- Where the last error has been cleared and is left alone, there is no message. -/
theorem leaves_none (hx : KeepsLastError x) (hu : u.lastError = none) : Leaves none x u :=
  (hx u).mono fun _ _ h => h.trans hu

theorem leaves_map {β : Type} (h : Leaves msg x s) (f : α → β) : Leaves msg (f <$> x) s := by
  unfold Leaves
  rw [map_eq_pure_bind]
  exact post_bind (h.mono fun a t ht => post_pure ht)

/-- A value is at a pointer when the heap has it there under its type. -/
theorem valueAt_eq_some_iff {s : Shared S R} {t : HandleType} {p : Ptr} {v : t.Value S} :
    valueAt s t p = some v ↔ s.heap.get p = some ⟨t, v⟩ := by
  simp [valueAt, Option.bind_eq_some_iff]

end Leaves

section Functions

variable (base64 : Base64) (s : State S R)

/-- An encoder leaves the message of its first check that fails. -/
theorem leaves_encodeBase64 (t : HandleType) (nullMsg : String) (toBytes : t.Value S → Bytes)
    (p : Ptr) :
    Leaves ((encodeChecks base64 s.toShared t nullMsg toBytes p).findSome? id)
      (encodeBase64 base64 t nullMsg toBytes p) s := by
  refine post_bind (post_modify ?_)
  split
  · rename_i hp
    exact (leaves_failWith _ _).of_eq (by simp [encodeChecks, complain, hp])
  · rename_i hp
    refine post_bind ((post_deref _ t p).mono fun v u hv => ?_)
    obtain ⟨rfl, hv⟩ := hv
    have hvalue : valueAt s.toShared t p = some v := valueAt_eq_some_iff.mpr hv
    rw [cstringOrNull]
    split
    · rename_i c hc
      exact (leaves_none (keeps_intoRaw _ _) rfl).of_eq
        (by simp [encodeChecks, complain, hp, hvalue, hc])
    · rename_i hc
      exact (leaves_failWith _ _).of_eq (by simp [encodeChecks, complain, hp, hvalue, hc])

/-- So does a decoder. -/
theorem leaves_decodeBase64 (t : HandleType) (name : String)
    (fromBytes : Bytes → Except Error (t.Value S)) (text : RawSlice) :
    Leaves ((decodeChecks base64 name fromBytes text).findSome? id)
      (decodeBase64 base64 t name fromBytes text : CAbi S R Ptr) s := by
  refine post_bind (post_modify ?_)
  split
  · rename_i bytes hs
    split
    · rename_i e hdecode
      exact (leaves_failWith _ _).of_eq (by simp [decodeChecks, complain, hs, hdecode])
    · rename_i decoded hdecode
      split
      · rename_i v hparse
        exact (leaves_none (keeps_intoRaw _ _) rfl).of_eq
          (by simp [decodeChecks, complain, complainOf, hs, hdecode, hparse, Except.toOption])
      · rename_i e hparse
        exact (leaves_failWith _ _).of_eq
          (by simp [decodeChecks, complain, complainOf, hs, hdecode, hparse, Except.toOption])
  · rename_i hnone
    have htext : bytesFromRaw text = none := Option.eq_none_iff_forall_ne_some.mpr hnone
    exact (leaves_failWith _ _).of_eq (by simp [decodeChecks, complain, htext])

/-- The key derivation checks the seed, then the info, then what the core says. -/
theorem leaves_poprfSecretKeyFromSeed [DecidableEq G] [Rng R] (F : Features) (fuel : ℕ)
    (seed info : RawSlice) :
    Leaves ((Call.poprfSecretKeyFromSeed seed info).message base64 F fuel s.toShared)
      (poprfSecretKeyFromSeed seed info : CAbi S R Ptr) s := by
  refine post_bind (post_modify ?_)
  split
  · rename_i seedBytes hseed
    split
    · rename_i infoBytes hinfo
      split
      · rename_i sk pk hderive
        exact (leaves_none (keeps_intoRaw _ _) rfl).of_eq
          (by simp [Call.message, Call.checks, complain, complainOf, hseed, hinfo, hderive])
      · rename_i e hderive
        exact (leaves_failWith _ _).of_eq
          (by simp [Call.message, Call.checks, complain, complainOf, hseed, hinfo, hderive])
    · rename_i hnone
      have hinfo : bytesFromRaw info = none := Option.eq_none_iff_forall_ne_some.mpr hnone
      exact (leaves_failWith _ _).of_eq (by simp [Call.message, Call.checks, complain, hseed, hinfo])
  · rename_i hnone
    have hseed : (bytesFromRaw seed).bind seedArr = none := Option.eq_none_iff_forall_ne_some.mpr hnone
    exact (leaves_failWith _ _).of_eq (by simp [Call.message, Call.checks, complain, hseed])

/-- Taking the public key checks for NULL only. -/
theorem leaves_poprfPublicKeyFromSecret [DecidableEq G] [Rng R] (F : Features) (fuel : ℕ) (sk : Ptr) :
    Leaves ((Call.poprfPublicKeyFromSecret sk).message base64 F fuel s.toShared)
      (poprfPublicKeyFromSecret sk : CAbi S R Ptr) s := by
  refine post_bind (post_modify ?_)
  split
  · rename_i hsk
    exact (leaves_failWith _ _).of_eq (by simp [Call.message, Call.checks, complain, hsk])
  · rename_i hsk
    exact (leaves_none (keeps_bind (keeps_deref _ _) fun _ => keeps_intoRaw _ _) rfl).of_eq
      (by simp [Call.message, Call.checks, complain, hsk])

/-- The evaluation checks the key, the input and the info before it asks the core. -/
theorem leaves_poprfEvaluate [DecidableEq G] [Rng R] (F : Features) (fuel : ℕ) (sk : Ptr)
    (input info : RawSlice) :
    Leaves ((Call.poprfEvaluate sk input info).message base64 F fuel s.toShared)
      (poprfEvaluate sk input info : CAbi S R Ptr) s := by
  refine post_bind (post_modify ?_)
  split
  · rename_i hsk
    exact (leaves_failWith _ _).of_eq (by simp [Call.message, Call.checks, complain, hsk])
  rename_i hsk
  split
  · rename_i inputBytes hinput
    split
    · rename_i infoBytes hinfo
      refine post_bind ((post_deref _ _ sk).mono fun skS u hskS => ?_)
      obtain ⟨rfl, hskS⟩ := hskS
      have hvalue : valueAt s.toShared .secretKey sk = some skS := valueAt_eq_some_iff.mpr hskS
      dsimp only
      split
      · rename_i out hout
        exact (leaves_none (keeps_intoRaw _ _) rfl).of_eq
          (by simp [Call.message, Call.checks, complain, complainOf, hsk, hinput, hinfo, hvalue, hout])
      · rename_i e he
        exact (leaves_failWith _ _).of_eq
          (by simp [Call.message, Call.checks, complain, complainOf, hsk, hinput, hinfo, hvalue, he])
    · rename_i hnone
      have hinfo : bytesFromRaw info = none := Option.eq_none_iff_forall_ne_some.mpr hnone
      exact (leaves_failWith _ _).of_eq
        (by simp [Call.message, Call.checks, complain, hsk, hinput, hinfo])
  · rename_i hnone
    have hinput : bytesFromRaw input = none := Option.eq_none_iff_forall_ne_some.mpr hnone
    exact (leaves_failWith _ _).of_eq (by simp [Call.message, Call.checks, complain, hsk, hinput])

/-- Building a table checks the input, then asks the core. -/
theorem leaves_poprfInputTableNew [DecidableEq G] [Rng R] (F : Features) (fuel : ℕ)
    (input : RawSlice) :
    Leaves ((Call.poprfInputTableNew input).message base64 F fuel s.toShared)
      (poprfInputTableNew F input : CAbi S R Ptr) s := by
  refine post_bind (post_modify ?_)
  split
  · rename_i inputBytes hinput
    split
    · rename_i tb htb
      exact (leaves_none (keeps_intoRaw _ _) rfl).of_eq
        (by simp [Call.message, Call.checks, complain, complainOf, hinput, htb])
    · rename_i e he
      exact (leaves_failWith _ _).of_eq
        (by simp [Call.message, Call.checks, complain, complainOf, hinput, he])
  · rename_i hnone
    have hinput : bytesFromRaw input = none := Option.eq_none_iff_forall_ne_some.mpr hnone
    exact (leaves_failWith _ _).of_eq (by simp [Call.message, Call.checks, complain, hinput])

/-- A comparison reads its text before it follows its handle. -/
theorem leaves_poprfOutputEqBase64 [DecidableEq G] [Rng R] (F : Features) (fuel : ℕ) (o : Ptr)
    (expectedB64 : RawSlice) :
    Leaves ((Call.poprfOutputEqBase64 o expectedB64).message base64 F fuel s.toShared)
      (poprfOutputEqBase64 base64 o expectedB64 : CAbi S R ℤ) s := by
  refine post_bind (post_modify ?_)
  split
  · rename_i ho
    exact (leaves_failWith _ _).of_eq (by simp [Call.message, Call.checks, complain, ho])
  rename_i ho
  split
  · rename_i text htext
    split
    · rename_i e hdecode
      exact (leaves_failWith _ _).of_eq
        (by simp [Call.message, Call.checks, complain, ho, htext, hdecode])
    · rename_i bytes hdecode
      split
      · rename_i e hparse
        exact (leaves_failWith _ _).of_eq (by simp [Call.message, Call.checks, complain, complainOf, ho,
          htext, hdecode, hparse, Except.toOption])
      · rename_i other hparse
        exact (leaves_none (keeps_bind (keeps_deref _ _) fun _ => keeps_pure _) rfl).of_eq
          (by simp [Call.message, Call.checks, complain, complainOf, ho, htext, hdecode, hparse,
            Except.toOption])
  · rename_i hnone
    have htext : bytesFromRaw expectedB64 = none := Option.eq_none_iff_forall_ne_some.mpr hnone
    exact (leaves_failWith _ _).of_eq (by simp [Call.message, Call.checks, complain, ho, htext])

/-! ## The batch functions -/

/-- A reading loop collects what its rounds read. -/
theorem mapM_eq_some_of_forall₂ {β γ : Type} {f : β → Option γ} {l : List β} {r : List γ}
    (h : List.Forall₂ (fun b c => f b = some c) l r) : l.mapM f = some r := by
  induction h with
  | nil => rfl
  | cons hbc _ ih => simp [List.mapM_cons, hbc, ih]

/-- The pointers of an array are what its cells hold. -/
theorem pointersAt_eq_some {s : Shared S R} {arr : Ptr} {n : ℕ} {ptrs : List Ptr}
    (h : List.Forall₂ (fun i p => s.memory (arr + i) = some (some p)) (List.range n) ptrs) :
    pointersAt s arr n = some ptrs :=
  mapM_eq_some_of_forall₂ (h.imp fun _ _ hcell => Option.join_eq_some_iff.mpr hcell)

/-- The loop over the blinded elements reports the first null pointer. -/
theorem post_cloneBlindeds_message (i : ℕ) (ptrs : List Ptr) (s : State S R) :
    Post (cloneBlindeds i ptrs : CAbi S R _) s fun blindeds s' => blindeds = none →
      ∃ j, ptrs.findIdx? (· = NULL) = some j ∧ s'.lastError =
        some (CString.ofMessage ("null BlindedElement at index " ++ toString (i + j))) := by
  induction ptrs generalizing i with
  | nil => exact post_pure fun h => absurd h (Option.some_ne_none _)
  | cons p ptrs ih =>
    rw [cloneBlindeds]
    split
    · rename_i hp
      exact post_bind (post_modify (post_pure fun _ => ⟨0, by simp [List.findIdx?_cons, hp], rfl⟩))
    · rename_i hp
      refine post_bind ((post_deref s _ p).mono fun b t hb => ?_)
      obtain ⟨rfl, -⟩ := hb
      refine post_bind ((ih (i + 1)).mono fun blindeds t' hrest => post_pure fun hnone => ?_)
      obtain ⟨j, hj, hlast⟩ := hrest (Option.map_eq_none_iff.mp hnone)
      refine ⟨j + 1, by simp [List.findIdx?_cons, hp, hj], ?_⟩
      rw [hlast, Nat.add_assoc, Nat.add_comm 1 j]

/-- An array without null pointers is not complained about. -/
theorem findIdx?_eq_none {t : HandleType} {ptrs : List Ptr} {values : List (t.Value S)}
    {s : Shared S R} (h : List.Forall₂ (PointsAt s t) ptrs values) :
    ptrs.findIdx? (· = NULL) = none := by
  rw [List.findIdx?_eq_none_iff]
  intro p hp
  obtain ⟨v, hne, -⟩ := exists_of_forall₂_mem_left h hp
  exact decide_eq_false hne

/-- The values of an array are what its pointers point to. -/
theorem mapM_valueAt {t : HandleType} {ptrs : List Ptr} {values : List (t.Value S)} {s : Shared S R}
    (h : List.Forall₂ (PointsAt s t) ptrs values) : ptrs.mapM (valueAt s t) = some values :=
  mapM_eq_some_of_forall₂ (h.imp fun _ _ hv => valueAt_eq_some_iff.mpr hv.2)

/-- The batch evaluation meets the checks in the order of the source; the mismatch of the lengths is
never met. -/
theorem leaves_poprfBlindEvaluateBatch [DecidableEq G] (F : Features) [Rng R] (fuel : ℕ)
    (sk blindedArr : Ptr) (n : ℕ) (info : RawSlice) (outEvaluated outProof : Ptr) :
    Leaves ((Call.poprfBlindEvaluateBatch sk blindedArr n info outEvaluated outProof).message base64 F
        fuel s.toShared)
      (poprfBlindEvaluateBatch F fuel sk blindedArr n info outEvaluated outProof) s := by
  refine post_bind (post_modify ?_)
  split
  · rename_i hnull
    exact (leaves_failWith _ _).of_eq (by simp [Call.message, Call.checks, complain, hnull])
  rename_i hnull
  split
  · rename_i hn
    exact (leaves_failWith _ _).of_eq (by simp [Call.message, Call.checks, complain, hnull, hn])
  rename_i hn
  split
  · rename_i infoBytes hinfo
    refine post_bind ((post_pointersFromRaw _ _ _).mono fun ptrs u hptrs => ?_)
    obtain ⟨rfl, hptrs⟩ := hptrs
    -- from here on the checks read the same memory as the code
    have hpointers := pointersAt_eq_some hptrs
    refine post_bind (((post_cloneBlindeds_pointsAt _ 0 ptrs).and
      (post_cloneBlindeds_message 0 ptrs _)).mono fun blindeds u hclone => ?_)
    obtain ⟨hclones, hmessage⟩ := hclone
    split
    · rename_i blindeds
      obtain ⟨rfl, hblindeds⟩ := hclones.2 blindeds rfl
      have hno := findIdx?_eq_none hblindeds
      have hvalues := mapM_valueAt hblindeds
      refine post_bind ((post_deref _ _ sk).mono fun skS u hskS => ?_)
      obtain ⟨rfl, hskS⟩ := hskS
      have hkey : valueAt s.toShared .secretKey sk = some skS := valueAt_eq_some_iff.mpr hskS
      refine post_bind ((post_withOsRng _ _).mono fun res u hres => ?_)
      obtain ⟨osRng, hres, rfl⟩ := hres
      split
      · rename_i e
        exact (leaves_failWith _ _).of_eq (by simp [Call.message, Call.checks, complain, complainOf,
          nullAt, hnull, hn, hinfo, hpointers, hno, hvalues, hkey, hres])
      · rename_i evaluateds proof
        -- the lengths agree, so that this check says nothing
        have hlen : evaluateds.length = n := by
          rw [length_of_blindEvaluateBatch hres, ← hblindeds.length_eq, ← hptrs.length_eq,
            List.length_range]
        rw [if_neg (not_not.mpr hlen)]
        refine post_bind ((post_pointersFromRaw _ _ _).mono fun _ u hslice => ?_)
        obtain ⟨rfl, -⟩ := hslice
        -- the writes keep the last error, which was cleared
        refine Leaves.of_eq (leaves_none (keeps_bind (keeps_forM (fun _ => ?_) _) fun _ => ?_) rfl) ?_
        · exact keeps_bind (keeps_intoRaw _ _) fun p => keeps_writePointer _ p
        · refine keeps_bind (keeps_intoRaw _ _) fun p => ?_
          exact keeps_bind (keeps_writePointer _ p) fun _ => keeps_pure _
        · simp [Call.message, Call.checks, complain, complainOf, nullAt, hnull, hn, hinfo, hpointers,
            hno, hvalues, hkey, hres]
    · rename_i hnone
      -- the loop has stopped at the first NULL, and names its index
      obtain ⟨j, hj, hlast⟩ := hmessage (Option.eq_none_iff_forall_ne_some.mpr hnone)
      rw [Nat.zero_add] at hlast
      have hleaves : Leaves (some ("null BlindedElement at index " ++ toString j))
          (pure (-1) : CAbi S R ℤ) u := post_pure hlast
      exact hleaves.of_eq
        (by simp [Call.message, Call.checks, complain, nullAt, hnull, hn, hinfo, hpointers, hj])
  · rename_i hnone
    have hinfo : bytesFromRaw info = none := Option.eq_none_iff_forall_ne_some.mpr hnone
    exact (leaves_failWith _ _).of_eq
      (by simp [Call.message, Call.checks, complain, hnull, hn, hinfo])

/-- The evaluation of tables looks for NULL in the whole array before it follows a pointer. -/
theorem leaves_poprfEvaluateTables [DecidableEq G] [Rng R] (F : Features) (fuel : ℕ)
    (sk tablesArr : Ptr) (n : ℕ) (info : RawSlice) (outOutputs : Ptr) :
    Leaves ((Call.poprfEvaluateTables sk tablesArr n info outOutputs).message base64 F fuel s.toShared)
      (poprfEvaluateTables sk tablesArr n info outOutputs) s := by
  refine post_bind (post_modify ?_)
  split
  · rename_i hnull
    exact (leaves_failWith _ _).of_eq (by simp [Call.message, Call.checks, complain, hnull])
  rename_i hnull
  split
  · rename_i hn
    exact (leaves_failWith _ _).of_eq (by simp [Call.message, Call.checks, complain, hnull, hn])
  rename_i hn
  split
  · rename_i infoBytes hinfo
    refine post_bind ((post_pointersFromRaw _ _ _).mono fun ptrs u hptrs => ?_)
    obtain ⟨rfl, hptrs⟩ := hptrs
    -- from here on the checks read the same memory as the code
    have hpointers := pointersAt_eq_some hptrs
    split
    · rename_i i hfind
      exact (leaves_failWith _ _).of_eq (by simp [Call.message, Call.checks, complain, nullAt, hnull,
        hn, hinfo, hpointers, hfind])
    · rename_i hfind
      refine post_bind ((post_mapM (fun p => post_deref _ _ p) ptrs).mono fun tables u htables => ?_)
      obtain ⟨rfl, htables⟩ := htables
      have hvalues : ptrs.mapM (valueAt s.toShared .inputTable) = some tables :=
        mapM_eq_some_of_forall₂ (htables.imp fun _ _ hv => valueAt_eq_some_iff.mpr hv)
      refine post_bind ((post_deref _ _ sk).mono fun skS u hskS => ?_)
      obtain ⟨rfl, hskS⟩ := hskS
      have hkey : valueAt s.toShared .secretKey sk = some skS := valueAt_eq_some_iff.mpr hskS
      dsimp only
      split
      · rename_i e he
        exact (leaves_failWith _ _).of_eq (by simp [Call.message, Call.checks, complain, complainOf,
          nullAt, hnull, hn, hinfo, hpointers, hfind, hvalues, hkey, he])
      · rename_i outputs houtputs
        -- the lengths agree, so that this check says nothing
        have hlen : outputs.length = n := by
          rw [length_of_evaluateTables houtputs, ← htables.length_eq, ← hptrs.length_eq,
            List.length_range]
        rw [if_neg (not_not.mpr hlen)]
        -- the writes keep the last error, which was cleared
        refine Leaves.of_eq (leaves_none (keeps_bind (keeps_forM (fun _ => ?_) _) fun _ => ?_) rfl) ?_
        · exact keeps_bind (keeps_intoRaw _ _) fun p => keeps_writePointer _ p
        · exact keeps_pure _
        · simp [Call.message, Call.checks, complain, complainOf, nullAt, hnull, hn, hinfo, hpointers,
            hfind, hvalues, hkey, houtputs]
  · rename_i hnone
    have hinfo : bytesFromRaw info = none := Option.eq_none_iff_forall_ne_some.mpr hnone
    exact (leaves_failWith _ _).of_eq
      (by simp [Call.message, Call.checks, complain, hnull, hn, hinfo])

end Functions

/-! ## Texts without a NUL -/

/-- The message has no NUL, so that `set_error` keeps all of it. -/
def NulFree (msg : Option String) : Prop := ∀ text ∈ msg, 0 ∉ utf8Bytes text

section NulFree

variable {msg : Option String}

/-- A message without NUL is kept as it is. -/
theorem CString.bytes_ofMessage {text : String} (h : 0 ∉ utf8Bytes text) :
    (CString.ofMessage text).bytes = utf8Bytes text := by
  rw [CString.ofMessage, CString.new, dif_pos h]
  rfl

/-- A text without NUL is a message without NUL. -/
theorem nulFree_some {text : String} (h : 0 ∉ utf8Bytes text) : NulFree (some text) := by
  rintro _ ⟨⟩
  exact h

/-- So is the complaint that it makes. -/
theorem nulFree_complain {failed : Bool} {text : String} (h : 0 ∉ utf8Bytes text) :
    NulFree (complain failed text) := by
  unfold complain
  split
  · exact nulFree_some h
  · rintro _ ⟨⟩

/-- A message that depends on a value is without NUL when it is for every value. -/
theorem nulFree_bind {β : Type} {o : Option β} {f : β → Option String}
    (h : ∀ a, o = some a → NulFree (f a)) : NulFree (o >>= f) := by
  intro text htext
  obtain ⟨a, ho, ha⟩ := Option.bind_eq_some_iff.mp htext
  exact h a ho text ha

/-- Texts without NUL can be joined. -/
theorem nulFree_append {what text : String} (hwhat : 0 ∉ utf8Bytes what) (h : 0 ∉ utf8Bytes text) :
    0 ∉ utf8Bytes (what ++ text) := by
  rw [utf8Bytes_append, List.mem_append]
  exact not_or.mpr ⟨hwhat, h⟩

/-- The errors of the library are displayed without a NUL. -/
theorem nulFree_complainOf {β : Type} {what : String} (hwhat : 0 ∉ utf8Bytes what)
    (res : Except Error β) : NulFree (complainOf what res) := by
  intro text htext
  obtain ⟨e, -, rfl⟩ := Option.map_eq_some_iff.mp htext
  exact nulFree_append hwhat (by cases e <;> decide)

end NulFree

/-- The errors of the engine have no NUL. -/
def Base64.PrintsErrors (base64 : Base64) : Prop :=
  ∀ s e, base64.decode s = .error e → 0 ∉ utf8Bytes e

section Checks

variable (base64 : Base64)

/-- No message of an encoder has a NUL. -/
theorem nulFree_encodeChecks (s : Shared S R) (t : HandleType) {nullMsg : String}
    (hnull : 0 ∉ utf8Bytes nullMsg) (toBytes : t.Value S → Bytes) (p : Ptr) :
    ∀ msg ∈ encodeChecks base64 s t nullMsg toBytes p, NulFree msg := by
  rw [encodeChecks, List.forall_mem_cons, List.forall_mem_singleton]
  exact ⟨nulFree_complain hnull, nulFree_bind fun v _ => nulFree_complain (by decide)⟩

variable {base64}

/-- The error of the engine, after its prefix. -/
theorem nulFree_decode (h : base64.PrintsErrors) (text : RawSlice) :
    NulFree (do
      let text ← bytesFromRaw text
      let e ← failure (base64.decode text)
      some ("base64 decode: " ++ e)) := by
  refine nulFree_bind fun text _ => nulFree_bind fun e he => nulFree_some ?_
  exact nulFree_append (by decide) (h text e (failure_eq_some_iff.mp he))

/-- No message of a decoder has a NUL, the texts of the `base64` crate included. -/
theorem nulFree_decodeChecks {β : Type} (h : base64.PrintsErrors) {name : String}
    (hname : 0 ∉ utf8Bytes name) (fromBytes : Bytes → Except Error β) (text : RawSlice) :
    ∀ msg ∈ decodeChecks base64 name fromBytes text, NulFree msg := by
  rw [decodeChecks, List.forall_mem_cons, List.forall_mem_cons, List.forall_mem_singleton]
  refine ⟨nulFree_complain (by decide), nulFree_decode h text, nulFree_bind fun text _ =>
    nulFree_bind fun bytes _ => nulFree_complainOf ?_ _⟩
  exact nulFree_append hname (by decide)

/-- The index of a null pointer is printed in digits. -/
theorem nulFree_nullAt (s : Shared S R) {name : String} (hname : 0 ∉ utf8Bytes name) (arr : Ptr)
    (n : ℕ) : NulFree (nullAt s name arr n) := by
  refine nulFree_bind fun ptrs _ => nulFree_bind fun i _ => nulFree_some ?_
  refine nulFree_append (nulFree_append (nulFree_append (by decide) hname) (by decide)) ?_
  exact zero_not_mem_utf8Bytes_toString i

end Checks

/-! ## Calls -/

section Calls

variable [DecidableEq G] [Rng R] {base64 : Base64} (F : Features) (fuel : ℕ)

/-- No message of an operation has a NUL. -/
theorem nulFree_checks (h : base64.PrintsErrors) (s : Shared S R) (call : Call) :
    ∀ msg ∈ call.checks base64 F fuel s, NulFree msg := by
  -- the texts of the crate are constants, decimal indices and errors that print without NUL
  cases call with
  | poprfSecretKeyFromSeed seed info =>
    rw [Call.checks, List.forall_mem_cons, List.forall_mem_cons, List.forall_mem_singleton]
    exact ⟨nulFree_complain (by decide), nulFree_complain (by decide), nulFree_bind fun _ _ =>
      nulFree_bind fun _ _ => nulFree_complainOf (by decide) _⟩
  | poprfSecretKeyDecodeBase64 text => exact nulFree_decodeChecks h (by decide) _ text
  | poprfSecretKeyEncodeBase64 sk => exact nulFree_encodeChecks base64 s _ (by decide) _ sk
  | poprfPublicKeyFromSecret sk =>
    rw [Call.checks, List.forall_mem_singleton]
    exact nulFree_complain (by decide)
  | poprfPublicKeyEncodeBase64 pk => exact nulFree_encodeChecks base64 s _ (by decide) _ pk
  | poprfBlindedElementDecodeBase64 text => exact nulFree_decodeChecks h (by decide) _ text
  | poprfEvaluatedElementEncodeBase64 e => exact nulFree_encodeChecks base64 s _ (by decide) _ e
  | poprfProofEncodeBase64 p => exact nulFree_encodeChecks base64 s _ (by decide) _ p
  | poprfBlindEvaluateBatch sk blindedArr n info outEvaluated outProof =>
    rw [Call.checks, List.forall_mem_cons, List.forall_mem_cons, List.forall_mem_cons,
      List.forall_mem_cons, List.forall_mem_singleton]
    exact ⟨nulFree_complain (by decide), nulFree_complain (by decide), nulFree_complain (by decide),
      nulFree_nullAt s (by decide) _ _, nulFree_bind fun _ _ => nulFree_bind fun _ _ =>
      nulFree_bind fun _ _ => nulFree_bind fun _ _ => nulFree_bind fun _ _ =>
      nulFree_complainOf (by decide) _⟩
  | poprfEvaluate sk input info =>
    rw [Call.checks, List.forall_mem_cons, List.forall_mem_cons, List.forall_mem_cons,
      List.forall_mem_singleton]
    exact ⟨nulFree_complain (by decide), nulFree_complain (by decide), nulFree_complain (by decide),
      nulFree_bind fun _ _ => nulFree_bind fun _ _ => nulFree_bind fun _ _ =>
      nulFree_complainOf (by decide) _⟩
  | poprfInputTableNew input =>
    rw [Call.checks, List.forall_mem_cons, List.forall_mem_singleton]
    exact ⟨nulFree_complain (by decide), nulFree_bind fun _ _ => nulFree_complainOf (by decide) _⟩
  | poprfEvaluateTables sk tablesArr n info outOutputs =>
    rw [Call.checks, List.forall_mem_cons, List.forall_mem_cons, List.forall_mem_cons,
      List.forall_mem_cons, List.forall_mem_singleton]
    exact ⟨nulFree_complain (by decide), nulFree_complain (by decide), nulFree_complain (by decide),
      nulFree_nullAt s (by decide) _ _, nulFree_bind fun _ _ => nulFree_bind fun _ _ =>
      nulFree_bind fun _ _ => nulFree_bind fun _ _ => nulFree_complainOf (by decide) _⟩
  | poprfOutputEncodeBase64 o => exact nulFree_encodeChecks base64 s _ (by decide) _ o
  | poprfOutputEqBase64 o expectedB64 =>
    rw [Call.checks, List.forall_mem_cons, List.forall_mem_cons, List.forall_mem_cons,
      List.forall_mem_singleton]
    exact ⟨nulFree_complain (by decide), nulFree_complain (by decide), nulFree_decode h expectedB64,
      nulFree_bind fun _ _ => nulFree_bind fun _ _ => nulFree_complainOf (by decide) _⟩
  | _ => exact fun _ h => absurd h List.not_mem_nil

/-- An operation leaves the message of its first check that fails. -/
theorem leaves_run {call : Call} (h : call.isOperation) (s : State S R) :
    Leaves (call.message base64 F fuel s.toShared) (call.run base64 F fuel) s := by
  cases call with
  | poprfSecretKeyFromSeed seed info =>
    exact leaves_map (leaves_poprfSecretKeyFromSeed base64 s F fuel seed info) _
  | poprfSecretKeyDecodeBase64 text => exact leaves_map (leaves_decodeBase64 base64 s _ _ _ text) _
  | poprfSecretKeyEncodeBase64 sk => exact leaves_map (leaves_encodeBase64 base64 s _ _ _ sk) _
  | poprfPublicKeyFromSecret sk =>
    exact leaves_map (leaves_poprfPublicKeyFromSecret base64 s F fuel sk) _
  | poprfPublicKeyEncodeBase64 pk => exact leaves_map (leaves_encodeBase64 base64 s _ _ _ pk) _
  | poprfBlindedElementDecodeBase64 text =>
    exact leaves_map (leaves_decodeBase64 base64 s _ _ _ text) _
  | poprfEvaluatedElementEncodeBase64 e => exact leaves_map (leaves_encodeBase64 base64 s _ _ _ e) _
  | poprfProofEncodeBase64 p => exact leaves_map (leaves_encodeBase64 base64 s _ _ _ p) _
  | poprfBlindEvaluateBatch sk blindedArr n info outEvaluated outProof =>
    exact leaves_map
      (leaves_poprfBlindEvaluateBatch base64 s F fuel sk blindedArr n info outEvaluated outProof) _
  | poprfEvaluate sk input info => exact leaves_map (leaves_poprfEvaluate base64 s F fuel sk input info) _
  | poprfInputTableNew input => exact leaves_map (leaves_poprfInputTableNew base64 s F fuel input) _
  | poprfEvaluateTables sk tablesArr n info outOutputs =>
    exact leaves_map (leaves_poprfEvaluateTables base64 s F fuel sk tablesArr n info outOutputs) _
  | poprfOutputEncodeBase64 o => exact leaves_map (leaves_encodeBase64 base64 s _ _ _ o) _
  | poprfOutputEqBase64 o expectedB64 =>
    exact leaves_map (leaves_poprfOutputEqBase64 base64 s F fuel o expectedB64) _
  | _ => exact absurd h Bool.false_ne_true

end Calls

/-! ## Runs -/

/-- The thread makes an operation. -/
def Event.Operates (thread : ℕ) : Event → Prop
  | .returns thread' call _ _ => thread' = thread ∧ call.isOperation
  | .host => False

section Runs

variable [DecidableEq G] [Rng R] {base64 : Base64} {F : Features}

/-- The last error of a thread stays until the next operation of the thread. -/
theorem Process.Step.lastErrors_eq {p p' : Process S R} {event : Event} {thread : ℕ}
    (hstep : Process.Step base64 F p event p') (hquiet : ¬event.Operates thread) :
    p'.lastErrors thread = p.lastErrors thread := by
  cases hstep with
  | @returns thread' fuel call ret s hapart hrun =>
    by_cases hthread : thread' = thread
    · subst hthread
      have hop : ¬call.isOperation := fun hop => hquiet ⟨rfl, hop⟩
      have hkeep : s.lastError = p.lastErrors thread' := keeps_run base64 F fuel hop _ _ _ hrun
      exact (Function.update_self ..).trans hkeep
    · exact Function.update_of_ne (Ne.symm hthread) ..
  | host memory osRng => rfl

/-- A thread that does nothing keeps its last error, whatever the others do. -/
theorem lastErrors_run {p p' : Process S R} {trace : List Event} {thread : ℕ}
    (h : Run (Process.Step base64 F) p trace p') (hquiet : ∀ event ∈ trace, ¬event.Operates thread) :
    p'.lastErrors thread = p.lastErrors thread := by
  induction h with
  | refl => rfl
  | snoc prior step ih =>
    rw [List.forall_mem_append, List.forall_mem_singleton] at hquiet
    rw [step.lastErrors_eq hquiet.2, ih hquiet.1]

/-- A thread reads a copy of its last error, or NULL. -/
theorem run_lastErrorMessage (base64 : Base64) (F : Features) (p : Process S R) (thread fuel : ℕ) :
    (Call.run base64 F fuel .poprfLastErrorMessage).run (p.view thread) =
      match p.lastErrors thread with
      | some c => some (.ptr p.shared.heap.next,
          { p.view thread with heap := (p.shared.heap.alloc ⟨.cChar, c⟩).2 })
      | none => some (.ptr NULL, p.view thread) := by
  have hrun : (Call.run base64 F fuel .poprfLastErrorMessage).run (p.view thread) =
      ((poprfLastErrorMessage : CAbi S R Ptr).run (p.view thread)).map fun q => (.ptr q.1, q.2) :=
    StateT.run_map ..
  rw [hrun, run_poprfLastErrorMessage]
  show Option.map _ (match p.lastErrors thread with | some c => _ | none => _) = _
  cases p.lastErrors thread <;> rfl

/-- At any time after an operation, and until the next operation of the same thread, whatever other
threads do, the thread can read the message of the first check of the operation that failed, to the
byte; where no check failed, it reads NULL. -/
theorem messages_tell (hengine : base64.PrintsErrors) {p p' : Process S R} {thread fuel : ℕ}
    {call : Call} (hop : call.isOperation) {ret : Ret} {s : State S R}
    (hcall : (call.run base64 F fuel).run (p.view thread) = some (ret, s)) {trace : List Event}
    (hrun : Run (Process.Step base64 F) (p.resume thread s) trace p')
    (hquiet : ∀ event ∈ trace, ¬event.Operates thread) :
    (call.Failed ret ↔ (call.message base64 F fuel p.shared).isSome) ∧
    ∀ fuel', ∃ q s', (Call.run base64 F fuel' .poprfLastErrorMessage).run (p'.view thread) =
        some (.ptr q, s') ∧
      (call.message base64 F fuel p.shared = none → q = NULL) ∧
      ∀ text, call.message base64 F fuel p.shared = some text → q ≠ NULL ∧
        ∃ c : CString, s'.heap.get q = some ⟨.cChar, c⟩ ∧ c.bytes = utf8Bytes text := by
  have hleaves : s.lastError = (call.message base64 F fuel p.shared).map CString.ofMessage :=
    leaves_run F fuel hop _ _ _ hcall
  have hlast : p'.lastErrors thread =
      (call.message base64 F fuel p.shared).map CString.ofMessage := by
    rw [lastErrors_run hrun hquiet, ← hleaves]
    exact Function.update_self ..
  constructor
  · have hreport : s.lastError.isSome ↔ call.Failed ret := tracks_run base64 F fuel hop _ _ _ hcall
    rw [← hreport, hleaves, Option.isSome_map]
  · intro fuel'
    have hread := run_lastErrorMessage base64 F p' thread fuel'
    cases hmessage : call.message base64 F fuel p.shared with
    | none =>
      rw [hlast, hmessage] at hread
      exact ⟨NULL, _, hread, fun _ => rfl, fun _ h => absurd h.symm (Option.some_ne_none _)⟩
    | some text =>
      rw [hlast, hmessage] at hread
      refine ⟨_, _, hread, fun h => absurd h (Option.some_ne_none _), ?_⟩
      rintro _ ⟨⟩
      obtain ⟨msg, hmem, hmsg⟩ := List.exists_of_findSome?_eq_some hmessage
      refine ⟨p'.shared.heap.next_ne_zero, CString.ofMessage text, p'.shared.heap.get_alloc_next _, ?_⟩
      exact CString.bytes_ofMessage (nulFree_checks F fuel hengine p.shared call msg hmem text hmsg)

/-- The standard engine prints its errors without a NUL. -/
theorem printsErrors_standardBase64 : standardBase64.PrintsErrors := by
  intro s e h
  unfold standardBase64 at h
  dsimp only at h
  split at h
  · cases h
  · cases h
    decide

/-- A thread that passes a null pointer reads why its call failed, after another thread has made a table
without an error. -/
theorem messages_tell_reference : ∃ (p' : Process referenceSuite Replay) (q : Ptr)
    (s' : State referenceSuite Replay) (c : CString),
    (Call.run standardBase64 ⟨true, true⟩ 0 .poprfLastErrorMessage).run (p'.view 0) =
      some (.ptr q, s') ∧ s'.heap.get q = some ⟨.cChar, c⟩ ∧ c.bytes = ascii "invalid input pointer" := by
  have hcall : (Call.run standardBase64 ⟨true, true⟩ 0 (.poprfInputTableNew (.null 1))).run
      (freshProcess.view 0) = some (.ptr NULL, { freshProcess.shared with
        lastError := some (CString.ofMessage "invalid input pointer") }) := rfl
  let p := freshProcess.resume 0 { freshProcess.shared with
    lastError := some (CString.ofMessage "invalid input pointer") }
  -- another thread succeeds in between
  have hother : ((Call.run standardBase64 ⟨true, true⟩ 0 (.poprfInputTableNew (.points [2]))).run
      (p.view 1)).map Prod.fst = some (.ptr 1) := by
    decide +kernel
  obtain ⟨⟨ret, s⟩, hother, -⟩ := Option.map_eq_some_iff.mp hother
  have hrun : Run (Process.Step standardBase64 ⟨true, true⟩) p
      ([] ++ [.returns 1 (.poprfInputTableNew (.points [2])) ret s.memory]) (p.resume 1 s) :=
    .snoc .refl (.returns trivial hother)
  have hquiet : ∀ event ∈ [Event.returns 1 (.poprfInputTableNew (.points [2])) ret s.memory],
      ¬event.Operates 0 := by
    rw [List.forall_mem_singleton]
    exact fun h => absurd h.1 Nat.one_ne_zero
  obtain ⟨-, hread⟩ := messages_tell printsErrors_standardBase64 rfl hcall hrun hquiet
  obtain ⟨q, s', hq, -, htext⟩ := hread 0
  obtain ⟨-, c, hc, hbytes⟩ := htext "invalid input pointer" rfl
  exact ⟨p.resume 1 s, q, s', c, hq, hc, hbytes⟩

end Runs

end PoprfRistretto.Ffi
