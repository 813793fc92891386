import PoprfRistretto.Library.Memory
import PoprfRistretto.Library.Utf8
import PoprfRistretto.Poprf.Server

/-!
# The state behind the C ABI

What the C ABI reads and writes: the thread-local last error, the boxes that it hands out, the
caller's arrays of pointers and the operating system's generator. A call outside of its safety
contract is undefined behaviour, modelled as no result.
-/

namespace PoprfRistretto.Ffi

open Memory Utf8

variable {G : Type} [AddCommGroup G] [Module Scalar G]

/-- A pointer, or the address of a pointer-sized cell. -/
abbrev Ptr := ℕ

/-- `ptr::null()`, and `ptr::null_mut()`. -/
def NULL : Ptr := 0

/-- `CString`: bytes without a NUL, which ends the string. -/
structure CString where
  bytes : Bytes
  nul_not_mem : 0 ∉ bytes

/-- `CString::new`. -/
def CString.new (bytes : Bytes) : Option CString :=
  if h : 0 ∉ bytes then some ⟨bytes, h⟩ else none

/-- The bytes of a C string have no NUL. -/
theorem CString.new_bytes (s : CString) : CString.new s.bytes = some s := dif_pos s.nul_not_mem

/-- The pairs `(ptr, len)` by which bytes are passed. -/
inductive RawSlice where
  | null (len : ℕ)
  | points (bytes : Bytes)

/-- The engine `STANDARD` of the `base64` crate, with the text of its errors. -/
structure Base64 where
  encode : Bytes → String
  decode : Bytes → Except String Bytes

/-- The types that are passed by pointer. -/
inductive HandleType where
  | secretKey
  | publicKey
  | blindedElement
  | evaluatedElement
  | proof
  | inputTable
  | output
  | cChar
deriving DecidableEq

/-- The values of a type that is passed by pointer. -/
abbrev HandleType.Value (S : Suite G) : HandleType → Type
  | secretKey => SecretKey
  | publicKey => PublicKey G
  | blindedElement => BlindedElement G
  | evaluatedElement => EvaluatedElement G
  | proof => Proof
  | inputTable => PoprfInputTable S
  | output => PoprfOutput
  | cChar => CString

/-- A value on the heap of the library. -/
structure Boxed (S : Suite G) where
  type : HandleType
  value : type.Value S

/-- The value of a box that is expected to be of type `t`. -/
def Boxed.cast {S : Suite G} (t : HandleType) (b : Boxed S) : Option (t.Value S) :=
  if h : b.type = t then some (h ▸ b.value) else none

/-- A cast succeeds on the box of a value of the type. -/
@[simp] theorem Boxed.cast_eq_some_iff {S : Suite G} {t : HandleType} {b : Boxed S}
    {v : t.Value S} : b.cast t = some v ↔ b = ⟨t, v⟩ := by
  obtain ⟨t', v'⟩ := b
  unfold Boxed.cast
  constructor
  · intro h
    split at h
    · rename_i ht
      obtain rfl : t' = t := ht
      obtain rfl := Option.some.inj h
      rfl
    · cases h
  · intro h
    cases h
    exact dif_pos rfl

/-- The pointer-sized cells of the caller: a cell is absent, uninitialised or holds a pointer, whatever
the type of what it points to. -/
abbrev CallerMemory := Ptr → Option (Option Ptr)

/-- What the threads of a process share. -/
structure Shared (S : Suite G) (R : Type) where
  heap : Heap (Boxed S)
  memory : CallerMemory
  osRng : R

/-- What a thread sees. -/
structure State (S : Suite G) (R : Type) extends Shared S R where
  /-- `LAST_ERROR`. -/
  lastError : Option CString

/-- A computation of the C ABI. -/
abbrev CAbi (S : Suite G) (R : Type) := StateT (State S R) Option

variable {S : Suite G} {R : Type}

/-! ## The last error -/

/-- `CString::new("error")`. -/
def errorText : CString := ⟨ascii "error", by decide⟩

/-- A message with a NUL is replaced by the text `error`. -/
def setError (msg : String) : CAbi S R Unit :=
  modify fun s => { s with lastError := some ((CString.new (utf8Bytes msg)).getD errorText) }

/-- Every call but the destructors and the error message itself starts with it. -/
def clearError : CAbi S R Unit := modify fun s => { s with lastError := none }

/-- `set_error(msg)`, then `return ret`. -/
def failWith {α : Type} (msg : String) (ret : α) : CAbi S R α := do
  setError msg
  return ret

/-! ## Pointers -/

/-- `Box::into_raw(Box::new(v))`, and `CString::into_raw`. -/
def intoRaw (t : HandleType) (v : t.Value S) : CAbi S R Ptr := fun s =>
  let (p, heap) := s.heap.alloc ⟨t, v⟩
  some (p, { s with heap })

/-- `drop(Box::from_raw(p))`, and `drop(CString::from_raw(p))`. -/
def dropRaw (t : HandleType) (p : Ptr) : CAbi S R Unit := fun s => do
  let _ ← (← s.heap.get p).cast t
  return ((), { s with heap := s.heap.free p })

/-- `*p`. -/
def deref (t : HandleType) (p : Ptr) : CAbi S R (t.Value S) := fun s => do
  let v ← (← s.heap.get p).cast t
  return (v, s)

/-- Read a pointer from a cell of the caller, which must be initialised. -/
def readPointer (cell : Ptr) : CAbi S R Ptr := fun s => do
  let p ← (s.memory cell).join
  return (p, s)

/-- `slice::from_raw_parts(arr, n)` for an array of pointers. -/
def pointersFromRaw (arr : Ptr) (n : ℕ) : CAbi S R (List Ptr) :=
  (List.range n).mapM fun i => readPointer (arr + i)

/-- `slice::from_raw_parts_mut(arr, n)` for an array of pointers. The slice refers to its elements, so
that they must be initialised although they are only written. -/
def pointersFromRawMut (arr : Ptr) (n : ℕ) : CAbi S R (List Ptr) := pointersFromRaw arr n

/-- Write a pointer into a cell of the caller, initialised or not. -/
def writePointer (cell p : Ptr) : CAbi S R Unit := fun s => do
  let memory ← writeCell s.memory cell (some p)
  return ((), { s with memory })

/-- Draw from `OsRng`. -/
def withOsRng {α : Type} (f : R → Option (α × R)) : CAbi S R α := fun s => do
  let (a, osRng) ← f s.osRng
  return (a, { s with osRng })

section Runs

variable {s s' : State S R}

/-- A pointer is followed to a value of its type. -/
theorem run_deref_eq_some_iff {t : HandleType} {p : Ptr} {v : t.Value S} :
    (deref t p).run s = some (v, s') ↔ s.heap.get p = some ⟨t, v⟩ ∧ s = s' := by
  show ((s.heap.get p).bind fun b => (b.cast t).bind fun v => some (v, s)) = _ ↔ _
  simp [Option.bind_eq_some_iff]

/-- A value of the type of the pointer is freed. -/
theorem run_dropRaw_eq_some_iff {t : HandleType} {p : Ptr} {u : Unit} :
    (dropRaw t p).run s = some (u, s') ↔
      (∃ v, s.heap.get p = some ⟨t, v⟩) ∧ { s with heap := s.heap.free p } = s' := by
  show ((s.heap.get p).bind fun b => (b.cast t).bind fun v =>
    some ((), { s with heap := s.heap.free p })) = _ ↔ _
  simp [Option.bind_eq_some_iff]

/-- A read finds an initialised cell. -/
theorem run_readPointer_eq_some_iff {cell p : Ptr} :
    (readPointer cell).run s = some (p, s') ↔ s.memory cell = some (some p) ∧ s = s' := by
  show ((s.memory cell).join.bind fun p => some (p, s)) = _ ↔ _
  simp [Option.bind_eq_some_iff, Option.join_eq_some_iff]

/-- A write finds a cell, and changes no other. -/
theorem run_writePointer_eq_some_iff {cell p : Ptr} {u : Unit} :
    (writePointer cell p).run s = some (u, s') ↔ (s.memory cell).isSome ∧
      { s with memory := Function.update s.memory cell (some (some p)) } = s' := by
  show ((writeCell s.memory cell (some p)).bind fun memory =>
    some ((), { s with memory })) = _ ↔ _
  simp [Option.bind_eq_some_iff, writeCell_eq_some_iff]

/-- A draw leaves the generator behind. -/
theorem run_withOsRng_eq_some_iff {α : Type} {f : R → Option (α × R)} {a : α} :
    (withOsRng f : CAbi S R α).run s = some (a, s') ↔
      ∃ osRng, f s.osRng = some (a, osRng) ∧ { s with osRng } = s' := by
  show ((f s.osRng).bind fun p => some (p.1, { s with osRng := p.2 })) = _ ↔ _
  simp [Option.bind_eq_some_iff]

end Runs

/-! ## Helpers -/

/-- NULL is an empty slice when its length is zero, and invalid otherwise. -/
def bytesFromRaw : RawSlice → Option Bytes
  | .null len => if len = 0 then some [] else none
  | .points bytes => some bytes

/-- Base64-encode into a C string that the caller owns. -/
def cstringOrNull (base64 : Base64) (buf : Bytes) : CAbi S R Ptr :=
  match CString.new (utf8Bytes (base64.encode buf)) with
  | some c => intoRaw .cChar c
  | none => failWith "internal: NUL in base64 output" NULL

end PoprfRistretto.Ffi
