import PoprfRistretto.Instrumented.Poprf
import PoprfRistretto.Library.Run

/-!
# Calls of the public interface

The values that a caller of the crate can hold, and every call by which it can get or use them. A
call takes byte strings, generators and values that earlier calls returned, so that a run of calls
is what a program that links the crate can do to it, less an explicit `zeroize`.
-/

namespace PoprfRistretto

open Instrumented

variable {G : Type} [AddCommGroup G] [Module Scalar G]

/-- A value of one of the public types. -/
inductive Value (S : Suite G) where
  | secretKey (sk : SecretKey)
  | publicKey (pk : PublicKey G)
  | blinded (blinded : BlindedElement G)
  | evaluated (evaluated : EvaluatedElement G)
  | proof (proof : Proof)
  | state (state : PoprfBlindState G)
  | output (output : PoprfOutput)
  | table (table : PoprfInputTable S)
  | client (client : PoprfClient G)
  | server (server : PoprfServer)

/-- A call of a public function with its arguments, `rng` of type `R` where it draws. -/
inductive Call (S : Suite G) (R : Type) where
  | secretKeyFromBytes (buf : Bytes)
  | publicKeyFromBytes (buf : Bytes)
  | blindedElementFromBytes (buf : Bytes)
  | evaluatedElementFromBytes (buf : Bytes)
  | proofFromBytes (buf : Bytes)
  | blindStateFromBytes (buf : Bytes)
  | outputFromBytes (buf : Bytes)
  | secretKeyPublicKey (sk : SecretKey)
  | generateKeyPair (fuel : ℕ) (rng : R)
  | deriveKeyPair (seed : BytesN 32) (info : Bytes)
  | clientNew (pk : PublicKey G)
  | clientPublicKey (client : PoprfClient G)
  | serverNew (sk : SecretKey)
  | serverGenerate (fuel : ℕ) (rng : R)
  | serverFromSeed (seed : BytesN 32) (info : Bytes)
  | serverPublicKey (server : PoprfServer)
  | serverSecretKey (server : PoprfServer)
  | blind (client : PoprfClient G) (fuel : ℕ) (input info : Bytes) (rng : R)
  | blindWithScalar (client : PoprfClient G) (input info : Bytes) (blindBytes : BytesN 32)
  | finalize (client : PoprfClient G) (input : Bytes) (state : PoprfBlindState G)
      (evaluated : EvaluatedElement G) (blinded : BlindedElement G) (proof : Proof) (info : Bytes)
  | finalizeBatch (client : PoprfClient G) (inputs : List Bytes) (states : List (PoprfBlindState G))
      (evaluated : List (EvaluatedElement G)) (blinded : List (BlindedElement G)) (proof : Proof)
      (info : Bytes)
  | blindEvaluate (server : PoprfServer) (fuel : ℕ) (rng : R) (blinded : BlindedElement G)
      (info : Bytes)
  | blindEvaluateWithProofScalar (server : PoprfServer) (blinded : BlindedElement G) (info : Bytes)
      (proofRBytes : BytesN 32)
  | blindEvaluateBatch (server : PoprfServer) (fuel : ℕ) (rng : R)
      (blinded : List (BlindedElement G)) (info : Bytes)
  | blindEvaluateBatchWithProofScalar (server : PoprfServer) (blinded : List (BlindedElement G))
      (info : Bytes) (proofRBytes : BytesN 32)
  | evaluate (server : PoprfServer) (input info : Bytes)
  | tableNew (input : Bytes)
  | evaluateTables (server : PoprfServer) (tables : List (PoprfInputTable S)) (info : Bytes)

namespace Call

variable {S : Suite G} {R : Type}

/-- The values that the caller has to hold. -/
def args : Call S R → List (Value S)
  | secretKeyPublicKey sk => [.secretKey sk]
  | clientNew pk => [.publicKey pk]
  | clientPublicKey client => [.client client]
  | serverNew sk => [.secretKey sk]
  | serverPublicKey server => [.server server]
  | serverSecretKey server => [.server server]
  | blind client _ _ _ _ => [.client client]
  | blindWithScalar client _ _ _ => [.client client]
  | finalize client _ state evaluated blinded proof _ =>
    [.client client, .state state, .evaluated evaluated, .blinded blinded, .proof proof]
  | finalizeBatch client _ states evaluated blinded proof _ =>
    .client client :: .proof proof ::
      (states.map .state ++ evaluated.map .evaluated ++ blinded.map .blinded)
  | blindEvaluate server _ _ blinded _ => [.server server, .blinded blinded]
  | blindEvaluateWithProofScalar server blinded _ _ => [.server server, .blinded blinded]
  | blindEvaluateBatch server _ _ blinded _ => .server server :: blinded.map .blinded
  | blindEvaluateBatchWithProofScalar server blinded _ _ => .server server :: blinded.map .blinded
  | evaluate server _ _ => [.server server]
  | evaluateTables server tables _ => .server server :: tables.map .table
  | _ => []

end Call

/-- What a call comes to: nothing when its generator drew no nonzero scalar within the fuel, else an
error or the values it returns. -/
abbrev Outcome (S : Suite G) := Option (Except Error (List (Value S)))

section Outcomes

variable {S : Suite G} {R α : Type} {f : α → List (Value S)}

/-- The outcome of a function that returns a `Result`. -/
def returns (f : α → List (Value S)) (res : Except Error α) : Outcome S := some (f <$> res)

/-- The outcome of a function that draws and returns a `Result`. -/
def draws (f : α → List (Value S)) (res : Option (Except Error α × R)) : Outcome S :=
  res.map fun (res, _) => f <$> res

/-- A call returns values exactly when its function succeeds with a result that has them. -/
theorem returns_eq_ok_iff {res : Except Error α} {values : List (Value S)} :
    returns f res = some (.ok values) ↔ ∃ a, res = .ok a ∧ f a = values := by
  cases res with
  | error e => simp [returns]
  | ok a => simp [returns]

/-- So does a call that draws, whatever it leaves of the generator. -/
theorem draws_eq_ok_iff {res : Option (Except Error α × R)} {values : List (Value S)} :
    draws f res = some (.ok values) ↔ ∃ a rng, res = some (.ok a, rng) ∧ f a = values := by
  cases res with
  | none => simp [draws]
  | some res =>
    obtain ⟨res, rng⟩ := res
    cases res with
    | error e => simp [draws]
    | ok a => simp [draws]

/-- The values of a key pair. -/
def keyPairValues : SecretKey × PublicKey G → List (Value S)
  | (sk, pk) => [.secretKey sk, .publicKey pk]

/-- The values of a blinded token: the state that the client keeps and the element that it sends. -/
def tokenValues : PoprfBlindState G × BlindedElement G → List (Value S)
  | (state, blinded) => [.state state, .blinded blinded]

/-- The values of a server's reply to one element. -/
def replyValues : EvaluatedElement G × Proof → List (Value S)
  | (evaluated, proof) => [.evaluated evaluated, .proof proof]

/-- The values of a server's reply to a batch, its one proof first. -/
def repliesValues : List (EvaluatedElement G) × Proof → List (Value S)
  | (evaluated, proof) => .proof proof :: evaluated.map .evaluated

end Outcomes

variable [DecidableEq G] {S : Suite G} {R : Type} [Rng R]

/-- The call as the crate runs it. -/
def Call.run (F : Features) : Call S R → Outcome S
  | secretKeyFromBytes buf => returns (fun sk => [.secretKey sk]) (SecretKey.fromBytes S buf)
  | publicKeyFromBytes buf => returns (fun pk => [.publicKey pk]) (PublicKey.fromBytes S buf)
  | blindedElementFromBytes buf => returns (fun b => [.blinded b]) (BlindedElement.fromBytes S buf)
  | evaluatedElementFromBytes buf =>
    returns (fun e => [.evaluated e]) (EvaluatedElement.fromBytes S buf)
  | proofFromBytes buf => returns (fun proof => [.proof proof]) (Proof.fromBytes S buf)
  | blindStateFromBytes buf => returns (fun st => [.state st]) (PoprfBlindState.fromBytes S buf)
  | outputFromBytes buf => returns (fun o => [.output o]) (PoprfOutput.fromBytes buf)
  | secretKeyPublicKey sk => some (.ok [.publicKey (sk.publicKey S)])
  | generateKeyPair fuel rng =>
    (PoprfRistretto.generateKeyPair S fuel rng).map fun (keys, _) => .ok (keyPairValues keys)
  | deriveKeyPair seed info => returns keyPairValues (PoprfRistretto.deriveKeyPair S seed info)
  | clientNew pk => some (.ok [.client (.new pk)])
  | clientPublicKey client => some (.ok [.publicKey client.publicKey])
  | serverNew sk => some (.ok [.server (.new sk)])
  | serverGenerate fuel rng =>
    (PoprfServer.generate S fuel rng).map fun (server, _) => .ok [.server server]
  | serverFromSeed seed info =>
    returns (fun server => [.server server]) (PoprfServer.fromSeed S seed info)
  | serverPublicKey server => some (.ok [.publicKey (server.publicKey S)])
  | serverSecretKey server => some (.ok [.secretKey server.secretKey])
  | blind client fuel input info rng => draws tokenValues (client.blind S fuel input info rng)
  | blindWithScalar client input info blindBytes =>
    returns tokenValues (client.blindWithScalar S input info blindBytes)
  | finalize client input state evaluated blinded proof info =>
    returns (fun o => [.output o]) (client.finalize S F input state evaluated blinded proof info)
  | finalizeBatch client inputs states evaluated blinded proof info =>
    returns (fun os => os.map .output)
      (client.finalizeBatch S F inputs states evaluated blinded proof info)
  | blindEvaluate server fuel rng blinded info =>
    draws replyValues (server.blindEvaluate S F fuel rng blinded info)
  | blindEvaluateWithProofScalar server blinded info proofRBytes =>
    returns replyValues (server.blindEvaluateWithProofScalar S F blinded info proofRBytes)
  | blindEvaluateBatch server fuel rng blinded info =>
    draws repliesValues (server.blindEvaluateBatch S F fuel rng blinded info)
  | blindEvaluateBatchWithProofScalar server blinded info proofRBytes =>
    returns repliesValues (server.blindEvaluateBatchWithProofScalar S F blinded info proofRBytes)
  | evaluate server input info => returns (fun o => [.output o]) (server.evaluate S input info)
  | tableNew input => returns (fun tb => [.table tb]) (PoprfInputTable.new S F input)
  | evaluateTables server tables info =>
    returns (fun os => os.map .output) (server.evaluateTables S tables info)

/-- The call with its events. The calls that are not listed reach none of the observed functions. -/
def Call.exec (F : Features) : Call S R → Logged Event (Outcome S)
  | deriveKeyPair seed info =>
    returns keyPairValues <$> (Instrumented.deriveKeyPair S seed info).run
  | serverFromSeed seed info =>
    returns (fun server => [.server server]) <$> (fromSeed S seed info).run
  | blind client fuel input info rng =>
    draws tokenValues <$> Instrumented.blind S client fuel input info rng
  | blindWithScalar client input info blindBytes =>
    returns tokenValues <$> (Instrumented.blindWithScalar S client input info blindBytes).run
  -- finalizing reads nothing of the client
  | finalize _ input state evaluated blinded proof info =>
    returns (fun o => [.output o]) <$>
      (Instrumented.finalize S F input state evaluated blinded proof info).run
  | finalizeBatch _ inputs states evaluated blinded proof info =>
    returns (fun os => os.map .output) <$>
      (Instrumented.finalizeBatch S F inputs states evaluated blinded proof info).run
  | blindEvaluate server fuel rng blinded info =>
    draws replyValues <$> Instrumented.blindEvaluate S F server fuel rng blinded info
  | blindEvaluateWithProofScalar server blinded info proofRBytes =>
    returns replyValues <$>
      (Instrumented.blindEvaluateWithProofScalar S F server blinded info proofRBytes).run
  | blindEvaluateBatch server fuel rng blinded info =>
    draws repliesValues <$> Instrumented.blindEvaluateBatch S F server fuel rng blinded info
  | blindEvaluateBatchWithProofScalar server blinded info proofRBytes =>
    returns repliesValues <$>
      (Instrumented.blindEvaluateBatchWithProofScalar S F server blinded info proofRBytes).run
  | evaluate server input info =>
    returns (fun o => [.output o]) <$> (Instrumented.evaluate S server input info).run
  | tableNew input => returns (fun tb => [.table tb]) <$> (newTable S F input).run
  | evaluateTables server tables info =>
    returns (fun os => os.map .output) <$> (Instrumented.evaluateTables S server tables info).run
  | c => pure (c.run F)

/-- Erasing the events of a call gives the call. -/
@[simp] theorem Call.value_exec (F : Features) (c : Call S R) : (c.exec F).value = c.run F := by
  cases c with
  | finalize client =>
    simp only [exec, run, Logged.value_map, value_finalize S F client]
  | finalizeBatch client =>
    simp only [exec, run, Logged.value_map, value_finalizeBatch S F client]
  | _ => simp [exec, run]

/-! ## Runs -/

/-- What a program holds, and what its calls logged so far. -/
structure Session (S : Suite G) where
  pool : List (Value S)
  log : List Event

/-- Before any call. -/
def Session.start : Session S := ⟨[], []⟩

/-- The values that a call returns. -/
def Call.results (F : Features) (c : Call S R) : List (Value S) :=
  match (c.exec F).value with
  | some (.ok values) => values
  | _ => []

/-- A call on values at hand. Its results are held from then on. -/
inductive Session.Step (F : Features) : Session S → Call S R → Session S → Prop
  | call {σ : Session S} {c : Call S R} (held : ∀ v ∈ c.args, v ∈ σ.pool) :
    Step F σ c ⟨σ.pool ++ c.results F, σ.log ++ (c.exec F).log⟩

/-- The sessions that a sequence of calls leads to. -/
def Session.Reached (F : Features) (calls : List (Call S R)) (σ : Session S) : Prop :=
  Run (Session.Step F) .start calls σ

/-- A value is returned by a call that succeeds. -/
theorem Call.mem_results_iff {F : Features} {c : Call S R} {v : Value S} :
    v ∈ c.results F ↔ ∃ values, c.run F = some (.ok values) ∧ v ∈ values := by
  unfold results
  rw [value_exec]
  split
  · rename_i values h
    simp [h]
  · rename_i h
    simp only [List.not_mem_nil, false_iff, not_exists, not_and]
    exact fun values hok => absurd hok (h values)

end PoprfRistretto
