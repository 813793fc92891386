import PoprfRistretto.Library.RejectionSampling
import PoprfRistretto.Wasm.Sessions

/-!
# What the messages of a JavaScript client show

`blindBatch` samples its blinds by rejection from the generator. Over all tapes of draws of one length,
every list of elements other than the identity is sent equally often, whatever the inputs are.
-/

namespace PoprfRistretto.Wasm

open Utf8 ExceptLoop Blinding RejectionSampling
open Ffi (Base64)
open Protocol (Request Made)

variable {G : Type} [AddCommGroup G] [Module Scalar G] [DecidableEq G]

/-! ## Tapes -/

/-- A generator whose draws are written on a tape. No scalar is drawn past its end. -/
structure Tape where
  scalars : List Scalar

/-- The next scalar of the tape is drawn; an empty tape yields zeros, which are redrawn. -/
instance : Rng Tape where
  scalarRandom
    | ⟨[]⟩ => (0, ⟨[]⟩)
    | ⟨s :: scalars⟩ => (s, ⟨scalars⟩)

/-- Drawing a scalar from a tape is drawing a sample from it. -/
theorem randomScalar_tape (fuel : ℕ) (scalars : List Scalar) :
    randomScalar fuel (Tape.mk scalars) =
      (draw fuel scalars).map fun sample => ((sample.1 : Scalar), ⟨sample.2⟩) := by
  induction fuel generalizing scalars with
  | zero => rfl
  | succ fuel ih =>
    cases scalars with
    | nil =>
      -- an empty tape yields zeros for ever
      have hend : ∀ k, randomScalar k (Tape.mk []) = none := by
        intro k
        induction k with
        | zero => rfl
        | succ k ih =>
          show (if (0 : Scalar) = 0 then randomScalar k (Tape.mk []) else some (0, Tape.mk [])) = none
          rw [if_pos rfl, ih]
      exact hend (fuel + 1)
    | cons s scalars =>
      show (if s = 0 then randomScalar fuel (Tape.mk scalars) else some (s, ⟨scalars⟩)) = _
      rw [draw]
      split
      · exact ih scalars
      · rfl

theorem randomScalar_tape_eq_some_iff {fuel : ℕ} {scalars rest : List Scalar} {b : Scalarˣ} :
    randomScalar fuel (Tape.mk scalars) = some ((b : Scalar), ⟨rest⟩) ↔
      draw fuel scalars = some (b, rest) := by
  rw [randomScalar_tape, Option.map_eq_some_iff]
  constructor
  · rintro ⟨⟨b', rest'⟩, hdraw, heq⟩
    obtain ⟨hb, hrest⟩ := Prod.mk.inj heq
    obtain rfl : b' = b := Units.ext hb
    obtain rfl : rest' = rest := Tape.mk.inj hrest
    exact hdraw
  · exact fun hdraw => ⟨_, hdraw, rfl⟩

/-! ## Messages -/

variable (S : Suite G) (host : Host) (base64 : Base64)

/-- The strings of blinded elements. -/
def elementStrings (elements : List (BlindedElement G)) : JsArray :=
  elements.map fun b => .string (base64.encode (b.toBytes S).toList)

/-- `blindBatch` returns these elements as its messages, and leaves the rest of the tape. -/
def Sends (fuel : ℕ) (publicKeyB64 : String) (inputs : JsArray) (info : Bytes)
    (tape rest : List Scalar) (elements : List (BlindedElement G)) : Prop :=
  ∃ out, blindBatch S host base64 fuel publicKeyB64 inputs info (Tape.mk tape) =
      some (.ok out, Tape.mk rest) ∧ out.blindedMessages = elementStrings S base64 elements

/-- The JavaScript value converts to an input that can be blinded under the key. -/
def Blindable (pk : PublicKey G) (info : Bytes) (val : JsValue) : Prop :=
  ∃ input, host.newUint8Array val = .ok input ∧ S.Admissible pk.point input info

variable {S host base64}

omit [DecidableEq G] in
/-- Different messages are sent as different strings. -/
theorem elementStrings_injective (hbase64 : base64.Lawful) :
    Function.Injective (elementStrings S base64 : List (BlindedElement G) → JsArray) := by
  refine List.map_injective_iff.mpr fun P Q h => ?_
  have hdecode := congrArg (fun s => base64.decode (utf8Bytes s)) (JsValue.string.inj h)
  simp only [hbase64.decode_encode] at hdecode
  have hpoint : P.point = Q.point := S.serializeElement_injective (Except.ok.inj hdecode)
  cases P
  exact congrArg BlindedElement.mk hpoint

omit [DecidableEq G] in
/-- The messages of requests are the strings of the blinded elements. -/
theorem messageStrings_eq {client : PoprfClient G} {info : Bytes} {requests : List (Request G)}
    {blinds : List Scalarˣ} (h : Made S client info requests blinds) :
    messageStrings base64 requests =
      elementStrings S base64 ((Protocol.points S requests blinds).map BlindedElement.mk) := by
  induction h with
  | nil => rfl
  | cons hreq _ ih =>
    refine List.cons_eq_cons.mpr ⟨?_, ih⟩
    exact congrArg (fun m : BytesN 32 => JsValue.string (base64.encode m.toList)) hreq.2.2.message

/-- For each list of elements there is one list of blinds with which the requests send it. -/
theorem exists_blinds (fuel : ℕ) {pk : PublicKey G} {info : Bytes} {inputs : JsArray}
    (hinputs : ∀ val ∈ inputs, Blindable S host pk info val) {points : List G}
    (hpoints : ∀ P ∈ points, P ≠ 0) (hlen : inputs.length = points.length) :
    ∃ blinds : List Scalarˣ, blinds.length = points.length ∧ ∀ tape rest : List Scalar,
      (∃ requests blinds', Requests S host fuel (.new pk) info inputs (Tape.mk tape) requests blinds'
        (Tape.mk rest) ∧ Protocol.points S requests blinds' = points) ↔
        drawMany fuel blinds.length tape = some (blinds, rest) := by
  induction inputs generalizing points with
  | nil =>
    obtain rfl := List.length_eq_zero_iff.mp hlen.symm
    refine ⟨[], rfl, fun tape rest => ?_⟩
    simp only [requests_nil_iff, List.length_nil, drawMany, Option.some.injEq, Prod.mk.injEq,
      true_and]
    constructor
    · rintro ⟨_, _, ⟨rfl, rfl, htape⟩, -⟩
      exact (Tape.mk.inj htape).symm
    · rintro rfl
      exact ⟨[], [], ⟨rfl, rfl, rfl⟩, rfl⟩
  | cons val inputs ih =>
    cases points with
    | nil => cases hlen
    | cons P points =>
      rw [List.forall_mem_cons] at hinputs hpoints
      obtain ⟨⟨input, hval, hadm⟩, hinputs⟩ := hinputs
      obtain ⟨hP, hpoints⟩ := hpoints
      obtain ⟨blinds, hblinds, hrest⟩ := ih hinputs hpoints (Nat.succ.inj hlen)
      -- exactly one blind takes this input to the point that was seen
      obtain ⟨b, hb⟩ := exists_ratio S.basepoint_generates hP hadm.inputElement_ne_zero
      refine ⟨b :: blinds, congrArg Nat.succ hblinds, fun tape rest => ?_⟩
      rw [List.length_cons, drawMany_succ_eq_some_iff]
      constructor
      · rintro ⟨_, _, hall, hsent⟩
        obtain ⟨input', token, requests, b', bs, ⟨tape'⟩, rfl, rfl, hval', hdraw, -, hrequests⟩ :=
          (requests_cons_iff S host).mp hall
        obtain rfl := Except.ok.inj (hval.symm.trans hval')
        obtain ⟨hfirst, hsent⟩ := List.cons.inj hsent
        -- the inputs are points other than the identity, so that the blind is determined
        have hsame : b' = b := Units.ext
          (smul_left_injective Scalar hadm.inputElement_ne_zero (hfirst.trans hb))
        subst hsame
        exact ⟨tape', randomScalar_tape_eq_some_iff.mp hdraw,
          (hrest tape' rest).mp ⟨_, _, hrequests, hsent⟩⟩
      · rintro ⟨tape', hdraw, hrun⟩
        obtain ⟨requests, bs, hrequests, hsent⟩ := (hrest tape' rest).mpr hrun
        have htoken := (PoprfClient.new pk).blindWithInner_of_admissible S hadm b
        refine ⟨_, _, (requests_cons_iff S host).mpr ⟨input, _, requests, b, bs, Tape.mk tape', rfl, rfl,
          hval, randomScalar_tape_eq_some_iff.mpr hdraw, htoken, hrequests⟩, ?_⟩
        exact congrArg₂ List.cons hb.symm hsent

/-- A list of elements is sent exactly when one list of blinds is drawn. -/
theorem exists_blinds_of_sends (hbase64 : base64.Lawful) {publicKeyB64 : String} {pk : PublicKey G}
    (hpk : Decodes base64 (PublicKey.fromBytes S) publicKeyB64 pk) {info : Bytes} {inputs : JsArray}
    (hinputs : ∀ val ∈ inputs, Blindable S host pk info val) {elements : List (BlindedElement G)}
    (helements : ∀ b ∈ elements, b.point ≠ 0) (hlen : inputs.length = elements.length) (fuel : ℕ) :
    ∃ blinds : List Scalarˣ, blinds.length = elements.length ∧ ∀ tape rest,
      Sends S host base64 fuel publicKeyB64 inputs info tape rest elements ↔
        drawMany fuel blinds.length tape = some (blinds, rest) := by
  have hpoints : ∀ P ∈ elements.map (·.point), P ≠ 0 := List.forall_mem_map.mpr helements
  obtain ⟨blinds, hblinds, hdrawn⟩ := exists_blinds fuel hinputs hpoints (by simpa using hlen)
  refine ⟨blinds, by simpa using hblinds, fun tape rest => ?_⟩
  have helem : (elements.map (·.point)).map BlindedElement.mk = elements := by
    rw [List.map_map]
    exact List.map_id _
  rw [← hdrawn tape rest]
  unfold Sends
  constructor
  · rintro ⟨out, hblind, hmessages⟩
    obtain ⟨pk', requests, bs, hpk', hrequests, rfl⟩ :=
      (blindBatch_eq_some_ok_iff S host base64).mp hblind
    obtain rfl := hpk'.unique hpk
    refine ⟨requests, bs, hrequests, ?_⟩
    -- the strings determine the elements
    have hsent := elementStrings_injective hbase64
      ((messageStrings_eq hrequests.made).symm.trans hmessages)
    rw [← hsent, List.map_map]
    exact (List.map_id _).symm
  · rintro ⟨requests, bs, hrequests, hsent⟩
    refine ⟨_, (blindBatch_eq_some_ok_iff S host base64).mpr ⟨pk, requests, bs, hpk, hrequests, rfl⟩,
      (messageStrings_eq hrequests.made).trans ?_⟩
    rw [hsent, helem]

/-- The messages of a JavaScript client are independent of its inputs, and uniform: of the tapes of `n`
draws that leave a given rest, equally many make `blindBatch` send one list of elements for the inputs
`xs` as make it send another list for the inputs `ys`. Every list of elements other than the identity
is sent for some tape. -/
theorem blindBatch_hides (S : Suite G) (host : Host) (hbase64 : base64.Lawful) {publicKeyB64 : String}
    {pk : PublicKey G} (hpk : Decodes base64 (PublicKey.fromBytes S) publicKeyB64 pk) {info : Bytes}
    {xs ys : JsArray} (hxs : ∀ val ∈ xs, Blindable S host pk info val)
    (hys : ∀ val ∈ ys, Blindable S host pk info val) {Ps Qs : List (BlindedElement G)}
    (hPs : ∀ P ∈ Ps, P.point ≠ 0) (hQs : ∀ Q ∈ Qs, Q.point ≠ 0) (hxP : xs.length = Ps.length)
    (hyQ : ys.length = Qs.length) (hxy : xs.length = ys.length) (fuel n : ℕ) (rest : List Scalar) :
    Nat.card {tape : List.Vector Scalar n //
        Sends S host base64 fuel publicKeyB64 xs info tape.toList rest Ps} =
      Nat.card {tape : List.Vector Scalar n //
        Sends S host base64 fuel publicKeyB64 ys info tape.toList rest Qs} ∧
    (0 < fuel → ∃ tape : List Scalar, tape.length = Ps.length + rest.length ∧
      Sends S host base64 fuel publicKeyB64 xs info tape rest Ps) := by
  obtain ⟨bs, hbs, hsendsP⟩ := exists_blinds_of_sends hbase64 hpk hxs hPs hxP fuel
  obtain ⟨cs, hcs, hsendsQ⟩ := exists_blinds_of_sends hbase64 hpk hys hQs hyQ fuel
  simp only [hsendsP, hsendsQ]
  refine ⟨card_drawMany_eq fuel n (by omega) rest, fun hfuel => ?_⟩
  exact ⟨_, by rw [List.length_append, List.length_map, hbs], drawMany_append hfuel bs rest⟩

/-- A client of the key `5` sends `2` and `3` for its two inputs as often as it sends `3` and `3` for two
other inputs. -/
theorem blindBatch_hides_reference : ∃ publicKeyB64 : String,
    Nat.card {tape : List.Vector Scalar 5 //
        Sends referenceSuite referenceHost Ffi.standardBase64 4 publicKeyB64 referenceInputs [1]
          tape.toList [0] [⟨2⟩, ⟨3⟩]} =
      Nat.card {tape : List.Vector Scalar 5 //
        Sends referenceSuite referenceHost Ffi.standardBase64 4 publicKeyB64
          [.uint8Array [4], .uint8Array [2]] [1] tape.toList [0] [⟨3⟩, ⟨3⟩]} ∧
    ∃ tape : List Scalar, tape.length = 3 ∧
      Sends referenceSuite referenceHost Ffi.standardBase64 4 publicKeyB64 referenceInputs [1] tape [0]
        [⟨2⟩, ⟨3⟩] := by
  let pk : PublicKey Scalar := ⟨(5 : Scalar) • referenceSuite.basepoint⟩
  have hpk : Decodes Ffi.standardBase64 (PublicKey.fromBytes referenceSuite)
      (Ffi.standardBase64.encode (pk.toBytes referenceSuite).toList) pk :=
    ⟨_, Ffi.standardBase64_lawful.decode_encode _,
      (PublicKey.fromBytes_eq_ok_iff referenceSuite).mpr ⟨rfl, by decide +kernel⟩⟩
  have h2 : Blindable referenceSuite referenceHost pk [1] (.uint8Array [2]) :=
    ⟨[2], rfl, by decide, by decide, by decide +kernel, by decide +kernel⟩
  have h3 : Blindable referenceSuite referenceHost pk [1] (.uint8Array [3]) :=
    ⟨[3], rfl, by decide, by decide, by decide +kernel, by decide +kernel⟩
  have h4 : Blindable referenceSuite referenceHost pk [1] (.uint8Array [4]) :=
    ⟨[4], rfl, by decide, by decide, by decide +kernel, by decide +kernel⟩
  have hxs : ∀ val ∈ referenceInputs, Blindable referenceSuite referenceHost pk [1] val :=
    List.forall_mem_cons.mpr ⟨h2, List.forall_mem_singleton.mpr h3⟩
  have hys : ∀ val ∈ [JsValue.uint8Array [4], .uint8Array [2]],
      Blindable referenceSuite referenceHost pk [1] val :=
    List.forall_mem_cons.mpr ⟨h4, List.forall_mem_singleton.mpr h2⟩
  have hPs : ∀ P ∈ ([⟨2⟩, ⟨3⟩] : List (BlindedElement Scalar)), P.point ≠ 0 := by decide +kernel
  have hQs : ∀ Q ∈ ([⟨3⟩, ⟨3⟩] : List (BlindedElement Scalar)), Q.point ≠ 0 := by decide +kernel
  have hides := blindBatch_hides referenceSuite referenceHost Ffi.standardBase64_lawful hpk hxs hys hPs hQs
    rfl rfl rfl 4 5 [0]
  exact ⟨_, hides.1, hides.2 (by decide)⟩

end PoprfRistretto.Wasm
