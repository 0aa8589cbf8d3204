import Mobility.Trips.Admission

/-!
# Acknowledgements — the answer to a delivered batch

The endpoint answers with the stored row: its counts, its signed receipt, and the
disposition of every sample in request order.  A batch that is delivered again is answered
from the row of its key, once the gates before the lookup let the delivery through.
-/

namespace Mobility
namespace Trips

open Lib
open Payout (Digest)

/-! ## The answer (`api/v1/trips.py`) -/

inductive PingSampleStatus
  | accepted
  | rejected
  deriving DecidableEq, Repr

structure PingSampleResult where
  index : Nat
  sequenceNumber : Option Nat
  status : PingSampleStatus
  rejectionCode : Option String
  deriving DecidableEq, Repr

/-- The line of `rejection_manifest_document` for one sample. -/
def sampleResult (disposition : Option Nat × Option String) (index : Nat) : PingSampleResult :=
  { index := index
    sequenceNumber := disposition.1
    status := if disposition.2.isNone then .accepted else .rejected
    rejectionCode := disposition.2 }

/-- `manifest_sample_results`. -/
def manifestSampleResults (rejectionManifest : List (Option Nat × Option String)) :
    List PingSampleResult :=
  rejectionManifest.zipIdx.map (fun line => sampleResult line.1 line.2)

/-- The row's own identifier is left out: a row is named by its trip and key. -/
structure LocationPingBatchResponse where
  tripId : Id
  acceptedCount : Nat
  submittedCount : Nat
  rejectedCount : Nat
  batchSequence : Nat
  payloadHashVersion : Nat
  payloadHash : Digest
  outcome : Option BatchOutcome
  evidenceScope : EvidenceScope
  receipt : Option Receipt
  sampleResults : List PingSampleResult
  duplicate : Bool
  deriving DecidableEq, Repr

def batchReceiptFields (tripId : Id) (row : LocationPingBatch) (duplicate : Bool) :
    LocationPingBatchResponse :=
  { tripId := tripId
    acceptedCount := row.pingsAccepted
    submittedCount := row.pingsSubmitted
    rejectedCount := row.pingsRejected
    batchSequence := row.batchSequence
    payloadHashVersion := row.payloadHashVersion
    payloadHash := row.payloadHash
    outcome := row.receiptOutcome
    evidenceScope := row.evidenceScope
    receipt := row.receipt
    sampleResults := manifestSampleResults row.rejectionManifest
    duplicate := duplicate }

def TripSession.batch? (trip : TripSession) (idempotencyKey : String) : Option LocationPingBatch :=
  trip.batches.find? (·.idempotencyKey = idempotencyKey)

section

variable [Evidence]

/-- `driver_ingest_location_pings`: the committed store, and the answer from the row of the
key.  A refusal commits nothing. -/
def driverIngestLocationPings (settings : Settings) (authority : CaptureAuthority)
    (driverProfileId tripId : Id) (payload : LocationPingBatchCreate) (clock : Int) (s : Store) :
    Except AppError (Store × LocationPingBatchResponse) := do
  let before ← demand (s.driverTrip? driverProfileId tripId) tripNotFound
  let s' ← ingestLocationPingBatch settings authority driverProfileId tripId payload clock s
  let after ← demand (s'.driverTrip? driverProfileId tripId) tripNotFound
  let row ← demand (after.batch? payload.idempotencyKey) tripNotFound
  return (s', batchReceiptFields tripId row (before.batch? payload.idempotencyKey).isSome)

end

/-! ## The row of a new batch -/

section Rows

/-- What becomes of one sample of a batch. -/
def disposition (t : TripSession) (authority : CaptureAuthority) (dropped : Bool) (now : Int)
    (ping : LocationPing) : Option AppError :=
  if dropped then some payAlreadyCalculated else classifyPing t authority now ping

/-- The row counts what it stores. -/
structure Counted (b : LocationPingBatch) : Prop where
  counts : b.pingsAccepted + b.pingsRejected = b.pingsSubmitted
  inserted : b.pings.length = b.pingsAccepted
  dispositions : b.rejectionManifest.length = b.pingsSubmitted

/-- The row answers for every sample of the payload in its place, and holds the accepted
ones, once each. -/
structure AnswersFor (payload : LocationPingBatchCreate) (b : LocationPingBatch) : Prop where
  key : b.idempotencyKey = payload.idempotencyKey
  sequence : payload.batchSequence = some b.batchSequence
  submitted : b.pingsSubmitted = payload.pings.length
  order : (manifestSampleResults b.rejectionManifest).map (fun r => (r.index, r.sequenceNumber))
    = payload.pings.zipIdx.map (fun sample => (sample.2, sample.1.sequenceNumber))
  accepted : b.pings = ((payload.pings.zip (manifestSampleResults b.rejectionManifest)).filter
    (fun sample => sample.2.status = .accepted)).map (·.1)

variable {t : TripSession} {authority : CaptureAuthority} {payload : LocationPingBatchCreate}

theorem zip_map_self {α β : Type} (f : α → β) (l : List α) :
    l.zip (l.map f) = l.map (fun a => (a, f a)) := by
  induction l with
  | nil => rfl
  | cons a l ih => rw [List.map_cons, List.zip_cons_cons, ih, List.map_cons]

section

variable [Evidence]

theorem newBatch_pings (sequence : Nat) (digest : Digest) (dropped : Bool) (now : Int) :
    (newBatch t authority payload sequence digest dropped now).pings
      = payload.pings.filter (fun ping => (disposition t authority dropped now ping).isNone) := by
  simp only [newBatch, zip_map_self, List.filterMap_map]
  rw [← List.filterMap_eq_filter]
  refine List.filterMap_congr fun ping _ => ?_
  rw [Function.comp_apply, Option.guard, disposition]

theorem newBatch_dispositions (sequence : Nat) (digest : Digest) (dropped : Bool) (now : Int) :
    (newBatch t authority payload sequence digest dropped now).rejectionManifest
      = payload.pings.map (fun ping =>
        (ping.sequenceNumber, (disposition t authority dropped now ping).map (·.code))) := by
  simp only [newBatch, zip_map_self, List.map_map]
  rfl

end

/-- The answers of a batch, sample by sample, counted from any place on. -/
theorem zip_sampleResults (f : LocationPing → Option AppError) (pings : List LocationPing)
    (start : Nat) :
    ((pings.zip (((pings.map (fun ping => (ping.sequenceNumber, (f ping).map (·.code)))).zipIdx
        start).map (fun line => sampleResult line.1 line.2))).filter
      (fun sample => sample.2.status = .accepted)).map (·.1)
      = pings.filter (fun ping => (f ping).isNone) := by
  induction pings generalizing start with
  | nil => rfl
  | cons ping pings ih =>
      have hrest := ih (start + 1)
      simp only [List.map_cons, List.zipIdx_cons, List.zip_cons_cons, List.filter_cons]
      cases hping : f ping with
      | none => simpa [sampleResult] using hrest
      | some e => simpa [sampleResult] using hrest

theorem order_sampleResults (f : LocationPing → Option AppError) (pings : List LocationPing)
    (start : Nat) :
    (((pings.map (fun ping => (ping.sequenceNumber, (f ping).map (·.code)))).zipIdx start).map
        (fun line => sampleResult line.1 line.2)).map (fun r => (r.index, r.sequenceNumber))
      = (pings.zipIdx start).map (fun sample => (sample.2, sample.1.sequenceNumber)) := by
  induction pings generalizing start with
  | nil => rfl
  | cons ping pings ih =>
      simp only [List.map_cons, List.zipIdx_cons]
      rw [ih (start + 1)]
      rfl

variable [Evidence] {settings : Settings} {s : Store} {clock : Int} {b : LocationPingBatch}

theorem Admits.counted (h : Admits settings s t authority payload clock b) : Counted b := by
  rcases h.shape with ⟨sequence, digest, outcome, receipt, -, -, rfl⟩
  have hle : (newBatch t authority payload sequence digest (Dropped s t payload)
      (utcNow clock)).pings.length ≤ payload.pings.length := by
    rw [newBatch_pings]
    exact List.length_filter_le _ _
  refine ⟨Nat.add_sub_cancel' hle, rfl, ?_⟩
  dsimp only
  rw [newBatch_dispositions, List.length_map]
  rfl

theorem Admits.answersFor (h : Admits settings s t authority payload clock b) :
    AnswersFor payload b := by
  rcases h.shape with ⟨sequence, digest, outcome, receipt, hsequence, -, rfl⟩
  refine ⟨rfl, hsequence, rfl, ?_, ?_⟩
  · dsimp only
    rw [newBatch_dispositions]
    exact order_sampleResults _ _ 0
  · dsimp only
    rw [newBatch_pings, newBatch_dispositions]
    exact (zip_sampleResults _ _ 0).symm

end Rows

/-! ## Rows are never rewritten -/

section Kept

variable [Evidence] {settings : Settings} {s s' : Store} {t t' : TripSession} {a : TripAction}

/-- Only an admitted batch changes the batches of a trip. -/
theorem RowChange.batches (h : RowChange settings s a t t') :
    t'.batches = t.batches ∨ ∃ authority payload clock b,
      Admits settings s t authority payload clock b ∧ t'.batches = t.batches ++ [b] := by
  cases h with
  | same => exact .inl rfl
  | ingested hadmits => exact .inr ⟨_, _, _, _, hadmits, rfl⟩
  | ended h =>
      simp only [endTripRow, bind_eq_ok, require_eq_ok] at h
      rcases h with ⟨_, _, _, _, manifest, _, _, _, _, _, completeness, _, h⟩
      split_ifs at h
      · -- sealing signs and stamps the trip, and keeps its batches
        rcases verifyAndSeal_eq (by simp [endWith]) h with ⟨_, _, _, _, _, _, _, rfl⟩
        exact .inl rfl
      · rw [← pure_eq_ok.mp h]
        exact .inl rfl
  | autoEnded h =>
      unfold autoEndTripRow at h
      split_ifs at h
      · rw [← pure_eq_ok.mp h]
        exact .inl rfl
      · simp only [bind_eq_ok] at h
        rcases h with ⟨_, _, completeness, _, h⟩
        split_ifs at h
        · rcases verifyAndSeal_eq (by simp [endWith]) h with ⟨_, _, _, _, _, _, _, rfl⟩
          exact .inl rfl
        · rw [← pure_eq_ok.mp h]
          exact .inl rfl
  | reconciled h =>
      simp only [reconcileTripRow, bind_eq_ok, require_eq_ok] at h
      rcases h with ⟨_, _, _, hstatus, _, _, h⟩
      split_ifs at h
      · simp only [bind_eq_ok, require_eq_ok, pure_eq_ok] at h
        rcases h with ⟨_, _, _, _, rfl⟩
        exact .inl rfl
      · simp only [bind_eq_ok, require_eq_ok, pure_eq_ok] at h
        rcases h with ⟨_, _, _, _, rfl⟩
        exact .inl rfl
      · simp only [bind_eq_ok] at h
        rcases h with ⟨completeness, _, h⟩
        split_ifs at h
        · rcases verifyAndSeal_eq hstatus h with ⟨_, _, _, _, _, _, _, rfl⟩
          exact .inl rfl
        · simp only [bind_eq_ok, require_eq_ok] at h
          rcases h with ⟨_, _, h⟩
          rcases signAdjudicationReceipt_eq h with ⟨_, rfl⟩
          exact .inl rfl
  | expired _ h =>
      rcases expireGrace_eq h with ⟨_, rfl⟩
      exact .inl rfl

/-- Every stored row counts what it stores. -/
theorem counted_of_reachable (hs : Reachable (fleet settings) s) :
    ∀ t ∈ s.trips, ∀ b ∈ t.batches, Counted b := by
  refine hs.invariant_of (TripsInv settings) (fun _ => tripsInv_of_reachable)
    (fun s => ∀ t ∈ s.trips, ∀ b ∈ t.batches, Counted b) ?_ ?_
  · intro t ht
    exact absurd ht List.not_mem_nil
  · intro s a s' hinv hcounted _ hstep t' ht' b hb
    rcases tripStep_rows hinv.keys hstep with ⟨rows, added, hrows, hstarted, htrips⟩
    rcases List.mem_append.mp (htrips ▸ ht') with ht' | ht'
    · rcases exists_of_mem_forall₂ hrows ht' with ⟨t, ht, hchange⟩
      rcases hchange.batches with hsame | ⟨_, _, _, new, hadmits, happended⟩
      · exact hcounted t ht b (hsame ▸ hb)
      · rw [happended] at hb
        rcases List.mem_append.mp hb with hb | hb
        · exact hcounted t ht b hb
        · exact List.mem_singleton.mp hb ▸ hadmits.counted
    · cases hstarted with
      | none => exact absurd ht' List.not_mem_nil
      | start _ _ _ =>
          rw [List.mem_singleton.mp ht'] at hb
          exact absurd hb List.not_mem_nil

/-- The trip's row in a later state holds its batches. -/
theorem run_keepsBatches :
    ∀ {as : List TripAction} {s s' : Store} {t : TripSession}, Reachable (fleet settings) s →
      t ∈ s.trips → (fleet settings).run s as = .ok s' →
      ∃ t' ∈ s'.trips, SameTrip t t' ∧ ∀ b ∈ t.batches, b ∈ t'.batches := by
  intro as
  induction as with
  | nil =>
      intro s s' t _ ht hrun
      have hsame : s = s' := by simpa [Machine.run] using hrun
      exact ⟨t, hsame ▸ ht, ⟨rfl, rfl, rfl, rfl, rfl, rfl⟩, fun _ hb => hb⟩
  | cons a as ih =>
      intro s s' t hs ht hrun
      rcases bind_eq_ok.mp hrun with ⟨s₁, hstep, hrest⟩
      have hinv := tripsInv_of_reachable hs
      rcases exists_row hinv.keys hstep ht with ⟨t₁, ht₁, hchange⟩
      have hsame := hchange.sameTrip (hinv.wellFormed t ht)
      rcases ih (.step hs trivial hstep) ht₁ hrest with ⟨t', ht', hkept, hbatches⟩
      refine ⟨t', ht', ?_, fun b hb => hbatches b ?_⟩
      · exact ⟨hkept.1.trans hsame.1, hkept.2.1.trans hsame.2.1, hkept.2.2.1.trans hsame.2.2.1,
          hkept.2.2.2.1.trans hsame.2.2.2.1, hkept.2.2.2.2.1.trans hsame.2.2.2.2.1,
          hkept.2.2.2.2.2.trans hsame.2.2.2.2.2⟩
      · rcases hchange.batches with hsame | ⟨_, _, _, _, _, happended⟩
        · exact hsame ▸ hb
        · exact happended ▸ List.mem_append_left _ hb

end Kept

/-! ## One delivery -/

section Deliveries

variable [Evidence] {settings : Settings} {s s' : Store} {t : TripSession}
variable {authority : CaptureAuthority} {driverProfileId tripId : Id}
variable {payload : LocationPingBatchCreate} {clock : Int} {b : LocationPingBatch}
variable {r : LocationPingBatchResponse}

/-- The gates that stand before the lookup of the stored batch. -/
structure GatesOpen (settings : Settings) (s : Store) (t : TripSession)
    (authority : CaptureAuthority) : Prop where
  assignment : t.status = .active → s.financialCutoff t.campaignId = none →
    authority.assignmentActive = .ok ⟨⟩
  signable : ∃ key, signingKey settings s.signingKeyVersion = .ok key

/-- The payload is the one the row was stored for, as far as its digest tells. -/
def Repeats (payload : LocationPingBatchCreate) (b : LocationPingBatch) : Prop :=
  payload.batchSequence = some b.batchSequence ∧ batchPayloadHash payload = .ok b.payloadHash

theorem batch?_eq_some (hinv : TripsInv settings s) (ht : t ∈ s.trips) (hb : b ∈ t.batches)
    {idempotencyKey : String} (hkey : b.idempotencyKey = idempotencyKey) :
    t.batch? idempotencyKey = some b :=
  lookup_eq_some (hinv.wellFormed t ht).batchKeys hb hkey

/-- A stored key is answered from its row, through the gates and for its own payload only. -/
theorem ingest_stored (hinv : TripsInv settings s) (ht : t ∈ s.trips) (hb : b ∈ t.batches)
    (hkey : b.idempotencyKey = payload.idempotencyKey) :
    ingestLocationPingBatch settings authority t.driverProfileId t.id payload clock s = .ok s'
      ↔ s' = s ∧ GatesOpen settings s t authority ∧ Repeats payload b := by
  have hfind : t.batches.find? (·.idempotencyKey = payload.idempotencyKey) = some b :=
    batch?_eq_some hinv ht hb hkey
  have hreceipt := (hinv.sound t ht).receipts b hb
  -- a repetition is answered only for the same payload and sequence number
  have hduplicate : ∀ sequence digest u, duplicateBatch settings t b sequence digest = .ok u
      ↔ b.payloadHash = digest ∧ b.batchSequence = sequence := by
    intro sequence digest u
    by_cases hsame : b.payloadHash = digest ∧ b.batchSequence = sequence
    · simp only [duplicateBatch]
      rw [if_pos hsame, hreceipt]
      exact ⟨fun _ => hsame, fun _ => rfl⟩
    · simp only [duplicateBatch]
      rw [if_neg hsame]
      exact ⟨fun h => absurd h (by simp), fun h => absurd h hsame⟩
  have htrip := driverTrip?_eq hinv.keys ht
  simp only [ingestLocationPingBatch, bind_eq_ok, demand_eq_ok, htrip, Option.some.injEq,
    exists_eq_left']
  -- assignments are checked again while the trip is active and its campaign runs
  by_cases hgate : t.status = .active ∧ (s.financialCutoff t.campaignId).isNone
  · rw [if_pos hgate]
    simp only [hfind, bind_eq_ok, demand_eq_ok, pure_eq_ok, hduplicate]
    constructor
    · rintro ⟨_, hactive, key, hsigning, sequence, hsequence, digest, hdigest, _, ⟨rfl, rfl⟩, rfl⟩
      exact ⟨rfl, ⟨fun _ _ => hactive, key, hsigning⟩, hsequence, hdigest⟩
    · rintro ⟨rfl, ⟨hactive, key, hsigning⟩, hsequence, hdigest⟩
      exact ⟨⟨⟩, hactive hgate.1 (Option.isNone_iff_eq_none.mp hgate.2), key, hsigning, _, hsequence,
        _, hdigest, ⟨⟩, ⟨rfl, rfl⟩, rfl⟩
  · rw [if_neg hgate]
    simp only [hfind, bind_eq_ok, demand_eq_ok, pure_eq_ok, hduplicate]
    constructor
    · rintro ⟨key, hsigning, sequence, hsequence, digest, hdigest, _, ⟨rfl, rfl⟩, rfl⟩
      refine ⟨rfl, ⟨fun hactive hcutoff => ?_, key, hsigning⟩, hsequence, hdigest⟩
      exact absurd ⟨hactive, Option.isNone_iff_eq_none.mpr hcutoff⟩ hgate
    · rintro ⟨rfl, ⟨-, key, hsigning⟩, hsequence, hdigest⟩
      exact ⟨key, hsigning, _, hsequence, _, hdigest, ⟨⟩, ⟨rfl, rfl⟩, rfl⟩

/-- The answer to a delivery of a stored key. -/
theorem driverIngest_stored (hinv : TripsInv settings s) (ht : t ∈ s.trips) (hb : b ∈ t.batches)
    (hkey : b.idempotencyKey = payload.idempotencyKey) :
    driverIngestLocationPings settings authority t.driverProfileId t.id payload clock s
        = .ok (s', r)
      ↔ s' = s ∧ r = batchReceiptFields t.id b true ∧ GatesOpen settings s t authority
        ∧ Repeats payload b := by
  have htrip := driverTrip?_eq hinv.keys ht
  have hrow := batch?_eq_some hinv ht hb hkey
  simp only [driverIngestLocationPings, bind_eq_ok, demand_eq_ok, htrip, Option.some.injEq,
    exists_eq_left', ingest_stored hinv ht hb hkey, pure_eq_ok, Prod.mk.injEq]
  constructor
  · rintro ⟨_, ⟨rfl, hgates, hrepeats⟩, after, hafter, row, hrow', rfl, rfl⟩
    cases hafter.symm.trans htrip
    cases hrow'.symm.trans hrow
    exact ⟨rfl, by rw [hrow]; rfl, hgates, hrepeats⟩
  · rintro ⟨rfl, rfl, hgates, hrepeats⟩
    exact ⟨_, ⟨rfl, hgates, hrepeats⟩, t, htrip, b, hrow, rfl, by rw [hrow]; rfl⟩

/-- The row of an admitted batch is found by its key. -/
theorem batch?_admitted (hadmits : Admits settings s t authority payload clock b) :
    ({ t with batches := t.batches ++ [b] } : TripSession).batch? payload.idempotencyKey
      = some b := by
  have hnone : t.batches.find? (·.idempotencyKey = payload.idempotencyKey) = none :=
    lookup_eq_none.mpr hadmits.fresh
  have hkey := hadmits.answersFor.key
  rw [TripSession.batch?, List.find?_append, hnone]
  simp [hkey]

omit [Evidence] in
/-- The row of the trip after a batch is stored. -/
theorem driverTrip?_stored (hkeys : (s.trips.map (·.id)).Nodup) (ht : t ∈ s.trips)
    (b : LocationPingBatch) :
    (s.updateTrip t.id (fun t => { t with batches := t.batches ++ [b] })).driverTrip?
        t.driverProfileId t.id = some { t with batches := t.batches ++ [b] } := by
  have hkeys' : ((s.updateTrip t.id (fun t => { t with batches := t.batches ++ [b] })).trips.map
      (·.id)).Nodup := by
    rw [Store.updateTrip, keys_of_map]
    · exact hkeys
    · intro x
      split_ifs <;> rfl
  have hmem : { t with batches := t.batches ++ [b] }
      ∈ (s.updateTrip t.id (fun t => { t with batches := t.batches ++ [b] })).trips :=
    List.mem_map.mpr ⟨t, ht, if_pos rfl⟩
  exact driverTrip?_eq hkeys' hmem

/-- The endpoint answers whatever the service accepts. -/
theorem driverIngest_of_ingest (hinv : TripsInv settings s)
    (h : ingestLocationPingBatch settings authority driverProfileId tripId payload clock s
      = .ok s') :
    ∃ r, driverIngestLocationPings settings authority driverProfileId tripId payload clock s
      = .ok (s', r) := by
  simp only [driverIngestLocationPings, bind_eq_ok, demand_eq_ok, pure_eq_ok, Prod.mk.injEq]
  rcases ingestLocationPingBatch_eq h with
    ⟨rfl, t, existing, ht, hexisting⟩ | ⟨t, signed, ht, hadmits, rfl⟩
  · exact ⟨_, t, ht, _, h, t, ht, existing, hexisting, rfl, rfl⟩
  · rcases driverTrip?_eq_some ht with ⟨hmem, rfl, rfl⟩
    exact ⟨_, t, ht, _, h, _, driverTrip?_stored hinv.keys hmem signed, signed,
      batch?_admitted hadmits, rfl, rfl⟩

/-- An answered delivery: of a stored key, or of a batch that is stored now. -/
theorem driverIngest_ok (hinv : TripsInv settings s)
    (h : driverIngestLocationPings settings authority driverProfileId tripId payload clock s
      = .ok (s', r)) :
    ∃ t ∈ s.trips, t.id = tripId ∧ t.driverProfileId = driverProfileId ∧ ∃ row,
      (row ∈ t.batches ∧ row.idempotencyKey = payload.idempotencyKey ∧ Repeats payload row
        ∧ s' = s ∧ r = batchReceiptFields tripId row true)
      ∨ (Admits settings s t authority payload clock row ∧ Repeats payload row
        ∧ s' = s.updateTrip t.id (fun t => { t with batches := t.batches ++ [row] })
        ∧ r = batchReceiptFields tripId row false) := by
  have hwhole := h
  simp only [driverIngestLocationPings, bind_eq_ok, demand_eq_ok, pure_eq_ok, Prod.mk.injEq] at h
  rcases h with ⟨t, ht, s'', hingest, after, hafter, row, hrow, rfl, rfl⟩
  rcases driverTrip?_eq_some ht with ⟨hmem, rfl, rfl⟩
  refine ⟨t, hmem, rfl, rfl, row, ?_⟩
  rcases ingestLocationPingBatch_eq hingest with
    ⟨rfl, x, existing, hx, hexisting⟩ | ⟨x, signed, hx, hadmits, rfl⟩
  · cases hx.symm.trans ht
    rcases mem_of_lookup hexisting with ⟨hstored, hkey⟩
    rcases (driverIngest_stored hinv hmem hstored hkey).mp hwhole with ⟨-, hanswer, -, hrepeats⟩
    cases hafter.symm.trans ht
    cases hrow.symm.trans hexisting
    exact .inl ⟨hstored, hkey, hrepeats, rfl, hanswer⟩
  · cases hx.symm.trans ht
    have hnone : t.batch? payload.idempotencyKey = none := lookup_eq_none.mpr hadmits.fresh
    cases hafter.symm.trans (driverTrip?_stored hinv.keys hmem signed)
    cases hrow.symm.trans (batch?_admitted hadmits)
    refine .inr ⟨hadmits, ?_, rfl, by rw [hnone]; rfl⟩
    rcases hadmits.shape with ⟨sequence, digest, outcome, receipt, hsequence, hdigest, rfl⟩
    exact ⟨hsequence, hdigest⟩

/-! ## Whole runs -/

/-- The trip holds one row under the key of `b`, and it is `b`. -/
def StoredOnce (s : Store) (driverProfileId tripId : Id) (b : LocationPingBatch) : Prop :=
  ∃ t ∈ s.trips, t.id = tripId ∧ t.driverProfileId = driverProfileId
    ∧ t.batches.filter (·.idempotencyKey = b.idempotencyKey) = [b]

/-- `sha256` tells the content of the two payloads apart. -/
def Distinguished (payload payload' : LocationPingBatchCreate) : Prop :=
  Evidence.sha256 (.batch payload.pings payload.metadata)
      = Evidence.sha256 (.batch payload'.pings payload'.metadata) →
    payload.pings = payload'.pings ∧ payload.metadata = payload'.metadata

/-- A stored row, and every later delivery of its key: the payload it was stored for is
answered alike where the gates are open, and another payload is refused. -/
structure AnsweredLater (settings : Settings) (driverProfileId tripId : Id)
    (payload : LocationPingBatchCreate) (b : LocationPingBatch) (s : Store) : Prop where
  stored : StoredOnce s driverProfileId tripId b
  same : ∀ t ∈ s.trips, t.id = tripId → ∀ authority clock,
    driverIngestLocationPings settings authority driverProfileId tripId payload clock s
        = .ok (s, batchReceiptFields tripId b true) ↔ GatesOpen settings s t authority
  other : ∀ payload' : LocationPingBatchCreate, payload'.idempotencyKey = payload.idempotencyKey →
    payload' ≠ payload → Distinguished payload payload' → ∀ authority clock, ∃ e,
      driverIngestLocationPings settings authority driverProfileId tripId payload' clock s
        = .error e

theorem answeredLater (hinv : TripsInv settings s) (ht : t ∈ s.trips) (hb : b ∈ t.batches)
    (hkey : b.idempotencyKey = payload.idempotencyKey) (hrepeats : Repeats payload b) :
    AnsweredLater settings t.driverProfileId t.id payload b s := by
  refine ⟨⟨t, ht, rfl, rfl, filter_key_eq (hinv.wellFormed t ht).batchKeys hb rfl⟩, ?_, ?_⟩
  · intro t' ht' hid authority clock
    cases eq_of_key_eq hinv.keys ht' ht hid
    rw [driverIngest_stored hinv ht hb hkey]
    exact ⟨fun h => h.2.2.1, fun hgates => ⟨rfl, rfl, hgates, hrepeats⟩⟩
  · intro payload' hkey' hne hdistinguished authority clock
    cases hanswer : driverIngestLocationPings settings authority t.driverProfileId t.id payload'
      clock s with
    | error e => exact ⟨e, rfl⟩
    | ok answer =>
        rcases (driverIngest_stored hinv ht hb (hkey.trans hkey'.symm)).mp hanswer with
          ⟨-, -, -, hsequence, hdigest⟩
        rcases hrepeats with ⟨hsequence₀, hdigest₀⟩
        -- one digest and one sequence: the two payloads are one
        simp only [batchPayloadHash, bind_eq_ok, pure_eq_ok] at hdigest hdigest₀
        rcases hdigest with ⟨_, _, hdigest⟩
        rcases hdigest₀ with ⟨_, _, hdigest₀⟩
        rcases hdistinguished (hdigest₀.trans hdigest.symm) with ⟨hpings, hmetadata⟩
        refine absurd ?_ hne
        cases payload
        cases payload'
        simp_all

/-- Keys and manifest sequences name one row each; a refusal changes nothing; an accepted
batch is stored once, answered sample by sample, and after any later transactions its key is
answered from the same row exactly where the gates before the lookup are open. -/
theorem batch_acknowledgement_exact (settings : Settings) {s : Store}
    (hs : Reachable (fleet settings) s) :
    (∀ t ∈ s.trips, (t.batches.map (·.idempotencyKey)).Nodup
      ∧ (t.manifestBatches.map (·.batchSequence)).Nodup ∧ ∀ b ∈ t.batches, Counted b)
    ∧ ∀ authority driverProfileId tripId payload clock,
      (∀ e, driverIngestLocationPings settings authority driverProfileId tripId payload clock s
          = .error e →
        (fleet settings).stepOrStay s (.ingest authority driverProfileId tripId payload clock) = s)
      ∧ ∀ s₁ r, driverIngestLocationPings settings authority driverProfileId tripId payload clock s
          = .ok (s₁, r) →
        (fleet settings).step s (.ingest authority driverProfileId tripId payload clock) = .ok s₁
        ∧ ∃ b, r = batchReceiptFields tripId b r.duplicate
          ∧ (r.duplicate = true → s₁ = s) ∧ (r.duplicate = false → AnswersFor payload b)
          ∧ ∀ as s₂, (fleet settings).run s₁ as = .ok s₂ →
            AnsweredLater settings driverProfileId tripId payload b s₂ := by
  have hinv := tripsInv_of_reachable hs
  refine ⟨fun t ht => ⟨(hinv.wellFormed t ht).batchKeys, (hinv.wellFormed t ht).batchSequences,
    counted_of_reachable hs t ht⟩, ?_⟩
  intro authority driverProfileId tripId payload clock
  refine ⟨?_, ?_⟩
  · intro e hrefused
    cases hstep : (fleet settings).step s (.ingest authority driverProfileId tripId payload clock) with
    | error e' =>
        rw [Machine.stepOrStay, hstep]
    | ok s' =>
        rcases driverIngest_of_ingest hinv hstep with ⟨r, hanswer⟩
        cases hrefused.symm.trans hanswer
  · intro s₁ r hanswer
    have hstep : (fleet settings).step s (.ingest authority driverProfileId tripId payload clock)
        = .ok s₁ := by
      simp only [driverIngestLocationPings, bind_eq_ok, demand_eq_ok, pure_eq_ok,
        Prod.mk.injEq] at hanswer
      rcases hanswer with ⟨_, _, s', hingest, _, _, _, _, rfl, _⟩
      exact hingest
    have hs₁ : Reachable (fleet settings) s₁ := .step hs trivial hstep
    -- the row of the key is in the trip's batches now, and stays there
    have hlater : ∀ {t : TripSession} {b : LocationPingBatch}, t ∈ s₁.trips → b ∈ t.batches →
        b.idempotencyKey = payload.idempotencyKey → Repeats payload b → ∀ as s₂,
        (fleet settings).run s₁ as = .ok s₂ →
          AnsweredLater settings t.driverProfileId t.id payload b s₂ := by
      intro t b ht hb hkey hrepeats as s₂ hrun
      rcases run_keepsBatches hs₁ ht hrun with ⟨t₂, ht₂, hsame, hbatches⟩
      have hanswered := answeredLater (tripsInv_of_reachable (Machine.run_reachable _ hs₁ hrun)) ht₂
        (hbatches b hb) hkey hrepeats
      rwa [hsame.1, hsame.2.2.2.1] at hanswered
    refine ⟨hstep, ?_⟩
    rcases driverIngest_ok hinv hanswer with ⟨t, ht, rfl, rfl, row,
      ⟨hrow, hkey, hrepeats, rfl, rfl⟩ | ⟨hadmits, hrepeats, rfl, rfl⟩⟩
    · exact ⟨row, rfl, fun _ => rfl, fun h => Bool.noConfusion h, hlater ht hrow hkey hrepeats⟩
    · have hstored : { t with batches := t.batches ++ [row] }
          ∈ (s.updateTrip t.id (fun t => { t with batches := t.batches ++ [row] })).trips :=
        List.mem_map.mpr ⟨t, ht, if_pos rfl⟩
      exact ⟨row, rfl, fun h => Bool.noConfusion h, fun _ => hadmits.answersFor,
        hlater (t := { t with batches := t.batches ++ [row] }) hstored
          (List.mem_append_right _ (List.mem_singleton_self row)) hadmits.answersFor.key hrepeats⟩

end Deliveries

/-- The first batch of trip 1 is delivered. -/
theorem batch_acknowledgement_exact_delivered :
    ∃ s s₁ r b, Reachable (@fleet sampleEvidence sampleSettings) s
      ∧ @driverIngestLocationPings sampleEvidence sampleSettings {} 7 1 (sampleBatch 1 0)
          (secondsAfterNoon 70) s = .ok (s₁, r)
      ∧ r = batchReceiptFields 1 b false ∧ AnswersFor (sampleBatch 1 0) b
      ∧ ∀ as s₂, (@fleet sampleEvidence sampleSettings).run s₁ as = .ok s₂ →
        @AnsweredLater sampleEvidence sampleSettings 7 1 (sampleBatch 1 0) b s₂ := by
  rcases (@fleet sampleEvidence sampleSettings).exists_reachable
    [startTrip 1 (secondsAfterNoon 0)]
    (fun s => (@driverIngestLocationPings sampleEvidence sampleSettings {} 7 1 (sampleBatch 1 0)
      (secondsAfterNoon 70) s).toOption.any (fun answer => !answer.2.duplicate))
    (by decide +kernel) with ⟨s, hs, htest⟩
  cases hanswer : @driverIngestLocationPings sampleEvidence sampleSettings {} 7 1 (sampleBatch 1 0)
      (secondsAfterNoon 70) s with
  | error e => simp [hanswer, Except.toOption] at htest
  | ok answer =>
      have hnew : answer.2.duplicate = false := by simpa [hanswer, Except.toOption] using htest
      rcases ((@batch_acknowledgement_exact sampleEvidence sampleSettings s hs).2 {} 7 1
        (sampleBatch 1 0) (secondsAfterNoon 70)).2 answer.1 answer.2 hanswer with
        ⟨-, b, hb, -, hanswers, hlater⟩
      exact ⟨s, answer.1, answer.2, b, hs, hanswer, hnew ▸ hb, hanswers hnew, hlater⟩

/-- The answer to an active trip whose assignment is no longer active. -/
def campaignAssignmentNotActive : AppError :=
  { code := "CAMPAIGN_ASSIGNMENT_NOT_ACTIVE"
    message := "Campaign assignment must be active for trip tracking"
    statusCode := 400 }

/-- A stored batch whose answer was lost is refused when it is sent again. -/
theorem stored_batch_refused :
    ∃ s s₁ r, Reachable (@fleet sampleEvidence sampleSettings) s
      ∧ @driverIngestLocationPings sampleEvidence sampleSettings {} 7 1 (sampleBatch 1 0)
          (secondsAfterNoon 70) s = .ok (s₁, r)
      ∧ @driverIngestLocationPings sampleEvidence sampleSettings
          { assignmentActive := .error campaignAssignmentNotActive } 7 1 (sampleBatch 1 0)
          (secondsAfterNoon 90) s₁ = .error campaignAssignmentNotActive := by
  rcases (@fleet sampleEvidence sampleSettings).exists_reachable
    [startTrip 1 (secondsAfterNoon 0)]
    (fun s => (@driverIngestLocationPings sampleEvidence sampleSettings {} 7 1 (sampleBatch 1 0)
      (secondsAfterNoon 70) s).toOption.any (fun answer =>
        match @driverIngestLocationPings sampleEvidence sampleSettings
          { assignmentActive := .error campaignAssignmentNotActive } 7 1 (sampleBatch 1 0)
          (secondsAfterNoon 90) answer.1 with
        | .error e => decide (e = campaignAssignmentNotActive)
        | .ok _ => false))
    (by decide +kernel) with ⟨s, hs, htest⟩
  cases hanswer : @driverIngestLocationPings sampleEvidence sampleSettings {} 7 1 (sampleBatch 1 0)
      (secondsAfterNoon 70) s with
  | error e => simp [hanswer, Except.toOption] at htest
  | ok answer =>
      refine ⟨s, answer.1, answer.2, hs, hanswer, ?_⟩
      simp only [hanswer, Except.toOption, Option.any_some] at htest
      split at htest
      · rename_i e herror
        rw [herror, of_decide_eq_true htest]
      · cases htest

end Trips
end Mobility
