import Mobility.Pay.Inversion
import Mobility.Trips.Effects

/-!
# Transitions — every transaction is a sequence of trip effects

`tripStep_effects` is the one place where the operations are matched with
`TripEffect`; invariants of trips are proved against the effects.
-/

namespace Mobility
namespace Trips

open Lib
open Payout (Digest)

section

variable [Evidence] {settings : Settings} {keyVersion : Nat} {t t' : TripSession}

/-! ## Rows -/

omit [Evidence] in
theorem mem_manifestBatches {b : LocationPingBatch} :
    b ∈ t.manifestBatches ↔ b ∈ t.batches ∧ b.evidenceScope = .manifest := by
  simp [TripSession.manifestBatches]

theorem validateManifest_eq_ok {tripId : Id} {manifest : TripEvidenceManifestCreate} {x : Unit}
    (h : validateManifest tripId manifest = .ok x) :
    manifest.entries.map (·.batchSequence) = List.range manifest.entries.length
      ∧ (manifest.entries.map (·.idempotencyKey)).Nodup := by
  simp only [validateManifest, bind_eq_ok, require_eq_ok] at h
  rcases h with ⟨_, hsequences, _, hkeys, _⟩
  exact ⟨hsequences, hkeys⟩

theorem endTripRow_effects (ht : WellFormed t) {endReason : Option String}
    {manifest : Option TripEvidenceManifestCreate} {now : Int}
    (h : endTripRow settings keyVersion endReason manifest now t = .ok t') :
    TripEffects settings keyVersion t t' := by
  simp only [endTripRow, bind_eq_ok, require_eq_ok] at h
  rcases h with ⟨_, hactive, _, _, m, _, _, hvalid, _, hdeclares, completeness, hcomplete, h⟩
  rcases validateManifest_eq_ok hvalid with ⟨hsequences, hkeys⟩
  have hnodup : (m.entries.map (·.batchSequence)).Nodup := hsequences ▸ List.nodup_range
  have hended : TripEffect settings keyVersion t (endWith m now endReason t) :=
    .commit now endReason hactive hdeclares hkeys hnodup
  rcases ht.active hactive with ⟨_, _, _, hunverified, hopen, _⟩
  split_ifs at h with hseal
  · exact .tail (.single hended)
      (.verify (by simp [endWith]) hunverified hopen hcomplete hseal.2 h)
  · have hsame : endWith m now endReason t = t' := by simpa using h
    exact hsame ▸ .single hended

theorem heldManifest_entries (t : TripSession) :
    (heldManifest t).entries = (orderBy (·.batchSequence) t.manifestBatches).map (fun batch =>
      { batchSequence := batch.batchSequence
        idempotencyKey := batch.idempotencyKey
        payloadHashVersion := batch.payloadHashVersion
        payloadHash := batch.payloadHash
        submittedCount := batch.pingsSubmitted : TripEvidenceManifestEntry }) := rfl

/-- The manifest that the server builds declares every batch it holds. -/
theorem heldManifest_declares {b : LocationPingBatch} (hb : b ∈ t.manifestBatches) :
    Declares (heldManifest t).entries b := by
  rw [heldManifest_entries]
  exact ⟨_, List.mem_map_of_mem (mem_orderBy.mpr hb), rfl, rfl, rfl, rfl, rfl⟩

theorem heldManifest_keys (ht : WellFormed t) :
    ((heldManifest t).entries.map (·.idempotencyKey)).Nodup := by
  rw [heldManifest_entries, List.map_map]
  have hheld : (t.manifestBatches.map (·.idempotencyKey)).Nodup :=
    ht.batchKeys.sublist (List.filter_sublist.map _)
  exact ((orderBy_perm _ _).map _).nodup_iff.mpr hheld

theorem heldManifest_sequences (ht : WellFormed t) :
    ((heldManifest t).entries.map (·.batchSequence)).Nodup := by
  rw [heldManifest_entries, List.map_map]
  exact ((orderBy_perm _ _).map _).nodup_iff.mpr ht.batchSequences

theorem autoEndTripRow_effects (ht : WellFormed t) {now : Int}
    (h : autoEndTripRow settings keyVersion now t = .ok t') :
    TripEffects settings keyVersion t t' := by
  unfold autoEndTripRow at h
  split_ifs at h with hidle
  · have hsame : t = t' := by simpa using h
    exact hsame ▸ .refl
  · have hactive : t.status = .active := not_not.mp (fun hne => hidle (.inl hne))
    simp only [bind_eq_ok] at h
    rcases h with ⟨_, _, completeness, hcomplete, h⟩
    have hended : TripEffect settings keyVersion t
        (endWith (heldManifest t) (lastLocationAt t) (some "auto_ended_no_location") t) :=
      .commit (lastLocationAt t) (some "auto_ended_no_location") hactive
        (fun _ hb => heldManifest_declares hb) (heldManifest_keys ht) (heldManifest_sequences ht)
    rcases ht.active hactive with ⟨_, _, _, hunverified, hopen, _⟩
    split_ifs at h with hseal
    · exact .tail (.single hended) (.verify (by simp [endWith]) hunverified hopen hcomplete hseal h)
    · have hsame := (by simpa using h : endWith _ _ _ t = t')
      exact hsame ▸ .single hended

theorem reconcileTripRow_effects {now : Int}
    (h : reconcileTripRow settings keyVersion now t = .ok t') :
    TripEffects settings keyVersion t t' := by
  simp only [reconcileTripRow, bind_eq_ok, require_eq_ok] at h
  rcases h with ⟨_, _, _, hstatus, _, _, h⟩
  split_ifs at h with hverified hadjudicated
  · -- a verified trip answers its receipt again
    simp only [bind_eq_ok, require_eq_ok, pure_eq_ok] at h
    rcases h with ⟨_, _, _, _, rfl⟩
    exact .refl
  · simp only [bind_eq_ok, require_eq_ok, pure_eq_ok] at h
    rcases h with ⟨_, _, _, _, rfl⟩
    exact .refl
  · simp only [bind_eq_ok] at h
    rcases h with ⟨completeness, hcomplete, h⟩
    have hunverified : t.verification = none := by simpa using hverified
    split_ifs at h with hseal
    · exact .single (.verify hstatus hunverified (by simpa using hadjudicated) hcomplete hseal h)
    · simp only [bind_eq_ok, require_eq_ok] at h
      rcases h with ⟨_, hgrace, h⟩
      exact .single (.adjudicate hstatus hunverified hgrace hcomplete (by simpa using hseal) h)

theorem expireGrace_effects (ht : WellFormed t) {now : Int} (hdue : graceDue now t = true)
    {now' : Int} (h : expireGrace settings keyVersion now' t = .ok t') :
    TripEffects settings keyVersion t t' := by
  have hended : t.status = .ended ∧ t.graceExpiredAt = none := by
    simp only [graceDue, Bool.and_eq_true, decide_eq_true_eq, Option.isNone_iff_eq_none] at hdue
    exact ⟨hdue.1.1, hdue.2⟩
  have hunverified : t.verification = none := by
    by_contra hne
    have hsealed := (ht.verified (Option.isSome_iff_ne_none.mpr hne)).1
    simp [hended.1] at hsealed
  have hmarked : TripEffect settings keyVersion t { t with graceExpiredAt := some now' } :=
    .expire now' hended.1 hended.2
  simp only [expireGrace] at h
  split_ifs at h with hmanifest
  · simp only [bind_eq_ok] at h
    rcases h with ⟨completeness, hcomplete, h⟩
    split_ifs at h with hseal
    · have hsame := (by simpa using h : _ = t')
      exact hsame ▸ .single hmarked
    · refine .tail (.single hmarked) (.adjudicate ?_ hunverified rfl hcomplete (by simpa using hseal) h)
      simp [hended.1]
  · have hsame := (by simpa using h : _ = t')
    exact hsame ▸ .single hmarked

/-! ## One row per action -/

variable {s s' : Store} {a : TripAction}

/-- What the late-pay rule decides for a batch of the trip. -/
def Dropped (s : Store) (t : TripSession) (payload : LocationPingBatchCreate) : Prop :=
  t.status ≠ .active ∧ LatePayCalculated s t payload

instance (s : Store) (t : TripSession) (payload : LocationPingBatchCreate) :
    Decidable (Dropped s t payload) :=
  inferInstanceAs (Decidable (_ ∧ _))

/-- The batch that an ingest stores for the trip, and the checks it passed. -/
structure Admits (settings : Settings) (s : Store) (t : TripSession)
    (authority : CaptureAuthority) (payload : LocationPingBatchCreate) (clock : Int)
    (b : LocationPingBatch) : Prop where
  fresh : ∀ x ∈ t.batches, x.idempotencyKey ≠ payload.idempotencyKey
  accepting : t.sealReason ≠ some .autoEnded
  size : payload.pings.length ≤ maxLocationPingsPerBatch
  written : ∃ sequence digest outcome, payload.batchSequence = some sequence
    ∧ batchPayloadHash payload = .ok digest
    ∧ (t.status = .ended ∧ t.adjudication.isNone → Declared t payload sequence digest)
    ∧ (scopeOf t (Dropped s t payload) = .manifest →
        ∀ x ∈ t.manifestBatches, x.batchSequence ≠ sequence)
    ∧ (¬ Dropped s t payload →
        wholeBatchRejection t authority payload (utcNow clock) = none)
    ∧ signBatchReceipt settings s.signingKeyVersion t.id
        (newBatch t authority payload sequence digest (Dropped s t payload) (utcNow clock))
        outcome = .ok b

/-- What an action does to one stored trip. -/
inductive RowChange (settings : Settings) (s : Store) :
    TripAction → TripSession → TripSession → Prop
  | same (a : TripAction) (t : TripSession) : RowChange settings s a t t
  | ingested {t : TripSession} {authority : CaptureAuthority} {payload : LocationPingBatchCreate}
      {clock : Int} {b : LocationPingBatch} :
      Admits settings s t authority payload clock b →
      RowChange settings s (.ingest authority t.driverProfileId t.id payload clock) t
        { t with batches := t.batches ++ [b] }
  | ended {t t' : TripSession} {endReason : Option String}
      {manifest : Option TripEvidenceManifestCreate} {clock : Int} :
      endTripRow settings s.signingKeyVersion endReason manifest (utcNow clock) t = .ok t' →
      RowChange settings s (.endTrip t.driverProfileId t.id endReason manifest clock) t t'
  | autoEnded {t t' : TripSession} {clock : Int} :
      autoEndTripRow settings s.signingKeyVersion (utcNow clock) t = .ok t' →
      RowChange settings s (.autoEnd t.id clock) t t'
  | reconciled {t t' : TripSession} {clock : Int} :
      reconcileTripRow settings s.signingKeyVersion (utcNow clock) t = .ok t' →
      RowChange settings s (.reconcile t.driverProfileId t.id clock) t t'
  | expired {t t' : TripSession} {locked : Id → Bool} {now : Int} :
      t ∈ dueTrips locked workerSweepBatchSize now s →
      expireGrace settings s.signingKeyVersion now t = .ok t' →
      RowChange settings s (.sealDue locked now) t t'

theorem Admits.shape {authority : CaptureAuthority} {payload : LocationPingBatchCreate}
    {clock : Int} {b : LocationPingBatch} (h : Admits settings s t authority payload clock b) :
    ∃ sequence digest outcome receipt, payload.batchSequence = some sequence
      ∧ batchPayloadHash payload = .ok digest
      ∧ b = { newBatch t authority payload sequence digest (Dropped s t payload) (utcNow clock) with
          receiptOutcome := some outcome, receipt := some receipt } := by
  rcases h.written with ⟨sequence, digest, outcome, hsequence, hdigest, _, _, _, hsigned⟩
  rcases signBatchReceipt_eq hsigned with ⟨_, _, rfl⟩
  exact ⟨sequence, digest, outcome, _, hsequence, hdigest, rfl⟩

theorem Admits.effect {authority : CaptureAuthority} {payload : LocationPingBatchCreate}
    {clock : Int} {b : LocationPingBatch} (h : Admits settings s t authority payload clock b) :
    TripEffect settings s.signingKeyVersion t { t with batches := t.batches ++ [b] } := by
  rcases h.written with ⟨sequence, digest, outcome, _, _, hdeclared, hsequence, _, hsigned⟩
  refine .store (Dropped s t payload) h.fresh rfl hsequence ?_ hsigned
  intro hended hopen
  rcases hdeclared ⟨hended, by simp [hopen]⟩ with ⟨entry, hentry, hkey, hseq, hversion, hhash, hcount⟩
  exact ⟨entry, hentry, hkey, hseq.symm, hversion.symm, hhash.symm, hcount.symm⟩

omit [Evidence] in
theorem mem_dueTrips {locked : Id → Bool} {limit : Nat} {now : Int}
    (h : t ∈ dueTrips locked limit now s) : t ∈ s.trips ∧ graceDue now t = true := by
  have hmem := List.mem_of_mem_take h
  rw [List.mem_insertionSort] at hmem
  rcases List.mem_filter.mp hmem with ⟨ht, hdue⟩
  exact ⟨ht, (Bool.and_eq_true_iff.mp hdue).1⟩

theorem RowChange.effects (ht : WellFormed t) (h : RowChange settings s a t t') :
    TripEffects settings s.signingKeyVersion t t' := by
  cases h with
  | same => exact .refl
  | ingested hadmits => exact .single hadmits.effect
  | ended h => exact endTripRow_effects ht h
  | autoEnded h => exact autoEndTripRow_effects ht h
  | reconciled h => exact reconcileTripRow_effects h
  | expired hdue h => exact expireGrace_effects ht (mem_dueTrips hdue).2 h

/-! ## The stored trips -/

omit [Evidence] in
/-- Rewriting one stored trip. -/
theorem updateTrip_rows {R : TripSession → TripSession → Prop}
    (hkeys : (s.trips.map (·.id)).Nodup) (hsame : ∀ x, R x x) (ht : t ∈ s.trips)
    {f : TripSession → TripSession} (hR : R t (f t)) :
    List.Forall₂ R s.trips (s.updateTrip t.id f).trips := by
  refine forall₂_map_self ?_
  intro x hx
  by_cases hid : x.id = t.id
  · rw [if_pos hid, eq_of_key_eq hkeys hx ht hid]
    exact hR
  · rw [if_neg hid]
    exact hsame x

omit [Evidence] in
theorem driverTrip?_eq_some {driverProfileId tripId : Id}
    (h : s.driverTrip? driverProfileId tripId = some t) :
    t ∈ s.trips ∧ t.id = tripId ∧ t.driverProfileId = driverProfileId := by
  have hfound := List.find?_some h
  simp only [Bool.and_eq_true, decide_eq_true_eq] at hfound
  exact ⟨List.mem_of_find?_eq_some h, hfound.1, hfound.2⟩

omit [Evidence] in
theorem driverTrip?_eq (hkeys : (s.trips.map (·.id)).Nodup) (ht : t ∈ s.trips) :
    s.driverTrip? t.driverProfileId t.id = some t := by
  cases hfind : s.driverTrip? t.driverProfileId t.id with
  | none =>
      rw [Store.driverTrip?, List.find?_eq_none] at hfind
      exact absurd (hfind t ht) (by simp)
  | some x =>
      rcases driverTrip?_eq_some hfind with ⟨hx, hid, _⟩
      rw [eq_of_key_eq hkeys hx ht hid]

/-- An accepted ingest answers a repeated batch, or stores a new one. -/
theorem ingestLocationPingBatch_eq {authority : CaptureAuthority} {driverProfileId tripId : Id}
    {payload : LocationPingBatchCreate} {clock : Int}
    (h : ingestLocationPingBatch settings authority driverProfileId tripId payload clock s
      = .ok s') :
    (s' = s ∧ ∃ t b, s.driverTrip? driverProfileId tripId = some t
      ∧ t.batches.find? (·.idempotencyKey = payload.idempotencyKey) = some b)
    ∨ ∃ t b, s.driverTrip? driverProfileId tripId = some t
      ∧ Admits settings s t authority payload clock b
      ∧ s' = s.updateTrip t.id (fun t => { t with batches := t.batches ++ [b] }) := by
  simp only [ingestLocationPingBatch, bind_eq_ok, demand_eq_ok] at h
  rcases h with ⟨t, ht, h⟩
  cases hfind : t.batches.find? (·.idempotencyKey = payload.idempotencyKey) with
  | some existing =>
      refine .inl ⟨?_, t, existing, ht, hfind⟩
      split_ifs at h
      all_goals
        simp only [hfind, bind_eq_ok, pure_eq_ok] at h
        grind
  | none =>
      -- the assignment is asked only while the trip is active; its answer stores nothing
      have hadmit : ∃ sequence digest, payload.batchSequence = some sequence
          ∧ batchPayloadHash payload = .ok digest
          ∧ admitBatch settings authority t payload sequence digest clock s = .ok s' := by
        split_ifs at h
        all_goals
          simp only [hfind, bind_eq_ok, demand_eq_ok] at h
          grind
      rcases hadmit with ⟨sequence, digest, hsequence, hdigest, h⟩
      simp only [admitBatch, bind_eq_ok, require_eq_ok] at h
      rcases h with ⟨_, haccepting, _, hsize, _, hdeclared, _, hfree, h⟩
      have hfresh : ∀ x ∈ t.batches, x.idempotencyKey ≠ payload.idempotencyKey :=
        lookup_eq_none.mp hfind
      split at h
      · simp at h
      · rename_i hrejection
        simp only [bind_eq_ok, pure_eq_ok] at h
        rcases h with ⟨b, hsigned, rfl⟩
        refine .inr ⟨t, b, ht, ⟨hfresh, haccepting, hsize, sequence, digest, _, hsequence, hdigest,
          hdeclared, hfree, ?_, hsigned⟩, rfl⟩
        intro hkept
        simpa [Dropped] using (if_neg (by simpa [Dropped] using hkept)).symm.trans hrejection

theorem expireGrace_eq {now : Int} (h : expireGrace settings keyVersion now t = .ok t') :
    ∃ adjudication, t' = { t with graceExpiredAt := some now, adjudication := adjudication } := by
  simp only [expireGrace] at h
  split_ifs at h
  · simp only [bind_eq_ok] at h
    rcases h with ⟨completeness, _, h⟩
    split_ifs at h
    · exact ⟨t.adjudication, (pure_eq_ok.mp h).symm⟩
    · rcases signAdjudicationReceipt_eq h with ⟨adjudication, rfl⟩
      exact ⟨some adjudication, rfl⟩
  · exact ⟨t.adjudication, (pure_eq_ok.mp h).symm⟩

/-- Each round of the sweep rewrites the swept trip alone. -/
theorem sealDueTrips_rows (hkeys : (s.trips.map (·.id)).Nodup) {locked : Id → Bool} {now : Int}
    (h : sealDueTrips settings locked now s = .ok s') :
    s' = { s with trips := s'.trips }
      ∧ List.Forall₂ (RowChange settings s (.sealDue locked now)) s.trips s'.trips := by
  -- a trip is the stored one until its own round
  let Swept (done : List TripSession) (t t' : TripSession) : Prop :=
    RowChange settings s (.sealDue locked now) t t' ∧ t'.id = t.id ∧ (t ∉ done → t' = t)
  have hstart : List.Forall₂ (Swept []) s.trips s.trips :=
    List.forall₂_same.mpr (fun t _ => ⟨.same _ t, rfl, fun _ => rfl⟩)
  have hloop := checkedFold_prefix
    (fun done s₁ => s₁ = { s with trips := s₁.trips }
      ∧ List.Forall₂ (Swept done) s.trips s₁.trips) ?_ h ⟨rfl, hstart⟩
  · exact ⟨hloop.1, hloop.2.imp (fun t t' hswept => hswept.1)⟩
  · rintro done trip rest s₁ s₂ hsplit ⟨hframe, hrows⟩ hround
    simp only [bind_eq_ok, pure_eq_ok] at hround
    rcases hround with ⟨marked, hmarked, rfl⟩
    have hdue : trip ∈ dueTrips locked workerSweepBatchSize now s := by simp [hsplit]
    have hnodup : (dueTrips locked workerSweepBatchSize now s).Nodup := by
      have htrips : s.trips.Nodup := List.Nodup.of_map _ hkeys
      exact ((List.perm_insertionSort _ _).nodup_iff.mpr (htrips.filter _)).sublist
        (List.take_sublist _ _)
    have hversion : s₁.signingKeyVersion = s.signingKeyVersion := by rw [hframe]
    have hid : marked.id = trip.id := by
      rcases expireGrace_eq hmarked with ⟨_, rfl⟩
      rfl
    refine ⟨by rw [Store.updateTrip, hframe], ?_⟩
    rw [Store.updateTrip, List.forall₂_map_right_iff]
    refine forall₂_imp_mem hrows ?_
    rintro t ht t' ⟨hchange, hsameId, hstored⟩
    by_cases hthis : t'.id = marked.id
    · rw [if_pos hthis]
      have htrip : t = trip :=
        eq_of_key_eq hkeys ht (mem_dueTrips hdue).1 (hsameId.symm.trans (hthis.trans hid))
      subst htrip
      exact ⟨.expired hdue (hversion ▸ hmarked), hid, fun hnot => absurd (by simp) hnot⟩
    · rw [if_neg hthis]
      refine ⟨hchange, hsameId, fun hnot => hstored ?_⟩
      exact fun hmem => hnot (by simp [hmem])

/-- The trips that an action starts. -/
inductive Started (s : Store) : TripAction → List TripSession → Prop
  | none (a : TripAction) : Started s a []
  | start {start : TripStart} (authorized : Except AppError Unit) (now : Int) :
      (∀ t ∈ s.trips, t.id ≠ start.tripId) →
      Started s (.start authorized start now) [newTrip start now]

/-- An accepted action rewrites the stored trips one by one and adds what it starts. -/
theorem tripStep_rows (hkeys : (s.trips.map (·.id)).Nodup)
    (h : tripStep settings s a = .ok s') :
    ∃ rows added, List.Forall₂ (RowChange settings s a) s.trips rows ∧ Started s a added
      ∧ s'.trips = rows ++ added := by
  -- three shapes: no trip changes, one trip changes, or a trip is added
  have hsame : ∀ b : TripAction, List.Forall₂ (RowChange settings s b) s.trips s.trips :=
    fun b => List.forall₂_same.mpr (fun t _ => .same b t)
  have hupdate : ∀ {b : TripAction} {t : TripSession} {f : TripSession → TripSession},
      t ∈ s.trips → RowChange settings s b t (f t) →
      ∃ rows added, List.Forall₂ (RowChange settings s b) s.trips rows ∧ Started s b added
        ∧ (s.updateTrip t.id f).trips = rows ++ added := by
    intro b t f ht hchange
    exact ⟨_, [], updateTrip_rows hkeys (.same b) ht hchange, .none b, (List.append_nil _).symm⟩
  have hkeep : ∀ {b : TripAction}, s'.trips = s.trips →
      ∃ rows added, List.Forall₂ (RowChange settings s b) s.trips rows ∧ Started s b added
        ∧ s'.trips = rows ++ added := by
    intro b htrips
    exact ⟨s.trips, [], hsame b, .none b, by rw [htrips, List.append_nil]⟩
  cases a with
  | bind binding =>
      simp only [tripStep, bindAssignment, bind_eq_ok, require_eq_ok, pure_eq_ok] at h
      rcases h with ⟨_, _, rfl⟩
      exact hkeep rfl
  | start authorized start now =>
      simp only [tripStep, startDriverTrip, bind_eq_ok, require_eq_ok, pure_eq_ok] at h
      rcases h with ⟨_, _, _, _, _, _, _, hfresh, rfl⟩
      exact ⟨s.trips, _, hsame _, .start authorized now hfresh, rfl⟩
  | ingest authority driverProfileId tripId payload clock =>
      rcases ingestLocationPingBatch_eq h with ⟨rfl, -⟩ | ⟨t, b, ht, hadmits, rfl⟩
      · exact hkeep rfl
      · rcases driverTrip?_eq_some ht with ⟨hmem, rfl, rfl⟩
        exact hupdate hmem (.ingested hadmits)
  | endTrip driverProfileId tripId endReason manifest clock =>
      simp only [tripStep, endDriverTrip, bind_eq_ok, demand_eq_ok, pure_eq_ok] at h
      rcases h with ⟨t, ht, t', hrow, rfl⟩
      rcases driverTrip?_eq_some ht with ⟨hmem, rfl, rfl⟩
      exact hupdate hmem (.ended hrow)
  | autoEnd tripId clock =>
      simp only [tripStep, autoEndInactiveTrip] at h
      cases htrip : s.trip? tripId with
      | none =>
          rw [htrip] at h
          -- the trip is gone, and the job does nothing
          exact hkeep (by simpa using congrArg (Store.trips) (Except.ok.inj h).symm)
      | some t =>
          simp only [htrip, bind_eq_ok, pure_eq_ok] at h
          rcases h with ⟨t', hrow, rfl⟩
          rcases mem_of_lookup htrip with ⟨hmem, rfl⟩
          exact hupdate hmem (.autoEnded hrow)
  | reconcile driverProfileId tripId clock =>
      simp only [tripStep, reconcileTripEvidence, bind_eq_ok, demand_eq_ok, pure_eq_ok] at h
      rcases h with ⟨t, ht, t', hrow, rfl⟩
      rcases driverTrip?_eq_some ht with ⟨hmem, rfl, rfl⟩
      exact hupdate hmem (.reconciled hrow)
  | sealDue locked now =>
      -- the one action that changes several trips
      exact ⟨s'.trips, [], (sealDueTrips_rows hkeys h).2, .none _, (List.append_nil _).symm⟩
  | rotateKey version => exact hkeep (by rw [← Except.ok.inj h])
  | cancelCampaign campaignId cutoffAt =>
      simp only [tripStep, requestCampaignCancellation, bind_eq_ok, require_eq_ok, pure_eq_ok] at h
      rcases h with ⟨_, _, rfl⟩
      exact hkeep rfl
  | recomputeAnalytics tripId now =>
      simp only [tripStep, recomputeTripAnalytics, bind_eq_ok, demand_eq_ok, require_eq_ok,
        pure_eq_ok] at h
      rcases h with ⟨t, _, _, _, rfl⟩
      exact hkeep rfl
  | process tripId fuel inputs now =>
      exact hkeep (by rw [Pay.processEndedTrip_frame h])
  | calculate tripId strictStaleness inputs now =>
      have hcalc := Pay.mapError_eq_ok.mp h
      exact hkeep (by rw [Pay.calculateTripPayout_frame hcalc])
  | createOrder authorized orderId campaignId day fingerprint measure =>
      simp only [tripStep, Pay.createCorrectionOrder, bind_eq_ok, require_eq_ok, pure_eq_ok] at h
      rcases h with ⟨_, _, _, _, _, _, rfl⟩
      exact hkeep rfl
  | approveOrder authorized orderId fingerprint releaseAt measure entryId executedAt =>
      exact hkeep (by rw [Pay.approveCorrectionOrder_frame h])
  | deduct entryId sourceEntryId amount now =>
      simp only [tripStep, Pay.recordNegativeAdjustment, bind_eq_ok, demand_eq_ok, require_eq_ok,
        pure_eq_ok] at h
      rcases h with ⟨_, _, _, _, rfl⟩
      exact hkeep rfl
  | markEntry entryId status =>
      simp only [tripStep, Pay.markLedgerEntry, bind_eq_ok, require_eq_ok, pure_eq_ok] at h
      rcases h with ⟨_, _, rfl⟩
      exact hkeep rfl

/-- The transactions of the trip services; they write no other table. -/
def TripAction.writesTrips : TripAction → Bool
  | .start .. | .ingest .. | .endTrip .. | .autoEnd .. | .reconcile .. | .sealDue .. => true
  | _ => false

theorem tripStep_frame (hkeys : (s.trips.map (·.id)).Nodup) (ha : a.writesTrips = true)
    (h : tripStep settings s a = .ok s') : s' = { s with trips := s'.trips } := by
  cases a with
  | start authorized start now =>
      simp only [tripStep, startDriverTrip, bind_eq_ok, require_eq_ok, pure_eq_ok] at h
      rcases h with ⟨_, _, _, _, _, _, _, _, rfl⟩
      rfl
  | ingest authority driverProfileId tripId payload clock =>
      rcases ingestLocationPingBatch_eq h with ⟨rfl, -⟩ | ⟨t, b, _, _, rfl⟩
      · rfl
      · rfl
  | endTrip driverProfileId tripId endReason manifest clock =>
      simp only [tripStep, endDriverTrip, bind_eq_ok, demand_eq_ok, pure_eq_ok] at h
      rcases h with ⟨_, _, _, _, rfl⟩
      rfl
  | autoEnd tripId clock =>
      simp only [tripStep, autoEndInactiveTrip] at h
      cases htrip : s.trip? tripId with
      | none =>
          rw [htrip] at h
          rw [← Except.ok.inj h]
      | some t =>
          simp only [htrip, bind_eq_ok, pure_eq_ok] at h
          rcases h with ⟨_, _, rfl⟩
          rfl
  | reconcile driverProfileId tripId clock =>
      simp only [tripStep, reconcileTripEvidence, bind_eq_ok, demand_eq_ok, pure_eq_ok] at h
      rcases h with ⟨_, _, _, _, rfl⟩
      rfl
  | sealDue locked now => exact (sealDueTrips_rows hkeys h).1
  | _ => exact absurd ha (by simp [TripAction.writesTrips])

/-! ## Tables -/

/-- Which tables an action writes, and with what rows. -/
inductive TripWrite (settings : Settings) (s : Store) : TripAction → Store → Prop
  | trips {a : TripAction} (trips : List TripSession) : a.writesTrips = true →
      TripWrite settings s a { s with trips := trips }
  | bind (binding : AssignmentRuleBinding) :
      TripWrite settings s (.bind binding) { s with bindings := s.bindings ++ [binding] }
  | rotateKey (version : Nat) :
      TripWrite settings s (.rotateKey version) { s with signingKeyVersion := version }
  | cancelCampaign (campaignId : Id) (cutoffAt : Int) :
      s.financialCutoff campaignId = none →
      TripWrite settings s (.cancelCampaign campaignId cutoffAt)
        { s with cutoffs := s.cutoffs ++ [(campaignId, cutoffAt)] }
  | recomputeAnalytics (tripId : Id) (now : Int) (row : TripAnalytics) :
      TripWrite settings s (.recomputeAnalytics tripId now) (upsertAnalytics row s)
  | process {tripId : Id} {fuel : Nat} {inputs : Id → Pay.PayoutInputs} {now : Int} {s' : Store} :
      processEndedTrip settings inputs now fuel tripId s = .ok s' →
      TripWrite settings s (.process tripId fuel inputs now) s'
  | calculate {tripId : Id} {strictStaleness : Bool} {inputs : Pay.PayoutInputs} {now : Int}
      {s' : Store} : Pay.calculateTripPayout settings strictStaleness inputs tripId now s = .ok s' →
      TripWrite settings s (.calculate tripId strictStaleness inputs now) s'
  | createOrder {authorized : Except AppError Unit} {orderId campaignId : Id} {day : Day}
      {fingerprint : Digest} {measure : Id → Pay.Measurement} (order : PayoutCorrectionOrder) :
      order.status = .draft → order.executionResult = [] →
      TripWrite settings s (.createOrder authorized orderId campaignId day fingerprint measure)
        { s with orders := s.orders ++ [order] }
  | approveOrder {authorized : Except AppError Unit} {orderId : Id} {fingerprint : Digest}
      {releaseAt : Option Int} {measure : Id → Pay.Measurement} {entryId : Id → Id}
      {executedAt : Int} {s' : Store} :
      Pay.approveCorrectionOrder authorized orderId fingerprint releaseAt measure entryId executedAt
        s = .ok s' →
      TripWrite settings s
        (.approveOrder authorized orderId fingerprint releaseAt measure entryId executedAt) s'
  | deduct {entryId sourceEntryId : Id} {amount now : Int} (entry : EarningsLedgerEntry) :
      entry.entryType = .reversal → entry.status = .available → entry.recomputeDay = none →
      TripWrite settings s (.deduct entryId sourceEntryId amount now)
        { s with entries := s.entries ++ [entry] }
  | markEntry (entryId : Id) (status : Payout.EarningsLedgerEntryStatus) :
      status = .available ∨ status = .paid →
      TripWrite settings s (.markEntry entryId status) { s with
        entries := s.entries.map (fun entry =>
          if entry.id = entryId then { entry with status := status } else entry) }

theorem tripStep_write (hkeys : (s.trips.map (·.id)).Nodup) (h : tripStep settings s a = .ok s') :
    TripWrite settings s a s' := by
  by_cases hwrites : a.writesTrips = true
  · -- the trip services write one table, the others are listed one by one
    rw [tripStep_frame hkeys hwrites h]
    exact .trips _ hwrites
  · cases a with
    | bind binding =>
        simp only [tripStep, bindAssignment, bind_eq_ok, require_eq_ok, pure_eq_ok] at h
        rcases h with ⟨_, _, rfl⟩
        exact .bind binding
    | rotateKey version =>
        rw [← Except.ok.inj h]
        exact .rotateKey version
    | cancelCampaign campaignId cutoffAt =>
        simp only [tripStep, requestCampaignCancellation, bind_eq_ok, require_eq_ok, pure_eq_ok]
          at h
        rcases h with ⟨_, hfirst, rfl⟩
        exact .cancelCampaign campaignId cutoffAt (Option.isNone_iff_eq_none.mp hfirst)
    | recomputeAnalytics tripId now =>
        simp only [tripStep, recomputeTripAnalytics, bind_eq_ok, demand_eq_ok, require_eq_ok,
          pure_eq_ok] at h
        rcases h with ⟨trip, _, _, _, rfl⟩
        exact .recomputeAnalytics tripId now (analyticsOf s trip now)
    | process tripId fuel inputs now => exact .process h
    | calculate tripId strictStaleness inputs now => exact .calculate (Pay.mapError_eq_ok.mp h)
    | createOrder authorized orderId campaignId day fingerprint measure =>
        simp only [tripStep, Pay.createCorrectionOrder, bind_eq_ok, require_eq_ok, pure_eq_ok] at h
        rcases h with ⟨_, _, _, _, _, _, rfl⟩
        exact .createOrder _ rfl rfl
    | approveOrder authorized orderId fingerprint releaseAt measure entryId executedAt =>
        exact .approveOrder h
    | deduct entryId sourceEntryId amount now =>
        simp only [tripStep, Pay.recordNegativeAdjustment, bind_eq_ok, demand_eq_ok, require_eq_ok,
          pure_eq_ok] at h
        rcases h with ⟨_, _, _, _, rfl⟩
        exact .deduct _ rfl rfl rfl
    | markEntry entryId status =>
        simp only [tripStep, Pay.markLedgerEntry, bind_eq_ok, require_eq_ok, pure_eq_ok] at h
        rcases h with ⟨_, hstatus, rfl⟩
        exact .markEntry entryId status hstatus
    | _ => exact absurd rfl hwrites

end

end Trips
end Mobility
