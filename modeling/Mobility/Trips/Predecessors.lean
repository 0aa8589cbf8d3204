import Mobility.Trips.SealedEvidence

/-!
# Predecessors — which trips a payable trip waits for

The gate of the pay engine reports an earlier trip of the same driver and campaign
that has no calculation.  A sealed trip can still be priced and an open one can still
be sealed; an adjudicated trip can do neither, and whoever waits for it waits for ever.
-/

namespace Mobility
namespace Trips

open Lib
open Pay (Measurement lagosDaysOf tripSlices unprocessedPredecessor? IsPredecessor lagosDayAt)

/-! ## The Lagos calendar -/

theorem lagosDayFor_mono {x y : Int} (h : x ≤ y) : lagosDayFor x ≤ lagosDayFor y := by
  unfold lagosDayFor
  refine Int.ediv_le_ediv ?_ (by omega)
  norm_num [microsPerDay, microsPerSecond]

theorem lagosDayStart_mono {day day' : Day} (h : day ≤ day') :
    (lagosDayUtcRange day).1 ≤ (lagosDayUtcRange day').1 := by
  have hday : (0 : Int) ≤ microsPerDay := by norm_num [microsPerDay, microsPerSecond]
  have hscaled := Int.mul_le_mul_of_nonneg_right h hday
  simp only [lagosDayUtcRange]
  omega

/-- A trip prices no day before the day it started on. -/
theorem startDay_le {s : Store} {t : TripSession} {measurement : Measurement} {day : Day}
    (h : day ∈ lagosDaysOf t (tripSlices s t measurement)) : lagosDayFor t.startedAt ≤ day := by
  unfold lagosDaysOf at h
  split_ifs at h with hnone
  · rw [List.mem_singleton.mp h]
  · rcases List.mem_map.mp (List.mem_dedup.mp h) with ⟨slice, hslice, rfl⟩
    have hday : ∃ offset : Nat, slice.day = lagosDayAt t.startedAt offset := by
      simp only [tripSlices, Pay.classifySession] at hslice
      rcases List.mem_append.mp hslice with hslice | hslice
      · rcases List.mem_filterMap.mp hslice with ⟨points, _, hpoints⟩
        split_ifs at hpoints with hlt
        rcases Option.map_eq_some_iff.mp hpoints with ⟨metres, _, rfl⟩
        exact ⟨points.1, rfl⟩
      · rcases List.mem_map.mp hslice with ⟨instant, _, rfl⟩
        exact ⟨instant.1, rfl⟩
    rcases hday with ⟨offset, hday⟩
    rw [hday, lagosDayAt]
    refine lagosDayFor_mono ?_
    have hsecond : (0 : Int) ≤ (offset : Int) * microsPerSecond :=
      mul_nonneg (Int.natCast_nonneg offset) (by norm_num [microsPerSecond])
    omega

/-! ## Who waits for whom -/

/-- An earlier trip of the same driver and campaign that reaches into the other's
first Lagos day. -/
def Precedes (p t : TripSession) : Prop :=
  p.driverProfileId = t.driverProfileId ∧ p.campaignId = t.campaignId
    ∧ (p.startedAt < t.startedAt ∨ (p.startedAt = t.startedAt ∧ p.id < t.id))
    ∧ p.endedAt.any (· > (lagosDayUtcRange (lagosDayFor t.startedAt)).1)

theorem unprocessedPredecessor?_eq_some {s : Store} {t p : TripSession} {lagosDays : List Day}
    (h : unprocessedPredecessor? s t lagosDays = some p) :
    p ∈ s.trips ∧ IsPredecessor s t lagosDays p := by
  have hmem := List.mem_of_head? h
  rw [List.mem_insertionSort] at hmem
  simpa using List.mem_filter.mp hmem

theorem precedes_of_isPredecessor {s : Store} {t p : TripSession} {measurement : Measurement}
    (h : IsPredecessor s t (lagosDaysOf t (tripSlices s t measurement)) p) : Precedes p t := by
  rcases h with ⟨hdriver, hcampaign, _, hended, hearlier, ⟨day, hday, _, hoverlap⟩, _⟩
  refine ⟨hdriver, hcampaign, hearlier, ?_⟩
  rcases Option.isSome_iff_exists.mp hended with ⟨endedAt, hendedAt⟩
  have hstart := lagosDayStart_mono (startDay_le hday)
  simp only [hendedAt, Option.getD_some] at hoverlap
  simp only [hendedAt, Option.any_some, gt_iff_lt, decide_eq_true_eq]
  omega

/-! ## Adjudication and sealing -/

section

variable [Evidence] {settings : Settings} {keyVersion : Nat} {s s' : Store}
variable {t t' p p' : TripSession} {a : TripAction}

def EvidenceComplete (settings : Settings) (t : TripSession) : Prop :=
  ∃ completeness, manifestCompleteness settings t = .ok completeness
    ∧ completeness.complete = true

/-- Nothing is decided about the evidence of the trip. -/
def EvidenceOpen (t : TripSession) : Prop :=
  t.verification = none ∧ t.adjudication = none

/-- The trips that an action adjudicates: their grace is over and declared batches are
missing. -/
def AdjudicatedBy (settings : Settings) (s : Store) : TripAction → TripSession → Prop
  | .reconcile driverProfileId tripId _, p =>
      s.driverTrip? driverProfileId tripId = some p ∧ EvidenceOpen p ∧ p.graceExpiredAt.isSome
        ∧ ¬ EvidenceComplete settings p
  | .sealDue locked now, p =>
      p ∈ dueTrips locked workerSweepBatchSize now s ∧ p.manifest.isSome
        ∧ ¬ EvidenceComplete settings p
  | _, _ => False

/-- The trips that an action seals. -/
def SealedBy (settings : Settings) (s : Store) : TripAction → TripSession → Prop
  | .endTrip driverProfileId tripId endReason (some manifest) clock, t =>
      s.driverTrip? driverProfileId tripId = some t ∧ manifest.complete = true
        ∧ EvidenceComplete settings (endWith manifest (utcNow clock) endReason t)
  | .autoEnd tripId clock, t =>
      -- a trip that is over, or was heard of lately, is left as it is
      s.trip? tripId = some t ∧ t.status = .active
        ∧ lastLocationAt t ≤ utcNow clock - tripAutoEndNoLocation
        ∧ EvidenceComplete settings (endWith (heldManifest t) (lastLocationAt t)
            (some "auto_ended_no_location") t)
  | .reconcile driverProfileId tripId _, t =>
      s.driverTrip? driverProfileId tripId = some t ∧ EvidenceOpen t
        ∧ EvidenceComplete settings t
  | _, _ => False

/-- The action leaves no sealed trip behind an adjudicated one. -/
def StrandsNone (settings : Settings) (s : Store) (a : TripAction) : Prop :=
  (∀ p, AdjudicatedBy settings s a p → ∀ t ∈ s.trips, t.status = .sealed → ¬ Precedes p t)
    ∧ ∀ t, SealedBy settings s a t → ∀ p ∈ s.trips, p.adjudication.isSome → ¬ Precedes p t

omit [Evidence] in
theorem trip?_eq (hkeys : (s.trips.map (·.id)).Nodup) (ht : t ∈ s.trips) :
    s.trip? t.id = some t :=
  lookup_eq_some hkeys ht rfl

omit [Evidence] in
theorem evidenceOpen_of_not (hverified : ¬ t.verification.isSome = true)
    (hadjudicated : ¬ t.adjudication.isSome = true) : EvidenceOpen t :=
  ⟨Option.not_isSome_iff_eq_none.mp hverified, Option.not_isSome_iff_eq_none.mp hadjudicated⟩

theorem sealedBy_of_change (hkeys : (s.trips.map (·.id)).Nodup) (ht : t ∈ s.trips)
    (h : RowChange settings s a t t') (hbefore : t.status ≠ .sealed) (hafter : t'.status = .sealed) :
    SealedBy settings s a t := by
  cases h with
  | same => exact absurd hafter hbefore
  | ingested => exact absurd hafter hbefore
  | ended h =>
      rename_i endReason manifest clock
      simp only [endTripRow, bind_eq_ok, require_eq_ok] at h
      rcases h with ⟨_, _, _, _, m, hm, _, _, _, _, completeness, hcomplete, h⟩
      split_ifs at h with hseal
      · cases manifest with
        | none =>
            simp only [committedManifest, bind_eq_ok, pure_eq_ok] at hm
            rcases hm with ⟨_, _, rfl⟩
            -- without a manifest nothing is sealed at the end of a trip
            exact absurd hseal.1 (by simp)
        | some manifest =>
            have hsame : manifest = m := by simpa [committedManifest] using hm
            subst hsame
            exact ⟨driverTrip?_eq hkeys ht, hseal.1, completeness, hcomplete, hseal.2⟩
      · have hended : t'.status = .ended := by
          rw [← pure_eq_ok.mp h]
          rfl
        exact absurd (hended.symm.trans hafter) (by simp)
  | autoEnded h =>
      unfold autoEndTripRow at h
      split_ifs at h with hidle
      · rw [← pure_eq_ok.mp h] at hafter
        exact absurd hafter hbefore
      · rw [not_or, not_not, not_lt] at hidle
        simp only [bind_eq_ok] at h
        rcases h with ⟨_, _, completeness, hcomplete, h⟩
        split_ifs at h with hseal
        · exact ⟨trip?_eq hkeys ht, hidle.1, hidle.2, completeness, hcomplete, hseal⟩
        · have hended : t'.status = .ended := by
            rw [← pure_eq_ok.mp h]
            rfl
          exact absurd (hended.symm.trans hafter) (by simp)
  | reconciled h =>
      simp only [reconcileTripRow, bind_eq_ok, require_eq_ok] at h
      rcases h with ⟨_, _, _, _, _, _, h⟩
      split_ifs at h with hverified hadjudicated
      · simp only [bind_eq_ok, require_eq_ok, pure_eq_ok] at h
        rcases h with ⟨_, _, _, _, rfl⟩
        exact absurd hafter hbefore
      · simp only [bind_eq_ok, require_eq_ok, pure_eq_ok] at h
        rcases h with ⟨_, _, _, _, rfl⟩
        exact absurd hafter hbefore
      · simp only [bind_eq_ok] at h
        rcases h with ⟨completeness, hcomplete, h⟩
        split_ifs at h with hseal
        · exact ⟨driverTrip?_eq hkeys ht, evidenceOpen_of_not hverified hadjudicated, completeness,
            hcomplete, hseal⟩
        · simp only [bind_eq_ok, require_eq_ok] at h
          rcases h with ⟨_, _, h⟩
          -- what is still incomplete here is adjudicated, not sealed
          rcases signAdjudicationReceipt_eq h with ⟨_, rfl⟩
          exact absurd hafter hbefore
  | expired _ h =>
      rcases expireGrace_eq h with ⟨_, rfl⟩
      exact absurd hafter hbefore

theorem verifyAndSeal_adjudication {reason : TripSealReason} {now : Int}
    (h : verifyAndSeal settings keyVersion reason now t = .ok t') :
    t'.adjudication = t.adjudication := by
  simp only [verifyAndSeal, signManifestReceipt, bind_eq_ok, pure_eq_ok] at h
  rcases h with ⟨_, ⟨_, _, _, _, rfl⟩, rfl⟩
  unfold trySealTrip
  split_ifs <;> rfl

theorem adjudicatedBy_of_change (hkeys : (s.trips.map (·.id)).Nodup) (hp : p ∈ s.trips)
    (h : RowChange settings s a p p') (hbefore : p.adjudication = none)
    (hafter : p'.adjudication.isSome) :
    AdjudicatedBy settings s a p ∧ p.status ≠ .active := by
  -- a step that leaves the adjudication alone is not the one asked for
  have hcontra : p'.adjudication = p.adjudication →
      AdjudicatedBy settings s a p ∧ p.status ≠ .active := by
    intro hsame
    rw [hsame, hbefore] at hafter
    exact absurd hafter (by simp)
  cases h with
  | same => exact hcontra rfl
  | ingested => exact hcontra rfl
  | ended h =>
      simp only [endTripRow, bind_eq_ok, require_eq_ok] at h
      rcases h with ⟨_, _, _, _, m, _, _, _, _, _, completeness, _, h⟩
      split_ifs at h
      · have hsame := verifyAndSeal_adjudication h
        exact hcontra hsame
      · exact hcontra (by rw [← pure_eq_ok.mp h]; rfl)
  | autoEnded h =>
      unfold autoEndTripRow at h
      split_ifs at h
      · exact hcontra (by rw [← pure_eq_ok.mp h])
      · simp only [bind_eq_ok] at h
        rcases h with ⟨_, _, completeness, _, h⟩
        split_ifs at h
        · have hsame := verifyAndSeal_adjudication h
          exact hcontra hsame
        · exact hcontra (by rw [← pure_eq_ok.mp h]; rfl)
  | reconciled h =>
      simp only [reconcileTripRow, bind_eq_ok, require_eq_ok] at h
      rcases h with ⟨_, _, _, hstatus, _, _, h⟩
      split_ifs at h with hverified hadjudicated
      · simp only [bind_eq_ok, require_eq_ok, pure_eq_ok] at h
        rcases h with ⟨_, _, _, _, rfl⟩
        exact hcontra rfl
      · simp [hbefore] at hadjudicated
      · simp only [bind_eq_ok] at h
        rcases h with ⟨completeness, hcompleteness, h⟩
        split_ifs at h with hseal
        · exact hcontra (verifyAndSeal_adjudication h)
        · simp only [bind_eq_ok, require_eq_ok] at h
          rcases h with ⟨_, hgrace, _⟩
          refine ⟨⟨driverTrip?_eq hkeys hp, evidenceOpen_of_not hverified hadjudicated, hgrace, ?_⟩,
            hstatus⟩
          -- complete evidence would have sealed the trip instead
          rintro ⟨other, hother, hcomplete⟩
          have hsame := Except.ok.inj (hother.symm.trans hcompleteness)
          exact hseal (hsame ▸ hcomplete)
  | expired hdue h =>
      have hended : p.status ≠ .active := by
        have hgrace := (mem_dueTrips hdue).2
        simp only [graceDue, Bool.and_eq_true, decide_eq_true_eq] at hgrace
        simp [hgrace.1.1]
      simp only [expireGrace] at h
      split_ifs at h with hmanifest
      · simp only [bind_eq_ok] at h
        rcases h with ⟨completeness, hcompleteness, h⟩
        split_ifs at h with hseal
        · exact hcontra (by rw [← pure_eq_ok.mp h])
        · refine ⟨⟨hdue, hmanifest, ?_⟩, hended⟩
          rintro ⟨other, hother, hcomplete⟩
          have hsame := Except.ok.inj (hother.symm.trans hcompleteness)
          exact hseal (hsame ▸ hcomplete)
      · exact hcontra (by rw [← pure_eq_ok.mp h])

/-- A trip that is no longer active keeps its end. -/
theorem TripEffects.endedAt (hstatus : t.status ≠ .active)
    (h : TripEffects settings keyVersion t t') :
    t'.status ≠ .active ∧ t'.endedAt = t.endedAt := by
  refine TripEffects.invariant
    (P := fun t' => t'.status ≠ .active ∧ t'.endedAt = t.endedAt) ?_ h ⟨hstatus, rfl⟩
  rintro x x' ⟨hx, hendedAt⟩ heffect
  cases heffect with
  | store => exact ⟨hx, hendedAt⟩
  | commit _ _ hactive => exact absurd hactive hx
  | verify hstatus _ _ _ _ h =>
      rcases verifyAndSeal_eq hstatus h with ⟨_, _, _, _, _, _, _, rfl⟩
      exact ⟨by simp, hendedAt⟩
  | adjudicate _ _ _ _ _ h =>
      rcases signAdjudicationReceipt_eq h with ⟨_, rfl⟩
      exact ⟨hx, hendedAt⟩
  | expire => exact ⟨hx, hendedAt⟩

omit [Evidence] in
theorem precedes_congr (hp : SameTrip p p') (hend : p'.endedAt = p.endedAt) (ht : SameTrip t t') :
    Precedes p' t' ↔ Precedes p t := by
  unfold Precedes
  rw [hp.1, hp.2.2.1, hp.2.2.2.1, hp.2.2.2.2.2, hend, ht.1, ht.2.2.1, ht.2.2.2.1, ht.2.2.2.2.2]

/-! ## Runs -/

/-- Sealed trips are verified: every service verifies before it seals. -/
def SealedVerified (s : Store) : Prop :=
  ∀ t ∈ s.trips, t.status = .sealed → t.verification.isSome

theorem TripEffect.sealedVerified (h : TripEffect settings keyVersion t t')
    (ht : t.status = .sealed → t.verification.isSome) :
    t'.status = .sealed → t'.verification.isSome := by
  cases h with
  | store => exact ht
  | commit => exact fun h => absurd h (by simp [endWith])
  | verify hstatus _ _ _ _ h =>
      rcases verifyAndSeal_eq hstatus h with ⟨_, _, _, _, _, _, _, rfl⟩
      exact fun _ => rfl
  | adjudicate _ _ _ _ _ h =>
      rcases signAdjudicationReceipt_eq h with ⟨_, rfl⟩
      exact ht
  | expire => exact ht

/-- A row of the next state is a changed row or a trip that just started. -/
theorem mem_trips_of_step (hkeys : (s.trips.map (·.id)).Nodup)
    (h : tripStep settings s a = .ok s') (ht' : t' ∈ s'.trips) :
    (∃ t ∈ s.trips, RowChange settings s a t t')
      ∨ ∃ authorized start now, a = .start authorized start now
        ∧ (∀ t ∈ s.trips, t.id ≠ start.tripId) ∧ t' = newTrip start now := by
  rcases tripStep_rows hkeys h with ⟨rows, added, hrows, hstarted, htrips⟩
  rcases List.mem_append.mp (htrips ▸ ht') with hrow | hnew
  · exact .inl (exists_of_mem_forall₂ hrows hrow)
  · cases hstarted with
    | none => exact absurd hnew List.not_mem_nil
    | start authorized now hfresh =>
        exact .inr ⟨authorized, _, now, rfl, hfresh, List.mem_singleton.mp hnew⟩

theorem sealedVerified_of_reachable (hs : Reachable (fleet settings) s) : SealedVerified s := by
  refine hs.invariant_of (TripsInv settings) (fun _ h => tripsInv_of_reachable h) SealedVerified
    (fun _ ht => absurd ht List.not_mem_nil) ?_
  intro s a s' hinv hP _ hstep t' ht'
  rcases mem_trips_of_step hinv.keys hstep ht' with ⟨t, ht, hchange⟩ | ⟨_, start, now, _, _, rfl⟩
  · exact TripEffects.invariant
      (P := fun t => t.status = .sealed → t.verification.isSome)
      (fun hx heffect => heffect.sealedVerified hx) (hchange.effects (hinv.wellFormed t ht))
      (hP t ht)
  · exact fun h => absurd h (by simp [newTrip])

/-- No sealed trip has an adjudicated trip before it. -/
def NoneStranded (s : Store) : Prop :=
  ∀ p ∈ s.trips, ∀ t ∈ s.trips, p.adjudication.isSome → t.status = .sealed → ¬ Precedes p t

theorem tripStep_noneStranded (hinv : TripsInv settings s) (hs : NoneStranded s)
    (hallowed : StrandsNone settings s a) (h : tripStep settings s a = .ok s') :
    NoneStranded s' := by
  intro p' hp' t' ht' hadjudicated hsealed
  rcases mem_trips_of_step hinv.keys h hp' with ⟨p, hp, hpchange⟩ | ⟨_, start, now, _, _, rfl⟩
  swap
  · exact absurd hadjudicated (by simp [newTrip])
  rcases mem_trips_of_step hinv.keys h ht' with ⟨t, ht, htchange⟩ | ⟨_, start, now, _, _, rfl⟩
  swap
  · exact absurd hsealed (by simp [newTrip])
  have hwell := hinv.wellFormed p hp
  have hnot : p.status ≠ .active ∧ ¬ Precedes p t := by
    by_cases hpold : p.adjudication.isSome
    · refine ⟨?_, ?_⟩
      · intro hactive
        rw [(hwell.active hactive).2.2.2.2.1] at hpold
        exact absurd hpold (by simp)
      · by_cases htold : t.status = .sealed
        · exact hs p hp t ht hpold htold
        · exact hallowed.2 t (sealedBy_of_change hinv.keys ht htchange htold hsealed) p hp hpold
    · rcases adjudicatedBy_of_change hinv.keys hp hpchange (by simpa using hpold) hadjudicated with
        ⟨hby, hstatus⟩
      refine ⟨hstatus, ?_⟩
      by_cases htold : t.status = .sealed
      · exact hallowed.1 p hby t ht htold
      · -- one action does not adjudicate one trip and seal another
        have htby := sealedBy_of_change hinv.keys ht htchange htold hsealed
        cases a with
        | reconcile driverProfileId tripId clock =>
            have hsame : p = t := Option.some.inj (hby.1.symm.trans htby.1)
            exact absurd (hsame ▸ htby.2.2) hby.2.2.2
        | sealDue => exact absurd htby (by simp [SealedBy])
        | _ => exact absurd hby (by simp [AdjudicatedBy])
  have hpeffects := hpchange.effects hwell
  have hend := (TripEffects.endedAt hnot.1 hpeffects).2
  rw [precedes_congr (TripEffects.sameTrip hpeffects) hend
    (htchange.sameTrip (hinv.wellFormed t ht))]
  exact hnot.2

theorem noneStranded_of_run (hs : ReachableBy (fleet settings) (StrandsNone settings) s) :
    NoneStranded s :=
  hs.invariant_of (TripsInv settings) (fun _ h => tripsInv_of_reachable h) NoneStranded
    (fun _ hp => absurd hp List.not_mem_nil)
    (fun _ _ _ hinv hP hallowed hstep => tripStep_noneStranded hinv hP hallowed hstep)

/-- Whom the gate reports to a sealed trip can still be priced, or can still be sealed. -/
def PredecessorsPayable (settings : Settings) (s : Store) : Prop :=
  ∀ t ∈ s.trips, t.status = .sealed → ∀ (measurement : Measurement) (p : TripSession),
    unprocessedPredecessor? s t (lagosDaysOf t (tripSlices s t measurement)) = some p →
      (p.status = .sealed ∧ verifyManifestReceipt settings p = .ok true)
        ∨ (p.status = .ended ∧ p.adjudication = none)

theorem predecessorsPayable_of_noneStranded (hinv : TripsInv settings s)
    (hverified : SealedVerified s) (hs : NoneStranded s) : PredecessorsPayable settings s := by
  intro t ht hsealed measurement p hp
  rcases unprocessedPredecessor?_eq_some hp with ⟨hmem, hpredecessor⟩
  rcases hpredecessor.2.2.1 with hended | hpsealed
  · refine .inr ⟨hended, ?_⟩
    by_contra hadjudicated
    exact hs p hmem t ht (Option.isSome_iff_ne_none.mpr hadjudicated) hsealed
      (precedes_of_isPredecessor hpredecessor)
  · exact .inl ⟨hpsealed, ((hinv.sound p hmem).complete (hverified p hmem hpsealed)).receipt⟩

/-- In a run that never puts a sealed trip behind an adjudicated one, every reported
predecessor is sealed and verified, or ended with its evidence open. -/
theorem predecessors_payable (settings : Settings) (s : Store)
    (hs : ReachableBy (fleet settings) (StrandsNone settings) s) :
    PredecessorsPayable settings s :=
  predecessorsPayable_of_noneStranded (tripsInv_of_reachable hs.reachable)
    (sealedVerified_of_reachable hs.reachable) (noneStranded_of_run hs)

/-- Without adjudicated trips, an action that adjudicates none strands none. -/
theorem strandsNone_of_none_adjudicated
    (h : (match a with
      | .reconcile .. | .sealDue .. => false
      | _ => s.trips.all (·.adjudication.isNone)) = true) : StrandsNone settings s a := by
  cases a with
  | reconcile => exact absurd h (by simp)
  | sealDue => exact absurd h (by simp)
  | _ =>
      refine ⟨fun p hp => absurd hp (by simp [AdjudicatedBy]), ?_⟩
      intro t _ p hp hadjudicated
      have hopen := List.all_eq_true.mp h p hp
      rw [Option.isNone_iff_eq_none] at hopen
      exact absurd hadjudicated (by simp [hopen])

end

/-- A sealed trip waits for an earlier sealed trip that was not priced yet. -/
theorem predecessors_payable_two_sealed :
    ∃ s, Reachable (@fleet sampleEvidence sampleSettings) s
      ∧ (∃ t ∈ s.trips, t.status = .sealed ∧ ∃ p,
          unprocessedPredecessor? s t (lagosDaysOf t (tripSlices s t {})) = some p)
      ∧ @PredecessorsPayable sampleEvidence sampleSettings s := by
  let _ := sampleEvidence
  rcases (fleet sampleSettings).exists_reachableBy
    (StrandsNone sampleSettings) (sealedTrip 1 0 ++ sealedTrip 2 100)
    (fun _ _ _ => strandsNone_of_none_adjudicated)
    (fun s => s.trips.any (fun t => t.status = .sealed
      && (unprocessedPredecessor? s t (lagosDaysOf t (tripSlices s t {}))).isSome))
    (by decide +kernel) with ⟨s, hs, htest⟩
  rcases List.any_eq_true.mp htest with ⟨t, ht, htest⟩
  simp only [Bool.and_eq_true, decide_eq_true_eq] at htest
  exact ⟨s, hs.reachable, ⟨t, ht, htest.1, Option.isSome_iff_exists.mp htest.2⟩,
    predecessors_payable sampleSettings s hs⟩

/-- Trip 1 ends and its declared batch never arrives; trip 2 is sealed later that day. -/
def strandedTrip : List TripAction :=
  let _ := sampleEvidence
  [ startTrip 1 (secondsAfterNoon 0),
    .endTrip 7 1 none (some (manifestOf 1 false [sampleBatch 1 0])) (secondsAfterNoon 80),
    .sealDue (fun _ => false) (secondsAfterNoon 700) ]
    ++ sealedTrip 2 800

/-- Trip 2 waits for trip 1, which stays adjudicated and unsealed. -/
theorem not_predecessors_always_payable :
    ¬ ∀ s, Reachable (@fleet sampleEvidence sampleSettings) s →
      @PredecessorsPayable sampleEvidence sampleSettings s := by
  let _ := sampleEvidence
  intro hclaim
  rcases (fleet sampleSettings).exists_reachable strandedTrip
    (fun s => s.trips.any (fun t => t.status = .sealed
      && (unprocessedPredecessor? s t (lagosDaysOf t (tripSlices s t {}))).any
        (fun p => p.status = .ended && p.adjudication.isSome)))
    (by decide +kernel) with ⟨s, hs, htest⟩
  rcases List.any_eq_true.mp htest with ⟨t, ht, htest⟩
  simp only [Bool.and_eq_true, decide_eq_true_eq] at htest
  rcases (Option.any_eq_true _ _).mp htest.2 with ⟨p, hp, hptest⟩
  simp only [Bool.and_eq_true, decide_eq_true_eq] at hptest
  rcases hclaim s hs t ht htest.1 {} p hp with ⟨hsealed, _⟩ | ⟨_, hopen⟩
  · exact absurd (hptest.1.symm.trans hsealed) (by simp)
  · rw [hopen] at hptest
    exact absurd hptest.2 (by simp)

end Trips
end Mobility
