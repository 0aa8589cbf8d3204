import Mathlib.Logic.Relation
import Mobility.Lib.Table
import Mobility.Trips.System

/-!
# Effects — what a transaction can do to a trip row

* `TripEffect`: one elementary write to a trip and its evidence, with the guards it
  passed.
* `WellFormed`: which columns are filled in which phase of a trip, and that batches
  and manifest lines have distinct names.

`tripStep_effects` shows that every transaction rewrites the stored trips by finite
sequences of these effects and adds at most one new trip; invariants of trips are
proved against the effects.
-/

namespace Mobility
namespace Trips

open Lib
open Payout (Digest)

/-! ## Well-formed trips -/

/-- A started trip commits its manifest when it ends, and only then can its evidence
be verified or adjudicated; batches and manifest lines are named apart. -/
structure WellFormed (t : TripSession) : Prop where
  active : t.status = .active → t.endedAt = none ∧ t.manifest = none ∧ t.manifestEntries = []
    ∧ t.verification = none ∧ t.adjudication = none ∧ t.graceExpiredAt = none
  inactive : t.status ≠ .active → t.endedAt.isSome ∧ t.manifest.isSome
  unsealed : t.status ≠ .sealed → t.sealedAt = none ∧ t.sealReason = none
  verified : t.verification.isSome → t.status = .sealed ∧ t.adjudication = none
  adjudicated : t.adjudication.isSome → t.graceExpiredAt.isSome
  batchKeys : (t.batches.map (·.idempotencyKey)).Nodup
  batchSequences : (t.manifestBatches.map (·.batchSequence)).Nodup
  entryKeys : (t.manifestEntries.map (·.idempotencyKey)).Nodup
  entrySequences : (t.manifestEntries.map (·.batchSequence)).Nodup
  counted : ∀ header ∈ t.manifest, header.batchCount = t.manifestEntries.length
  declared : t.status ≠ .active → ∀ b ∈ t.manifestBatches, Declares t.manifestEntries b

theorem newTrip_wellFormed (start : TripStart) (now : Int) : WellFormed (newTrip start now) where
  active := fun _ => ⟨rfl, rfl, rfl, rfl, rfl, rfl⟩
  inactive := fun h => absurd rfl h
  unsealed := fun _ => ⟨rfl, rfl⟩
  verified := fun h => absurd h (by simp [newTrip])
  adjudicated := fun h => absurd h (by simp [newTrip])
  batchKeys := List.nodup_nil
  batchSequences := List.nodup_nil
  entryKeys := List.nodup_nil
  entrySequences := List.nodup_nil
  counted := fun _ h => absurd h (by simp [newTrip])
  declared := fun h => absurd rfl h

section

variable {t : TripSession}

theorem manifestBatches_append (t : TripSession) (b : LocationPingBatch) :
    ({ t with batches := t.batches ++ [b] } : TripSession).manifestBatches
      = t.manifestBatches ++ (if b.evidenceScope = .manifest then [b] else []) := by
  by_cases hscope : b.evidenceScope = .manifest <;>
    simp [TripSession.manifestBatches, List.filter_append, hscope]

/-- Only an active trip, or an ended one that is not adjudicated, takes manifest batches. -/
theorem scopeOf_eq_manifest {dropped : Bool} (h : scopeOf t dropped = .manifest) :
    t.status ≠ .sealed ∧ t.adjudication = none := by
  unfold scopeOf at h
  split_ifs at h with hdropped hclosed
  have hopen : ¬ (t.status = .sealed) ∧ t.adjudication.isSome = false := by
    simpa [TripSession.closed] using hclosed
  exact ⟨hopen.1, by simpa using hopen.2⟩

theorem WellFormed.store (ht : WellFormed t) {b : LocationPingBatch}
    (hkey : ∀ x ∈ t.batches, x.idempotencyKey ≠ b.idempotencyKey)
    (hsequence : b.evidenceScope = .manifest →
      ∀ x ∈ t.manifestBatches, x.batchSequence ≠ b.batchSequence)
    (hdeclared : b.evidenceScope = .manifest → t.status ≠ .active →
      Declares t.manifestEntries b) :
    WellFormed { t with batches := t.batches ++ [b] } where
  active := ht.active
  inactive := ht.inactive
  unsealed := ht.unsealed
  verified := ht.verified
  adjudicated := ht.adjudicated
  batchKeys := by
    simp only [List.map_append, List.map_cons, List.map_nil]
    refine List.nodup_append.mpr ⟨ht.batchKeys, List.nodup_singleton _, ?_⟩
    intro key hkeys key' hkey' heq
    -- the new key was not found among the stored ones
    rcases List.mem_map.mp hkeys with ⟨x, hx, rfl⟩
    exact hkey x hx (heq.trans (List.mem_singleton.mp hkey'))
  batchSequences := by
    rw [manifestBatches_append]
    split_ifs with hscope
    · simp only [List.map_append, List.map_cons, List.map_nil]
      refine List.nodup_append.mpr ⟨ht.batchSequences, List.nodup_singleton _, ?_⟩
      intro n hn n' hn' heq
      rcases List.mem_map.mp hn with ⟨x, hx, rfl⟩
      exact hsequence hscope x hx (heq.trans (List.mem_singleton.mp hn'))
    · simpa using ht.batchSequences
  entryKeys := ht.entryKeys
  entrySequences := ht.entrySequences
  counted := ht.counted
  declared := by
    intro hstatus x hx
    rw [manifestBatches_append] at hx
    rcases List.mem_append.mp hx with hx | hx
    · exact ht.declared hstatus x hx
    · split_ifs at hx with hscope
      · rw [List.mem_singleton.mp hx]
        exact hdeclared hscope hstatus
      · exact absurd hx List.not_mem_nil

theorem WellFormed.commit (ht : WellFormed t) {manifest : TripEvidenceManifestCreate}
    (hactive : t.status = .active) (hdeclares : ∀ b ∈ t.manifestBatches, Declares manifest.entries b)
    (hkeys : (manifest.entries.map (·.idempotencyKey)).Nodup)
    (hsequences : (manifest.entries.map (·.batchSequence)).Nodup) (endedAt : Int)
    (endReason : Option String) : WellFormed (endWith manifest endedAt endReason t) := by
  rcases ht.active hactive with ⟨_, _, hnone, hunverified, hopen, hgrace⟩
  have hunsealed := ht.unsealed (by simp [hactive])
  exact {
    active := fun h => absurd h (by simp [endWith])
    inactive := fun _ => ⟨rfl, rfl⟩
    unsealed := fun _ => hunsealed
    verified := fun h => absurd h (by simp [endWith, hunverified])
    adjudicated := fun h => absurd h (by simp [endWith, hopen])
    batchKeys := ht.batchKeys
    batchSequences := ht.batchSequences
    entryKeys := by simpa [endWith, hnone] using hkeys
    entrySequences := by simpa [endWith, hnone] using hsequences
    counted := by
      intro header hheader
      have hthis := Option.mem_some_iff.mp hheader
      simp [endWith, hnone, ← hthis]
    declared := by
      intro _ b hb
      have hentries : (endWith manifest endedAt endReason t).manifestEntries = manifest.entries := by
        simp [endWith, hnone]
      rw [hentries]
      exact hdeclares b hb }

end

/-- The columns of a trip that nothing writes after the start. -/
def SameTrip (t t' : TripSession) : Prop :=
  t'.id = t.id ∧ t'.assignmentId = t.assignmentId ∧ t'.campaignId = t.campaignId
    ∧ t'.driverProfileId = t.driverProfileId ∧ t'.vehicleId = t.vehicleId
    ∧ t'.startedAt = t.startedAt

/-! ## Effects -/

section

variable [Evidence] {settings : Settings} {keyVersion : Nat} {t t' : TripSession}

inductive TripEffect (settings : Settings) (keyVersion : Nat) :
    TripSession → TripSession → Prop
  | store {t : TripSession} {b signed : LocationPingBatch} {outcome : BatchOutcome}
      (dropped : Bool) :
      (∀ x ∈ t.batches, x.idempotencyKey ≠ b.idempotencyKey) →
      b.evidenceScope = scopeOf t dropped →
      (b.evidenceScope = .manifest → ∀ x ∈ t.manifestBatches, x.batchSequence ≠ b.batchSequence) →
      (t.status = .ended → t.adjudication = none → Declares t.manifestEntries b) →
      signBatchReceipt settings keyVersion t.id b outcome = .ok signed →
      TripEffect settings keyVersion t { t with batches := t.batches ++ [signed] }
  | commit {t : TripSession} {manifest : TripEvidenceManifestCreate} (endedAt : Int)
      (endReason : Option String) :
      t.status = .active → (∀ b ∈ t.manifestBatches, Declares manifest.entries b) →
      (manifest.entries.map (·.idempotencyKey)).Nodup →
      (manifest.entries.map (·.batchSequence)).Nodup →
      TripEffect settings keyVersion t (endWith manifest endedAt endReason t)
  | verify {t t' : TripSession} {completeness : ManifestCompleteness}
      {reason : TripSealReason} {now : Int} :
      t.status ≠ .active → t.verification = none → t.adjudication = none →
      manifestCompleteness settings t = .ok completeness → completeness.complete = true →
      verifyAndSeal settings keyVersion reason now t = .ok t' →
      TripEffect settings keyVersion t t'
  | adjudicate {t t' : TripSession} {completeness : ManifestCompleteness} {now : Int} :
      t.status ≠ .active → t.verification = none → t.graceExpiredAt.isSome →
      manifestCompleteness settings t = .ok completeness → completeness.complete = false →
      signAdjudicationReceipt settings keyVersion now t = .ok t' →
      TripEffect settings keyVersion t t'
  | expire {t : TripSession} (now : Int) :
      t.status = .ended → t.graceExpiredAt = none →
      TripEffect settings keyVersion t { t with graceExpiredAt := some now }

/-- Finitely many effects, one after the other. -/
abbrev TripEffects (settings : Settings) (keyVersion : Nat) : TripSession → TripSession → Prop :=
  Relation.ReflTransGen (TripEffect settings keyVersion)

/-! ### Shapes of the writes -/

theorem signBatchReceipt_eq {b signed : LocationPingBatch} {tripId : Id} {outcome : BatchOutcome}
    (h : signBatchReceipt settings keyVersion tripId b outcome = .ok signed) :
    ∃ key, signingKey settings keyVersion = .ok key
      ∧ signed = { b with
          receiptOutcome := some outcome
          receipt := some
            { formatVersion := receiptFormatVersion
              keyVersion := keyVersion
              signature := Evidence.hmac key
                (batchReceiptValue tripId { b with receiptOutcome := some outcome }) } } := by
  simp only [signBatchReceipt, bind_eq_ok, pure_eq_ok] at h
  rcases h with ⟨key, hkey, rfl⟩
  exact ⟨key, hkey, rfl⟩

/-- A trip whose evidence is verified at `now` is sealed, unless it already was. -/
theorem verifyAndSeal_eq {reason : TripSealReason} {now : Int} (hstatus : t.status ≠ .active)
    (h : verifyAndSeal settings keyVersion reason now t = .ok t') :
    ∃ key value sealedAt sealReason, signingKey settings keyVersion = .ok key
      ∧ manifestReceiptValue t now = .ok value
      ∧ (t.status = .ended → sealedAt = some now ∧ sealReason = some reason)
      ∧ t' = { t with
          status := .sealed
          manifestComplete := true
          verification := some
            { verifiedAt := now
              receipt :=
                { formatVersion := receiptFormatVersion
                  keyVersion := keyVersion
                  signature := Evidence.hmac key value } }
          sealedAt := sealedAt
          sealReason := sealReason } := by
  simp only [verifyAndSeal, signManifestReceipt, bind_eq_ok, pure_eq_ok] at h
  rcases h with ⟨_, ⟨key, hkey, value, hvalue, rfl⟩, rfl⟩
  cases hcase : t.status with
  | active => exact absurd hcase hstatus
  | ended =>
      refine ⟨key, value, some now, some reason, hkey, hvalue, fun _ => ⟨rfl, rfl⟩, ?_⟩
      simp [trySealTrip]
  | sealed =>
      refine ⟨key, value, t.sealedAt, t.sealReason, hkey, hvalue, fun h => by simp at h, ?_⟩
      simp [trySealTrip]

theorem signAdjudicationReceipt_eq {now : Int}
    (h : signAdjudicationReceipt settings keyVersion now t = .ok t') :
    ∃ adjudication, t' = { t with adjudication := some adjudication } := by
  simp only [signAdjudicationReceipt, bind_eq_ok, pure_eq_ok] at h
  rcases h with ⟨key, _, value, _, rfl⟩
  exact ⟨_, rfl⟩

/-! ### What every effect keeps -/

theorem TripEffect.sameTrip (h : TripEffect settings keyVersion t t') : SameTrip t t' := by
  cases h with
  | store => exact ⟨rfl, rfl, rfl, rfl, rfl, rfl⟩
  | commit => exact ⟨rfl, rfl, rfl, rfl, rfl, rfl⟩
  | verify hstatus _ _ _ _ h =>
      rcases verifyAndSeal_eq hstatus h with ⟨_, _, _, _, _, _, _, rfl⟩
      exact ⟨rfl, rfl, rfl, rfl, rfl, rfl⟩
  | adjudicate _ _ _ _ _ h =>
      rcases signAdjudicationReceipt_eq h with ⟨_, rfl⟩
      exact ⟨rfl, rfl, rfl, rfl, rfl, rfl⟩
  | expire => exact ⟨rfl, rfl, rfl, rfl, rfl, rfl⟩

theorem TripEffect.wellFormed (ht : WellFormed t) (h : TripEffect settings keyVersion t t') :
    WellFormed t' := by
  cases h with
  | store dropped hkey hscope hsequence hdeclared hsigned =>
      rcases signBatchReceipt_eq hsigned with ⟨_, _, rfl⟩
      refine ht.store hkey hsequence ?_
      intro hmanifest hstatus
      -- only an open trip takes a batch into its manifest
      rcases scopeOf_eq_manifest (hscope.symm.trans hmanifest) with ⟨hunsealed, hopen⟩
      have hended : t.status = .ended := by
        cases hcase : t.status with
        | active => exact absurd hcase hstatus
        | ended => rfl
        | sealed => exact absurd hcase hunsealed
      exact hdeclared hended hopen
  | commit endedAt endReason hactive hdeclares hkeys hsequences =>
      exact ht.commit hactive hdeclares hkeys hsequences endedAt endReason
  | verify hstatus _ hopen _ _ h =>
      rcases verifyAndSeal_eq hstatus h with ⟨_, _, _, _, _, _, _, rfl⟩
      exact {
        active := fun h => absurd h (by simp)
        inactive := fun _ => ht.inactive hstatus
        unsealed := fun h => absurd rfl h
        verified := fun _ => ⟨rfl, hopen⟩
        adjudicated := ht.adjudicated
        batchKeys := ht.batchKeys
        batchSequences := ht.batchSequences
        entryKeys := ht.entryKeys
        entrySequences := ht.entrySequences
        counted := ht.counted
        declared := fun _ => ht.declared hstatus }
  | adjudicate hstatus hunverified hgrace _ _ h =>
      rcases signAdjudicationReceipt_eq h with ⟨_, rfl⟩
      exact {
        ht with
        active := fun h => absurd h hstatus
        verified := fun h => absurd h (by simp [hunverified])
        adjudicated := fun _ => hgrace }
  | expire _ hended =>
      exact {
        ht with
        active := fun h => absurd (hended.symm.trans h) (by simp)
        adjudicated := fun _ => rfl }

theorem TripEffects.sameTrip (h : TripEffects settings keyVersion t t') : SameTrip t t' := by
  induction h with
  | refl => exact ⟨rfl, rfl, rfl, rfl, rfl, rfl⟩
  | tail _ heffect ih =>
      rcases ih with ⟨hid, hassignment, hcampaign, hdriver, hvehicle, hstarted⟩
      have h := heffect.sameTrip
      exact ⟨h.1.trans hid, h.2.1.trans hassignment, h.2.2.1.trans hcampaign,
        h.2.2.2.1.trans hdriver, h.2.2.2.2.1.trans hvehicle, h.2.2.2.2.2.trans hstarted⟩

/-- What every effect keeps, every sequence of effects keeps. -/
theorem TripEffects.invariant {P : TripSession → Prop}
    (hstep : ∀ {t t'}, P t → TripEffect settings keyVersion t t' → P t')
    (h : TripEffects settings keyVersion t t') (ht : P t) : P t' := by
  induction h with
  | refl => exact ht
  | tail _ heffect ih => exact hstep ih heffect

end

end Trips
end Mobility
