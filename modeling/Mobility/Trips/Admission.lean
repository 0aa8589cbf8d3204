import Mobility.Trips.Predecessors

/-!
# Admission — when declared evidence is admitted

A batch that the committed manifest of an open ended trip declares is stored for the
manifest unless pay was already calculated on a day it touches; a trip that holds
every declared batch is sealed by its next reconciliation.
-/

namespace Mobility
namespace Trips

open Lib
open Payout (Digest)

section

variable [Evidence] {settings : Settings} {keyVersion : Nat} {s s' : Store}
variable {t t' : TripSession} {authority : CaptureAuthority} {payload : LocationPingBatchCreate}
variable {clock : Int}

/-! ## One delivery -/

/-- A declared batch of an open ended trip, not stored yet, of which at least one
sample passes the classifier. -/
structure DeclaredDelivery (s : Store) (t : TripSession) (authority : CaptureAuthority)
    (payload : LocationPingBatchCreate) (clock : Int) : Prop where
  stored : t ∈ s.trips
  ended : t.status = .ended
  opened : t.adjudication = none
  declared : ∃ sequence digest, payload.batchSequence = some sequence
    ∧ batchPayloadHash payload = .ok digest ∧ Declared t payload sequence digest
  fresh : ∀ b ∈ t.batches, b.idempotencyKey ≠ payload.idempotencyKey
  accepted : ∃ ping ∈ payload.pings, classifyPing t authority (utcNow clock) ping = none

/-- The late-pay rule, the batch size and the signing key let the batch in. -/
structure Admissible (settings : Settings) (s : Store) (t : TripSession)
    (payload : LocationPingBatchCreate) : Prop where
  unpaid : ¬ LatePayCalculated s t payload
  size : payload.pings.length ≤ maxLocationPingsPerBatch
  signable : ∃ key, signingKey settings s.signingKeyVersion = .ok key

/-- The trip holds a manifest batch with this key. -/
def HoldsEvidence (s : Store) (tripId : Id) (idempotencyKey : String) : Prop :=
  ∃ t ∈ s.trips, t.id = tripId ∧ ∃ b ∈ t.manifestBatches, b.idempotencyKey = idempotencyKey

def Delivers (settings : Settings) (s : Store) (t : TripSession) (authority : CaptureAuthority)
    (payload : LocationPingBatchCreate) (clock : Int) (s' : Store) : Prop :=
  ingestLocationPingBatch settings authority t.driverProfileId t.id payload clock s = .ok s'

omit [Evidence] in
theorem wholeBatchRejection_eq_none (now : Int)
    (h : ∃ ping ∈ payload.pings, classifyPing t authority now ping = none) :
    wholeBatchRejection t authority payload now = none := by
  rcases h with ⟨ping, hping, haccepted⟩
  refine if_neg ?_
  intro hall
  have hrejected := List.all_eq_true.mp hall _ (List.mem_map_of_mem hping)
  rw [haccepted] at hrejected
  exact absurd hrejected (by simp)

omit [Evidence] in
/-- The declared number of a batch that is not stored is not taken. -/
theorem sequence_free (ht : WellFormed t) (hended : t.status = .ended) {sequence : Nat}
    {digest : Digest} (hdeclared : Declared t payload sequence digest)
    (hfresh : ∀ b ∈ t.batches, b.idempotencyKey ≠ payload.idempotencyKey) :
    ∀ b ∈ t.manifestBatches, b.batchSequence ≠ sequence := by
  intro b hb htaken
  rcases hdeclared with ⟨entry, hentry, hkey, hsequence, _⟩
  rcases ht.declared (by simp [hended]) b hb with ⟨other, hother, hotherkey, hmatches⟩
  have hsame : other = entry :=
    eq_of_key_eq ht.entrySequences hother hentry
      (hmatches.1.symm.trans (htaken.trans hsequence.symm))
  exact hfresh b (mem_manifestBatches.mp hb).1 (hotherkey.symm.trans (hsame ▸ hkey))

theorem admissible_delivers (hinv : TripsInv settings s)
    (hd : DeclaredDelivery s t authority payload clock) (hadmissible : Admissible settings s t payload) :
    ∃ s', Delivers settings s t authority payload clock s'
      ∧ HoldsEvidence s' t.id payload.idempotencyKey := by
  have ht := hinv.wellFormed t hd.stored
  rcases hd.declared with ⟨sequence, digest, hsequence, hdigest, hdeclared⟩
  rcases hadmissible.signable with ⟨key, hkey⟩
  have hfind := driverTrip?_eq hinv.keys hd.stored
  have hnone : t.batches.find? (·.idempotencyKey = payload.idempotencyKey) = none :=
    lookup_eq_none.mpr hd.fresh
  have haccepting : t.sealReason ≠ some .autoEnded := by
    rw [(ht.unsealed (by simp [hd.ended])).2]
    simp
  have hopen : scopeOf t false = .manifest := by
    simp [scopeOf, TripSession.closed, hd.ended, hd.opened]
  -- nothing was calculated on its days, so the batch is not dropped
  have hdropped : decide (t.status ≠ .active ∧ LatePayCalculated s t payload) = false := by
    simp [hadmissible.unpaid]
  let batch := newBatch t authority payload sequence digest false (utcNow clock)
  have hsigned : ∃ signed, signBatchReceipt settings s.signingKeyVersion t.id batch .accepted
      = .ok signed := by
    simp [signBatchReceipt, hkey]
  rcases hsigned with ⟨signed, hsigned⟩
  have hadmit : admitBatch settings authority t payload sequence digest clock s
      = .ok (s.updateTrip t.id (fun t => { t with batches := t.batches ++ [signed] })) := by
    simp only [admitBatch, bind_eq_ok, require_eq_ok, hdropped]
    refine ⟨⟨⟩, haccepting, ⟨⟩, hadmissible.size, ⟨⟩, fun _ => hdeclared, ⟨⟩, ?_, ?_⟩
    · intro _
      -- a declared sequence number is taken by its own batch alone
      exact sequence_free ht hd.ended hdeclared hd.fresh
    · simp [wholeBatchRejection_eq_none _ hd.accepted, hsigned, batch]
  refine ⟨s.updateTrip t.id (fun t => { t with batches := t.batches ++ [signed] }), ?_,
    { t with batches := t.batches ++ [signed] }, ?_, rfl, signed, ?_⟩
  · simp only [Delivers, ingestLocationPingBatch, bind_eq_ok, demand_eq_ok]
    refine ⟨t, hfind, ?_⟩
    rw [if_neg (by simp [hd.ended])]
    simp only [bind_eq_ok, demand_eq_ok]
    exact ⟨key, hkey, sequence, hsequence, digest, hdigest, by simpa only [hnone] using hadmit⟩
  · refine List.mem_map.mpr ⟨t, hd.stored, ?_⟩
    simp
  · rcases signBatchReceipt_eq hsigned with ⟨_, _, rfl⟩
    exact ⟨mem_manifestBatches.mpr ⟨by simp, hopen⟩, rfl⟩

theorem delivers_admissible (hinv : TripsInv settings s)
    (hd : DeclaredDelivery s t authority payload clock)
    (h : Delivers settings s t authority payload clock s')
    (hholds : HoldsEvidence s' t.id payload.idempotencyKey) : Admissible settings s t payload := by
  rcases hholds with ⟨t', ht', hid, b, hb, hkey⟩
  rcases mem_manifestBatches.mp hb with ⟨hmem, hscope⟩
  rcases ingestLocationPingBatch_eq h with ⟨rfl, -⟩ | ⟨x, signed, hx, hadmits, rfl⟩
  · -- nothing was stored, so the batch was stored before
    have hsame : t' = t := eq_of_key_eq hinv.keys ht' hd.stored hid
    subst hsame
    exact absurd hkey (hd.fresh b hmem)
  · have hxt : x = t := Option.some.inj (hx.symm.trans (driverTrip?_eq hinv.keys hd.stored))
    subst hxt
    rcases List.mem_map.mp ht' with ⟨y, hy, rfl⟩
    have hyid : y.id = x.id := by
      by_cases hthis : y.id = x.id
      · exact hthis
      · rw [if_neg hthis] at hid
        exact hid
    have hsame : y = x := eq_of_key_eq hinv.keys hy hd.stored hyid
    subst hsame
    rw [if_pos rfl] at hmem
    rcases List.mem_append.mp hmem with hold | hnew
    · exact absurd hkey (hd.fresh b hold)
    · rw [List.mem_singleton.mp hnew] at hscope
      rcases hadmits.written with ⟨sequence, digest, outcome, _, _, _, _, _, hsigned⟩
      rcases signBatchReceipt_eq hsigned with ⟨key, hkeyOk, rfl⟩
      refine ⟨?_, hadmits.size, key, hkeyOk⟩
      intro hlate
      have hdropped : Dropped s y payload := ⟨by simp [hd.ended], hlate⟩
      simp [newBatch, scopeOf, hdropped] at hscope

/-! ## Evidence that is held stays held -/

/-- What an ended trip keeps of its manifest. -/
theorem TripEffects.evidence (hstatus : t.status ≠ .active)
    (h : TripEffects settings keyVersion t t') :
    t'.status ≠ .active ∧ t'.manifestEntries = t.manifestEntries
      ∧ ∀ b ∈ t.manifestBatches, b ∈ t'.manifestBatches := by
  refine TripEffects.invariant
    (P := fun t' => t'.status ≠ .active ∧ t'.manifestEntries = t.manifestEntries
      ∧ ∀ b ∈ t.manifestBatches, b ∈ t'.manifestBatches) ?_ h ⟨hstatus, rfl, fun _ hb => hb⟩
  rintro x x' ⟨hx, hentries, hbatches⟩ heffect
  cases heffect with
  | store =>
      refine ⟨hx, hentries, fun b hb => ?_⟩
      rw [manifestBatches_append]
      exact List.mem_append_left _ (hbatches b hb)
  | commit _ _ hactive => exact absurd hactive hx
  | verify hstatus _ _ _ _ h =>
      rcases verifyAndSeal_eq hstatus h with ⟨_, _, _, _, _, _, _, rfl⟩
      exact ⟨by simp, hentries, hbatches⟩
  | adjudicate _ _ _ _ _ h =>
      rcases signAdjudicationReceipt_eq h with ⟨_, rfl⟩
      exact ⟨hx, hentries, hbatches⟩
  | expire => exact ⟨hx, hentries, hbatches⟩

/-- The trip's later row in a later state. -/
structure LaterTrip (t t' : TripSession) : Prop where
  same : SameTrip t t'
  inactive : t'.status ≠ .active
  entries : t'.manifestEntries = t.manifestEntries
  batches : ∀ b ∈ t.manifestBatches, b ∈ t'.manifestBatches

theorem run_laterTrip :
    ∀ {as : List TripAction} {s s' : Store} {t : TripSession}, Reachable (fleet settings) s →
      t ∈ s.trips → t.status ≠ .active → (fleet settings).run s as = .ok s' →
      ∃ t' ∈ s'.trips, LaterTrip t t' := by
  intro as
  induction as with
  | nil =>
      intro s s' t _ ht hstatus hrun
      have hsame : s = s' := by simpa [Machine.run] using hrun
      exact ⟨t, hsame ▸ ht, ⟨rfl, rfl, rfl, rfl, rfl, rfl⟩, hstatus, rfl, fun _ hb => hb⟩
  | cons a as ih =>
      intro s s' t hs ht hstatus hrun
      rcases bind_eq_ok.mp hrun with ⟨s₁, hstep, hrest⟩
      have hinv := tripsInv_of_reachable hs
      rcases exists_row hinv.keys hstep ht with ⟨t₁, ht₁, hchange⟩
      have heffects := hchange.effects (hinv.wellFormed t ht)
      have hsame := TripEffects.sameTrip heffects
      rcases TripEffects.evidence hstatus heffects with ⟨hstatus₁, hentries, hbatches⟩
      rcases ih (.step hs trivial hstep) ht₁ hstatus₁ hrest with ⟨t', ht', hlater⟩
      have hkept := hlater.same
      refine ⟨t', ht', ?_, hlater.inactive, hlater.entries.trans hentries,
        fun b hb => hlater.batches b (hbatches b hb)⟩
      exact ⟨hkept.1.trans hsame.1, hkept.2.1.trans hsame.2.1, hkept.2.2.1.trans hsame.2.2.1,
        hkept.2.2.2.1.trans hsame.2.2.2.1, hkept.2.2.2.2.1.trans hsame.2.2.2.2.1,
        hkept.2.2.2.2.2.trans hsame.2.2.2.2.2⟩

/-! ## All evidence held -/

/-- Every declared batch is held. -/
def HoldsAll (t : TripSession) : Prop :=
  ∀ entry ∈ t.manifestEntries, ∃ b ∈ t.manifestBatches, b.idempotencyKey = entry.idempotencyKey

theorem entryVerdict_held (ht : WellFormed t) (hsound : SoundEvidence settings t)
    (hstatus : t.status ≠ .active) {entry : TripEvidenceManifestEntry}
    (hentry : entry ∈ t.manifestEntries)
    (hheld : ∃ b ∈ t.manifestBatches, b.idempotencyKey = entry.idempotencyKey) :
    entryVerdict settings t entry = .ok .held := by
  rcases hheld with ⟨b, hb, hkey⟩
  have hkeys : (t.manifestBatches.map (·.idempotencyKey)).Nodup :=
    ht.batchKeys.sublist (List.filter_sublist.map _)
  have hfind := lookup_eq_some hkeys hb hkey
  rcases ht.declared hstatus b hb with ⟨other, hother, hotherkey, hmatches⟩
  have hsame : other = entry := eq_of_key_eq ht.entryKeys hother hentry (hotherkey.trans hkey)
  have hreceipt := hsound.receipts b (mem_manifestBatches.mp hb).1
  simp only [entryVerdict, hfind]
  rw [if_neg (not_not.mpr (hsame ▸ hmatches))]
  simp [hreceipt]

theorem evidenceComplete_of_holdsAll (ht : WellFormed t) (hsound : SoundEvidence settings t)
    (hstatus : t.status ≠ .active) (hall : HoldsAll t) : EvidenceComplete settings t := by
  have hverdicts := checkedMap_const
    (fun entry hentry => entryVerdict_held ht hsound hstatus hentry (hall entry hentry))
  refine ⟨_, by simp only [manifestCompleteness, hverdicts]; rfl, ?_⟩
  rcases Option.isSome_iff_exists.mp (ht.inactive hstatus).2 with ⟨header, hheader⟩
  have hcount := ht.counted header (by simp [hheader])
  have hdeclared : ∀ b ∈ t.manifestBatches, ∃ entry ∈ t.manifestEntries,
      entry.idempotencyKey = b.idempotencyKey := by
    intro b hb
    rcases ht.declared hstatus b hb with ⟨entry, hentry, hkey, _⟩
    exact ⟨entry, hentry, hkey⟩
  simpa [hheader, hcount, List.count_replicate] using hdeclared

theorem reconcileTripRow_seals (ht : WellFormed t) (hsound : SoundEvidence settings t)
    (hverified : t.status = .sealed → t.verification.isSome) (hstatus : t.status ≠ .active)
    (hopen : t.adjudication = none) (hall : HoldsAll t) {key : Key}
    (hkey : signingKey settings keyVersion = .ok key) (clock : Int) :
    ∃ t', reconcileTripRow settings keyVersion (utcNow clock) t = .ok t' ∧ SameTrip t t'
      ∧ t'.status = .sealed ∧ t'.verification.isSome := by
  have hmanifest := (ht.inactive hstatus).2
  by_cases hdone : t.verification.isSome
  · refine ⟨t, ?_, ⟨rfl, rfl, rfl, rfl, rfl, rfl⟩, (ht.verified hdone).1, hdone⟩
    have hreceipt := (hsound.complete hdone).receipt
    simp only [reconcileTripRow, bind_eq_ok, require_eq_ok]
    exact ⟨⟨⟩, hmanifest, ⟨⟩, hstatus, key, hkey, by simp [hdone, hreceipt]⟩
  · rcases evidenceComplete_of_holdsAll ht hsound hstatus hall with ⟨completeness, hc, hcomplete⟩
    have hended : t.status = .ended := by
      cases hcase : t.status with
      | active => exact absurd hcase hstatus
      | ended => rfl
      | sealed => exact absurd (hverified hcase) hdone
    -- the service clock has whole milliseconds, so the receipt can be written
    have hprecise : utcNow clock % 1000 = 0 := by
      unfold utcNow
      omega
    have hsigned : ∃ t', verifyAndSeal settings keyVersion .lateDataComplete (utcNow clock) t
        = .ok t' := by
      simp [verifyAndSeal, signManifestReceipt, hkey, manifestReceiptValue, epochMilliseconds,
        hprecise]
    rcases hsigned with ⟨t', ht'⟩
    refine ⟨t', ?_, (TripEffect.verify hstatus (by simpa using hdone) hopen hc hcomplete
      ht').sameTrip, ?_, ?_⟩
    · simp only [reconcileTripRow, bind_eq_ok, require_eq_ok]
      refine ⟨⟨⟩, hmanifest, ⟨⟩, hstatus, key, hkey, ?_⟩
      rw [if_neg hdone, if_neg (by simp [hopen])]
      simp only [bind_eq_ok]
      exact ⟨completeness, hc, by rw [if_pos hcomplete]; exact ht'⟩
    · rcases verifyAndSeal_eq hstatus ht' with ⟨_, _, _, _, _, _, _, rfl⟩
      rfl
    · rcases verifyAndSeal_eq hstatus ht' with ⟨_, _, _, _, _, _, _, rfl⟩
      rfl

/-! ## Whole runs -/

/-- At some point of the run the declared batch is delivered, and may be let in. -/
def DeliveredIn (settings : Settings) (s : Store) (tripId : Id) (as : List TripAction)
    (entry : TripEvidenceManifestEntry) : Prop :=
  ∃ before after authority payload clock s₁ t₁,
    as = before ++ .ingest authority t₁.driverProfileId t₁.id payload clock :: after
      ∧ (fleet settings).run s before = .ok s₁ ∧ t₁.id = tripId
      ∧ payload.idempotencyKey = entry.idempotencyKey
      ∧ DeclaredDelivery s₁ t₁ authority payload clock ∧ Admissible settings s₁ t₁ payload

/-- A delivered batch is held at the end of the run. -/
theorem DeliveredIn.held (hs : Reachable (fleet settings) s) {as : List TripAction}
    (hrun : (fleet settings).run s as = .ok s') {tripId : Id} {entry : TripEvidenceManifestEntry}
    (h : DeliveredIn settings s tripId as entry) :
    HoldsEvidence s' tripId entry.idempotencyKey := by
  rcases h with ⟨before, after, authority, payload, clock, s₁, t₁, rfl, hbefore, rfl, hkey, hd,
    hadmissible⟩
  have hs₁ := Machine.run_reachable _ hs hbefore
  have hinv := tripsInv_of_reachable hs₁
  rcases admissible_delivers hinv hd hadmissible with ⟨s₂, hdelivers, t₂, ht₂, hid, b, hb, hbkey⟩
  rw [Machine.run, checkedFold_append] at hrun
  rcases bind_eq_ok.mp hrun with ⟨s₁', hbefore', hrest⟩
  have hsame : s₁ = s₁' := Except.ok.inj (hbefore.symm.trans hbefore')
  subst hsame
  rcases bind_eq_ok.mp hrest with ⟨s₂', hstep, hafter⟩
  have hsame : s₂ = s₂' := Except.ok.inj (hdelivers.symm.trans hstep)
  subst hsame
  have hs₂ : Reachable (fleet settings) s₂ := .step hs₁ trivial hstep
  have hstatus : t₂.status ≠ .active := by
    -- a stored batch leaves the trip ended
    have htaken : tripStep settings s₁ (.ingest authority t₁.driverProfileId t₁.id payload clock)
        = .ok s₂ := hstep
    rcases exists_row hinv.keys htaken hd.stored with ⟨t₁', ht₁', hchange⟩
    have heffects := hchange.effects (hinv.wellFormed _ hd.stored)
    have hsame : t₁' = t₂ := by
      refine eq_of_key_eq (tripsInv_of_reachable hs₂).keys ht₁' ht₂ ?_
      exact (TripEffects.sameTrip heffects).1.trans hid.symm
    exact hsame ▸ (TripEffects.evidence (by simp [hd.ended]) heffects).1
  rcases run_laterTrip hs₂ ht₂ hstatus hafter with ⟨t', ht', hlater⟩
  exact ⟨t', ht', hlater.same.1.trans hid, b, hlater.batches b hb, hbkey.trans hkey⟩

/-- A declared batch is admitted exactly when no pay was calculated on a day it touches,
it is not oversized and receipts can be signed; and once every declared batch was
delivered so, in any order and amid any other transactions, reconciling seals the trip. -/
theorem declared_evidence_admitted (settings : Settings) (s : Store)
    (hs : Reachable (fleet settings) s) (t : TripSession) :
    (∀ authority payload clock, DeclaredDelivery s t authority payload clock →
      ((∃ s', Delivers settings s t authority payload clock s'
          ∧ HoldsEvidence s' t.id payload.idempotencyKey)
        ↔ Admissible settings s t payload))
      ∧ (t ∈ s.trips → t.status ≠ .active → ∀ (as : List TripAction) (s' : Store),
          (fleet settings).run s as = .ok s' →
          (∀ entry ∈ t.manifestEntries, HoldsEvidence s t.id entry.idempotencyKey
            ∨ DeliveredIn settings s t.id as entry) →
          (∀ t' ∈ s'.trips, t'.id = t.id → t'.adjudication = none) →
          (∃ key, signingKey settings s'.signingKeyVersion = .ok key) → ∀ clock, ∃ s'',
            reconcileTripEvidence settings t.driverProfileId t.id clock s' = .ok s''
              ∧ ∃ t'' ∈ s''.trips, t''.id = t.id ∧ t''.status = .sealed
                ∧ t''.verification.isSome) := by
  have hinv := tripsInv_of_reachable hs
  constructor
  · intro authority payload clock hd
    constructor
    · rintro ⟨s', hdelivers, hholds⟩
      exact delivers_admissible hinv hd hdelivers hholds
    · exact admissible_delivers hinv hd
  · rintro ht hstatus as s' hrun hdelivered hopen ⟨key, hkey⟩ clock
    have hs' := Machine.run_reachable _ hs hrun
    have hinv' := tripsInv_of_reachable hs'
    rcases run_laterTrip hs ht hstatus hrun with ⟨t', ht', hlater⟩
    -- held before the run or delivered in it, every declared batch is there now
    have hall : HoldsAll t' := by
      intro entry hentry
      rw [hlater.entries] at hentry
      have hheld : HoldsEvidence s' t.id entry.idempotencyKey := by
        rcases hdelivered entry hentry with ⟨x, hx, hid, b, hb, hbkey⟩ | hin
        · have hsame : x = t := eq_of_key_eq hinv.keys hx ht hid
          subst hsame
          exact ⟨t', ht', hlater.same.1, b, hlater.batches b hb, hbkey⟩
        · exact hin.held hs hrun
      rcases hheld with ⟨x, hx, hid, hb⟩
      have hsame : x = t' := eq_of_key_eq hinv'.keys hx ht' (hid.trans hlater.same.1.symm)
      exact hsame ▸ hb
    rcases reconcileTripRow_seals (hinv'.wellFormed t' ht') (hinv'.sound t' ht')
      (sealedVerified_of_reachable hs' t' ht') hlater.inactive (hopen t' ht' hlater.same.1) hall
      hkey clock with ⟨t'', hrow, hsame, hsealed, hverified⟩
    have hfind := driverTrip?_eq hinv'.keys ht'
    rw [hlater.same.1, hlater.same.2.2.2.1] at hfind
    refine ⟨s'.updateTrip t.id (fun _ => t''), ?_, t'', ?_, hsame.1.trans hlater.same.1, hsealed,
      hverified⟩
    · simp only [reconcileTripEvidence, bind_eq_ok, demand_eq_ok, pure_eq_ok]
      exact ⟨t', hfind, t'', hrow, rfl⟩
    · exact List.mem_map.mpr ⟨t', ht', if_pos hlater.same.1⟩

/-- Evidence that was declared while the trip was open is admitted whenever it comes. -/
def DeclaredAlwaysAdmitted (settings : Settings) (s : Store) : Prop :=
  ∀ t authority payload clock, DeclaredDelivery s t authority payload clock →
    ∃ s', Delivers settings s t authority payload clock s'
      ∧ HoldsEvidence s' t.id payload.idempotencyKey

end

/-! ## Two sample runs -/

section

local instance : Evidence := sampleEvidence

/-- What makes the sample batch of a trip a declared delivery, as a test. -/
def awaitsSampleBatch (second : Int) (t : TripSession) : Bool :=
  t.status = .ended && t.adjudication.isNone && t.batches = []
    && decide (Declared t (sampleBatch t.id second) 0
      (Evidence.sha256 (.batch (sampleBatch t.id second).pings (sampleBatch t.id second).metadata)))
    && decide (∃ ping ∈ (sampleBatch t.id second).pings,
      classifyPing t {} (utcNow (secondsAfterNoon (second + 90))) ping = none)

theorem declaredDelivery_of_test {s : Store} {t : TripSession} {second : Int} (ht : t ∈ s.trips)
    (htest : awaitsSampleBatch second t = true) :
    DeclaredDelivery s t {} (sampleBatch t.id second) (secondsAfterNoon (second + 90)) := by
  simp only [awaitsSampleBatch, Bool.and_eq_true, decide_eq_true_eq,
    Option.isNone_iff_eq_none] at htest
  rcases htest with ⟨⟨⟨⟨hended, hopened⟩, hempty⟩, hdeclared⟩, haccepted⟩
  refine ⟨ht, hended, hopened, ⟨0, _, rfl, ?_, hdeclared⟩, ?_, haccepted⟩
  · have hprecise : ∀ ping ∈ (sampleBatch t.id second).pings, ping.recordedAt % 1000 = 0 := by
      intro ping hping
      rcases List.mem_map.mp hping with ⟨sec, _, rfl⟩
      simp only [samplePing, secondsAfterNoon, sampleNoon, microsPerSecond]
      omega
    simp only [batchPayloadHash, require_of hprecise]
    rfl
  · intro b hb
    rw [hempty] at hb
    exact absurd hb List.not_mem_nil

/-- A trip that ended before its one batch was uploaded. -/
def endedFirst (tripId : Id) (second : Int) : List TripAction :=
  [ startTrip tripId (secondsAfterNoon second),
    .endTrip 7 tripId none (some (manifestOf tripId false [sampleBatch tripId second]))
      (secondsAfterNoon (second + 80)) ]

/-- The late batch of an ended trip is admitted, and the trip is sealed. -/
theorem declared_evidence_admitted_late :
    ∃ s t, Reachable (fleet sampleSettings) s ∧ t ∈ s.trips ∧ t.status = .ended
      ∧ (∃ s', Delivers sampleSettings s t {} (sampleBatch t.id 0) (secondsAfterNoon 90) s'
          ∧ HoldsEvidence s' t.id (sampleBatch t.id 0).idempotencyKey)
      ∧ ∃ s' s'', reconcileTripEvidence sampleSettings t.driverProfileId t.id (secondsAfterNoon 95)
          s' = .ok s'' ∧ ∃ t'' ∈ s''.trips, t''.id = t.id ∧ t''.status = .sealed
            ∧ t''.verification.isSome := by
  rcases (fleet sampleSettings).exists_step (endedFirst 1 0)
    (deliverBatch 1 (sampleBatch 1 0) (secondsAfterNoon (0 + 90)))
    (fun s s' => s.calculations = [] && s.signingKeyVersion = 1 && s'.signingKeyVersion = 1
      && s'.trips.all (·.adjudication.isNone)
      && s.trips.any (fun t => awaitsSampleBatch 0 t && t.id = 1 && t.driverProfileId = 7
        && t.manifestEntries = [declare (sampleBatch 1 0)]))
    (by decide +kernel) with ⟨s, s', hs, hstep, htest⟩
  simp only [Bool.and_eq_true, decide_eq_true_eq] at htest
  rcases htest with ⟨⟨⟨⟨hunpaid, hversion⟩, hversion'⟩, hopen⟩, htrip⟩
  rcases List.any_eq_true.mp htrip with ⟨t, ht, htest⟩
  simp only [Bool.and_eq_true, decide_eq_true_eq] at htest
  rcases htest with ⟨⟨⟨hawaits, hid⟩, hdriver⟩, hentries⟩
  have hd := declaredDelivery_of_test ht hawaits
  rw [hid] at hd
  have hadmissible : Admissible sampleSettings s t (sampleBatch 1 0) := by
    refine ⟨?_, by decide, 11, by rw [hversion]; rfl⟩
    rintro ⟨calculation, hcalculation, _⟩
    rw [hunpaid] at hcalculation
    exact absurd hcalculation List.not_mem_nil
  have hboth := declared_evidence_admitted sampleSettings s hs t
  have hrun : (fleet sampleSettings).run s
      [deliverBatch 1 (sampleBatch 1 0) (secondsAfterNoon (0 + 90))] = .ok s' := by
    simp only [Machine.run, checkedFold_cons, checkedFold_nil, bind_eq_ok]
    exact ⟨s', hstep, rfl⟩
  have hdelivered : ∀ entry ∈ t.manifestEntries, HoldsEvidence s t.id entry.idempotencyKey
      ∨ DeliveredIn sampleSettings s t.id
        [deliverBatch 1 (sampleBatch 1 0) (secondsAfterNoon (0 + 90))] entry := by
    intro entry hentry
    rw [hentries, List.mem_singleton] at hentry
    subst hentry
    refine .inr ⟨[], [], {}, sampleBatch 1 0, secondsAfterNoon (0 + 90), s, t, ?_, rfl, rfl, rfl, hd,
      hadmissible⟩
    simp [deliverBatch, hid, hdriver]
  have hnone : ∀ t' ∈ s'.trips, t'.id = t.id → t'.adjudication = none := by
    intro t' ht' _
    simpa using List.all_eq_true.mp hopen t' ht'
  refine ⟨s, t, hs, ht, hd.ended, ?_, s', ?_⟩
  · rw [hid] at hboth ⊢
    exact (hboth.1 _ _ _ hd).mpr hadmissible
  · exact hboth.2 ht (by simp [hd.ended]) _ s' hrun hdelivered hnone
      ⟨11, by rw [hversion']; rfl⟩ (secondsAfterNoon 95)

/-- Trip 1 is priced, then trip 2 of the same day ends before its batch arrives. -/
def endedAfterPricing : List TripAction :=
  [bindSample] ++ sealedTrip 1 0
    ++ [.process 1 2 (sampleInputs (fun _ => 1000)) (secondsAfterNoon 100)] ++ endedFirst 2 200

/-- The declared batch of trip 2 is dropped, because trip 1 was priced. -/
theorem not_declared_always_admitted :
    ¬ ∀ s, Reachable (fleet sampleSettings) s → DeclaredAlwaysAdmitted sampleSettings s := by
  intro hclaim
  rcases (fleet sampleSettings).exists_reachable endedAfterPricing
    (fun s => s.trips.any (fun t => awaitsSampleBatch 200 t
      && decide (LatePayCalculated s t (sampleBatch t.id 200))))
    (by decide +kernel) with ⟨s, hs, htest⟩
  rcases List.any_eq_true.mp htest with ⟨t, ht, htest⟩
  simp only [Bool.and_eq_true, decide_eq_true_eq] at htest
  have hd := declaredDelivery_of_test ht htest.1
  rcases hclaim s hs t {} _ _ hd with ⟨s', hdelivers, hholds⟩
  exact (delivers_admissible (tripsInv_of_reachable hs) hd hdelivers hholds).unpaid htest.2

end

end Trips
end Mobility
