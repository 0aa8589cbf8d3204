import Mobility.Trips.Transitions

/-!
# Sealed evidence — verified means complete, for ever

A trip whose evidence is verified holds exactly the batches that its manifest
declares, with receipts that verify, and no later transaction changes that.

`evidenceFleet` runs the trip and pay services together with the guarded seal
update on its own, which every service takes only after it verified the evidence.
-/

namespace Mobility
namespace Trips

open Lib

/-! ## Runs with the seal update on its own -/

inductive EvidenceAction
  | trip (a : TripAction)
  | trySeal (tripId : Id) (reason : TripSealReason) (clock : Int)

section

variable [Evidence]

def evidenceStep (settings : Settings) (s : Store) : EvidenceAction → Except AppError Store
  | .trip a => tripStep settings s a
  | .trySeal tripId reason clock =>
      .ok (s.updateTrip tripId (trySealTrip reason (utcNow clock)))

def evidenceFleet (settings : Settings) : Machine Store EvidenceAction AppError :=
  { init := {}, step := evidenceStep settings }

/-! ## Complete evidence -/

/-- Every declared batch is stored once, exactly as declared and with a valid receipt;
nothing else belongs to the manifest; the manifest receipt verifies. -/
structure CompleteEvidence (settings : Settings) (t : TripSession) : Prop where
  held : ∀ entry ∈ t.manifestEntries, ∃ b,
    t.manifestBatches.filter (·.idempotencyKey = entry.idempotencyKey) = [b]
      ∧ MatchesEntry entry b ∧ verifyBatchReceipt settings t.id b = .ok true
  declared : ∀ b ∈ t.manifestBatches, Declares t.manifestEntries b
  receipt : verifyManifestReceipt settings t = .ok true

/-- Stored receipts verify, and verified evidence is complete. -/
structure SoundEvidence (settings : Settings) (t : TripSession) : Prop where
  receipts : ∀ b ∈ t.batches, verifyBatchReceipt settings t.id b = .ok true
  complete : t.verification.isSome → CompleteEvidence settings t

variable {settings : Settings} {keyVersion : Nat} {t t' : TripSession}

theorem newTrip_sound (start : TripStart) (now : Int) :
    SoundEvidence settings (newTrip start now) where
  receipts := fun _ hb => absurd hb List.not_mem_nil
  complete := fun h => absurd h (by simp [newTrip])

/-! ### Receipts -/

theorem verifyReceipt_signed {key : Key} (hkey : signingKey settings keyVersion = .ok key)
    (value : Document) :
    verifyReceipt settings
      { formatVersion := receiptFormatVersion
        keyVersion := keyVersion
        signature := Evidence.hmac key value } value = .ok true := by
  simp [verifyReceipt, hkey]

/-- A batch receipt repeats what it signed. -/
theorem verifyBatchReceipt_signed {b signed : LocationPingBatch} {outcome : BatchOutcome}
    (h : signBatchReceipt settings keyVersion t.id b outcome = .ok signed) :
    verifyBatchReceipt settings t.id signed = .ok true := by
  rcases signBatchReceipt_eq h with ⟨key, hkey, rfl⟩
  exact verifyReceipt_signed hkey _

theorem verifyManifestReceipt_verified {reason : TripSealReason} {now : Int}
    (hstatus : t.status ≠ .active)
    (h : verifyAndSeal settings keyVersion reason now t = .ok t') :
    verifyManifestReceipt settings t' = .ok true := by
  rcases verifyAndSeal_eq hstatus h with ⟨key, value, _, _, hkey, hvalue, _, rfl⟩
  -- the receipt covers the trip's name and header, which sealing leaves alone
  have hsame : ∀ t' : TripSession, t'.id = t.id → t'.manifest = t.manifest →
      manifestReceiptValue t' now = .ok value := by
    intro t' hid hmanifest
    rw [← hvalue]
    simp only [manifestReceiptValue, hid, hmanifest]
  simp only [verifyManifestReceipt, bind_eq_ok]
  exact ⟨value, hsame _ rfl rfl, verifyReceipt_signed hkey value⟩

/-! ### Completeness -/

theorem entryVerdict_eq_held {entry : TripEvidenceManifestEntry}
    (h : entryVerdict settings t entry = .ok .held) :
    ∃ b ∈ t.manifestBatches, b.idempotencyKey = entry.idempotencyKey ∧ MatchesEntry entry b
      ∧ verifyBatchReceipt settings t.id b = .ok true := by
  unfold entryVerdict at h
  cases hfind : t.manifestBatches.find? (·.idempotencyKey = entry.idempotencyKey) with
  | none => simp [hfind] at h
  | some b =>
      rcases mem_of_lookup hfind with ⟨hb, hkey⟩
      simp only [hfind] at h
      split_ifs at h with hmatches
      · simp only [bind_eq_ok, pure_eq_ok] at h
        rcases h with ⟨verified, hverified, h⟩
        cases verified with
        | false => simp at h
        | true => exact ⟨b, hb, hkey, hmatches, hverified⟩
      · simp at h

/-- What a complete manifest says about each entry and each batch. -/
theorem manifestCompleteness_complete {completeness : ManifestCompleteness}
    (h : manifestCompleteness settings t = .ok completeness)
    (hcomplete : completeness.complete = true) :
    (∀ entry ∈ t.manifestEntries, entryVerdict settings t entry = .ok .held)
      ∧ ∀ b ∈ t.manifestBatches, b.idempotencyKey ∈ t.manifestEntries.map (·.idempotencyKey) := by
  simp only [manifestCompleteness, bind_eq_ok, pure_eq_ok] at h
  rcases h with ⟨verdicts, hverdicts, rfl⟩
  simp only [decide_eq_true_eq] at hcomplete
  rcases hcomplete with ⟨_, hmissing, hmismatch, hundeclared⟩
  constructor
  · intro entry hentry
    rcases exists_of_mem_forall₂_left (checkedMap_forall₂ hverdicts) hentry with ⟨verdict, hmem, hverdict⟩
    cases verdict with
    | missing => exact absurd hmem (List.count_eq_zero.mp hmissing)
    | mismatch => exact absurd hmem (List.count_eq_zero.mp hmismatch)
    | held => exact hverdict
  · intro b hb
    have hnone := List.countP_eq_zero.mp hundeclared b hb
    simpa using hnone

theorem completeEvidence_of_complete (ht : WellFormed t) {completeness : ManifestCompleteness}
    (h : manifestCompleteness settings t = .ok completeness)
    (hcomplete : completeness.complete = true) :
    (∀ entry ∈ t.manifestEntries, ∃ b,
      t.manifestBatches.filter (·.idempotencyKey = entry.idempotencyKey) = [b]
        ∧ MatchesEntry entry b ∧ verifyBatchReceipt settings t.id b = .ok true)
      ∧ ∀ b ∈ t.manifestBatches, Declares t.manifestEntries b := by
  rcases manifestCompleteness_complete h hcomplete with ⟨hheld, hdeclared⟩
  have hkeys : (t.manifestBatches.map (·.idempotencyKey)).Nodup :=
    ht.batchKeys.sublist (List.filter_sublist.map _)
  constructor
  · intro entry hentry
    rcases entryVerdict_eq_held (hheld entry hentry) with ⟨b, hb, hkey, hmatches, hreceipt⟩
    exact ⟨b, filter_key_eq hkeys hb hkey, hmatches, hreceipt⟩
  · intro b hb
    rcases List.mem_map.mp (hdeclared b hb) with ⟨entry, hentry, hkey⟩
    rcases entryVerdict_eq_held (hheld entry hentry) with ⟨b', hb', hkey', hmatches, _⟩
    have hsame : b' = b := eq_of_key_eq hkeys hb' hb (hkey'.trans hkey)
    exact ⟨entry, hentry, hkey, hsame ▸ hmatches⟩

/-! ## Every effect keeps evidence sound -/

theorem TripEffect.sound (ht : WellFormed t) (hsound : SoundEvidence settings t)
    (h : TripEffect settings keyVersion t t') : SoundEvidence settings t' := by
  cases h with
  | @store b signed _ dropped hkey hscope hsequence hdeclared hsigned =>
      have hreceipt := verifyBatchReceipt_signed hsigned
      refine ⟨?_, ?_⟩
      · intro x hx
        rcases List.mem_append.mp hx with hx | hx
        · exact hsound.receipts x hx
        · rw [List.mem_singleton.mp hx]
          exact hreceipt
      · intro hverified
        have hbefore := hsound.complete hverified
        -- a verified trip is sealed, so the new batch is late
        have hlate : signed.evidenceScope ≠ .manifest := by
          rcases signBatchReceipt_eq hsigned with ⟨_, _, rfl⟩
          intro hmanifest
          exact (scopeOf_eq_manifest (hscope.symm.trans hmanifest)).1 (ht.verified hverified).1
        have hsame : ({ t with batches := t.batches ++ [signed] } : TripSession).manifestBatches
            = t.manifestBatches := by
          simp [manifestBatches_append, hlate]
        refine ⟨?_, ?_, hbefore.receipt⟩
        · rw [hsame]
          exact hbefore.held
        · rw [hsame]
          exact hbefore.declared
  | commit endedAt endReason hactive =>
      refine ⟨hsound.receipts, ?_⟩
      intro hverified
      exact absurd hverified (by simp [endWith, (ht.active hactive).2.2.2.1])
  | verify hstatus _ _ hcompleteness hcomplete h =>
      have hreceipt := verifyManifestReceipt_verified hstatus h
      have hevidence := completeEvidence_of_complete ht hcompleteness hcomplete
      rcases verifyAndSeal_eq hstatus h with ⟨_, _, _, _, _, _, _, rfl⟩
      exact ⟨hsound.receipts, fun _ => ⟨hevidence.1, hevidence.2, hreceipt⟩⟩
  | adjudicate _ hunverified _ _ _ h =>
      rcases signAdjudicationReceipt_eq h with ⟨_, rfl⟩
      refine ⟨hsound.receipts, ?_⟩
      intro hverified
      exact absurd hverified (by simp [hunverified])
  | expire =>
      refine ⟨hsound.receipts, ?_⟩
      intro hverified
      have hbefore := hsound.complete hverified
      exact ⟨hbefore.held, hbefore.declared, hbefore.receipt⟩

/-! ## A sealed trip stays as it is -/

/-- What no transaction takes from a sealed trip. -/
structure StaysSealed (t t' : TripSession) : Prop where
  id : t'.id = t.id
  sealed : t'.status = .sealed
  batches : t'.manifestBatches = t.manifestBatches
  entries : t'.manifestEntries = t.manifestEntries
  header : t'.manifest = t.manifest
  verification : t.verification.isSome → t'.verification = t.verification

omit [Evidence] in
theorem StaysSealed.refl (h : t.status = .sealed) : StaysSealed t t :=
  ⟨rfl, h, rfl, rfl, rfl, fun _ => rfl⟩

omit [Evidence] in
theorem StaysSealed.trans {t'' : TripSession} (h : StaysSealed t t') (h' : StaysSealed t' t'') :
    StaysSealed t t'' where
  id := h'.id.trans h.id
  sealed := h'.sealed
  batches := h'.batches.trans h.batches
  entries := h'.entries.trans h.entries
  header := h'.header.trans h.header
  verification := by
    intro hverified
    have hsame := h.verification hverified
    exact (h'.verification (hsame ▸ hverified)).trans hsame

theorem TripEffect.staysSealed (hsealed : t.status = .sealed)
    (h : TripEffect settings keyVersion t t') : StaysSealed t t' := by
  cases h with
  | @store b signed _ dropped _ hscope _ _ hsigned =>
      refine ⟨rfl, hsealed, ?_, rfl, rfl, fun _ => rfl⟩
      rcases signBatchReceipt_eq hsigned with ⟨_, _, rfl⟩
      have hlate : b.evidenceScope ≠ .manifest := fun hmanifest =>
        (scopeOf_eq_manifest (hscope.symm.trans hmanifest)).1 hsealed
      rw [manifestBatches_append]
      simp [hlate]
  | commit _ _ hactive => exact absurd (hactive.symm.trans hsealed) (by simp)
  | verify hstatus hunverified _ _ _ h =>
      rcases verifyAndSeal_eq hstatus h with ⟨_, _, _, _, _, _, _, rfl⟩
      exact ⟨rfl, rfl, rfl, rfl, rfl, fun h => absurd h (by simp [hunverified])⟩
  | adjudicate _ _ _ _ _ h =>
      rcases signAdjudicationReceipt_eq h with ⟨_, rfl⟩
      exact ⟨rfl, hsealed, rfl, rfl, rfl, fun _ => rfl⟩
  | expire => exact ⟨rfl, hsealed, rfl, rfl, rfl, fun _ => rfl⟩

theorem TripEffects.staysSealed (hsealed : t.status = .sealed)
    (h : TripEffects settings keyVersion t t') : StaysSealed t t' := by
  induction h with
  | refl => exact .refl hsealed
  | tail _ heffect ih => exact ih.trans (heffect.staysSealed ih.sealed)

/-! ## The seal update on its own -/

omit [Evidence] in
theorem trySealTrip_eq (reason : TripSealReason) (now : Int) (t : TripSession) :
    trySealTrip reason now t = t ∨ (t.status = .ended ∧ trySealTrip reason now t
      = { t with status := .sealed, sealedAt := some now, sealReason := some reason }) := by
  by_cases hended : t.status = .ended
  · exact .inr ⟨hended, if_pos hended⟩
  · exact .inl (if_neg hended)

omit [Evidence] in
theorem trySealTrip_wellFormed (ht : WellFormed t) (reason : TripSealReason) (now : Int) :
    WellFormed (trySealTrip reason now t) := by
  rcases trySealTrip_eq reason now t with hsame | ⟨hended, hsealed⟩
  · exact hsame.symm ▸ ht
  · have hinactive : t.status ≠ .active := by simp [hended]
    rw [hsealed]
    exact {
      active := fun h => absurd h (by simp)
      inactive := fun _ => ht.inactive hinactive
      unsealed := fun h => absurd rfl h
      verified := fun h => ⟨rfl, (ht.verified h).2⟩
      adjudicated := ht.adjudicated
      batchKeys := ht.batchKeys
      batchSequences := ht.batchSequences
      entryKeys := ht.entryKeys
      entrySequences := ht.entrySequences
      counted := ht.counted
      declared := fun _ => ht.declared hinactive }

theorem trySealTrip_sound (hsound : SoundEvidence settings t) (reason : TripSealReason)
    (now : Int) : SoundEvidence settings (trySealTrip reason now t) := by
  rcases trySealTrip_eq reason now t with hsame | ⟨_, hsealed⟩
  · exact hsame.symm ▸ hsound
  · rw [hsealed]
    refine ⟨hsound.receipts, fun hverified => ?_⟩
    have hbefore := hsound.complete hverified
    exact ⟨hbefore.held, hbefore.declared, hbefore.receipt⟩

/-! ## Runs -/

/-- What is known of the trips of every reachable state. -/
structure TripsInv (settings : Settings) (s : Store) : Prop where
  keys : (s.trips.map (·.id)).Nodup
  wellFormed : ∀ t ∈ s.trips, WellFormed t
  sound : ∀ t ∈ s.trips, SoundEvidence settings t

variable {s s' : Store}

theorem RowChange.sameTrip {a : TripAction} (ht : WellFormed t)
    (h : RowChange settings s a t t') : SameTrip t t' :=
  TripEffects.sameTrip (h.effects ht)

theorem RowChange.tripInv {a : TripAction} (ht : WellFormed t) (hsound : SoundEvidence settings t)
    (h : RowChange settings s a t t') : WellFormed t' ∧ SoundEvidence settings t' :=
  TripEffects.invariant
    (P := fun t => WellFormed t ∧ SoundEvidence settings t)
    (fun hP heffect => ⟨heffect.wellFormed hP.1, heffect.sound hP.1 hP.2⟩) (h.effects ht)
    ⟨ht, hsound⟩

omit [Evidence] in
theorem Started.keys {a : TripAction} {added : List TripSession} (h : Started s a added)
    {rows : List TripSession} (hids : rows.map (·.id) = s.trips.map (·.id))
    (hkeys : (s.trips.map (·.id)).Nodup) : ((rows ++ added).map (·.id)).Nodup := by
  cases h with
  | none => simpa [hids] using hkeys
  | start _ _ hfresh =>
      rw [List.map_append, hids]
      refine List.nodup_append.mpr ⟨hkeys, List.nodup_singleton _, ?_⟩
      intro id hid id' hid' heq
      rcases List.mem_map.mp hid with ⟨t, ht, rfl⟩
      exact hfresh t ht (heq.trans (List.mem_singleton.mp hid'))

theorem tripStep_tripsInv (hs : TripsInv settings s) {a : TripAction}
    (h : tripStep settings s a = .ok s') : TripsInv settings s' := by
  rcases tripStep_rows hs.keys h with ⟨rows, added, hrows, hstarted, htrips⟩
  have hids : rows.map (·.id) = s.trips.map (·.id) := by
    refine map_eq_of_forall₂ (R := fun t t' => t'.id = t.id) (fun _ _ h => h) ?_
    exact forall₂_imp_mem hrows (fun t ht t' hchange => (hchange.sameTrip (hs.wellFormed t ht)).1)
  have hrow : ∀ t' ∈ rows, WellFormed t' ∧ SoundEvidence settings t' := by
    intro t' ht'
    rcases exists_of_mem_forall₂ (forall₂_imp_mem hrows (fun t ht t' hchange =>
      (⟨ht, hchange⟩ : t ∈ s.trips ∧ RowChange settings s a t t'))) ht' with ⟨t, _, ht, hchange⟩
    exact hchange.tripInv (hs.wellFormed t ht) (hs.sound t ht)
  have hnew : ∀ t' ∈ added, WellFormed t' ∧ SoundEvidence settings t' := by
    intro t' ht'
    cases hstarted with
    | none => exact absurd ht' List.not_mem_nil
    | start _ now _ =>
        rw [List.mem_singleton.mp ht']
        exact ⟨newTrip_wellFormed _ now, newTrip_sound _ now⟩
  have hall : ∀ t' ∈ s'.trips, WellFormed t' ∧ SoundEvidence settings t' := by
    intro t' ht'
    rcases List.mem_append.mp (htrips ▸ ht') with ht' | ht'
    · exact hrow t' ht'
    · exact hnew t' ht'
  exact {
    keys := htrips ▸ hstarted.keys hids hs.keys
    wellFormed := fun t' ht' => (hall t' ht').1
    sound := fun t' ht' => (hall t' ht').2 }

theorem trySeal_tripsInv (hs : TripsInv settings s) (tripId : Id) (reason : TripSealReason)
    (now : Int) : TripsInv settings (s.updateTrip tripId (trySealTrip reason now)) := by
  have hall : ∀ t' ∈ (s.updateTrip tripId (trySealTrip reason now)).trips,
      WellFormed t' ∧ SoundEvidence settings t' := by
    intro t' ht'
    rcases List.mem_map.mp ht' with ⟨t, ht, rfl⟩
    split_ifs
    · exact ⟨trySealTrip_wellFormed (hs.wellFormed t ht) reason now,
        trySealTrip_sound (hs.sound t ht) reason now⟩
    · exact ⟨hs.wellFormed t ht, hs.sound t ht⟩
  have hids : (s.updateTrip tripId (trySealTrip reason now)).trips.map (·.id)
      = s.trips.map (·.id) := by
    rw [Store.updateTrip, List.map_map]
    refine List.map_congr_left ?_
    intro t _
    simp only [Function.comp_apply]
    split_ifs
    · rcases trySealTrip_eq reason now t with hsame | ⟨_, hsame⟩ <;> rw [hsame]
    · rfl
  exact ⟨hids.symm ▸ hs.keys, fun t' ht' => (hall t' ht').1, fun t' ht' => (hall t' ht').2⟩

theorem evidenceStep_tripsInv (hs : TripsInv settings s) {a : EvidenceAction}
    (h : evidenceStep settings s a = .ok s') : TripsInv settings s' := by
  cases a with
  | trip a => exact tripStep_tripsInv hs h
  | trySeal tripId reason clock =>
      have hsame := Except.ok.inj h
      exact hsame ▸ trySeal_tripsInv hs tripId reason _

theorem tripsInv_init : TripsInv settings {} :=
  ⟨List.nodup_nil, fun _ h => absurd h List.not_mem_nil, fun _ h => absurd h List.not_mem_nil⟩

theorem tripsInv_of_evidence_run (hs : Reachable (evidenceFleet settings) s) :
    TripsInv settings s :=
  hs.invariant (TripsInv settings) tripsInv_init
    (fun _ _ _ hP _ hstep => evidenceStep_tripsInv hP hstep)

theorem tripsInv_of_reachable (hs : Reachable (fleet settings) s) : TripsInv settings s :=
  hs.invariant (TripsInv settings) tripsInv_init
    (fun _ _ _ hP _ hstep => tripStep_tripsInv hP hstep)

/-- A stored trip is still stored after a step, rewritten by its row change. -/
theorem exists_row (hkeys : (s.trips.map (·.id)).Nodup) {a : TripAction}
    (h : tripStep settings s a = .ok s') (ht : t ∈ s.trips) :
    ∃ t' ∈ s'.trips, RowChange settings s a t t' := by
  rcases tripStep_rows hkeys h with ⟨rows, added, hrows, _, htrips⟩
  rcases exists_of_mem_forall₂_left hrows ht with ⟨t', ht', hchange⟩
  exact ⟨t', htrips ▸ List.mem_append_left _ ht', hchange⟩

theorem evidenceStep_staysSealed (hs : TripsInv settings s) {a : EvidenceAction}
    (h : evidenceStep settings s a = .ok s') (ht : t ∈ s.trips) (hsealed : t.status = .sealed) :
    ∃ t' ∈ s'.trips, StaysSealed t t' := by
  cases a with
  | trip a =>
      rcases exists_row hs.keys h ht with ⟨t', ht', hchange⟩
      exact ⟨t', ht', (hchange.effects (hs.wellFormed t ht)).staysSealed hsealed⟩
  | trySeal tripId reason clock =>
      have hsame := Except.ok.inj h
      have hkept : trySealTrip reason (utcNow clock) t = t := if_neg (by simp [hsealed])
      refine ⟨t, ?_, .refl hsealed⟩
      rw [← hsame, Store.updateTrip]
      refine List.mem_map.mpr ⟨t, ht, ?_⟩
      simp [hkept]

/-- A sealed trip is found again after any later run, with the same evidence. -/
theorem evidenceRun_staysSealed :
    ∀ {as : List EvidenceAction} {s s' : Store} {t : TripSession},
      Reachable (evidenceFleet settings) s → t ∈ s.trips → t.status = .sealed →
      (evidenceFleet settings).run s as = .ok s' → ∃ t' ∈ s'.trips, StaysSealed t t' := by
  intro as
  induction as with
  | nil =>
      intro s s' t _ ht hsealed hrun
      have hsame : s = s' := by simpa [Machine.run] using hrun
      exact ⟨t, hsame ▸ ht, .refl hsealed⟩
  | cons a as ih =>
      intro s s' t hs ht hsealed hrun
      rcases bind_eq_ok.mp hrun with ⟨s₁, hstep, hrest⟩
      have hinv := tripsInv_of_evidence_run hs
      rcases evidenceStep_staysSealed hinv hstep ht hsealed with ⟨t₁, ht₁, hstays⟩
      rcases ih (.step hs trivial hstep) ht₁ hstays.sealed hrest with ⟨t', ht', hlater⟩
      exact ⟨t', ht', hstays.trans hlater⟩

/-- Verified evidence is complete evidence of a sealed trip, it is never adjudicated as
well, and no later run reopens the trip or adds to its manifest batches. -/
theorem sealed_evidence_complete (settings : Settings) (s : Store)
    (hs : Reachable (evidenceFleet settings) s) (t : TripSession) (ht : t ∈ s.trips) :
    (t.verification.isSome → t.status = .sealed ∧ CompleteEvidence settings t)
      ∧ ¬ (t.verification.isSome ∧ t.adjudication.isSome)
      ∧ (t.status = .sealed → ∀ as s', (evidenceFleet settings).run s as = .ok s' →
          ∃ t' ∈ s'.trips, StaysSealed t t') := by
  have hinv := tripsInv_of_evidence_run hs
  have hwell := hinv.wellFormed t ht
  refine ⟨?_, ?_, ?_⟩
  · intro hverified
    exact ⟨(hwell.verified hverified).1, (hinv.sound t ht).complete hverified⟩
  · rintro ⟨hverified, hadjudicated⟩
    rw [(hwell.verified hverified).2] at hadjudicated
    exact absurd hadjudicated (by simp)
  · intro hsealed as s' hrun
    exact evidenceRun_staysSealed hs ht hsealed hrun

end

/-- A trip that is uploaded, ended and sealed holds complete evidence. -/
theorem sealed_evidence_complete_uploaded :
    ∃ s t, Reachable (@evidenceFleet sampleEvidence sampleSettings) s ∧ t ∈ s.trips
      ∧ t.status = .sealed ∧ @CompleteEvidence sampleEvidence sampleSettings t := by
  let _ := sampleEvidence
  rcases (evidenceFleet sampleSettings).exists_reachable ((sealedTrip 1 0).map .trip)
    (fun s => s.trips.any (·.verification.isSome)) (by decide +kernel) with ⟨s, hs, htest⟩
  rcases List.any_eq_true.mp htest with ⟨t, ht, hverified⟩
  have hcomplete := (sealed_evidence_complete sampleSettings s hs t ht).1 hverified
  exact ⟨s, t, hs, ht, hcomplete⟩

end Trips
end Mobility
