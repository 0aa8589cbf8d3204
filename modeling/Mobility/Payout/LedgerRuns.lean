import Mobility.Payout.Funding

/-!
# LedgerRuns — the ledger invariant holds in every reachable state

Evidence is the one operation that settles lines; `LedgerInv.settle` says what it
must respect.  The other operations post entries, move lines without settling them,
or create lines within the authority of the trips (`Funded`).
-/

namespace Mobility
namespace Payout

open Lib

/-! ## Evidence -/

/-- Settling one line and its entry together. -/
theorem LedgerInv.settle {s s' : Store} (h : LedgerInv s) {line : PayoutBatchLine}
    (hline : line ∈ s.lines) (status : EarningsLedgerEntryStatus)
    {f : PayoutBatchLine → PayoutBatchLine} (htrips : s'.trips = s.trips)
    (hentries : s'.entries = s.entries.map
      (fun e => if e.id = line.ledgerEntryId then { e with status := status } else e))
    (hlines : s'.lines = s.lines.map f)
    (hsteady : ∀ l ∈ s.lines, l ≠ line → Steady l (f l))
    (hentry : (f line).ledgerEntryId = line.ledgerEntryId)
    (hreleased : status = .available ∨ status = .paid)
    (hsucceeded : ∀ l ∈ s.lines, l.ledgerEntryId = line.ledgerEntryId →
      (f l).status = .succeeded → status = .paid)
    (hpaid : status = .paid → ∃ l ∈ s.lines, l.ledgerEntryId = line.ledgerEntryId
      ∧ (f l).status = .succeeded) : LedgerInv s' := by
  -- no line changes its credit, so the rest is about entries one by one
  have hkept : ∀ l ∈ s.lines, (f l).ledgerEntryId = l.ledgerEntryId := by
    intro l hl
    by_cases hsame : l = line
    · exact hsame ▸ hentry
    · exact (hsteady l hl hsame).entry
  refine ⟨htrips ▸ h.tripIds, ?_, ?_, ?_, ?_⟩
  · have hids : s'.entries.map (·.id) = s.entries.map (·.id) := by
      rw [hentries, List.map_map]
      refine List.map_congr_left ?_
      intro e _
      simp only [Function.comp_apply]
      split_ifs <;> rfl
    exact hids ▸ h.entryIds
  · rw [hentries, htrips]
    intro e' he'
    rcases List.mem_map.mp he' with ⟨e, he, rfl⟩
    split_ifs <;> exact h.owned e he
  · rw [hentries, hlines]
    intro l' hl'
    rcases List.mem_map.mp hl' with ⟨l, hl, rfl⟩
    rcases h.backed l hl with ⟨e, he, hid, hbacked, hcash⟩
    refine ⟨_, List.mem_map_of_mem he, ?_⟩
    -- the settled credit is asked of `hreleased`, the others of the invariant
    split_ifs with hthis
    · refine ⟨hid.trans (hkept l hl).symm, hreleased, ?_⟩
      exact hsucceeded l hl (hid.symm.trans hthis)
    · refine ⟨hid.trans (hkept l hl).symm, hbacked, ?_⟩
      have hne : l ≠ line := by
        rintro rfl
        exact hthis hid
      intro hstatus
      exact hcash ((hsteady l hl hne).succeeded.mp hstatus)
  · rw [hentries]
    intro e' he' hstatus
    rcases List.mem_map.mp he' with ⟨e, he, rfl⟩
    have hid : (if e.id = line.ledgerEntryId then { e with status := status } else e).id = e.id := by
      split_ifs <;> rfl
    rw [hid]
    by_cases hthis : e.id = line.ledgerEntryId
    · rw [if_pos hthis] at hstatus
      rcases hpaid hstatus with ⟨l, hl, hon, hcash⟩
      refine .inl ⟨f l, hlines ▸ List.mem_map_of_mem hl, ?_, hcash⟩
      rw [hkept l hl, hon, hthis]
    · rw [if_neg hthis] at hstatus
      have hne : ∀ l ∈ s.lines, l.ledgerEntryId = e.id → l ≠ line := by
        rintro l _ hon rfl
        exact hthis hon.symm
      -- another paid credit keeps the line that paid it, or all its lines void
      rcases h.paid e he hstatus with ⟨l, hl, hon, hcash⟩ | hvoid
      · refine .inl ⟨f l, hlines ▸ List.mem_map_of_mem hl, (hkept l hl).trans hon, ?_⟩
        exact (hsteady l hl (hne l hl hon)).succeeded.mpr hcash
      · refine .inr ?_
        intro l' hl' hon'
        rw [hlines] at hl'
        rcases List.mem_map.mp hl' with ⟨l, hl, rfl⟩
        have hon : l.ledgerEntryId = e.id := (hkept l hl).symm.trans hon'
        exact (hsteady l hl (hne l hl hon)).void (hvoid l hl hon)

section

variable [Hashing] {s s' : Store} {auth : Authority}

omit [Hashing] in
theorem cancelOrKeep_steady (at' : Int) (l : PayoutBatchLine) : Steady l (cancelOrKeep at' l) := by
  unfold cancelOrKeep
  cases hcancel : cancelUncalledLine l at' with
  | none => exact Steady.refl l
  | some l' =>
      rcases cancelUncalledLine_eq_some hcancel with ⟨hreserved, ⟨_, rfl⟩ | ⟨_, _, _, rfl⟩⟩
      all_goals exact ⟨rfl, by simp [hreserved], fun _ => rfl⟩

omit [Hashing] in
/-- The evidence transaction rewrites every line of the store by `evidenceLine`. -/
theorem recordEvidence_lines (hk : Keyed s.batches) {line : PayoutBatchLine} (hl : line ∈ s.lines)
    {e : VerifiedLineEvidence} {source : EvidenceSource} {now : Int}
    {effect : EvidenceEffect} (hid : effect.line.id = line.id)
    (hentry : effect.line.ledgerEntryId = line.ledgerEntryId) :
    (recordEvidence e source now effect s).lines
      = s.lines.map (evidenceLine effect e.outcome now) := by
  simp only [recordEvidence, Store.lines, updateEntry_batches, List.map_flatMap, List.flatMap_map]
  refine List.flatMap_congr ?_
  intro b hb
  split_ifs with hchain
  · rfl
  · -- outside the chain no line is touched
    refine (List.map_id _).symm.trans (List.map_congr_left ?_)
    intro l hlb
    have hother : l.ledgerEntryId ≠ effect.line.ledgerEntryId := by
      intro heq
      exact hchain (List.any_eq_true.mpr ⟨l, hlb, by simp [heq]⟩)
    have hne : l.id ≠ effect.line.id := by
      intro heq
      have hsame : l = line :=
        hk.line_eq (mem_linesOfBatches.mpr ⟨b, hb, hlb⟩) hl (heq.trans hid)
      exact hother (hsame ▸ hentry.symm)
    simp [evidenceLine, hne, convergeLine, hother]

omit [Hashing] in
theorem evidenceLine_steady (hk : Keyed s.batches) {line : PayoutBatchLine} (hl : line ∈ s.lines)
    {effect : EvidenceEffect} (hid : effect.line.id = line.id) (outcome : EvidenceOutcome)
    (now : Int) {l : PayoutBatchLine} (hmem : l ∈ s.lines) (hne : l ≠ line) :
    Steady l (evidenceLine effect outcome now l) := by
  have hother : l.id ≠ effect.line.id := fun heq => hne (hk.line_eq hmem hl (heq.trans hid))
  rw [evidenceLine, if_neg hother]
  split_ifs
  · unfold convergeLine
    split_ifs
    · exact cancelOrKeep_steady now l
    · exact Steady.refl l
  · exact Steady.refl l

omit [Hashing] in
/-- The succeeded lines beside the one the evidence is about. -/
theorem otherSucceeded_iff {line : PayoutBatchLine} :
    otherSucceeded s line = true ↔ ∃ l ∈ s.lines, l.ledgerEntryId = line.ledgerEntryId
      ∧ l.id ≠ line.id ∧ l.status = .succeeded := by
  simp only [otherSucceeded, Store.chainLines, List.any_eq_true, List.mem_filter,
    Bool.and_eq_true, decide_eq_true_eq]
  constructor
  · rintro ⟨l, ⟨hl, hentry⟩, hne, hsucceeded⟩
    exact ⟨l, hl, hentry, hne, hsucceeded⟩
  · rintro ⟨l, hl, hentry, hne, hsucceeded⟩
    exact ⟨l, ⟨hl, hentry⟩, hne, hsucceeded⟩

omit [Hashing] in
/-- Evidence keeps the entry released, and paid exactly while a line of it succeeded. -/
theorem evidenceEffect_ledger {line : PayoutBatchLine} {ledgerStatus : EarningsLedgerEntryStatus}
    {other : Bool} {evidence : VerifiedLineEvidence} {actor : Option Id} {now : Int}
    {effect : EvidenceEffect}
    (hreleased : ledgerStatus = .available ∨ ledgerStatus = .paid)
    (hline : line.status = .succeeded → ledgerStatus = .paid)
    (hother : other = true → ledgerStatus = .paid)
    (hpaid : ledgerStatus = .paid → line.status = .succeeded ∨ other = true)
    (h : evidenceEffect line ledgerStatus other evidence actor now = .ok effect) :
    (effect.ledgerStatus = .available ∨ effect.ledgerStatus = .paid)
      ∧ (effect.ledgerStatus = .paid ↔ effect.line.status = .succeeded ∨ other = true) := by
  rcases evidenceEffect_ok h with ⟨_, hsame, hledger, _⟩ | ⟨_, _, _, hsucceeded, hledger, _⟩
    | ⟨_, _, himmutable, hledger, hfailed⟩
  · rcases stampEvidence_eq evidence.occurredAt line with ⟨last, hlast⟩
    rw [hledger, hsame, hlast]
    exact ⟨hreleased, hpaid, fun hany => hany.elim hline hother⟩
  · rcases stampEvidence_eq evidence.occurredAt { line with
        status := .succeeded
        reservationActive := false
        reconciledByUserId := actor
        reconciledAt := some now } with ⟨last, hlast⟩
    rw [hledger, hsucceeded, hlast]
    simp
  · have hstatus : effect.line.status = .failed := by
      rcases hfailed with ⟨_, _, hnew⟩ | ⟨hold, _, hnew⟩
      · rcases stampEvidence_eq evidence.occurredAt { line with
            status := .failed
            reservationActive := false
            reconciledByUserId := actor
            reconciledAt := some now } with ⟨last, hlast⟩
        rw [hnew, hlast]
      · rcases stampEvidence_eq evidence.occurredAt line with ⟨last, hlast⟩
        rw [hnew, hlast, hold]
    rw [hledger, hstatus]
    cases other with
    | true => simp [hother rfl]
    | false =>
        -- a success is only undone by a reversal, which frees the credit again
        by_cases hreversal : isReversal evidence
        · simp [hreversal]
        · have havailable : ledgerStatus = .available :=
            hreleased.resolve_right (fun hp => himmutable ⟨hp, by simp, hreversal⟩)
          simp [hreversal, havailable]

omit [Hashing] in
/-- The entry of a line that was sent: released, and paid exactly while a line of it
has succeeded. -/
theorem LedgerInv.entry_of_sent (hinv : LedgerInv s) (hk : Keyed s.batches)
    {line : PayoutBatchLine} (hl : line ∈ s.lines) (hsent : WasSent line) :
    ∃ e ∈ s.entries, e.id = line.ledgerEntryId ∧ s.entry? line.ledgerEntryId = some e
      ∧ Released e
      ∧ (e.status = .paid ↔ line.status = .succeeded ∨ otherSucceeded s line = true) := by
  rcases hinv.backed line hl with ⟨e, he, hid, hreleased, hcash⟩
  refine ⟨e, he, hid, hid ▸ hinv.ownership.entry?_eq he, hreleased, ?_, ?_⟩
  · intro hpaid
    rcases hinv.paid e he hpaid with ⟨l, hmem, hon, hsucceeded⟩ | hvoid
    · by_cases hline : l = line
      · exact .inl (hline ▸ hsucceeded)
      · refine .inr (otherSucceeded_iff.mpr ⟨l, hmem, hon.trans hid, ?_, hsucceeded⟩)
        exact fun heq => hline (hk.line_eq hmem hl heq)
    · -- a line that was sent is not void
      have hstatus := hvoid line hl hid.symm
      simp [WasSent, hstatus] at hsent
  · rintro (hsucceeded | hother)
    · exact hcash hsucceeded
    · rcases otherSucceeded_iff.mp hother with ⟨l, hmem, hon, _, hsucceeded⟩
      rcases hinv.backed l hmem with ⟨e', he', hid', _, hpaid'⟩
      have hsame : e' = e := eq_of_key_eq hinv.entryIds he' he (by rw [hid', hid, hon])
      exact hsame ▸ hpaid' hsucceeded

theorem applyVerifiedLineEvidence_ledger (hk : Keyed s.batches)
    (hinv : LedgerInv s) {evidence : VerifiedLineEvidence} {source : EvidenceSource} {now : Int}
    (h : applyVerifiedLineEvidence auth evidence source now s = .ok s') : LedgerInv s' := by
  rcases applyVerifiedLineEvidence_ok h with
    ⟨rfl, _⟩ | ⟨line, entry, effect, hfound, _, hentry, heffect, rfl⟩
  · exact hinv
  · rcases evidenceLineFor_ok hfound with ⟨href, _, hsent⟩
    have hl := (referencedLine?_eq_some href).1
    have hfrozen := (LineEffect.evidence (r := .evidence) rfl hsent heffect).frozen
    have hsame : evidenceLine effect evidence.outcome now line = effect.line := by
      rw [evidenceLine, if_pos hfrozen.1.symm]
    rcases hinv.entry_of_sent hk hl hsent with ⟨e, _, _, hlookup, hreleased, hpaid⟩
    have hthis : e = entry := by
      rw [hentry, Option.some.injEq] at hlookup
      exact hlookup.symm
    subst hthis
    have hsteady : ∀ l ∈ s.lines, l ≠ line →
        Steady l (evidenceLine effect evidence.outcome now l) :=
      fun l hmem hne => evidenceLine_steady hk hl hfrozen.1 _ _ hmem hne
    -- a line of the entry that is succeeded afterwards is this one, or was before
    have hbefore : ∀ l ∈ s.lines, l.ledgerEntryId = line.ledgerEntryId →
        (evidenceLine effect evidence.outcome now l).status = .succeeded →
          effect.line.status = .succeeded ∨ otherSucceeded s line = true := by
      intro l hmem hon hsucceeded
      by_cases hline : l = line
      · rw [hline, hsame] at hsucceeded
        exact .inl hsucceeded
      · refine .inr (otherSucceeded_iff.mpr ⟨l, hmem, hon, ?_, ?_⟩)
        · exact fun heq => hline (hk.line_eq hmem hl heq)
        · exact (hsteady l hmem hline).succeeded.mp hsucceeded
    have hkeeps : otherSucceeded s line = true → ∃ l ∈ s.lines,
        l.ledgerEntryId = line.ledgerEntryId
          ∧ (evidenceLine effect evidence.outcome now l).status = .succeeded := by
      intro hother
      rcases otherSucceeded_iff.mp hother with ⟨l, hmem, hon, hne, hstatus⟩
      exact ⟨l, hmem, hon,
        (hsteady l hmem (fun heq => hne (heq ▸ rfl))).succeeded.mpr hstatus⟩
    have hstatus := evidenceEffect_ledger hreleased (fun hs => hpaid.mpr (.inl hs))
      (fun ho => hpaid.mpr (.inr ho)) hpaid.mp heffect
    refine hinv.settle hl effect.ledgerStatus rfl ?_
      (recordEvidence_lines hk hl hfrozen.1 hfrozen.2.1) hsteady (hsame ▸ hfrozen.2.1)
      hstatus.1 ?_ ?_
    · simp only [recordEvidence, Store.updateEntry, hfrozen.2.1]
    · intro l hmem hon hsucceeded
      exact hstatus.2.mpr (hbefore l hmem hon hsucceeded)
    · intro hcash
      rcases hstatus.2.mp hcash with hsucceeded | hsucceeded
      · exact ⟨line, hl, rfl, hsame ▸ hsucceeded⟩
      · exact hkeeps hsucceeded

/-! ## All operations -/

theorem cancelUncalledTripPayouts_ledger (hk : Keyed s.batches)
    (hlines : ∀ l ∈ s.lines, LineInv l) (hinv : LedgerInv s) (tripId : Id) (chain : List Id)
    (at' : Int) : LedgerInv (cancelUncalledTripPayouts tripId chain at' s) := by
  refine hinv.of_lines rfl rfl ?_
  exact steadyLines_of_effects (r := .operation) (by simp) (by simp) hk hlines
    (.single (cancelUncalledTripPayouts_effect tripId chain at'))

omit [Hashing] in
/-- The new entry of a trip belongs to the trip's driver. -/
theorem owned_of_trip {tripId : Id} {trip : TripSession}
    (htrip : s.trip? tripId = some trip) {e : EarningsLedgerEntry}
    (hdriver : e.driverProfileId = trip.driverProfileId) (hon : e.tripSessionId = some trip.id) :
    ∃ t ∈ s.trips, e.tripSessionId = some t.id ∧ e.driverProfileId = t.driverProfileId :=
  ⟨trip, List.mem_of_find?_eq_some htrip, hon, hdriver⟩

theorem writeDayDifferentials_ledger (hk : Keyed s.batches) (hlines : ∀ l ∈ s.lines, LineInv l)
    (hinv : LedgerInv s) {targets : List DifferentialTarget} {now : Int}
    (h : writeDayDifferentials targets now s = .ok s') : LedgerInv s' := by
  have hrun := checkedFold_invariant
    (fun t => Keyed t.batches ∧ (∀ l ∈ t.lines, LineInv l) ∧ LedgerInv t)
    ?_ targets h ⟨hk, hlines, hinv⟩
  · exact hrun.2.2
  · intro t target t' ⟨hk, hlines, hinv⟩ hstep
    rcases writeDifferential_ok hstep with
      ⟨_, rfl⟩ | ⟨trip, e, htrip, hfresh, hid, hdriver, hon, _,
        ⟨_, _, _, rfl⟩ | ⟨_, _, _, rfl⟩⟩
    · exact ⟨hk, hlines, hinv⟩
    · exact ⟨hk, hlines, hinv.post (hid ▸ hfresh) (owned_of_trip htrip hdriver hon)⟩
    · have hposted := hinv.post (hid ▸ hfresh) (owned_of_trip htrip hdriver hon)
      have heffects : BatchesEffects .operation t.batches
          (cancelUncalledTripPayouts target.tripSessionId
            (s.lockPayoutChains (targets.map (·.tripSessionId))) now
            { t with entries := t.entries ++ [e] }).batches :=
        .single (cancelUncalledTripPayouts_effect (s := { t with entries := t.entries ++ [e] })
          _ _ _)
      exact ⟨keyed_steps hk heffects, lineInv_steps hlines heffects,
        cancelUncalledTripPayouts_ledger (s := { t with entries := t.entries ++ [e] }) hk hlines
          hposted _ _ _⟩

omit [Hashing] in
theorem Funded.ledger (h : Funded s s') (hinv : LedgerInv s) : LedgerInv s' := by
  rcases h with ⟨_, _, _, hcreation, _, _⟩
  exact hinv.create hcreation

/-- Operations that write batches only, and settle no line. -/
theorem ledger_of_batches (hk : Keyed s.batches) (hlines : ∀ l ∈ s.lines, LineInv l)
    (hinv : LedgerInv s) (htrips : s'.trips = s.trips) (hentries : s'.entries = s.entries)
    {r : Cause} (hevidence : r ≠ .evidence) (hcreation : r ≠ .creation)
    (heffects : BatchesEffects r s.batches s'.batches) : LedgerInv s' :=
  hinv.of_lines htrips hentries (steadyLines_of_effects hevidence hcreation hk hlines heffects)

theorem transaction_ledger (hk : Keyed s.batches) (hlines : ∀ l ∈ s.lines, LineInv l)
    (hinv : LedgerInv s) {claims : List ClaimedDisbursementIntent} {action : PayoutAction}
    {out : Store × Option ClaimedDisbursementIntent}
    (h : transaction claims s action = .ok out) : LedgerInv out.1 := by
  have heffects := transaction_effects hk h
  -- transactions that change lines alone are read off their effects
  cases action with
  | openTrip trip =>
      rcases openTrip_ok (map_pair_ok h).1 with ⟨hfresh, heq⟩
      exact heq ▸ hinv.openTrip hfresh
  | ensureLedgerEntry entryId calculationId tripId amount currency occurredAt =>
      rcases ensureLedgerEntry_ok (map_pair_ok h).1 with
        heq | ⟨trip, e, htrip, hfresh, hid, hdriver, hon, _, _, _, heq⟩
      · exact heq ▸ hinv
      · exact heq ▸ hinv.post (hid ▸ hfresh) (owned_of_trip htrip hdriver hon)
  | releaseLedgerEntry entryId =>
      rcases releaseLedgerEntry_ok (map_pair_ok h).1 with heq | ⟨e, he, hpending, heq⟩
      · exact heq ▸ hinv
      · exact heq ▸ hinv.release he hpending
  | recordNegativeAdjustment auth sourceEntryId requestId amount currency reason actor now =>
      rcases recordNegativeAdjustment_ok (map_pair_ok h).1 with
        heq | ⟨source, tripId, e, hsource, htrip, hfresh, hid, hdriver, hon, _, _, _, heq⟩
      · exact heq ▸ hinv
      · rcases hinv.owned source (List.mem_of_find?_eq_some hsource) with ⟨t, ht, htrip', hown⟩
        have hposted := hinv.post (hid ▸ hfresh)
          ⟨t, ht, by rw [hon, ← htrip, htrip'], hdriver.trans hown⟩
        exact heq ▸ cancelUncalledTripPayouts_ledger (s := { s with entries := s.entries ++ [e] })
          hk hlines hposted _ _ _
  | writeDayDifferentials targets recomputeAt =>
      exact writeDayDifferentials_ledger hk hlines hinv (map_pair_ok h).1
  | createDraft auth currency actor reason batchId requested =>
      rcases createPayoutBatchDraft_ok (map_pair_ok h).1 with heq | ⟨b, _, _, _, _, heq⟩
      · exact heq ▸ hinv
      · exact ledger_of_batches hk hlines hinv (by rw [heq]) (by rw [heq]) (by simp [causeOf])
          (by simp [causeOf]) heffects
  | reserve auth batchId ids actor reason lineId =>
      exact (reservePayoutBatch_funded hk hlines hinv (map_pair_ok h).1).ledger hinv
  | approve auth batchId actor reason now =>
      rcases approvePayoutBatch_ok (map_pair_ok h).1 with heq | ⟨b, _, _, heq⟩
      · exact heq ▸ hinv
      · exact ledger_of_batches hk hlines hinv (by rw [heq]; rfl) (by rw [heq]; rfl)
          (by simp [causeOf]) (by simp [causeOf]) heffects
  | submit auth batchId actor capabilities =>
      rcases submitPayoutBatch_ok (map_pair_ok h).1 with ⟨b, lines, _, _, _, heq⟩
      exact ledger_of_batches hk hlines hinv (by rw [heq]; rfl) (by rw [heq]; rfl)
        (by simp [causeOf]) (by simp [causeOf]) heffects
  | claim auth automaticClean blocker capabilities lineId token now =>
      rcases claimPayoutSubmissionIntent_ok h with heq | ⟨_, _, _, _, _, _, _, _, _, _, _, _, _, _, _, heq⟩
      · exact heq ▸ hinv
      · exact ledger_of_batches hk hlines hinv (by rw [heq]; rfl) (by rw [heq]; rfl)
          (by simp [causeOf]) (by simp [causeOf]) heffects
  | resolve claim answers now =>
      have h' := h
      simp only [transaction, bind_eq_ok] at h'
      rcases h' with ⟨_, _, h'⟩
      rcases resolvePayoutSubmissionClaim_ok (map_pair_ok h').1 with heq | ⟨_, _, _, _, _, _, heq⟩
      · exact heq ▸ hinv
      · exact ledger_of_batches hk hlines hinv (by rw [heq]; rfl) (by rw [heq]; rfl)
          (by simp [causeOf]) (by simp [causeOf]) heffects
  | applyEvidence auth evidence source now =>
      exact applyVerifiedLineEvidence_ledger hk hinv (map_pair_ok h).1
  | retry auth batchId actor capabilities reason replacementId lineId =>
      exact (retryFailedPayoutLines_funded hk hlines hinv (map_pair_ok h).1).ledger hinv
  | void auth batchId actor =>
      rcases voidPayoutBatch_ok (map_pair_ok h).1 with ⟨_, _, _, _, _, heq⟩
      exact ledger_of_batches hk hlines hinv (by rw [heq]; rfl) (by rw [heq]; rfl)
        (by simp [causeOf]) (by simp [causeOf]) heffects
  | runAutomatic review capabilities runId period batchId lineId now =>
      exact (runAutomaticPayouts_funded hlines hinv (map_pair_ok h).1).ledger hinv
  | releaseUnsent auth paused actor reason releasedAt =>
      have heq := releaseUnsentAutomaticPayments_ok (map_pair_ok h).1
      exact ledger_of_batches hk hlines hinv (by rw [heq]) (by rw [heq])
        (by simp [causeOf]) (by simp [causeOf]) heffects

theorem lineInv_lines_of_reachable {w : PayoutSystem} (hw : Reachable payouts w) :
    ∀ l ∈ w.store.lines, LineInv l := by
  intro l hl
  rcases mem_linesOfBatches.mp hl with ⟨b, hb, hlb⟩
  exact lineInv_of_reachable hw b hb l hlb

theorem ledgerInv_of_reachable {w : PayoutSystem} (hw : Reachable payouts w) :
    LedgerInv w.store := by
  refine ReachableBy.invariant_of
    (fun w => Keyed w.store.batches ∧ ∀ l ∈ w.store.lines, LineInv l)
    (fun w hw => ⟨keyed_of_reachable hw, lineInv_lines_of_reachable hw⟩)
    (fun w => LedgerInv w.store) ?_ ?_ hw
  · exact ⟨by simp [payouts], by simp [payouts], by simp [payouts],
      by simp [payouts, Store.lines], by simp [payouts]⟩
  · intro w action w' hknown hinv _ hstep
    rcases payoutStep_ok hstep with ⟨out, hout, hstore, _⟩
    rw [hstore]
    exact transaction_ledger hknown.1 hknown.2 hinv hout

end

end Payout
end Mobility
