import Mobility.Payout.System

/-!
# Inversion — what each payout operation can do

One lemma for each operation: from "the transaction committed with store `s'`"
to the guards it passed and the store it wrote.  Later modules cite these lemmas
and never unfold an operation again.
-/

namespace Mobility
namespace Payout

open Lib

variable {s s' : Store} {auth : Authority}

/-! ## Ledger credits -/

theorem openTrip_ok {trip : TripSession} (h : openTrip trip s = .ok s') :
    s.trip? trip.id = none ∧ s' = { s with trips := s.trips ++ [trip] } := by
  simp only [openTrip, bind_eq_ok, require_eq_ok, pure_eq_ok] at h
  rcases h with ⟨_, hfresh, rfl⟩
  exact ⟨hfresh, rfl⟩

theorem ensureLedgerEntry_ok {entryId calculationId tripId : Id} {amount : Int}
    {currency : Currency} {occurredAt : Int}
    (h : ensureLedgerEntry entryId calculationId tripId amount currency occurredAt s = .ok s') :
    s' = s ∨ ∃ trip e, s.trip? tripId = some trip ∧ s.entry? entryId = none ∧ e.id = entryId
      ∧ e.driverProfileId = trip.driverProfileId ∧ e.tripSessionId = some trip.id
      ∧ e.entryType = .tripPayout ∧ e.status = .pending ∧ 0 < e.amount
      ∧ s' = { s with entries := s.entries ++ [e] } := by
  simp only [ensureLedgerEntry, bind_eq_ok, demand_eq_ok, ite_eq_ok, require_eq_ok,
    pure_eq_ok] at h
  rcases h with ⟨trip, htrip, ⟨_, rfl⟩ | ⟨hnew, _, hfresh, rfl⟩⟩
  · exact .inl rfl
  · have hpos : 0 < amount := by
      by_contra hle
      exact hnew (.inl (by omega))
    exact .inr ⟨trip, _, htrip, hfresh, rfl, rfl, rfl, rfl, rfl, hpos, rfl⟩

theorem releaseLedgerEntry_ok {entryId : Id} (h : releaseLedgerEntry entryId s = .ok s') :
    s' = s ∨ ∃ e, s.entry? entryId = some e ∧ e.status = .pending
      ∧ s' = s.updateEntry entryId (fun e => { e with status := .available }) := by
  simp only [releaseLedgerEntry, bind_eq_ok, demand_eq_ok, ite_eq_ok, pure_eq_ok] at h
  rcases h with ⟨e, he, ⟨hpending, rfl⟩ | ⟨_, rfl⟩⟩
  · exact .inr ⟨e, he, hpending, rfl⟩
  · exact .inl rfl

theorem recordNegativeAdjustment_ok {sourceEntryId requestId : Id} {amount : Int}
    {currency : Currency} {reason : String} {actor : Id} {now : Int}
    (h : recordNegativeAdjustment auth sourceEntryId requestId amount currency reason actor now s
      = .ok s') :
    s' = s ∨ ∃ source tripId e, s.entry? sourceEntryId = some source
      ∧ source.tripSessionId = some tripId ∧ s.entry? requestId = none ∧ e.id = requestId
      ∧ e.driverProfileId = source.driverProfileId ∧ e.tripSessionId = some tripId
      ∧ e.entryType = .reversal ∧ e.status = .available ∧ 0 < e.amount
      ∧ s' = cancelUncalledTripPayouts tripId (s.lockPayoutChains [tripId]) now
          { s with entries := s.entries ++ [e] } := by
  simp only [recordNegativeAdjustment, bind_eq_ok, require_eq_ok, demand_eq_ok] at h
  rcases h with ⟨_, _, _, _, _, hamount, source, hsource, tripId, htrip, _, _, _, _, h⟩
  cases hexisting : s.entry? requestId with
  | some existing =>
      simp only [hexisting, bind_eq_ok, require_eq_ok, pure_eq_ok] at h
      rcases h with ⟨_, _, rfl⟩
      exact .inl rfl
  | none =>
      simp only [hexisting, pure_eq_ok] at h
      refine .inr ⟨source, tripId, _, hsource, htrip, rfl, ?_, ?_, ?_, ?_, ?_, ?_, h.symm⟩
      exacts [rfl, rfl, rfl, rfl, rfl, hamount.1]

theorem writeDifferential_ok {chain : List Id} {now : Int} {target : DifferentialTarget}
    (h : writeDifferential chain now s target = .ok s') :
    (target.deltaAmount = 0 ∧ s' = s)
    ∨ ∃ trip e, s.trip? target.tripSessionId = some trip ∧ s.entry? target.entryId = none
      ∧ e.id = target.entryId ∧ e.driverProfileId = trip.driverProfileId
      ∧ e.tripSessionId = some trip.id ∧ 0 < e.amount
      ∧ ((0 < target.deltaAmount ∧ e.entryType = .adjustment ∧ e.status = .pending
            ∧ s' = { s with entries := s.entries ++ [e] })
        ∨ (target.deltaAmount < 0 ∧ e.entryType = .reversal
            ∧ e.status = differentialStatus s trip.driverProfileId target
            ∧ s' = cancelUncalledTripPayouts target.tripSessionId chain now
                { s with entries := s.entries ++ [e] })) := by
  simp only [writeDifferential, ite_eq_ok, bind_eq_ok, demand_eq_ok, require_eq_ok,
    pure_eq_ok] at h
  rcases h with ⟨hzero, rfl⟩ | ⟨hdelta, trip, htrip, _, hfresh, ⟨hpos, rfl⟩ | ⟨hneg, rfl⟩⟩
  · exact .inl ⟨hzero, rfl⟩
  · refine .inr ⟨trip, _, htrip, hfresh, rfl, rfl, rfl, ?_, .inl ⟨hpos, ?_, ?_, rfl⟩⟩
    · simp only
      omega
    · simp [hpos]
    · simp [differentialStatus, hpos]
  · refine .inr ⟨trip, _, htrip, hfresh, rfl, rfl, rfl, ?_, .inr ⟨by omega, ?_, rfl, rfl⟩⟩
    · simp only
      omega
    · simp [hneg]

/-! ## Drafts and reservations -/

theorem createPayoutBatchDraft_ok {currency : String} {actor batchId : Id} {reason : String}
    {requested : Bool}
    (h : createPayoutBatchDraft auth currency actor reason batchId requested s = .ok s') :
    s' = s ∨ ∃ b : PayoutBatch, s.batch? batchId = none ∧ b.id = batchId ∧ b.status = .draft
      ∧ b.lines = [] ∧ s' = { s with batches := s.batches ++ [b] } := by
  simp only [createPayoutBatchDraft, bind_eq_ok, require_eq_ok] at h
  rcases h with ⟨_, _, _, _, _, _, h⟩
  cases hexisting : s.batch? batchId with
  | some existing =>
      simp only [hexisting, bind_eq_ok, require_eq_ok, pure_eq_ok] at h
      rcases h with ⟨_, _, rfl⟩
      exact .inl rfl
  | none =>
      simp only [hexisting, pure_eq_ok] at h
      exact .inr ⟨_, rfl, rfl, rfl, rfl, h.symm⟩

theorem reserveReplay_ok {batchId actor : Id} {ids : List Id}
    {offsets : List PayoutRecoveryOffset} {finished : Store}
    (h : reserveReplay batchId ids actor offsets s = .ok (some finished)) :
    finished = s ∨ ∃ b, s.batch? batchId = some b ∧ b.status = .draft
      ∧ finished = s.deleteBatch batchId := by
  unfold reserveReplay at h
  by_cases hempty : offsets = []
  · simp [hempty] at h
  · cases hb : s.batch? batchId with
    | none =>
        simp only [hempty, if_false, hb, ite_eq_ok, Except.ok.injEq, Option.some.injEq,
          reduceCtorEq, and_false, or_false] at h
        exact .inl h.2.symm
    | some b =>
        simp only [hempty, if_false, hb] at h
        split_ifs at h with hdraft
        · simp only [Except.ok.injEq, Option.some.injEq] at h
          exact .inr ⟨b, rfl, hdraft, h.symm⟩
        · simp at h

theorem lineOf?_eq_some {lineId : Id} {b : PayoutBatch} {l : PayoutBatchLine}
    (h : s.lineOf? lineId = some (b, l)) : b ∈ s.batches ∧ l ∈ b.lines ∧ l.id = lineId := by
  simp only [Store.lineOf?, Option.bind_eq_some_iff, Option.map_eq_some_iff,
    Prod.mk.injEq] at h
  rcases h with ⟨b', hb', l', hl', rfl, rfl⟩
  refine ⟨List.mem_of_find?_eq_some hb', List.mem_of_find?_eq_some hl', ?_⟩
  simpa using List.find?_some hl'

/-- A queued line either kept the intent it had or got a new one. -/
theorem queueLine_ok {providerName : String} {actor : Id} {line line' : PayoutBatchLine}
    (h : queueLine providerName actor line = .ok line') :
    (∃ i, line.intent = some i ∧ i.providerName = providerName ∧ line' = line)
    ∨ (line.intent = none ∧ line.status = .reserved
      ∧ line' = { line with intent := some (newIntent providerName actor line) }) := by
  unfold queueLine at h
  cases hintent : line.intent with
  | some intent =>
      simp only [hintent, bind_eq_ok, require_eq_ok, pure_eq_ok] at h
      rcases h with ⟨_, hmatch, rfl⟩
      exact .inl ⟨intent, rfl, hmatch.1, rfl⟩
  | none =>
      simp only [hintent, bind_eq_ok, require_eq_ok, pure_eq_ok] at h
      rcases h with ⟨_, hreserved, rfl⟩
      exact .inr ⟨rfl, hreserved, rfl⟩

section

variable [Hashing]

theorem buildFrozenPayoutLine_ok {id batchId : Id} {entry : EarningsLedgerEntry}
    {versions : Id × Id} {amount : Int} {line : PayoutBatchLine}
    (h : buildFrozenPayoutLine id batchId entry versions amount = .ok line) :
    0 < amount ∧ amount ≤ entry.amount ∧ line = frozenLine id batchId entry versions amount none := by
  simp only [buildFrozenPayoutLine, bind_eq_ok, require_eq_ok, pure_eq_ok] at h
  rcases h with ⟨_, ⟨hpos, hle⟩, rfl⟩
  exact ⟨hpos, hle, rfl⟩

/-- One round of the reservation loop. -/
theorem reserveEntry_ok {batch : PayoutBatch} {actor : Id} {lineId : Id → Id}
    {st st' : ReserveState} {entry : EarningsLedgerEntry}
    (h : reserveEntry auth batch actor lineId st entry = .ok st') :
    ∃ tripId amount, entry.tripSessionId = some tripId ∧ entry.status = .available
      ∧ entry.entryType ≠ .reversal ∧ entry.currency = batch.currency
      ∧ amount = min entry.amount
          (remainingFor st.store st.remainingByTrip tripId entry.currency)
      ∧ 0 < amount
      ∧ st'.store = (allocatePayoutRecovery st.store entry amount
          { requestId := batch.id, actorUserId := some actor }).1
      ∧ st'.remainingByTrip = takeRemaining st.remainingByTrip tripId
          (remainingFor st.store st.remainingByTrip tripId entry.currency - amount)
      ∧ (((allocatePayoutRecovery st.store entry amount
            { requestId := batch.id, actorUserId := some actor }).2 = 0 ∧ st'.lines = st.lines)
        ∨ ∃ versions left, left = (allocatePayoutRecovery st.store entry amount
              { requestId := batch.id, actorUserId := some actor }).2
            ∧ 0 < left ∧ left ≤ entry.amount
            ∧ st'.lines = st.lines ++
                [frozenLine (lineId entry.id) batch.id entry versions left none]) := by
  simp only [reserveEntry, bind_eq_ok, demand_eq_ok, require_eq_ok, ite_eq_ok, pure_eq_ok] at h
  rcases h with ⟨tripId, htrip, _, _, _, _, _, helig, versions, _, _, hpos, hrest⟩
  refine ⟨tripId, _, htrip, helig.1, helig.2.1, helig.2.2.2, rfl, hpos, ?_⟩
  rcases hrest with ⟨hzero, rfl⟩ | ⟨_, line, hline, rfl⟩
  · exact ⟨rfl, rfl, .inl ⟨hzero, rfl⟩⟩
  · rcases buildFrozenPayoutLine_ok hline with ⟨hleft, hle, rfl⟩
    exact ⟨rfl, rfl, .inr ⟨versions, _, rfl, hleft, hle, rfl⟩⟩

theorem reservePayoutBatch_ok {batchId actor : Id} {ids : List Id} {reason : String}
    {lineId : Id → Id}
    (h : reservePayoutBatch auth batchId ids actor reason lineId s = .ok s') :
    s' = s
    ∨ (∃ b, s.batch? batchId = some b ∧ b.status = .draft ∧ s' = s.deleteBatch batchId)
    ∨ ∃ b r, s.batch? batchId = some b ∧ b.status = .draft ∧ ids.Nodup
        ∧ (∀ l ∈ s.linesOf (orderBy (·.id) (s.entries.filter (·.id ∈ ids))),
            ¬ l.reservationActive ∧ l.status ≠ .failed)
        ∧ checkedFold (reserveEntry auth b actor lineId) { store := s }
            (orderBy (·.id) (s.entries.filter (·.id ∈ ids))) = .ok r
        ∧ ((r.lines = [] ∧ s' = r.store.deleteBatch batchId)
          ∨ (r.lines ≠ [] ∧ s.LinesInsertable r.lines
            ∧ s' = r.store.updateBatch batchId (reserveWith r.lines))) := by
  simp only [reservePayoutBatch, bind_eq_ok, require_eq_ok] at h
  rcases h with ⟨_, _, _, _, _, _, replay, hreplay, h⟩
  cases replay with
  | some finished =>
      simp only [pure_eq_ok] at h
      subst h
      rcases reserveReplay_ok hreplay with rfl | ⟨b, hb, hdraft, rfl⟩
      · exact .inl rfl
      · exact .inr (.inl ⟨b, hb, hdraft, rfl⟩)
  | none =>
      simp only [bind_eq_ok, demand_eq_ok, require_eq_ok, ite_eq_ok, pure_eq_ok] at h
      rcases h with ⟨b, hb, _, hids, _, _, _, _, ⟨_, _, _, _, _, rfl⟩ | ⟨hdraft, h⟩⟩
      · exact .inl rfl
      · rcases h with ⟨_, hactive, _, hfailed, r, hfold, hr⟩
        refine .inr (.inr ⟨b, r, hb, not_not.mp hdraft, hids.2, ?_, hfold, ?_⟩)
        · intro l hl
          exact ⟨hactive l hl, hfailed l hl⟩
        · rcases hr with ⟨hnil, rfl⟩ | ⟨hne, _, hins, rfl⟩
          · exact .inl ⟨hnil, rfl⟩
          · exact .inr ⟨hne, hins, rfl⟩

/-! ## Approval and submission -/

theorem approvePayoutBatch_ok {batchId actor : Id} {reason : String} {now : Int}
    (h : approvePayoutBatch auth batchId actor reason now s = .ok s') :
    s' = s ∨ ∃ b, s.batch? batchId = some b ∧ b.status = .reserved
      ∧ s' = s.updateBatch batchId (approveWith actor now) := by
  simp only [approvePayoutBatch, bind_eq_ok, require_eq_ok, demand_eq_ok] at h
  rcases h with ⟨_, _, _, _, b, hb, _, _, _, hreserved, _, _, h⟩
  cases happroved : b.approvedByUserId with
  | some approver =>
      simp only [happroved, bind_eq_ok, require_eq_ok, pure_eq_ok] at h
      rcases h with ⟨_, _, rfl⟩
      exact .inl rfl
  | none =>
      simp only [happroved, pure_eq_ok] at h
      exact .inr ⟨b, hb, hreserved, h.symm⟩

theorem submitPayoutBatch_ok {batchId actor : Id}
    {capabilities : DisbursementProviderCapabilities}
    (h : submitPayoutBatch auth batchId actor capabilities s = .ok s') :
    ∃ b lines, s.batch? batchId = some b ∧ (b.status = .reserved ∨ b.status = .submitted)
      ∧ List.Forall₂
          (fun l l' => queueLine capabilities.providerName actor l = .ok l') b.lines lines
      ∧ s' = s.updateBatch batchId (fun b => { b with lines := lines }) := by
  simp only [submitPayoutBatch, bind_eq_ok, require_eq_ok, demand_eq_ok, pure_eq_ok] at h
  rcases h with ⟨_, _, b, hb, _, _, _, hstatus, _, _, _, _, _, _, lines, hlines, rfl⟩
  exact ⟨b, lines, hb, hstatus, checkedMap_forall₂ hlines, rfl⟩

/-! ## Claims and resolutions -/

theorem claimPayoutSubmissionIntent_ok {automaticClean : Except AppError Unit}
    {blocker : Option AutomaticBlocker} {capabilities : DisbursementProviderCapabilities}
    {lineId token : Id} {now : Int} {r : Store × Option ClaimedDisbursementIntent}
    (h : claimPayoutSubmissionIntent auth automaticClean blocker capabilities lineId token now s
      = .ok r) :
    r = (s, none) ∨ ∃ b l intent action claim, s.lineOf? lineId = some (b, l)
      ∧ l.intent = some intent ∧ l.status = .reserved ∧ claimAction? intent now = some action
      ∧ claim.lineId = lineId ∧ claim.batchId = b.id ∧ claim.generation = intent.generation + 1
      ∧ claim.claimToken = token ∧ claim.action = action
      ∧ (action = .submit → ∃ candidates,
          lineIntentGate capabilities.providerName b l.id = .ok candidates)
      ∧ r = (s.updateBatch b.id
          (·.updateLine lineId (·.mapIntent (claimWith action token now))), some claim) := by
  simp only [claimPayoutSubmissionIntent, bind_eq_ok] at h
  rcases h with ⟨_, _, h⟩
  cases hline : s.lineOf? lineId with
  | none =>
      simp only [hline, pure_eq_ok] at h
      exact .inl h.symm
  | some bl =>
      rcases bl with ⟨b, l⟩
      cases hintent : l.intent with
      | none =>
          simp only [hline, hintent, pure_eq_ok] at h
          exact .inl h.symm
      | some intent =>
          simp only [hline, hintent, bind_eq_ok, require_eq_ok, ite_eq_ok, pure_eq_ok] at h
          rcases h with ⟨_, _, ⟨_, rfl⟩ | ⟨hopen, _, _, h⟩⟩
          · exact .inl rfl
          · have hreserved : l.status = .reserved := by
              by_contra hne
              exact hopen (.inr hne)
            cases haction : claimAction? intent now with
            | none =>
                simp only [haction, pure_eq_ok] at h
                exact .inl h.symm
            | some action =>
                simp only [haction, bind_eq_ok, ite_eq_ok, pure_eq_ok] at h
                rcases h with ⟨granted, hgate, ⟨htrue, rfl⟩ | ⟨_, rfl⟩⟩
                · refine .inr ⟨b, l, intent, action, _, rfl, hintent, hreserved, haction,
                    rfl, rfl, rfl, rfl, rfl, ?_, rfl⟩
                  intro hsubmit
                  subst hsubmit
                  -- only a gate that granted leads to a submission
                  simp only [claimGate, bind_eq_ok, require_eq_ok] at hgate
                  rcases hgate with ⟨_, _, hgate⟩
                  split at hgate
                  · simp at hgate
                  · simp only [pure_eq_ok] at hgate
                    exact absurd (hgate.trans htrue) (by simp)
                  · simp only [finalPayoutAuthority, bind_eq_ok] at hgate
                    rcases hgate with ⟨_, ⟨_, _, candidates, hcandidates, _⟩, _⟩
                    exact ⟨candidates, hcandidates⟩
                · exact .inl rfl

theorem resolvePayoutSubmissionClaim_ok {claim : ClaimedDisbursementIntent}
    {observation : DisbursementClaimObservation} {now : Int}
    (h : resolvePayoutSubmissionClaim claim observation now s = .ok s') :
    s' = s ∨ ∃ b l intent, s.lineOf? claim.lineId = some (b, l) ∧ l.intent = some intent
      ∧ ClaimCurrent intent claim now
      ∧ s' = s.updateBatch b.id (resolveBatch claim (finalObservation s l observation).1
          (finalObservation s l observation).2 now) := by
  unfold resolvePayoutSubmissionClaim at h
  cases hline : s.lineOf? claim.lineId with
  | none =>
      simp only [hline, pure_eq_ok] at h
      exact .inl h.symm
  | some bl =>
      rcases bl with ⟨b, l⟩
      cases hintent : l.intent with
      | none =>
          simp only [hline, hintent, pure_eq_ok] at h
          exact .inl h.symm
      | some intent =>
          simp only [hline, hintent, ite_eq_ok, bind_eq_ok, require_eq_ok, pure_eq_ok] at h
          rcases h with ⟨_, rfl⟩ | ⟨hcurrent, _, _, rfl⟩
          · exact .inl rfl
          · exact .inr ⟨b, l, intent, rfl, hintent, not_not.mp hcurrent, rfl⟩

end

/-! ## Evidence -/

/-- The four things effective or ineffective evidence can do. -/
theorem evidenceEffect_ok {line : PayoutBatchLine} {ledgerStatus : EarningsLedgerEntryStatus}
    {other : Bool} {evidence : VerifiedLineEvidence} {actor : Option Id} {now : Int}
    {effect : EvidenceEffect}
    (h : evidenceEffect line ledgerStatus other evidence actor now = .ok effect) :
    (isEffective line evidence = false ∧ effect.line = stampEvidence evidence.occurredAt line
      ∧ effect.ledgerStatus = ledgerStatus ∧ effect.applied = false)
    ∨ (isEffective line evidence ∧ evidence.outcome = .succeeded
      ∧ (ledgerStatus = .available ∨ ledgerStatus = .paid)
      ∧ effect.line = stampEvidence evidence.occurredAt { line with
          status := .succeeded
          reservationActive := false
          reconciledByUserId := actor
          reconciledAt := some now }
      ∧ effect.ledgerStatus = .paid ∧ effect.applied = true)
    ∨ (isEffective line evidence ∧ evidence.outcome = .failed
      ∧ ¬ (ledgerStatus = .paid ∧ ¬ other ∧ ¬ isReversal evidence)
      ∧ effect.ledgerStatus = (if isReversal evidence ∧ ¬ other then .available else ledgerStatus)
      ∧ ((line.status ≠ .failed ∧ effect.applied = true
          ∧ effect.line = stampEvidence evidence.occurredAt { line with
              status := .failed
              reservationActive := false
              reconciledByUserId := actor
              reconciledAt := some now })
        ∨ (line.status = .failed ∧ effect.applied = false
          ∧ effect.line = stampEvidence evidence.occurredAt line))) := by
  simp only [evidenceEffect, bind_eq_ok, pure_eq_ok, ite_eq_ok] at h
  -- evidence that is not effective is stamped and nothing else
  rcases h with ⟨heff, inner, hinner, rfl⟩ | ⟨heff, inner, hinner, rfl⟩
  · cases houtcome : evidence.outcome with
    | succeeded =>
        simp only [outcomeEffect, houtcome, bind_eq_ok, require_eq_ok, pure_eq_ok] at hinner
        rcases hinner with ⟨_, hledger, rfl⟩
        exact .inr (.inl ⟨heff, rfl, hledger, rfl, rfl, rfl⟩)
    | failed =>
        simp only [outcomeEffect, houtcome, bind_eq_ok, require_eq_ok, pure_eq_ok,
          ite_eq_ok] at hinner
        rcases hinner with ⟨_, hpaid, ⟨hnew, rfl⟩ | ⟨hold, rfl⟩⟩
        · exact .inr (.inr ⟨heff, rfl, hpaid, rfl, .inl ⟨hnew, rfl, rfl⟩⟩)
        · exact .inr (.inr ⟨heff, rfl, hpaid, rfl, .inr ⟨not_not.mp hold, rfl, rfl⟩⟩)
    | unsupported text =>
        simp [outcomeEffect, houtcome] at hinner
  · simp only [Except.ok.injEq] at hinner
    subst hinner
    exact .inl ⟨by simpa using heff, rfl, rfl, rfl⟩

section

variable [Hashing]

theorem evidenceLineFor_ok {evidence : VerifiedLineEvidence} {line : PayoutBatchLine}
    (h : evidenceLineFor evidence s = .ok line) :
    s.referencedLine? evidence.providerTransferReference = some line
      ∧ (line.intent.any (·.providerName = "paystack") → PaystackMatches line evidence)
      ∧ (line.status = .submitted ∨ line.status = .failed ∨ line.status = .succeeded) := by
  simp only [evidenceLineFor, bind_eq_ok, demand_eq_ok, require_eq_ok, pure_eq_ok] at h
  rcases h with ⟨l, hl, _, hpaystack, _, hstatus, rfl⟩
  exact ⟨hl, hpaystack, hstatus⟩

theorem applyVerifiedLineEvidence_ok {evidence : VerifiedLineEvidence} {source : EvidenceSource}
    {now : Int} (h : applyVerifiedLineEvidence auth evidence source now s = .ok s') :
    (s' = s ∧ ∃ e ∈ s.events, e.providerEventId = evidence.providerEventId)
    ∨ ∃ line entry effect, evidenceLineFor evidence s = .ok line
      ∧ s.events.find? (·.providerEventId = evidence.providerEventId) = none
      ∧ s.entry? line.ledgerEntryId = some entry
      ∧ evidenceEffect line entry.status (otherSucceeded s line) evidence source.actorUserId now
        = .ok effect
      ∧ s' = recordEvidence evidence source now effect s := by
  simp only [applyVerifiedLineEvidence, bind_eq_ok] at h
  rcases h with ⟨_, _, line, hline, h⟩
  cases hevent : s.events.find? (·.providerEventId = evidence.providerEventId) with
  | some existing =>
      simp only [hevent, bind_eq_ok, require_eq_ok, pure_eq_ok] at h
      rcases h with ⟨_, _, rfl⟩
      exact .inl ⟨rfl, existing, List.mem_of_find?_eq_some hevent,
        by simpa using List.find?_some hevent⟩
  | none =>
      simp only [hevent, bind_eq_ok, demand_eq_ok, require_eq_ok, pure_eq_ok] at h
      rcases h with ⟨entry, hentry, effect, heffect, _, _, _, _, _, _, rfl⟩
      exact .inr ⟨line, entry, effect, hline, rfl, hentry, heffect, rfl⟩

/-- An accepted new event passed the trigger on the lines. -/
theorem applyVerifiedLineEvidence_guarded {evidence : VerifiedLineEvidence}
    {source : EvidenceSource} {now : Int} {line : PayoutBatchLine} {entry : EarningsLedgerEntry}
    {effect : EvidenceEffect} (h : applyVerifiedLineEvidence auth evidence source now s = .ok s')
    (hline : evidenceLineFor evidence s = .ok line)
    (hfresh : s.events.find? (·.providerEventId = evidence.providerEventId) = none)
    (hentry : s.entry? line.ledgerEntryId = some entry)
    (heffect : evidenceEffect line entry.status (otherSucceeded s line) evidence
      source.actorUserId now = .ok effect) :
    guardPayoutBatchLineMutation line effect.line = .ok ⟨⟩ := by
  simp only [applyVerifiedLineEvidence, bind_eq_ok] at h
  rcases h with ⟨_, _, line', hline', h⟩
  rw [hline, Except.ok.injEq] at hline'
  subst hline'
  simp only [hfresh, bind_eq_ok, demand_eq_ok] at h
  rcases h with ⟨entry', hentry', effect', heffect', _, _, _, hguard, _⟩
  rw [hentry, Option.some.injEq] at hentry'
  subst hentry'
  rw [heffect, Except.ok.injEq] at heffect'
  exact heffect' ▸ hguard

/-! ## Replacement and void -/

theorem retryLine_ok {replacementId : Id} {lineId : Id → Id} {st st' : RetryState}
    {predecessor : PayoutBatchLine}
    (h : retryLine auth s replacementId lineId st predecessor = .ok st') :
    ∃ entry tripId versions amount, s.entry? predecessor.ledgerEntryId = some entry
      ∧ entry.status = .available ∧ entry.entryType ≠ .reversal
      ∧ entry.tripSessionId = some tripId
      ∧ predecessor.amount ≤ entry.amount ∧ entry.currency = predecessor.currency
      ∧ amount = min predecessor.amount
          (remainingFor s st.remainingByTrip tripId entry.currency)
      ∧ 0 < amount
      ∧ st'.remainingByTrip = takeRemaining st.remainingByTrip tripId
          (remainingFor s st.remainingByTrip tripId entry.currency - amount)
      ∧ st'.lines = st.lines ++
          [frozenLine (lineId predecessor.id) replacementId entry versions amount
            (some predecessor.id)] := by
  simp only [retryLine, bind_eq_ok, demand_eq_ok, require_eq_ok, pure_eq_ok] at h
  rcases h with ⟨entry, hentry, _, hledger, tripId, htrip, _, _, versions, _, _, _, _, _, _, hpos,
    rfl⟩
  exact ⟨entry, tripId, versions, _, hentry, hledger.1, hledger.2.1, htrip, hledger.2.2.2.1,
    hledger.2.2.2.2, rfl, hpos, rfl, rfl⟩

theorem retryFailedPayoutLines_ok {batchId actor replacementId : Id}
    {capabilities : DisbursementProviderCapabilities} {reason : String} {lineId : Id → Id}
    (h : retryFailedPayoutLines auth batchId actor capabilities reason replacementId lineId s
      = .ok s') :
    s' = s ∨ ∃ b r replacement, s.batch? batchId = some b
      ∧ (∀ l ∈ b.lines, l.status ≠ .reserved ∧ l.status ≠ .submitted)
      ∧ checkedFold (retryLine auth s replacementId lineId) {}
          (orderBy (·.id) (b.lines.filter (·.status = .failed))) = .ok r
      ∧ s.batch? replacementId = none ∧ s.LinesInsertable r.lines
      ∧ replacement.id = replacementId ∧ replacement.status = .reserved
      ∧ replacement.currency = b.currency ∧ replacement.lines = r.lines
      ∧ s' = { s with batches := s.batches ++ [replacement] } := by
  simp only [retryFailedPayoutLines, bind_eq_ok, demand_eq_ok, require_eq_ok, ite_eq_ok,
    pure_eq_ok] at h
  rcases h with ⟨_, _, _, _, b, hb, _, _, _, hresolved, _, _, _, _, _, _, ⟨_, _, _, rfl⟩ | ⟨_, h⟩⟩
  · exact .inl rfl
  · rcases h with ⟨_, _, _, _, r, hfold, _, ⟨hfresh, hins⟩, rfl⟩
    refine .inr ⟨b, r, _, hb, hresolved, hfold, hfresh, hins, ?_, ?_, ?_, ?_, rfl⟩
    all_goals rfl

omit [Hashing] in
theorem voidPayoutBatch_ok {batchId actor : Id}
    (h : voidPayoutBatch auth batchId actor s = .ok s') :
    ∃ b, s.batch? batchId = some b ∧ b.status = .reserved
      ∧ (∀ l ∈ b.lines, l.status = .reserved ∧ l.providerTransferReference = none)
      ∧ (∀ l ∈ b.lines, l.intent = none)
      ∧ s' = s.updateBatch batchId
          (fun b => { b with status := .void, lines := b.lines.map voidLine }) := by
  simp only [voidPayoutBatch, bind_eq_ok, demand_eq_ok, require_eq_ok, pure_eq_ok] at h
  rcases h with ⟨_, _, b, hb, _, ⟨hreserved, hlines, hintents⟩, _, _, rfl⟩
  exact ⟨b, hb, hreserved, hlines, hintents, rfl⟩

/-! ## The automatic run and its release -/

theorem automaticEntry_ok {runId batchId : Id} {lineId : Id → Id} {st st' : AutomaticState}
    {item : EarningsLedgerEntry × (Id × Id)}
    (h : automaticEntry runId batchId lineId st item = .ok st') :
    st' = st ∨ ∃ tripId payable, item.1.tripSessionId = some tripId
      ∧ payable = min item.1.amount
          (st.store.tripMoneyPosition tripId item.1.currency).batchPayable
      ∧ 0 < payable
      ∧ st'.store = (allocatePayoutRecovery st.store item.1 payable
          { requestId := runId, automaticRunId := some runId }).1
      ∧ (((allocatePayoutRecovery st.store item.1 payable
            { requestId := runId, automaticRunId := some runId }).2 = 0 ∧ st'.lines = st.lines)
        ∨ ∃ left, left = (allocatePayoutRecovery st.store item.1 payable
              { requestId := runId, automaticRunId := some runId }).2
            ∧ 0 < left ∧ left ≤ item.1.amount
            ∧ st'.lines = st.lines ++
                [frozenLine (lineId item.1.id) batchId item.1 item.2 left none]) := by
  unfold automaticEntry at h
  cases htrip : item.1.tripSessionId with
  | none =>
      simp only [htrip, pure_eq_ok] at h
      exact .inl h.symm
  | some tripId =>
      simp only [htrip, bind_eq_ok, ite_eq_ok, pure_eq_ok] at h
      rcases h with ⟨_, rfl⟩ | ⟨hpos, ⟨hzero, rfl⟩ | ⟨_, line, hline, rfl⟩⟩
      · exact .inl rfl
      · exact .inr ⟨tripId, _, rfl, rfl, not_le.mp hpos, rfl, .inl ⟨hzero, rfl⟩⟩
      · rcases buildFrozenPayoutLine_ok hline with ⟨hleft, hle, rfl⟩
        exact .inr ⟨tripId, _, rfl, rfl, not_le.mp hpos, rfl, .inr ⟨_, rfl, hleft, hle, rfl⟩⟩

theorem automaticDriver_ok {runId : Id} {batchId lineId : Id → Id} {providerName : String}
    {now : Int} {included : List (EarningsLedgerEntry × (Id × Id))} {driver : Id}
    (h : automaticDriver runId batchId lineId providerName now included s driver = .ok s') :
    ∃ r, checkedFold (automaticEntry runId (batchId driver) lineId) { store := s }
          (orderBy (·.1.id) (included.filter (·.1.driverProfileId = driver))) = .ok r
      ∧ ((r.lines = [] ∧ s' = r.store)
        ∨ (r.store.batch? (batchId driver) = none ∧ r.store.LinesInsertable r.lines
          ∧ s' = { r.store with
              batches := r.store.batches ++
                [automaticBatch runId (batchId driver) providerName now r.lines] })) := by
  simp only [automaticDriver, bind_eq_ok, ite_eq_ok, require_eq_ok, pure_eq_ok] at h
  rcases h with ⟨r, hfold, ⟨hnil, rfl⟩ | ⟨_, _, ⟨hfresh, hins⟩, rfl⟩⟩
  · exact ⟨r, hfold, .inl ⟨hnil, rfl⟩⟩
  · exact ⟨r, hfold, .inr ⟨hfresh, hins, rfl⟩⟩

theorem runAutomaticPayouts_ok {review : AutomaticReview}
    {capabilities : DisbursementProviderCapabilities} {runId : Id} {period : String}
    {batchId lineId : Id → Id} {now : Int}
    (h : runAutomaticPayouts review capabilities runId period batchId lineId now s = .ok s') :
    s' = s ∨ checkedFold (automaticDriver runId batchId lineId capabilities.providerName now
          (includedEntries s review))
        { s with automaticRuns := s.automaticRuns ++ [{ id := runId, periodKey := period }] }
        (orderBy id (orderedKeys ((includedEntries s review).map (·.1.driverProfileId))))
      = .ok s' := by
  simp only [runAutomaticPayouts, ite_eq_ok, bind_eq_ok, require_eq_ok, pure_eq_ok] at h
  rcases h with ⟨_, rfl⟩ | ⟨_, _, _, h⟩
  · exact .inl rfl
  · exact .inr h

omit [Hashing] in
theorem releaseUnsentAutomaticPayments_ok {paused : Bool} {actor : Id} {reason : String}
    {releasedAt : Int}
    (h : releaseUnsentAutomaticPayments auth paused actor reason releasedAt s = .ok s') :
    s' = { s with
      batches := s.batches.map (fun b =>
        if b.approvalMode = .automatic ∧ hasReleasable b releasedAt then
          recomputeStatus (releaseLine releasedAt) b
        else b) } := by
  simp only [releaseUnsentAutomaticPayments, bind_eq_ok, require_eq_ok, pure_eq_ok] at h
  rcases h with ⟨_, _, _, _, _, _, rfl⟩
  rfl

end

end Payout
end Mobility
