import Mobility.Payout.Allocation

/-!
# Funding — no operation pays a trip more than it is owed

Reservation, replacement and the automatic run each end in a store that is
`Funded` from the one before: a `Creation` that stays `Within` the payable amount
of every trip.
-/

namespace Mobility
namespace Payout

open Lib

/-- The operation created lines and offsets within the authority of each trip. -/
def Funded (s s' : Store) : Prop :=
  ∃ ls os settled, Creation s s' ls os settled ∧ Within s s' ls os ∧ Positive s ls os

theorem Funded.trans {s s' s'' : Store} (h : Funded s s') (h' : Funded s' s'') : Funded s s'' := by
  rcases h with ⟨ls, os, settled, hcreation, hwithin, hpos⟩
  rcases h' with ⟨ls', os', settled', hcreation', hwithin', hpos'⟩
  refine ⟨_, _, _, hcreation.trans hcreation',
    hwithin.trans hcreation hpos hwithin' hcreation' hpos'.offsets, hpos.stored, ?_, ?_⟩
  · intro l hl
    exact (List.mem_append.mp hl).elim (hpos.lines l) (hpos'.lines l)
  · intro o ho
    exact (List.mem_append.mp ho).elim (hpos.offsets o) (hpos'.offsets o)

/-- Nothing created. -/
theorem Funded.of_same_tables {s s' : Store} (hpos : ∀ l ∈ s.lines, 0 < l.amount)
    (htrips : s'.trips = s.trips) (hentries : s'.entries = s.entries)
    (hoffsets : s'.offsets = s.offsets) (hlines : s'.lines = s.lines) : Funded s s' := by
  refine ⟨[], [], [], Creation.of_same_tables htrips hentries hoffsets hlines, ⟨?_, ?_⟩,
    hpos, by simp, by simp⟩
  · intro trip c
    simpa [charge] using tripMoneyPosition_batchPayable_nonneg s trip c
  · exact fun _ _ => .inl rfl

/-- The lines of a finished loop, in the store that holds them. -/
theorem Drawing.funded {s t : Store} (s' : Store) {ls : List PayoutBatchLine}
    {os : List PayoutRecoveryOffset} {settled : List Id} {done : List EarningsLedgerEntry}
    (h : Drawing s t ls os settled done) (hinv : LedgerInv s)
    (hcharged : ∀ trip c,
      charge s (some trip, c) ls os ≤ (s.tripMoneyPosition trip c).batchPayable)
    (htrips : s'.trips = t.trips) (hentries : s'.entries = t.entries)
    (hoffsets : s'.offsets = t.offsets) (hlines : s'.lines.Perm (s.lines ++ ls)) :
    Creation s s' ls os settled ∧ Within s s' ls os := by
  have hcreation := h.drawn.creation h.ready hinv.entryIds htrips hentries hoffsets hlines
  refine ⟨hcreation, hcharged, ?_⟩
  intro trip c
  have hledger := h.drawn.ledger h.ready hinv.entryIds
  rw [hcreation.movement.earnedNet, hcreation.movement.settled_eq]
  have howing := h.owing trip c
  rwa [hledger.movement.earnedNet, hledger.movement.settled_eq] at howing

/-- In the middle of a loop a trip that was not charged pays at most what it could
pay before. -/
theorem Drawing.batchPayable_le {s t : Store} {ls : List PayoutBatchLine}
    {os : List PayoutRecoveryOffset} {settled : List Id} {done : List EarningsLedgerEntry}
    (h : Drawing s t ls os settled done) (hinv : LedgerInv s)
    (hpos : ∀ l ∈ s.lines, 0 < l.amount) {trip : Id} {c : Currency}
    (hcharge : charge s (some trip, c) ls os = 0) :
    (t.tripMoneyPosition trip c).batchPayable ≤ (s.tripMoneyPosition trip c).batchPayable := by
  have hledger := h.drawn.ledger h.ready hinv.entryIds
  have hpositive : Positive s [] os := ⟨hpos, by simp, h.offsets⟩
  have hoffsets : charge s (some trip, c) [] os = 0 := by
    have hle := funded_le_charge s (some trip, c) os h.lines
    have hnonneg := charge_nonneg s (some trip, c) hpositive.lines hpositive.offsets
    simp only [charge, List.filter_nil, totalAmount_nil] at hnonneg ⊢
    omega
  have hnonneg := tripMoneyPosition_batchPayable_nonneg s trip c
  have hle := hledger.batchPayable_le hpositive (by omega) (h.owing trip c)
  omega

/-! ## The remaining pay of each trip -/

/-- `remaining_by_trip` bounds what each trip can still be charged in currency `c`. -/
structure Budget (s : Store) (c : Currency) (remainingByTrip : Id → Option Int)
    (ls : List PayoutBatchLine) (os : List PayoutRecoveryOffset) : Prop where
  known : ∀ trip r, remainingByTrip trip = some r →
    0 ≤ r ∧ charge s (some trip, c) ls os + r ≤ (s.tripMoneyPosition trip c).batchPayable
  unknown : ∀ trip, remainingByTrip trip = none → charge s (some trip, c) ls os = 0
  other : ∀ trip c', c' ≠ c → charge s (some trip, c') ls os = 0

namespace Budget

variable {s : Store} {c : Currency} {remainingByTrip : Id → Option Int}
  {ls ls' : List PayoutBatchLine} {os os' : List PayoutRecoveryOffset}

theorem start (s : Store) (c : Currency) : Budget s c (fun _ => none) [] [] where
  known := by simp
  unknown := by simp [charge]
  other := by simp [charge]

theorem charged (h : Budget s c remainingByTrip ls os) (trip : Id) (c' : Currency) :
    charge s (some trip, c') ls os ≤ (s.tripMoneyPosition trip c').batchPayable := by
  have hnonneg := tripMoneyPosition_batchPayable_nonneg s trip c'
  by_cases hc : c' = c
  · subst hc
    cases hr : remainingByTrip trip with
    | none =>
        have hzero := h.unknown trip hr
        omega
    | some r =>
        have hknown := h.known trip r hr
        omega
  · have hzero := h.other trip c' hc
    omega

/-- A round that charges `amount` to one trip, out of what remains to it. -/
theorem round (h : Budget s c remainingByTrip ls os) {trip : Id} {remaining amount : Int}
    (hremaining : ∀ r, remainingByTrip trip = some r → remaining = r)
    (hfirst : remainingByTrip trip = none →
      remaining ≤ (s.tripMoneyPosition trip c).batchPayable)
    (hle : amount ≤ remaining)
    (hcharge : ∀ scope, charge s scope ls' os'
      = charge s scope ls os + if ((some trip, c) : TripScope) = scope then amount else 0) :
    Budget s c (takeRemaining remainingByTrip trip (remaining - amount)) ls' os' where
  known := by
    intro trip' r hr
    rw [hcharge]
    unfold takeRemaining at hr
    split_ifs at hr with hsame
    · subst hsame
      rw [Option.some.injEq] at hr
      rw [if_pos rfl]
      refine ⟨by omega, ?_⟩
      -- the first line of a trip reads its position, the later ones the rest
      cases hknown : remainingByTrip trip' with
      | none =>
          have hzero := h.unknown trip' hknown
          have hbound := hfirst hknown
          omega
      | some r' =>
          have hbound := (h.known trip' r' hknown).2
          have hsame := hremaining r' hknown
          omega
    · rw [if_neg (by simp [Ne.symm hsame])]
      have hbound := h.known trip' r hr
      omega
  unknown := by
    intro trip' hnone
    unfold takeRemaining at hnone
    split_ifs at hnone with hsame
    rw [hcharge, if_neg (by simp [Ne.symm hsame]), h.unknown trip' hnone]
    rfl
  other := by
    intro trip' c' hc
    rw [hcharge, if_neg (by simp [Ne.symm hc]), h.other trip' c' hc]
    rfl

end Budget

/-! ## Reservation -/

section Operations

variable [Hashing] {s s' : Store} {auth : Authority}

omit [Hashing] in
/-- An inactive line that did not fail is void or succeeded. -/
theorem decided_of_inactive {l : PayoutBatchLine} (h : LineInv l)
    (hinactive : ¬ l.reservationActive) (hfailed : l.status ≠ .failed) :
    l.status = .void ∨ l.status = .succeeded := by
  have hactive := h.active
  cases hstatus : l.status <;> simp [hstatus] at hactive hfailed hinactive ⊢
  all_goals simp [hactive] at hinactive

theorem isReserved_frozenLine (id batchId : Id) (entry : EarningsLedgerEntry)
    (versions : Id × Id) (amount : Int) (predecessor : Option Id) :
    isReserved (frozenLine id batchId entry versions amount predecessor) := by
  simp [isReserved, isPaid, frozenLine, intentHasUnknownEffect]

/-- One round of the reservation, on an entry that it has not taken before. -/
theorem reserveEntry_round (hinv : LedgerInv s) (hpos : ∀ l ∈ s.lines, 0 < l.amount)
    {batch : PayoutBatch} {actor : Id} {lineId : Id → Id} {st st' : ReserveState}
    {os : List PayoutRecoveryOffset} {settled : List Id} {done : List EarningsLedgerEntry}
    (hdrawing : Drawing s st.store st.lines os settled done)
    (hbudget : Budget s batch.currency st.remainingByTrip st.lines os)
    {entry : EarningsLedgerEntry} (hentry : Ready s entry) (hnew : ∀ e ∈ done, e.id ≠ entry.id)
    (hstep : reserveEntry auth batch actor lineId st entry = .ok st') :
    ∃ os' settled', Drawing s st'.store st'.lines (os ++ os') settled' (done ++ [entry])
      ∧ Budget s batch.currency st'.remainingByTrip st'.lines (os ++ os') := by
  rcases reserveEntry_ok hstep with
    ⟨trip, amount, htrip, havailable, _, hcurrency, hamount, hamountPos, hstore, hrem, hlines⟩
  have hscope : entry.scope = (some trip, batch.currency) := by
    simp [EarningsLedgerEntry.scope, htrip, hcurrency]
  rcases hr : allocatePayoutRecovery st.store entry amount
      { requestId := batch.id, actorUserId := some actor } with ⟨t', left⟩
  rw [hr] at hstore hlines
  simp only at hstore hlines
  -- the line of the round, whatever versions it froze
  have hround : ∃ versions, st'.lines = (if left = 0 then st.lines
      else st.lines ++ [frozenLine (lineId entry.id) batch.id entry versions left none]) := by
    rcases hlines with ⟨hzero, hlines⟩ | ⟨versions, _, rfl, hleft, _, hlines⟩
    · exact ⟨(0, 0), by rw [hlines, if_pos hzero]⟩
    · refine ⟨versions, ?_⟩
      rw [if_neg hleft.ne']
      exact hlines
  rcases hround with ⟨versions, hlines⟩
  rcases hdrawing.round hinv hentry hnew (le_of_lt hamountPos)
      { requestId := batch.id, actorUserId := some actor }
      (fun left => frozenLine (lineId entry.id) batch.id entry versions left none)
      (fun left => ⟨rfl, rfl, isReserved_frozenLine _ _ _ _ _ _, rfl⟩) with
    ⟨os', settled', hdrawing', hcharge⟩
  rw [hr] at hdrawing' hcharge
  rw [hstore, hlines, hrem]
  refine ⟨os', settled', hdrawing', ?_⟩
  refine hbudget.round ?_ ?_ ?_ (fun scope => by rw [hcharge scope, hscope])
  · intro known hknown
    simp [remainingFor, hknown]
  · intro hunknown
    have hle := hdrawing.batchPayable_le hinv hpos (hbudget.unknown trip hunknown)
    simpa [remainingFor, hunknown, hcurrency] using hle
  · rw [hamount]
    exact min_le_right _ _

theorem reserveEntry_drawing (hinv : LedgerInv s) (hpos : ∀ l ∈ s.lines, 0 < l.amount)
    {batch : PayoutBatch} {actor : Id} {lineId : Id → Id} {entries : List EarningsLedgerEntry}
    (hids : (entries.map (·.id)).Nodup)
    (hready : ∀ e ∈ entries, e.status = .available → Ready s e) {r : ReserveState}
    (h : checkedFold (reserveEntry auth batch actor lineId) { store := s } entries = .ok r) :
    ∃ os settled, Drawing s r.store r.lines os settled entries
      ∧ Budget s batch.currency r.remainingByTrip r.lines os := by
  refine checkedFold_prefix
    (fun done st => ∃ os settled, Drawing s st.store st.lines os settled done
      ∧ Budget s batch.currency st.remainingByTrip st.lines os)
    ?_ h ⟨[], [], Drawing.start s, Budget.start s batch.currency⟩
  intro done entry rest st st' hsplit ⟨os, settled, hdrawing, hbudget⟩ hstep
  rcases reserveEntry_ok hstep with ⟨_, _, _, havailable, _⟩
  have hnew : ∀ e ∈ done, e.id ≠ entry.id := by
    intro e he heq
    rw [hsplit, List.map_append, List.nodup_append] at hids
    exact hids.2.2 e.id (List.mem_map_of_mem he) entry.id (by simp) heq
  rcases reserveEntry_round hinv hpos hdrawing hbudget
      (hready entry (by simp [hsplit]) havailable) hnew hstep with ⟨os', settled', hnext⟩
  exact ⟨os ++ os', settled', hnext⟩

omit [Hashing] in
/-- Deleting a draft deletes no line. -/
theorem lines_deleteDraft (hk : Keyed s.batches) {batchId : Id} {b : PayoutBatch}
    (hb : s.batch? batchId = some b) (hdraft : b.status = .draft) {t : Store}
    (ht : t.batches = s.batches) : (t.deleteBatch batchId).lines = s.lines := by
  simp only [Store.lines, Store.deleteBatch, ht]
  refine linesOfBatches_remove ?_
  intro b' hb' hid
  rw [batch_unique hk hb b' hb' hid]
  exact hk.drafts b (mem_of_batch? hb).1 hdraft

/-- A reservation ends by writing its lines into the draft, or by deleting the draft. -/
def EndsWith (batchId : Id) (r : ReserveState) (s' : Store) : Prop :=
  (r.lines = [] ∧ s' = r.store.deleteBatch batchId)
    ∨ (r.lines ≠ [] ∧ s' = r.store.updateBatch batchId (reserveWith r.lines))

/-- What the reservation loop handed out is what the reservation creates. -/
theorem Drawing.reserved (hk : Keyed s.batches) (hinv : LedgerInv s) {batchId : Id}
    {b : PayoutBatch} (hb : s.batch? batchId = some b) (hdraft : b.status = .draft)
    {r : ReserveState} {os : List PayoutRecoveryOffset} {settled : List Id}
    {done : List EarningsLedgerEntry} (h : Drawing s r.store r.lines os settled done)
    (hcharged : ∀ trip c,
      charge s (some trip, c) r.lines os ≤ (s.tripMoneyPosition trip c).batchPayable)
    (hend : EndsWith batchId r s') : Creation s s' r.lines os settled ∧ Within s s' r.lines os := by
  have hbatches : r.store.batches = s.batches := by rw [h.drawn.store]
  rcases hend with ⟨hnil, rfl⟩ | ⟨_, rfl⟩
  · refine h.funded _ hinv hcharged rfl rfl rfl ?_
    rw [lines_deleteDraft hk hb hdraft hbatches, hnil, List.append_nil]
  · rcases mem_of_batch? hb with ⟨hb', rfl⟩
    have hfill := linesOfBatches_fill hk.batchIds hb' (hk.drafts b hb' hdraft)
      (reserveWith r.lines)
    refine h.funded _ hinv hcharged rfl rfl rfl ?_
    simp only [Store.lines, Store.updateBatch, hbatches]
    exact hfill

omit [Hashing] in
/-- A selected entry with no open or failed line is ready to be paid. -/
theorem selected_ready (hlines : ∀ l ∈ s.lines, LineInv l) {ids : List Id}
    (hguard : ∀ l ∈ s.linesOf (orderBy (·.id) (s.entries.filter (·.id ∈ ids))),
      ¬ l.reservationActive ∧ l.status ≠ .failed) :
    ∀ e ∈ orderBy (·.id) (s.entries.filter (·.id ∈ ids)), e.status = .available → Ready s e := by
  intro e he havailable
  refine ⟨List.mem_of_mem_filter (mem_orderBy.mp he), havailable, ?_⟩
  intro l hl hid
  have hselected : l ∈ s.linesOf (orderBy (·.id) (s.entries.filter (·.id ∈ ids))) := by
    refine List.mem_filter.mpr ⟨hl, List.any_eq_true.mpr ⟨e, he, ?_⟩⟩
    simp [hid]
  exact decided_of_inactive (hlines l hl) (hguard l hselected).1 (hguard l hselected).2

omit [Hashing] in
theorem selected_ids (hinv : LedgerInv s) (ids : List Id) :
    ((orderBy (·.id) (s.entries.filter (·.id ∈ ids))).map (·.id)).Nodup := by
  refine (((orderBy_perm _ _).map _).nodup_iff).mpr ?_
  exact hinv.entryIds.sublist (List.filter_sublist.map _)

theorem reservePayoutBatch_funded (hk : Keyed s.batches) (hlines : ∀ l ∈ s.lines, LineInv l)
    (hinv : LedgerInv s) {batchId actor : Id} {ids : List Id} {reason : String} {lineId : Id → Id}
    (h : reservePayoutBatch auth batchId ids actor reason lineId s = .ok s') : Funded s s' := by
  have hpos : ∀ l ∈ s.lines, 0 < l.amount := fun l hl => (hlines l hl).positive
  rcases reservePayoutBatch_ok h with rfl | ⟨b, hb, hdraft, rfl⟩
    | ⟨b, r, hb, hdraft, _, hguard, hfold, hrest⟩
  · exact Funded.of_same_tables hpos rfl rfl rfl rfl
  · exact Funded.of_same_tables hpos rfl rfl rfl (lines_deleteDraft hk hb hdraft rfl)
  · rcases reserveEntry_drawing hinv hpos (selected_ids hinv ids) (selected_ready hlines hguard)
      hfold with ⟨os, settled, hdrawing, hbudget⟩
    have hend : EndsWith batchId r s' := hrest.imp_right (fun h => ⟨h.1, h.2.2⟩)
    rcases hdrawing.reserved hk hinv hb hdraft hbudget.charged hend with ⟨hcreation, hwithin⟩
    exact ⟨_, _, _, hcreation, hwithin, hpos, hdrawing.lines, hdrawing.offsets⟩

/-! ## Replacement -/

theorem retryLine_budget (hinv : LedgerInv s) {replacementId : Id} {lineId : Id → Id}
    {failed : List PayoutBatchLine} {c : Currency} (hc : ∀ l ∈ failed, l.currency = c)
    {r : RetryState}
    (h : checkedFold (retryLine auth s replacementId lineId) {} failed = .ok r) :
    Budget s c r.remainingByTrip r.lines []
      ∧ ∀ l ∈ r.lines, 0 < l.amount ∧ isReserved l ∧ l.status = .reserved
        ∧ ∃ e ∈ s.entries, e.id = l.ledgerEntryId ∧ e.status = .available := by
  refine checkedFold_prefix
    (fun _ st => Budget s c st.remainingByTrip st.lines []
      ∧ ∀ l ∈ st.lines, 0 < l.amount ∧ isReserved l ∧ l.status = .reserved
        ∧ ∃ e ∈ s.entries, e.id = l.ledgerEntryId ∧ e.status = .available)
    ?_ h ⟨Budget.start s c, by simp⟩
  intro done predecessor rest st st' hsplit ⟨hbudget, hlines⟩ hstep
  rcases retryLine_ok hstep with
    ⟨entry, trip, versions, amount, hentry, havailable, _, htrip, _, hcurrency, hamount, hpos,
      hrem, hnew⟩
  have hmem : entry ∈ s.entries := List.mem_of_find?_eq_some hentry
  have hcurrency' : entry.currency = c := hcurrency.trans (hc predecessor (by simp [hsplit]))
  have hscope : entry.scope = (some trip, c) := by
    simp [EarningsLedgerEntry.scope, htrip, hcurrency']
  rw [hnew, hrem]
  refine ⟨hbudget.round ?_ ?_ ?_ ?_, ?_⟩
  · intro known hknown
    simp [remainingFor, hknown]
  · intro hunknown
    simp [remainingFor, hunknown, hcurrency']
  · -- no line asks for more than what is left of its trip
    rw [hamount]
    exact min_le_right _ _
  · intro scope
    have hline : (frozenLine (lineId predecessor.id) replacementId entry versions amount
        (some predecessor.id)).ledgerEntryId = entry.id := rfl
    have hcharge := charge_line hinv.ownership hmem hline scope
    have hsplit := charge_append s scope st.lines [frozenLine (lineId predecessor.id)
      replacementId entry versions amount (some predecessor.id)] [] []
    rw [List.append_nil, hcharge, hscope] at hsplit
    exact hsplit
  · intro l hl
    rcases List.mem_append.mp hl with hl | hl
    · exact hlines l hl
    · rw [List.mem_singleton.mp hl]
      exact ⟨hpos, isReserved_frozenLine _ _ _ _ _ _, rfl, entry, hmem, rfl, havailable⟩

theorem retryFailedPayoutLines_funded (hk : Keyed s.batches) (hlines : ∀ l ∈ s.lines, LineInv l)
    (hinv : LedgerInv s) {batchId actor replacementId : Id}
    {capabilities : DisbursementProviderCapabilities} {reason : String} {lineId : Id → Id}
    (h : retryFailedPayoutLines auth batchId actor capabilities reason replacementId lineId s
      = .ok s') : Funded s s' := by
  have hpos : ∀ l ∈ s.lines, 0 < l.amount := fun l hl => (hlines l hl).positive
  rcases retryFailedPayoutLines_ok h with
    rfl | ⟨b, r, replacement, hb, _, hfold, _, _, _, _, _, hreplacement, rfl⟩
  · exact Funded.of_same_tables hpos rfl rfl rfl rfl
  · rcases hk.currencies b (mem_of_batch? hb).1 with ⟨c, hc⟩
    rcases retryLine_budget hinv
      (fun l hl => hc l (List.mem_of_mem_filter (mem_orderBy.mp hl))) hfold with
      ⟨hbudget, hnew⟩
    refine ⟨r.lines, [], [], ?_, ⟨hbudget.charged, fun _ _ => .inl rfl⟩, hpos,
      fun l hl => (hnew l hl).1, by simp⟩
    refine ⟨rfl, by simp, by simp, ?_, fun l hl => ⟨(hnew l hl).2.1, (hnew l hl).2.2.1⟩, ?_,
      by simp, by simp⟩
    · simp only [Store.lines]
      rw [List.flatMap_append]
      simp [hreplacement]
    · intro l hl
      rcases (hnew l hl).2.2.2 with ⟨e, he, hid, havailable⟩
      exact ⟨e, he, hid, havailable, by simp⟩

/-! ## The automatic run -/

omit [Hashing] in
/-- An entry that is passed over leaves everything handed out as it was. -/
theorem Drawing.skip {t : Store} {ls : List PayoutBatchLine} {os : List PayoutRecoveryOffset}
    {settled : List Id} {done : List EarningsLedgerEntry}
    (h : Drawing s t ls os settled done) {entry : EarningsLedgerEntry} (hready : Ready s entry) :
    Drawing s t ls os settled (done ++ [entry]) := by
  have hdone : ∀ {id : Id}, (∃ e ∈ done, e.id = id) → ∃ e ∈ done ++ [entry], e.id = id := by
    rintro id ⟨e, he, hid⟩
    exact ⟨e, List.mem_append_left _ he, hid⟩
  refine ⟨⟨h.drawn.store, fun id hid => hdone (h.drawn.used id hid), ?_, ?_⟩, ?_, h.lines,
    h.offsets, h.owing⟩
  · intro l hl
    rcases h.drawn.lines l hl with ⟨hexists, hrest⟩
    exact ⟨hdone hexists, hrest⟩
  · intro o ho
    rcases h.drawn.funded o ho with ⟨e, he, hrest⟩
    exact ⟨e, List.mem_append_left _ he, hrest⟩
  · intro e he
    rcases List.mem_append.mp he with he | he
    · exact h.ready e he
    · exact List.mem_singleton.mp he ▸ hready

/-- A line of an automatic batch, queued as it is created. -/
def queuedLine (providerName : String) (l : PayoutBatchLine) : PayoutBatchLine :=
  { l with intent := some (newIntent providerName cardvertAutomaticPayoutActorId l) }

/-- The items of one driver's share: ready, distinct, and one for each trip. -/
structure Shares (s : Store) (items : List (EarningsLedgerEntry × (Id × Id))) : Prop where
  ready : ∀ item ∈ items, Ready s item.1
  ids : (items.map (·.1.id)).Nodup
  trips : ∀ item ∈ items, ∀ item' ∈ items,
    item.1.tripSessionId = item'.1.tripSessionId → item.1.id = item'.1.id

theorem automaticEntry_drawing (hinv : LedgerInv s) (hpos : ∀ l ∈ s.lines, 0 < l.amount)
    {runId batchId : Id} {lineId : Id → Id} (providerName : String)
    {items : List (EarningsLedgerEntry × (Id × Id))} (hitems : Shares s items)
    {r : AutomaticState}
    (h : checkedFold (automaticEntry runId batchId lineId) { store := s } items = .ok r) :
    ∃ os settled,
      Drawing s r.store (r.lines.map (queuedLine providerName)) os settled (items.map (·.1))
        ∧ ∀ trip c, charge s (some trip, c) (r.lines.map (queuedLine providerName)) os
          ≤ (s.tripMoneyPosition trip c).batchPayable := by
  have hfold := checkedFold_prefix
    (fun done st => ∃ os settled,
      Drawing s st.store (st.lines.map (queuedLine providerName)) os settled (done.map (·.1))
        ∧ ∀ trip c, charge s (some trip, c) (st.lines.map (queuedLine providerName)) os
            ≤ (s.tripMoneyPosition trip c).batchPayable
          ∧ (charge s (some trip, c) (st.lines.map (queuedLine providerName)) os ≠ 0 →
            ∃ item ∈ done, item.1.scope = (some trip, c)))
    ?_ h ⟨[], [], Drawing.start s, ?_⟩
  · rcases hfold with ⟨os, settled, hdrawing, hcharge⟩
    exact ⟨os, settled, hdrawing, fun trip c => (hcharge trip c).1⟩
  · intro done item rest st st' hsplit ⟨os, settled, hdrawing, hcharge⟩ hstep
    have hready : Ready s item.1 := hitems.ready item (by simp [hsplit])
    have hnew : ∀ e ∈ done.map (·.1), e.id ≠ item.1.id := by
      intro e he heq
      rcases List.mem_map.mp he with ⟨item', hitem', rfl⟩
      have hids := hitems.ids
      rw [hsplit, List.map_append, List.nodup_append] at hids
      exact hids.2.2 item'.1.id (List.mem_map_of_mem hitem') item.1.id (by simp) heq
    have hmono : ∀ {scope : TripScope}, (∃ item' ∈ done, item'.1.scope = scope) →
        ∃ item' ∈ done ++ [item], item'.1.scope = scope := by
      rintro scope ⟨item', hitem', hscope⟩
      exact ⟨item', List.mem_append_left _ hitem', hscope⟩
    rw [List.map_append, List.map_singleton]
    rcases automaticEntry_ok hstep with
      rfl | ⟨trip, payable, htrip, hpayable, hpayablePos, hstore, hlines⟩
    · exact ⟨os, settled, hdrawing.skip hready,
        fun trip c => ⟨(hcharge trip c).1, fun hne => hmono ((hcharge trip c).2 hne)⟩⟩
    · rcases hr : allocatePayoutRecovery st.store item.1 payable
          { requestId := runId, automaticRunId := some runId } with ⟨t', left⟩
      rw [hr] at hstore hlines
      simp only at hstore hlines
      have hscope : item.1.scope = (some trip, item.1.currency) := by
        simp [EarningsLedgerEntry.scope, htrip]
      have hround : st'.lines.map (queuedLine providerName)
          = if left = 0 then st.lines.map (queuedLine providerName)
            else st.lines.map (queuedLine providerName) ++ [queuedLine providerName
              (frozenLine (lineId item.1.id) batchId item.1 item.2 left none)] := by
        rcases hlines with ⟨hzero, hlines⟩ | ⟨_, rfl, hleft, _, hlines⟩
        · rw [hlines, if_pos hzero]
        · rw [hlines, if_neg hleft.ne', List.map_append, List.map_singleton]
      rcases hdrawing.round hinv hready hnew (le_of_lt hpayablePos)
          { requestId := runId, automaticRunId := some runId }
          (fun left => queuedLine providerName
            (frozenLine (lineId item.1.id) batchId item.1 item.2 left none))
          (fun left => ⟨rfl, rfl, by simp [isReserved, isPaid, queuedLine, frozenLine, newIntent,
            intentHasUnknownEffect], rfl⟩) with
        ⟨os', settled', hdrawing', hcharge'⟩
      rw [hr] at hdrawing' hcharge'
      simp only at hdrawing' hcharge'
      rw [hstore, hround]
      refine ⟨os ++ os', settled', hdrawing', ?_⟩
      intro trip' c
      rw [hcharge' (some trip', c), hscope]
      by_cases hsame : ((some trip, item.1.currency) : TripScope) = (some trip', c)
      · rw [if_pos hsame]
        simp only [Prod.mk.injEq, Option.some.injEq] at hsame
        rcases hsame with ⟨rfl, rfl⟩
        -- no earlier entry is of the same trip
        have hzero : charge s (some trip, item.1.currency)
            (st.lines.map (queuedLine providerName)) os = 0 := by
          by_contra hne
          rcases (hcharge trip item.1.currency).2 hne with ⟨item', hitem', hscope'⟩
          have htrip' : item'.1.tripSessionId = item.1.tripSessionId :=
            congrArg Prod.fst (hscope'.trans hscope.symm)
          exact hnew item'.1 (List.mem_map_of_mem hitem')
            (hitems.trips item' (by simp [hsplit, hitem']) item (by simp [hsplit]) htrip')
        have hle := hdrawing.batchPayable_le hinv hpos hzero
        have hmin : payable ≤ (st.store.tripMoneyPosition trip item.1.currency).batchPayable := by
          rw [hpayable]
          exact min_le_right _ _
        exact ⟨by omega, fun _ => ⟨item, by simp, hscope⟩⟩
      · rw [if_neg hsame, add_zero]
        exact ⟨(hcharge trip' c).1, fun hne => hmono ((hcharge trip' c).2 hne)⟩
  · intro trip c
    simpa [charge] using tripMoneyPosition_batchPayable_nonneg s trip c

/-- A driver's share leaves the entries of other drivers ready. -/
theorem automaticDriver_funded (hinv : LedgerInv s) (hpos : ∀ l ∈ s.lines, 0 < l.amount)
    {runId : Id} {batchId lineId : Id → Id} {providerName : String} {now : Int}
    {included : List (EarningsLedgerEntry × (Id × Id))} {driver : Id}
    (hitems : Shares s (orderBy (·.1.id) (included.filter (·.1.driverProfileId = driver))))
    (h : automaticDriver runId batchId lineId providerName now included s driver = .ok s') :
    Funded s s' ∧ ∀ e, Ready s e → e.driverProfileId ≠ driver → Ready s' e := by
  rcases automaticDriver_ok h with ⟨r, hfold, hrest⟩
  rcases automaticEntry_drawing hinv hpos providerName hitems hfold with
    ⟨os, settled, hdrawing, hcharged⟩
  have htables : s'.trips = r.store.trips ∧ s'.entries = r.store.entries
      ∧ s'.offsets = r.store.offsets
      ∧ s'.lines = s.lines ++ r.lines.map (queuedLine providerName) := by
    have hbatches : r.store.batches = s.batches := by rw [hdrawing.drawn.store]
    rcases hrest with ⟨hnil, rfl⟩ | ⟨_, _, rfl⟩
    · refine ⟨rfl, rfl, rfl, ?_⟩
      simp [Store.lines, hbatches, hnil]
    · refine ⟨rfl, rfl, rfl, ?_⟩
      simp only [Store.lines, hbatches]
      rw [List.flatMap_append]
      simp [automaticBatch, queuedLine]
  rcases htables with ⟨htrips, hentries, hoffsets, hlines⟩
  rcases hdrawing.funded s' hinv hcharged htrips hentries hoffsets (by rw [hlines]) with
    ⟨hcreation, hwithin⟩
  refine ⟨⟨_, _, _, hcreation, hwithin, hpos, hdrawing.lines, hdrawing.offsets⟩, ?_⟩
  intro e hready hdriver
  -- the loop only touched entries of its own driver
  have huntouched : ∀ e' ∈ (orderBy (·.1.id)
      (included.filter (·.1.driverProfileId = driver))).map (·.1), e'.id ≠ e.id := by
    intro e' he' hid
    have hsame : e' = e := eq_of_key_eq hinv.entryIds (hdrawing.ready e' he').1 hready.1 hid
    rcases List.mem_map.mp he' with ⟨item, hitem, rfl⟩
    have hown := (List.mem_filter.mp (mem_orderBy.mp hitem)).2
    rw [hsame] at hown
    exact hdriver (by simpa using hown)
  refine ⟨?_, hready.2.1, ?_⟩
  · rw [hcreation.entries]
    refine List.mem_map.mpr ⟨e, hready.1, if_neg ?_⟩
    intro hmem
    rcases hdrawing.drawn.used _ hmem with ⟨e', he', hid⟩
    exact huntouched e' he' hid
  · intro l hl hid
    rw [hlines] at hl
    rcases List.mem_append.mp hl with hl | hl
    · exact hready.2.2 l hl hid
    · rcases (hdrawing.drawn.lines l hl).1 with ⟨e', he', hid'⟩
      exact absurd (hid'.trans hid) (huntouched e' he')

omit [Hashing] in
theorem includedEntries_ids (hinv : LedgerInv s) (review : AutomaticReview) :
    ((includedEntries s review).map (·.1.id)).Nodup := by
  have hids := hinv.entryIds.sublist
    ((List.filter_sublist (p := isAutomaticCandidate s) (l := s.entries)).map (·.id))
  rw [List.Nodup, List.pairwise_map] at hids ⊢
  refine List.pairwise_filterMap.mpr (hids.imp ?_)
  intro e e' hne item hitem item' hitem'
  simp only [Option.map_eq_some_iff] at hitem hitem'
  rcases hitem with ⟨_, _, rfl⟩
  rcases hitem' with ⟨_, _, rfl⟩
  exact hne

omit [Hashing] in
/-- A candidate has no open or failed line, and its trip has no other live entry. -/
theorem candidate_ready (hlines : ∀ l ∈ s.lines, LineInv l) {e : EarningsLedgerEntry}
    (he : e ∈ s.entries) (hcandidate : isAutomaticCandidate s e) :
    Ready s e ∧ ∀ e' ∈ s.entries, e'.tripSessionId = e.tripSessionId → e'.status ≠ .voided →
      e'.id = e.id := by
  simp only [isAutomaticCandidate, Bool.and_eq_true, decide_eq_true_eq, Bool.not_eq_true',
    List.any_eq_false] at hcandidate
  rcases hcandidate with ⟨⟨⟨⟨⟨⟨⟨_, havailable⟩, _⟩, _⟩, _⟩, _⟩, hopen⟩, hother⟩
  refine ⟨⟨he, havailable, ?_⟩, ?_⟩
  · intro l hl hid
    rcases mem_linesOfBatches.mp hl with ⟨b, hb, hlb⟩
    have hclosed := hopen b hb
    simp only [List.any_eq_true, Bool.and_eq_true, Bool.or_eq_true, decide_eq_true_eq, not_exists,
      not_and, not_or] at hclosed
    have hline := hclosed l hlb hid
    exact decided_of_inactive (hlines l hl) hline.1.2 hline.2
  · intro e' he' htrip hvoided
    by_contra hne
    exact hother e' he' (by simp [htrip, hne, hvoided])

theorem runAutomaticPayouts_funded (hlines : ∀ l ∈ s.lines, LineInv l) (hinv : LedgerInv s)
    {review : AutomaticReview} {capabilities : DisbursementProviderCapabilities} {runId : Id}
    {period : String} {batchId lineId : Id → Id} {now : Int}
    (h : runAutomaticPayouts review capabilities runId period batchId lineId now s = .ok s') :
    Funded s s' := by
  have hpos : ∀ l ∈ s.lines, 0 < l.amount := fun l hl => (hlines l hl).positive
  rcases runAutomaticPayouts_ok h with rfl | hfold
  · exact Funded.of_same_tables hpos rfl rfl rfl rfl
  · have hincluded : ∀ item ∈ includedEntries s review, Ready s item.1
        ∧ ∀ e' ∈ s.entries, e'.tripSessionId = item.1.tripSessionId → e'.status ≠ .voided →
          e'.id = item.1.id := by
      intro item hitem
      rcases mem_includedEntries hitem with ⟨he, hcandidate⟩
      exact candidate_ready hlines he hcandidate
    have hdrivers : (orderBy id (orderedKeys
        ((includedEntries s review).map (·.1.driverProfileId)))).Nodup :=
      ((orderBy_perm _ _).nodup_iff).mpr (nodup_orderedKeys _)
    -- drivers still to come find their entries untouched
    have hrun := checkedFold_prefix
      (fun done t => Funded s t ∧ LedgerInv t
        ∧ ∀ item ∈ includedEntries s review, item.1.driverProfileId ∉ done → Ready t item.1)
      ?_ hfold ⟨Funded.of_same_tables hpos rfl rfl rfl rfl,
        hinv.of_lines rfl rfl (SteadyLines.refl _), fun item hitem _ => (hincluded item hitem).1⟩
    · exact hrun.1
    · intro done driver rest t t' hsplit ⟨hfunded, hinv', hready⟩ hstep
      have hdriver : driver ∉ done := by
        rw [hsplit, List.nodup_append] at hdrivers
        exact fun hmem => hdrivers.2.2 driver hmem driver (by simp) rfl
      have hpos' : ∀ l ∈ t.lines, 0 < l.amount := by
        rcases hfunded with ⟨ls, os, settled, hcreation, _, hpositive⟩
        intro l hl
        exact (List.mem_append.mp (hcreation.lines.mem_iff.mp hl)).elim
          (hpositive.stored l) (hpositive.lines l)
      have hshares : Shares t (orderBy (·.1.id)
          ((includedEntries s review).filter (·.1.driverProfileId = driver))) := by
        have hmem : ∀ item ∈ orderBy (·.1.id)
            ((includedEntries s review).filter (·.1.driverProfileId = driver)),
            item ∈ includedEntries s review ∧ item.1.driverProfileId = driver := by
          intro item hitem
          have hitem := List.mem_filter.mp (mem_orderBy.mp hitem)
          exact ⟨hitem.1, by simpa using hitem.2⟩
        refine ⟨?_, ?_, ?_⟩
        · intro item hitem
          rcases hmem item hitem with ⟨hitem, hown⟩
          exact hready item hitem (hown ▸ hdriver)
        · refine (((orderBy_perm _ _).map _).nodup_iff).mpr ?_
          exact (includedEntries_ids hinv review).sublist (List.filter_sublist.map _)
        · intro item hitem item' hitem' htrip
          have he := (hincluded item (hmem item hitem).1).1
          refine (hincluded item' (hmem item' hitem').1).2 item.1 he.1 htrip ?_
          simp [he.2.1]
      rcases automaticDriver_funded hinv' hpos' hshares hstep with ⟨hfunded', hkept⟩
      refine ⟨hfunded.trans hfunded', ?_, ?_⟩
      · rcases hfunded' with ⟨_, _, _, hcreation, _, _⟩
        exact hinv'.create hcreation
      · intro item hitem hnew
        simp only [List.mem_append, List.mem_singleton, not_or] at hnew
        exact hkept item.1 (hready item hitem hnew.1) hnew.2

end Operations

end Payout
end Mobility
