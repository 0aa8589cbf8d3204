import Mobility.Payout.PreviewRows
import Mobility.Payout.Recoveries

/-!
# ReservedRows — a reservation draws on trips in the order of its entry ids

The reservation loop makes the draws of a preview on the trips, in its own order, and its
recoveries draw on the drivers' debts.  `Sharing` says where the loop stands.
-/

namespace Mobility
namespace Payout

open Lib

variable {s s' t : Store} {auth : Authority} {c : Currency} {left : Option Id → Int}
  {debts : Id → Int} {e : EarningsLedgerEntry} {os : List PayoutRecoveryOffset}
  {settled : List Id} {done rest : List EarningsLedgerEntry} {ls : List PayoutBatchLine}

/-- The checks of a reservation on one credit. -/
structure EntryClear (auth : Authority) (c : Currency) (e : EarningsLedgerEntry) : Prop where
  trip : ∃ tripId, e.tripSessionId = some tripId ∧ auth.assessmentCurrent tripId = true
    ∧ auth.held tripId = false
  payable : e.status = .available ∧ e.entryType ≠ .reversal ∧ 0 < e.amount ∧ e.currency = c
  payee : ∃ versions, auth.payeeAuthority e.driverProfileId e.driverUserId = .ok versions

/-! ## Positions in the middle of a loop -/

/-- A trip that was not charged pays what it could pay before. -/
theorem Drawing.batchPayable_eq (h : Drawing s t ls os settled done) (hinv : LedgerInv s)
    (hpos : ∀ l ∈ s.lines, 0 < l.amount) {trip : Id}
    (hcharge : charge s (some trip, c) ls os = 0) :
    (t.tripMoneyPosition trip c).batchPayable = (s.tripMoneyPosition trip c).batchPayable := by
  have hledger := h.drawn.ledger h.ready hinv.entryIds
  have hle := funded_le_charge s (some trip, c) os h.lines
  have hreceived := received_nonneg s (some trip, c) h.offsets
  refine le_antisymm (h.batchPayable_le hinv hpos hcharge) ?_
  by_cases hempty : s.scopeEntries (some trip, c) = []
  · have hempty' := (hledger.movement.scopeEntries_nil (some trip, c)).mpr hempty
    rw [tripMoneyPosition_eq, tripMoneyPosition_eq, if_pos hempty, if_pos hempty']
  · have hempty' : t.scopeEntries (some trip, c) ≠ [] :=
      fun h' => hempty ((hledger.movement.scopeEntries_nil (some trip, c)).mp h')
    rw [tripMoneyPosition_eq, tripMoneyPosition_eq, if_neg hempty, if_neg hempty',
      scopePosition_batchPayable, scopePosition_batchPayable, hledger.movement.releasedNet,
      hledger.movement.settled_eq, hledger.movement.reserved_eq, hledger.movement.inFlight_eq, List.filter_nil,
      totalAmount_nil]
    omega

/-- What a trip can still be charged fits in what it has earned. -/
theorem Drawing.room (h : Drawing s t ls os settled done) (hinv : LedgerInv s)
    (hpos : ∀ l ∈ s.lines, 0 < l.amount) {trip : Id} {amount : Int} (hamount : 0 < amount)
    (hwithin : charge s (some trip, c) ls os + amount
      ≤ (s.tripMoneyPosition trip c).batchPayable) :
    (t.scopePosition (some trip, c)).settled + amount
      ≤ (t.scopePosition (some trip, c)).earnedNet := by
  have hledger := h.drawn.ledger h.ready hinv.entryIds
  have hle := funded_le_charge s (some trip, c) os h.lines
  have hcharge := charge_nonneg s (some trip, c) h.lines h.offsets
  have hreceived := received_nonneg s (some trip, c) h.offsets
  have hearned := releasedNet_le_earnedNet s (some trip, c)
  have hpositions := scopePosition_nonneg hpos (some trip, c)
  have hsettled := hledger.movement.settled_eq (some trip, c)
  rw [hledger.movement.earnedNet]
  by_cases hempty : s.scopeEntries (some trip, c) = []
  · rw [tripMoneyPosition_eq, if_pos hempty] at hwithin
    simp only at hwithin
    omega
  · rw [tripMoneyPosition_eq, if_neg hempty, scopePosition_batchPayable] at hwithin
    omega

/-! ## Where the loop stands -/

/-- The columns of a line that its table keeps unique. -/
def lineKeys (l : PayoutBatchLine) : Id × Id × Option Id :=
  (l.id, l.ledgerEntryId, l.predecessorLineId)

/-- The loop over the selection of `s` stands at `st`: trips have `left` to pay, and drivers
still owe `debts`. -/
structure Sharing (s : Store) (c : Currency) (lineId : Id → Id) (st : ReserveState)
    (os : List PayoutRecoveryOffset) (settled : List Id) (done : List EarningsLedgerEntry)
    (left : Option Id → Int) (debts : Id → Int) : Prop where
  drawing : Drawing s st.store st.lines os settled done
  budget : Budget s c st.remainingByTrip st.lines os
  known : ∀ trip r, st.remainingByTrip trip = some r → left (some trip) = r
  unknown : ∀ trip, st.remainingByTrip trip = none →
    left (some trip) = (s.tripMoneyPosition trip c).batchPayable
  debts : ∀ driver, driverDebt st.store driver c = debts driver
  keys : (st.lines.map lineKeys).Sublist (done.map (fun e => (lineId e.id, e.id, none)))

namespace Sharing

variable {lineId : Id → Id} {st : ReserveState}

theorem start (s : Store) (c : Currency) (lineId : Id → Id) :
    Sharing s c lineId { store := s } [] [] [] (payableOf s c) (driverDebt s · c) where
  drawing := Drawing.start s
  budget := Budget.start s c
  known := by simp
  unknown := fun _ _ => rfl
  debts := fun _ => rfl
  keys := List.Sublist.refl _

theorem remainingFor_eq (h : Sharing s c lineId st os settled done left debts)
    (hinv : LedgerInv s) (hpos : ∀ l ∈ s.lines, 0 < l.amount) (trip : Id) :
    remainingFor st.store st.remainingByTrip trip c = left (some trip) := by
  cases hr : st.remainingByTrip trip with
  | some r =>
      rw [remainingFor, hr, h.known trip r hr]
      rfl
  | none =>
      rw [remainingFor, hr, h.unknown trip hr]
      exact h.drawing.batchPayable_eq hinv hpos (h.budget.unknown trip hr)

theorem within (h : Sharing s c lineId st os settled done left debts) (trip : Id) :
    charge s (some trip, c) st.lines os + left (some trip)
      ≤ (s.tripMoneyPosition trip c).batchPayable := by
  cases hr : st.remainingByTrip trip with
  | some r =>
      rw [h.known trip r hr]
      exact (h.budget.known trip r hr).2
  | none =>
      rw [h.unknown trip hr, h.budget.unknown trip hr, zero_add]

end Sharing

/-! ## One round -/

section Rounds

variable [Hashing] {batch : PayoutBatch} {actor : Id} {lineId : Id → Id} {st st' : ReserveState}

theorem reserveEntry_clear (h : reserveEntry auth batch actor lineId st e = .ok st') :
    EntryClear auth batch.currency e := by
  simp only [reserveEntry, bind_eq_ok, demand_eq_ok, require_eq_ok] at h
  rcases h with ⟨tripId, htrip, _, hheld, _, hassessed, _, hpayable, versions, hversions, _⟩
  exact ⟨⟨tripId, htrip, hassessed, by simpa using hheld⟩, hpayable, versions, hversions⟩

theorem exists_reserveEntry (hclear : EntryClear auth batch.currency e)
    (hleft : ∀ tripId, e.tripSessionId = some tripId →
      0 < min e.amount (remainingFor st.store st.remainingByTrip tripId e.currency)) :
    ∃ st', reserveEntry auth batch actor lineId st e = .ok st' := by
  rcases hclear.trip with ⟨tripId, htrip, hassessed, hheld⟩
  rcases hclear.payee with ⟨versions, hversions⟩
  have hamount := hleft tripId htrip
  rcases allocatePayoutRecovery_spec st.store e
      { requestId := batch.id, actorUserId := some actor } hamount.le with ⟨os, hrecovered, _⟩
  have htaken := offsetTotal_nonneg (fun o ho => (hrecovered.funding o ho).2.2)
  have htotal := hrecovered.total
  have hrest := hrecovered.rest
  by_cases hzero : (allocatePayoutRecovery st.store e
      (min e.amount (remainingFor st.store st.remainingByTrip tripId e.currency))
      { requestId := batch.id, actorUserId := some actor }).2 = 0
  · refine ⟨_, bind_eq_ok.mpr ⟨tripId, demand_eq_ok.mpr htrip, bind_eq_ok.mpr ⟨⟨⟩,
      require_of (by simp [hheld]), bind_eq_ok.mpr ⟨⟨⟩, require_of hassessed, bind_eq_ok.mpr ⟨⟨⟩,
      require_of hclear.payable, bind_eq_ok.mpr ⟨versions, hversions, bind_eq_ok.mpr ⟨⟨⟩,
      require_of hamount, if_pos hzero⟩⟩⟩⟩⟩⟩⟩
  · have hline : buildFrozenPayoutLine (lineId e.id) batch.id e versions
        (allocatePayoutRecovery st.store e
          (min e.amount (remainingFor st.store st.remainingByTrip tripId e.currency))
          { requestId := batch.id, actorUserId := some actor }).2
        = .ok (frozenLine (lineId e.id) batch.id e versions
          (allocatePayoutRecovery st.store e
            (min e.amount (remainingFor st.store st.remainingByTrip tripId e.currency))
            { requestId := batch.id, actorUserId := some actor }).2 none) :=
      bind_eq_ok.mpr ⟨⟨⟩, require_of ⟨by omega, by omega⟩, rfl⟩
    refine ⟨_, bind_eq_ok.mpr ⟨tripId, demand_eq_ok.mpr htrip, bind_eq_ok.mpr ⟨⟨⟩,
      require_of (by simp [hheld]), bind_eq_ok.mpr ⟨⟨⟩, require_of hassessed, bind_eq_ok.mpr ⟨⟨⟩,
      require_of hclear.payable, bind_eq_ok.mpr ⟨versions, hversions, bind_eq_ok.mpr ⟨⟨⟩,
      require_of hamount, (if_neg hzero).trans (bind_eq_ok.mpr ⟨_, hline, rfl⟩)⟩⟩⟩⟩⟩⟩⟩

/-- One round draws on the trip of its credit, and its recovery on the driver's debts. -/
theorem Sharing.round (h : Sharing s batch.currency lineId st os settled done left debts)
    (hinv : LedgerInv s) (hpos : ∀ l ∈ s.lines, 0 < l.amount) (hready : Ready s e)
    (hnew : ∀ e' ∈ done, e'.id ≠ e.id)
    (hstep : reserveEntry auth batch actor lineId st e = .ok st') :
    0 < min e.amount (left e.tripSessionId)
      ∧ ∃ os' settled', Sharing s batch.currency lineId st' (os ++ os') settled' (done ++ [e])
          (leftAfter left (request e))
          (leftAfter debts (e.driverProfileId, min e.amount (left e.tripSessionId)))
        ∧ offsetTotal os' = min (min e.amount (left e.tripSessionId)) (debts e.driverProfileId)
        ∧ totalAmount st'.lines + offsetTotal os'
          = totalAmount st.lines + min e.amount (left e.tripSessionId) := by
  rcases reserveEntry_round hinv hpos h.drawing h.budget hready hnew hstep with
    ⟨os', settled', hdrawing, hbudget⟩
  rcases reserveEntry_ok hstep with
    ⟨trip, amount, htrip, _, _, hcurrency, hamount, hamountPos, hstore, hrem, hlines⟩
  rw [hcurrency, h.remainingFor_eq hinv hpos] at hamount hrem
  rw [htrip, ← hamount]
  have hledger := h.drawing.drawn.ledger h.drawing.ready hinv.entryIds
  have hinv' := hinv.create hledger
  have hready' := h.drawing.ready_of_new hinv hready hnew
  have hscope : e.scope = (some trip, batch.currency) := by
    simp [EarningsLedgerEntry.scope, htrip, hcurrency]
  rcases allocatePayoutRecovery_spec st.store e
      { requestId := batch.id, actorUserId := some actor } hamountPos.le with
    ⟨os₀, hrecovered, hstore₀⟩
  rw [← hstore] at hstore₀
  -- the offsets of the round are those of its recovery
  have hoffsets : os' = os₀ := by
    have hbefore : st.store.offsets = s.offsets ++ os := by rw [h.drawing.drawn.store]
    have hafter : st'.store.offsets = s.offsets ++ (os ++ os') := by rw [hdrawing.drawn.store]
    rw [hstore₀, hbefore, List.append_assoc] at hafter
    exact (List.append_cancel_left (List.append_cancel_left hafter)).symm
  subst hoffsets
  have hcreation : ∃ used, Creation st.store st'.store [] os' used := by
    rw [hstore₀]
    refine ⟨_, recovery_creation hready' hinv'.entryIds hrecovered _ ?_⟩
    intro id hid
    split_ifs at hid
    · exact List.mem_singleton.mp hid
    · exact absurd hid List.not_mem_nil
  rcases hcreation with ⟨used, hcreation⟩
  have hwithin := h.within trip
  have hroom : (st.store.scopePosition e.scope).settled + amount
      ≤ (st.store.scopePosition e.scope).earnedNet := by
    rw [hscope]
    exact h.drawing.room hinv hpos hamountPos (by omega)
  have hown : debtOf st.store e.scope = 0 := by
    simp only [debtOf, TripMoneyPosition.debt]
    omega
  have hleft := allocatePayoutRecovery_left hinv' hown hamountPos.le
    { requestId := batch.id, actorUserId := some actor }
  have htotal := hrecovered.total
  rw [hcurrency, h.debts] at hleft
  have htaken : offsetTotal os' = min amount (debts e.driverProfileId) := by omega
  refine ⟨hamountPos, os', settled', ⟨hdrawing, hbudget, ?_, ?_, ?_, ?_⟩, htaken, ?_⟩
  · intro trip' r hr
    rw [hrem, takeRemaining] at hr
    rw [leftAfter_apply, request, htrip]
    split_ifs at hr with hsame
    · simp only [hsame, if_true]
      rw [← hamount]
      exact Option.some.inj hr
    · have hother : ¬ (some trip = some trip') := fun h => hsame (Option.some.inj h).symm
      rw [if_neg hother, sub_zero]
      exact h.known trip' r hr
  · intro trip' hr
    rw [hrem, takeRemaining] at hr
    split_ifs at hr with hsame
    have hother : ¬ (some trip = some trip') := fun h => hsame (Option.some.inj h).symm
    rw [leftAfter_apply, request, htrip, if_neg hother, sub_zero]
    exact h.unknown trip' hr
  · intro driver
    have hdebt := hrecovered.driverDebt_eq hinv'.ownership hready'.1 hready'.live hcreation.movement
      hroom driver
    rw [hcurrency, h.debts, htaken] at hdebt
    rw [hdebt, leftAfter_apply]
    by_cases hdriver : e.driverProfileId = driver
    · simp only [hdriver, if_true]
    · simp only [hdriver, if_false]
  · rw [List.map_append, List.map_singleton]
    rcases hlines with ⟨_, hlines⟩ | ⟨versions, _, _, _, _, hlines⟩
    · rw [hlines]
      exact h.keys.trans (List.sublist_append_left _ _)
    · rw [hlines, List.map_append]
      exact h.keys.append (List.Sublist.refl _)
  · rcases hlines with ⟨hzero, hlines⟩ | ⟨versions, rest, hrest, _, _, hlines⟩
    · rw [hlines]
      omega
    · have hline : totalAmount [frozenLine (lineId e.id) batch.id e versions rest none] = rest :=
        add_zero _
      rw [hlines, totalAmount_append, hline]
      omega

/-! ## The loop -/

/-- The loop is the draws of its rows, and stops where a row gets nothing. -/
theorem reserveEntries_draws (hinv : LedgerInv s) (hpos : ∀ l ∈ s.lines, 0 < l.amount) :
    ∀ {rest done : List EarningsLedgerEntry} {st : ReserveState} {os : List PayoutRecoveryOffset}
      {settled : List Id} {left : Option Id → Int} {debts : Id → Int},
      Sharing s batch.currency lineId st os settled done left debts →
      (∀ e ∈ rest, e.status = .available → Ready s e) →
      ((done ++ rest).map (·.id)).Nodup →
      ((∃ r, checkedFold (reserveEntry auth batch actor lineId) st rest = .ok r)
        ↔ (∀ e ∈ rest, EntryClear auth batch.currency e) ∧ Served left (rest.map request))
      ∧ ∀ r, checkedFold (reserveEntry auth batch actor lineId) st rest = .ok r →
        ∃ os' settled' left' debts',
          Sharing s batch.currency lineId r (os ++ os') settled' (done ++ rest) left' debts'
          ∧ offsetTotal os' = ((draws debts (paidToDrivers s left rest)).map (·.2)).sum
          ∧ totalAmount r.lines + offsetTotal os'
            = totalAmount st.lines + ((draws left (rest.map request)).map (·.2)).sum := by
  intro rest
  induction rest with
  | nil =>
      intro done st os settled left debts h _ _
      refine ⟨⟨fun _ => ⟨by simp, by simp [Served, draws]⟩, fun _ => ⟨st, rfl⟩⟩, ?_⟩
      intro r hr
      rcases Except.ok.inj hr with rfl
      refine ⟨[], settled, left, debts, ?_, rfl, rfl⟩
      rw [List.append_nil, List.append_nil]
      exact h
  | cons e rest ih =>
      intro done st os settled left debts h hready hids
      have hsplit : Served left ((e :: rest).map request)
          ↔ 0 < min e.amount (left e.tripSessionId)
            ∧ Served (leftAfter left (request e)) (rest.map request) := by
        simp only [Served, List.map_cons, draws, List.forall_mem_cons]
        rfl
      have hnew : ∀ e' ∈ done, e'.id ≠ e.id := by
        intro e' he' heq
        rw [List.map_append, List.nodup_append] at hids
        exact hids.2.2 e'.id (List.mem_map_of_mem he') e.id (by simp) heq
      have hready' : ∀ e' ∈ rest, e'.status = .available → Ready s e' :=
        fun e' he' => hready e' (List.mem_cons_of_mem _ he')
      have hids' : (((done ++ [e]) ++ rest).map (·.id)).Nodup := by
        rwa [List.append_assoc, List.singleton_append]
      -- an accepted round leaves the loop to the rest
      have hround : ∀ {st'}, reserveEntry auth batch actor lineId st e = .ok st' →
          EntryClear auth batch.currency e ∧ Ready s e := by
        intro st' hstep
        have hclear := reserveEntry_clear hstep
        exact ⟨hclear, hready e List.mem_cons_self hclear.payable.1⟩
      constructor
      · rw [List.forall_mem_cons, hsplit]
        constructor
        · rintro ⟨r, hr⟩
          rcases bind_eq_ok.mp hr with ⟨st', hstep, hrest⟩
          rcases hround hstep with ⟨hclear, hopen⟩
          rcases h.round hinv hpos hopen hnew hstep with ⟨hleft, os', settled', hnext, _⟩
          rcases (ih hnext hready' hids').1.mp ⟨r, hrest⟩ with ⟨hclears, hserved⟩
          exact ⟨⟨hclear, hclears⟩, hleft, hserved⟩
        · rintro ⟨⟨hclear, hclears⟩, hleft, hserved⟩
          have hfirst : ∃ st', reserveEntry auth batch actor lineId st e = .ok st' := by
            refine exists_reserveEntry hclear ?_
            intro tripId htrip
            rw [hclear.payable.2.2.2, h.remainingFor_eq hinv hpos, ← htrip]
            exact hleft
          rcases hfirst with ⟨st', hstep⟩
          rcases h.round hinv hpos (hround hstep).2 hnew hstep with ⟨_, os', settled', hnext, _⟩
          rcases (ih hnext hready' hids').1.mpr ⟨hclears, hserved⟩ with ⟨r, hrest⟩
          exact ⟨r, bind_eq_ok.mpr ⟨st', hstep, hrest⟩⟩
      · intro r hr
        rcases bind_eq_ok.mp hr with ⟨st', hstep, hrest⟩
        rcases hround hstep with ⟨_, hopen⟩
        rcases h.round hinv hpos hopen hnew hstep with
          ⟨_, os₁, settled₁, hnext, hoffsets₁, htotal₁⟩
        rcases (ih hnext hready' hids').2 r hrest with
          ⟨os₂, settled₂, left₂, debts₂, hlast, hoffsets₂, htotal₂⟩
        refine ⟨os₁ ++ os₂, settled₂, left₂, debts₂, ?_, ?_, ?_⟩
        · rwa [List.append_assoc, List.append_assoc, List.singleton_append] at hlast
        · have hpaid : paidToDrivers s left (e :: rest)
              = (e.driverProfileId, min e.amount (left e.tripSessionId))
                :: paidToDrivers s (leftAfter left (request e)) rest := by
            have howner := driverOf_eq hinv hopen.1
            simp only [paidToDrivers, List.map_cons, draws, request, howner]
          rw [hpaid, draws, List.map_cons, List.sum_cons, offsetTotal_append, hoffsets₁, hoffsets₂]
        · have hdraws : ((draws left ((e :: rest).map request)).map (·.2)).sum
              = min e.amount (left e.tripSessionId)
                + ((draws (leftAfter left (request e)) (rest.map request)).map (·.2)).sum := rfl
          rw [hdraws, offsetTotal_append]
          omega

/-! ## The reservation of a draft -/

/-- The selected entries in the order of the reservation. -/
abbrev reservedRows (s : Store) (ids : List Id) : List EarningsLedgerEntry :=
  orderBy (·.id) (s.entries.filter (·.id ∈ ids))

/-- An empty draft: nothing was recovered under its id. -/
structure EmptyDraft (s : Store) (batch : PayoutBatch) (actor : Id) (c : Currency) : Prop where
  stored : s.batch? batch.id = some batch
  draft : batch.status = .draft
  maker : batch.createdByUserId = actor
  currency : batch.currency = c
  fresh : ∀ o ∈ s.offsets, o.requestId ≠ batch.id

/-- UUIDs for lines that no line has, one for each entry. -/
structure FreshLines (s : Store) (lineId : Id → Id) : Prop where
  injective : Function.Injective lineId
  fresh : ∀ l ∈ s.lines, ∀ id, l.id ≠ lineId id

theorem reservePayoutBatch_draft {ids : List Id} {reason : String}
    (hactor : auth.activeAdmin actor = true) (hreason : ∃ text, reasonOf reason = .ok text)
    (hbatch : EmptyDraft s batch actor c) :
    reservePayoutBatch auth batch.id ids actor reason lineId s = .ok s'
      ↔ (ids ≠ [] ∧ ids.Nodup)
        ∧ ((reservedRows s ids).length = ids.length
          ∧ ∀ e ∈ reservedRows s ids, e.tripSessionId.isSome)
        ∧ (∀ l ∈ s.linesOf (reservedRows s ids), ¬ l.reservationActive ∧ l.status ≠ .failed)
        ∧ ∃ r, checkedFold (reserveEntry auth batch actor lineId) { store := s }
            (reservedRows s ids) = .ok r
          ∧ EndsWith batch.id r s' ∧ (r.lines = [] ∨ s.LinesInsertable r.lines) := by
  have hoffsets : s.offsets.filter (·.requestId = batch.id) = [] :=
    List.filter_eq_nil_iff.mpr (fun o ho => by simpa using hbatch.fresh o ho)
  -- nothing was recovered under this id, so the request is no repetition
  have hnoReplay : reserveReplay batch.id ids actor [] s = .ok none := by
    simp [reserveReplay]
  rcases hreason with ⟨text, htext⟩
  simp only [reservePayoutBatch, hoffsets, bind_eq_ok, requireActiveAdmin, require_eq_ok]
  constructor
  · rintro ⟨_, _, _, _, _, _, replay, hreplay, h⟩
    rcases Except.ok.inj (hnoReplay.symm.trans hreplay) with rfl
    simp only [bind_eq_ok, demand_eq_ok, require_eq_ok, hbatch.stored, ite_eq_ok, pure_eq_ok] at h
    rcases h with ⟨b, hb, _, hids, _, hfound, _, _, hrest⟩
    rcases Option.some.inj hb with rfl
    rcases hrest with ⟨hne, _⟩ | ⟨_, _, hactive, _, hfailed, r, hfold, hend⟩
    · exact absurd hbatch.draft hne
    · refine ⟨hids, hfound, fun l hl => ⟨hactive l hl, hfailed l hl⟩, r, hfold, ?_⟩
      rcases hend with ⟨hnil, rfl⟩ | ⟨hlines, _, hinsertable, rfl⟩
      · exact ⟨.inl ⟨hnil, rfl⟩, .inl hnil⟩
      · exact ⟨.inr ⟨hlines, rfl⟩, .inr hinsertable⟩
  · rintro ⟨hids, hfound, hguard, r, hfold, hend, hinsertable⟩
    refine ⟨⟨⟩, hactor, text, htext, ⟨⟩, by simp, none, hnoReplay, ?_⟩
    simp only [bind_eq_ok, demand_eq_ok, require_eq_ok, hbatch.stored, ite_eq_ok, pure_eq_ok]
    refine ⟨batch, rfl, ⟨⟩, hids, ⟨⟩, hfound, ⟨⟩, hbatch.maker, .inr ⟨?_, ⟨⟩, ?_, ⟨⟩, ?_, r,
      hfold, ?_⟩⟩
    · exact fun hne => hne hbatch.draft
    · exact fun l hl => (hguard l hl).1
    · exact fun l hl => (hguard l hl).2
    · rcases hend with ⟨hnil, rfl⟩ | ⟨hlines, rfl⟩
      · exact .inl ⟨hnil, rfl⟩
      · exact .inr ⟨hlines, ⟨⟩, hinsertable.resolve_left hlines, rfl⟩

omit [Hashing] in
/-- New lines of free entries, under fresh ids, fit the keys of the table. -/
theorem Sharing.insertable (h : Sharing s c lineId st os settled done left debts)
    (hk : Keyed s.batches) (hfresh : FreshLines s lineId) (hids : (done.map (·.id)).Nodup)
    (hfree : ∀ l ∈ s.lines, ∀ e ∈ done, l.ledgerEntryId = e.id → ¬ l.reservationActive) :
    s.LinesInsertable st.lines := by
  -- what is true of the keys of all entries is true of those that got a line
  have hlineIds : (st.lines.map (·.id)).Nodup := by
    have hall : (done.map (fun e => lineId e.id)).Nodup := by
      have hmap := hids.map hfresh.injective
      rwa [List.map_map] at hmap
    have hsub := h.keys.map (·.1)
    rw [List.map_map, List.map_map] at hsub
    exact hall.sublist hsub
  have hentries : (st.lines.map (·.ledgerEntryId)).Nodup := by
    have hsub := h.keys.map (·.2.1)
    rw [List.map_map, List.map_map] at hsub
    exact hids.sublist hsub
  have hmem : ∀ l ∈ st.lines, ∃ e ∈ done, l.id = lineId e.id ∧ l.ledgerEntryId = e.id
      ∧ l.predecessorLineId = none := by
    intro l hl
    rcases List.mem_map.mp (h.keys.subset (List.mem_map_of_mem hl)) with ⟨e, he, hkeys⟩
    rw [lineKeys, Prod.mk.injEq, Prod.mk.injEq] at hkeys
    exact ⟨e, he, hkeys.1.symm, hkeys.2.1.symm, hkeys.2.2.symm⟩
  refine ⟨?_, ?_, ?_⟩
  · rw [List.map_append, List.nodup_append]
    refine ⟨hk.lineIds, hlineIds, ?_⟩
    intro id hid id' hid' heq
    rcases List.mem_map.mp hid with ⟨l, hl, rfl⟩
    rcases List.mem_map.mp hid' with ⟨l', hl', rfl⟩
    rcases hmem l' hl' with ⟨e, _, hline, _⟩
    exact hfresh.fresh l hl e.id (heq.trans hline)
  · rw [List.filter_append, List.map_append, List.nodup_append]
    refine ⟨?_, hentries.sublist (List.filter_sublist.map _), ?_⟩
    · rw [List.Nodup, List.pairwise_map]
      refine (hk.active.filter (·.reservationActive)).imp_of_mem ?_
      intro l l' hl hl' hne
      exact hne (List.mem_filter.mp hl).2 (List.mem_filter.mp hl').2
    · intro entryId hold entryId' hnew heq
      rcases List.mem_map.mp hold with ⟨l, hl, rfl⟩
      rcases List.mem_map.mp hnew with ⟨l', hl', rfl⟩
      rcases List.mem_filter.mp hl with ⟨hl, hactive⟩
      rcases hmem l' (List.mem_of_mem_filter hl') with ⟨e, he, _, hentry, _⟩
      exact hfree l hl e he (heq.trans hentry) hactive
  · rw [List.filterMap_append]
    have hnone : st.lines.filterMap (·.predecessorLineId) = [] := by
      refine List.filterMap_eq_nil_iff.mpr ?_
      intro l hl
      rcases hmem l hl with ⟨_, _, _, _, hpredecessor⟩
      exact hpredecessor
    rw [hnone, List.append_nil]
    exact hk.predecessors

end Rounds

end Payout
end Mobility
