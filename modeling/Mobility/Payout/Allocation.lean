import Mobility.Payout.Positions

/-!
# Allocation — the loops that split trip pay into offsets and lines

* `Recovered`: what one `allocate_payout_recovery` call hands out.
* `Drawn`: what the reservation loop and the automatic loop have handed out so far;
  one round is `Drawn.round`.

Every operation that creates lines is a `Creation`, so `LedgerInv` holds in every
reachable state.
-/

namespace Mobility
namespace Payout

open Lib

/-! ## One recovery -/

/-- The offsets `os` that one recovery for `entry` writes, and the rest `left`. -/
structure Recovered (s : Store) (entry : EarningsLedgerEntry) (payable left : Int)
    (os : List PayoutRecoveryOffset) : Prop where
  rest : 0 ≤ left
  total : offsetTotal os + left = payable
  funding : ∀ o ∈ os, o.fundingEntryId = entry.id ∧ o.currency = entry.currency ∧ 0 < o.amount
  source : ∀ o ∈ os, some o.sourceTripId ≠ entry.tripSessionId
    ∧ ∃ p, ((some o.sourceTripId, o.currency), p)
        ∈ s.driverRecoveryPositions entry.driverProfileId entry.currency ∧ o.amount ≤ p.debt
  once : (os.map (·.sourceTripId)).Nodup

/-- The recovery loop takes at most its debt from each position, in order. -/
theorem recoveryOffsets_spec (entry : EarningsLedgerEntry) (request : RecoveryRequest) :
    ∀ (positions : List (TripScope × TripMoneyPosition)) (remaining : Int), 0 ≤ remaining →
      ∀ out, recoveryOffsets entry request positions remaining = out →
        0 ≤ out.2 ∧ offsetTotal out.1 + out.2 = remaining
        ∧ (∀ o ∈ out.1, o.fundingEntryId = entry.id ∧ 0 < o.amount
          ∧ some o.sourceTripId ≠ entry.tripSessionId
          ∧ ∃ p, ((some o.sourceTripId, o.currency), p) ∈ positions ∧ o.amount ≤ p.debt)
        ∧ (out.1.map (fun o => ((some o.sourceTripId, o.currency) : TripScope))).Sublist
            (positions.map (·.1)) := by
  intro positions
  induction positions with
  | nil =>
      rintro remaining hremaining _ rfl
      simpa [recoveryOffsets, offsetTotal] using hremaining
  | cons position rest ih =>
      rcases position with ⟨⟨trip, currency⟩, position⟩
      intro remaining hremaining out hout
      -- a skipped position leaves the loop to the rest
      have hskip : ∀ out, recoveryOffsets entry request rest remaining = out →
          0 ≤ out.2 ∧ offsetTotal out.1 + out.2 = remaining
          ∧ (∀ o ∈ out.1, o.fundingEntryId = entry.id ∧ 0 < o.amount
            ∧ some o.sourceTripId ≠ entry.tripSessionId
            ∧ ∃ p, ((some o.sourceTripId, o.currency), p) ∈ ((trip, currency), position) :: rest
              ∧ o.amount ≤ p.debt)
          ∧ (out.1.map (fun o => ((some o.sourceTripId, o.currency) : TripScope))).Sublist
              ((((trip, currency), position) :: rest).map (·.1)) := by
        intro out hout
        rcases ih remaining hremaining out hout with ⟨hleft, htotal, hmem, hsub⟩
        refine ⟨hleft, htotal, ?_, hsub.trans (List.sublist_cons_self _ _)⟩
        intro o ho
        rcases hmem o ho with ⟨hfund, hpos, hne, p, hp, hle⟩
        exact ⟨hfund, hpos, hne, p, List.mem_cons_of_mem _ hp, hle⟩
      cases trip with
      | none => exact hskip out hout
      | some tripId =>
          simp only [recoveryOffsets] at hout
          split_ifs at hout with hnodebt hnothing
          · exact hskip out hout
          · subst hout
            simpa [offsetTotal] using hremaining
          · rcases hrec : recoveryOffsets entry request rest
                (remaining - min remaining position.debt) with ⟨os, left⟩
            have hle : 0 ≤ remaining - min remaining position.debt := by
              have := min_le_left remaining position.debt
              omega
            rcases ih _ hle (os, left) hrec with ⟨hleft, htotal, hmem, hsub⟩
            simp only [hrec] at hout
            subst hout
            simp only [not_or, not_le] at hnodebt hnothing
            refine ⟨hleft, ?_, ?_, ?_⟩
            · simp only [offsetTotal, List.map_cons, List.sum_cons] at htotal ⊢
              omega
            · intro o ho
              rcases List.mem_cons.mp ho with rfl | ho
              · exact ⟨rfl, hnothing, hnodebt.1, position, List.mem_cons_self, min_le_right _ _⟩
              · rcases hmem o ho with ⟨hfund, hpos, hne, p, hp, hle'⟩
                exact ⟨hfund, hpos, hne, p, List.mem_cons_of_mem _ hp, hle'⟩
            · simpa using hsub

theorem scopes_driverRecoveryPositions {s : Store} {driver : Id} {currency : Currency} :
    ((s.driverRecoveryPositions driver currency).map (·.1)).Nodup
      ∧ ∀ x ∈ s.driverRecoveryPositions driver currency, x.1.2 = currency := by
  constructor
  · simp only [Store.driverRecoveryPositions, Store.tripMoneyPositions, List.map_map]
    exact (List.map_id _).symm ▸ nodup_orderedKeys _
  · intro x hx
    simp only [Store.driverRecoveryPositions, Store.tripMoneyPositions, List.mem_map] at hx
    rcases hx with ⟨scope, hscope, rfl⟩
    rcases List.mem_map.mp (mem_orderedKeys.mp hscope) with ⟨e, he, rfl⟩
    have he' : e ∈ s.entries.filter
        (fun e => e.driverProfileId = driver ∧ e.currency = currency) :=
      (List.perm_insertionSort _ _).mem_iff.mp he
    simp only [List.mem_filter, decide_eq_true_eq] at he'
    exact he'.2.2

theorem allocatePayoutRecovery_spec (s : Store) (entry : EarningsLedgerEntry) {payable : Int}
    (request : RecoveryRequest) (hpos : 0 ≤ payable) :
    ∃ os, Recovered s entry payable (allocatePayoutRecovery s entry payable request).2 os
      ∧ (allocatePayoutRecovery s entry payable request).1
        = { s with
            offsets := s.offsets ++ os
            entries := s.entries.map (settleIn
              (if (allocatePayoutRecovery s entry payable request).2 = 0
                then [entry.id] else [])) } := by
  rcases hrec : recoveryOffsets entry request
      (s.driverRecoveryPositions entry.driverProfileId entry.currency) payable with ⟨os, left⟩
  rcases recoveryOffsets_spec entry request _ payable hpos _ hrec with ⟨hleft, htotal, hmem, hsub⟩
  have hsecond : (allocatePayoutRecovery s entry payable request).2 = left := by
    simp only [allocatePayoutRecovery, hrec]
    split_ifs <;> rfl
  have hcurrency : ∀ o ∈ os, o.currency = entry.currency := by
    intro o ho
    rcases (hmem o ho).2.2.2 with ⟨p, hp, _⟩
    exact scopes_driverRecoveryPositions.2 _ hp
  refine ⟨os, ⟨hsecond ▸ hleft, hsecond ▸ htotal, ?_, ?_, ?_⟩, ?_⟩
  · intro o ho
    exact ⟨(hmem o ho).1, hcurrency o ho, (hmem o ho).2.1⟩
  · intro o ho
    exact (hmem o ho).2.2
  · -- all sources are in one currency, so the scopes are as distinct as the trips
    have hnodup := scopes_driverRecoveryPositions.1.sublist hsub
    have hmap : os.map (fun o => ((some o.sourceTripId, o.currency) : TripScope))
        = (os.map (·.sourceTripId)).map (fun t => (some t, entry.currency)) := by
      rw [List.map_map]
      refine List.map_congr_left ?_
      intro o ho
      simp [hcurrency o ho]
    exact (hmap ▸ hnodup).of_map _
  · rw [hsecond]
    simp only [allocatePayoutRecovery, hrec]
    split_ifs with hzero
    · simp only [Store.updateEntry, Store.mk.injEq, and_true, true_and]
      refine List.map_congr_left ?_
      intro e _
      simp [settleIn]
    · simp

/-! ## The creating loops -/

/-- An entry a creating loop may take: available, with no open or failed line. -/
def Ready (s : Store) (e : EarningsLedgerEntry) : Prop :=
  e ∈ s.entries ∧ e.status = .available
    ∧ ∀ l ∈ s.lines, l.ledgerEntryId = e.id → l.status = .void ∨ l.status = .succeeded

theorem Ready.live {s : Store} {e : EarningsLedgerEntry} (h : Ready s e) : e.status ≠ .voided := by
  simp [h.2.1]

/-- What a creating loop over `s` has handed out after the entries `done`: the store
it works on is `t`. -/
structure Drawn (s t : Store) (ls : List PayoutBatchLine) (os : List PayoutRecoveryOffset)
    (settled : List Id) (done : List EarningsLedgerEntry) : Prop where
  store : t = { s with
    offsets := s.offsets ++ os
    entries := s.entries.map (settleIn settled) }
  used : ∀ id ∈ settled, ∃ e ∈ done, e.id = id
  lines : ∀ l ∈ ls, (∃ e ∈ done, e.id = l.ledgerEntryId) ∧ l.ledgerEntryId ∉ settled
    ∧ isReserved l ∧ l.status = .reserved
  funded : ∀ o ∈ os, ∃ e ∈ done, e.id = o.fundingEntryId ∧ e.currency = o.currency

namespace Drawn

variable {s t : Store} {ls : List PayoutBatchLine} {os : List PayoutRecoveryOffset}
  {settled : List Id} {done : List EarningsLedgerEntry}

theorem start (s : Store) : Drawn s s [] [] [] [] where
  store := by simp
  used := by simp
  lines := by simp
  funded := by simp

/-- Recovery for an entry that was not yet taken: either it uses the entry up, or
the rest goes to one new line of the entry. -/
theorem round (h : Drawn s t ls os settled done) {entry : EarningsLedgerEntry}
    (hnew : ∀ e ∈ done, e.id ≠ entry.id) {payable : Int} (hpos : 0 ≤ payable)
    (request : RecoveryRequest) :
    ∃ os', Recovered t entry payable (allocatePayoutRecovery t entry payable request).2 os'
      ∧ ((allocatePayoutRecovery t entry payable request).2 = 0 →
          Drawn s (allocatePayoutRecovery t entry payable request).1 ls (os ++ os')
            (settled ++ [entry.id]) (done ++ [entry]))
      ∧ ((allocatePayoutRecovery t entry payable request).2 ≠ 0 →
          ∀ l : PayoutBatchLine, l.ledgerEntryId = entry.id → isReserved l →
            l.status = .reserved →
              Drawn s (allocatePayoutRecovery t entry payable request).1 (ls ++ [l]) (os ++ os')
                settled (done ++ [entry])) := by
  rcases allocatePayoutRecovery_spec t entry request hpos with ⟨os', hrecovered, hstore⟩
  have hfunded : ∀ o ∈ os ++ os', ∃ e ∈ done ++ [entry],
      e.id = o.fundingEntryId ∧ e.currency = o.currency := by
    intro o ho
    rcases List.mem_append.mp ho with ho | ho
    · rcases h.funded o ho with ⟨e, he, hrest⟩
      exact ⟨e, List.mem_append_left _ he, hrest⟩
    · rcases hrecovered.funding o ho with ⟨hid, hcurrency, _⟩
      exact ⟨entry, by simp, hid.symm, hcurrency.symm⟩
  have hdone : ∀ {id : Id}, (∃ e ∈ done, e.id = id) → ∃ e ∈ done ++ [entry], e.id = id := by
    rintro id ⟨e, he, hid⟩
    exact ⟨e, List.mem_append_left _ he, hid⟩
  -- credits used up before and now, as one rewrite
  have hentries : ∀ used : List Id, (t.entries.map (settleIn used))
      = s.entries.map (settleIn (settled ++ used)) := by
    intro used
    rw [h.store, List.map_map]
    exact List.map_congr_left (fun e _ => settleIn_comp settled used e)
  refine ⟨os', hrecovered, ?_, ?_⟩
  · -- all of it went to debts: the credit is used up and gets no line
    intro hzero
    rw [hstore, if_pos hzero]
    refine ⟨?_, ?_, ?_, hfunded⟩
    · rw [hentries [entry.id], h.store]
      simp
    · intro id hid
      rcases List.mem_append.mp hid with hid | hid
      · exact hdone (h.used id hid)
      · exact ⟨entry, by simp, (List.mem_singleton.mp hid).symm⟩
    · intro l hl
      rcases h.lines l hl with ⟨⟨e, he, hid⟩, hunsettled, hreserved⟩
      refine ⟨hdone ⟨e, he, hid⟩, ?_, hreserved⟩
      intro hmem
      rcases List.mem_append.mp hmem with hmem | hmem
      · exact hunsettled hmem
      · exact hnew e he (hid.trans (List.mem_singleton.mp hmem))
  · -- something is left: one new line, and the credit stays available
    intro hne l hid hreserved hstatus
    rw [hstore, if_neg hne]
    refine ⟨?_, ?_, ?_, hfunded⟩
    · rw [hentries [], h.store]
      simp
    · intro id hmem
      exact hdone (h.used id hmem)
    · intro l' hl'
      rcases List.mem_append.mp hl' with hl' | hl'
      · rcases h.lines l' hl' with ⟨hexists, hrest⟩
        exact ⟨hdone hexists, hrest⟩
      · rw [List.mem_singleton.mp hl']
        refine ⟨⟨entry, by simp, hid.symm⟩, ?_, hreserved, hstatus⟩
        intro hmem
        rcases h.used _ hmem with ⟨e, he, heid⟩
        exact hnew e he (heid.trans hid)

/-- Once the lines are written, what the loop handed out is a creation. -/
theorem creation {s' : Store} (h : Drawn s t ls os settled done) (hready : ∀ e ∈ done, Ready s e)
    (hids : (s.entries.map (·.id)).Nodup) (htrips : s'.trips = t.trips)
    (hentries : s'.entries = t.entries) (hoffsets : s'.offsets = t.offsets)
    (hlines : s'.lines.Perm (s.lines ++ ls)) : Creation s s' ls os settled where
  trips := by rw [htrips, h.store]
  entries := by rw [hentries, h.store]
  offsets := by rw [hoffsets, h.store]
  lines := hlines
  reserved := fun l hl => (h.lines l hl).2.2
  drawn := by
    intro l hl
    rcases h.lines l hl with ⟨⟨e, he, hid⟩, hunsettled, _⟩
    exact ⟨e, (hready e he).1, hid, (hready e he).2.1, hid ▸ hunsettled⟩
  funded := by
    intro o ho
    rcases h.funded o ho with ⟨e, he, hid, hcurrency⟩
    exact ⟨e, (hready e he).1, hid, (hready e he).2.1, hcurrency⟩
  used := by
    intro e he hmem
    rcases h.used _ hmem with ⟨e', he', hid⟩
    have hsame : e' = e := eq_of_key_eq hids (hready e' he').1 he hid
    exact hsame ▸ (hready e' he').2

/-- The store in the middle of the loop: offsets are written, lines are not. -/
theorem ledger (h : Drawn s t ls os settled done) (hready : ∀ e ∈ done, Ready s e)
    (hids : (s.entries.map (·.id)).Nodup) : Creation s t [] os settled := by
  have hlines : t.lines = s.lines := by rw [h.store]; rfl
  have hnone : Drawn s t [] os settled done := ⟨h.store, h.used, by simp, h.funded⟩
  exact hnone.creation hready hids rfl rfl rfl (by simp [hlines])

end Drawn

/-! ## What a round charges -/

section Charges

variable {s t t' : Store} {e : EarningsLedgerEntry} {payable left : Int}
  {os : List PayoutRecoveryOffset}

theorem onScope_iff (h : Ownership s) (he : e ∈ s.entries) {l : PayoutBatchLine}
    (hl : l.ledgerEntryId = e.id) (scope : TripScope) :
    s.onScope scope l = decide (e.scope = scope) := by
  rw [Bool.eq_iff_iff, Store.onScope, List.any_eq_true, decide_eq_true_eq]
  constructor
  · rintro ⟨e', he', hid⟩
    rcases mem_scopeEntries.mp he' with ⟨hmem, hscope⟩
    have hsame : e' = e := eq_of_key_eq h.entryIds hmem he ((by simpa using hid : _ = _).trans hl)
    exact hsame ▸ hscope
  · intro hscope
    exact ⟨e, mem_scopeEntries.mpr ⟨he, hscope⟩, by simp [hl]⟩

theorem fundingEntry?_eq (h : Ownership s) (he : e ∈ s.entries) (hlive : e.status ≠ .voided)
    {o : PayoutRecoveryOffset} (hfund : o.fundingEntryId = e.id) :
    s.fundingEntry? o = some e := by
  simp [Store.fundingEntry?, hfund, h.entry?_eq he, Option.filter, hlive]

theorem fundedBy_iff (h : Ownership s) (he : e ∈ s.entries) (hlive : e.status ≠ .voided)
    {o : PayoutRecoveryOffset} (hfund : o.fundingEntryId = e.id) (hcurrency : o.currency = e.currency)
    (scope : TripScope) : s.fundedBy scope o = decide (e.scope = scope) := by
  have hentry := fundingEntry?_eq h he hlive hfund
  rw [Bool.eq_iff_iff, decide_eq_true_eq]
  simp [Store.fundedBy, hentry, hcurrency, EarningsLedgerEntry.scope, Prod.ext_iff]

/-- The offsets of a round are charged to the scope of its entry. -/
theorem charge_offsets (h : Ownership s) (he : e ∈ s.entries) (hlive : e.status ≠ .voided)
    (hrecovered : Recovered t e payable left os) (scope : TripScope) :
    charge s scope [] os = if e.scope = scope then payable - left else 0 := by
  have hfunded : ∀ o ∈ os, s.fundedBy scope o = decide (e.scope = scope) := by
    intro o ho
    rcases hrecovered.funding o ho with ⟨hfund, hcurrency, _⟩
    exact fundedBy_iff h he hlive hfund hcurrency scope
  have htotal := hrecovered.total
  by_cases hscope : e.scope = scope
  · have hall : os.filter (s.fundedBy scope) = os :=
      List.filter_eq_self.mpr (fun o ho => by simp [hfunded o ho, hscope])
    simp only [charge, hall, List.filter_nil, totalAmount_nil, hscope, if_true]
    omega
  · have hnone : os.filter (s.fundedBy scope) = [] :=
      List.filter_eq_nil_iff.mpr (fun o ho => by simp [hfunded o ho, hscope])
    simp [charge, hnone, hscope]

theorem charge_line (h : Ownership s) (he : e ∈ s.entries) {l : PayoutBatchLine}
    (hl : l.ledgerEntryId = e.id) (scope : TripScope) :
    charge s scope [l] [] = if e.scope = scope then l.amount else 0 := by
  have hscope := onScope_iff h he hl scope
  by_cases heq : e.scope = scope
  · simp [charge, hscope, heq, totalAmount]
  · simp [charge, hscope, heq]

/-- One recovery repays a trip at most what it owes. -/
theorem Recovered.received_le (h : Recovered t e payable left os) (hown : Ownership t)
    (scope : TripScope) : received t scope os ≤ (t.scopePosition scope).debt := by
  rcases hrepaid : os.filter (t.receivedBy scope) with _ | ⟨o, rest⟩
  · rw [received, hrepaid]
    exact le_max_right _ _
  · have hmem : ∀ o' ∈ o :: rest, o' ∈ os ∧ (some o'.sourceTripId, o'.currency) = scope := by
      intro o' ho'
      rw [← hrepaid] at ho'
      rcases List.mem_filter.mp ho' with ⟨ho', hreceived⟩
      simp only [Store.receivedBy, Bool.and_eq_true, decide_eq_true_eq] at hreceived
      exact ⟨ho', Prod.ext hreceived.1.2 hreceived.2⟩
    -- a recovery writes one offset for each source trip
    have honly : rest = [] := by
      have hnodup : ((o :: rest).map (·.sourceTripId)).Nodup :=
        h.once.sublist (hrepaid ▸ List.filter_sublist.map _)
      cases rest with
      | nil => rfl
      | cons o' rest =>
          have hscopes := (hmem o (by simp)).2.trans (hmem o' (by simp)).2.symm
          have hsame : o.sourceTripId = o'.sourceTripId := by
            simpa using congrArg Prod.fst hscopes
          simp [hsame] at hnodup
    rcases hmem o (by simp) with ⟨ho, rfl⟩
    rcases (h.source o ho).2 with ⟨p, hp, hdebt⟩
    rcases driverRecoveryPositions_eq hown hp with ⟨hsettled, hearned⟩
    simp only [TripMoneyPosition.debt, hsettled, hearned] at hdebt ⊢
    rw [received, hrepaid, honly]
    simpa [offsetTotal] using hdebt

/-- A trip repaid by one recovery owed at least as much. -/
theorem Recovered.owing (h : Recovered t e payable left os) (hinv : LedgerInv t) {used : List Id}
    (hcreation : Creation t t' [] os used) (trip : Id) (c : Currency) :
    received t (some trip, c) os = 0
      ∨ (t'.scopePosition (some trip, c)).earnedNet ≤ (t'.scopePosition (some trip, c)).settled := by
  have hle := h.received_le hinv.ownership (some trip, c)
  have hreceived : 0 ≤ received t (some trip, c) os :=
    received_nonneg t _ (fun o ho => (h.funding o ho).2.2)
  have hfunded : 0 ≤ offsetTotal (os.filter (t.fundedBy (some trip, c))) :=
    offsetTotal_nonneg (fun o ho => (h.funding o (List.mem_of_mem_filter ho)).2.2)
  have hsettled := hcreation.movement.settled_eq (some trip, c)
  rw [hcreation.movement.earnedNet]
  simp only [TripMoneyPosition.debt] at hle
  by_cases hnone : received t (some trip, c) os = 0
  · exact .inl hnone
  · exact .inr (by omega)

end Charges

/-! ## One round -/

/-- The offsets of one recovery, as a creation without lines. -/
theorem recovery_creation {t : Store} {e : EarningsLedgerEntry} (hready : Ready t e)
    (hids : (t.entries.map (·.id)).Nodup) {payable left : Int} {os : List PayoutRecoveryOffset}
    (hrecovered : Recovered t e payable left os) (used : List Id) (hused : ∀ id ∈ used, id = e.id) :
    Creation t { t with
        offsets := t.offsets ++ os
        entries := t.entries.map (settleIn used) } [] os used where
  trips := rfl
  entries := rfl
  offsets := rfl
  lines := by simp [Store.lines]
  reserved := by simp
  drawn := by simp
  funded := by
    intro o ho
    rcases hrecovered.funding o ho with ⟨hid, hcurrency, _⟩
    exact ⟨e, hready.1, hid.symm, hready.2.1, hcurrency.symm⟩
  used := by
    intro e' he' hmem
    have hsame : e' = e := eq_of_key_eq hids he' hready.1 (hused _ hmem)
    exact hsame ▸ hready.2

/-- A creating loop over `s` that respects every trip it has met. -/
structure Drawing (s t : Store) (ls : List PayoutBatchLine) (os : List PayoutRecoveryOffset)
    (settled : List Id) (done : List EarningsLedgerEntry) : Prop where
  drawn : Drawn s t ls os settled done
  ready : ∀ e ∈ done, Ready s e
  lines : ∀ l ∈ ls, 0 < l.amount
  offsets : ∀ o ∈ os, 0 < o.amount
  owing : ∀ trip c, received s (some trip, c) os = 0
    ∨ (t.scopePosition (some trip, c)).earnedNet ≤ (t.scopePosition (some trip, c)).settled

theorem Drawing.start (s : Store) : Drawing s s [] [] [] [] where
  drawn := Drawn.start s
  ready := by simp
  lines := by simp
  offsets := by simp
  owing := fun _ _ => .inl rfl

/-- An entry that was not taken is still open in the middle of the loop. -/
theorem Drawing.ready_of_new {s t : Store} {ls : List PayoutBatchLine}
    {os : List PayoutRecoveryOffset} {settled : List Id} {done : List EarningsLedgerEntry}
    (h : Drawing s t ls os settled done) (hinv : LedgerInv s) {entry : EarningsLedgerEntry}
    (hready : Ready s entry) (hnew : ∀ e ∈ done, e.id ≠ entry.id) : Ready t entry := by
  have hunsettled : entry.id ∉ settled := by
    intro hmem
    rcases h.drawn.used _ hmem with ⟨e, he, hid⟩
    exact hnew e he hid
  have hlines : t.lines = s.lines := by
    rw [h.drawn.store]
    rfl
  refine ⟨?_, hready.2.1, hlines ▸ hready.2.2⟩
  rw [(h.drawn.ledger h.ready hinv.entryIds).entries]
  exact List.mem_map.mpr ⟨entry, hready.1, if_neg hunsettled⟩

/-- One round: the entry's scope is charged exactly `payable`. -/
theorem Drawing.round {s t : Store} {ls : List PayoutBatchLine} {os : List PayoutRecoveryOffset}
    {settled : List Id} {done : List EarningsLedgerEntry}
    (h : Drawing s t ls os settled done) (hinv : LedgerInv s) {entry : EarningsLedgerEntry}
    (hready : Ready s entry) (hnew : ∀ e ∈ done, e.id ≠ entry.id) {payable : Int}
    (hpos : 0 ≤ payable) (request : RecoveryRequest) (line : Int → PayoutBatchLine)
    (hline : ∀ left, (line left).ledgerEntryId = entry.id ∧ (line left).amount = left
      ∧ isReserved (line left) ∧ (line left).status = .reserved) :
    ∃ os' settled', Drawing s (allocatePayoutRecovery t entry payable request).1
        (if (allocatePayoutRecovery t entry payable request).2 = 0 then ls
          else ls ++ [line (allocatePayoutRecovery t entry payable request).2])
        (os ++ os') settled' (done ++ [entry])
      ∧ ∀ scope, charge s scope
          (if (allocatePayoutRecovery t entry payable request).2 = 0 then ls
            else ls ++ [line (allocatePayoutRecovery t entry payable request).2]) (os ++ os')
        = charge s scope ls os + if entry.scope = scope then payable else 0 := by
  have hledger := h.drawn.ledger h.ready hinv.entryIds
  have hinv' := hinv.create hledger
  have hready' := h.ready_of_new hinv hready hnew
  rcases h.drawn.round hnew hpos request with ⟨os', hrecovered, hzero, hnonzero⟩
  rcases hr : allocatePayoutRecovery t entry payable request with ⟨t', left⟩
  rw [hr] at hrecovered hzero hnonzero
  simp only at hrecovered hzero hnonzero ⊢
  have hready'' : ∀ e ∈ done ++ [entry], Ready s e := by
    intro e he
    rcases List.mem_append.mp he with he | he
    · exact h.ready e he
    · exact List.mem_singleton.mp he ▸ hready
  have hoffsets : ∀ o ∈ os ++ os', 0 < o.amount := by
    intro o ho
    rcases List.mem_append.mp ho with ho | ho
    · exact h.offsets o ho
    · exact (hrecovered.funding o ho).2.2
  have hfunding : ∀ scope, charge s scope [] os'
      = if entry.scope = scope then payable - left else 0 :=
    fun scope => charge_offsets hinv.ownership hready.1 hready.live hrecovered scope
  -- what was owed before stays owed: funding only raises what is settled
  have howing : ∀ {used : List Id}, Creation t t' [] os' used → ∀ trip c,
      received s (some trip, c) (os ++ os') = 0
        ∨ (t'.scopePosition (some trip, c)).earnedNet
          ≤ (t'.scopePosition (some trip, c)).settled := by
    intro used hcreation trip c
    have hnow := hrecovered.owing hinv' hcreation trip c
    rw [hledger.movement.received_eq] at hnow
    rcases hnow with hnone | hnow
    · rcases h.owing trip c with hbefore | hbefore
      · exact .inl (by rw [received_append, hbefore, hnone]; rfl)
      · have hsettled := hcreation.movement.settled_eq (some trip, c)
        rw [hledger.movement.received_eq, hnone] at hsettled
        have hfunded : 0 ≤ offsetTotal (os'.filter (t.fundedBy (some trip, c))) :=
          offsetTotal_nonneg
            (fun o ho => (hrecovered.funding o (List.mem_of_mem_filter ho)).2.2)
        rw [hcreation.movement.earnedNet]
        exact .inr (by omega)
    · exact .inr hnow
  by_cases hleft : left = 0
  · subst hleft
    have hdrawn := hzero rfl
    refine ⟨os', _, ⟨by simpa using hdrawn, hready'', by simpa using h.lines, hoffsets, ?_⟩, ?_⟩
    · have hspec := recovery_creation hready' hinv'.entryIds hrecovered [entry.id] (by simp)
      have hstore : t' = { t with
          offsets := t.offsets ++ os'
          entries := t.entries.map (settleIn [entry.id]) } := by
        rw [hdrawn.store, h.drawn.store]
        simp only [List.map_map, List.append_assoc, Store.mk.injEq, true_and, and_true]
        exact (List.map_congr_left (fun e _ => settleIn_comp settled [entry.id] e)).symm
      exact howing (hstore ▸ hspec)
    · intro scope
      have hsplit := charge_append s scope ls [] os os'
      rw [List.append_nil, hfunding scope, sub_zero] at hsplit
      simpa using hsplit
  · rcases hline left with ⟨hid, hamount, hreserved, hstatus⟩
    have hdrawn := hnonzero hleft (line left) hid hreserved hstatus
    have hpositive : 0 < left := by
      have := hrecovered.rest
      omega
    refine ⟨os', _, ⟨by simpa [hleft] using hdrawn, hready'', ?_, hoffsets, ?_⟩, ?_⟩
    · rw [if_neg hleft]
      intro l hl
      rcases List.mem_append.mp hl with hl | hl
      · exact h.lines l hl
      · rw [List.mem_singleton.mp hl, hamount]
        exact hpositive
    · have hspec := recovery_creation hready' hinv'.entryIds hrecovered [] (by simp)
      have hstore : t' = { t with
          offsets := t.offsets ++ os'
          entries := t.entries.map (settleIn []) } := by
        rw [hdrawn.store, h.drawn.store]
        simp
      exact howing (hstore ▸ hspec)
    · intro scope
      have hsplit := charge_append s scope ls [line left] os os'
      have hparts := charge_append s scope [line left] [] [] os'
      simp only [List.append_nil, List.nil_append] at hparts
      rw [hparts, charge_line hinv.ownership hready.1 hid scope, hfunding scope, hamount] at hsplit
      rw [if_neg hleft, hsplit]
      split_ifs <;> omega

end Payout
end Mobility
