import Mobility.Payout.Recoveries

/-!
# Conservation — a recovery moves money between trips and makes none

`Conserved` says what one `allocate_payout_recovery` does to the positions of all trips:
the driver is settled for as much as before, the other trips owe less by just what was
offset, and the funding trip can pay less by the same amount.
-/

namespace Mobility
namespace Payout

open Lib

variable {s t t' : Store} {e : EarningsLedgerEntry} {driver : Id} {c : Currency}
  {os : List PayoutRecoveryOffset} {payable left : Int}

/-- All that was paid to a driver, in cash and in offsets. -/
def driverSettled (s : Store) (driver : Id) (c : Currency) : Int :=
  ((s.driverRecoveryPositions driver c).map (·.2.settled)).sum

/-- What the offsets repay for one trip. -/
def repaidTo (os : List PayoutRecoveryOffset) (trip : Id) : Int :=
  total (fun o => decide (o.sourceTripId = trip)) (·.amount) os

/-- A recovery of at most `payable` for the entry `e` of `trip` turned the store `t` into `out.1`
by writing `os`, and left `out.2` to pay in cash. -/
structure Conserved (t : Store) (e : EarningsLedgerEntry) (trip : Id) (payable : Int)
    (os : List PayoutRecoveryOffset) (out : Store × Int) : Prop where
  remaining : 0 ≤ out.2 ∧ out.2 ≤ payable
  written : out.1.offsets = t.offsets ++ os
  offset : offsetTotal os = payable - out.2
  settled : driverSettled out.1 e.driverProfileId e.currency
    = driverSettled t e.driverProfileId e.currency
  owed : owedByOthers e (out.1.driverRecoveryPositions e.driverProfileId e.currency)
    = owedByOthers e (t.driverRecoveryPositions e.driverProfileId e.currency) - (payable - out.2)
  repaid : ∀ other, repaidTo os other ≤ (t.tripMoneyPosition other e.currency).debt
    ∧ (out.1.tripMoneyPosition other e.currency).debt
      = (t.tripMoneyPosition other e.currency).debt - repaidTo os other
  cleared : 0 < out.2 → ∀ x ∈ out.1.driverRecoveryPositions e.driverProfileId e.currency,
    x.1.1 ≠ e.tripSessionId → x.2.debt = 0
  authority : (out.1.tripMoneyPosition trip e.currency).unpaidAuthority
    = (t.tripMoneyPosition trip e.currency).unpaidAuthority - offsetTotal os
  batchPayable : (out.1.tripMoneyPosition trip e.currency).batchPayable
    = (t.tripMoneyPosition trip e.currency).batchPayable - offsetTotal os

/-! ## Sums over the trips of a driver -/

/-- The trips whose debts a recovery for `e` may take. -/
def isOther (e : EarningsLedgerEntry) (scope : TripScope) : Bool :=
  scope.1.isSome && decide (scope.1 ≠ e.tripSessionId)

theorem driverSettled_eq (hown : Ownership s) (driver : Id) (c : Currency) :
    driverSettled s driver c
      = ((driverScopes s driver c).map (fun scope => (s.scopePosition scope).settled)).sum := by
  rw [driverSettled, driverScopes_eq, List.map_map]
  refine congrArg List.sum (List.map_congr_left ?_)
  rintro ⟨scope, position⟩ hx
  exact (driverRecoveryPositions_eq hown hx).1

theorem owedByOthers_eq (hown : Ownership s) (e : EarningsLedgerEntry) (driver : Id)
    (c : Currency) : owedByOthers e (s.driverRecoveryPositions driver c)
      = total (isOther e) (debtOf s) (driverScopes s driver c) := by
  rw [driverScopes_eq, owedByOthers, total, total, List.filter_map, List.map_map]
  refine congrArg List.sum (List.map_congr_left ?_)
  intro x hx
  exact debt_driverRecoveryPositions hown (List.mem_of_mem_filter hx)

/-- Every trip of a driver is a trip. -/
theorem isSome_driverScopes (hown : Ownership s) {scope : TripScope}
    (hscope : scope ∈ driverScopes s driver c) : scope.1.isSome = true := by
  rcases mem_driverScopes.mp hscope with ⟨e, he, _, _, rfl⟩
  rcases hown.owned e he with ⟨trip, _, htrip, _⟩
  simp [EarningsLedgerEntry.scope, htrip]

theorem tripMoneyPosition_debt (s : Store) (trip : Id) (c : Currency) :
    (s.tripMoneyPosition trip c).debt
      = if s.scopeEntries (some trip, c) = [] then 0 else debtOf s (some trip, c) := by
  rw [tripMoneyPosition_eq]
  split_ifs <;> rfl

/-! ## One recovery -/

section Recovery

variable (hown : Ownership t) (he : e ∈ t.entries) (hlive : e.status ≠ .voided)
  (hrecovered : Recovered t e payable left os)
include hown he hlive hrecovered

/-- The trip of the credit is repaid nothing. -/
theorem Recovered.received_own : received t e.scope os = 0 := by
  rw [hrecovered.received_eq hown he hlive]
  -- offsets never take from the trip of the credit
  refine asked_eq_zero ?_
  intro row hrow hscope
  rcases List.mem_map.mp hrow with ⟨o, ho, rfl⟩
  exact (hrecovered.source o ho).1 (congrArg Prod.fst hscope)

theorem Recovered.repaidTo_eq (trip : Id) :
    repaidTo os trip = received t (some trip, e.currency) os := by
  have hsame : ∀ o ∈ os, decide (o.sourceTripId = trip)
      = t.receivedBy (some trip, e.currency) o := by
    intro o ho
    have hentry := fundingEntry?_eq hown he hlive (hrecovered.funding o ho).1
    simp [Store.receivedBy, hentry, (hrecovered.funding o ho).2.1]
  exact total_congr hsame

/-- All that is repaid is repaid to the other trips. -/
theorem Recovered.received_others :
    Lib.total (isOther e) (received t · os) (driverScopes t e.driverProfileId e.currency)
      = offsetTotal os := by
  have hall := hrecovered.received_sum hown he hlive e.driverProfileId
  rw [if_pos rfl] at hall
  have hpass : Lib.total (isOther e) (received t · os) (driverScopes t e.driverProfileId e.currency)
      = Lib.total (fun _ => true) (received t · os) (driverScopes t e.driverProfileId e.currency) := by
    refine total_congr_of_zero ?_
    intro scope hscope
    by_cases hsame : scope.1 = e.tripSessionId
    · -- the trip of the credit itself
      have hcurrency : scope.2 = e.currency := by
        rcases mem_driverScopes.mp hscope with ⟨_, _, _, hc, rfl⟩
        exact hc
      have heq : scope = e.scope := Prod.ext hsame hcurrency
      exact .inr (heq ▸ hrecovered.received_own hown he hlive)
    · exact .inl (by simp [isOther, isSome_driverScopes hown hscope, hsame])
  calc
    Lib.total (isOther e) (received t · os) (driverScopes t e.driverProfileId e.currency)
        = Lib.total (fun _ => true) (received t · os)
            (driverScopes t e.driverProfileId e.currency) := hpass
    _ = ((driverScopes t e.driverProfileId e.currency).map (received t · os)).sum := by
        simp [Lib.total]
    _ = offsetTotal os := hall

/-- Every offset is funded from the trip of the credit. -/
theorem Recovered.funded_eq (scope : TripScope) : offsetTotal (os.filter (t.fundedBy scope))
    = if e.scope = scope then offsetTotal os else 0 := by
  have htotal := hrecovered.total
  have hfunded := charge_offsets hown he hlive hrecovered scope
  simp only [charge, List.filter_nil, totalAmount_nil, zero_add] at hfunded
  rw [hfunded]
  split_ifs <;> omega

theorem Recovered.funded_sum :
    ((driverScopes t e.driverProfileId e.currency).map
      (fun scope => offsetTotal (os.filter (t.fundedBy scope)))).sum = offsetTotal os := by
  have hmem : e.scope ∈ driverScopes t e.driverProfileId e.currency :=
    mem_driverScopes.mpr ⟨e, he, rfl, rfl, rfl⟩
  rw [List.map_congr_left (fun scope _ => hrecovered.funded_eq hown he hlive scope),
    ← List.sum_toFinset _ (nodup_driverScopes t e.driverProfileId e.currency)]
  simp [hmem]

section Moved

variable {used : List Id} (hmoved : Movement t t' [] os used)
include hmoved

/-- What one trip receives another gives. -/
theorem Recovered.driverSettled_eq :
    driverSettled t' e.driverProfileId e.currency
      = driverSettled t e.driverProfileId e.currency := by
  have hscopes : (driverScopes t' e.driverProfileId e.currency).Perm
      (driverScopes t e.driverProfileId e.currency) :=
    driverScopes_perm (fun _ => hmoved.mem_driverScopes)
  have hfunded := hrecovered.funded_sum hown he hlive
  have hreceived := hrecovered.received_sum hown he hlive e.driverProfileId
  rw [if_pos rfl] at hreceived
  -- settled plus received before and after, trip by trip
  have hsum : ((driverScopes t e.driverProfileId e.currency).map
        (fun scope => (t'.scopePosition scope).settled)).sum
        + ((driverScopes t e.driverProfileId e.currency).map (received t · os)).sum
      = ((driverScopes t e.driverProfileId e.currency).map
          (fun scope => (t.scopePosition scope).settled)).sum
        + ((driverScopes t e.driverProfileId e.currency).map
          (fun scope => offsetTotal (os.filter (t.fundedBy scope)))).sum := by
    rw [← List.sum_map_add, ← List.sum_map_add]
    refine congrArg List.sum (List.map_congr_left ?_)
    intro scope _
    have hsettled := hmoved.settled_eq scope
    omega
  have hafter := Mobility.Payout.driverSettled_eq (hmoved.ownership hown) e.driverProfileId
    e.currency
  rw [(hscopes.map _).sum_eq] at hafter
  rw [hafter, Mobility.Payout.driverSettled_eq hown]
  omega

variable (hroom : (t.scopePosition e.scope).settled + payable
  ≤ (t.scopePosition e.scope).earnedNet)
include hroom

/-- The other trips owe less by just what was offset. -/
theorem Recovered.owedByOthers_eq :
    owedByOthers e (t'.driverRecoveryPositions e.driverProfileId e.currency)
      = owedByOthers e (t.driverRecoveryPositions e.driverProfileId e.currency)
        - offsetTotal os := by
  have hscopes : (driverScopes t' e.driverProfileId e.currency).Perm
      (driverScopes t e.driverProfileId e.currency) :=
    driverScopes_perm (fun _ => hmoved.mem_driverScopes)
  have hreceived := hrecovered.received_others hown he hlive
  have hsplit : Lib.total (isOther e) (debtOf t) (driverScopes t e.driverProfileId e.currency)
      = Lib.total (isOther e) (debtOf t') (driverScopes t e.driverProfileId e.currency)
        + Lib.total (isOther e) (received t · os)
          (driverScopes t e.driverProfileId e.currency) := by
    -- each trip's debt is split into what stays and what was repaid
    rw [← total_add]
    refine total_congr_amount ?_
    intro scope _ _
    have hdebt := hrecovered.debtOf_eq hown he hlive hmoved hroom scope
    omega
  rw [Mobility.Payout.owedByOthers_eq (hmoved.ownership hown),
    Mobility.Payout.owedByOthers_eq hown, total_perm hscopes]
  omega

/-- No trip is repaid more than it owed. -/
theorem Recovered.debt_eq (trip : Id) :
    repaidTo os trip ≤ (t.tripMoneyPosition trip e.currency).debt
      ∧ (t'.tripMoneyPosition trip e.currency).debt
        = (t.tripMoneyPosition trip e.currency).debt - repaidTo os trip := by
  have hle := hrecovered.received_le hown (some trip, e.currency)
  have hdebt := hrecovered.debtOf_eq hown he hlive hmoved hroom (some trip, e.currency)
  rw [← hrecovered.repaidTo_eq hown he hlive] at hle hdebt
  rw [tripMoneyPosition_debt, tripMoneyPosition_debt]
  by_cases hempty : t.scopeEntries (some trip, e.currency) = []
  · -- a trip without credits is in nobody's positions
    have hnone : repaidTo os trip = 0 := by
      refine total_eq_zero ?_
      intro o ho
      refine decide_eq_false ?_
      rintro rfl
      rcases (hrecovered.source o ho).2 with ⟨p, hp, _⟩
      rcases mem_driverScopes.mp (scope_driverRecoveryPositions hp) with ⟨e', he', _, _, hscope⟩
      have hmem : e' ∈ t.scopeEntries (some o.sourceTripId, e.currency) :=
        mem_scopeEntries.mpr ⟨he', (hrecovered.funding o ho).2.1 ▸ hscope⟩
      simp [hempty] at hmem
    simp [hempty, (hmoved.scopeEntries_nil _).mpr hempty, hnone]
  · have hempty' : t'.scopeEntries (some trip, e.currency) ≠ [] :=
      fun h => hempty ((hmoved.scopeEntries_nil _).mp h)
    rw [if_neg hempty, if_neg hempty']
    exact ⟨hle, hdebt⟩

end Moved

end Recovery

/-! ## What a recovery does to the positions -/

/-- The offsets of a recovery and the use of its credit, as a movement. -/
theorem Recovered.movement (hown : Ownership t) (he : e ∈ t.entries) (hreleased : Released e)
    {used : List Id} (hused : ∀ id ∈ used, id = e.id) :
    Movement t { t with
        offsets := t.offsets ++ os
        entries := t.entries.map (settleIn used) } [] os used where
  trips := rfl
  entries := rfl
  offsets := rfl
  lines := by simp [Store.lines]
  reserved := by simp
  used := by
    intro e' he' hmem
    have hsame : e' = e := eq_of_key_eq hown.entryIds he' he (hused _ hmem)
    exact hsame ▸ hreleased

theorem scopePosition_unpaidAuthority (s : Store) (scope : TripScope) :
    (s.scopePosition scope).unpaidAuthority
      = max (s.releasedNet scope - (s.scopePosition scope).settled) 0 := rfl

/-- What a trip can still pay was released and is neither settled nor under way. -/
theorem room_of_payable {scope : TripScope} (hlines : ∀ l ∈ t.lines, 0 < l.amount)
    (hpos : 0 < payable) (hpayable : payable ≤ (t.scopePosition scope).batchPayable) :
    (t.scopePosition scope).settled + payable + (t.scopePosition scope).reserved
      + (t.scopePosition scope).inFlight ≤ t.releasedNet scope := by
  have hnonneg := scopePosition_nonneg hlines scope
  have hbefore := scopePosition_batchPayable t scope
  omega

/-- The trip that funds a recovery can pay less by what was offset. -/
theorem Movement.funding_trip {used : List Id} (h : Movement t t' [] os used) {scope : TripScope}
    (hlines : ∀ l ∈ t.lines, 0 < l.amount) (hpos : 0 < payable)
    (hpayable : payable ≤ (t.scopePosition scope).batchPayable)
    (hsettled : (t'.scopePosition scope).settled = (t.scopePosition scope).settled + offsetTotal os)
    (hle : offsetTotal os ≤ payable) :
    (t'.scopePosition scope).unpaidAuthority
        = (t.scopePosition scope).unpaidAuthority - offsetTotal os
      ∧ (t'.scopePosition scope).batchPayable
        = (t.scopePosition scope).batchPayable - offsetTotal os := by
  have hroom := room_of_payable hlines hpos hpayable
  have hnonneg := scopePosition_nonneg hlines scope
  have hreserved : (t'.scopePosition scope).reserved = (t.scopePosition scope).reserved := by
    simpa using h.reserved_eq scope
  rw [scopePosition_unpaidAuthority, scopePosition_unpaidAuthority, scopePosition_batchPayable,
    scopePosition_batchPayable, h.releasedNet, h.inFlight_eq, hreserved, hsettled]
  constructor <;> omega

/-- Where the other trips owe nothing together, none of them owes anything. -/
theorem debt_eq_zero_of_owedByOthers (hown : Ownership t) {driver : Id} {currency : Currency}
    (hnone : owedByOthers e (t.driverRecoveryPositions driver currency) = 0)
    {x : TripScope × TripMoneyPosition} (hx : x ∈ t.driverRecoveryPositions driver currency)
    (hother : x.1.1 ≠ e.tripSessionId) : x.2.debt = 0 := by
  have hscope := isSome_driverScopes hown (scope_driverRecoveryPositions hx)
  have hle : x.2.debt ≤ owedByOthers e (t.driverRecoveryPositions driver currency) :=
    le_total (fun _ _ => le_max_right _ _) hx (by simp [hscope, hother])
  exact le_antisymm (hnone ▸ hle) (le_max_right _ _)

/-- Trip 1 was paid 100 and is worth 40 after a recompute; trip 2 was not paid yet. -/
def recomputedStore : Store :=
  { trips := [{ id := 1, driverProfileId := 5, driverUserId := 6 },
      { id := 2, driverProfileId := 5, driverUserId := 6 }]
    entries := [
      { id := 11, driverProfileId := 5, driverUserId := 6, tripSessionId := some 1
        entryType := .tripPayout, status := .paid, amount := 100, currency := "NGN"
        occurredAt := 0 },
      { id := 12, driverProfileId := 5, driverUserId := 6, tripSessionId := some 1
        entryType := .reversal, status := .available, amount := 60, currency := "NGN"
        occurredAt := 1
        ledgerMetadata := { sourceEntryId := some 11, recomputeDay := true } },
      recomputedCredit]
    batches := [
      { id := 31, status := .completed, currency := "NGN", totalAmount := 100, createdByUserId := 9
        lines := [
          { id := 41, ledgerEntryId := 11, payeeVersionId := 7, bankAccountVersionId := 8
            amount := 100, currency := "NGN"
            instruction := { ledgerEntryId := 11, payeeVersionId := 7, bankAccountVersionId := 8
                             amount := 100, currency := "NGN" }
            instructionFingerprint := "f", idempotencyKey := "k"
            status := .succeeded, reservationActive := false }] }] }
where
  recomputedCredit : EarningsLedgerEntry :=
    { id := 13, driverProfileId := 5, driverUserId := 6, tripSessionId := some 2
      entryType := .tripPayout, status := .available, amount := 90, currency := "NGN"
      occurredAt := 2 }

/-- The same driver, whose second trip has a released credit of 90 and a pending one of 60. -/
def pendingCreditStore : Store :=
  { recomputedStore with entries := recomputedStore.entries ++ [pendingCredit] }
where
  pendingCredit : EarningsLedgerEntry :=
    { id := 14, driverProfileId := 5, driverUserId := 6, tripSessionId := some 2
      entryType := .tripPayout, status := .pending, amount := 60, currency := "NGN"
      occurredAt := 3 }

end Payout
end Mobility
