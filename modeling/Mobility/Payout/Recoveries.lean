import Mobility.Lib.Draws
import Mobility.Payout.Funding
import Mobility.Payout.Preview

/-!
# Recoveries — a recovery takes from the debts of its driver

`driverDebt` adds up the debts of a driver's trips.  A recovery for a credit whose own trip
owes nothing takes all it can from them, and lowers them by just what it takes.
-/

namespace Mobility
namespace Payout

open Lib

variable {s t t' : Store} {e : EarningsLedgerEntry} {driver : Id} {c : Currency}
  {scope : TripScope} {os : List PayoutRecoveryOffset} {payable left : Int}

/-- The trips of a driver in one currency, as a recovery goes through them. -/
def driverScopes (s : Store) (driver : Id) (c : Currency) : List TripScope :=
  orderedKeys ((s.driverEntries driver c).map (·.scope))

def debtOf (s : Store) (scope : TripScope) : Int :=
  (s.scopePosition scope).debt

theorem mem_driverScopes : scope ∈ driverScopes s driver c
    ↔ ∃ e ∈ s.entries, e.driverProfileId = driver ∧ e.currency = c ∧ e.scope = scope := by
  rw [driverScopes, mem_orderedKeys, List.mem_map]
  constructor
  · rintro ⟨e, he, hscope⟩
    rcases mem_driverEntries.mp he with ⟨hmem, hdriver, hc⟩
    exact ⟨e, hmem, hdriver, hc, hscope⟩
  · rintro ⟨e, hmem, hdriver, hc, hscope⟩
    exact ⟨e, mem_driverEntries.mpr ⟨hmem, hdriver, hc⟩, hscope⟩

theorem nodup_driverScopes (s : Store) (driver : Id) (c : Currency) :
    (driverScopes s driver c).Nodup :=
  nodup_orderedKeys _

theorem scope_driverRecoveryPositions {x : TripScope × TripMoneyPosition}
    (hx : x ∈ s.driverRecoveryPositions driver c) : x.1 ∈ driverScopes s driver c := by
  rcases List.mem_map.mp hx with ⟨scope, hscope, rfl⟩
  exact hscope

theorem driverScopes_eq (s : Store) (driver : Id) (c : Currency) :
    driverScopes s driver c = (s.driverRecoveryPositions driver c).map (·.1) := by
  simp only [driverScopes, Store.driverRecoveryPositions, Store.tripMoneyPositions, List.map_map]
  exact (List.map_id _).symm

theorem debt_driverRecoveryPositions (hown : Ownership s) {x : TripScope × TripMoneyPosition}
    (hx : x ∈ s.driverRecoveryPositions driver c) : x.2.debt = debtOf s x.1 := by
  rcases driverRecoveryPositions_eq hown hx with ⟨hsettled, hearned⟩
  simp only [debtOf, TripMoneyPosition.debt, hsettled, hearned]

theorem driverDebt_eq (hown : Ownership s) (driver : Id) (c : Currency) :
    driverDebt s driver c = ((driverScopes s driver c).map (debtOf s)).sum := by
  rw [driverDebt, driverScopes_eq, List.map_map]
  refine congrArg List.sum (List.map_congr_left ?_)
  intro x hx
  exact debt_driverRecoveryPositions hown hx

/-- A driver's debt does not depend on the order of its credits. -/
theorem driverScopes_perm (h : ∀ scope, scope ∈ driverScopes t driver c
    ↔ scope ∈ driverScopes s driver c) :
    (driverScopes t driver c).Perm (driverScopes s driver c) :=
  (List.perm_ext_iff_of_nodup (nodup_driverScopes _ _ _) (nodup_driverScopes _ _ _)).mpr h

/-! ## How much a recovery takes -/

/-- What the other trips of a recovery owe. -/
def owedByOthers (entry : EarningsLedgerEntry) (positions : List (TripScope × TripMoneyPosition)) :
    Int :=
  total (fun x => x.1.1.isSome && decide (x.1.1 ≠ entry.tripSessionId)) (·.2.debt) positions

theorem owedByOthers_nonneg (entry : EarningsLedgerEntry)
    (positions : List (TripScope × TripMoneyPosition)) : 0 ≤ owedByOthers entry positions :=
  total_nonneg (fun _ _ => le_max_right _ _)

/-- The loop stops when all is taken or nothing is owed. -/
theorem recoveryOffsets_left (entry : EarningsLedgerEntry) (request : RecoveryRequest) :
    ∀ (positions : List (TripScope × TripMoneyPosition)) (remaining : Int), 0 ≤ remaining →
      (recoveryOffsets entry request positions remaining).2
        = remaining - min remaining (owedByOthers entry positions) := by
  intro positions
  -- on the positions in the order of the loop
  induction positions with
  | nil =>
      intro remaining hremaining
      simp [recoveryOffsets, owedByOthers, hremaining]
  | cons x rest ih =>
      intro remaining hremaining
      rcases x with ⟨⟨trip, c⟩, position⟩
      have hdebt : 0 ≤ position.debt := le_max_right _ _
      have hrest := owedByOthers_nonneg entry rest
      cases trip with
      | none =>
          have howed : owedByOthers entry (((none, c), position) :: rest)
              = owedByOthers entry rest := by
            simp [owedByOthers]
          rw [recoveryOffsets, howed]
          exact ih remaining hremaining
      | some tripId =>
          -- the loop passes over the trip of the credit
          by_cases hown : some tripId = entry.tripSessionId
          · have howed : owedByOthers entry (((some tripId, c), position) :: rest)
                = owedByOthers entry rest := by
              simp [owedByOthers, hown]
            rw [howed]
            simp only [recoveryOffsets, hown, true_or, if_true]
            exact ih remaining hremaining
          · have howed : owedByOthers entry (((some tripId, c), position) :: rest)
                = position.debt + owedByOthers entry rest := by
              simp [owedByOthers, hown]
            rw [howed]
            simp only [recoveryOffsets, hown, false_or]
            split_ifs with hnodebt hnothing
            · rw [ih remaining hremaining]
              omega
            · simp only
              omega
            · have hleft := ih (remaining - min remaining position.debt) (by omega)
              simp only
              rw [hleft]
              omega

theorem allocatePayoutRecovery_snd (t : Store) (e : EarningsLedgerEntry) (hpayable : 0 ≤ payable)
    (request : RecoveryRequest) : (allocatePayoutRecovery t e payable request).2
      = payable - min payable
        (owedByOthers e (t.driverRecoveryPositions e.driverProfileId e.currency)) := by
  have hleft := recoveryOffsets_left e request
    (t.driverRecoveryPositions e.driverProfileId e.currency) payable hpayable
  rw [← hleft, allocatePayoutRecovery]
  simp only
  split_ifs <;> rfl

/-- All that a recovery can take is the debt of its driver, while its own trip owes nothing. -/
theorem allocatePayoutRecovery_left (hinv : LedgerInv t) (hown : debtOf t e.scope = 0)
    (hpayable : 0 ≤ payable) (request : RecoveryRequest) :
    (allocatePayoutRecovery t e payable request).2
      = payable - min payable (driverDebt t e.driverProfileId e.currency) := by
  have howed : owedByOthers e (t.driverRecoveryPositions e.driverProfileId e.currency)
      = driverDebt t e.driverProfileId e.currency := by
    have hall : driverDebt t e.driverProfileId e.currency
        = total (fun _ => true) (·.2.debt)
            (t.driverRecoveryPositions e.driverProfileId e.currency) := by
      simp [driverDebt, total]
    rw [hall]
    refine total_congr_of_zero ?_
    intro x hx
    rcases mem_driverScopes.mp (scope_driverRecoveryPositions hx) with ⟨e', he', _, hc, hscope⟩
    rcases hinv.owned e' he' with ⟨trip, _, htrip, _⟩
    have hfirst : x.1.1 = some trip.id := by
      rw [← hscope, ← htrip]
      rfl
    by_cases hsame : x.1.1 = e.tripSessionId
    · -- the trip of the credit itself
      refine .inr ?_
      have hscope' : x.1 = e.scope := by
        refine Prod.ext hsame ?_
        rw [← hscope]
        exact hc
      rw [debt_driverRecoveryPositions hinv.ownership hx, hscope', hown]
    · refine .inl ?_
      simp [hfirst ▸ hsame, hfirst]
  rw [allocatePayoutRecovery_snd t e hpayable, howed]

/-! ## What a recovery leaves of the debts -/

/-- Using a credit up keeps whose it is. -/
theorem settleIn_owner (used : List Id) (e : EarningsLedgerEntry) :
    (settleIn used e).driverProfileId = e.driverProfileId
      ∧ (settleIn used e).currency = e.currency := by
  unfold settleIn
  split_ifs <;> exact ⟨rfl, rfl⟩

/-- A movement takes no credit to another driver. -/
theorem Movement.mem_driverScopes {ls : List PayoutBatchLine} {used : List Id}
    (h : Movement t t' ls os used) :
    scope ∈ driverScopes t' driver c ↔ scope ∈ driverScopes t driver c := by
  rw [Mobility.Payout.mem_driverScopes, Mobility.Payout.mem_driverScopes, h.entries]
  constructor
  · rintro ⟨e', he', hdriver, hc, hscope⟩
    rcases List.mem_map.mp he' with ⟨e, he, rfl⟩
    rcases settleIn_owner used e with ⟨hdriver', hc'⟩
    exact ⟨e, he, hdriver'.symm.trans hdriver, hc'.symm.trans hc,
      (settleIn_scope used e).symm.trans hscope⟩
  · rintro ⟨e, he, hdriver, hc, hscope⟩
    rcases settleIn_owner used e with ⟨hdriver', hc'⟩
    exact ⟨_, List.mem_map_of_mem he, hdriver'.trans hdriver, hc'.trans hc,
      (settleIn_scope used e).trans hscope⟩

/-- What an offset repays, and to which trip. -/
def repayment (o : PayoutRecoveryOffset) : TripScope × Int :=
  ((some o.sourceTripId, o.currency), o.amount)

section Recovery

variable (hown : Ownership t) (he : e ∈ t.entries) (hlive : e.status ≠ .voided)
  (hrecovered : Recovered t e payable left os)
include hown he hlive hrecovered

theorem Recovered.received_eq (scope : TripScope) :
    received t scope os = asked scope (os.map repayment) := by
  have hreceived : ∀ o ∈ os, t.receivedBy scope o = decide ((repayment o).1 = scope) := by
    intro o ho
    have hentry := fundingEntry?_eq hown he hlive (hrecovered.funding o ho).1
    rw [Bool.eq_iff_iff, decide_eq_true_eq]
    simp [Store.receivedBy, hentry, repayment, Prod.ext_iff]
  rw [received, List.filter_congr hreceived, asked, Lib.total, List.filter_map, List.map_map]
  rfl

/-- The debts after a recovery that stays within what its own trip has earned. -/
theorem Recovered.debtOf_eq {used : List Id} (hmoved : Movement t t' [] os used)
    (hroom : (t.scopePosition e.scope).settled + payable ≤ (t.scopePosition e.scope).earnedNet)
    (scope : TripScope) :
    debtOf t' scope = debtOf t scope - received t scope os := by
  have hsettled := hmoved.settled_eq scope
  have hle := hrecovered.received_le hown scope
  have hreceived := received_nonneg t scope (fun o ho => (hrecovered.funding o ho).2.2)
  have hcharge := charge_offsets hown he hlive hrecovered scope
  have hrest := hrecovered.rest
  have htotal := hrecovered.total
  have htaken := offsetTotal_nonneg (fun o ho => (hrecovered.funding o ho).2.2)
  simp only [charge, List.filter_nil, totalAmount_nil, zero_add] at hcharge
  simp only [debtOf, TripMoneyPosition.debt, hmoved.earnedNet] at hle ⊢
  by_cases hscope : e.scope = scope
  · rw [if_pos hscope] at hcharge
    rw [hscope] at hroom
    omega
  · rw [if_neg hscope] at hcharge
    omega

/-- Every offset of a recovery goes to a trip of the credit's own driver. -/
theorem Recovered.received_sum (driver : Id) :
    ((driverScopes t driver e.currency).map (received t · os)).sum
      = if e.driverProfileId = driver then offsetTotal os else 0 := by
  have hasked : ((driverScopes t driver e.currency).map (received t · os)).sum
      = Lib.total (fun row => decide (row.1 ∈ (driverScopes t driver e.currency).toFinset)) (·.2)
          (os.map repayment) := by
    rw [← sum_asked, List.sum_toFinset _ (nodup_driverScopes _ _ _)]
    refine congrArg List.sum (List.map_congr_left ?_)
    intro scope _
    exact hrecovered.received_eq hown he hlive scope
  have hsource : ∀ o ∈ os, (repayment o).1 ∈ driverScopes t e.driverProfileId e.currency := by
    intro o ho
    rcases (hrecovered.source o ho).2 with ⟨p, hp, _⟩
    exact scope_driverRecoveryPositions hp
  rw [hasked]
  split_ifs with hdriver
  · subst hdriver
    -- all repaid trips are among those of the driver
    have hall : (os.map repayment).filter
        (fun row => decide (row.1 ∈ (driverScopes t e.driverProfileId e.currency).toFinset))
        = os.map repayment := by
      refine List.filter_eq_self.mpr ?_
      intro row hrow
      rcases List.mem_map.mp hrow with ⟨o, ho, rfl⟩
      simpa using hsource o ho
    rw [Lib.total, hall, List.map_map]
    rfl
  · refine total_eq_zero ?_
    intro row hrow
    rcases List.mem_map.mp hrow with ⟨o, ho, rfl⟩
    refine decide_eq_false ?_
    intro hmem
    -- a trip of two drivers would have credits of both
    rcases mem_driverScopes.mp (hsource o ho) with ⟨e₁, he₁, hdriver₁, _, hscope₁⟩
    rcases mem_driverScopes.mp (List.mem_toFinset.mp hmem) with ⟨e₂, he₂, hdriver₂, _, hscope₂⟩
    have htrip : e₁.tripSessionId = e₂.tripSessionId :=
      congrArg Prod.fst (hscope₁.trans hscope₂.symm)
    exact hdriver (hdriver₁.symm.trans ((hown.driver_eq he₁ he₂ htrip).trans hdriver₂))

/-- A driver's debt falls by what a recovery for one of its credits takes. -/
theorem Recovered.driverDebt_eq {used : List Id} (hmoved : Movement t t' [] os used)
    (hroom : (t.scopePosition e.scope).settled + payable ≤ (t.scopePosition e.scope).earnedNet)
    (driver : Id) :
    driverDebt t' driver e.currency = driverDebt t driver e.currency
      - if e.driverProfileId = driver then offsetTotal os else 0 := by
  have hown' := hmoved.ownership hown
  have hscopes : (driverScopes t' driver e.currency).Perm (driverScopes t driver e.currency) :=
    driverScopes_perm (fun _ => hmoved.mem_driverScopes)
  have hpaid := hrecovered.received_sum hown he hlive driver
  have hsum : ((driverScopes t driver e.currency).map (debtOf t')).sum
        + ((driverScopes t driver e.currency).map (received t · os)).sum
      = ((driverScopes t driver e.currency).map (debtOf t)).sum := by
    rw [← List.sum_map_add]
    refine congrArg List.sum (List.map_congr_left ?_)
    intro scope _
    have hdebt := hrecovered.debtOf_eq hown he hlive hmoved hroom scope
    omega
  have hafter : driverDebt t' driver e.currency
      = ((driverScopes t driver e.currency).map (debtOf t')).sum :=
    (Mobility.Payout.driverDebt_eq hown' driver e.currency).trans (hscopes.map _).sum_eq
  rw [hafter, Mobility.Payout.driverDebt_eq hown, ← hpaid]
  omega

end Recovery

end Payout
end Mobility
