import Mobility.Billing.LiabilityRuns
import Mobility.Billing.Receivables
import Mobility.Lib.Accruals

/-!
# FundingHistory — billing by the clock (`_historical_fully_funded_at`)

The refund window starts at an instant of the past, which is recovered from the rows of
today: the allocations, whatever became of their receipts, and the obligation as it stands
corrected.  What was true at that instant is in no table, so a run is recorded here moment
by moment, and the two are compared.
-/

namespace Mobility
namespace Billing

open Lib
open CashBook

/-! ## Moments -/

/-- What the database held from an instant on. -/
structure Moment where
  instant : Int
  store : Store

/-- An action, and when it is taken. -/
structure Transaction where
  instant : Int
  action : BillingAction
  /-- what the action reads from the clock is the instant at which it is taken -/
  stamped : ∀ now ∈ action.instant, now = instant

/-- An action taken when its own clock says, or at a given instant. -/
def Transaction.of (otherwise : Int) (action : BillingAction) : Transaction :=
  { instant := action.instant.getD otherwise
    action := action
    stamped := by
      intro now hnow
      rw [Option.mem_def.mp hnow]
      rfl }

/-- The billing services with the instants of their transactions. -/
def timedBilling [Hashing] : Machine Moment Transaction AppError :=
  { init := { instant := 0, store := {} }
    step := fun m tx =>
      (billingStep m.store tx.action).map (fun s => { instant := tx.instant, store := s }) }

/-- The allocations with confirmed and not reversed receipts reach the obligation. -/
def FullyCovered (s : Store) (termsId : Id) : Prop :=
  ∃ obligation, effectiveInvoiceObligation s termsId = .ok obligation
    ∧ obligation ≤ activeCash s termsId

theorem fullyCovered_iff {s : Store} {termsId : Id} : FullyCovered s termsId
    ↔ (effectiveInvoiceObligation s termsId).toOption.any (· ≤ activeCash s termsId) = true := by
  unfold FullyCovered
  cases effectiveInvoiceObligation s termsId with
  | error e => simp [Except.toOption]
  | ok obligation => simp [Except.toOption]

instance (s : Store) (termsId : Id) : Decidable (FullyCovered s termsId) :=
  decidable_of_iff _ fullyCovered_iff.symm

/-- The terms were fully funded at an instant: their cash covered the obligation in a moment
of the history, or there was nothing to cover when they were accepted. -/
def FundedAt (history : List Moment) (terms : CommercialTerms) (t : Int) : Prop :=
  (∃ x ∈ history, x.instant = t ∧ FullyCovered x.store terms.id)
    ∨ (t = terms.acceptedAt ∧ terms.grossAmount = 0)

theorem FundedAt.mono {history history' : List Moment} {terms : CommercialTerms} {t : Int}
    (hsubset : ∀ x ∈ history, x ∈ history') (h : FundedAt history terms t) :
    FundedAt history' terms t := by
  rcases h with ⟨x, hx, hfunded⟩ | hfree
  · exact .inl ⟨x, hsubset x hx, hfunded⟩
  · exact .inr hfree

/-! ## The running total -/

def termsAllocations (s : Store) (termsId : Id) : List ReceiptAllocation :=
  s.allocations.filter (·.commercialTermsId = termsId)

/-- All that was allocated to the terms up to an instant, reversed receipts included. -/
def allocatedBy (s : Store) (termsId : Id) (t : Int) : Int :=
  accrued (·.allocatedAt) (·.amount) (termsAllocations s termsId) t

theorem sum_termsAllocations (s : Store) (termsId : Id) :
    ((termsAllocations s termsId).map (·.amount)).sum = allocatedToTerms s termsId := rfl

theorem termsAllocations_append {s s' : Store} {row : ReceiptAllocation}
    (h : s'.allocations = s.allocations ++ [row]) (termsId : Id) :
    termsAllocations s' termsId
      = termsAllocations s termsId ++ if row.commercialTermsId = termsId then [row] else [] := by
  unfold termsAllocations
  rw [h, List.filter_append]
  by_cases hterms : row.commercialTermsId = termsId
  · simp [hterms]
  · simp [hterms]

/-- The instant at which the running total of the terms first reaches a goal. -/
def FirstFunded (s : Store) (termsId : Id) (goal t : Int) : Prop :=
  ReachesFirst (·.allocatedAt) (·.amount) (termsAllocations s termsId) goal t

/-- The source's loop is the search of the general rule. -/
theorem fundedAtOf_eq (obligation : Int) (rows : List ReceiptAllocation) (cumulative : Int) :
    fundedAtOf obligation cumulative rows
      = firstReaching (·.allocatedAt) (·.amount) obligation cumulative rows := by
  induction rows generalizing cumulative with
  | nil => rfl
  | cons row rest ih =>
      rw [fundedAtOf, firstReaching]
      split_ifs
      · rfl
      · exact ih _

/-- `ORDER BY allocated_at, id` puts the instants in order. -/
theorem pairwise_byAllocationTime (rows : List ReceiptAllocation) :
    (byAllocationTime rows).Pairwise (fun row row' => row.allocatedAt ≤ row'.allocatedAt) := by
  let before : ReceiptAllocation → ReceiptAllocation → Prop := fun row row' =>
    Trips.instantThenId row.allocatedAt row.id row'.allocatedAt row'.id = true
  have hiff : ∀ row row', before row row' ↔ row.allocatedAt < row'.allocatedAt
      ∨ (row.allocatedAt = row'.allocatedAt ∧ row.id ≤ row'.id) := by
    intro row row'
    simp [before, Trips.instantThenId]
  have htotal : Std.Total before := ⟨fun row row' => by
    rw [hiff, hiff]
    rcases lt_trichotomy row.allocatedAt row'.allocatedAt with hlt | heq | hgt
    · exact .inl (.inl hlt)
    · exact (le_total row.id row'.id).imp (fun hle => .inr ⟨heq, hle⟩)
        (fun hle => .inr ⟨heq.symm, hle⟩)
    · exact .inr (.inl hgt)⟩
  have htrans : IsTrans _ before := ⟨fun row row' row'' => by
    rw [hiff, hiff, hiff]
    rintro (hlt | ⟨heq, hle⟩) (hlt' | ⟨heq', hle'⟩)
    · exact .inl (hlt.trans hlt')
    · exact .inl (heq' ▸ hlt)
    · exact .inl (heq ▸ hlt')
    · exact .inr ⟨heq.trans heq', hle.trans hle'⟩⟩
  refine (List.pairwise_insertionSort before rows).imp ?_
  intro row row' hbefore
  rcases (hiff row row').mp hbefore with hlt | ⟨heq, _⟩
  · exact hlt.le
  · exact heq.le

/-- What `_historical_fully_funded_at` answers. -/
theorem historicalFullyFundedAt_eq_some {s : Store} (hb : CashInv s.cash)
    (hr : ReceivableInv s) {terms : CommercialTerms} {t : Int}
    (h : historicalFullyFundedAt terms s = .ok (some t)) :
    ∃ obligation, effectiveInvoiceObligation s terms.id = .ok obligation
      ∧ ((obligation = 0 ∧ t = terms.acceptedAt) ∨ FirstFunded s terms.id obligation t) := by
  rcases bind_eq_ok.mp h with ⟨obligation, hobligation, h⟩
  refine ⟨obligation, hobligation, ?_⟩
  rcases ite_eq_ok.mp h with ⟨hzero, h⟩ | ⟨hpositive, h⟩
  · exact .inl ⟨hzero, (Option.some.inj (pure_eq_ok.mp h)).symm⟩
  · right
    have hfound := pure_eq_ok.mp h
    rw [fundedAtOf_eq] at hfound
    have hperm : (byAllocationTime (termsAllocations s terms.id)).Perm
        (termsAllocations s terms.id) := List.perm_insertionSort _ _
    have hamount : ∀ row ∈ byAllocationTime (termsAllocations s terms.id), 0 ≤ row.amount := by
      intro row hrow
      exact (hb.allocations row (List.mem_of_mem_filter (hperm.mem_iff.mp hrow))).1.le
    have hgoal : 0 < obligation := (hr.obligation_nonneg hobligation).lt_of_ne' hpositive
    have hfirst : ReachesFirst (·.allocatedAt) (·.amount)
        (byAllocationTime (termsAllocations s terms.id)) obligation t :=
      .of_firstReaching (pairwise_byAllocationTime _) hamount hgoal hfound
    refine ⟨?_, ?_⟩
    · rw [← accrued_perm hperm]
      exact hfirst.reached
    · intro t' ht'
      rw [← accrued_perm hperm]
      exact hfirst.before t' ht'

/-- Without a production start the window starts where the running total says. -/
theorem refundWindow_fundedAt {s : Store} {terms : CommercialTerms} {window : RefundWindow}
    {t : Int} (hproduction : s.productionStart? terms.campaignId = none)
    (h : refundWindow terms s = .ok window) (ht : window.fundedAt = some t) :
    historicalFullyFundedAt terms s = .ok (some t) := by
  rcases ite_eq_ok.mp h with ⟨_, h⟩ | ⟨_, h⟩
  · rw [← pure_eq_ok.mp h] at ht
    cases ht
  · rw [hproduction] at h
    rcases bind_eq_ok.mp h with ⟨fundedAt, hfunded, h⟩
    cases fundedAt with
    | none =>
        rw [← pure_eq_ok.mp h] at ht
        cases ht
    | some fundedAt =>
        rw [← pure_eq_ok.mp h] at ht
        rw [← ht]
        exact hfunded

/-- A window with an instant keeps the production start that it was measured by. -/
theorem refundWindow_production {s : Store} {terms : CommercialTerms} {window : RefundWindow}
    (h : refundWindow terms s = .ok window) (hfunded : window.fundedAt.isSome) :
    window.production = s.productionStart? terms.campaignId := by
  rcases ite_eq_ok.mp h with ⟨_, h⟩ | ⟨_, h⟩
  · rw [← pure_eq_ok.mp h] at hfunded
    cases hfunded
  · dsimp only at h
    split at h
    · rcases bind_eq_ok.mp h with ⟨fundedAt, hpure, h⟩
      rw [← pure_eq_ok.mp hpure] at h
      rw [← pure_eq_ok.mp h]
    · rcases bind_eq_ok.mp h with ⟨fundedAt, _, h⟩
      cases fundedAt with
      | none =>
          rw [← pure_eq_ok.mp h] at hfunded
          cases hfunded
      | some fundedAt => rw [← pure_eq_ok.mp h]

/-! ## What a step allocates -/

section

variable {s s' : Store}

/-- What is reversed stays so through a chain. -/
theorem CashWrites.reversed {b b' : CashBook} (h : CashWrites b b') (receiptId : Id)
    (hreversed : b.Marked receiptId .reversed) : b'.Marked receiptId .reversed := by
  induction h with
  | refl => exact hreversed
  | tail _ hwrite ih => exact hwrite.mono.2.1 _ _ ih

theorem allocatePaymentReceipt_stamp {actor : Actor} {allocationId receiptId termsId : Id}
    {amount : ℚ} {now : Int} {out : Store × ReceiptAllocation}
    (h : allocatePaymentReceipt actor allocationId receiptId termsId amount now s = .ok out) :
    ∀ row ∈ out.1.allocations, row ∈ s.allocations ∨ row.allocatedAt = now := by
  simp only [allocatePaymentReceipt, bind_eq_ok] at h
  rcases h with ⟨_, _, _, _, _, _, _, _, _, _, _, _, _, _, _, _, _, _, h⟩
  intro row hrow
  split at h
  · rcases bind_eq_ok.mp h with ⟨_, _, h⟩
    cases h
    exact .inl hrow
  · rcases bind_eq_ok.mp h with ⟨_, _, h⟩
    rcases bind_eq_ok.mp h with ⟨_, _, h⟩
    cases h
    rcases List.mem_append.mp hrow with hold | hlast
    · exact .inl hold
    · exact .inr (by rw [List.mem_singleton.mp hlast])

theorem processManualBankTransfer_stamp {authorized : Except AppError Unit}
    {receiptId allocationId termsId : Id} {transfer : BankTransfer} {now : Int}
    (h : processManualBankTransfer authorized receiptId allocationId termsId transfer now s
      = .ok s') :
    ∀ row ∈ s'.allocations, row ∈ s.allocations ∨ row.allocatedAt = now := by
  rcases bind_eq_ok.mp h with ⟨_, _, h⟩
  rcases bind_eq_ok.mp h with ⟨recorded, hrecorded, h⟩
  rcases bind_eq_ok.mp h with ⟨confirmed, hconfirmed, h⟩
  have hsame :=
    (confirmPaymentReceipt_payment (recordPaymentReceipt_payment hrecorded) hconfirmed).2
  intro row hrow
  rcases ite_eq_ok.mp h with ⟨_, h⟩ | ⟨_, h⟩
  · rcases bind_eq_ok.mp h with ⟨allocated, hallocated, h⟩
    cases h
    exact (allocatePaymentReceipt_stamp hallocated row hrow).imp_left (fun hold => hsame ▸ hold)
  · cases h
    exact .inl (hsame ▸ hrow)

theorem processPaymentGatewayEvent_stamp {checkoutBinding : Except AppError Unit}
    {eventId receiptId allocationId : Id} {now : Int}
    (h : processPaymentGatewayEvent checkoutBinding eventId receiptId allocationId now s
      = .ok s') :
    ∀ row ∈ s'.allocations, row ∈ s.allocations ∨ row.allocatedAt = now := by
  rcases bind_eq_ok.mp h with ⟨event, _, h⟩
  intro row hrow
  rcases ite_eq_ok.mp h with ⟨_, h⟩ | ⟨_, h⟩
  · cases h
    exact .inl hrow
  · rcases ite_eq_ok.mp h with ⟨_, h⟩ | ⟨_, h⟩
    · cases h
      exact .inl hrow
    · simp only [bind_eq_ok] at h
      rcases h with ⟨_, _, terms, _, _, _, recorded, hrecorded, s₁, hconfirmed, obligation, _, h⟩
      have hsame : s₁.allocations = s.allocations := by
        rw [(confirmVerifiedGatewayReceipt_eq hconfirmed).2]
        exact (recordPaymentReceipt_payment hrecorded).2
      rcases ite_eq_ok.mp h with ⟨_, h⟩ | ⟨_, h⟩
      · rcases bind_eq_ok.mp h with ⟨allocated, hallocated, h⟩
        cases h
        exact (allocatePaymentReceipt_stamp hallocated row hrow).imp_left (fun hold => hsame ▸ hold)
      · cases h
        exact .inl (hsame ▸ hrow)

/-- A new allocation is stamped with the clock reading of its transaction. -/
theorem billingStep_stamp [Hashing] (hb : CashInv s.cash) {a : BillingAction}
    (h : billingStep s a = .ok s') :
    ∀ row ∈ s'.allocations, row ∈ s.allocations ∨ row.allocatedAt ∈ a.instant := by
  intro row hrow
  cases a with
  | allocateReceipt actor allocationId receiptId termsId amount now =>
      rcases map_eq_ok.mp h with ⟨out, hout, rfl⟩
      exact (allocatePaymentReceipt_stamp hout row hrow).imp_right (fun hnow => congrArg some hnow.symm)
  | bankTransfer =>
      exact (processManualBankTransfer_stamp h row hrow).imp_right
        (fun hnow => congrArg some hnow.symm)
  | processEvent =>
      exact (processPaymentGatewayEvent_stamp h row hrow).imp_right
        (fun hnow => congrArg some hnow.symm)
  | _ =>
      rcases (billingStep_cash hb h).allocations row hrow with hold | ⟨hfunds, _⟩
      · exact .inl hold
      · exact hfunds.elim

/-- A step that allocates is a chain of writes, and the new allocation is active. -/
theorem billingStep_allocates [Hashing] (hb : CashInv s.cash) {a : BillingAction}
    (h : billingStep s a = .ok s') {row : ReceiptAllocation}
    (hrows : s'.allocations = s.allocations ++ [row]) :
    CashWrites s.cash s'.cash ∧ s'.cash.Active row.receiptId := by
  have hbook : s'.cash.allocations = s.cash.allocations ++ [row] := hrows
  rcases (billingStep_cash hb h).writes with hwrites | hreversal
  · rcases hwrites.allocated with ⟨new, hnew, hactive⟩
    have hone : [row] = new := List.append_cancel_left (hbook.symm.trans hnew)
    exact ⟨hwrites, hactive row (hone ▸ List.mem_cons_self)⟩
  · -- a reversal allocates nothing
    exfalso
    have hsame : s'.cash.allocations = s.cash.allocations := by
      generalize s'.cash = b' at hreversal
      cases hreversal
      rfl
    have hlength := congrArg List.length (hsame.symm.trans hbook)
    simp at hlength

/-- The active cash grows by a new allocation, and by nothing else. -/
theorem billingStep_active [Hashing] (hb : CashInv s.cash) {a : BillingAction}
    (h : billingStep s a = .ok s') {row : ReceiptAllocation}
    (hrows : s'.allocations = s.allocations ++ [row]) :
    activeCash s' row.commercialTermsId = activeCash s row.commercialTermsId + row.amount := by
  rcases billingStep_allocates hb h hrows with ⟨hwrites, hrow⟩
  rw [activeCash_eq hb, activeCash_eq (CashWrites.inv hwrites hb)]
  have hbook : s'.cash.allocations = s.cash.allocations ++ [row] := hrows
  have hold : total (fun other => other.commercialTermsId = row.commercialTermsId
        && s'.cash.Active other.receiptId) (·.amount) s.cash.allocations
      = total (fun other => other.commercialTermsId = row.commercialTermsId
        && s.cash.Active other.receiptId) (·.amount) s.cash.allocations := by
    refine total_congr ?_
    intro other hother
    -- an allocated receipt was confirmed already, and a chain reverses none
    have hsame : s'.cash.Active other.receiptId ↔ s.cash.Active other.receiptId :=
      ⟨fun hactive => ⟨(hb.allocations other hother).2.2,
        fun hreversed => hactive.2 (CashWrites.reversed hwrites _ hreversed)⟩,
        hwrites.active.1 _⟩
    simp [hsame]
  unfold CashBook.held
  rw [hbook, total_append, total_cons, total_nil, hold]
  simp [hrow]

end

end Billing
end Mobility
