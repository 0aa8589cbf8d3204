import Mobility.Billing.CashRuns

/-!
# Refunds — what a cancellation promises against what was held

The cancellation freezes all allocations of the terms, reversed receipts included, while
every other reader counts active receipts only.  The two agree as long as no terms are
funded again after a reversal.
-/

namespace Mobility
namespace Billing

open Lib
open CashBook

/-- No receipt allocated to the terms is reversed. -/
def NoReversedCash (s : Store) (termsId : Id) : Prop :=
  ∀ row ∈ s.allocations, row.commercialTermsId = termsId → ¬ HasEvent s row.receiptId .reversed

/-- The action adds no allocation to terms with a reversed one. -/
def FundsUnreversed (s : Store) (a : BillingAction) : Prop :=
  ∀ termsId, Funds s termsId a → NoReversedCash s termsId

section

variable {s s' : Store}

/-- Where every allocation of the terms is active, all that was allocated is held. -/
theorem allocated_eq_held {b : CashBook} {termsId : Id}
    (h : ∀ row ∈ b.allocations, row.commercialTermsId = termsId → b.Active row.receiptId) :
    b.allocated termsId = b.held termsId := by
  refine total_congr ?_
  intro row hrow
  by_cases hterms : row.commercialTermsId = termsId
  · simp [hterms, h row hrow hterms]
  · simp [hterms]

/-- One step: what is allocated in total was allocated before, or is all held now. -/
theorem CashStep.allocated_le {funds : Id → Prop} (h : CashStep s s' funds) (hb : CashInv s.cash)
    (hfunds : ∀ termsId, funds termsId → NoReversedCash s termsId) (termsId : Id) :
    s'.cash.allocated termsId = s.cash.allocated termsId
      ∨ s'.cash.allocated termsId = s'.cash.held termsId := by
  have hb' := h.inv hb
  rcases h.writes with hwrites | hreversal
  · rcases hwrites.allocated with ⟨new, hrows, hactive⟩
    by_cases hadded : ∃ row ∈ new, row.commercialTermsId = termsId
    · right
      rcases hadded with ⟨row, hrow, hterms⟩
      have hfunded : funds row.commercialTermsId := by
        have hmem : row ∈ s'.allocations := by
          have hlist : s'.allocations = s.allocations ++ new := hrows
          exact hlist ▸ List.mem_append_right _ hrow
        rcases h.allocations row hmem with hold | ⟨hfunded, _⟩
        · -- a row of the table cannot come again
          have hpairs : ((s.cash.allocations ++ new).map pair).Nodup := hrows ▸ hb'.pairs
          rw [List.map_append] at hpairs
          exact absurd rfl ((List.nodup_append.mp hpairs).2.2 _ (List.mem_map_of_mem hold) _
            (List.mem_map_of_mem hrow))
        · exact hfunded
      refine allocated_eq_held ?_
      intro other hother hotherTerms
      rw [hrows] at hother
      rcases List.mem_append.mp hother with hold | hnew
      · have hmarked := (hb.allocations other hold).2.2
        have hnot : ¬ s.cash.Marked other.receiptId .reversed :=
          hfunds _ hfunded other hold (hotherTerms.trans hterms.symm)
        exact hwrites.active.1 _ ⟨hmarked, hnot⟩
      · exact hactive other hnew
    · left
      have hnone : total (fun row : ReceiptAllocation => row.commercialTermsId = termsId) (·.amount)
          new = 0 := by
        refine total_eq_zero ?_
        intro row hrow
        exact decide_eq_false (fun hterms => hadded ⟨row, hrow, hterms⟩)
      unfold CashBook.allocated
      rw [hrows, total_append, hnone, Int.add_zero]
  · left
    generalize s'.cash = b' at hreversal
    cases hreversal
    rfl

end

section

variable [Hashing] {s : Store} {earlier : List Store}

/-- All that was ever allocated to the terms was once held for them together. -/
theorem allocated_was_held (h : Trace billing FundsUnreversed s earlier) (termsId : Id) :
    ∃ x ∈ s :: earlier, s.cash.allocated termsId ≤ x.cash.held termsId := by
  refine h.invariant (fun s earlier => ∃ x ∈ s :: earlier,
    s.cash.allocated termsId ≤ x.cash.held termsId) ⟨_, List.mem_singleton.mpr rfl, le_refl _⟩ ?_
  rintro s a s' earlier htrace ⟨x, hx, hle⟩ hfunds hstep
  have hb := cashInv_of_reachable htrace.reachable
  rcases (billingStep_cash hb hstep).allocated_le hb hfunds termsId with hsame | hheld
  · exact ⟨x, List.mem_cons_of_mem _ hx, hsame ▸ hle⟩
  · exact ⟨s', List.mem_cons_self, hheld.le⟩

/-- Cancellations are never withdrawn, so what has none had none all along. -/
theorem uncancelled_before (h : Trace billing FundsUnreversed s earlier) {campaignId : Id}
    (hs : s.cancellation? campaignId = none) :
    ∀ x ∈ s :: earlier, x.cancellation? campaignId = none := by
  refine h.all_earlier (fun x => x.cancellation? campaignId = none) ?_ hs
  intro x a x' hx hstep hnone
  have hb := cashInv_of_reachable hx
  rw [Store.cancellation?, lookup_eq_none] at hnone ⊢
  intro row hrow
  refine hnone row ?_
  rcases (billingStep_cash hb hstep).cancellations with hsame | hwrite
  · exact hsame ▸ hrow
  · exact hwrite.mono.2.2.2.2 row hrow

/-- Each refundable cancellation froze at most what was held at one earlier moment. -/
theorem frozen_within_held (h : Trace billing FundsUnreversed s earlier) :
    ∀ row ∈ s.cancellations, row.disposition = .cashRefundDue →
      ∃ termsId, row.commercialTermsId = some termsId ∧ ∃ x ∈ s :: earlier,
        x.cancellation? row.campaignId = none ∧ row.refundableAmount ≤ activeCash x termsId := by
  refine h.invariant (fun s earlier => ∀ row ∈ s.cancellations, row.disposition = .cashRefundDue →
    ∃ termsId, row.commercialTermsId = some termsId ∧ ∃ x ∈ s :: earlier,
      x.cancellation? row.campaignId = none ∧ row.refundableAmount ≤ activeCash x termsId) ?_ ?_
  · simp [billing]
  · intro s a s' earlier htrace ih hfunds hstep row hrow hdue
    have hb := cashInv_of_reachable htrace.reachable
    -- a row of before, or the first cancellation of its campaign
    have hold : row ∈ s.cancellations ∨ (s.cancellation? row.campaignId = none
        ∧ ∃ termsId, row.commercialTermsId = some termsId ∧ row.refundableAmount
          = max 0 (s.cash.allocated termsId
            - s.cash.refunded (·.commercialTermsId = termsId))) := by
      rcases (billingStep_cash hb hstep).cancellations with hsame | hwrite
      · exact .inl (hsame ▸ hrow)
      · rcases hwrite.cancelled row hrow with hold | ⟨hfirst, hrefundable⟩
        · exact .inl hold
        · exact .inr ⟨lookup_eq_none.mpr hfirst, hrefundable hdue⟩
    rcases hold with hold | ⟨hnone, termsId, hterms, hamount⟩
    · rcases ih row hold hdue with ⟨termsId, hterms, x, hx, hwhen, hle⟩
      exact ⟨termsId, hterms, x, List.mem_cons_of_mem _ hx, hwhen, hle⟩
    · rcases allocated_was_held htrace termsId with ⟨x, hx, hle⟩
      refine ⟨termsId, hterms, x, List.mem_cons_of_mem _ hx, uncancelled_before htrace hnone x hx, ?_⟩
      have hbx : CashInv x.cash := by
        have hall := htrace.all_visited (fun x => CashInv x.cash)
          (fun _ => cashInv_of_reachable)
        exact hall x hx
      have hrefunded : 0 ≤ s.cash.refunded (·.commercialTermsId = termsId) :=
        total_nonneg (fun row hrow => (hb.refunds row hrow).1)
      have hallocated : 0 ≤ s.cash.allocated termsId :=
        total_nonneg (fun row hrow => (hb.allocations row hrow).1.le)
      calc
        row.refundableAmount = max 0 (s.cash.allocated termsId
            - s.cash.refunded (·.commercialTermsId = termsId)) := hamount
        _ ≤ s.cash.allocated termsId :=
            max_le hallocated (Int.sub_le_self _ hrefunded)
        _ ≤ x.cash.held termsId := hle
        _ = activeCash x termsId := (activeCash_eq hbx termsId).symm

/-! ## Frozen and refunded -/

/-- A refundable cancellation froze at most the active cash of one moment before it, in every
run that funds no terms again over a reversed allocation; and refunds stay within the
cancellation, the receipt and the allocation in every run. -/
theorem refunds_within_cash_held :
    (∀ s earlier, Trace billing FundsUnreversed s earlier →
      ∀ row ∈ s.cancellations, row.disposition = .cashRefundDue →
        ∃ termsId, row.commercialTermsId = some termsId ∧ ∃ x ∈ s :: earlier,
          x.cancellation? row.campaignId = none ∧ row.refundableAmount ≤ activeCash x termsId)
    ∧ ∀ s, Reachable billing s →
      (∀ row ∈ s.cancellations,
        refundedTotal s (fun refund => refund.cancellationId = some row.id) ≤ row.refundableAmount)
      ∧ (∀ row ∈ s.receipts,
        refundedTotal s (fun refund => refund.receiptId = some row.id) ≤ row.amount)
      ∧ (∀ row ∈ s.allocations,
        refundedTotal s (fun refund => refund.receiptId = some row.receiptId
          && refund.commercialTermsId = row.commercialTermsId) ≤ row.amount)
      ∧ ∀ refund ∈ s.refunds, refund.disposition = .refundRecorded →
        (∃ row ∈ s.cancellations, refund.cancellationId = some row.id
          ∧ row.commercialTermsId = some refund.commercialTermsId)
        ∧ ∃ row ∈ s.allocations, refund.receiptId = some row.receiptId
          ∧ row.commercialTermsId = refund.commercialTermsId := by
  refine ⟨fun s earlier htrace => frozen_within_held htrace, ?_⟩
  intro s hs
  have hbounded := refundsBounded_of_reachable hs
  refine ⟨hbounded.cancellations, hbounded.receipts, hbounded.allocations, ?_⟩
  intro refund hrefund
  exact ((cashInv_of_reachable hs).refunds refund hrefund).2

end

/-! ## Runs -/

instance plainHashing : Hashing where
  snapshotSha256 snapshot := toString snapshot.campaignId
  previewSha256 _ _ _ outcome reason := outcome ++ reason

def sampleTerms : CommercialTerms :=
  { id := 1
    campaignId := 5
    organizationId := 3
    currency := "NGN"
    paymentClass := .standardPrepaid
    grossAmount := 10000
    acceptedAt := 0 }

/-- A payment of 100.00. -/
def samplePayment (reference : Payout.Reference) : ReceiptFacts :=
  { organizationId := 3
    method := .manualTransfer
    provider := "bank"
    externalTransactionId := reference
    amount := 100
    currency := "NGN"
    payerName := "payer"
    evidenceReference := reference
    observedAt := 0 }

/-- A campaign with an issued invoice over 100.00. -/
def invoicedCampaign : List BillingAction :=
  [ .writeCampaign { id := 5, organizationId := 3, currency := "NGN" },
    .acceptTerms (.ok ⟨⟩) sampleTerms,
    .createInvoiceDraft (.ok ⟨⟩) 1 1,
    .issueInvoice (.ok ⟨⟩) (.ok ⟨⟩) 1 ]

/-- The receipt is recorded, confirmed and allocated in full. -/
def fundWith (receiptId : Id) (reference : Payout.Reference) (now : Int) : List BillingAction :=
  [ .recordReceipt (.admin (.ok ⟨⟩)) receiptId (samplePayment reference),
    .confirmReceipt (.ok ⟨⟩) receiptId 100 "NGN" now,
    .allocateReceipt (.admin (.ok ⟨⟩)) receiptId receiptId 1 100 now ]

def sampleCancellation : BillingAction :=
  .cancelCampaign (.ok ⟨⟩) (.ok ⟨⟩) 5
    { cancellationId := 1, requestedByUserId := 9, clientRequestId := 1, fingerprint := "f" } 40

/-- Cash is received, the campaign cancelled, and the payment reversed and refunded. -/
def refundedInFull : List BillingAction :=
  invoicedCampaign ++ fundWith 1 "A" 10 ++
    [ sampleCancellation,
      .reverseReceipt (.ok ⟨⟩) 1 "cancelled" 50,
      .recordRefund (.ok ⟨⟩) 1 1
        { amount := 100, settlementProvider := "bank", externalReference := "R", reason := "c" } ]

/-- A check that implies the condition: nothing is reversed yet. -/
def noneReversed (s : Store) : Bool :=
  s.receiptEvents.all (fun event => event.status ≠ .reversed)

/-- An action that writes no allocation. -/
def fundsNothing : BillingAction → Bool
  | .allocateReceipt .. | .bankTransfer .. | .processEvent .. => false
  | _ => true

theorem fundsUnreversed_of_check {s : Store} {a : BillingAction}
    (h : (noneReversed s || fundsNothing a) = true) : FundsUnreversed s a := by
  intro termsId hfunds row _ _
  rintro ⟨event, hevent, _, hreversed⟩
  rcases Bool.or_eq_true _ _ |>.mp h with hnone | hnothing
  · have hnot := List.all_eq_true.mp hnone event hevent
    simp [hreversed] at hnot
  · cases a with
    | allocateReceipt | bankTransfer | processEvent => simp [fundsNothing] at hnothing
    | _ => exact hfunds

theorem refunds_within_cash_held_paid :
    ∃ s earlier, Trace billing FundsUnreversed s earlier
      ∧ ∃ row ∈ s.cancellations, row.disposition = .cashRefundDue ∧ row.refundableAmount = 10000
      ∧ refundedTotal s (fun refund => refund.cancellationId = some row.id) = 10000
      ∧ (∃ termsId, row.commercialTermsId = some termsId ∧ ∃ x ∈ s :: earlier,
          x.cancellation? row.campaignId = none ∧ row.refundableAmount ≤ activeCash x termsId)
      ∧ refundedTotal s (fun refund => refund.cancellationId = some row.id)
          ≤ row.refundableAmount := by
  rcases billing.exists_trace FundsUnreversed (fun _ _ => fundsUnreversed_of_check)
    refundedInFull (fun s _ =>
      s.cancellations.any (fun row => row.disposition = .cashRefundDue
        && row.refundableAmount = 10000
        && refundedTotal s (fun refund => refund.cancellationId = some row.id) = 10000))
    (by decide +kernel) with ⟨s, earlier, htrace, htest⟩
  rcases List.any_eq_true.mp htest with ⟨row, hrow, htest⟩
  simp only [Bool.and_eq_true, decide_eq_true_eq] at htest
  rcases htest with ⟨⟨hdue, hamount⟩, hrefunded⟩
  exact ⟨s, earlier, htrace, row, hrow, hdue, hamount, hrefunded,
    refunds_within_cash_held.1 s earlier htrace row hrow hdue,
    (refunds_within_cash_held.2 s htrace.reachable).1 row hrow⟩

/-- A payment is reversed and replaced before the campaign is cancelled. -/
def replacedPayment : List BillingAction :=
  invoicedCampaign ++ fundWith 1 "A" 10 ++ [.reverseReceipt (.ok ⟨⟩) 1 "bounced" 20]
    ++ fundWith 2 "B" 30 ++ [sampleCancellation]

/-- Both the bounced payment and its replacement are frozen as refundable. -/
theorem not_refundable_within_cash_held :
    ¬ ∀ s earlier, Trace billing (fun _ _ => True) s earlier →
      ∀ row ∈ s.cancellations, row.disposition = .cashRefundDue →
        ∃ termsId, row.commercialTermsId = some termsId ∧ ∃ x ∈ s :: earlier,
          row.refundableAmount ≤ activeCash x termsId := by
  intro hclaim
  rcases billing.exists_trace (fun _ _ => True) (fun _ _ (_ : true = true) => trivial)
    replacedPayment (fun s earlier =>
      s.cancellations.any (fun row => row.disposition = .cashRefundDue
        && row.refundableAmount = 20000 && row.commercialTermsId = some 1)
      && (s :: earlier).all (fun x => activeCash x 1 ≤ 10000))
    (by decide +kernel) with ⟨s, earlier, htrace, htest⟩
  rcases Bool.and_eq_true _ _ |>.mp htest with ⟨hcancelled, hheld⟩
  rcases List.any_eq_true.mp hcancelled with ⟨row, hrow, htest⟩
  simp only [Bool.and_eq_true, decide_eq_true_eq] at htest
  rcases htest with ⟨⟨hdue, hamount⟩, hterms⟩
  rcases hclaim s earlier htrace row hrow hdue with ⟨termsId, htermsId, x, hx, hle⟩
  have hone : termsId = 1 := Option.some.inj (htermsId.symm.trans hterms)
  have hbound := List.all_eq_true.mp hheld x hx
  rw [decide_eq_true_eq] at hbound
  rw [hone, hamount] at hle
  exact absurd (hle.trans hbound) (by decide)

end Billing
end Mobility
