import Mobility.Billing.Cash
import Mobility.Lib.Newest

/-!
# CashRuns — billing keeps the cash book

Each billing transaction acts on the cash book as a chain of writes, or as one reversal.
So the invariants of the book hold in every reachable state.
-/

namespace Mobility
namespace Billing

open Lib
open CashBook
open Trips (uniqueViolation)

/-! ## Reading the book -/

section

variable {s s' : Store}

theorem money_eq {value : ℚ} {field : String} {amount : Int} (h : money value field = .ok amount) :
    (amount : ℚ) = value * 100 := by
  unfold money at h
  split_ifs at h with hvalue
  rw [← Except.ok.inj h]
  exact Rat.coe_int_num_of_den_eq_one hvalue.2

/-- The status of a receipt is that of its latest event. -/
theorem receiptStatus_eq_some {receiptId : Id} {status : ReceiptLifecycleStatus}
    (h : receiptStatus s receiptId = some status) :
    ∃ event ∈ s.receiptEvents, event.receiptId = receiptId ∧ event.status = status
      ∧ ∀ other ∈ s.receiptEvents, other.receiptId = receiptId →
        other.sequenceNumber ≤ event.sequenceNumber := by
  let later : ReceiptLifecycleEvent → ReceiptLifecycleEvent → Prop :=
    fun event event' => event'.sequenceNumber ≤ event.sequenceNumber
  have : Std.Total later := ⟨fun event event' => Nat.le_total event'.sequenceNumber event.sequenceNumber⟩
  have : IsTrans ReceiptLifecycleEvent later := ⟨fun _ _ _ h h' => Nat.le_trans h' h⟩
  rcases Option.map_eq_some_iff.mp h with ⟨event, hhead, hstatus⟩
  rcases head?_insertionSort (r := later) hhead with ⟨hmem, hlatest⟩
  rcases List.mem_filter.mp hmem with ⟨hevent, hreceipt⟩
  refine ⟨event, hevent, by simpa using hreceipt, hstatus, ?_⟩
  intro other hother hid
  exact hlatest other (List.mem_filter.mpr ⟨hother, by simpa using hid⟩)

/-- A receipt whose status is confirmed is active. -/
theorem active_of_status (hb : CashInv s.cash) {receiptId : Id}
    (h : receiptStatus s receiptId = some .confirmed) : s.cash.Active receiptId := by
  rcases receiptStatus_eq_some h with ⟨event, hevent, hid, hstatus, hlatest⟩
  refine ⟨⟨event, hevent, hid, hstatus⟩, ?_⟩
  rintro ⟨other, hother, hotherId, hreversed⟩
  have hle := hlatest other hother hotherId
  have hsequence : event.sequenceNumber = receiptSequence event.status := hb.sequence event hevent
  have hsequence' : other.sequenceNumber = receiptSequence other.status :=
    hb.sequence other hother
  rw [hsequence, hsequence', hstatus, hreversed] at hle
  exact absurd hle (by decide)

/-- The cash the services count as active is the cash held. -/
theorem activeCash_eq (hb : CashInv s.cash) (termsId : Id) :
    activeCash s termsId = s.cash.held termsId := by
  have hsorted : activeCash s termsId
      = total (ActiveAllocation s termsId) (·.amount) s.allocations :=
    ((List.perm_insertionSort _ _).map _).sum_eq
  rw [hsorted]
  refine total_congr ?_
  intro row hrow
  have hreceipt : ∃ receipt ∈ s.receipts, receipt.id = row.receiptId :=
    (hb.allocations row hrow).2.1
  have hiff : ActiveAllocation s termsId row
      ↔ row.commercialTermsId = termsId ∧ s.cash.Active row.receiptId :=
    ⟨fun h => ⟨h.1, h.2.2⟩, fun h => ⟨h.1, hreceipt, h.2⟩⟩
  simp [hiff]

/-! ## What each service writes -/

theorem appendReceiptEvent_eq {receiptId : Id} {status : ReceiptLifecycleStatus} {occurredAt : Int}
    (h : appendReceiptEvent receiptId status occurredAt s = .ok s') :
    ∃ event : ReceiptLifecycleEvent, event.receiptId = receiptId ∧ event.status = status
      ∧ event.sequenceNumber = receiptSequence event.status
      ∧ s' = { s with receiptEvents := s.receiptEvents ++ [event] } := by
  simp only [appendReceiptEvent, bind_eq_ok, require_eq_ok, pure_eq_ok] at h
  rcases h with ⟨_, _, rfl⟩
  exact ⟨_, rfl, rfl, rfl, rfl⟩

theorem recordPaymentReceipt_eq {actor : Actor} {receiptId : Id} {facts : ReceiptFacts}
    {out : Store × PaymentReceipt} (h : recordPaymentReceipt actor receiptId facts s = .ok out) :
    (out.2.amount : ℚ) = facts.amount * 100 ∧ out.2 ∈ out.1.receipts
      ∧ ((s.receipts.find? (·.externalTransactionId = facts.externalTransactionId) = some out.2
          ∧ out.1 = s)
        ∨ (s.receipts.find? (·.externalTransactionId = facts.externalTransactionId) = none
          ∧ CashWrite s.cash out.1.cash
          ∧ (∀ row ∈ s.receipts, row.id ≠ out.2.id)
          ∧ out.1 = { s with
              receipts := out.1.receipts, receiptEvents := out.1.receiptEvents })) := by
  simp only [recordPaymentReceipt, bind_eq_ok, require_eq_ok] at h
  rcases h with ⟨_, _, _, _, amount, hamount, _, _, h⟩
  split at h
  · rename_i existing hfound
    simp only [bind_eq_ok, require_eq_ok, pure_eq_ok] at h
    rcases h with ⟨_, hsame, rfl⟩
    refine ⟨?_, List.mem_of_find?_eq_some hfound, .inl ⟨hfound, rfl⟩⟩
    rw [← money_eq hamount]
    exact congrArg (fun r : PaymentReceipt => (r.amount : ℚ)) hsame
  · rename_i hnone
    simp only [bind_eq_ok, require_eq_ok, pure_eq_ok] at h
    rcases h with ⟨_, hfresh, s₁, hevent, rfl⟩
    rcases appendReceiptEvent_eq hevent with ⟨event, _, hstatus, hsequence, rfl⟩
    refine ⟨money_eq hamount, List.mem_append_right _ (by simp), .inr ⟨hnone, ?_, hfresh, rfl⟩⟩
    exact .receipt _ event hfresh (money_nonneg hamount) hstatus hsequence

theorem confirmPaymentReceipt_eq {authorized : Except AppError Unit} {receiptId : Id}
    {expectedAmount : ℚ} {expectedCurrency : String} {now : Int} {out : Store × Bool}
    (h : confirmPaymentReceipt authorized receiptId expectedAmount expectedCurrency now s = .ok out) :
    (out.2 = true → ∃ receipt, s.receipt? receiptId = some receipt
        ∧ (receipt.amount : ℚ) = expectedAmount * 100)
      ∧ (out.1 = s ∨ (CashWrite s.cash out.1.cash
          ∧ out.1 = { s with receiptEvents := out.1.receiptEvents })) := by
  simp only [confirmPaymentReceipt, bind_eq_ok, demand_eq_ok, require_eq_ok] at h
  rcases h with ⟨_, _, receipt, hreceipt, _, _, amount, hamount, _, _, h⟩
  have hmatched : (receipt.amount = amount ∧ receipt.currency = expectedCurrency) →
      ∃ receipt, s.receipt? receiptId = some receipt
        ∧ (receipt.amount : ℚ) = expectedAmount * 100 := by
    rintro ⟨hsame, _⟩
    exact ⟨receipt, hreceipt, hsame ▸ money_eq hamount⟩
  simp only [decide_eq_true_eq] at h
  split_ifs at h with hconfirmed hmatch
  · simp only [bind_eq_ok, require_eq_ok, pure_eq_ok] at h
    rcases h with ⟨_, hmatch, rfl⟩
    exact ⟨fun _ => hmatched hmatch, .inl rfl⟩
  · simp only [bind_eq_ok, require_eq_ok, pure_eq_ok] at h
    rcases h with ⟨_, _, s₁, hevent, rfl⟩
    rcases appendReceiptEvent_eq hevent with ⟨event, _, hstatus, hsequence, rfl⟩
    exact ⟨fun _ => hmatched hmatch, .inr ⟨.confirmation event hstatus hsequence, rfl⟩⟩
  · simp only [bind_eq_ok, require_eq_ok, pure_eq_ok] at h
    rcases h with ⟨_, _, rfl⟩
    exact ⟨fun hfalse => absurd hfalse (by simp), .inl rfl⟩

theorem allocatePaymentReceipt_eq (hb : CashInv s.cash) {actor : Actor}
    {allocationId receiptId termsId : Id} {amount : ℚ} {now : Int} {out : Store × ReceiptAllocation}
    (h : allocatePaymentReceipt actor allocationId receiptId termsId amount now s = .ok out) :
    out.1 = s ∨ (CashWrite s.cash out.1.cash
      ∧ (∀ row ∈ s.allocations, ¬ (row.receiptId = receiptId ∧ row.commercialTermsId = termsId))
      ∧ ∃ row, row.commercialTermsId = termsId
        ∧ out.1 = { s with allocations := s.allocations ++ [row] }) := by
  simp only [allocatePaymentReceipt, bind_eq_ok, demand_eq_ok, require_eq_ok] at h
  rcases h with ⟨terms, hterms, receipt, hreceipt, _, _, _, _, _, _, _, hstatus, _, _, value, hvalue,
    _, hpositive, h⟩
  have htermsId : terms.id = termsId := (mem_of_lookup hterms).2
  have hreceiptId : receipt.id = receiptId := (mem_of_lookup hreceipt).2
  split at h
  · simp only [bind_eq_ok, require_eq_ok, pure_eq_ok] at h
    rcases h with ⟨_, _, rfl⟩
    exact .inl rfl
  · rename_i hnone
    simp only [bind_eq_ok, require_eq_ok, pure_eq_ok] at h
    rcases h with ⟨_, _, _, _, rfl⟩
    have hnew : ∀ row ∈ s.allocations,
        ¬ (row.receiptId = receiptId ∧ row.commercialTermsId = termsId) := by
      rintro row hrow ⟨hrowReceipt, hrowTerms⟩
      have hmiss := List.find?_eq_none.mp hnone row hrow
      simp [hrowReceipt, hrowTerms, htermsId, hreceiptId] at hmiss
    refine .inr ⟨?_, hnew, _, htermsId, rfl⟩
    refine .allocation _ ((money_nonneg hvalue).lt_of_ne' hpositive)
      ⟨receipt, (mem_of_lookup hreceipt).1, rfl⟩ (active_of_status hb hstatus) ?_
    intro other hother heq
    refine hnew other hother ⟨?_, ?_⟩
    · exact (congrArg Prod.fst heq).trans hreceiptId
    · exact (congrArg Prod.snd heq).trans htermsId

theorem reversePaymentReceipt_eq {authorized : Except AppError Unit} {receiptId : Id}
    {reason : String} {now : Int}
    (h : reversePaymentReceipt authorized receiptId reason now s = .ok s') :
    s' = s ∨ (CashReversal s.cash s'.cash ∧ s' = { s with receiptEvents := s'.receiptEvents }) := by
  simp only [reversePaymentReceipt, bind_eq_ok, demand_eq_ok] at h
  rcases h with ⟨_, _, _, _, h⟩
  split_ifs at h with hreversed
  · exact .inl (pure_eq_ok.mp h).symm
  · simp only [bind_eq_ok, require_eq_ok] at h
    rcases h with ⟨_, _, _, _, hevent⟩
    rcases appendReceiptEvent_eq hevent with ⟨event, _, hstatus, hsequence, rfl⟩
    exact .inr ⟨.reversal event hstatus hsequence, rfl⟩

theorem requestCampaignCancellation_eq {authorized complaint : Except AppError Unit}
    {campaignId : Id} {request : CancellationRequest} {now : Int}
    (h : requestCampaignCancellation authorized complaint campaignId request now s = .ok s') :
    s' = s ∨ (CashWrite s.cash s'.cash ∧ s.cancellation? campaignId = none
      ∧ ∃ row : CampaignCancellation, row.campaignId = campaignId
        ∧ s' = endCampaignWork campaignId { s with cancellations := s.cancellations ++ [row] }) := by
  simp only [requestCampaignCancellation, bind_eq_ok, demand_eq_ok] at h
  rcases h with ⟨_, _, campaign, _, h⟩
  split at h
  · simp only [bind_eq_ok, require_eq_ok, pure_eq_ok] at h
    rcases h with ⟨_, _, rfl⟩
    exact .inl rfl
  · rename_i hnone
    simp only [bind_eq_ok, require_eq_ok, pure_eq_ok] at h
    rcases h with ⟨_, _, _, _, _, _, settlement, hsettlement, _, hfresh, rfl⟩
    refine .inr ⟨?_, hnone, _, rfl, rfl⟩
    -- what is frozen as due is the rest of the cash under the terms
    have hfrozen : 0 ≤ settlement.refundableAmount ∧ (settlement.disposition = .cashRefundDue →
        ∃ termsId, (s.commercialTermsForCampaign campaignId).map (·.id) = some termsId
          ∧ settlement.refundableAmount = cashRemainingForTerms s termsId) := by
      unfold freezeSettlement at hsettlement
      split at hsettlement
      · rw [← pure_eq_ok.mp hsettlement]
        exact ⟨le_refl _, fun hdue => absurd hdue (by simp)⟩
      · rename_i terms hterms
        split_ifs at hsettlement with hcredit
        · rw [← pure_eq_ok.mp hsettlement]
          exact ⟨le_refl _, fun hdue => absurd hdue (by simp)⟩
        · rcases bind_eq_ok.mp hsettlement with ⟨window, _, hsettlement⟩
          dsimp only at hsettlement
          split_ifs at hsettlement with hdue
          · rw [← pure_eq_ok.mp hsettlement, hterms]
            exact ⟨le_max_left _ _, fun _ => ⟨terms.id, rfl, rfl⟩⟩
          · rw [← pure_eq_ok.mp hsettlement]
            exact ⟨le_refl _, fun hdue => absurd hdue (by simp)⟩
    refine .cancellation _ hfresh ?_ hfrozen.1 hfrozen.2
    exact lookup_eq_none.mp hnone

theorem recordRefundSettlement_eq {authorized : Except AppError Unit} {termsId receiptId : Id}
    {facts : RefundFacts} (h : recordRefundSettlement authorized termsId receiptId facts s = .ok s') :
    s' = s ∨ (CashWrite s.cash s'.cash ∧ s' = { s with refunds := s'.refunds }) := by
  simp only [recordRefundSettlement, bind_eq_ok, demand_eq_ok, require_eq_ok] at h
  rcases h with ⟨_, _, terms, hterms, receipt, hreceipt, _, _, amount, hamount, _, _, h⟩
  split at h
  · simp only [bind_eq_ok, require_eq_ok, pure_eq_ok] at h
    rcases h with ⟨_, _, rfl⟩
    exact .inl rfl
  · simp only [bind_eq_ok, demand_eq_ok, require_eq_ok, pure_eq_ok] at h
    rcases h with ⟨cancellation, hvalid, _, _, allocation, hallocation, _, hfits, rfl⟩
    simp only [validateRefundCancellation, bind_eq_ok, demand_eq_ok, require_eq_ok, pure_eq_ok]
      at hvalid
    rcases hvalid with ⟨found, hfound, _, hmatches, _, _, _, _, rfl⟩
    simp only [refundFits, bind_eq_ok, require_eq_ok] at hfits
    rcases hfits with ⟨_, hpair, _, hreceived, hcancelled⟩
    have hreceiptMem : receipt ∈ s.receipts :=
      (mem_of_lookup (Option.filter_eq_some_iff.mp hreceipt).1).1
    have hpairOf : allocation.receiptId = receipt.id
        ∧ allocation.commercialTermsId = terms.id := by
      simpa using List.find?_some hallocation
    refine .inr ⟨.refund _ found receipt allocation (mem_of_lookup hfound).1 hreceiptMem
      (List.mem_of_find?_eq_some hallocation) ⟨?_, rfl, Prod.ext hpairOf.1 hpairOf.2, hmatches.1⟩
      (money_nonneg hamount) hcancelled hreceived hpair, rfl⟩
    rw [hfound]
    rfl

theorem recordCreditContractSettlement_eq {authorized : Except AppError Unit} {termsId : Id}
    {settlementProvider externalReference reason : String}
    (h : recordCreditContractSettlement authorized termsId settlementProvider externalReference
      reason s = .ok s') :
    s' = s ∨ (CashWrite s.cash s'.cash ∧ s' = { s with refunds := s'.refunds }) := by
  simp only [recordCreditContractSettlement, bind_eq_ok, demand_eq_ok, require_eq_ok] at h
  rcases h with ⟨_, _, terms, _, _, _, h⟩
  split at h
  · simp only [bind_eq_ok, require_eq_ok, pure_eq_ok] at h
    rcases h with ⟨_, _, rfl⟩
    exact .inl rfl
  · rw [← pure_eq_ok.mp h]
    exact .inr ⟨.credit _ rfl rfl, rfl⟩

/-! ## Transactions -/

/-- No receipt of this payment was allocated to the terms yet. -/
def NewFor (s : Store) (externalTransactionId : Payout.Reference) (termsId : Id) : Prop :=
  ∀ receipt, s.receipts.find? (·.externalTransactionId = externalTransactionId) = some receipt →
    ∀ row ∈ s.allocations, ¬ (row.receiptId = receipt.id ∧ row.commercialTermsId = termsId)

/-- The action, when it is accepted, writes a new allocation to the terms. -/
def Funds (s : Store) (termsId : Id) : BillingAction → Prop
  | .allocateReceipt _ _ receiptId termsId' _ _ =>
      termsId' = termsId
        ∧ ∀ row ∈ s.allocations, ¬ (row.receiptId = receiptId ∧ row.commercialTermsId = termsId)
  | .bankTransfer _ _ _ termsId' transfer _ =>
      termsId' = termsId ∧ transfer.expectedAmount = transfer.observedAmount
        ∧ NewFor s transfer.externalTransactionId termsId
  | .processEvent _ eventId _ _ _ =>
      ∃ event, s.gatewayEvents.find? (·.id = eventId) = some event
        ∧ event.commercialTermsReference = some termsId ∧ event.eventType ≠ "payment_failed"
        ∧ (¬ ∃ attempt ∈ s.attempts, attempt.gatewayEventId = eventId
            ∧ terminalOutcome attempt.outcome)
        ∧ NewFor s event.externalId termsId
        ∧ ∃ obligation, effectiveInvoiceObligation s termsId = .ok obligation
          ∧ activeCash s termsId < obligation
  | _ => False

/-- What a transaction does to the cash book. -/
structure CashStep (s s' : Store) (funds : Id → Prop) : Prop where
  writes : CashWrites s.cash s'.cash ∨ CashReversal s.cash s'.cash
  /-- a reversal adds no allocation, and a chain adds only those that the action funds -/
  allocations : ∀ row ∈ s'.allocations, row ∈ s.allocations
    ∨ (funds row.commercialTermsId ∧ CashWrites s.cash s'.cash)
  /-- a cancellation is the one write of its step -/
  cancellations : s'.cancellations = s.cancellations ∨ CashWrite s.cash s'.cash

theorem CashStep.of_eq {funds : Id → Prop} (h : s'.cash = s.cash) : CashStep s s' funds := by
  have hallocations : s'.allocations = s.allocations := congrArg CashBook.allocations h
  exact ⟨.inl (h ▸ .refl), fun _ hrow => .inl (hallocations ▸ hrow),
    .inl (congrArg CashBook.cancellations h)⟩

theorem CashStep.of_write {funds : Id → Prop} (h : CashWrite s.cash s'.cash)
    (hallocations : s'.allocations = s.allocations) : CashStep s s' funds :=
  ⟨.inl (.single h), fun _ hrow => .inl (hallocations ▸ hrow), .inr h⟩

theorem CashStep.inv {funds : Id → Prop} (h : CashStep s s' funds) (hb : CashInv s.cash) :
    CashInv s'.cash := by
  rcases h.writes with hwrites | hreversal
  · exact CashWrites.inv hwrites hb
  · exact hreversal.inv hb

theorem CashStep.bounded {funds : Id → Prop} (h : CashStep s s' funds) (hb : CashInv s.cash)
    (hbounded : RefundsBounded s.cash) : RefundsBounded s'.cash := by
  rcases h.writes with hwrites | hreversal
  · exact CashWrites.bounded hwrites hb hbounded
  · exact hreversal.bounded hbounded

theorem effectiveInvoiceObligation_congr (hterms : s'.commercialTerms = s.commercialTerms)
    (hinvoices : s'.invoices = s.invoices) (hcorrections : s'.corrections = s.corrections)
    (termsId : Id) : effectiveInvoiceObligation s' termsId = effectiveInvoiceObligation s termsId := by
  unfold effectiveInvoiceObligation Store.terms? Store.invoiceOfTerms?
  rw [hterms, hinvoices, hcorrections]

/-- A recorded payment that finds an allocation by its receipt was known before. -/
theorem newFor_of_recorded {actor : Actor} {receiptId termsId : Id} {facts : ReceiptFacts}
    {out : Store × PaymentReceipt} (h : recordPaymentReceipt actor receiptId facts s = .ok out)
    (hnew : ∀ row ∈ s.allocations,
      ¬ (row.receiptId = out.2.id ∧ row.commercialTermsId = termsId)) :
    NewFor s facts.externalTransactionId termsId := by
  intro receipt hreceipt
  rcases (recordPaymentReceipt_eq h).2.2 with ⟨hfound, _⟩ | ⟨hnone, _⟩
  · have hsame : out.2 = receipt := Option.some.inj (hfound.symm.trans hreceipt)
    exact hsame ▸ hnew
  · exact absurd (hnone.symm.trans hreceipt) (by simp)

theorem recorded_allocations {actor : Actor} {receiptId : Id} {facts : ReceiptFacts}
    {out : Store × PaymentReceipt} (h : recordPaymentReceipt actor receiptId facts s = .ok out) :
    CashWrites s.cash out.1.cash
      ∧ out.1 = { s with receipts := out.1.receipts, receiptEvents := out.1.receiptEvents } := by
  rcases (recordPaymentReceipt_eq h).2.2 with ⟨_, hsame⟩ | ⟨_, hwrite, _, hframe⟩
  · rw [hsame]
    exact ⟨.refl, rfl⟩
  · exact ⟨.single hwrite, hframe⟩

theorem processManualBankTransfer_cash (hb : CashInv s.cash) {authorized : Except AppError Unit}
    {receiptId allocationId termsId : Id} {transfer : BankTransfer} {now : Int}
    (h : processManualBankTransfer authorized receiptId allocationId termsId transfer now s = .ok s') :
    CashStep s s' (fun t => Funds s t
      (.bankTransfer authorized receiptId allocationId termsId transfer now)) := by
  simp only [processManualBankTransfer, bind_eq_ok] at h
  rcases h with ⟨_, _, recorded, hrecorded, confirmed, hconfirmed, h⟩
  rcases recorded_allocations hrecorded with ⟨hwrites, hframe⟩
  rcases confirmPaymentReceipt_eq hconfirmed with ⟨hmatched, hconfirm⟩
  have hallocations : recorded.1.allocations = s.allocations := by rw [hframe]
  have hconfirmed' : confirmed.1.allocations = s.allocations
      ∧ confirmed.1.cancellations = s.cancellations := by
    rcases hconfirm with hsame | ⟨_, hframe'⟩
    · rw [hsame, hframe]
      exact ⟨rfl, rfl⟩
    · rw [hframe', hframe]
      exact ⟨rfl, rfl⟩
  rcases hconfirmed' with ⟨hallocations', hcancellations⟩
  have hwrites' : CashWrites s.cash confirmed.1.cash := by
    rcases hconfirm with hsame | ⟨hwrite, _⟩
    · exact hsame ▸ hwrites
    · exact hwrites.tail hwrite
  split_ifs at h with hsecond
  · simp only [bind_eq_ok, pure_eq_ok] at h
    rcases h with ⟨allocated, hallocated, rfl⟩
    rcases allocatePaymentReceipt_eq (CashWrites.inv hwrites' hb) hallocated with
      hsame | ⟨hwrite, hnew, row, hrow, hout⟩
    · rw [hsame]
      exact ⟨.inl hwrites', fun row hrow => .inl (hallocations' ▸ hrow), .inl hcancellations⟩
    · refine ⟨.inl (hwrites'.tail hwrite), ?_, .inl (by rw [hout]; exact hcancellations)⟩
      intro other hother
      rw [hout, hallocations'] at hother
      rcases List.mem_append.mp hother with hother | hother
      · exact .inl hother
      · rw [List.mem_singleton.mp hother, hrow]
        refine .inr ⟨⟨rfl, ?_, ?_⟩, hwrites'.tail hwrite⟩
        · -- the expectation matched the recorded amount
          rcases hmatched hsecond with ⟨receipt, hreceipt, hamount⟩
          have hinv := CashWrites.inv hwrites hb
          rcases recordPaymentReceipt_eq hrecorded with ⟨hobserved, hmem, _⟩
          have hreceipt' : receipt = recorded.2 :=
            eq_of_key_eq hinv.receiptKeys (mem_of_lookup hreceipt).1 hmem (mem_of_lookup hreceipt).2
          rw [hreceipt'] at hamount
          exact mul_right_cancel₀ (by norm_num) (hamount.symm.trans hobserved)
        · exact newFor_of_recorded hrecorded (hallocations' ▸ hnew)
  · rw [← pure_eq_ok.mp h]
    exact ⟨.inl hwrites', fun row hrow => .inl (hallocations' ▸ hrow), .inl hcancellations⟩

theorem confirmVerifiedGatewayReceipt_eq {receiptId eventId : Id} {now : Int}
    (h : confirmVerifiedGatewayReceipt receiptId eventId now s = .ok s') :
    CashWrites s.cash s'.cash ∧ s' = { s with receiptEvents := s'.receiptEvents } := by
  simp only [confirmVerifiedGatewayReceipt, bind_eq_ok, demand_eq_ok, require_eq_ok] at h
  rcases h with ⟨_, _, _, _, _, _, h⟩
  split_ifs at h with hconfirmed
  · rw [← pure_eq_ok.mp h]
    exact ⟨.refl, rfl⟩
  · simp only [bind_eq_ok, require_eq_ok] at h
    rcases h with ⟨_, _, hevent⟩
    rcases appendReceiptEvent_eq hevent with ⟨event, _, hstatus, hsequence, rfl⟩
    exact ⟨.single (.confirmation event hstatus hsequence), rfl⟩

/-- Confirming receipts never lowers the active cash. -/
theorem activeCash_mono (hb : CashInv s.cash) (h : CashWrites s.cash s'.cash)
    (hallocations : s'.allocations = s.allocations) (termsId : Id) :
    activeCash s termsId ≤ activeCash s' termsId := by
  rw [activeCash_eq hb, activeCash_eq (CashWrites.inv h hb)]
  have hrows : s'.cash.allocations = s.cash.allocations := hallocations
  unfold CashBook.held
  rw [hrows]
  refine total_le_total (fun row hrow => (hb.allocations row hrow).1.le) ?_
  intro row _ hheld
  simp only [Bool.and_eq_true, decide_eq_true_eq] at hheld ⊢
  exact ⟨hheld.1, (CashWrites.active h).1 _ hheld.2⟩

theorem processPaymentGatewayEvent_cash (hb : CashInv s.cash)
    {checkoutBinding : Except AppError Unit} {eventId receiptId allocationId : Id} {now : Int}
    (h : processPaymentGatewayEvent checkoutBinding eventId receiptId allocationId now s = .ok s') :
    CashStep s s' (fun t => Funds s t
      (.processEvent checkoutBinding eventId receiptId allocationId now)) := by
  simp only [processPaymentGatewayEvent, bind_eq_ok, demand_eq_ok] at h
  rcases h with ⟨event, hevent, h⟩
  split_ifs at h with hterminal hfailed
  · exact .of_eq (by rw [← pure_eq_ok.mp h])
  · exact .of_eq (by rw [← pure_eq_ok.mp h]; rfl)
  · simp only [bind_eq_ok, demand_eq_ok] at h
    rcases h with ⟨termsId, hreference, terms, hterms, _, _, recorded, hrecorded, s₁, hconfirmed,
      obligation, hobligation, h⟩
    have htermsId : terms.id = termsId :=
      (mem_of_lookup (Option.filter_eq_some_iff.mp hterms).1).2
    rcases recorded_allocations hrecorded with ⟨hwrites, hframe⟩
    rcases confirmVerifiedGatewayReceipt_eq hconfirmed with ⟨hconfirms, hframe'⟩
    have hwrites' : CashWrites s.cash s₁.cash := hwrites.trans hconfirms
    have hallocations : s₁.allocations = s.allocations := by rw [hframe', hframe]
    have hcancellations : s₁.cancellations = s.cancellations := by rw [hframe', hframe]
    split_ifs at h with hpositive
    · simp only [bind_eq_ok, pure_eq_ok] at h
      rcases h with ⟨allocated, hallocated, rfl⟩
      rcases allocatePaymentReceipt_eq (CashWrites.inv hwrites' hb) hallocated with
        hsame | ⟨hwrite, hnew, row, hrow, hout⟩
      · refine ⟨.inl ?_, ?_, .inl ?_⟩
        · rw [hsame]
          exact hwrites'
        · intro other hother
          rw [hsame] at hother
          exact .inl (hallocations ▸ hother)
        · rw [hsame]
          exact hcancellations
      · refine ⟨.inl (hwrites'.tail hwrite), ?_, .inl (by rw [hout]; exact hcancellations)⟩
        intro other hother
        have hother' : other ∈ s₁.allocations ++ [row] := by
          have hrows : (recordAttempt eventId "confirmed" (some allocated.2.id)
            allocated.1).allocations = allocated.1.allocations := rfl
          rw [hrows, hout] at hother
          exact hother
        rw [hallocations] at hother'
        rcases List.mem_append.mp hother' with hother' | hother'
        · exact .inl hother'
        · rw [List.mem_singleton.mp hother', hrow]
          refine .inr ⟨⟨event, hevent, htermsId ▸ hreference, hfailed, hterminal,
            newFor_of_recorded hrecorded (hallocations ▸ hnew), obligation, ?_, ?_⟩,
            hwrites'.tail hwrite⟩
          · rw [effectiveInvoiceObligation_congr (by rw [hframe', hframe]) (by rw [hframe', hframe])
              (by rw [hframe', hframe])] at hobligation
            exact hobligation
          · -- the remainder was positive, and confirming only raised the active cash
            have hmono := activeCash_mono hb hwrites' hallocations terms.id
            have hremaining : 0 < max 0 (obligation - activeCash s₁ terms.id) :=
              (lt_min_iff.mp hpositive).2
            have hlt : activeCash s₁ terms.id < obligation := by
              rcases lt_max_iff.mp hremaining with habsurd | hlt
              · exact absurd habsurd (lt_irrefl _)
              · exact Int.sub_pos.mp hlt
            exact hmono.trans_lt hlt
    · rw [← pure_eq_ok.mp h]
      exact ⟨.inl hwrites', fun _ hrow => .inl (hallocations ▸ hrow), .inl hcancellations⟩

/-- The tables that actions outside the money of a payment do not touch. -/
def Store.books (s : Store) :
    CashBook × List CommercialTerms × List Invoice × List InvoiceCorrection :=
  (s.cash, s.commercialTerms, s.invoices, s.corrections)

theorem appendFinancialAuthorization_frame {campaignId : Id} {facts : AuthorizationFacts} {now : Int}
    (h : appendFinancialAuthorization campaignId facts now s = .ok s') :
    s' = { s with
      authorizations := s'.authorizations
      authorizationAllocations := s'.authorizationAllocations } := by
  simp only [appendFinancialAuthorization, bind_eq_ok] at h
  rcases h with ⟨_, _, _, _, _, _, _, _, _, _, _, _, _, _, h⟩
  rcases ite_eq_ok.mp h with ⟨_, h⟩ | ⟨_, h⟩
  · rw [← pure_eq_ok.mp h]
  · rcases bind_eq_ok.mp h with ⟨_, _, h⟩
    rw [← pure_eq_ok.mp h]

theorem reserveAssignmentLiability_books {authorized : Except AppError Unit}
    {assignmentId reservationId : Id} {now : Int} {out : Store × CampaignLiabilityReservation}
    (h : reserveAssignmentLiability authorized assignmentId reservationId now s = .ok out) :
    out.1.books = s.books := by
  simp only [reserveAssignmentLiability, bind_eq_ok] at h
  rcases h with ⟨_, _, _, _, _, _, calculation, _, h⟩
  split at h
  · rcases bind_eq_ok.mp h with ⟨_, _, h⟩
    rcases ite_eq_ok.mp h with ⟨_, h⟩ | ⟨_, h⟩
    · rw [← pure_eq_ok.mp h]
      rfl
    · rw [← pure_eq_ok.mp h]
  · rw [← pure_eq_ok.mp h]
    rfl

theorem activateAssignment_books {authorized eligible evidenced : Except AppError Unit}
    {assignmentId reservationId : Id} {now : Int}
    (h : activateAssignment authorized eligible evidenced assignmentId reservationId now s = .ok s') :
    s'.books = s.books := by
  simp only [activateAssignment, assertReserved, bind_eq_ok] at h
  rcases h with ⟨_, _, assignment, _, _, _, _, _, _, _, _, _, reserved, hreserved, s₁,
    ⟨_, _, _, _, _, _, hs₁⟩, _, _, h⟩
  have hbooks : s₁.books = s.books := by
    rw [← pure_eq_ok.mp hs₁]
    unfold activationReservation at hreserved
    split at hreserved
    · rw [← Except.ok.inj hreserved]
    · exact reserveAssignmentLiability_books hreserved
  rcases ite_eq_ok.mp h with ⟨_, h⟩ | ⟨_, h⟩
  · rw [← pure_eq_ok.mp h]
    exact hbooks
  · rw [← pure_eq_ok.mp h]
    exact hbooks

end

section

variable [Hashing] {s s' : Store}

theorem applyIfFunded_books {request : CampaignChangeRequest} {campaign : Campaign}
    {review : Option Review} {now : Int}
    (h : applyIfFunded request campaign review now s = .ok s') : s'.books = s.books := by
  simp only [applyIfFunded, bind_eq_ok] at h
  rcases h with ⟨_, _, _, _, h⟩
  rcases ite_eq_ok.mp h with ⟨_, h⟩ | ⟨_, h⟩
  · rw [← pure_eq_ok.mp h]
    rfl
  · simp only [bind_eq_ok, pure_eq_ok] at h
    rcases h with ⟨_, _, _, _, _, _, rfl⟩
    rfl

theorem requestCampaignChange_books {authorized : Except AppError Unit} {campaignId : Id}
    {payload : CampaignChangeCreate} {now : Int}
    (h : requestCampaignChange authorized campaignId payload now s = .ok s') :
    s'.books = s.books := by
  simp only [requestCampaignChange, bind_eq_ok] at h
  rcases h with ⟨_, _, campaign, _, h⟩
  split at h
  · simp only [bind_eq_ok, pure_eq_ok] at h
    rcases h with ⟨_, _, rfl⟩
    rfl
  · simp only [bind_eq_ok] at h
    rcases h with ⟨_, _, preview, _, _, _, _, _, _, _, h⟩
    rcases ite_eq_ok.mp h with ⟨_, h⟩ | ⟨_, h⟩
    · rw [← pure_eq_ok.mp h]
      rfl
    · exact (applyIfFunded_books h).trans rfl

theorem decideCampaignChange_books {authorized : Except AppError Unit} {requestId : Id}
    {approve : Bool} {review : Review} {now : Int}
    (h : decideCampaignChange authorized requestId approve review now s = .ok s') :
    s'.books = s.books := by
  simp only [decideCampaignChange, bind_eq_ok] at h
  rcases h with ⟨_, _, request, _, campaign, _, h⟩
  split at h
  · rw [← pure_eq_ok.mp h]
  · simp only [bind_eq_ok, pure_eq_ok] at h
    rcases h with ⟨_, _, rfl⟩
    rfl
  · rcases ite_eq_ok.mp h with ⟨_, h⟩ | ⟨_, h⟩
    · exact applyIfFunded_books h
    · simp only [bind_eq_ok, pure_eq_ok] at h
      rcases h with ⟨_, _, rfl⟩
      rfl

/-! ## Every step -/

/-- Drafting, issuing and correcting invoices. -/
def BillingAction.invoices : BillingAction → Bool
  | .createInvoiceDraft .. | .issueInvoice .. | .correctInvoice .. => true
  | _ => false

theorem billingStep_invoices {a : BillingAction} (ha : a.invoices = true)
    (h : billingStep s a = .ok s') :
    s' = { s with invoices := s'.invoices, corrections := s'.corrections } := by
  cases a with
  | createInvoiceDraft authorized invoiceId termsId =>
      simp only [billingStep, createInvoiceDraft, bind_eq_ok] at h
      rcases h with ⟨_, _, terms, _, h⟩
      split at h
      · rw [← pure_eq_ok.mp h]
      · rcases bind_eq_ok.mp h with ⟨_, _, h⟩
        rw [← pure_eq_ok.mp h]
  | issueInvoice authorized issuer invoiceId =>
      simp only [billingStep, issueInvoice, bind_eq_ok] at h
      rcases h with ⟨_, _, invoice, _, h⟩
      rcases ite_eq_ok.mp h with ⟨_, h⟩ | ⟨_, h⟩
      · rw [← pure_eq_ok.mp h]
      · simp only [bind_eq_ok, pure_eq_ok] at h
        rcases h with ⟨_, _, _, _, rfl⟩
        rfl
  | correctInvoice authorized invoiceId facts fingerprint =>
      simp only [billingStep, recordInvoiceCorrection, bind_eq_ok] at h
      rcases h with ⟨_, _, invoice, _, _, _, _, _, _, _, _, _, h⟩
      split at h
      · simp only [bind_eq_ok, pure_eq_ok] at h
        rcases h with ⟨_, _, rfl⟩
        rfl
      · simp only [bind_eq_ok, pure_eq_ok] at h
        rcases h with ⟨_, _, _, _, rfl⟩
        rfl
  | _ => cases ha

/-- Authorities, waivers, the start of production and the receipt of events. -/
def BillingAction.authorizes : BillingAction → Bool
  | .ingestEvent .. | .authorizePrepaid .. | .authorizeCredit .. | .waive .. | .startProduction .. =>
      true
  | _ => false

theorem billingStep_authorizes {a : BillingAction} (ha : a.authorizes = true)
    (h : billingStep s a = .ok s') :
    s' = { s with
      gatewayEvents := s'.gatewayEvents
      authorizations := s'.authorizations
      authorizationAllocations := s'.authorizationAllocations
      waivers := s'.waivers
      productionStarts := s'.productionStarts } := by
  cases a with
  | ingestEvent verified event =>
      simp only [billingStep, ingestVerifiedPaymentEvent, bind_eq_ok, pure_eq_ok] at h
      rcases h with ⟨_, _, _, _, rfl⟩
      rfl
  | authorizePrepaid authorized campaignId authorizationId maxDriverLiability reason now =>
      simp only [billingStep, recordPrepaidCashAuthorization, bind_eq_ok] at h
      rcases h with ⟨_, _, _, _, _, _, _, _, _, _, _, _, h⟩
      rw [appendFinancialAuthorization_frame h]
  | authorizeCredit authorized campaignId authorizationId facts now =>
      simp only [billingStep, recordApprovedCreditAuthorization, bind_eq_ok] at h
      rcases h with ⟨_, _, _, _, _, _, _, _, _, _, h⟩
      rw [appendFinancialAuthorization_frame h]
  | waive authorized campaignId waiverId now =>
      simp only [billingStep, recordExpeditedProductionWaiver, bind_eq_ok] at h
      rcases h with ⟨_, _, _, _, _, _, h⟩
      rcases ite_eq_ok.mp h with ⟨_, h⟩ | ⟨_, h⟩
      · rw [← pure_eq_ok.mp h]
      · rw [← pure_eq_ok.mp h]
  | startProduction authorized campaignId productionStartId waiverId now =>
      simp only [billingStep, recordProductionStart, bind_eq_ok] at h
      rcases h with ⟨_, _, _, _, _, _, h⟩
      split at h
      · rw [← pure_eq_ok.mp h]
      · simp only [bind_eq_ok, pure_eq_ok] at h
        rcases h with ⟨_, _, _, _, _, _, rfl⟩
        rfl
  | _ => cases ha

/-- Funding, assignments, changes of a campaign and the receipt of events move no money. -/
def BillingAction.movesNoMoney : BillingAction → Bool
  | .writeCampaign .. | .ingestEvent .. | .authorizePrepaid .. | .authorizeCredit .. | .waive ..
  | .startProduction .. | .offerAssignment .. | .acceptAssignment .. | .closeAssignment ..
  | .activate .. | .requestChange .. | .decideChange .. => true
  | _ => false

theorem billingStep_books {a : BillingAction} (ha : a.movesNoMoney = true)
    (h : billingStep s a = .ok s') : s'.books = s.books := by
  cases a with
  | writeCampaign campaign =>
      rw [← Except.ok.inj h]
      unfold writeCampaign
      split_ifs <;> rfl
  | ingestEvent | authorizePrepaid | authorizeCredit | waive | startProduction =>
      exact (congrArg Store.books (billingStep_authorizes rfl h)).trans rfl
  | offerAssignment authorized assignmentId campaignId =>
      simp only [billingStep, offerAssignment, bind_eq_ok, pure_eq_ok] at h
      rcases h with ⟨_, _, _, _, _, _, rfl⟩
      rfl
  | acceptAssignment authorized binding =>
      simp only [billingStep, acceptAssignment, bind_eq_ok, pure_eq_ok] at h
      rcases h with ⟨_, _, _, _, _, _, _, _, _, _, rfl⟩
      rfl
  | closeAssignment authorized assignmentId status =>
      simp only [billingStep, closeAssignment, bind_eq_ok, pure_eq_ok] at h
      rcases h with ⟨_, _, _, _, rfl⟩
      rfl
  | activate => exact activateAssignment_books h
  | requestChange => exact requestCampaignChange_books h
  | decideChange => exact decideCampaignChange_books h
  | _ => cases ha

/-- A step acts on the cash book, and adds allocations only where its action funds. -/
theorem billingStep_cash (hb : CashInv s.cash) {a : BillingAction} (h : billingStep s a = .ok s') :
    CashStep s s' (fun t => Funds s t a) := by
  cases a with
  | acceptTerms authorized terms =>
      simp only [billingStep, acceptTerms, bind_eq_ok, pure_eq_ok] at h
      rcases h with ⟨_, _, _, _, _, _, _, _, _, _, _, _, rfl⟩
      exact .of_eq rfl
  | createInvoiceDraft | issueInvoice | correctInvoice =>
      exact .of_eq ((congrArg Store.cash (billingStep_invoices rfl h)).trans rfl)
  | recordReceipt actor receiptId facts =>
      rcases map_eq_ok.mp h with ⟨out, hout, rfl⟩
      rcases recorded_allocations hout with ⟨hwrites, hframe⟩
      refine ⟨.inl hwrites, fun row hrow => .inl ?_, .inl (by rw [hframe])⟩
      rw [hframe] at hrow
      exact hrow
  | confirmReceipt authorized receiptId expectedAmount expectedCurrency now =>
      rcases map_eq_ok.mp h with ⟨out, hout, rfl⟩
      rcases (confirmPaymentReceipt_eq hout).2 with hsame | ⟨hwrite, hframe⟩
      · exact .of_eq (by rw [hsame])
      · exact .of_write hwrite (by rw [hframe])
  | allocateReceipt actor allocationId receiptId termsId amount now =>
      rcases map_eq_ok.mp h with ⟨out, hout, rfl⟩
      rcases allocatePaymentReceipt_eq hb hout with hsame | ⟨hwrite, hnew, row, hrow, hout⟩
      · exact .of_eq (by rw [hsame])
      · refine ⟨.inl (.single hwrite), ?_, .inr hwrite⟩
        intro other hother
        rw [hout] at hother
        rcases List.mem_append.mp hother with hother | hother
        · exact .inl hother
        · rw [List.mem_singleton.mp hother, hrow]
          exact .inr ⟨⟨rfl, hnew⟩, .single hwrite⟩
  | reverseReceipt authorized receiptId reason now =>
      rcases reversePaymentReceipt_eq h with hsame | ⟨hreversal, hframe⟩
      · exact .of_eq (by rw [hsame])
      · -- the reversal is the only step that is no chain of writes
        refine ⟨.inr hreversal, fun row hrow => .inl ?_, .inl (by rw [hframe])⟩
        rw [hframe] at hrow
        exact hrow
  | bankTransfer => exact processManualBankTransfer_cash hb h
  | processEvent => exact processPaymentGatewayEvent_cash hb h
  | cancelCampaign authorized complaint campaignId request now =>
      rcases requestCampaignCancellation_eq h with hsame | ⟨hwrite, _, row, _, hframe⟩
      · exact .of_eq (by rw [hsame])
      · exact .of_write hwrite (by rw [hframe]; rfl)
  | recordRefund authorized termsId receiptId facts =>
      rcases recordRefundSettlement_eq h with hsame | ⟨hwrite, hframe⟩
      · exact .of_eq (by rw [hsame])
      · exact .of_write hwrite (by rw [hframe])
  | settleCredit authorized termsId settlementProvider externalReference reason =>
      rcases recordCreditContractSettlement_eq h with hsame | ⟨hwrite, hframe⟩
      · exact .of_eq (by rw [hsame])
      · exact .of_write hwrite (by rw [hframe])
  | writeCampaign | ingestEvent | authorizePrepaid | authorizeCredit | waive | startProduction
  | offerAssignment | acceptAssignment | closeAssignment | activate | requestChange | decideChange =>
      exact .of_eq (congrArg Prod.fst (billingStep_books rfl h))

theorem cashInv_init : CashInv (billing.init : Store).cash where
  sequence := by simp [billing, Store.cash]
  receiptKeys := List.nodup_nil
  receiptAmounts := by simp [billing, Store.cash]
  pairs := List.nodup_nil
  allocations := by simp [billing, Store.cash]
  cancellationKeys := List.nodup_nil
  cancellationAmounts := by simp [billing, Store.cash]
  refunds := by simp [billing, Store.cash]

theorem refundsBounded_init : RefundsBounded (billing.init : Store).cash where
  cancellations := by simp [billing, Store.cash]
  receipts := by simp [billing, Store.cash]
  allocations := by simp [billing, Store.cash]

/-- The cash book is in order in every reachable state. -/
theorem cashInv_of_reachable (h : Reachable billing s) : CashInv s.cash := by
  refine h.invariant (fun s => CashInv s.cash) cashInv_init ?_
  intro x a x' hb _ hstep
  exact (billingStep_cash hb hstep).inv hb

theorem refundsBounded_of_reachable (h : Reachable billing s) : RefundsBounded s.cash := by
  refine h.invariant_of (fun s => CashInv s.cash) (fun _ => cashInv_of_reachable)
    (fun s => RefundsBounded s.cash) refundsBounded_init ?_
  intro x a x' hb hbounded _ hstep
  exact (billingStep_cash hb hstep).bounded hb hbounded

end

end Billing
end Mobility
