import Mobility.Billing.Refunds

/-!
# Receivables — receipts are never over-allocated, terms never over-funded

Manual and gateway payments end in the same allocation, which is the only writer of
allocations and checks both totals.  Invoices and their correction notes move the
obligation, never below zero.
-/

namespace Mobility
namespace Billing

open Lib
open CashBook

variable {s s' : Store}

/-! ## What an allocation is measured against -/

/-- All that was ever allocated of a receipt. -/
def allocatedOf (s : Store) (receiptId : Id) : Int :=
  total (·.receiptId = receiptId) (·.amount) s.allocations

/-- The allocation is within its receipt and within the obligation of its terms. -/
structure Fits (s : Store) (row : ReceiptAllocation) : Prop where
  receipt : ∃ receipt ∈ s.receipts, receipt.id = row.receiptId
    ∧ allocatedOf s receipt.id ≤ receipt.amount
  terms : ∃ obligation, effectiveInvoiceObligation s row.commercialTermsId = .ok obligation
    ∧ activeCash s row.commercialTermsId ≤ obligation

theorem activeCash_eq_total (s : Store) (termsId : Id) :
    activeCash s termsId = total (ActiveAllocation s termsId) (·.amount) s.allocations :=
  ((List.perm_insertionSort _ _).map _).sum_eq

theorem activeCash_append (s : Store) {row : ReceiptAllocation} (h : 0 ≤ row.amount)
    (termsId : Id) :
    activeCash { s with allocations := s.allocations ++ [row] } termsId
      ≤ activeCash s termsId + row.amount := by
  rw [activeCash_eq_total, activeCash_eq_total, total_append]
  have hrow : total (ActiveAllocation s termsId) (·.amount) [row] ≤ row.amount := by
    rw [total_cons, total_nil]
    split_ifs
    · exact (add_zero _).le
    · exact (add_zero _).trans_le h
  exact Int.add_le_add_left hrow _

theorem allocatePaymentReceipt_fits {actor : Actor} {allocationId receiptId termsId : Id}
    {amount : ℚ} {now : Int} {out : Store × ReceiptAllocation}
    (h : allocatePaymentReceipt actor allocationId receiptId termsId amount now s = .ok out) :
    out.1 = s ∨ ∃ row, out.1 = { s with allocations := s.allocations ++ [row] }
      ∧ Fits out.1 row := by
  rcases bind_eq_ok.mp h with ⟨terms, _, h⟩
  rcases bind_eq_ok.mp h with ⟨receipt, hreceipt, h⟩
  simp only [bind_eq_ok] at h
  rcases h with ⟨_, _, _, _, _, _, _, _, _, _, value, hvalue, _, _, h⟩
  split at h
  · rcases bind_eq_ok.mp h with ⟨_, _, h⟩
    cases h
    exact .inl rfl
  · rcases bind_eq_ok.mp h with ⟨_, hfits, h⟩
    rcases bind_eq_ok.mp h with ⟨_, _, h⟩
    cases h
    rcases bind_eq_ok.mp hfits with ⟨_, hwithin, hfits⟩
    rcases bind_eq_ok.mp hfits with ⟨obligation, hobligation, hcovered⟩
    refine .inr ⟨_, rfl, ⟨receipt, (mem_of_lookup (demand_eq_ok.mp hreceipt)).1, rfl, ?_⟩,
      obligation, hobligation, ?_⟩
    · calc allocatedOf _ receipt.id
          = total (·.receiptId = receipt.id) (·.amount) s.allocations + value := by
            simp [allocatedOf, total_append, total_cons, total_nil]
        _ ≤ receipt.amount := require_eq_ok.mp hwithin
    · exact (activeCash_append s (money_nonneg hvalue) terms.id).trans (require_eq_ok.mp hcovered)

/-! ## What a step writes -/

/-- The receipt is new, by id and by payment. -/
def NewReceipt (s : Store) (row : PaymentReceipt) : Prop :=
  ∀ other ∈ s.receipts, other.id ≠ row.id
    ∧ other.externalTransactionId ≠ row.externalTransactionId

/-- A payment writes at most one receipt and one allocation. -/
structure PaymentWrite (s s' : Store) : Prop where
  terms : s'.commercialTerms = s.commercialTerms
  invoices : s'.invoices = s.invoices
  corrections : s'.corrections = s.corrections
  receipts : s'.receipts = s.receipts ∨ ∃ row, s'.receipts = s.receipts ++ [row] ∧ NewReceipt s row
  allocations : s'.allocations = s.allocations
    ∨ ∃ row, s'.allocations = s.allocations ++ [row] ∧ Fits s' row

theorem PaymentWrite.of_frame (hterms : s'.commercialTerms = s.commercialTerms)
    (hinvoices : s'.invoices = s.invoices) (hcorrections : s'.corrections = s.corrections)
    (hreceipts : s'.receipts = s.receipts) (hallocations : s'.allocations = s.allocations) :
    PaymentWrite s s' :=
  ⟨hterms, hinvoices, hcorrections, .inl hreceipts, .inl hallocations⟩

theorem PaymentWrite.refl (s : Store) : PaymentWrite s s :=
  .of_frame rfl rfl rfl rfl rfl

/-- A payment that allocates nothing, followed by its allocation. -/
theorem PaymentWrite.allocate {s₁ : Store} (h : PaymentWrite s s₁)
    (hnone : s₁.allocations = s.allocations) {row : ReceiptAllocation}
    (hs' : s' = { s₁ with allocations := s₁.allocations ++ [row] }) (hfits : Fits s' row) :
    PaymentWrite s s' := by
  refine ⟨?_, ?_, ?_, ?_, .inr ⟨row, ?_, hfits⟩⟩
  · rw [hs']
    exact h.terms
  · rw [hs']
    exact h.invoices
  · rw [hs']
    exact h.corrections
  · rw [hs']
    exact h.receipts
  · rw [hs', hnone]

/-- One step of billing, as far as receivables go. -/
inductive ReceivableWrite (s s' : Store) : Prop
  | payment (write : PaymentWrite s s')
  | terms (row : CommercialTerms) (nonneg : 0 ≤ row.grossAmount)
      (new : ∀ other ∈ s.commercialTerms, other.id ≠ row.id)
      (hs' : s'.commercialTerms = s.commercialTerms ++ [row] ∧ s'.invoices = s.invoices
        ∧ s'.corrections = s.corrections ∧ s'.receipts = s.receipts
        ∧ s'.allocations = s.allocations)
  | draft (row : Invoice) (terms : CommercialTerms) (mem : terms ∈ s.commercialTerms)
      (of : row.commercialTermsId = terms.id) (amount : row.grossAmount = terms.grossAmount)
      (new : ∀ other ∈ s.invoices, other.id ≠ row.id)
      (hs' : s' = { s with invoices := s.invoices ++ [row] })
  | issued (invoiceId : Id)
      (hs' : s' = { s with invoices := s.invoices.map (fun row =>
        if row.id = invoiceId then { row with status := .issued } else row) })
  | correction (row : InvoiceCorrection) (invoice : Invoice) (mem : invoice ∈ s.invoices)
      (of : row.invoiceId = invoice.id) (positive : 0 < row.grossAmount)
      (covered : row.correctionType = .creditNote →
        correctionTotal s invoice.id .creditNote + row.grossAmount
          ≤ invoice.grossAmount + correctionTotal s invoice.id .debitNote)
      (hs' : s' = { s with corrections := s.corrections ++ [row] })

theorem recordPaymentReceipt_payment {actor : Actor} {receiptId : Id} {facts : ReceiptFacts}
    {out : Store × PaymentReceipt} (h : recordPaymentReceipt actor receiptId facts s = .ok out) :
    PaymentWrite s out.1 ∧ out.1.allocations = s.allocations := by
  rcases bind_eq_ok.mp h with ⟨_, _, h⟩
  rcases bind_eq_ok.mp h with ⟨_, _, h⟩
  rcases bind_eq_ok.mp h with ⟨_, _, h⟩
  rcases bind_eq_ok.mp h with ⟨_, _, h⟩
  dsimp only at h
  split at h
  · rcases bind_eq_ok.mp h with ⟨_, _, h⟩
    cases h
    exact ⟨.refl s, rfl⟩
  · rename_i hnone
    rcases bind_eq_ok.mp h with ⟨_, hnew, h⟩
    rcases bind_eq_ok.mp h with ⟨s₁, hevent, h⟩
    cases h
    rcases appendReceiptEvent_eq hevent with ⟨event, _, _, _, rfl⟩
    refine ⟨⟨rfl, rfl, rfl, .inr ⟨_, rfl, ?_⟩, .inl rfl⟩, rfl⟩
    intro other hother
    exact ⟨require_eq_ok.mp hnew other hother, lookup_eq_none.mp hnone other hother⟩

theorem PaymentWrite.events {s₁ : Store} (h : PaymentWrite s s₁ ∧ s₁.allocations = s.allocations)
    {events : List ReceiptLifecycleEvent} :
    PaymentWrite s { s₁ with receiptEvents := events }
      ∧ ({ s₁ with receiptEvents := events } : Store).allocations = s.allocations :=
  ⟨⟨h.1.terms, h.1.invoices, h.1.corrections, h.1.receipts, .inl h.2⟩, h.2⟩

theorem confirmPaymentReceipt_payment {authorized : Except AppError Unit} {receiptId : Id}
    {expectedAmount : ℚ} {expectedCurrency : String} {now : Int} {s₁ : Store} {out : Store × Bool}
    (hs : PaymentWrite s s₁ ∧ s₁.allocations = s.allocations)
    (h : confirmPaymentReceipt authorized receiptId expectedAmount expectedCurrency now s₁
      = .ok out) :
    PaymentWrite s out.1 ∧ out.1.allocations = s.allocations := by
  rcases (confirmPaymentReceipt_eq h).2 with hsame | ⟨_, hframe⟩
  · rw [hsame]
    exact hs
  · rw [hframe]
    exact PaymentWrite.events hs

theorem allocatePaymentReceipt_payment {actor : Actor} {allocationId receiptId termsId : Id}
    {amount : ℚ} {now : Int} {s₁ : Store} {out : Store × ReceiptAllocation}
    (hs : PaymentWrite s s₁ ∧ s₁.allocations = s.allocations)
    (h : allocatePaymentReceipt actor allocationId receiptId termsId amount now s₁ = .ok out) :
    PaymentWrite s out.1 := by
  rcases allocatePaymentReceipt_fits h with hsame | ⟨row, hout, hfits⟩
  · rw [hsame]
    exact hs.1
  · exact hs.1.allocate hs.2 hout hfits

theorem processManualBankTransfer_payment {authorized : Except AppError Unit}
    {receiptId allocationId termsId : Id} {transfer : BankTransfer} {now : Int}
    (h : processManualBankTransfer authorized receiptId allocationId termsId transfer now s
      = .ok s') : PaymentWrite s s' := by
  rcases bind_eq_ok.mp h with ⟨_, _, h⟩
  rcases bind_eq_ok.mp h with ⟨recorded, hrecorded, h⟩
  rcases bind_eq_ok.mp h with ⟨confirmed, hconfirmed, h⟩
  have hs := confirmPaymentReceipt_payment (recordPaymentReceipt_payment hrecorded) hconfirmed
  rcases ite_eq_ok.mp h with ⟨_, h⟩ | ⟨_, h⟩
  · rcases bind_eq_ok.mp h with ⟨allocated, hallocated, h⟩
    cases h
    exact allocatePaymentReceipt_payment hs hallocated
  · cases h
    exact hs.1

/-- An attempt is written beside the receivables. -/
theorem PaymentWrite.attempt {s₁ : Store} (h : PaymentWrite s s₁) {eventId : Id} {outcome : String}
    {allocationId : Option Id} : PaymentWrite s (recordAttempt eventId outcome allocationId s₁) := by
  refine ⟨h.terms, h.invoices, h.corrections, h.receipts, ?_⟩
  rcases h.allocations with hsame | ⟨row, hrow, hfits⟩
  · exact .inl hsame
  · exact .inr ⟨row, hrow, hfits.receipt, hfits.terms⟩

theorem processPaymentGatewayEvent_payment {checkoutBinding : Except AppError Unit}
    {eventId receiptId allocationId : Id} {now : Int}
    (h : processPaymentGatewayEvent checkoutBinding eventId receiptId allocationId now s
      = .ok s') : PaymentWrite s s' := by
  rcases bind_eq_ok.mp h with ⟨event, _, h⟩
  rcases ite_eq_ok.mp h with ⟨_, h⟩ | ⟨_, h⟩
  · cases h
    exact .refl s
  · rcases ite_eq_ok.mp h with ⟨_, h⟩ | ⟨_, h⟩
    · cases h
      exact (PaymentWrite.refl s).attempt
    · simp only [bind_eq_ok] at h
      rcases h with ⟨_, _, terms, _, _, _, recorded, hrecorded, s₁, hconfirmed, obligation, _, h⟩
      have hs : PaymentWrite s s₁ ∧ s₁.allocations = s.allocations := by
        rw [(confirmVerifiedGatewayReceipt_eq hconfirmed).2]
        exact PaymentWrite.events (recordPaymentReceipt_payment hrecorded)
      rcases ite_eq_ok.mp h with ⟨_, h⟩ | ⟨_, h⟩
      · rcases bind_eq_ok.mp h with ⟨allocated, hallocated, h⟩
        cases h
        exact (allocatePaymentReceipt_payment hs hallocated).attempt
      · cases h
        exact hs.1.attempt

theorem recordInvoiceCorrection_receivables {authorized : Except AppError Unit} {invoiceId : Id}
    {facts : CorrectionFacts} {fingerprint : Payout.Digest}
    (h : recordInvoiceCorrection authorized invoiceId facts fingerprint s = .ok s') :
    ReceivableWrite s s' := by
  rcases bind_eq_ok.mp h with ⟨_, _, h⟩
  rcases bind_eq_ok.mp h with ⟨invoice, hinvoice, h⟩
  rcases bind_eq_ok.mp h with ⟨_, _, h⟩
  rcases bind_eq_ok.mp h with ⟨net, _, h⟩
  rcases bind_eq_ok.mp h with ⟨tax, _, h⟩
  rcases bind_eq_ok.mp h with ⟨_, hpositive, h⟩
  split at h
  · rcases bind_eq_ok.mp h with ⟨_, _, h⟩
    cases h
    exact .payment (.refl s)
  · rcases bind_eq_ok.mp h with ⟨_, _, h⟩
    rcases bind_eq_ok.mp h with ⟨_, hcovered, h⟩
    cases h
    rcases mem_of_lookup (demand_eq_ok.mp hinvoice) with ⟨hmem, hid⟩
    subst hid
    exact .correction _ invoice hmem rfl (require_eq_ok.mp hpositive).1
      (require_eq_ok.mp hcovered) rfl

/-- What the other books say of the receivables. -/
theorem PaymentWrite.of_books (h : s'.books = s.books) : PaymentWrite s s' := by
  simp only [Store.books, Store.cash, Prod.mk.injEq, CashBook.mk.injEq] at h
  exact .of_frame h.2.1 h.2.2.1 h.2.2.2 h.1.1 h.1.2.2.1

theorem billingStep_receivables [Hashing] {a : BillingAction} (h : billingStep s a = .ok s') :
    ReceivableWrite s s' := by
  cases a with
  | acceptTerms authorized terms =>
      simp only [billingStep, acceptTerms, bind_eq_ok, pure_eq_ok] at h
      rcases h with ⟨_, _, _, _, _, _, _, _, _, hnew, _, hnonneg, rfl⟩
      exact .terms terms (require_eq_ok.mp hnonneg) (require_eq_ok.mp hnew) ⟨rfl, rfl, rfl, rfl, rfl⟩
  | createInvoiceDraft authorized invoiceId termsId =>
      rcases bind_eq_ok.mp h with ⟨_, _, h⟩
      rcases bind_eq_ok.mp h with ⟨terms, hterms, h⟩
      split at h
      · cases h
        exact .payment (.refl s)
      · rcases bind_eq_ok.mp h with ⟨_, hnew, h⟩
        cases h
        exact .draft _ terms (mem_of_lookup (demand_eq_ok.mp hterms)).1 rfl rfl
          (require_eq_ok.mp hnew) rfl
  | issueInvoice authorized issuer invoiceId =>
      rcases bind_eq_ok.mp h with ⟨_, _, h⟩
      rcases bind_eq_ok.mp h with ⟨invoice, _, h⟩
      rcases ite_eq_ok.mp h with ⟨_, h⟩ | ⟨_, h⟩
      · cases h
        exact .payment (.refl s)
      · rcases bind_eq_ok.mp h with ⟨_, _, h⟩
        rcases bind_eq_ok.mp h with ⟨_, _, h⟩
        cases h
        exact .issued invoiceId rfl
  | correctInvoice => exact recordInvoiceCorrection_receivables h
  | recordReceipt actor receiptId facts =>
      rcases map_eq_ok.mp h with ⟨out, hout, rfl⟩
      exact .payment (recordPaymentReceipt_payment hout).1
  | confirmReceipt authorized receiptId expectedAmount expectedCurrency now =>
      rcases map_eq_ok.mp h with ⟨out, hout, rfl⟩
      exact .payment (confirmPaymentReceipt_payment ⟨.refl s, rfl⟩ hout).1
  | allocateReceipt actor allocationId receiptId termsId amount now =>
      rcases map_eq_ok.mp h with ⟨out, hout, rfl⟩
      exact .payment (allocatePaymentReceipt_payment ⟨.refl s, rfl⟩ hout)
  | reverseReceipt authorized receiptId reason now =>
      rcases reversePaymentReceipt_eq h with rfl | ⟨_, hframe⟩
      · exact .payment (.refl s')
      · rw [hframe]
        exact .payment (PaymentWrite.events ⟨.refl s, rfl⟩).1
  | bankTransfer => exact .payment (processManualBankTransfer_payment h)
  | processEvent => exact .payment (processPaymentGatewayEvent_payment h)
  | cancelCampaign authorized complaint campaignId request now =>
      rcases requestCampaignCancellation_eq h with rfl | ⟨_, _, row, _, hframe⟩
      · exact .payment (.refl s')
      · rw [hframe]
        exact .payment (.of_frame rfl rfl rfl rfl rfl)
  | recordRefund authorized termsId receiptId facts =>
      rcases recordRefundSettlement_eq h with rfl | ⟨_, hframe⟩
      · exact .payment (.refl s')
      · rw [hframe]
        exact .payment (.of_frame rfl rfl rfl rfl rfl)
  | settleCredit authorized termsId settlementProvider externalReference reason =>
      rcases recordCreditContractSettlement_eq h with rfl | ⟨_, hframe⟩
      · exact .payment (.refl s')
      · rw [hframe]
        exact .payment (.of_frame rfl rfl rfl rfl rfl)
  | writeCampaign | ingestEvent | authorizePrepaid | authorizeCredit | waive | startProduction
  | offerAssignment | acceptAssignment | closeAssignment | activate | requestChange | decideChange =>
      exact .payment (.of_books (billingStep_books rfl h))

/-! ## The invariant -/

/-- The invoice with its notes. -/
def invoiceObligation (s : Store) (invoice : Invoice) : Int :=
  invoice.grossAmount + total (·.invoiceId = invoice.id) signedCorrection s.corrections

structure ReceivableInv (s : Store) : Prop where
  references : (s.receipts.map (·.externalTransactionId)).Nodup
  allocated : ∀ receipt ∈ s.receipts, allocatedOf s receipt.id ≤ receipt.amount
  terms : ∀ terms ∈ s.commercialTerms, 0 ≤ terms.grossAmount
  invoiceKeys : (s.invoices.map (·.id)).Nodup
  corrections : ∀ row ∈ s.corrections, ∃ invoice ∈ s.invoices, invoice.id = row.invoiceId
  obligations : ∀ invoice ∈ s.invoices, 0 ≤ invoiceObligation s invoice

/-- Debit notes less credit notes. -/
theorem signedCorrections_eq (s : Store) (invoiceId : Id) :
    total (·.invoiceId = invoiceId) signedCorrection s.corrections
      = correctionTotal s invoiceId .debitNote - correctionTotal s invoiceId .creditNote := by
  unfold correctionTotal
  induction s.corrections with
  | nil => rfl
  | cons row rows ih =>
      simp only [total_cons, ih]
      cases hkind : row.correctionType with
      | creditNote => by_cases hmine : row.invoiceId = invoiceId <;> simp [signedCorrection, hkind, hmine]; ring
      | debitNote => by_cases hmine : row.invoiceId = invoiceId <;> simp [signedCorrection, hkind, hmine]; ring

/-- A receipt that no row was allocated from. -/
theorem allocatedOf_new (hb : CashInv s.cash) {receiptId : Id}
    (hnew : ∀ other ∈ s.receipts, other.id ≠ receiptId) : allocatedOf s receiptId = 0 := by
  refine total_eq_zero ?_
  intro row hrow
  rcases (hb.allocations row hrow).2.1 with ⟨receipt, hreceipt, hid⟩
  have hne : row.receiptId ≠ receiptId := hid ▸ hnew receipt hreceipt
  simpa using hne

theorem PaymentWrite.inv (hb : CashInv s.cash) (hb' : CashInv s'.cash) (hs : ReceivableInv s)
    (h : PaymentWrite s s') : ReceivableInv s' := by
  have hreceipts : ∀ receipt ∈ s'.receipts, allocatedOf s receipt.id ≤ receipt.amount := by
    intro receipt hreceipt
    rcases h.receipts with hsame | ⟨row, hrow, hnew⟩
    · exact hs.allocated receipt (hsame ▸ hreceipt)
    · have hmine := hreceipt
      rw [hrow] at hreceipt
      rcases List.mem_append.mp hreceipt with hold | hlast
      · exact hs.allocated receipt hold
      · rcases List.mem_singleton.mp hlast with rfl
        have hzero := allocatedOf_new hb (fun other hother => (hnew other hother).1)
        exact hzero.trans_le (hb'.receiptAmounts receipt hmine)
  refine ⟨?_, ?_, ?_, ?_, ?_, ?_⟩
  · rcases h.receipts with hsame | ⟨row, hrow, hnew⟩
    · rw [hsame]
      exact hs.references
    · rw [hrow]
      exact nodup_map_append hs.references (fun other hother => (hnew other hother).2)
  · intro receipt hreceipt
    rcases h.allocations with hsame | ⟨row, hrow, hfits⟩
    · rw [allocatedOf, hsame]
      exact hreceipts receipt hreceipt
    · rcases hfits.receipt with ⟨mine, hmine, hid, hwithin⟩
      by_cases hsame : receipt.id = row.receiptId
      · have heq : receipt = mine :=
          eq_of_key_eq hb'.receiptKeys hreceipt hmine (hsame.trans hid.symm)
        exact heq ▸ hwithin
      · -- the new row is of another receipt
        have hother : row.receiptId ≠ receipt.id := fun heq => hsame heq.symm
        calc allocatedOf s' receipt.id
            = allocatedOf s receipt.id := by
              simp [allocatedOf, hrow, total_append, total_cons, total_nil, hother]
          _ ≤ receipt.amount := hreceipts receipt hreceipt
  · rw [h.terms]
    exact hs.terms
  · rw [h.invoices]
    exact hs.invoiceKeys
  · rw [h.invoices, h.corrections]
    exact hs.corrections
  · intro invoice hinvoice
    rw [h.invoices] at hinvoice
    rw [invoiceObligation, h.corrections]
    exact hs.obligations invoice hinvoice

theorem total_of_no_row {invoiceId : Id} {rows : List InvoiceCorrection}
    (h : ∀ row ∈ rows, row.invoiceId ≠ invoiceId) :
    total (·.invoiceId = invoiceId) signedCorrection rows = 0 :=
  total_eq_zero (fun row hrow => by simpa using h row hrow)

theorem ReceivableWrite.inv (hb : CashInv s.cash) (hb' : CashInv s'.cash) (hs : ReceivableInv s)
    (h : ReceivableWrite s s') : ReceivableInv s' := by
  cases h with
  | payment write => exact write.inv hb hb' hs
  | terms row nonneg _ hs' =>
      rcases hs' with ⟨hterms, hinvoices, hcorrections, hreceipts, hallocations⟩
      refine ⟨hreceipts ▸ hs.references, ?_, ?_, hinvoices ▸ hs.invoiceKeys, ?_, ?_⟩
      · intro receipt hreceipt
        rw [allocatedOf, hallocations]
        exact hs.allocated receipt (hreceipts ▸ hreceipt)
      · intro terms hmem
        rw [hterms] at hmem
        rcases List.mem_append.mp hmem with hold | hlast
        · exact hs.terms terms hold
        · exact List.mem_singleton.mp hlast ▸ nonneg
      · rw [hcorrections, hinvoices]
        exact hs.corrections
      · intro invoice hinvoice
        rw [hinvoices] at hinvoice
        rw [invoiceObligation, hcorrections]
        exact hs.obligations invoice hinvoice
  | draft row terms mem of amount new hs' =>
      subst hs'
      refine ⟨hs.references, hs.allocated, hs.terms, nodup_map_append hs.invoiceKeys new, ?_, ?_⟩
      · intro correction hcorrection
        rcases hs.corrections correction hcorrection with ⟨invoice, hinvoice, hid⟩
        exact ⟨invoice, List.mem_append_left _ hinvoice, hid⟩
      · intro invoice hinvoice
        rcases List.mem_append.mp hinvoice with hold | hlast
        · exact hs.obligations invoice hold
        · -- a new invoice has no notes
          rw [List.mem_singleton.mp hlast]
          have hzero : total (·.invoiceId = row.id) signedCorrection s.corrections = 0 := by
            refine total_of_no_row ?_
            intro correction hcorrection
            rcases hs.corrections correction hcorrection with ⟨other, hother, hid⟩
            exact hid ▸ new other hother
          calc (0 : Int) ≤ row.grossAmount := amount ▸ hs.terms terms mem
            _ = row.grossAmount + total (·.invoiceId = row.id) signedCorrection s.corrections := by
              rw [hzero, add_zero]
  | issued invoiceId hs' =>
      subst hs'
      have hkeys : (s.invoices.map (fun row => if row.id = invoiceId then
          { row with status := .issued } else row)).map (·.id) = s.invoices.map (·.id) :=
        keys_of_map (fun row : Invoice => row.id) s.invoices _
          (fun row => by split_ifs <;> rfl)
      refine ⟨hs.references, hs.allocated, hs.terms, ?_, ?_, ?_⟩
      · rw [hkeys]
        exact hs.invoiceKeys
      · intro correction hcorrection
        rcases hs.corrections correction hcorrection with ⟨invoice, hinvoice, hid⟩
        have hmem := List.mem_map_of_mem (f := (·.id)) hinvoice
        rw [← hkeys] at hmem
        rcases List.mem_map.mp hmem with ⟨invoice', hinvoice', hid'⟩
        exact ⟨invoice', hinvoice', hid'.trans hid⟩
      · intro invoice' hinvoice'
        rcases List.mem_map.mp hinvoice' with ⟨invoice, hinvoice, rfl⟩
        have hsame := hs.obligations invoice hinvoice
        split_ifs
        · exact hsame
        · exact hsame
  | correction row invoice mem of positive covered hs' =>
      subst hs'
      refine ⟨hs.references, hs.allocated, hs.terms, hs.invoiceKeys, ?_, ?_⟩
      · intro correction hcorrection
        rcases List.mem_append.mp hcorrection with hold | hlast
        · exact hs.corrections correction hold
        · exact ⟨invoice, mem, of ▸ List.mem_singleton.mp hlast ▸ rfl⟩
      · intro other hother
        have hbefore := hs.obligations other hother
        by_cases hmine : row.invoiceId = other.id
        · have hsame : other = invoice :=
            eq_of_key_eq hs.invoiceKeys hother mem (hmine.symm.trans of)
          subst hsame
          have hadded : total (·.invoiceId = other.id) signedCorrection (s.corrections ++ [row])
              = total (·.invoiceId = other.id) signedCorrection s.corrections
                + signedCorrection row := by
            simp [total_append, total_cons, total_nil, hmine]
          have hnotes := signedCorrections_eq s other.id
          rw [invoiceObligation] at hbefore ⊢
          rw [hadded]
          cases hkind : row.correctionType with
          | creditNote =>
              have hcovered := covered hkind
              simp only [signedCorrection, hkind]
              omega
          | debitNote =>
              simp only [signedCorrection, hkind]
              omega
        · have hsame : total (·.invoiceId = other.id) signedCorrection (s.corrections ++ [row])
              = total (·.invoiceId = other.id) signedCorrection s.corrections := by
            have hnone : total (·.invoiceId = other.id) signedCorrection [row] = 0 :=
              total_of_no_row (fun x hx => List.mem_singleton.mp hx ▸ hmine)
            rw [total_append, hnone, add_zero]
          rw [invoiceObligation, hsame]
          exact hbefore

section

variable [Hashing]

theorem receivableInv_of_reachable (h : Reachable billing s) : ReceivableInv s := by
  refine h.invariant_of (fun s => CashInv s.cash) (fun _ => cashInv_of_reachable) ReceivableInv ?_ ?_
  · exact ⟨List.nodup_nil, List.forall_mem_nil _, List.forall_mem_nil _, List.nodup_nil,
      List.forall_mem_nil _, List.forall_mem_nil _⟩
  · intro x a x' hb hx _ hstep
    exact (billingStep_receivables hstep).inv hb ((billingStep_cash hb hstep).inv hb) hx

end

/-! ## Receipt money -/

/-- The confirmed receipts of a transaction reference. -/
def confirmedReceipts (s : Store) (reference : Payout.Reference) : List PaymentReceipt :=
  s.receipts.filter (fun row =>
    row.externalTransactionId = reference && HasEvent s row.id .confirmed)

/-- The allocations of the money that came with a transaction reference. -/
def allocationsOf (s : Store) (reference : Payout.Reference) : List ReceiptAllocation :=
  s.allocations.filter (fun row => s.receipts.any (fun receipt =>
    receipt.externalTransactionId = reference && receipt.id = row.receiptId))

theorem length_le_one_of_nodup {α κ : Type} {key : α → κ} {rows : List α} {p : α → Bool}
    (hnodup : (rows.map key).Nodup)
    (hsame : ∀ x ∈ rows, ∀ y ∈ rows, p x = true → p y = true → key x = key y) :
    (rows.filter p).length ≤ 1 := by
  cases hrows : rows.filter p with
  | nil => exact Nat.zero_le 1
  | cons x rest =>
      cases rest with
      | nil => exact le_refl 1
      | cons y rest =>
          have hkeys : ((rows.filter p).map key).Nodup := hnodup.sublist (List.filter_sublist.map key)
          have hx : x ∈ rows.filter p := by simp [hrows]
          have hy : y ∈ rows.filter p := by simp [hrows]
          rcases List.mem_filter.mp hx with ⟨hxmem, hxp⟩
          rcases List.mem_filter.mp hy with ⟨hymem, hyp⟩
          rw [hrows, List.map_cons, List.map_cons, List.nodup_cons] at hkeys
          exact absurd (hsame x hxmem y hymem hxp hyp ▸ List.mem_cons_self) hkeys.1

theorem ReceivableInv.confirmedReceipts_le (hs : ReceivableInv s) (reference : Payout.Reference) :
    (confirmedReceipts s reference).length ≤ 1 := by
  refine length_le_one_of_nodup hs.references ?_
  intro x _ y _ hx hy
  simp only [Bool.and_eq_true, decide_eq_true_eq] at hx hy
  exact hx.1.trans hy.1.symm

theorem ReceivableInv.allocationsOf_le (hb : CashInv s.cash) (hs : ReceivableInv s)
    (reference : Payout.Reference) (termsId : Id) :
    ((allocationsOf s reference).filter (·.commercialTermsId = termsId)).length ≤ 1 := by
  rw [allocationsOf, List.filter_filter]
  refine length_le_one_of_nodup hb.pairs ?_
  intro x _ y _ hx hy
  simp only [Bool.and_eq_true, decide_eq_true_eq, List.any_eq_true] at hx hy
  rcases hx with ⟨hxterms, receipt, hreceipt, href, hid⟩
  rcases hy with ⟨hyterms, receipt', hreceipt', href', hid'⟩
  have hsame : receipt = receipt' :=
    eq_of_key_eq hs.references hreceipt hreceipt' (href.trans href'.symm)
  exact Prod.ext (hid.symm.trans (hsame ▸ hid')) (hxterms.trans hyterms.symm)

/-- Accepted terms have an obligation that is not negative. -/
theorem ReceivableInv.obligation_nonneg (hs : ReceivableInv s) {termsId : Id} {obligation : Int}
    (h : effectiveInvoiceObligation s termsId = .ok obligation) : 0 ≤ obligation := by
  rcases bind_eq_ok.mp h with ⟨terms, hterms, h⟩
  split at h
  · cases h
    exact hs.terms terms (mem_of_lookup (demand_eq_ok.mp hterms)).1
  · rename_i invoice hinvoice
    cases h
    exact hs.obligations invoice (List.mem_of_find?_eq_some hinvoice)

/-- What a step that allocated was measured against. -/
theorem ReceivableWrite.fits (h : ReceivableWrite s s') {row : ReceiptAllocation}
    (hrow : row ∈ s'.allocations) (hnew : row ∉ s.allocations) : Fits s' row := by
  cases h with
  | payment write =>
      rcases write.allocations with hsame | ⟨added, hadded, hfits⟩
      · exact absurd (hsame ▸ hrow) hnew
      · rw [hadded] at hrow
        rcases List.mem_append.mp hrow with hold | hlast
        · exact absurd hold hnew
        · exact List.mem_singleton.mp hlast ▸ hfits
  | terms added nonneg new' hs' => exact absurd (hs'.2.2.2.2 ▸ hrow) hnew
  | draft added terms mem of amount new hs' =>
      subst hs'
      exact absurd hrow hnew
  | issued invoiceId hs' =>
      subst hs'
      exact absurd hrow hnew
  | correction added invoice mem of positive covered hs' =>
      subst hs'
      exact absurd hrow hnew

/-- No receipt is over-allocated, no terms are over-funded by an allocation, and the money of
one transaction reference is credited to any one terms at most once. -/
theorem receipt_money_credited_once [Hashing] :
    (∀ s, Reachable billing s →
      (∀ receipt ∈ s.receipts, allocatedOf s receipt.id ≤ receipt.amount)
      ∧ (∀ reference, (confirmedReceipts s reference).length ≤ 1)
      ∧ (∀ reference termsId,
        ((allocationsOf s reference).filter (·.commercialTermsId = termsId)).length ≤ 1)
      ∧ ∀ termsId obligation, effectiveInvoiceObligation s termsId = .ok obligation →
        0 ≤ obligation)
    ∧ ∀ s, Reachable billing s → ∀ a s', billingStep s a = .ok s' →
      ∀ row ∈ s'.allocations, row ∉ s.allocations →
        ∃ obligation, effectiveInvoiceObligation s' row.commercialTermsId = .ok obligation
          ∧ activeCash s' row.commercialTermsId ≤ obligation := by
  refine ⟨?_, ?_⟩
  · intro s hs
    have hb := cashInv_of_reachable hs
    have hr := receivableInv_of_reachable hs
    exact ⟨hr.allocated, hr.confirmedReceipts_le, hr.allocationsOf_le hb,
      fun _ _ h => hr.obligation_nonneg h⟩
  · intro s _ a s' hstep row hrow hnew
    exact ((billingStep_receivables hstep).fits hrow hnew).terms

/-! ## A payment for two campaigns -/

/-- A provider's confirmation of 100.00 for terms 1. -/
def sampleEvent : PaymentGatewayEvent :=
  { id := 1
    provider := "paystack"
    externalTransactionId := "T"
    eventType := "payment_confirmed"
    commercialTermsReference := some 1
    amount := 10000
    currency := "NGN"
    payerName := "payer"
    occurredAt := 5 }

def sampleCreditNote : CorrectionFacts :=
  { reference := "C", correctionType := .creditNote, netAmount := 40, taxAmount := 0, reason := "x" }

/-- A credit note of 40.00 comes between a checkout over 100.00 and its payment. -/
def overpaid : List BillingAction :=
  invoicedCampaign ++
    [ .correctInvoice (.ok ⟨⟩) 1 sampleCreditNote "c",
      .writeCampaign { id := 6, organizationId := 3, currency := "NGN" },
      .acceptTerms (.ok ⟨⟩) { sampleTerms with id := 2, campaignId := 6 },
      .createInvoiceDraft (.ok ⟨⟩) 2 2,
      .issueInvoice (.ok ⟨⟩) (.ok ⟨⟩) 2,
      .ingestEvent (.ok ⟨⟩) sampleEvent,
      .processEvent (.ok ⟨⟩) 1 1 1 10 ]

/-- An administrator allocates what is left to the other campaign. -/
def sampleRemainder : BillingAction :=
  .allocateReceipt (.admin (.ok ⟨⟩)) 2 1 2 40 20

theorem not_one_allocation_per_reference :
    ∃ s, Reachable (billing : Machine Store BillingAction AppError) s
      ∧ (confirmedReceipts s "paystack:T").length = 1
      ∧ (allocationsOf s "paystack:T").map (fun row => (row.commercialTermsId, row.amount))
        = [(1, 6000), (2, 4000)] := by
  rcases billing.exists_reachable (overpaid ++ [sampleRemainder]) (fun s =>
      decide ((confirmedReceipts s "paystack:T").length = 1)
        && decide ((allocationsOf s "paystack:T").map
          (fun row => (row.commercialTermsId, row.amount)) = [(1, 6000), (2, 4000)]))
    (by decide +kernel) with ⟨s, hs, htest⟩
  simp only [Bool.and_eq_true, decide_eq_true_eq] at htest
  exact ⟨s, hs, htest.1, htest.2⟩

theorem receipt_money_credited_once_overpaid :
    ∃ s s', Reachable billing s ∧ billingStep s sampleRemainder = .ok s'
      ∧ (∃ row ∈ s'.allocations, row ∉ s.allocations ∧ row.amount = 4000
        ∧ ∃ obligation, effectiveInvoiceObligation s' row.commercialTermsId = .ok obligation
          ∧ activeCash s' row.commercialTermsId ≤ obligation)
      ∧ (∀ receipt ∈ s'.receipts, allocatedOf s' receipt.id ≤ receipt.amount) := by
  rcases billing.exists_step overpaid sampleRemainder (fun s s' =>
      s'.allocations.any (fun row => decide (row ∉ s.allocations) && decide (row.amount = 4000)))
    (by decide +kernel) with ⟨s, s', hs, hstep, htest⟩
  rcases List.any_eq_true.mp htest with ⟨row, hrow, htest⟩
  simp only [Bool.and_eq_true, decide_eq_true_eq] at htest
  rcases receipt_money_credited_once with ⟨hstates, hsteps⟩
  exact ⟨s, s', hs, hstep,
    ⟨row, hrow, htest.1, htest.2, hsteps s hs sampleRemainder s' hstep row hrow htest.1⟩,
    (hstates s' (.step hs trivial hstep)).1⟩

end Billing
end Mobility
