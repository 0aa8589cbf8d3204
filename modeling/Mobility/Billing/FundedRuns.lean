import Mobility.Billing.FundingHistory

/-!
# FundedRuns — the refund window against what was held (`_refund_window`)

The running total counts reversed cash, and measures old allocations against the obligation
of today.  As long as neither makes an allocation the first to reach the obligation, every
instant that the refund window starts at is one at which the terms were fully funded.
-/

namespace Mobility
namespace Billing

open Lib

/-! ## What a history rests on -/

/-- In the state that a history ends in, refund windows start, and started, at instants of
full funding. -/
structure RestsOnFunding (m : Moment) (earlier : List Moment) : Prop where
  window : ∀ terms ∈ m.store.commercialTerms, m.store.productionStart? terms.campaignId = none →
    ∀ window, refundWindow terms m.store = .ok window →
      ∀ t, window.fundedAt = some t → FundedAt (m :: earlier) terms t
  never : ∀ terms ∈ m.store.commercialTerms, m.store.productionStart? terms.campaignId = none →
    ∀ window, refundWindow terms m.store = .ok window →
      (∀ t, ¬ FundedAt (m :: earlier) terms t) → window.fundedAt = none
  refunds : ∀ row ∈ m.store.cancellations, row.disposition = .cashRefundDue →
    row.productionStartId = none → ∃ terms ∈ m.store.commercialTerms,
      row.commercialTermsId = some terms.id
        ∧ ∃ t, row.fundingAuthorizedAt = some t ∧ FundedAt (m :: earlier) terms t

/-- What a step must respect for the running total to tell of cash that was held. -/
structure CountsHeldCash (s s' : Store) : Prop where
  /-- a new allocation is stamped no earlier than the others of its terms -/
  inOrder : ∀ row ∈ s'.allocations, row ∉ s.allocations →
    ∀ other ∈ termsAllocations s row.commercialTermsId, other.allocatedAt ≤ row.allocatedAt
  /-- where it brings the running total to the obligation, the active cash gets there too -/
  completed : ∀ row ∈ s'.allocations, row ∉ s.allocations →
    ∀ obligation, effectiveInvoiceObligation s row.commercialTermsId = .ok obligation →
      allocatedToTerms s row.commercialTermsId < obligation →
      obligation ≤ allocatedToTerms s row.commercialTermsId + row.amount →
        obligation ≤ activeCash s row.commercialTermsId + row.amount
  /-- an obligation moves above all that was allocated, or past none of the running totals -/
  unmoved : ∀ termsId obligation obligation',
    effectiveInvoiceObligation s termsId = .ok obligation →
    effectiveInvoiceObligation s' termsId = .ok obligation' →
      allocatedToTerms s termsId < obligation'
        ∨ ∀ t, obligation ≤ allocatedBy s termsId t ↔ obligation' ≤ allocatedBy s termsId t

/-- The transaction, where it is accepted, respects that. -/
def KeepsCount [Hashing] (m : Moment) (tx : Transaction) : Prop :=
  ∀ s', billingStep m.store tx.action = .ok s' → CountsHeldCash m.store s'

/-! ## Terms, invoices and allocations belong together -/

section

variable {s s' : Store}

structure FundingInv (s : Store) : Prop where
  termsKeys : (s.commercialTerms.map (·.id)).Nodup
  invoices : ∀ invoice ∈ s.invoices,
    ∃ terms ∈ s.commercialTerms, terms.id = invoice.commercialTermsId
  allocations : ∀ row ∈ s.allocations,
    ∃ terms ∈ s.commercialTerms, terms.id = row.commercialTermsId

theorem terms_of_obligation {termsId : Id} {obligation : Int}
    (h : effectiveInvoiceObligation s termsId = .ok obligation) :
    ∃ terms ∈ s.commercialTerms, terms.id = termsId := by
  rcases bind_eq_ok.mp h with ⟨terms, hterms, _⟩
  exact ⟨terms, mem_of_lookup (demand_eq_ok.mp hterms)⟩

/-- Stored terms always have an obligation. -/
theorem exists_obligation {terms : CommercialTerms} (hterms : terms ∈ s.commercialTerms) :
    ∃ obligation, effectiveInvoiceObligation s terms.id = .ok obligation := by
  cases hfound : s.terms? terms.id with
  | none => exact absurd rfl (lookup_eq_none.mp hfound terms hterms)
  | some found =>
      unfold effectiveInvoiceObligation
      rw [hfound]
      cases hinvoice : s.invoiceOfTerms? terms.id with
      | none => exact ⟨_, rfl⟩
      | some invoice => exact ⟨_, rfl⟩

theorem ReceivableWrite.terms_mono (h : ReceivableWrite s s') :
    ∀ terms ∈ s.commercialTerms, terms ∈ s'.commercialTerms := by
  intro terms hterms
  cases h with
  | payment write => exact write.terms ▸ hterms
  | terms row nonneg new hs' => exact hs'.1 ▸ List.mem_append_left _ hterms
  | draft row owner mem of amount new hs' => exact hs' ▸ hterms
  | issued invoiceId hs' => exact hs' ▸ hterms
  | correction row invoice mem of positive covered hs' => exact hs' ▸ hterms

/-- Only a payment adds an allocation. -/
theorem ReceivableWrite.payment_of_append (h : ReceivableWrite s s') {row : ReceiptAllocation}
    (hrows : s'.allocations = s.allocations ++ [row]) : PaymentWrite s s' := by
  have hnone : s'.allocations ≠ s.allocations := by
    intro hsame
    have hlength := congrArg List.length (hsame.symm.trans hrows)
    simp at hlength
  cases h with
  | payment write => exact write
  | terms added nonneg new hs' => exact absurd hs'.2.2.2.2 hnone
  | draft added owner mem of amount new hs' => exact absurd (by rw [hs']) hnone
  | issued invoiceId hs' => exact absurd (by rw [hs']) hnone
  | correction added invoice mem of positive covered hs' => exact absurd (by rw [hs']) hnone

theorem ReceivableWrite.fundingInv (h : ReceivableWrite s s') (hs : FundingInv s) :
    FundingInv s' := by
  have hmono := h.terms_mono
  have hinvoices : ∀ invoice ∈ s.invoices,
      ∃ terms ∈ s'.commercialTerms, terms.id = invoice.commercialTermsId := by
    intro invoice hinvoice
    rcases hs.invoices invoice hinvoice with ⟨terms, hterms, hid⟩
    exact ⟨terms, hmono terms hterms, hid⟩
  have hallocations : ∀ row ∈ s.allocations,
      ∃ terms ∈ s'.commercialTerms, terms.id = row.commercialTermsId := by
    intro row hrow
    rcases hs.allocations row hrow with ⟨terms, hterms, hid⟩
    exact ⟨terms, hmono terms hterms, hid⟩
  cases h with
  | payment write =>
      refine ⟨write.terms ▸ hs.termsKeys, fun invoice hinvoice =>
        hinvoices invoice (write.invoices ▸ hinvoice), ?_⟩
      intro row hrow
      rcases write.allocations with hsame | ⟨added, hadded, hfits⟩
      · exact hallocations row (hsame ▸ hrow)
      · rw [hadded] at hrow
        rcases List.mem_append.mp hrow with hold | hlast
        · exact hallocations row hold
        · -- an allocation is only made under terms with an obligation
          rcases hfits.terms with ⟨_, hobligation, _⟩
          exact List.mem_singleton.mp hlast ▸ terms_of_obligation hobligation
  | terms row nonneg new hs' =>
      rcases hs' with ⟨hterms, hsame, _, _, hrows⟩
      refine ⟨?_, fun invoice hinvoice => hinvoices invoice (hsame ▸ hinvoice),
        fun row hrow => hallocations row (hrows ▸ hrow)⟩
      rw [hterms]
      exact nodup_map_append hs.termsKeys new
  | draft row owner mem of amount new hs' =>
      subst hs'
      refine ⟨hs.termsKeys, ?_, hallocations⟩
      intro invoice hinvoice
      rcases List.mem_append.mp hinvoice with hold | hlast
      · exact hinvoices invoice hold
      · exact ⟨owner, mem, List.mem_singleton.mp hlast ▸ of.symm⟩
  | issued invoiceId hs' =>
      subst hs'
      refine ⟨hs.termsKeys, ?_, hallocations⟩
      intro invoice' hinvoice'
      rcases List.mem_map.mp hinvoice' with ⟨invoice, hinvoice, rfl⟩
      rcases hinvoices invoice hinvoice with ⟨terms, hterms, hid⟩
      refine ⟨terms, hterms, hid.trans ?_⟩
      split_ifs <;> rfl
  | correction row invoice mem of positive covered hs' =>
      subst hs'
      exact ⟨hs.termsKeys, hinvoices, hallocations⟩

/-! ## One step -/

/-- The first instant that the running total answers is one of full funding, and the terms
owe nothing only if they never did. -/
def Recorded (s : Store) (history : List Moment) (terms : CommercialTerms) : Prop :=
  ∀ obligation, effectiveInvoiceObligation s terms.id = .ok obligation →
    (obligation = 0 → terms.grossAmount = 0)
      ∧ ∀ t, FirstFunded s terms.id obligation t →
        ∃ x ∈ history, x.instant = t ∧ FullyCovered x.store terms.id

theorem Recorded.mono {history history' : List Moment} {terms : CommercialTerms}
    (hsubset : ∀ x ∈ history, x ∈ history') (h : Recorded s history terms) :
    Recorded s history' terms := by
  intro obligation hobligation
  rcases h obligation hobligation with ⟨hzero, hfirst⟩
  refine ⟨hzero, ?_⟩
  intro t ht
  rcases hfirst t ht with ⟨x, hx, hcovered⟩
  exact ⟨x, hsubset x hx, hcovered⟩

theorem allocatedToTerms_nonneg (hb : CashInv s.cash) (termsId : Id) :
    0 ≤ allocatedToTerms s termsId :=
  total_nonneg (fun row hrow => (hb.allocations row hrow).1.le)

theorem termsAllocations_nonneg (hb : CashInv s.cash) (termsId : Id) :
    ∀ row ∈ termsAllocations s termsId, 0 ≤ row.amount :=
  fun row hrow => (hb.allocations row (List.mem_of_mem_filter hrow)).1.le

/-- Nothing is allocated, and the obligation moves past no running total. -/
theorem Recorded.of_unmoved {history : List Moment} {terms : CommercialTerms}
    (hb : CashInv s.cash) (hr : ReceivableInv s) (hterms : terms ∈ s.commercialTerms)
    (hrows : s'.allocations = s.allocations) (hcount : CountsHeldCash s s')
    (h : Recorded s history terms) : Recorded s' history terms := by
  have hsame : termsAllocations s' terms.id = termsAllocations s terms.id := by
    unfold termsAllocations
    rw [hrows]
  rcases exists_obligation hterms with ⟨obligation, hobligation⟩
  rcases h obligation hobligation with ⟨hzero, hfirst⟩
  intro obligation' hobligation'
  rcases hcount.unmoved terms.id obligation obligation' hobligation hobligation' with
    habove | hbetween
  · -- everything allocated falls short of the new obligation
    refine ⟨?_, ?_⟩
    · intro hfree
      have hnonneg := allocatedToTerms_nonneg hb terms.id
      omega
    · intro t ht
      have hreached := ht.reached
      rw [hsame] at hreached
      have hle := hreached.trans (accrued_le_sum (termsAllocations_nonneg hb terms.id))
      rw [sum_termsAllocations] at hle
      exact absurd habove (not_lt.mpr hle)
  · refine ⟨?_, ?_⟩
    · -- before the first allocation the running total is zero
      intro hfree
      rcases exists_accrued_eq_zero (·.allocatedAt) (·.amount) (termsAllocations s terms.id) with
        ⟨t, ht⟩
      have hle : obligation ≤ allocatedBy s terms.id t :=
        (hbetween t).mpr (by rw [hfree, allocatedBy, ht])
      rw [allocatedBy, ht] at hle
      exact hzero (le_antisymm hle (hr.obligation_nonneg hobligation))
    · intro t ht
      rw [FirstFunded, hsame] at ht
      exact hfirst t (ht.of_moved hbetween)

/-- One allocation is added, in the order of the clock. -/
theorem Recorded.of_allocation {history : List Moment} {terms : CommercialTerms} {now : Int}
    {row : ReceiptAllocation} (hb : CashInv s.cash) (hb' : CashInv s'.cash)
    (hwrite : PaymentWrite s s')
    (hrows : s'.allocations = s.allocations ++ [row]) (hnew : row ∉ s.allocations)
    (hnow : row.allocatedAt = now)
    (hactive : activeCash s' row.commercialTermsId
      = activeCash s row.commercialTermsId + row.amount)
    (hcount : CountsHeldCash s s') (h : Recorded s history terms) :
    Recorded s' ({ instant := now, store := s' } :: history) terms := by
  have hmem : row ∈ s'.allocations := hrows ▸ List.mem_append_right _ List.mem_cons_self
  intro obligation hobligation
  have hbefore : effectiveInvoiceObligation s terms.id = .ok obligation := by
    rw [← hobligation]
    exact (effectiveInvoiceObligation_congr hwrite.terms hwrite.invoices hwrite.corrections
      terms.id).symm
  rcases h obligation hbefore with ⟨hzero, hfirst⟩
  refine ⟨hzero, ?_⟩
  intro t ht
  have hkept : FirstFunded s terms.id obligation t → ∃ x ∈ ({ instant := now, store := s' } :
      Moment) :: history, x.instant = t ∧ FullyCovered x.store terms.id := by
    intro hold
    rcases hfirst t hold with ⟨x, hx, hcovered⟩
    exact ⟨x, List.mem_cons_of_mem _ hx, hcovered⟩
  rw [FirstFunded, termsAllocations_append hrows] at ht
  by_cases hterms : row.commercialTermsId = terms.id
  · rw [if_pos hterms] at ht
    have horder := hcount.inOrder row hmem hnew
    rw [hterms] at horder
    by_cases hreached : obligation ≤ allocatedToTerms s terms.id
    · exact hkept (ht.of_append horder (hb'.allocations row hmem).1.le hreached)
    · -- the new allocation completes the running total, and the active cash with it
      rcases ht.eq_of_append horder (termsAllocations_nonneg hb terms.id) (not_le.mp hreached) with
        ⟨htime, hcompletes⟩
      refine ⟨_, List.mem_cons_self, (htime.trans hnow).symm, obligation, hobligation, ?_⟩
      rw [sum_termsAllocations] at hcompletes
      have hheld := hcount.completed row hmem hnew obligation (hterms ▸ hbefore)
        (hterms ▸ not_le.mp hreached) (hterms ▸ hcompletes)
      exact hterms ▸ hheld.trans hactive.ge
  · rw [if_neg hterms, List.append_nil] at ht
    exact hkept ht

/-- New terms owe their gross amount, and nothing is allocated to them. -/
theorem Recorded.of_new {history : List Moment} {terms : CommercialTerms} (hs : FundingInv s)
    (hs' : FundingInv s') (hterms : s'.commercialTerms = s.commercialTerms ++ [terms])
    (hnew : ∀ other ∈ s.commercialTerms, other.id ≠ terms.id)
    (hinvoices : s'.invoices = s.invoices) (hrows : s'.allocations = s.allocations) :
    Recorded s' history terms := by
  have hfound : s'.terms? terms.id = some terms := by
    refine lookup_eq_some hs'.termsKeys ?_ rfl
    rw [hterms]
    exact List.mem_append_right _ List.mem_cons_self
  have hinvoice : s'.invoiceOfTerms? terms.id = none := by
    refine lookup_eq_none.mpr ?_
    intro invoice hmem
    rcases hs.invoices invoice (hinvoices ▸ hmem) with ⟨owner, howner, hid⟩
    exact hid ▸ hnew owner howner
  have hnone : termsAllocations s' terms.id = [] := by
    refine List.filter_eq_nil_iff.mpr ?_
    intro row hrow
    rcases hs.allocations row (hrows ▸ hrow) with ⟨owner, howner, hid⟩
    have hne : row.commercialTermsId ≠ terms.id := hid ▸ hnew owner howner
    simpa using hne
  intro obligation hobligation
  have hgross : obligation = terms.grossAmount := by
    unfold effectiveInvoiceObligation at hobligation
    rw [hfound, hinvoice] at hobligation
    exact (Except.ok.inj hobligation).symm
  refine ⟨fun hzero => hgross ▸ hzero, ?_⟩
  intro t ht
  rw [FirstFunded, hnone] at ht
  have hreached : obligation ≤ 0 := ht.reached
  have hbefore : 0 < obligation := ht.before (t - 1) (Int.sub_one_lt_of_le (le_refl t))
  omega

/-- What a step does to the record of one terms row. -/
theorem billingStep_recorded {history : List Moment} {tx : Transaction} [Hashing]
    (hb : CashInv s.cash) (hr : ReceivableInv s) (hs : FundingInv s)
    (hstep : billingStep s tx.action = .ok s') (hcount : CountsHeldCash s s')
    (h : ∀ terms ∈ s.commercialTerms, Recorded s history terms) :
    ∀ terms ∈ s'.commercialTerms,
      Recorded s' ({ instant := tx.instant, store := s' } :: history) terms := by
  have hwrite := billingStep_receivables hstep
  have hb' := (billingStep_cash hb hstep).inv hb
  have hs' := hwrite.fundingInv hs
  -- a step that allocates nothing keeps the record of the terms it found
  have hkept : s'.allocations = s.allocations → ∀ terms ∈ s.commercialTerms,
      Recorded s' ({ instant := tx.instant, store := s' } :: history) terms := by
    intro hrows terms hterms
    exact ((h terms hterms).of_unmoved hb hr hterms hrows hcount).mono
      (fun _ hx => List.mem_cons_of_mem _ hx)
  intro terms hterms
  cases hwrite with
  | payment write =>
      rw [write.terms] at hterms
      rcases write.allocations with hsame | ⟨row, hrows, _⟩
      · exact hkept hsame terms hterms
      · have hnew : row ∉ s.allocations := by
          intro hold
          have hpairs := hb'.pairs
          have hbook : s'.cash.allocations = s.cash.allocations ++ [row] := hrows
          rw [hbook, List.map_append, List.nodup_append] at hpairs
          exact hpairs.2.2 _ (List.mem_map_of_mem hold) _ (List.mem_singleton.mpr rfl) rfl
        have hmem : row ∈ s'.allocations := hrows ▸ List.mem_append_right _ List.mem_cons_self
        have hnow : row.allocatedAt = tx.instant := by
          rcases billingStep_stamp hb hstep row hmem with hold | hclock
          · exact absurd hold hnew
          · exact tx.stamped _ hclock
        exact (h terms hterms).of_allocation hb hb' write hrows hnew hnow
          (billingStep_active hb hstep hrows) hcount
  | terms row nonneg new hs' =>
      rcases hs' with ⟨hadded, hinvoices, _, _, hrows⟩
      rw [hadded] at hterms
      rcases List.mem_append.mp hterms with hold | hlast
      · exact hkept hrows terms hold
      · rw [List.mem_singleton.mp hlast]
        exact Recorded.of_new hs ‹_› hadded new hinvoices hrows
  | draft row owner mem of amount new hs' =>
      subst hs'
      exact hkept rfl terms hterms
  | issued invoiceId hs' =>
      subst hs'
      exact hkept rfl terms hterms
  | correction row invoice mem of positive covered hs' =>
      subst hs'
      exact hkept rfl terms hterms

/-- What the record says is what the refund window answers. -/
theorem Recorded.fundedAt {history : List Moment} {terms : CommercialTerms}
    {window : RefundWindow} {t : Int} (hb : CashInv s.cash) (hr : ReceivableInv s)
    (h : Recorded s history terms) (hproduction : s.productionStart? terms.campaignId = none)
    (hwindow : refundWindow terms s = .ok window) (ht : window.fundedAt = some t) :
    FundedAt history terms t := by
  have hanswer := refundWindow_fundedAt hproduction hwindow ht
  rcases historicalFullyFundedAt_eq_some hb hr hanswer with ⟨obligation, hobligation, hcase⟩
  rcases h obligation hobligation with ⟨hzero, hfirst⟩
  rcases hcase with ⟨hnothing, hwhen⟩ | hpassed
  · exact .inr ⟨hwhen, hzero hnothing⟩
  · exact .inl (hfirst t hpassed)

/-- The condition on an allocation leaves out nothing else: where reversed cash completes the
running total, the answer is the instant of that allocation, and the terms are not covered. -/
theorem uncounted_allocation [Hashing] (hb : CashInv s.cash) (hr : ReceivableInv s)
    {a : BillingAction} (hstep : billingStep s a = .ok s') {row : ReceiptAllocation}
    (hrows : s'.allocations = s.allocations ++ [row])
    (horder : ∀ other ∈ termsAllocations s row.commercialTermsId,
      other.allocatedAt ≤ row.allocatedAt)
    {terms : CommercialTerms} (hterms : row.commercialTermsId = terms.id) {obligation : Int}
    (hobligation : effectiveInvoiceObligation s terms.id = .ok obligation)
    (hshort : allocatedToTerms s terms.id < obligation)
    (hcompletes : obligation ≤ allocatedToTerms s terms.id + row.amount)
    (huncounted : activeCash s terms.id + row.amount < obligation) :
    historicalFullyFundedAt terms s' = .ok (some row.allocatedAt) ∧ ¬ FullyCovered s' terms.id := by
  have hb' := (billingStep_cash hb hstep).inv hb
  have hactive := billingStep_active hb hstep hrows
  have hwrite : PaymentWrite s s' := (billingStep_receivables hstep).payment_of_append hrows
  have hobligation' : effectiveInvoiceObligation s' terms.id = .ok obligation := by
    rw [← hobligation]
    exact effectiveInvoiceObligation_congr hwrite.terms hwrite.invoices hwrite.corrections terms.id
  have hr' := hwrite.inv hb hb' hr
  have hsplit : termsAllocations s' terms.id = termsAllocations s terms.id ++ [row] := by
    rw [termsAllocations_append hrows, if_pos hterms]
  have hpositive : 0 < obligation := (allocatedToTerms_nonneg hb terms.id).trans_lt hshort
  rw [hterms] at horder hactive
  refine ⟨?_, ?_⟩
  · -- the running total reaches the obligation, so there is an answer
    have hsum : obligation
        ≤ 0 + ((byAllocationTime (termsAllocations s' terms.id)).map (·.amount)).sum := by
      have hperm : (byAllocationTime (termsAllocations s' terms.id)).Perm
          (termsAllocations s' terms.id) := List.perm_insertionSort _ _
      rw [(hperm.map _).sum_eq, hsplit, List.map_append, List.sum_append, sum_termsAllocations,
        List.map_singleton, List.sum_singleton, zero_add]
      exact hcompletes
    rcases exists_firstReaching (·.allocatedAt) hpositive hsum with ⟨t, ht⟩
    have hanswer : historicalFullyFundedAt terms s' = .ok (some t) := by
      unfold historicalFullyFundedAt
      rw [hobligation', ← ht, ← fundedAtOf_eq]
      exact if_neg hpositive.ne'
    rcases historicalFullyFundedAt_eq_some hb' hr' hanswer with ⟨obligation', hsame, hcase⟩
    rcases Except.ok.inj (hobligation'.symm.trans hsame) with rfl
    rcases hcase with ⟨hzero, _⟩ | hfirst
    · exact absurd hzero hpositive.ne'
    · rw [FirstFunded, hsplit] at hfirst
      -- it was short before this row, and this row comes last
      rcases hfirst.eq_of_append horder (termsAllocations_nonneg hb terms.id) hshort with
        ⟨htime, _⟩
      rw [hanswer, htime]
  · rintro ⟨obligation', hsame, hcovered⟩
    rcases Except.ok.inj (hobligation'.symm.trans hsame) with rfl
    omega

/-! ## Cancellations -/

/-- A cancellation that grants a refund froze the window of its campaign's terms. -/
def Froze (s : Store) (row : CampaignCancellation) : Prop :=
  ∃ terms ∈ s.commercialTerms, row.commercialTermsId = some terms.id
    ∧ ∃ window, refundWindow terms s = .ok window ∧ window.fundedAt.isSome
      ∧ row.fundingAuthorizedAt = window.fundedAt
      ∧ row.productionStartId = window.production.map (·.id)

theorem freezeSettlement_due {terms : Option CommercialTerms} {now : Int}
    {settlement : FrozenSettlement} (h : freezeSettlement terms now s = .ok settlement)
    (hdue : settlement.disposition = .cashRefundDue) :
    ∃ row, terms = some row ∧ refundWindow row s = .ok settlement.window
      ∧ settlement.window.fundedAt.isSome := by
  unfold freezeSettlement at h
  split at h
  · rw [← pure_eq_ok.mp h] at hdue
    cases hdue
  · rename_i row
    rcases ite_eq_ok.mp h with ⟨_, h⟩ | ⟨_, h⟩
    · rw [← pure_eq_ok.mp h] at hdue
      cases hdue
    · rcases bind_eq_ok.mp h with ⟨window, hwindow, h⟩
      rcases ite_eq_ok.mp h with ⟨hfunded, h⟩ | ⟨_, h⟩
      · rw [← pure_eq_ok.mp h]
        exact ⟨row, rfl, hwindow, hfunded.1⟩
      · rw [← pure_eq_ok.mp h] at hdue
        cases hdue

theorem requestCampaignCancellation_froze {authorized complaint : Except AppError Unit}
    {campaignId : Id} {request : CancellationRequest} {now : Int}
    (h : requestCampaignCancellation authorized complaint campaignId request now s = .ok s') :
    ∀ row ∈ s'.cancellations,
      row ∈ s.cancellations ∨ (row.disposition = .cashRefundDue → Froze s row) := by
  intro row hrow
  simp only [requestCampaignCancellation, bind_eq_ok] at h
  rcases h with ⟨_, _, campaign, _, h⟩
  split at h
  · rcases bind_eq_ok.mp h with ⟨_, _, h⟩
    cases h
    exact .inl hrow
  · simp only [bind_eq_ok, pure_eq_ok] at h
    rcases h with ⟨_, _, _, _, _, _, settlement, hsettlement, _, _, rfl⟩
    rcases List.mem_append.mp hrow with hold | hlast
    · exact .inl hold
    · rw [List.mem_singleton.mp hlast]
      right
      intro hdue
      rcases freezeSettlement_due hsettlement hdue with ⟨terms, hterms, hwindow, hfunded⟩
      exact ⟨terms, List.mem_of_find?_eq_some hterms, congrArg (·.map (·.id)) hterms,
        settlement.window, hwindow, hfunded, rfl, rfl⟩

theorem processManualBankTransfer_cancellations {authorized : Except AppError Unit}
    {receiptId allocationId termsId : Id} {transfer : BankTransfer} {now : Int}
    (h : processManualBankTransfer authorized receiptId allocationId termsId transfer now s
      = .ok s') : s'.cancellations = s.cancellations := by
  rcases bind_eq_ok.mp h with ⟨_, _, h⟩
  rcases bind_eq_ok.mp h with ⟨recorded, hrecorded, h⟩
  rcases bind_eq_ok.mp h with ⟨confirmed, hconfirmed, h⟩
  have hrecorded' : recorded.1.cancellations = s.cancellations := by
    rw [(recorded_allocations hrecorded).2]
  have hconfirmed' : confirmed.1.cancellations = s.cancellations := by
    rcases (confirmPaymentReceipt_eq hconfirmed).2 with hsame | ⟨_, hframe⟩
    · rw [hsame, hrecorded']
    · rw [hframe, hrecorded']
  rcases ite_eq_ok.mp h with ⟨_, h⟩ | ⟨_, h⟩
  · rcases bind_eq_ok.mp h with ⟨allocated, hallocated, h⟩
    cases h
    rcases allocatePaymentReceipt_fits hallocated with hsame | ⟨row, hout, _⟩
    · rw [hsame, hconfirmed']
    · rw [hout, hconfirmed']
  · cases h
    exact hconfirmed'

theorem processPaymentGatewayEvent_cancellations {checkoutBinding : Except AppError Unit}
    {eventId receiptId allocationId : Id} {now : Int}
    (h : processPaymentGatewayEvent checkoutBinding eventId receiptId allocationId now s
      = .ok s') : s'.cancellations = s.cancellations := by
  rcases bind_eq_ok.mp h with ⟨event, _, h⟩
  rcases ite_eq_ok.mp h with ⟨_, h⟩ | ⟨_, h⟩
  · cases h
    rfl
  · rcases ite_eq_ok.mp h with ⟨_, h⟩ | ⟨_, h⟩
    · cases h
      rfl
    · simp only [bind_eq_ok] at h
      rcases h with ⟨_, _, terms, _, _, _, recorded, hrecorded, s₁, hconfirmed, obligation, _, h⟩
      have hconfirmed' : s₁.cancellations = s.cancellations := by
        rw [(confirmVerifiedGatewayReceipt_eq hconfirmed).2, (recorded_allocations hrecorded).2]
      rcases ite_eq_ok.mp h with ⟨_, h⟩ | ⟨_, h⟩
      · rcases bind_eq_ok.mp h with ⟨allocated, hallocated, h⟩
        cases h
        rcases allocatePaymentReceipt_fits hallocated with hsame | ⟨row, hout, _⟩
        · exact (congrArg Store.cancellations hsame).trans hconfirmed'
        · exact (congrArg Store.cancellations hout).trans hconfirmed'
      · cases h
        exact hconfirmed'

/-- Only the cancellation of a campaign writes a cancellation. -/
theorem billingStep_froze [Hashing] {a : BillingAction} (h : billingStep s a = .ok s') :
    ∀ row ∈ s'.cancellations,
      row ∈ s.cancellations ∨ (row.disposition = .cashRefundDue → Froze s row) := by
  have hkept : s'.cancellations = s.cancellations → ∀ row ∈ s'.cancellations,
      row ∈ s.cancellations ∨ (row.disposition = .cashRefundDue → Froze s row) :=
    fun hsame row hrow => .inl (hsame ▸ hrow)
  cases a with
  | cancelCampaign => exact requestCampaignCancellation_froze h
  | bankTransfer => exact hkept (processManualBankTransfer_cancellations h)
  | processEvent => exact hkept (processPaymentGatewayEvent_cancellations h)
  | acceptTerms authorized terms =>
      simp only [billingStep, acceptTerms, bind_eq_ok, pure_eq_ok] at h
      rcases h with ⟨_, _, _, _, _, _, _, _, _, _, _, _, rfl⟩
      exact hkept rfl
  | createInvoiceDraft | issueInvoice | correctInvoice =>
      exact hkept ((congrArg Store.cancellations (billingStep_invoices rfl h)).trans rfl)
  | recordReceipt actor receiptId facts =>
      rcases map_eq_ok.mp h with ⟨out, hout, rfl⟩
      exact hkept (by rw [(recorded_allocations hout).2])
  | confirmReceipt authorized receiptId expectedAmount expectedCurrency now =>
      rcases map_eq_ok.mp h with ⟨out, hout, rfl⟩
      rcases (confirmPaymentReceipt_eq hout).2 with hsame | ⟨_, hframe⟩
      · exact hkept (by rw [hsame])
      · exact hkept (by rw [hframe])
  | allocateReceipt actor allocationId receiptId termsId amount now =>
      rcases map_eq_ok.mp h with ⟨out, hout, rfl⟩
      rcases allocatePaymentReceipt_fits hout with hsame | ⟨row, hframe, _⟩
      · exact hkept (by rw [hsame])
      · exact hkept (by rw [hframe])
  | reverseReceipt authorized receiptId reason now =>
      rcases reversePaymentReceipt_eq h with hsame | ⟨_, hframe⟩
      · exact hkept (by rw [hsame])
      · exact hkept (by rw [hframe])
  | recordRefund authorized termsId receiptId facts =>
      rcases recordRefundSettlement_eq h with hsame | ⟨_, hframe⟩
      · exact hkept (by rw [hsame])
      · exact hkept (by rw [hframe])
  | settleCredit authorized termsId settlementProvider externalReference reason =>
      rcases recordCreditContractSettlement_eq h with hsame | ⟨_, hframe⟩
      · exact hkept (by rw [hsame])
      · exact hkept (by rw [hframe])
  | writeCampaign | ingestEvent | authorizePrepaid | authorizeCredit | waive | startProduction
  | offerAssignment | acceptAssignment | closeAssignment | activate | requestChange | decideChange =>
      exact hkept (congrArg (fun b => b.1.cancellations) (billingStep_books rfl h))

end

/-! ## Runs -/

section

variable [Hashing] {m m' : Moment} {earlier : List Moment} {tx : Transaction}
  {allowed : Moment → Transaction → Prop}

theorem timedStep_eq (h : timedBilling.step m tx = .ok m') :
    ∃ s', billingStep m.store tx.action = .ok s'
      ∧ m' = { instant := tx.instant, store := s' } := by
  rcases map_eq_ok.mp h with ⟨s', hs', hm'⟩
  exact ⟨s', hs', hm'.symm⟩

/-- Leaving out the instants, a timed run is a run of billing. -/
theorem reachable_of_timed (h : Trace timedBilling allowed m earlier) :
    Reachable billing m.store := by
  refine h.invariant (fun m _ => Reachable billing m.store) .init ?_
  intro m tx m' earlier _ ih _ hstep
  rcases timedStep_eq hstep with ⟨s', hs', rfl⟩
  exact .step ih trivial hs'

/-- What the run keeps of keys and running totals. -/
theorem recorded_of_trace (h : Trace timedBilling KeepsCount m earlier) :
    FundingInv m.store
      ∧ ∀ terms ∈ m.store.commercialTerms, Recorded m.store (m :: earlier) terms := by
  refine h.invariant (fun m earlier => FundingInv m.store
    ∧ ∀ terms ∈ m.store.commercialTerms, Recorded m.store (m :: earlier) terms) ?_ ?_
  · exact ⟨⟨List.nodup_nil, List.forall_mem_nil _, List.forall_mem_nil _⟩, List.forall_mem_nil _⟩
  · rintro m tx m' earlier htrace ⟨hs, hrecorded⟩ hkeeps hstep
    rcases timedStep_eq hstep with ⟨s', hs', rfl⟩
    have hreach := reachable_of_timed htrace
    refine ⟨(billingStep_receivables hs').fundingInv hs, ?_⟩
    exact billingStep_recorded (cashInv_of_reachable hreach) (receivableInv_of_reachable hreach) hs
      hs' (hkeeps s' hs') hrecorded

/-- Every granted refund froze an instant of full funding. -/
theorem refunds_of_trace (h : Trace timedBilling KeepsCount m earlier) :
    ∀ row ∈ m.store.cancellations, row.disposition = .cashRefundDue →
      row.productionStartId = none → ∃ terms ∈ m.store.commercialTerms,
        row.commercialTermsId = some terms.id
          ∧ ∃ t, row.fundingAuthorizedAt = some t ∧ FundedAt (m :: earlier) terms t := by
  refine h.invariant (fun m earlier => ∀ row ∈ m.store.cancellations,
    row.disposition = .cashRefundDue → row.productionStartId = none →
      ∃ terms ∈ m.store.commercialTerms, row.commercialTermsId = some terms.id
        ∧ ∃ t, row.fundingAuthorizedAt = some t ∧ FundedAt (m :: earlier) terms t) ?_ ?_
  · intro row hrow
    exact absurd hrow List.not_mem_nil
  intro m tx m' earlier htrace ih _ hstep row hrow hdue hproduction
  rcases timedStep_eq hstep with ⟨s', hs', rfl⟩
  have hmono := (billingStep_receivables hs').terms_mono
  -- what was funded before the step stays so in the longer history
  have hlonger : ∀ x ∈ m :: earlier, x ∈ ({ instant := tx.instant, store := s' } : Moment)
      :: m :: earlier := fun _ hx => List.mem_cons_of_mem _ hx
  rcases billingStep_froze hs' row hrow with hold | hfroze
  · rcases ih row hold hdue hproduction with ⟨terms, hterms, hid, t, ht, hfunded⟩
    exact ⟨terms, hmono terms hterms, hid, t, ht, hfunded.mono hlonger⟩
  · rcases hfroze hdue with ⟨terms, hterms, hid, window, hwindow, hsome, hauthorized, hstart⟩
    rcases Option.isSome_iff_exists.mp hsome with ⟨t, ht⟩
    have hreach := reachable_of_timed htrace
    have hnone : m.store.productionStart? terms.campaignId = none := by
      rw [← refundWindow_production hwindow hsome]
      exact Option.map_eq_none_iff.mp (hstart.symm.trans hproduction)
    refine ⟨terms, hmono terms hterms, hid, t, hauthorized.trans ht, ?_⟩
    exact (((recorded_of_trace htrace).2 terms hterms).fundedAt (cashInv_of_reachable hreach)
      (receivableInv_of_reachable hreach) hnone hwindow ht).mono hlonger

/-- In every run whose steps let the running total tell of cash that was held, the refund window
of terms without production start begins at an instant of full funding, and at none if there
was none; and so did the window of every refund that was granted. -/
theorem refund_window_rests_on_funding :
    ∀ m earlier, Trace timedBilling KeepsCount m earlier → RestsOnFunding m earlier := by
  intro m earlier htrace
  have hreach := reachable_of_timed htrace
  have hfunded : ∀ terms ∈ m.store.commercialTerms,
      m.store.productionStart? terms.campaignId = none →
      ∀ window, refundWindow terms m.store = .ok window →
        ∀ t, window.fundedAt = some t → FundedAt (m :: earlier) terms t := by
    intro terms hterms hproduction window hwindow t ht
    exact ((recorded_of_trace htrace).2 terms hterms).fundedAt (cashInv_of_reachable hreach)
      (receivableInv_of_reachable hreach) hproduction hwindow ht
  refine ⟨hfunded, ?_, refunds_of_trace htrace⟩
  intro terms hterms hproduction window hwindow hnever
  cases ht : window.fundedAt with
  | none => rfl
  | some t => exact absurd (hfunded terms hterms hproduction window hwindow t ht) (hnever t)

end

/-! ## A payment in part, reversed and replaced -/

/-- A check that implies the condition: an obligation that moves ends above all allocations. -/
def keepsCount (m : Moment) (tx : Transaction) : Bool :=
  (billingStep m.store tx.action).toOption.all (fun s' =>
    s'.allocations.all (fun row => decide (row ∈ m.store.allocations)
      || ((termsAllocations m.store row.commercialTermsId).all (·.allocatedAt ≤ row.allocatedAt)
        && (effectiveInvoiceObligation m.store row.commercialTermsId).toOption.all (fun obligation =>
          decide (allocatedToTerms m.store row.commercialTermsId + row.amount < obligation)
            || decide (obligation ≤ activeCash m.store row.commercialTermsId + row.amount))))
    && m.store.commercialTerms.all (fun terms =>
      decide ((effectiveInvoiceObligation s' terms.id).toOption
          = (effectiveInvoiceObligation m.store terms.id).toOption)
        || (effectiveInvoiceObligation s' terms.id).toOption.all
          (allocatedToTerms m.store terms.id < ·)))

theorem keepsCount_of_check {m : Moment} {tx : Transaction} (h : keepsCount m tx = true) :
    KeepsCount m tx := by
  intro s' hs'
  simp only [keepsCount, hs', Except.toOption, Option.all_some, Bool.and_eq_true, List.all_eq_true,
    Bool.or_eq_true, decide_eq_true_eq] at h
  rcases h with ⟨hrows, hterms⟩
  refine ⟨?_, ?_, ?_⟩
  · intro row hrow hnew
    exact ((hrows row hrow).resolve_left hnew).1
  · intro row hrow hnew obligation hobligation _ hreached
    have hmine := ((hrows row hrow).resolve_left hnew).2
    rw [hobligation] at hmine
    simp only [Option.all_some, Bool.or_eq_true, decide_eq_true_eq] at hmine
    exact hmine.resolve_left (not_lt.mpr hreached)
  · intro termsId obligation obligation' hobligation hobligation'
    rcases terms_of_obligation hobligation with ⟨terms, hmem, rfl⟩
    have hmine := hterms terms hmem
    rw [hobligation, hobligation'] at hmine
    simp only [Option.some.injEq, Option.all_some, decide_eq_true_eq] at hmine
    rcases hmine with hsame | habove
    · right
      intro t
      rw [hsame]
    · exact .inl habove

/-- A payment of some amount is recorded, confirmed and allocated. -/
def pay (receiptId : Id) (reference : Payout.Reference) (amount : ℚ) (now : Int) :
    List BillingAction :=
  [ .recordReceipt (.admin (.ok ⟨⟩)) receiptId { samplePayment reference with amount := amount },
    .confirmReceipt (.ok ⟨⟩) receiptId amount "NGN" now,
    .allocateReceipt (.admin (.ok ⟨⟩)) receiptId receiptId 1 amount now ]

/-- A part payment bounces, 20.00 are charged on top, and one payment covers it all. -/
def replacedInFull : List BillingAction :=
  invoicedCampaign ++ pay 1 "A" 60 10 ++
    [ .reverseReceipt (.ok ⟨⟩) 1 "bounced" 20,
      .correctInvoice (.ok ⟨⟩) 1
        { reference := "D", correctionType := .debitNote, netAmount := 20, taxAmount := 0,
          reason := "x" } "d" ]
    ++ pay 2 "B" 120 30 ++ [sampleCancellation]

theorem refund_window_rests_on_funding_replaced :
    ∃ m earlier, Trace timedBilling KeepsCount m earlier
      ∧ (∃ row ∈ m.store.cancellations, row.disposition = .cashRefundDue
        ∧ row.productionStartId = none ∧ row.fundingAuthorizedAt = some 30)
      ∧ RestsOnFunding m earlier := by
  rcases timedBilling.exists_trace KeepsCount (fun _ _ => keepsCount_of_check)
    (replacedInFull.map (Transaction.of 0))
    (fun m _ => m.store.cancellations.any (fun row => row.disposition = .cashRefundDue
      && row.productionStartId = none && row.fundingAuthorizedAt = some 30))
    (by decide +kernel) with ⟨m, earlier, htrace, htest⟩
  rcases List.any_eq_true.mp htest with ⟨row, hrow, htest⟩
  simp only [Bool.and_eq_true, decide_eq_true_eq] at htest
  exact ⟨m, earlier, htrace, ⟨row, hrow, htest.1.1, htest.1.2, htest.2⟩,
    refund_window_rests_on_funding m earlier htrace⟩

/-- A part payment bounces and comes again: never more than 60.00 of 100.00 are held. -/
def replacedInPart : List BillingAction :=
  invoicedCampaign ++ pay 1 "A" 60 10 ++ [.reverseReceipt (.ok ⟨⟩) 1 "bounced" 20]
    ++ pay 2 "B" 60 30 ++ [sampleCancellation]

/-- The refund is granted all the same, from the instant of the second part. -/
theorem not_refund_window_rests_on_funding :
    ¬ ∀ m earlier, Trace timedBilling (fun _ _ => True) m earlier → RestsOnFunding m earlier := by
  intro hclaim
  rcases timedBilling.exists_trace (fun _ _ => True) (fun _ _ (_ : true = true) => trivial)
    (replacedInPart.map (Transaction.of 0)) (fun m earlier =>
      m.store.cancellations.any (fun row => row.disposition = .cashRefundDue
        && row.productionStartId = none && row.commercialTermsId = some 1
        && row.fundingAuthorizedAt = some 30)
      && m.store.commercialTerms.all (·.grossAmount = 10000)
      && (m :: earlier).all (fun x => ! decide (FullyCovered x.store 1)))
    (by decide +kernel) with ⟨m, earlier, htrace, htest⟩
  simp only [Bool.and_eq_true, List.any_eq_true, List.all_eq_true, decide_eq_true_eq] at htest
  rcases htest with ⟨⟨⟨row, hrow, ⟨⟨hdue, hproduction⟩, hid⟩, _⟩, hgross⟩, hnever⟩
  rcases (hclaim m earlier htrace).refunds row hrow hdue hproduction with
    ⟨terms, hterms, htermsId, t, _, hfunded⟩
  have hone : terms.id = 1 := Option.some.inj (htermsId.symm.trans hid)
  rcases hfunded with ⟨x, hx, _, hcovered⟩ | ⟨_, hfree⟩
  · have hnot := hnever x hx
    simp [hone ▸ hcovered] at hnot
  · exact absurd ((hgross terms hterms).symm.trans hfree) (by decide)

end Billing
end Mobility
