import Mobility.Billing.System
import Mobility.Lib.Traces
import Mathlib.Logic.Relation

/-!
# Cash — the cash book behind billing

The cash book is what billing knows of money received: receipts and their lifecycle,
allocations, cancellations and refunds.  A transaction either reverses one receipt or is a
chain of writes that reverse none; both keep the book's invariants.
-/

namespace Mobility
namespace Billing

open Lib

structure CashBook where
  receipts : List PaymentReceipt
  receiptEvents : List ReceiptLifecycleEvent
  allocations : List ReceiptAllocation
  cancellations : List CampaignCancellation
  refunds : List RefundSettlement

def Store.cash (s : Store) : CashBook :=
  { receipts := s.receipts
    receiptEvents := s.receiptEvents
    allocations := s.allocations
    cancellations := s.cancellations
    refunds := s.refunds }

namespace CashBook

/-- Some lifecycle event gave the receipt this status. -/
def Marked (b : CashBook) (receiptId : Id) (status : ReceiptLifecycleStatus) : Prop :=
  ∃ event ∈ b.receiptEvents, event.receiptId = receiptId ∧ event.status = status

/-- Confirmed and not reversed. -/
def Active (b : CashBook) (receiptId : Id) : Prop :=
  b.Marked receiptId .confirmed ∧ ¬ b.Marked receiptId .reversed

instance (b : CashBook) (receiptId : Id) (status : ReceiptLifecycleStatus) :
    Decidable (b.Marked receiptId status) :=
  inferInstanceAs (Decidable (∃ event ∈ b.receiptEvents, _))

instance (b : CashBook) (receiptId : Id) : Decidable (b.Active receiptId) :=
  inferInstanceAs (Decidable (_ ∧ _))

/-- Everything ever allocated to the terms. -/
def allocated (b : CashBook) (termsId : Id) : Int :=
  total (·.commercialTermsId = termsId) (·.amount) b.allocations

/-- What is held for the terms now. -/
def held (b : CashBook) (termsId : Id) : Int :=
  total (fun row => row.commercialTermsId = termsId && b.Active row.receiptId) (·.amount)
    b.allocations

/-- Refunds recorded, of the rows that pass. -/
def refunded (b : CashBook) (p : RefundSettlement → Bool) : Int :=
  total (fun row => row.disposition = .refundRecorded && p row) (·.amount) b.refunds

/-- The receipt and terms of an allocation name it. -/
def pair (row : ReceiptAllocation) : Id × Id := (row.receiptId, row.commercialTermsId)

/-- A refund of an allocation's receipt and terms. -/
def ofPair (receiptId termsId : Id) (row : RefundSettlement) : Bool :=
  row.receiptId = some receiptId && row.commercialTermsId = termsId

end CashBook

open CashBook

/-! ## Writes -/

/-- One write that reverses no receipt. -/
inductive CashWrite (b : CashBook) : CashBook → Prop
  | receipt (row : PaymentReceipt) (event : ReceiptLifecycleEvent)
      (hfresh : ∀ other ∈ b.receipts, other.id ≠ row.id) (hamount : 0 ≤ row.amount)
      (hstatus : event.status = .recorded)
      (hsequence : event.sequenceNumber = receiptSequence event.status) :
      CashWrite b { b with
        receipts := b.receipts ++ [row]
        receiptEvents := b.receiptEvents ++ [event] }
  | confirmation (event : ReceiptLifecycleEvent) (hstatus : event.status = .confirmed)
      (hsequence : event.sequenceNumber = receiptSequence event.status) :
      CashWrite b { b with receiptEvents := b.receiptEvents ++ [event] }
  | allocation (row : ReceiptAllocation) (hamount : 0 < row.amount)
      (hreceipt : ∃ receipt ∈ b.receipts, receipt.id = row.receiptId)
      (hactive : b.Active row.receiptId) (hnew : ∀ other ∈ b.allocations, pair other ≠ pair row) :
      CashWrite b { b with allocations := b.allocations ++ [row] }
  | cancellation (row : CampaignCancellation) (hfresh : ∀ other ∈ b.cancellations, other.id ≠ row.id)
      (hfirst : ∀ other ∈ b.cancellations, other.campaignId ≠ row.campaignId)
      (hnonneg : 0 ≤ row.refundableAmount)
      (hrefundable : row.disposition = .cashRefundDue → ∃ termsId,
        row.commercialTermsId = some termsId ∧ row.refundableAmount
          = max 0 (b.allocated termsId - b.refunded (·.commercialTermsId = termsId))) :
      CashWrite b { b with cancellations := b.cancellations ++ [row] }
  | refund (row : RefundSettlement) (cancellation : CampaignCancellation)
      (receipt : PaymentReceipt) (allocation : ReceiptAllocation)
      (hcancellation : cancellation ∈ b.cancellations) (hreceipt : receipt ∈ b.receipts)
      (hallocation : allocation ∈ b.allocations)
      (howned : row.cancellationId = some cancellation.id ∧ row.receiptId = some receipt.id
        ∧ pair allocation = (receipt.id, row.commercialTermsId)
        ∧ cancellation.commercialTermsId = some row.commercialTermsId)
      (hamount : 0 ≤ row.amount)
      (hcancelled : b.refunded (fun other => other.cancellationId = some cancellation.id)
        + row.amount ≤ cancellation.refundableAmount)
      (hreceived : b.refunded (fun other => other.receiptId = some receipt.id) + row.amount
        ≤ receipt.amount)
      (hallocated : b.refunded (ofPair receipt.id row.commercialTermsId) + row.amount
        ≤ allocation.amount) :
      CashWrite b { b with refunds := b.refunds ++ [row] }
  | credit (row : RefundSettlement) (hdisposition : row.disposition = .creditSettlementRecorded)
      (hamount : row.amount = 0) : CashWrite b { b with refunds := b.refunds ++ [row] }

/-- The reversal of a confirmed receipt. -/
inductive CashReversal (b : CashBook) : CashBook → Prop
  | reversal (event : ReceiptLifecycleEvent) (hstatus : event.status = .reversed)
      (hsequence : event.sequenceNumber = receiptSequence event.status) :
      CashReversal b { b with receiptEvents := b.receiptEvents ++ [event] }

abbrev CashWrites : CashBook → CashBook → Prop :=
  Relation.ReflTransGen CashWrite

/-! ## The invariants -/

structure CashInv (b : CashBook) : Prop where
  sequence : ∀ event ∈ b.receiptEvents, event.sequenceNumber = receiptSequence event.status
  receiptKeys : (b.receipts.map (·.id)).Nodup
  receiptAmounts : ∀ row ∈ b.receipts, 0 ≤ row.amount
  pairs : (b.allocations.map pair).Nodup
  allocations : ∀ row ∈ b.allocations, 0 < row.amount
    ∧ (∃ receipt ∈ b.receipts, receipt.id = row.receiptId) ∧ b.Marked row.receiptId .confirmed
  cancellationKeys : (b.cancellations.map (·.id)).Nodup
  cancellationAmounts : ∀ row ∈ b.cancellations, 0 ≤ row.refundableAmount
  /-- a refund is of a receipt's allocation, under the cancellation of the terms -/
  refunds : ∀ row ∈ b.refunds, 0 ≤ row.amount ∧ (row.disposition = .refundRecorded →
    (∃ cancellation ∈ b.cancellations, row.cancellationId = some cancellation.id
      ∧ cancellation.commercialTermsId = some row.commercialTermsId)
    ∧ ∃ allocation ∈ b.allocations, row.receiptId = some allocation.receiptId
      ∧ allocation.commercialTermsId = row.commercialTermsId)

/-- Refunds stay within each of the three totals. -/
structure RefundsBounded (b : CashBook) : Prop where
  cancellations : ∀ row ∈ b.cancellations,
    b.refunded (fun other => other.cancellationId = some row.id) ≤ row.refundableAmount
  receipts : ∀ row ∈ b.receipts,
    b.refunded (fun other => other.receiptId = some row.id) ≤ row.amount
  allocations : ∀ row ∈ b.allocations,
    b.refunded (ofPair row.receiptId row.commercialTermsId) ≤ row.amount

section

variable {b b' : CashBook}

theorem Marked.append {receiptId : Id} {status : ReceiptLifecycleStatus}
    {event : ReceiptLifecycleEvent} :
    CashBook.Marked { b with receiptEvents := b.receiptEvents ++ [event] } receiptId status
      ↔ b.Marked receiptId status ∨ (event.receiptId = receiptId ∧ event.status = status) := by
  unfold CashBook.Marked
  constructor
  · rintro ⟨other, hother, hmark⟩
    rcases List.mem_append.mp hother with hother | hother
    · exact .inl ⟨other, hother, hmark⟩
    · exact .inr (List.mem_singleton.mp hother ▸ hmark)
  · rintro (⟨other, hother, hmark⟩ | hmark)
    · exact ⟨other, List.mem_append_left _ hother, hmark⟩
    · exact ⟨event, List.mem_append_right _ (List.mem_singleton.mpr rfl), hmark⟩

theorem refunded_append {p : RefundSettlement → Bool} {row : RefundSettlement} :
    CashBook.refunded { b with refunds := b.refunds ++ [row] } p
      = b.refunded p + if row.disposition = .refundRecorded ∧ p row then row.amount else 0 := by
  simp [CashBook.refunded]

theorem CashWrite.mono (h : CashWrite b b') :
    (∀ row ∈ b.receipts, row ∈ b'.receipts)
      ∧ (∀ receiptId status, b.Marked receiptId status → b'.Marked receiptId status)
      ∧ (∀ receiptId, b'.Marked receiptId .reversed → b.Marked receiptId .reversed)
      ∧ (∀ row ∈ b.allocations, row ∈ b'.allocations)
      ∧ ∀ row ∈ b.cancellations, row ∈ b'.cancellations := by
  cases h with
  | receipt row event hfresh hamount hstatus hsequence =>
      refine ⟨fun _ h => List.mem_append_left _ h, ?_, ?_, fun _ h => h, fun _ h => h⟩
      · intro receiptId status hmark
        exact (Marked.append (b := { b with receipts := b.receipts ++ [row] })).mpr (.inl hmark)
      · intro receiptId hmark
        rcases (Marked.append (b := { b with receipts := b.receipts ++ [row] })).mp hmark with
          hmark | ⟨_, hreversed⟩
        · exact hmark
        · exact absurd (hstatus.symm.trans hreversed) (by simp)
  | confirmation event hstatus hsequence =>
      refine ⟨fun _ h => h, fun _ _ hmark => Marked.append.mpr (.inl hmark), ?_, fun _ h => h,
        fun _ h => h⟩
      intro receiptId hmark
      rcases Marked.append.mp hmark with hmark | ⟨_, hreversed⟩
      · exact hmark
      · exact absurd (hstatus.symm.trans hreversed) (by simp)
  | allocation =>
      exact ⟨fun _ h => h, fun _ _ h => h, fun _ h => h, fun _ h => List.mem_append_left _ h,
        fun _ h => h⟩
  | cancellation =>
      exact ⟨fun _ h => h, fun _ _ h => h, fun _ h => h, fun _ h => h,
        fun _ h => List.mem_append_left _ h⟩
  | refund | credit =>
      exact ⟨fun _ h => h, fun _ _ h => h, fun _ h => h, fun _ h => h, fun _ h => h⟩

/-- The owners of a refund stay. -/
theorem CashInv.refund_mono (hb : CashInv b)
    (hallocations : ∀ row ∈ b.allocations, row ∈ b'.allocations)
    (hcancellations : ∀ row ∈ b.cancellations, row ∈ b'.cancellations) :
    ∀ row ∈ b.refunds, 0 ≤ row.amount ∧ (row.disposition = .refundRecorded →
      (∃ cancellation ∈ b'.cancellations, row.cancellationId = some cancellation.id
        ∧ cancellation.commercialTermsId = some row.commercialTermsId)
      ∧ ∃ allocation ∈ b'.allocations, row.receiptId = some allocation.receiptId
        ∧ allocation.commercialTermsId = row.commercialTermsId) := by
  intro row hrow
  refine ⟨(hb.refunds row hrow).1, fun hrecorded => ?_⟩
  rcases (hb.refunds row hrow).2 hrecorded with ⟨⟨c, hc, hcown⟩, a, ha, haown⟩
  exact ⟨⟨c, hcancellations c hc, hcown⟩, a, hallocations a ha, haown⟩

theorem CashWrite.inv (h : CashWrite b b') (hb : CashInv b) : CashInv b' := by
  have hmono := h.mono
  cases h with
  | receipt row event hfresh hamount hstatus hsequence =>
      refine ⟨?_, nodup_map_append hb.receiptKeys hfresh, ?_, hb.pairs, ?_, hb.cancellationKeys,
        hb.cancellationAmounts, hb.refunds⟩
      · intro other hother
        rcases List.mem_append.mp hother with hother | hother
        · exact hb.sequence other hother
        · exact List.mem_singleton.mp hother ▸ hsequence
      · intro other hother
        rcases List.mem_append.mp hother with hother | hother
        · exact hb.receiptAmounts other hother
        · exact List.mem_singleton.mp hother ▸ hamount
      · intro other hother
        -- an allocation keeps its receipt and the mark of it
        rcases hb.allocations other hother with ⟨hpos, ⟨receipt, hreceipt, hid⟩, hmark⟩
        exact ⟨hpos, ⟨receipt, hmono.1 receipt hreceipt, hid⟩, hmono.2.1 _ _ hmark⟩
  | confirmation event hstatus hsequence =>
      refine ⟨?_, hb.receiptKeys, hb.receiptAmounts, hb.pairs, ?_, hb.cancellationKeys,
        hb.cancellationAmounts, hb.refunds⟩
      · intro other hother
        rcases List.mem_append.mp hother with hother | hother
        · exact hb.sequence other hother
        · exact List.mem_singleton.mp hother ▸ hsequence
      · intro other hother
        rcases hb.allocations other hother with ⟨hpos, hreceipt, hmark⟩
        exact ⟨hpos, hreceipt, hmono.2.1 _ _ hmark⟩
  | allocation row hamount hreceipt hactive hnew =>
      refine ⟨hb.sequence, hb.receiptKeys, hb.receiptAmounts, nodup_map_append hb.pairs hnew, ?_,
        hb.cancellationKeys, hb.cancellationAmounts, hb.refund_mono hmono.2.2.2.1 hmono.2.2.2.2⟩
      intro other hother
      rcases List.mem_append.mp hother with hother | hother
      · exact hb.allocations other hother
      · rw [List.mem_singleton.mp hother]
        exact ⟨hamount, hreceipt, hactive.1⟩
  | cancellation row hfresh hfirst hnonneg hrefundable =>
      refine ⟨hb.sequence, hb.receiptKeys, hb.receiptAmounts, hb.pairs, hb.allocations,
        nodup_map_append hb.cancellationKeys hfresh, ?_,
        hb.refund_mono hmono.2.2.2.1 hmono.2.2.2.2⟩
      intro other hother
      rcases List.mem_append.mp hother with hother | hother
      · exact hb.cancellationAmounts other hother
      · exact List.mem_singleton.mp hother ▸ hnonneg
  | refund row cancellation receipt allocation hcancellation hreceipt hallocation howned hamount =>
      refine ⟨hb.sequence, hb.receiptKeys, hb.receiptAmounts, hb.pairs, hb.allocations,
        hb.cancellationKeys, hb.cancellationAmounts, ?_⟩
      intro other hother
      rcases List.mem_append.mp hother with hother | hother
      · exact hb.refunds other hother
      · rw [List.mem_singleton.mp hother]
        -- the refund names rows that the service looked up
        refine ⟨hamount, fun _ => ⟨⟨cancellation, hcancellation, howned.1, howned.2.2.2⟩,
          allocation, hallocation, ?_, congrArg Prod.snd howned.2.2.1⟩⟩
        rw [howned.2.1]
        exact congrArg (fun p : Id × Id => some p.1) howned.2.2.1.symm
  | credit row hdisposition hamount =>
      refine ⟨hb.sequence, hb.receiptKeys, hb.receiptAmounts, hb.pairs, hb.allocations,
        hb.cancellationKeys, hb.cancellationAmounts, ?_⟩
      intro other hother
      rcases List.mem_append.mp hother with hother | hother
      · exact hb.refunds other hother
      · rw [List.mem_singleton.mp hother]
        exact ⟨hamount.ge, fun hrecorded => absurd (hdisposition.symm.trans hrecorded) (by simp)⟩

/-- Nothing is refunded yet under a test that no refund's owners pass. -/
theorem refunded_eq_zero {p : RefundSettlement → Bool}
    (h : ∀ row ∈ b.refunds, row.disposition = .refundRecorded → p row = false) :
    b.refunded p = 0 := by
  refine total_eq_zero ?_
  intro row hrow
  by_cases hrecorded : row.disposition = .refundRecorded
  · simp [h row hrow hrecorded]
  · simp [hrecorded]

theorem CashWrite.bounded (h : CashWrite b b') (hb : CashInv b) (hbounded : RefundsBounded b) :
    RefundsBounded b' := by
  cases h with
  | receipt row event hfresh hamount hstatus hsequence =>
      refine ⟨hbounded.cancellations, ?_, hbounded.allocations⟩
      intro other hother
      rcases List.mem_append.mp hother with hother | hother
      · exact hbounded.receipts other hother
      · rw [List.mem_singleton.mp hother]
        refine (refunded_eq_zero ?_).trans_le hamount
        intro refund hrefund hrecorded
        -- a new receipt has no allocation yet, so nothing was refunded from it
        rcases ((hb.refunds refund hrefund).2 hrecorded).2 with ⟨a, ha, howner, _⟩
        rcases (hb.allocations a ha).2.1 with ⟨receipt, hreceipt, hid⟩
        have hne : receipt.id ≠ row.id := hfresh receipt hreceipt
        simp [howner, ← hid, hne]
  | confirmation => exact ⟨hbounded.cancellations, hbounded.receipts, hbounded.allocations⟩
  | allocation row hamount hreceipt hactive hnew =>
      refine ⟨hbounded.cancellations, hbounded.receipts, ?_⟩
      intro other hother
      rcases List.mem_append.mp hother with hother | hother
      · exact hbounded.allocations other hother
      · rw [List.mem_singleton.mp hother]
        refine (refunded_eq_zero ?_).trans_le hamount.le
        intro refund hrefund hrecorded
        rcases ((hb.refunds refund hrefund).2 hrecorded).2 with ⟨a, ha, howner, hterms⟩
        -- no other allocation has this receipt and these terms
        have hne : ¬ (a.receiptId = row.receiptId ∧ a.commercialTermsId = row.commercialTermsId) :=
          fun hsame => hnew a ha (Prod.ext hsame.1 hsame.2)
        by_cases hsame : a.receiptId = row.receiptId
        · have hother : a.commercialTermsId ≠ row.commercialTermsId := fun h => hne ⟨hsame, h⟩
          simp [ofPair, ← hterms, hother]
        · simp [ofPair, howner, hsame]
  | cancellation row hfresh hfirst hnonneg hrefundable =>
      refine ⟨?_, hbounded.receipts, hbounded.allocations⟩
      intro other hother
      rcases List.mem_append.mp hother with hother | hother
      · exact hbounded.cancellations other hother
      · rw [List.mem_singleton.mp hother]
        refine (refunded_eq_zero ?_).trans_le hnonneg
        intro refund hrefund hrecorded
        rcases ((hb.refunds refund hrefund).2 hrecorded).1 with ⟨c, hc, howner, _⟩
        have hne : c.id ≠ row.id := hfresh c hc
        simp [howner, hne]
  | refund row cancellation receipt allocation hcancellation hreceipt hallocation howned hamount
      hcancelled hreceived hallocated =>
      -- the service checked all three bounds for the rows this refund names
      refine ⟨?_, ?_, ?_⟩
      · intro other hother
        rw [refunded_append]
        split_ifs with hmine
        · have hsame : other = cancellation := by
            refine eq_of_key_eq hb.cancellationKeys hother hcancellation ?_
            have hid := hmine.2
            rw [howned.1] at hid
            simpa using (by simpa using hid : cancellation.id = other.id).symm
          exact hsame ▸ hcancelled
        · rw [Int.add_zero]
          exact hbounded.cancellations other hother
      · intro other hother
        rw [refunded_append]
        split_ifs with hmine
        · have hsame : other = receipt := by
            refine eq_of_key_eq hb.receiptKeys hother hreceipt ?_
            have hid := hmine.2
            rw [howned.2.1] at hid
            simpa using (by simpa using hid : receipt.id = other.id).symm
          exact hsame ▸ hreceived
        · rw [Int.add_zero]
          exact hbounded.receipts other hother
      · intro other hother
        rw [refunded_append]
        split_ifs with hmine
        · have hids : receipt.id = other.receiptId ∧ row.commercialTermsId = other.commercialTermsId := by
            have hpair := hmine.2
            simpa [ofPair, howned.2.1] using hpair
          have hsame : other = allocation := by
            refine eq_of_key_eq hb.pairs hother hallocation ?_
            exact (Prod.ext hids.1.symm hids.2.symm).trans howned.2.2.1.symm
          rw [← hids.1, ← hids.2, hsame]
          exact hallocated
        · rw [Int.add_zero]
          exact hbounded.allocations other hother
  | credit row hdisposition hamount =>
      -- settling a credit contract refunds nothing
      have hsame : ∀ p, CashBook.refunded { b with refunds := b.refunds ++ [row] } p = b.refunded p := by
        intro p
        rw [refunded_append, hdisposition]
        simp
      refine ⟨?_, ?_, ?_⟩
      · intro other hother
        rw [hsame]
        exact hbounded.cancellations other hother
      · intro other hother
        rw [hsame]
        exact hbounded.receipts other hother
      · intro other hother
        rw [hsame]
        exact hbounded.allocations other hother

theorem CashReversal.inv (h : CashReversal b b') (hb : CashInv b) : CashInv b' := by
  cases h with
  | reversal event hstatus hsequence =>
      refine ⟨?_, hb.receiptKeys, hb.receiptAmounts, hb.pairs, ?_, hb.cancellationKeys,
        hb.cancellationAmounts, hb.refunds⟩
      · intro other hother
        rcases List.mem_append.mp hother with hother | hother
        · exact hb.sequence other hother
        · exact List.mem_singleton.mp hother ▸ hsequence
      · intro other hother
        rcases hb.allocations other hother with ⟨hpos, hreceipt, hmark⟩
        exact ⟨hpos, hreceipt, Marked.append.mpr (.inl hmark)⟩

theorem CashReversal.bounded (h : CashReversal b b') (hbounded : RefundsBounded b) :
    RefundsBounded b' := by
  cases h with
  | reversal => exact ⟨hbounded.cancellations, hbounded.receipts, hbounded.allocations⟩

/-- Chains keep what each write keeps. -/
theorem CashWrites.inv (h : CashWrites b b') (hb : CashInv b) : CashInv b' := by
  induction h with
  | refl => exact hb
  | tail _ hwrite ih => exact hwrite.inv ih

/-- A chain confirms receipts and reverses none. -/
theorem CashWrites.active (h : CashWrites b b') :
    (∀ receiptId, b.Active receiptId → b'.Active receiptId)
      ∧ ∀ receiptId, b'.Marked receiptId .reversed → b.Marked receiptId .reversed := by
  induction h with
  | refl => exact ⟨fun _ h => h, fun _ h => h⟩
  | tail _ hwrite ih =>
      rcases hwrite.mono with ⟨_, hmarked, hreversed, _⟩
      refine ⟨?_, fun receiptId h => ih.2 receiptId (hreversed receiptId h)⟩
      intro receiptId hactive
      rcases ih.1 receiptId hactive with ⟨hconfirmed, hnot⟩
      exact ⟨hmarked _ _ hconfirmed, fun h => hnot (hreversed receiptId h)⟩

theorem CashWrites.bounded (h : CashWrites b b') (hb : CashInv b) (hbounded : RefundsBounded b) :
    RefundsBounded b' := by
  induction h with
  | refl => exact hbounded
  | tail hchain hwrite ih => exact hwrite.bounded (CashWrites.inv hchain hb) ih

/-- New allocations come last, and their receipts stay active through the chain. -/
theorem CashWrites.allocated (h : CashWrites b b') :
    ∃ new, b'.allocations = b.allocations ++ new ∧ ∀ row ∈ new, b'.Active row.receiptId := by
  induction h with
  | refl => exact ⟨[], by simp, by simp⟩
  | tail hchain hwrite ih =>
      rcases ih with ⟨new, hrows, hactive⟩
      have hkeeps := (CashWrites.active (.single hwrite)).1
      cases hwrite with
      | allocation row hamount hreceipt hrow hnew =>
          refine ⟨new ++ [row], ?_, ?_⟩
          · rw [hrows, List.append_assoc]
          · intro other hother
            rcases List.mem_append.mp hother with hother | hother
            · exact hkeeps _ (hactive other hother)
            · exact hkeeps _ (List.mem_singleton.mp hother ▸ hrow)
      | receipt | confirmation | cancellation | refund | credit =>
          exact ⟨new, hrows, fun row hrow => hkeeps _ (hactive row hrow)⟩

/-- A new cancellation is the first of its campaign and freezes what was allocated. -/
theorem CashWrite.cancelled (h : CashWrite b b') : ∀ row ∈ b'.cancellations,
    row ∈ b.cancellations
      ∨ ((∀ other ∈ b.cancellations, other.campaignId ≠ row.campaignId)
        ∧ (row.disposition = .cashRefundDue → ∃ termsId, row.commercialTermsId = some termsId
          ∧ row.refundableAmount
            = max 0 (b.allocated termsId - b.refunded (·.commercialTermsId = termsId)))) := by
  intro row hrow
  cases h with
  | cancellation new hfresh hfirst hnonneg hrefundable =>
      rcases List.mem_append.mp hrow with hrow | hrow
      · exact .inl hrow
      · rw [List.mem_singleton.mp hrow]
        exact .inr ⟨hfirst, hrefundable⟩
  | receipt | confirmation | allocation | refund | credit => exact .inl hrow

end

end Billing
end Mobility
