import Mobility.Payout.PreviewRows
import Mobility.Payout.Recoveries

/-!
# Relabelled — a preview under other ids and times

`relabelled ρ τ` gives the credits of a store other ids and other times.  No position and no
check on a credit reads either, so only the order of the rows can change.
-/

namespace Mobility
namespace Payout

open Lib

variable {s : Store} {auth : Authority} {c : Currency} {driver : Id} {scope : TripScope}
  {e : EarningsLedgerEntry} {currency : String} {ids : List Id}

section Labels

variable (ρ : Id → Id) (τ : Id → Int)

def relabelEntry (e : EarningsLedgerEntry) : EarningsLedgerEntry :=
  { e with
    id := ρ e.id
    occurredAt := τ e.id
    ledgerMetadata :=
      { e.ledgerMetadata with sourceEntryId := e.ledgerMetadata.sourceEntryId.map ρ } }

def relabelLine (l : PayoutBatchLine) : PayoutBatchLine :=
  { l with ledgerEntryId := ρ l.ledgerEntryId }

def relabelBatch (b : PayoutBatch) : PayoutBatch :=
  { b with lines := b.lines.map (relabelLine ρ) }

def relabelOffset (o : PayoutRecoveryOffset) : PayoutRecoveryOffset :=
  { o with fundingEntryId := ρ o.fundingEntryId }

/-- The store whose credits have other ids and times. -/
def relabelled (s : Store) : Store :=
  { s with
    entries := s.entries.map (relabelEntry ρ τ)
    batches := s.batches.map (relabelBatch ρ)
    offsets := s.offsets.map (relabelOffset ρ) }

end Labels

variable {ρ : Id → Id} {τ : Id → Int}

@[simp]
theorem relabelEntry_scope (e : EarningsLedgerEntry) : (relabelEntry ρ τ e).scope = e.scope := rfl

theorem lines_relabelled : (relabelled ρ τ s).lines = s.lines.map (relabelLine ρ) := by
  simp only [Store.lines, relabelled, List.flatMap_map, List.map_flatMap]
  rfl

section

variable (hρ : Function.Injective ρ)
include hρ

/-! ## Positions -/

theorem fundingEntry?_relabelled (o : PayoutRecoveryOffset) :
    Store.fundingEntry? (relabelled ρ τ s) (relabelOffset ρ o)
      = (s.fundingEntry? o).map (relabelEntry ρ τ) := by
  have hentry : Store.entry? (relabelled ρ τ s) (ρ o.fundingEntryId)
      = (s.entry? o.fundingEntryId).map (relabelEntry ρ τ) := by
    simp only [Store.entry?, relabelled, List.find?_map]
    congr 2
    funext e
    simp [relabelEntry, hρ.eq_iff]
  rw [Store.fundingEntry?, relabelOffset, hentry, Store.fundingEntry?]
  cases s.entry? o.fundingEntryId with
  | none => rfl
  | some e =>
      rw [Option.map_some, Option.filter_some, Option.filter_some]
      by_cases hvoided : e.status ≠ .voided <;> simp [hvoided, relabelEntry]

theorem offsets_relabelled (scope : TripScope) :
    (relabelled ρ τ s).offsetsFunded scope = s.offsetsFunded scope
      ∧ (relabelled ρ τ s).offsetsReceived scope = s.offsetsReceived scope := by
  have hoffsets : (relabelled ρ τ s).offsets = s.offsets.map (relabelOffset ρ) := rfl
  have hfunded : (relabelled ρ τ s).fundedBy scope ∘ relabelOffset ρ = s.fundedBy scope := by
    funext o
    simp only [Function.comp_apply, Store.fundedBy, fundingEntry?_relabelled hρ]
    cases s.fundingEntry? o <;> rfl
  have hreceived : (relabelled ρ τ s).receivedBy scope ∘ relabelOffset ρ = s.receivedBy scope := by
    funext o
    simp only [Function.comp_apply, Store.receivedBy, fundingEntry?_relabelled hρ, Option.isSome_map]
    rfl
  constructor
  · rw [Store.offsetsFunded, hoffsets, List.filter_map, hfunded, List.map_map]
    rfl
  · rw [Store.offsetsReceived, hoffsets, List.filter_map, hreceived, List.map_map]
    rfl

omit hρ in
theorem scopeEntries_relabelled (scope : TripScope) :
    (relabelled ρ τ s).scopeEntries scope = (s.scopeEntries scope).map (relabelEntry ρ τ) := by
  simp only [Store.scopeEntries, relabelled, List.filter_map]
  rfl

omit hρ in
theorem tripAwards_relabelled (es : List EarningsLedgerEntry) :
    tripAwards (es.map (relabelEntry ρ τ)) = tripAwards es := by
  have hadd : ∀ (a : TripAwards) (e : EarningsLedgerEntry),
      a.add (relabelEntry ρ τ e) = a.add e := by
    intro a e
    have hmanual : isManualDeduction (relabelEntry ρ τ e) = isManualDeduction e := by
      simp only [isManualDeduction, relabelEntry, Option.isSome_map]
      rfl
    simp only [TripAwards.add, hmanual]
    rfl
  simp only [tripAwards, List.foldl_map, hadd]

theorem scopePosition_relabelled (scope : TripScope) :
    (relabelled ρ τ s).scopePosition scope = s.scopePosition scope := by
  have hlines : (relabelled ρ τ s).linesOf ((s.scopeEntries scope).map (relabelEntry ρ τ))
      = (s.linesOf (s.scopeEntries scope)).map (relabelLine ρ) := by
    simp only [Store.linesOf, lines_relabelled, List.filter_map]
    congr 1
    refine List.filter_congr ?_
    intro l _
    simp [List.any_map, Function.comp_def, relabelLine, relabelEntry, hρ.eq_iff]
  have htotal : ∀ (p q : PayoutBatchLine → Bool) (ls : List PayoutBatchLine),
      (∀ l, p (relabelLine ρ l) = q l) →
      totalAmount ((ls.map (relabelLine ρ)).filter p) = totalAmount (ls.filter q) := by
    intro p q ls hp
    have hcomp : p ∘ relabelLine ρ = q := funext hp
    rw [totalAmount, List.filter_map, hcomp, List.map_map]
    rfl
  have hterminal : ∀ (ls : List PayoutBatchLine) (l : PayoutBatchLine),
      isTerminalFailed (ls.map (relabelLine ρ)) (relabelLine ρ l) = isTerminalFailed ls l := by
    intro ls l
    simp only [isTerminalFailed, List.any_map]
    rfl
  rw [Store.scopePosition, scopeEntries_relabelled, hlines, (offsets_relabelled hρ scope).1,
    (offsets_relabelled hρ scope).2, Store.scopePosition]
  simp only [tripCashPosition, tripAwards_relabelled]
  rw [htotal isPaid isPaid _ (fun _ => rfl), htotal isReserved isReserved _ (fun _ => rfl),
    htotal isInFlight isInFlight _ (fun _ => rfl), htotal _ _ _ (hterminal _)]

theorem tripMoneyPosition_relabelled (trip : Id) (c : Currency) :
    (relabelled ρ τ s).tripMoneyPosition trip c = s.tripMoneyPosition trip c := by
  rw [tripMoneyPosition_eq, tripMoneyPosition_eq, scopeEntries_relabelled,
    scopePosition_relabelled hρ]
  simp

theorem payableOf_relabelled : payableOf (relabelled ρ τ s) c = payableOf s c := by
  funext trip
  cases trip with
  | none => rfl
  | some tripId => exact congrArg TripMoneyPosition.batchPayable (tripMoneyPosition_relabelled hρ tripId c)

/-! ## Debts -/

theorem cashPaid_relabelled (id : Id) : CashPaid (relabelled ρ τ s) (ρ id) ↔ CashPaid s id := by
  constructor
  · rintro ⟨l', hl', hentry, hstatus⟩
    rw [lines_relabelled] at hl'
    rcases List.mem_map.mp hl' with ⟨l, hl, rfl⟩
    exact ⟨l, hl, hρ hentry, hstatus⟩
  · rintro ⟨l, hl, rfl, hstatus⟩
    refine ⟨relabelLine ρ l, ?_, rfl, hstatus⟩
    rw [lines_relabelled]
    exact List.mem_map_of_mem hl

theorem ledgerInv_relabelled (hinv : LedgerInv s) : LedgerInv (relabelled ρ τ s) where
  tripIds := hinv.tripIds
  entryIds := by
    have hids : (relabelled ρ τ s).entries.map (·.id) = (s.entries.map (·.id)).map ρ := by
      simp only [relabelled, List.map_map]
      rfl
    rw [hids]
    exact hinv.entryIds.map hρ
  owned := by
    intro e' he'
    rcases List.mem_map.mp he' with ⟨e, he, rfl⟩
    exact hinv.owned e he
  backed := by
    intro l' hl'
    rw [lines_relabelled] at hl'
    rcases List.mem_map.mp hl' with ⟨l, hl, rfl⟩
    rcases hinv.backed l hl with ⟨e, he, hid, hreleased, hpaid⟩
    exact ⟨relabelEntry ρ τ e, List.mem_map_of_mem he, congrArg ρ hid, hreleased, hpaid⟩
  paid := by
    intro e' he' hstatus
    rcases List.mem_map.mp he' with ⟨e, he, rfl⟩
    rcases hinv.paid e he hstatus with hcash | hvoid
    · exact .inl ((cashPaid_relabelled hρ e.id).mpr hcash)
    · refine .inr ?_
      intro l' hl' hentry
      rw [lines_relabelled] at hl'
      rcases List.mem_map.mp hl' with ⟨l, hl, rfl⟩
      exact hvoid l hl (hρ hentry)

theorem driverDebt_relabelled (hinv : LedgerInv s) (driver : Id) (c : Currency) :
    driverDebt (relabelled ρ τ s) driver c = driverDebt s driver c := by
  have hscopes : ∀ scope, scope ∈ driverScopes (relabelled ρ τ s) driver c
      ↔ scope ∈ driverScopes s driver c := by
    intro scope
    rw [mem_driverScopes, mem_driverScopes]
    constructor
    · rintro ⟨e', he', hrest⟩
      rcases List.mem_map.mp he' with ⟨e, he, rfl⟩
      exact ⟨e, he, hrest⟩
    · rintro ⟨e, he, hrest⟩
      exact ⟨_, List.mem_map_of_mem he, hrest⟩
  have hdebt : debtOf (relabelled ρ τ s) = debtOf s := by
    funext scope
    rw [debtOf, scopePosition_relabelled hρ, debtOf]
  rw [driverDebt_eq (ledgerInv_relabelled hρ hinv).ownership,
    driverDebt_eq hinv.ownership, hdebt]
  exact ((driverScopes_perm hscopes).map _).sum_eq

/-! ## The selection -/

omit hρ in
theorem request_relabelled (rows : List EarningsLedgerEntry) :
    (rows.map (relabelEntry ρ τ)).map request = rows.map request := by
  rw [List.map_map]
  rfl

theorem earningsOf_relabelled (rows : List EarningsLedgerEntry) :
    earningsOf (relabelled ρ τ s) c (rows.map (relabelEntry ρ τ)) = earningsOf s c rows := by
  rw [earningsOf, payableOf_relabelled hρ, request_relabelled, earningsOf]

theorem deductionsOf_relabelled (hinv : LedgerInv s) (rows : List EarningsLedgerEntry) :
    deductionsOf (relabelled ρ τ s) c (rows.map (relabelEntry ρ τ)) = deductionsOf s c rows := by
  have hdebts : (driverDebt (relabelled ρ τ s) · c) = (driverDebt s · c) :=
    funext (driverDebt_relabelled hρ hinv · c)
  have hdrivers : driverOf (relabelled ρ τ s) = driverOf s := rfl
  rw [deductionsOf, hdebts, paidToDrivers, payableOf_relabelled hρ, request_relabelled, hdrivers]
  rfl

theorem selectedRows_relabelled :
    selectedRows (relabelled ρ τ s) currency (ids.map ρ)
      = (selectedRows s currency ids).map (relabelEntry ρ τ) := by
  have hentries : (relabelled ρ τ s).entries = s.entries.map (relabelEntry ρ τ) := rfl
  rw [selectedRows, payableQuery, hentries, List.filter_map, selectedRows, payableQuery]
  congr 1
  refine List.filter_congr ?_
  intro e _
  have hmem : ρ e.id ∈ ids.map ρ ↔ e.id ∈ ids := by
    rw [List.mem_map]
    exact ⟨fun ⟨id, hid, heq⟩ => hρ heq ▸ hid, fun hid => ⟨e.id, hid, rfl⟩⟩
  rw [Function.comp_apply, Option.all_some, Option.all_some]
  exact congrArg (_ && ·) (decide_eq_decide.mpr hmem)

theorem rowClear_relabelled :
    RowClear auth (relabelled ρ τ s) (relabelEntry ρ τ e) ↔ RowClear auth s e := by
  constructor
  · rintro ⟨htrip, hlines, hpayee⟩
    refine ⟨htrip, fun l hl hid => ?_, hpayee⟩
    refine hlines (relabelLine ρ l) ?_ (congrArg ρ hid)
    rw [lines_relabelled]
    exact List.mem_map_of_mem hl
  · rintro ⟨htrip, hlines, hpayee⟩
    refine ⟨htrip, fun l' hl' hid => ?_, hpayee⟩
    rw [lines_relabelled] at hl'
    rcases List.mem_map.mp hl' with ⟨l, hl, rfl⟩
    exact hlines l hl (hρ hid)

theorem selectionClear_relabelled :
    SelectionClear auth (relabelled ρ τ s) currency (ids.map ρ)
      ↔ SelectionClear auth s currency ids := by
  have hrows : selectedRows (relabelled ρ τ s) currency (ids.map ρ)
      = (selectedRows s currency ids).map (relabelEntry ρ τ) := selectedRows_relabelled hρ
  constructor
  · rintro ⟨hfound, hclear⟩
    rw [hrows] at hfound hclear
    refine ⟨by simpa using hfound, fun e he => ?_⟩
    exact (rowClear_relabelled hρ).mp (hclear _ (List.mem_map_of_mem he))
  · rintro ⟨hfound, hclear⟩
    refine ⟨by rw [hrows]; simpa using hfound, fun e' he' => ?_⟩
    rw [hrows] at he'
    rcases List.mem_map.mp he' with ⟨e, he, rfl⟩
    exact (rowClear_relabelled hρ).mpr (hclear e he)

end

end Payout
end Mobility
