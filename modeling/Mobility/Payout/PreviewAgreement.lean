import Mobility.Payout.Relabelled
import Mobility.Payout.ReservedRows
import Mobility.Payout.TripAuthority

/-!
# PreviewAgreement — a preview and the reservation it announces

Both make the same draws, the preview by time and the reservation by id.  What is drawn in
all does not depend on the order; who is served does, unless the selection is `OrderFree`.
-/

namespace Mobility
namespace Payout

open Lib

variable {s s' : Store} {auth : Authority} {currency : String} {ids : List Id}
  {rows : List EarningsLedgerEntry} {left : Option Id → Int}

/-! ## The selected credits -/

theorem selected_length_le (hinv : LedgerInv s) (ids : List Id) :
    (s.entries.filter (·.id ∈ ids)).length ≤ ids.length := by
  have hnodup : ((s.entries.filter (·.id ∈ ids)).map (·.id)).Nodup :=
    hinv.entryIds.sublist (List.filter_sublist.map _)
  have hsub : (s.entries.filter (·.id ∈ ids)).map (·.id) ⊆ ids := by
    intro id hid
    rcases List.mem_map.mp hid with ⟨e, he, rfl⟩
    simpa using (List.mem_filter.mp he).2
  have hle := (List.subperm_of_subset hnodup hsub).length_le
  rwa [List.length_map] at hle

theorem selectedRows_sublist (s : Store) (currency : String) (ids : List Id) :
    (selectedRows s currency ids).Sublist (s.entries.filter (·.id ∈ ids)) := by
  refine List.monotone_filter_right _ ?_
  intro e he
  simp only [Bool.and_eq_true, Option.all_some] at he
  exact he.2

/-- A clear selection is all that is stored under its ids. -/
theorem SelectionClear.rows_eq (h : SelectionClear auth s currency ids) (hinv : LedgerInv s) :
    selectedRows s currency ids = s.entries.filter (·.id ∈ ids) := by
  refine (selectedRows_sublist s currency ids).eq_of_length_le ?_
  rw [h.found]
  exact selected_length_le hinv ids

/-- The checks of a preview, read by a reservation. -/
theorem selectionClear_iff (hinv : LedgerInv s) (hcurrency : currency ≠ "") :
    SelectionClear auth s currency ids
      ↔ (reservedRows s ids).length = ids.length
        ∧ (∀ e ∈ reservedRows s ids, EntryClear auth (normalizeCurrency currency) e)
        ∧ ∀ l ∈ s.linesOf (reservedRows s ids), ¬ l.reservationActive ∧ l.status ≠ .failed := by
  constructor
  · intro h
    have hrows := h.rows_eq hinv
    have hmem : ∀ e ∈ reservedRows s ids, e ∈ selectedRows s currency ids := by
      intro e he
      rw [hrows]
      exact mem_orderBy.mp he
    refine ⟨?_, ?_, ?_⟩
    · rw [(orderBy_perm _ _).length_eq, ← hrows]
      exact h.found
    · intro e he
      rcases currency_of_selected hcurrency (hmem e he) with
        ⟨_, havailable, htype, hamount, hc, _⟩
      have hclear := h.rows e (hmem e he)
      exact ⟨hclear.trip, ⟨havailable, htype, hamount, hc⟩, hclear.payee⟩
    · intro l hl
      rcases List.mem_filter.mp hl with ⟨hl, hany⟩
      rcases List.any_eq_true.mp hany with ⟨e, he, hid⟩
      have hline := (h.rows e (hmem e he)).lines l hl (by simpa using (of_decide_eq_true hid).symm)
      simpa using hline
  · rintro ⟨hfound, hclear, hlines⟩
    -- every selected id is payable, so the checks drop no row
    have hall : selectedRows s currency ids = s.entries.filter (·.id ∈ ids) := by
      refine List.filter_congr ?_
      intro e he
      by_cases hid : e.id ∈ ids
      · have hmem : e ∈ reservedRows s ids :=
          mem_orderBy.mpr (List.mem_filter.mpr ⟨he, by simpa using hid⟩)
        rcases (hclear e hmem).payable with ⟨havailable, htype, hamount, hc⟩
        simp [havailable, htype, hamount, hc, hid]
      · simp [hid]
    have hmem : ∀ e ∈ selectedRows s currency ids, e ∈ reservedRows s ids := by
      intro e he
      rw [hall] at he
      exact mem_orderBy.mpr he
    refine ⟨?_, fun e he => ⟨(hclear e (hmem e he)).trip, ?_, (hclear e (hmem e he)).payee⟩⟩
    · rw [hall, ← (orderBy_perm _ _).length_eq]
      exact hfound
    · intro l hl hid
      have hguard := hlines l (List.mem_filter.mpr ⟨hl, List.any_eq_true.mpr
        ⟨e, hmem e he, by simp [hid]⟩⟩)
      simpa using hguard

theorem selected_positive (hcurrency : currency ≠ "") :
    ∀ e ∈ selectedRows s currency ids, 0 < e.amount :=
  fun _ he => (currency_of_selected hcurrency he).2.2.2.1

/-! ## The reservation -/

section Reservation

variable [Hashing] {batch : PayoutBatch} {actor : Id} {reason : String} {lineId : Id → Id}

/-- One selection, previewed and then reserved in an empty draft of the same currency. -/
structure SelectionRequest (auth : Authority) (s : Store) (batch : PayoutBatch) (actor : Id)
    (reason : String) (lineId : Id → Id) (currency : String) (ids : List Id) : Prop where
  distinct : 1 ≤ ids.length ∧ ids.length ≤ 100 ∧ ids.Nodup
  named : currency ≠ ""
  draft : EmptyDraft s batch actor (normalizeCurrency currency)
  actor : auth.activeAdmin actor = true
  reason : ∃ text, reasonOf reason = .ok text
  lineIds : FreshLines s lineId

/-- A reservation succeeds on a clear selection whose rows are all served by id. -/
theorem reservePayoutBatch_iff (hk : Keyed s.batches) (hlines : ∀ l ∈ s.lines, LineInv l)
    (hinv : LedgerInv s) (hreq : SelectionRequest auth s batch actor reason lineId currency ids) :
    ((∃ s', reservePayoutBatch auth batch.id ids actor reason lineId s = .ok s')
      ↔ SelectionClear auth s currency ids
        ∧ Served (payableOf s (normalizeCurrency currency)) ((reservedRows s ids).map request))
    ∧ ∀ s', reservePayoutBatch auth batch.id ids actor reason lineId s = .ok s' →
      totalAmount (newLines s s') + offsetTotal (newOffsets s s')
          = earningsOf s (normalizeCurrency currency) (reservedRows s ids)
        ∧ offsetTotal (newOffsets s s')
          = deductionsOf s (normalizeCurrency currency) (reservedRows s ids) := by
  have hpos : ∀ l ∈ s.lines, 0 < l.amount := fun l hl => (hlines l hl).positive
  have hdraft := fun s' => @reservePayoutBatch_draft s s' auth _ _ batch actor lineId ids reason
    hreq.actor hreq.reason hreq.draft
  -- with no open or failed line, the loop is the draws of the rows
  have hloop := fun (hguard : ∀ l ∈ s.linesOf (reservedRows s ids),
      ¬ l.reservationActive ∧ l.status ≠ .failed) =>
    @reserveEntries_draws s auth _ batch actor lineId hinv hpos _ _ _ _ _ _ _
      (Sharing.start s batch.currency lineId) (selected_ready hlines hguard)
      (by rw [List.nil_append]; exact selected_ids hinv ids)
  rw [hreq.draft.currency] at hloop
  constructor
  · constructor
    · rintro ⟨s', h⟩
      rcases (hdraft s').mp h with ⟨_, ⟨hlength, _⟩, hguard, r, hfold, _⟩
      rcases (hloop hguard).1.mp ⟨r, hfold⟩ with ⟨hclear, hserved⟩
      exact ⟨(selectionClear_iff hinv hreq.named).mpr ⟨hlength, hclear, hguard⟩, hserved⟩
    · rintro ⟨hselection, hserved⟩
      rcases (selectionClear_iff hinv hreq.named).mp hselection with ⟨hlength, hclear, hguard⟩
      rcases (hloop hguard).1.mpr ⟨hclear, hserved⟩ with ⟨r, hfold⟩
      rcases (hloop hguard).2 r hfold with ⟨os, settled, left, debts, hsharing, _⟩
      have hinsertable : s.LinesInsertable r.lines := by
        refine hsharing.insertable hk hreq.lineIds (selected_ids hinv ids) ?_
        intro l hl e he hid
        exact (hguard l (List.mem_filter.mpr ⟨hl, List.any_eq_true.mpr ⟨e, he, by simp [hid]⟩⟩)).1
      have hne : ids ≠ [] := by
        have hlen := hreq.distinct.1
        rintro rfl
        simp at hlen
      have htrips : ∀ e ∈ reservedRows s ids, e.tripSessionId.isSome := by
        intro e he
        rcases (hclear e he).trip with ⟨tripId, htrip, _⟩
        simp [htrip]
      have hend : ∃ s', EndsWith batch.id r s' := by
        by_cases hnil : r.lines = []
        · exact ⟨_, .inl ⟨hnil, rfl⟩⟩
        · exact ⟨_, .inr ⟨hnil, rfl⟩⟩
      rcases hend with ⟨s', hend⟩
      exact ⟨s', (hdraft s').mpr ⟨⟨hne, hreq.distinct.2.2⟩, ⟨hlength, htrips⟩, hguard, r, hfold, hend,
        .inr hinsertable⟩⟩
  · intro s' h
    rcases (hdraft s').mp h with ⟨_, _, hguard, r, hfold, hend, hinsertable⟩
    rcases (hloop hguard).2 r hfold with
      ⟨os, settled, left, debts, hsharing, hoffsets, htotal⟩
    rcases hsharing.drawing.reserved hk hinv hreq.draft.stored hreq.draft.draft
      hsharing.budget.charged hend with ⟨hcreation, _⟩
    have hids : (s'.lines.map (·.id)).Nodup := by
      refine ((hcreation.lines.map _).nodup_iff).mpr ?_
      rcases hinsertable with hnil | hinsertable
      · rw [hnil, List.append_nil]
        exact hk.lineIds
      · exact hinsertable.1
    rw [hcreation.newOffsets_eq, totalAmount_perm (hcreation.newLines_perm hids)]
    exact ⟨htotal.trans (zero_add _), hoffsets⟩

end Reservation

/-! ## Times that decide who is served -/

/-- `ORDER BY occurred_at, id`. -/
def OccursBefore (a b : EarningsLedgerEntry) : Prop :=
  a.occurredAt < b.occurredAt ∨ (a.occurredAt = b.occurredAt ∧ a.id ≤ b.id)

instance : DecidableRel OccursBefore :=
  fun _ _ => inferInstanceAs (Decidable (_ ∨ _))

theorem pairwise_byOccurrence (rows : List EarningsLedgerEntry) :
    (byOccurrence rows).Pairwise OccursBefore := by
  have total : Std.Total OccursBefore := ⟨fun a b => by
    rcases lt_trichotomy a.occurredAt b.occurredAt with hlt | heq | hgt
    · exact .inl (.inl hlt)
    · rcases le_total a.id b.id with hle | hle
      · exact .inl (.inr ⟨heq, hle⟩)
      · exact .inr (.inr ⟨heq.symm, hle⟩)
    · exact .inr (.inl hgt)⟩
  have trans : IsTrans _ OccursBefore := ⟨fun a b c hab hbc => by
    rcases hab with hlt | ⟨heq, hle⟩
    · rcases hbc with hlt' | ⟨heq', _⟩
      · exact .inl (hlt.trans hlt')
      · exact .inl (heq' ▸ hlt)
    · rcases hbc with hlt' | ⟨heq', hle'⟩
      · exact .inl (heq ▸ hlt')
      · exact .inr ⟨heq.trans heq', hle.trans hle'⟩⟩
  exact List.pairwise_insertionSort OccursBefore rows

section Times

variable (hpositive : ∀ e ∈ rows, 0 < e.amount) (hids : (rows.map (·.id)).Nodup)
  (hsorted : rows.Pairwise OccursBefore)
include hpositive hids hsorted

/-- All are served when each trip's last credit may come last. -/
theorem served_of_chosen (chosen : Option Id → Id)
    (htimes : ∀ e ∈ rows, e.occurredAt = if e.id = chosen e.tripSessionId then 1 else 0)
    (hlast : ∀ e ∈ rows, ∃ e' ∈ rows, e'.id = chosen e.tripSessionId
      ∧ e'.tripSessionId = e.tripSessionId
      ∧ asked e.tripSessionId (rows.map request) - e'.amount < left e.tripSessionId) :
    Served left (rows.map request) := by
  rw [served_iff (request_positive hpositive)]
  intro before row after hsplit
  rcases List.map_eq_append_iff.mp hsplit with ⟨earlier, tail, rfl, rfl, htail⟩
  rcases List.map_eq_cons_iff.mp htail with ⟨e, later, rfl, rfl, rfl⟩
  rcases hlast e (by simp) with ⟨e', he', hid', htrip', hroom⟩
  have hnonneg : ∀ row ∈ later.map request, 0 ≤ row.2 :=
    fun row hrow => (request_positive hpositive row (by simp [hrow])).le
  have hasked : asked e.tripSessionId ((earlier ++ e :: later).map request)
      = asked e.tripSessionId (earlier.map request) + (e.amount
        + asked e.tripSessionId (later.map request)) := by
    simp [request]
  have hlater := asked_nonneg hnonneg e.tripSessionId
  have hamount := hpositive e (by simp)
  change asked e.tripSessionId (earlier.map request) < left e.tripSessionId
  rcases List.mem_append.mp he' with hearlier | htail'
  · -- the last credit of the trip does not come before another
    have horder : OccursBefore e' e :=
      (List.pairwise_append.mp hsorted).2.2 e' hearlier e (by simp)
    have htime := htimes e (by simp)
    have htime' := htimes e' (by simp [hearlier])
    rw [htrip', if_pos hid'] at htime'
    have hsame : e.id = e'.id := by
      by_contra hne
      rw [if_neg (fun h => hne (h.trans hid'.symm))] at htime
      simp only [OccursBefore] at horder
      omega
    rw [List.map_append, List.nodup_append] at hids
    exact absurd hsame.symm (hids.2.2 e'.id (List.mem_map_of_mem hearlier) e.id (by simp))
  · rcases List.mem_cons.mp htail' with rfl | hlater'
    · omega
    · have hle := le_asked hnonneg (List.mem_map_of_mem hlater')
      simp only [request, htrip'] at hle
      omega

/-- Not all are served when the last credit of all may not come last. -/
theorem not_served_of_chosen {e : EarningsLedgerEntry} (he : e ∈ rows)
    (htimes : ∀ e' ∈ rows, e'.occurredAt = if e'.id = e.id then 1 else 0)
    (hlast : left e.tripSessionId ≤ asked e.tripSessionId (rows.map request) - e.amount) :
    ¬ Served left (rows.map request) := by
  rcases List.append_of_mem he with ⟨earlier, later, rfl⟩
  have hnone : later = [] := by
    refine List.eq_nil_iff_forall_not_mem.mpr ?_
    intro e' he'
    have horder : OccursBefore e e' :=
      List.rel_of_pairwise_cons (List.pairwise_append.mp hsorted).2.1 he'
    have htime := htimes e (by simp)
    have htime' := htimes e' (by simp [he'])
    rw [if_pos rfl] at htime
    have hsame : e'.id = e.id := by
      by_contra hne
      rw [if_neg hne] at htime'
      simp only [OccursBefore] at horder
      omega
    rw [List.map_append, List.nodup_append, List.map_cons, List.nodup_cons] at hids
    exact hids.2.1.1 (hsame ▸ List.mem_map_of_mem he')
  subst hnone
  rw [served_iff (request_positive hpositive)]
  intro hall
  have hbefore := hall (earlier.map request) (request e) [] (by simp)
  simp only [request] at hbefore hlast
  simp [request] at hlast
  omega

end Times

/-! ## The two answers -/

/-- What a preview says of the money. -/
def PaymentPreview.answer (preview : PaymentPreview) : Currency × Int × Int × Int :=
  (preview.currency, preview.totalAmount, preview.earningsAmount, preview.deductionAmount)

def previewAnswer (auth : Authority) (currency : String) (ids : List Id) (s : Store) :
    Option (Currency × Int × Int × Int) :=
  (previewPaymentSelection auth currency ids s).toOption.map (·.answer)

theorem previewAnswer_eq_some_iff {answer : Currency × Int × Int × Int} :
    previewAnswer auth currency ids s = some answer
      ↔ ∃ preview, previewPaymentSelection auth currency ids s = .ok preview
        ∧ preview.answer = answer := by
  rw [previewAnswer]
  cases previewPaymentSelection auth currency ids s <;> simp [Except.toOption]

/-- The money of a selection, which no order changes. -/
def selectionAnswer (s : Store) (currency : String) (ids : List Id) :
    Currency × Int × Int × Int :=
  let c := normalizeCurrency currency
  let rows := selectedRows s currency ids
  (c, earningsOf s c rows - deductionsOf s c rows, earningsOf s c rows, deductionsOf s c rows)

theorem previewAnswer_eq_some (hinv : LedgerInv s) (hcurrency : currency ≠ "")
    (hids : 1 ≤ ids.length ∧ ids.length ≤ 100 ∧ ids.Nodup) {answer : Currency × Int × Int × Int} :
    previewAnswer auth currency ids s = some answer
      ↔ SelectionClear auth s currency ids
        ∧ Served (payableOf s (normalizeCurrency currency))
            ((byOccurrence (selectedRows s currency ids)).map request)
        ∧ answer = selectionAnswer s currency ids := by
  have hpositive : ∀ e ∈ byOccurrence (selectedRows s currency ids), 0 < e.amount :=
    fun e he => selected_positive hcurrency e ((byOccurrence_perm _).mem_iff.mp he)
  have hearnings := earningsOf_perm hpositive (byOccurrence_perm _) s (normalizeCurrency currency)
  have hdeductions := deductionsOf_perm hpositive (byOccurrence_perm _) s
    (normalizeCurrency currency)
  constructor
  · intro h
    rcases previewAnswer_eq_some_iff.mp h with ⟨preview, hpreview, rfl⟩
    rcases (previewPaymentSelection_iff hinv hcurrency rfl hids).mp hpreview with
      ⟨hclear, hserved, rfl⟩
    refine ⟨hclear, hserved, ?_⟩
    rw [PaymentPreview.answer, hearnings, hdeductions, selectionAnswer]
  · rintro ⟨hclear, hserved, rfl⟩
    have hpreview := (@previewPaymentSelection_iff s auth _ hinv _ _ hcurrency rfl hids _).mpr
      ⟨hclear, hserved, rfl⟩
    rw [previewAnswer, hpreview, selectionAnswer, ← hearnings, ← hdeductions]
    rfl

theorem SelectionClear.reservedRows_perm (h : SelectionClear auth s currency ids)
    (hinv : LedgerInv s) : (reservedRows s ids).Perm (selectedRows s currency ids) := by
  rw [h.rows_eq hinv]
  exact orderBy_perm _ _

theorem selectionAnswer_relabelled {ρ : Id → Id} {τ : Id → Int} (hρ : Function.Injective ρ)
    (hinv : LedgerInv s) :
    selectionAnswer (relabelled ρ τ s) currency (ids.map ρ) = selectionAnswer s currency ids := by
  simp only [selectionAnswer, selectedRows_relabelled hρ, earningsOf_relabelled hρ,
    deductionsOf_relabelled hρ hinv]

theorem served_relabelled {ρ : Id → Id} {τ : Id → Int} (hρ : Function.Injective ρ)
    (hcurrency : currency ≠ "")
    (hfree : OrderFree left ((selectedRows s currency ids).map request)) :
    Served left
        ((byOccurrence (selectedRows (relabelled ρ τ s) currency (ids.map ρ))).map request)
      ↔ Served left ((byOccurrence (selectedRows s currency ids)).map request) := by
  have hpositive : ∀ row ∈ (selectedRows s currency ids).map request, 0 < row.2 :=
    request_positive (selected_positive hcurrency)
  have hperm := ((byOccurrence_perm (selectedRows s currency ids)).map request).symm
  have hperm' : ((selectedRows s currency ids).map request).Perm
      ((byOccurrence (selectedRows (relabelled ρ τ s) currency (ids.map ρ))).map request) := by
    have hother := ((byOccurrence_perm
      (selectedRows (relabelled ρ τ s) currency (ids.map ρ))).map request).symm
    rw [selectedRows_relabelled hρ, request_relabelled] at hother
    rw [selectedRows_relabelled hρ]
    exact hother
  exact (hfree.served_perm hpositive hperm').symm.trans (hfree.served_perm hpositive hperm)

/-- A selection that is not `OrderFree` is served under some times and not under others. -/
theorem exists_times (hinv : LedgerInv s) (hcurrency : currency ≠ "")
    (hfree : ¬ OrderFree left ((selectedRows s currency ids).map request)) :
    (∃ τ, Served left ((byOccurrence (selectedRows (relabelled id τ s) currency ids)).map request))
    ∧ ∃ τ, ¬ Served left
        ((byOccurrence (selectedRows (relabelled id τ s) currency ids)).map request) := by
  classical
  let rows := selectedRows s currency ids
  have hrelabelled : ∀ τ, selectedRows (relabelled id τ s) currency ids
      = rows.map (relabelEntry id τ) := by
    intro τ
    have hrows : selectedRows (relabelled id τ s) currency (ids.map id)
        = rows.map (relabelEntry id τ) := selectedRows_relabelled Function.injective_id
    rwa [List.map_id] at hrows
  have hids : (rows.map (·.id)).Nodup := by
    refine hinv.entryIds.sublist (List.Sublist.map _ ?_)
    exact List.filter_sublist
  -- the rows under any times
  have htimed : ∀ τ, let timed := byOccurrence (rows.map (relabelEntry id τ))
      (∀ e ∈ timed, 0 < e.amount) ∧ (timed.map (·.id)).Nodup ∧ timed.Pairwise OccursBefore
        ∧ (∀ e, e ∈ timed ↔ ∃ e₀ ∈ rows, relabelEntry id τ e₀ = e)
        ∧ ∀ trip, asked trip (timed.map request) = asked trip (rows.map request) := by
    intro τ
    have hperm := byOccurrence_perm (rows.map (relabelEntry id τ))
    have hmem : ∀ e, e ∈ byOccurrence (rows.map (relabelEntry id τ))
        ↔ ∃ e₀ ∈ rows, relabelEntry id τ e₀ = e := by
      intro e
      rw [hperm.mem_iff, List.mem_map]
    refine ⟨?_, ?_, pairwise_byOccurrence _, hmem, ?_⟩
    · intro e he
      rcases (hmem e).mp he with ⟨e₀, he₀, rfl⟩
      exact selected_positive hcurrency e₀ he₀
    · refine ((hperm.map _).nodup_iff).mpr ?_
      rw [List.map_map]
      exact hids
    · intro trip
      have hasked := asked_perm (hperm.map request) trip
      rwa [request_relabelled] at hasked
  simp only [OrderFree, not_or, not_forall, not_exists, not_and, List.forall_mem_map] at hfree
  rcases hfree with ⟨hnot, hlast⟩
  simp only [hrelabelled]
  constructor
  · -- each trip's credit that may come last, comes last
    have hchosen : ∀ trip, ∃ id, (∃ e ∈ rows, e.tripSessionId = trip) → ∃ e ∈ rows, e.id = id
        ∧ e.tripSessionId = trip ∧ asked trip (rows.map request) - e.amount < left trip := by
      intro trip
      by_cases htrip : ∃ e ∈ rows, e.tripSessionId = trip
      · rcases htrip with ⟨e, he, rfl⟩
        rcases hlast e he with ⟨e', he', hsame, hroom⟩
        have htrip : e'.tripSessionId = e.tripSessionId := hsame
        refine ⟨e'.id, fun _ => ⟨e', he', rfl, htrip, ?_⟩⟩
        rw [← htrip]
        exact not_le.mp hroom
      · exact ⟨0, fun h => absurd h htrip⟩
    choose chosen hchosen using hchosen
    let τ := fun entryId : Id =>
      if ∃ e ∈ rows, e.id = entryId ∧ e.id = chosen e.tripSessionId then (1 : Int) else 0
    rcases htimed τ with ⟨hpositive, hnodup, hsorted, hmem, hasked⟩
    refine ⟨τ, served_of_chosen hpositive hnodup hsorted chosen ?_ ?_⟩
    · intro e he
      rcases (hmem e).mp he with ⟨e₀, he₀, rfl⟩
      have hiff : (∃ e ∈ rows, e.id = e₀.id ∧ e.id = chosen e.tripSessionId)
          ↔ e₀.id = chosen e₀.tripSessionId := by
        constructor
        · rintro ⟨e, he, hid, hlast⟩
          rcases eq_of_key_eq hids he he₀ hid with rfl
          exact hlast
        · exact fun h => ⟨e₀, he₀, rfl, h⟩
      simp only [relabelEntry, τ, hiff, id]
    · intro e he
      rcases (hmem e).mp he with ⟨e₀, he₀, rfl⟩
      rcases hchosen e₀.tripSessionId ⟨e₀, he₀, rfl⟩ with ⟨e', he', hid, htrip, hroom⟩
      refine ⟨relabelEntry id τ e', (hmem _).mpr ⟨e', he', rfl⟩, hid, htrip, ?_⟩
      rw [hasked]
      exact hroom
  · -- a credit that may not come last, comes last
    rcases hnot with ⟨e, he, hfull⟩
    let τ := fun entryId : Id => if entryId = e.id then (1 : Int) else 0
    rcases htimed τ with ⟨hpositive, hnodup, hsorted, hmem, hasked⟩
    refine ⟨τ, not_served_of_chosen hpositive hnodup hsorted ((hmem _).mpr ⟨e, he, rfl⟩) ?_ ?_⟩
    · intro e' he'
      rcases (hmem e').mp he' with ⟨e₀, he₀, rfl⟩
      rfl
    · rw [hasked]
      exact not_lt.mp hfull

/-! ## Agreement -/

section Agreement

variable [Hashing]

/-- The preview succeeds when the reservation does, announces what it writes, and answers the
same for credits with other ids and times. -/
structure PreviewAgrees (auth : Authority) (s : Store) (batch : PayoutBatch) (actor : Id)
    (reason : String) (lineId : Id → Id) (currency : String) (ids : List Id) : Prop where
  succeeds : (∃ preview, previewPaymentSelection auth currency ids s = .ok preview)
    ↔ ∃ s', reservePayoutBatch auth batch.id ids actor reason lineId s = .ok s'
  totals : ∀ preview s', previewPaymentSelection auth currency ids s = .ok preview →
    reservePayoutBatch auth batch.id ids actor reason lineId s = .ok s' →
      preview.totalAmount = totalAmount (newLines s s')
      ∧ preview.deductionAmount = offsetTotal (newOffsets s s')
      ∧ preview.earningsAmount = totalAmount (newLines s s') + offsetTotal (newOffsets s s')
  unlabelled : ∀ ρ τ, Function.Injective ρ →
    previewAnswer auth currency (ids.map ρ) (relabelled ρ τ s) = previewAnswer auth currency ids s

/-- A preview agrees with the reservation just when the order of the credits does not decide
whether the trips can serve them all. -/
theorem previewAgrees_iff (hk : Keyed s.batches) (hlines : ∀ l ∈ s.lines, LineInv l)
    (hinv : LedgerInv s) {batch : PayoutBatch} {actor : Id} {reason : String} {lineId : Id → Id}
    (hreq : SelectionRequest auth s batch actor reason lineId currency ids) :
    PreviewAgrees auth s batch actor reason lineId currency ids
      ↔ (SelectionClear auth s currency ids →
        OrderFree (payableOf s (normalizeCurrency currency))
          ((selectedRows s currency ids).map request)) := by
  have hpositive : ∀ e ∈ selectedRows s currency ids, 0 < e.amount :=
    selected_positive hreq.named
  have hreserve := reservePayoutBatch_iff hk hlines hinv hreq
  have hpreview := fun preview =>
    @previewPaymentSelection_iff s auth _ hinv _ _ hreq.named rfl hreq.distinct preview
  have hrows := byOccurrence_perm (selectedRows s currency ids)
  have hlength : ∀ ρ : Id → Id, Function.Injective ρ →
      1 ≤ (ids.map ρ).length ∧ (ids.map ρ).length ≤ 100 ∧ (ids.map ρ).Nodup := by
    intro ρ hρ
    rw [List.length_map]
    exact ⟨hreq.distinct.1, hreq.distinct.2.1, hreq.distinct.2.2.map hρ⟩
  constructor
  · intro hagree hclear
    by_contra hfree
    -- two orders of occurrence on which the serving differs, though the answer may not
    rcases exists_times hinv hreq.named hfree with ⟨⟨τ, hserved⟩, τ', hunserved⟩
    have hclear' : ∀ τ, SelectionClear auth (relabelled id τ s) currency ids := by
      intro τ
      have hsame : SelectionClear auth (relabelled id τ s) currency (ids.map id) :=
        (selectionClear_relabelled Function.injective_id).mpr hclear
      rwa [List.map_id] at hsame
    have hsame := hagree.unlabelled id τ Function.injective_id
    have hsame' := hagree.unlabelled id τ' Function.injective_id
    rw [List.map_id] at hsame hsame'
    have hinv' : ∀ τ, LedgerInv (relabelled id τ s) :=
      fun τ => ledgerInv_relabelled Function.injective_id hinv
    have hanswer := (previewAnswer_eq_some (hinv' τ) hreq.named hreq.distinct).mpr
      ⟨hclear' τ, by rwa [payableOf_relabelled Function.injective_id], rfl⟩
    rw [hsame, ← hsame'] at hanswer
    have hserved' := ((previewAnswer_eq_some (hinv' τ') hreq.named hreq.distinct).mp hanswer).2.1
    rw [payableOf_relabelled Function.injective_id] at hserved'
    exact hunserved hserved'
  · intro hfree
    refine ⟨?_, ?_, ?_⟩
    · -- the preview serves by occurrence and the reservation by id
      rw [hreserve.1]
      constructor
      · rintro ⟨preview, h⟩
        rcases (hpreview preview).mp h with ⟨hclear, hserved, _⟩
        have hperm := (hrows.trans (hclear.reservedRows_perm hinv).symm).map request
        exact ⟨hclear, (((hfree hclear).perm (hrows.map request).symm).served_perm
          (request_positive (fun e he => hpositive e (hrows.mem_iff.mp he))) hperm).mp hserved⟩
      · rintro ⟨hclear, hserved⟩
        have hperm := (hrows.trans (hclear.reservedRows_perm hinv).symm).map request
        exact ⟨_, (hpreview _).mpr ⟨hclear,
          (((hfree hclear).perm (hrows.map request).symm).served_perm
            (request_positive (fun e he => hpositive e (hrows.mem_iff.mp he))) hperm).mpr hserved,
          rfl⟩⟩
    · intro preview s' h hs'
      rcases (hpreview preview).mp h with ⟨hclear, _, rfl⟩
      rcases hreserve.2 s' hs' with ⟨hearnings, hdeductions⟩
      have hperm := hrows.trans (hclear.reservedRows_perm hinv).symm
      have hpositive' := fun e he => hpositive e (hrows.mem_iff.mp he)
      rw [← earningsOf_perm hpositive' hperm] at hearnings
      rw [← deductionsOf_perm hpositive' hperm] at hdeductions
      simp only
      refine ⟨?_, hdeductions.symm, hearnings.symm⟩
      rw [← hearnings, ← hdeductions]
      omega
    · intro ρ τ hρ
      refine Option.ext (fun answer => ?_)
      rw [previewAnswer_eq_some (ledgerInv_relabelled hρ hinv) hreq.named (hlength ρ hρ),
        previewAnswer_eq_some hinv hreq.named hreq.distinct, selectionClear_relabelled hρ,
        payableOf_relabelled hρ, selectionAnswer_relabelled hρ hinv]
      refine and_congr_right (fun hclear => ?_)
      rw [served_relabelled hρ hreq.named (hfree hclear)]

/-- In every reachable state and for every selection of 1 to 100 credits, the preview agrees
with the reservation just when, if the checks on single credits pass, the order of the credits
does not decide whether the trips can serve them all. -/
theorem preview_agrees_unless_order_decides {w : PayoutSystem} (hw : Reachable payouts w)
    {batch : PayoutBatch} {actor : Id} {reason : String} {lineId : Id → Id}
    (hreq : SelectionRequest auth w.store batch actor reason lineId currency ids) :
    PreviewAgrees auth w.store batch actor reason lineId currency ids
      ↔ (SelectionClear auth w.store currency ids →
        OrderFree (payableOf w.store (normalizeCurrency currency))
          ((selectedRows w.store currency ids).map request)) :=
  previewAgrees_iff (keyed_of_reachable hw) (lineInv_lines_of_reachable hw)
    (ledgerInv_of_reachable hw) hreq

end Agreement

/-- The empty draft of the sample runs. -/
def sampleDraft : PayoutBatch where
  id := 201
  status := .draft
  currency := "NGN"
  createdByUserId := 7

theorem sampleRequest {s : Store} (hbatches : s.batches = [sampleDraft]) (hoffsets : s.offsets = [])
    (ids : List Id) (hids : 1 ≤ ids.length ∧ ids.length ≤ 100 ∧ ids.Nodup) :
    SelectionRequest sampleAuthority s sampleDraft 7 "weekly payout" (· + 200) "NGN" ids where
  distinct := hids
  named := by decide
  draft := ⟨by rw [Store.batch?, hbatches]; rfl, rfl, rfl, by decide, by simp [hoffsets]⟩
  actor := rfl
  reason := ⟨_, by rfl⟩
  lineIds := ⟨fun _ _ h => Nat.add_right_cancel h, by simp [Store.lines, hbatches, sampleDraft]⟩

/-- Two trips that each pay their one credit in full. -/
theorem preview_agrees_two_trips :
    ∃ w, Reachable (@payouts sampleHashing) w
      ∧ previewAnswer sampleAuthority "NGN" [101, 102] w.store = some ("NGN", 10000, 10000, 0)
      ∧ @PreviewAgrees sampleHashing sampleAuthority w.store sampleDraft 7 "weekly payout"
          (· + 200) "NGN" [101, 102] := by
  rcases Machine.exists_reachable (@payouts sampleHashing) (reservedTwoTrips.take 7)
      (fun w => decide (w.store.batches = [sampleDraft] ∧ w.store.offsets = [])
        && decide (previewAnswer sampleAuthority "NGN" [101, 102] w.store
          = some ("NGN", 10000, 10000, 0))
        && decide (OrderFree (payableOf w.store (normalizeCurrency "NGN"))
          ((selectedRows w.store "NGN" [101, 102]).map request))) (by decide +kernel) with
    ⟨w, hw, htest⟩
  simp only [Bool.and_eq_true, decide_eq_true_eq] at htest
  rcases htest with ⟨⟨⟨hbatches, hoffsets⟩, hanswer⟩, hfree⟩
  exact ⟨w, hw, hanswer, (@preview_agrees_unless_order_decides sampleAuthority "NGN" [101, 102]
    sampleHashing w hw sampleDraft 7 "weekly payout" (· + 200)
    (sampleRequest hbatches hoffsets _ (by decide))).mpr (fun _ => hfree)⟩

/-- One trip with a credit of 100.00, a later one of 50.00 and a deduction of 70.00. -/
def sharedTrip : List PayoutAction :=
  [ .openTrip { id := 1, driverProfileId := 11, driverUserId := 21 },
    .ensureLedgerEntry 109 1001 1 10000 "NGN" 0,
    .writeDayDifferentials
      [{ entryId := 104, tripSessionId := 1, deltaAmount := 5000, currency := "NGN" }] 5,
    .releaseLedgerEntry 109,
    .releaseLedgerEntry 104,
    .recordNegativeAdjustment sampleAuthority 109 501 7000 "NGN" "late return" 8 20,
    .createDraft sampleAuthority "NGN" 7 "weekly payout" 201 true ]

/-- By time the first credit takes all 80.00 and the preview refuses; by id the smaller credit
comes first and the reservation pays both. -/
theorem preview_refuses_what_reservation_pays :
    ¬ ∀ w, Reachable (@payouts sampleHashing) w → ∀ auth batch actor reason lineId currency ids,
      SelectionRequest auth w.store batch actor reason lineId currency ids →
        @PreviewAgrees sampleHashing auth w.store batch actor reason lineId currency ids := by
  intro hagree
  rcases Machine.exists_reachable (@payouts sampleHashing) sharedTrip
      (fun w => decide (w.store.batches = [sampleDraft] ∧ w.store.offsets = [])
        && decide (previewAnswer sampleAuthority "NGN" [104, 109] w.store = none)
        && (@reservePayoutBatch sampleHashing sampleAuthority 201 [104, 109] 7 "weekly payout"
          (· + 200) w.store).toOption.isSome) (by decide +kernel) with ⟨w, hw, htest⟩
  simp only [Bool.and_eq_true, decide_eq_true_eq] at htest
  rcases htest with ⟨⟨⟨hbatches, hoffsets⟩, hnone⟩, hreserved⟩
  have hsame := hagree w hw _ _ _ _ _ _ _
    (sampleRequest hbatches hoffsets [104, 109] (by decide))
  have hreserve : ∃ s', @reservePayoutBatch sampleHashing sampleAuthority 201 [104, 109] 7
      "weekly payout" (· + 200) w.store = .ok s' := by
    cases h : @reservePayoutBatch sampleHashing sampleAuthority 201 [104, 109] 7
        "weekly payout" (· + 200) w.store with
    | error error => simp [h, Except.toOption] at hreserved
    | ok s' => exact ⟨s', rfl⟩
  rcases (@PreviewAgrees.succeeds sampleHashing _ _ _ _ _ _ _ _ hsame).mpr hreserve with ⟨preview, hpreview⟩
  rw [previewAnswer, hpreview] at hnone
  simp [Except.toOption] at hnone

end Payout
end Mobility
