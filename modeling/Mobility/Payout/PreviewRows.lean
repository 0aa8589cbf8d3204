import Mobility.Lib.Draws
import Mobility.Payout.Allocation
import Mobility.Payout.Preview

/-!
# PreviewRows — a preview draws on trips in the order of its rows

A row is eligible when its own checks pass and its trip has something left; the amounts of
an eligible page are draws on the trips, and its deduction is drawn on the drivers' debts.
-/

namespace Mobility
namespace Payout

open Lib

variable {s : Store} {auth : Authority} {c : Currency} {left : Option Id → Int}
  {rows : List EarningsLedgerEntry} {e : EarningsLedgerEntry}

/-- What a credit asks of its trip. -/
def request (e : EarningsLedgerEntry) : Option Id × Int :=
  (e.tripSessionId, e.amount)

/-- What trips can pay before anything of the selection is paid. -/
def payableOf (s : Store) (c : Currency) (trip : Option Id) : Int :=
  trip.elim 0 (fun tripId => (s.tripMoneyPosition tripId c).batchPayable)

/-- The checks on a credit that do not depend on the rest of the selection. -/
structure RowClear (auth : Authority) (s : Store) (e : EarningsLedgerEntry) : Prop where
  trip : ∃ tripId, e.tripSessionId = some tripId ∧ auth.assessmentCurrent tripId = true
    ∧ auth.held tripId = false
  lines : ∀ l ∈ s.lines, l.ledgerEntryId = e.id → l.reservationActive = false ∧ l.status ≠ .failed
  payee : ∃ versions, auth.payeeAuthority e.driverProfileId e.driverUserId = .ok versions

/-! ## One row -/

theorem lineReasons_eq_nil {reasons : List String} (h : reasons = []) :
    lineReasons s e reasons = []
      ↔ ∀ l ∈ s.lines, l.ledgerEntryId = e.id → l.reservationActive = false ∧ l.status ≠ .failed := by
  subst h
  unfold lineReasons
  by_cases hactive : (s.lines.filter (·.ledgerEntryId = e.id)).any (·.reservationActive) = true
  · rw [if_pos hactive, if_neg List.not_mem_nil]
    rcases List.any_eq_true.mp hactive with ⟨l, hl, hlactive⟩
    rcases List.mem_filter.mp hl with ⟨hmem, hid⟩
    refine ⟨fun h => absurd h (by simp), fun h => ?_⟩
    have hinactive := (h l hmem (by simpa using hid)).1
    exact absurd (hlactive.symm.trans hinactive) (by simp)
  · rw [if_neg hactive]
    have hnone : ∀ l ∈ s.lines, l.ledgerEntryId = e.id → l.reservationActive = false := by
      intro l hl hid
      by_contra hon
      exact hactive (List.any_eq_true.mpr ⟨l, List.mem_filter.mpr ⟨hl, by simpa using hid⟩,
        by simpa using hon⟩)
    by_cases hfailed : (s.lines.filter (·.ledgerEntryId = e.id)).any (·.status = .failed) = true
    · rw [if_pos hfailed]
      rcases List.any_eq_true.mp hfailed with ⟨l, hl, hlfailed⟩
      rcases List.mem_filter.mp hl with ⟨hmem, hid⟩
      refine ⟨fun h => absurd h (by simp), fun h => ?_⟩
      exact absurd (by simpa using hlfailed) (h l hmem (by simpa using hid)).2
    · rw [if_neg hfailed]
      refine ⟨fun _ l hl hid => ⟨hnone l hl hid, fun hstatus => ?_⟩, fun _ => rfl⟩
      exact hfailed (List.any_eq_true.mpr ⟨l, List.mem_filter.mpr ⟨hl, by simpa using hid⟩,
        by simpa using hstatus⟩)

theorem pageItem_amount {remainingByTrip : RemainingByTrip} (hcurrency : e.currency = c)
    (hst : ∀ tripId, pageRemaining s remainingByTrip tripId c = left (some tripId))
    (htrip : e.tripSessionId.isSome) :
    (pageItem auth s remainingByTrip e).amount = min e.amount (left e.tripSessionId) := by
  rcases Option.isSome_iff_exists.mp htrip with ⟨tripId, htrip⟩
  simp [pageItem, tripShare, htrip, hcurrency, hst]

theorem pageItem_eligible {remainingByTrip : RemainingByTrip} (hcurrency : e.currency = c)
    (hst : ∀ tripId, pageRemaining s remainingByTrip tripId c = left (some tripId)) :
    (pageItem auth s remainingByTrip e).eligible = true
      ↔ RowClear auth s e ∧ 0 < min e.amount (left e.tripSessionId) := by
  have hpayee : payeeReasons (auth.payeeAuthority e.driverProfileId e.driverUserId) = []
      ↔ ∃ versions, auth.payeeAuthority e.driverProfileId e.driverUserId = .ok versions := by
    cases auth.payeeAuthority e.driverProfileId e.driverUserId with
    | ok versions => simp [payeeReasons]
    | error error => simp [payeeReasons]
  rw [PaymentItem.eligible, pageItem, List.isEmpty_iff, List.append_eq_nil_iff,
    List.append_eq_nil_iff, hpayee]
  cases htrip : e.tripSessionId with
  | none =>
      refine ⟨fun h => absurd h.1.1 (by simp [tripShare, htrip]), fun h => ?_⟩
      rcases h.1.trip with ⟨tripId, hsome, _⟩
      exact absurd (htrip.symm.trans hsome) (by simp)
  | some tripId =>
      have hshare : (tripShare auth s remainingByTrip e).2 = []
          ↔ 0 < min e.amount (left (some tripId)) ∧ auth.assessmentCurrent tripId = true
            ∧ auth.held tripId = false := by
        simp [tripShare, htrip, hcurrency, hst]
      constructor
      · rintro ⟨⟨htripOk, hlines⟩, hpayeeOk⟩
        rcases hshare.mp htripOk with ⟨hpositive, hassessed, hheld⟩
        exact ⟨⟨⟨tripId, htrip, hassessed, hheld⟩, (lineReasons_eq_nil htripOk).mp hlines, hpayeeOk⟩,
          hpositive⟩
      · rintro ⟨hclear, hpositive⟩
        rcases hclear.trip with ⟨tripId', htrip', hassessed, hheld⟩
        rcases Option.some.inj (htrip.symm.trans htrip') with rfl
        have htripOk := hshare.mpr ⟨hpositive, hassessed, hheld⟩
        exact ⟨⟨htripOk, (lineReasons_eq_nil htripOk).mpr hclear.lines⟩, hclear.payee⟩

/-- An eligible row takes its amount from its trip. -/
theorem pageRow_remaining {st : PageState} (hcurrency : e.currency = c)
    (hst : ∀ tripId, pageRemaining s st.remainingByTrip tripId c = left (some tripId))
    (heligible : (pageItem auth s st.remainingByTrip e).eligible = true) (tripId : Id) :
    pageRemaining s (pageRow auth s st e).remainingByTrip tripId c
      = leftAfter left (request e) (some tripId) := by
  rcases ((pageItem_eligible hcurrency hst).mp heligible).1.trip with ⟨mine, htrip, _⟩
  have hamount : (pageItem auth s st.remainingByTrip e).amount
      = min e.amount (left e.tripSessionId) :=
    pageItem_amount hcurrency hst (by simp [htrip])
  have hremaining : (pageRow auth s st e).remainingByTrip
      = fun scope => if scope = (mine, e.currency) then
          some (pageRemaining s st.remainingByTrip mine e.currency
            - (pageItem auth s st.remainingByTrip e).amount)
        else st.remainingByTrip scope := by
    simp only [pageRow, htrip, heligible, if_true]
  rw [leftAfter_apply, pageRemaining, hremaining, request, htrip]
  by_cases hsame : tripId = mine
  · subst hsame
    rw [hamount, hcurrency, hst, htrip]
    simp
  · have hother : ¬ (mine = tripId) := fun h => hsame h.symm
    have hkept := hst tripId
    rw [pageRemaining] at hkept
    simp [hsame, hother, hkept]

/-! ## A page -/

theorem pageItems_grow (auth : Authority) (s : Store) : ∀ (rows : List EarningsLedgerEntry)
    (st : PageState), ∃ items, (rows.foldl (pageRow auth s) st).items = st.items ++ items := by
  intro rows
  induction rows with
  | nil => exact fun st => ⟨[], (List.append_nil _).symm⟩
  | cons e rows ih =>
      intro st
      rcases ih (pageRow auth s st e) with ⟨items, hitems⟩
      refine ⟨pageItem auth s st.remainingByTrip e :: items, ?_⟩
      rw [List.foldl_cons, hitems]
      exact List.append_assoc _ _ _

/-- The items of a page, as draws on the trips. -/
theorem pageItems_draws : ∀ {rows : List EarningsLedgerEntry} {left : Option Id → Int}
    {st : PageState}, (∀ e ∈ rows, e.currency = c) →
      (∀ tripId, pageRemaining s st.remainingByTrip tripId c = left (some tripId)) →
      ∃ items, (rows.foldl (pageRow auth s) st).items = st.items ++ items
        ∧ ((∀ item ∈ items, item.eligible = true)
          ↔ (∀ e ∈ rows, RowClear auth s e) ∧ Served left (rows.map request))
        ∧ ((∀ item ∈ items, item.eligible = true) →
          items.map (·.amount) = (draws left (rows.map request)).map (·.2)
            ∧ items.map (·.driverProfileId) = rows.map (·.driverProfileId)) := by
  intro rows
  induction rows with
  | nil =>
      intro left st _ _
      exact ⟨[], (List.append_nil _).symm, by simp [Served, draws], fun _ => ⟨rfl, rfl⟩⟩
  | cons e rows ih =>
      intro left st hcurrency hst
      have he := hcurrency e List.mem_cons_self
      have hrow : (pageItem auth s st.remainingByTrip e).eligible = true
          ↔ RowClear auth s e ∧ 0 < min e.amount (left e.tripSessionId) :=
        pageItem_eligible he hst
      have hsplit : Served left ((e :: rows).map request)
          ↔ 0 < min e.amount (left e.tripSessionId)
            ∧ Served (leftAfter left (request e)) (rows.map request) := by
        simp only [Served, List.map_cons, draws, List.forall_mem_cons]
        rfl
      by_cases heligible : (pageItem auth s st.remainingByTrip e).eligible = true
      · rcases ih (fun other hother => hcurrency other (List.mem_cons_of_mem _ hother))
          (pageRow_remaining he hst heligible) with ⟨items, hitems, hiff, hdraws⟩
        rcases hrow.mp heligible with ⟨hclear, hpositive⟩
        refine ⟨pageItem auth s st.remainingByTrip e :: items, ?_, ?_, ?_⟩
        · rw [List.foldl_cons, hitems]
          exact List.append_assoc _ _ _
        · rw [List.forall_mem_cons, List.forall_mem_cons, hiff, hsplit]
          tauto
        · intro hall
          rcases hdraws (List.forall_mem_cons.mp hall).2 with ⟨hamounts, hdrivers⟩
          rcases hclear.trip with ⟨tripId, htrip, _⟩
          refine ⟨?_, ?_⟩
          · rw [List.map_cons, hamounts, pageItem_amount he hst (by simp [htrip])]
            rfl
          · rw [List.map_cons, hdrivers]
            rfl
      · -- a row that is not eligible fails the page
        rcases pageItems_grow auth s rows (pageRow auth s st e) with ⟨items, hitems⟩
        refine ⟨pageItem auth s st.remainingByTrip e :: items, ?_, ?_, ?_⟩
        · rw [List.foldl_cons, hitems]
          exact List.append_assoc _ _ _
        · refine ⟨fun hall => absurd (hall _ List.mem_cons_self) heligible, fun h => ?_⟩
          exact absurd (hrow.mpr ⟨h.1 e List.mem_cons_self, (hsplit.mp h.2).1⟩) heligible
        · exact fun hall => absurd (hall _ List.mem_cons_self) heligible

/-! ## The deduction -/

/-- Whose trip it is. -/
def driverOf (s : Store) (trip : Option Id) : Id :=
  ((trip.bind s.trip?).map (·.driverProfileId)).getD 0

theorem driverOf_eq (hinv : LedgerInv s) (he : e ∈ s.entries) :
    driverOf s e.tripSessionId = e.driverProfileId := by
  rcases hinv.owned e he with ⟨trip, htrip, hid, hdriver⟩
  have hlookup : s.trip? trip.id = some trip :=
    lookup_eq_some hinv.tripIds htrip rfl
  simp [driverOf, hid, hlookup, hdriver]

/-- What the drivers of a selection are paid, row by row. -/
def paidToDrivers (s : Store) (left : Option Id → Int) (rows : List EarningsLedgerEntry) :
    List (Id × Int) :=
  (draws left (rows.map request)).map (fun row => (driverOf s row.1, row.2))

theorem deductItems_draws : ∀ {items : List PaymentItem} {debts : Id → Int} {st : DeductionState},
    (∀ driver, (st.remaining driver).getD (driverDebt s driver c) = debts driver) →
      (items.foldl (deductItem s c) st).deduction = st.deduction
        + ((draws debts (items.map (fun item => (item.driverProfileId, item.amount)))).map
          (·.2)).sum := by
  intro items
  induction items with
  | nil =>
      intro debts st _
      exact (add_zero _).symm
  | cons item items ih =>
      intro debts st hst
      have hmine := hst item.driverProfileId
      have hnext : ∀ driver, ((deductItem s c st item).remaining driver).getD
          (driverDebt s driver c) = leftAfter debts (item.driverProfileId, item.amount) driver := by
        intro driver
        rw [leftAfter_apply]
        by_cases hdriver : driver = item.driverProfileId
        · subst hdriver
          simp [deductItem, hmine]
        · have hother : ¬ (item.driverProfileId = driver) := fun h => hdriver h.symm
          simp [deductItem, hdriver, hother, hst driver]
      rw [List.foldl_cons, ih hnext, List.map_cons, draws, List.map_cons, List.sum_cons]
      simp only [deductItem, hmine]
      exact add_assoc _ _ _

/-- What rows earn in all, drawn in their order. -/
def earningsOf (s : Store) (c : Currency) (rows : List EarningsLedgerEntry) : Int :=
  ((draws (payableOf s c) (rows.map request)).map (·.2)).sum

/-- What is deducted from rows for the debts of their drivers. -/
def deductionsOf (s : Store) (c : Currency) (rows : List EarningsLedgerEntry) : Int :=
  ((draws (driverDebt s · c) (paidToDrivers s (payableOf s c) rows)).map (·.2)).sum

theorem payableOf_nonneg (s : Store) (c : Currency) (trip : Option Id) : 0 ≤ payableOf s c trip := by
  cases trip with
  | none => exact le_refl _
  | some tripId => exact tripMoneyPosition_batchPayable_nonneg s tripId c

theorem driverDebt_nonneg (s : Store) (driver : Id) (c : Currency) : 0 ≤ driverDebt s driver c := by
  refine List.sum_nonneg ?_
  intro debt hdebt
  rcases List.mem_map.mp hdebt with ⟨x, _, rfl⟩
  exact le_max_right _ _

section Orders

variable {rows' : List EarningsLedgerEntry} (hrows : ∀ e ∈ rows, 0 < e.amount)
  (hperm : rows.Perm rows')
include hrows

theorem request_positive : ∀ row ∈ rows.map request, 0 < row.2 := by
  intro row hrow
  rcases List.mem_map.mp hrow with ⟨e, he, rfl⟩
  exact hrows e he

include hperm

theorem earningsOf_perm (s : Store) (c : Currency) : earningsOf s c rows = earningsOf s c rows' := by
  have hrows' : ∀ e ∈ rows', 0 < e.amount := fun e he => hrows e (hperm.mem_iff.mpr he)
  exact sum_draws_congr (payableOf_nonneg s c) (fun row hrow => (request_positive hrows row hrow).le)
    (fun row hrow => (request_positive hrows' row hrow).le) (asked_perm (hperm.map request))

theorem deductionsOf_perm (s : Store) (c : Currency) :
    deductionsOf s c rows = deductionsOf s c rows' := by
  have hrows' : ∀ e ∈ rows', 0 < e.amount := fun e he => hrows e (hperm.mem_iff.mpr he)
  have hnonneg : ∀ {rows₀ : List EarningsLedgerEntry}, (∀ e ∈ rows₀, 0 < e.amount) →
      ∀ row ∈ paidToDrivers s (payableOf s c) rows₀, 0 ≤ row.2 := by
    intro rows₀ h row hrow
    rcases List.mem_map.mp hrow with ⟨row₀, hrow₀, rfl⟩
    exact draws_nonneg (payableOf_nonneg s c) (fun row hrow => (request_positive h row hrow).le)
      row₀ hrow₀
  -- a driver is paid what its trips give, in any order
  have hdriver : ∀ (driver : Id) (rows₀ : List EarningsLedgerEntry),
      asked driver (paidToDrivers s (payableOf s c) rows₀)
        = total (fun row => decide (driverOf s row.1 = driver)) (·.2)
            (draws (payableOf s c) (rows₀.map request)) := by
    intro driver rows₀
    rw [asked, paidToDrivers, total, List.filter_map, List.map_map]
    rfl
  refine sum_draws_congr (driverDebt_nonneg s · c) (hnonneg hrows) (hnonneg hrows') ?_
  intro driver
  rw [hdriver, hdriver]
  refine total_of_asked (fun trip => ?_) (fun trip => decide (driverOf s trip = driver))
  rw [total_draws (payableOf_nonneg s c) (fun row hrow => (request_positive hrows row hrow).le),
    total_draws (payableOf_nonneg s c) (fun row hrow => (request_positive hrows' row hrow).le),
    asked_perm (hperm.map request)]

end Orders

/-! ## The preview -/

/-- The selected credits, as the query finds them. -/
abbrev selectedRows (s : Store) (currency : String) (ids : List Id) : List EarningsLedgerEntry :=
  payableQuery currency (some ids) s

/-- The checks on a selection that do not depend on how trips are shared. -/
structure SelectionClear (auth : Authority) (s : Store) (currency : String) (ids : List Id) :
    Prop where
  found : (selectedRows s currency ids).length = ids.length
  rows : ∀ e ∈ selectedRows s currency ids, RowClear auth s e

theorem byOccurrence_perm (rows : List EarningsLedgerEntry) : (byOccurrence rows).Perm rows :=
  List.perm_insertionSort _ _

theorem currency_of_selected {currency : String} {ids : List Id} (hcurrency : currency ≠ "")
    (he : e ∈ selectedRows s currency ids) :
    e ∈ s.entries ∧ e.status = .available ∧ e.entryType ≠ .reversal ∧ 0 < e.amount
      ∧ e.currency = normalizeCurrency currency ∧ e.id ∈ ids := by
  rcases List.mem_filter.mp he with ⟨hmem, hchecks⟩
  simp only [Bool.and_eq_true, decide_eq_true_eq, Bool.or_eq_true, Option.all_some,
    decide_eq_true_eq, hcurrency, false_or] at hchecks
  exact ⟨hmem, hchecks.1.1.1.1, hchecks.1.1.1.2, hchecks.1.1.2, hchecks.1.2, hchecks.2⟩

/-- The preview of a well-formed selection. -/
theorem previewPaymentSelection_iff (hinv : LedgerInv s) {currency : String} {ids : List Id}
    (hcurrency : currency ≠ "") (hc : normalizeCurrency currency = c)
    (hids : 1 ≤ ids.length ∧ ids.length ≤ 100 ∧ ids.Nodup) {preview : PaymentPreview} :
    previewPaymentSelection auth currency ids s = .ok preview
      ↔ SelectionClear auth s currency ids
        ∧ Served (payableOf s c) ((byOccurrence (selectedRows s currency ids)).map request)
        ∧ preview = {
            currency := c
            totalAmount := earningsOf s c (byOccurrence (selectedRows s currency ids))
              - deductionsOf s c (byOccurrence (selectedRows s currency ids))
            earningsAmount := earningsOf s c (byOccurrence (selectedRows s currency ids))
            deductionAmount := deductionsOf s c (byOccurrence (selectedRows s currency ids))
            ledgerEntryIds := orderBy (·) ids } := by
  subst hc
  have hmem : ∀ e ∈ byOccurrence (selectedRows s currency ids), e ∈ selectedRows s currency ids :=
    fun e he => (byOccurrence_perm _).mem_iff.mp he
  have hfirst : ∀ tripId, pageRemaining s ({} : PageState).remainingByTrip tripId
      (normalizeCurrency currency) = payableOf s (normalizeCurrency currency) (some tripId) :=
    fun _ => rfl
  rcases @pageItems_draws s auth _ _ _ _
      (fun e he => (currency_of_selected hcurrency (hmem e he)).2.2.2.2.1) hfirst with
    ⟨items, hitems, heligible, hdraws⟩
  rw [List.nil_append] at hitems
  have hrows : ∀ e, e ∈ byOccurrence (selectedRows s currency ids)
      ↔ e ∈ selectedRows s currency ids := fun e => (byOccurrence_perm _).mem_iff
  -- at most 100 rows are found, so the page holds them all
  have hpage : ∀ h : (selectedRows s currency ids).length = ids.length,
      ((byOccurrence (selectedRows s currency ids)).drop 0).take 100
        = byOccurrence (selectedRows s currency ids) := by
    intro h
    rw [List.drop_zero]
    refine List.take_of_length_le ?_
    rw [(byOccurrence_perm _).length_eq, h]
    exact hids.2.1
  have hclear : (∀ e ∈ byOccurrence (selectedRows s currency ids), RowClear auth s e)
      ↔ ∀ e ∈ selectedRows s currency ids, RowClear auth s e :=
    ⟨fun h e he => h e ((hrows e).mpr he), fun h e he => h e ((hrows e).mp he)⟩
  have hprojection : ∀ hlength : (selectedRows s currency ids).length = ids.length,
      eligiblePaymentEntries auth 100 0 currency (some ids) s = .ok {
        items := items
        total := ids.length
        limit := 100
        offset := 0
        pageEligibleTotals := eligibleTotals items } := by
    intro hlength
    have hitems' : pageItems auth s (byOccurrence (selectedRows s currency ids)) = items := hitems
    simp only [eligiblePaymentEntries, hpage hlength, hitems', hlength]
    rfl
  have hmoney : (∀ item ∈ items, item.eligible = true) →
      items.map (fun item => (item.driverProfileId, item.amount))
        = paidToDrivers s (payableOf s (normalizeCurrency currency))
            (byOccurrence (selectedRows s currency ids)) := by
    intro hall
    rcases hdraws hall with ⟨hamounts, hdrivers⟩
    have hkeys : ((draws (payableOf s (normalizeCurrency currency))
          ((byOccurrence (selectedRows s currency ids)).map request)).map (·.1)).map (driverOf s)
        = (byOccurrence (selectedRows s currency ids)).map (·.driverProfileId) := by
      rw [draws_keys, List.map_map, List.map_map]
      refine List.map_congr_left ?_
      intro e he
      exact driverOf_eq hinv (currency_of_selected hcurrency (hmem e he)).1
    rw [← List.zip_map', hamounts, hdrivers, ← hkeys, List.map_map, List.zip_map']
    rfl
  have hdeduction : (∀ item ∈ items, item.eligible = true) →
      (items.foldl (deductItem s (normalizeCurrency currency)) {}).deduction
        = ((draws (driverDebt s · (normalizeCurrency currency))
          (paidToDrivers s (payableOf s (normalizeCurrency currency))
            (byOccurrence (selectedRows s currency ids)))).map (·.2)).sum := by
    intro hall
    rw [deductItems_draws (fun _ => rfl), hmoney hall]
    exact zero_add _
  constructor
  · intro h
    rcases bind_eq_ok.mp h with ⟨_, _, h⟩
    rcases bind_eq_ok.mp h with ⟨projection, hpage', h⟩
    rcases bind_eq_ok.mp h with ⟨_, hchecked, h⟩
    rcases require_eq_ok.mp hchecked with ⟨htotal, hall⟩
    have hlength : (selectedRows s currency ids).length = ids.length := by
      rcases bind_eq_ok.mp hpage' with ⟨_, _, hpage'⟩
      rcases pure_eq_ok.mp hpage' with rfl
      exact htotal
    rcases Except.ok.inj (hpage'.symm.trans (hprojection hlength)) with rfl
    rcases heligible.mp hall with ⟨hrowsClear, hserved⟩
    refine ⟨⟨hlength, hclear.mp hrowsClear⟩, hserved, ?_⟩
    have hdeducted := hdeduction hall
    rw [← (pure_eq_ok.mp h), (hdraws hall).1, hdeducted, earningsOf, deductionsOf]
  · rintro ⟨hselection, hserved, rfl⟩
    have hall := heligible.mpr ⟨hclear.mpr hselection.rows, hserved⟩
    have hdeducted := hdeduction hall
    refine bind_eq_ok.mpr ⟨⟨⟩, require_of hids, bind_eq_ok.mpr ⟨_,
      hprojection hselection.found, bind_eq_ok.mpr ⟨⟨⟩, require_of ⟨rfl, hall⟩,
        pure_eq_ok.mpr ?_⟩⟩⟩
    rw [(hdraws hall).1, hdeducted, earningsOf, deductionsOf]

end Payout
end Mobility
