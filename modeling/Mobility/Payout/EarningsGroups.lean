import Mobility.Lib.Totals
import Mobility.Payout.EarningsTrips

/-!
# EarningsGroups — from the rows of a driver to the groups of the days

The read is followed step by step: which rows are shown, what each trip posts and what
the groups hold in the end.  Nothing raises when the work days of all rows are known.
-/

namespace Mobility
namespace Payout
namespace EarningsDays

open Lib

/-! ## Postings -/

/-- Postings to groups that exist all go through. -/
theorem postTo_all {postings : List (GroupKey × EarningsGroup)} {groups : Groups}
    (h : ∀ posting ∈ postings, posting.1 ∈ groups.map (·.1)) :
    checkedFold postTo groups postings = .ok (addAll (·.1) (·.2) postings groups) := by
  induction postings generalizing groups with
  | nil => rfl
  | cons posting postings ih =>
      have hstep : postTo groups posting = .ok (addTo posting.1 posting.2 groups) :=
        bind_eq_ok.mpr ⟨⟨⟩, require_of (h posting List.mem_cons_self), rfl⟩
      rw [checkedFold_cons, hstep]
      refine ih ?_
      intro p hp
      exact mem_keys_addTo.mpr (.inl (h p (List.mem_cons_of_mem _ hp)))

section

variable {members : List LedgerRow} {position : TripMoneyPosition} {money : TripDayMoney}
  {currency : Currency}

theorem mem_postings {posting : GroupKey × EarningsGroup}
    (hmoney : MoneyOf members position money) (h : posting ∈ money.postings currency) :
    posting.1.1 ∈ memberDays members ∧ posting.1.2 = currency := by
  simp only [TripDayMoney.postings, List.cons_append, List.mem_cons, List.mem_append,
    List.mem_map] at h
  rcases h with rfl | ⟨entry, hentry, rfl⟩ | ⟨entry, hentry, rfl⟩
  · exact ⟨hmoney.firstDay, rfl⟩
  · exact ⟨hmoney.cashDays entry hentry, rfl⟩
  · exact ⟨hmoney.recoveryDays entry hentry, rfl⟩

end

/-! ## Columns -/

def amountColumn : EarningsGroup →+ Int where
  toFun := (·.amount)
  map_zero' := rfl
  map_add' _ _ := rfl

@[simp]
theorem amountColumn_apply (group : EarningsGroup) : amountColumn group = group.amount := rfl

def toDeductColumn : EarningsGroup →+ Int where
  toFun := (·.toDeduct)
  map_zero' := rfl
  map_add' _ _ := rfl

@[simp]
theorem toDeductColumn_apply (group : EarningsGroup) : toDeductColumn group = group.toDeduct := rfl

def cashPaidColumn : EarningsGroup →+ Int where
  toFun := (·.cashPaid)
  map_zero' := rfl
  map_add' _ _ := rfl

@[simp]
theorem cashPaidColumn_apply (group : EarningsGroup) : cashPaidColumn group = group.cashPaid := rfl

/-- What postings put in a column of the groups that pass a test. -/
def posted (column : EarningsGroup →+ Int) (p : GroupKey → Bool)
    (postings : List (GroupKey × EarningsGroup)) : Int :=
  total (fun posting => p posting.1) (fun posting => column posting.2) postings

section

variable {column : EarningsGroup →+ Int} {p : GroupKey → Bool}

theorem posted_append (postings postings' : List (GroupKey × EarningsGroup)) :
    posted column p (postings ++ postings')
      = posted column p postings + posted column p postings' :=
  total_append

theorem posted_flatMap {α : Type} (xs : List α) (g : α → List (GroupKey × EarningsGroup)) :
    posted column p (xs.flatMap g) = (xs.map (fun x => posted column p (g x))).sum := by
  induction xs with
  | nil => rfl
  | cons x xs ih => rw [List.flatMap_cons, posted_append, ih, List.map_cons, List.sum_cons]

/-- Postings under one currency count wholly or not at all. -/
theorem posted_of_currency {postings : List (GroupKey × EarningsGroup)} {currency c : Currency}
    (h : ∀ posting ∈ postings, posting.1.2 = currency) :
    posted column (fun key => key.2 = c) postings
      = if currency = c then (postings.map (fun posting => column posting.2)).sum else 0 := by
  unfold posted total
  split_ifs with hc
  · rw [List.filter_eq_self.mpr (fun posting hposting => by simp [h posting hposting, hc])]
  · rw [List.filter_eq_nil_iff.mpr (fun posting hposting => by simp [h posting hposting, hc])]
    rfl

/-- Groups that were only posted to hold what was posted. -/
theorem column_of_groups (postings : List (GroupKey × EarningsGroup)) :
    total (fun group => p group.1) (fun group => column group.2)
        (addAll (·.1) (·.2) postings []) = posted column p postings := by
  have hmap : ∀ groups : Groups,
      column (tallied groups) = (groups.map (fun group => column group.2)).sum := by
    intro groups
    rw [tallied, map_list_sum, List.map_map]
    rfl
  have hpostings : column ((postings.filter (fun posting => p posting.1)).map (·.2)).sum
      = posted column p postings := by
    rw [map_list_sum, List.map_map]
    rfl
  have htallied : tallied ((addAll (·.1) (·.2) postings []).filter (fun group => p group.1))
      = ((postings.filter (fun posting => p posting.1)).map (·.2)).sum := by
    rw [tallied_where_addAll]
    simp
  unfold total
  rw [← hmap, htallied, hpostings]

theorem nodup_groups (postings : List (GroupKey × EarningsGroup)) :
    ((addAll (·.1) (·.2) postings []).map (·.1)).Nodup :=
  nodup_keys_addAll List.nodup_nil

/-- One group holds what was posted to its key. -/
theorem column_of_group (column : EarningsGroup →+ Int)
    {postings : List (GroupKey × EarningsGroup)} {group : GroupKey × EarningsGroup} (h : group ∈ addAll (·.1) (·.2) postings []) :
    column group.2 = posted column (fun key => group.1 = key) postings := by
  have hvalue := valueAt_of_mem (nodup_groups postings) h
  rw [valueAt_addAll, valueAt_nil, zero_add] at hvalue
  rw [← hvalue, map_list_sum, List.map_map]
  rfl

end

section

variable {currency c : Currency} {money : TripDayMoney} {row : LedgerRow}

theorem rowPostings_currency :
    ∀ posting ∈ rowPostings row, posting.1.2 = row.entry.currency := by
  intro posting hposting
  rcases List.mem_map.mp hposting with ⟨allocation, _, rfl⟩
  rfl

theorem postings_currency :
    ∀ posting ∈ money.postings currency, posting.1.2 = currency := by
  intro posting h
  simp only [TripDayMoney.postings, List.cons_append, List.mem_cons, List.mem_append,
    List.mem_map] at h
  rcases h with rfl | ⟨entry, _, rfl⟩ | ⟨entry, _, rfl⟩
  all_goals rfl

end

/-! ## The rows of a driver -/

theorem lookup_keyed {κ β : Type} [BEq κ] [LawfulBEq κ] {f : κ → β} {keys : List κ} {k : κ}
    (h : k ∈ keys) : (keys.map (fun k => (k, f k))).lookup k = some (f k) := by
  induction keys with
  | nil => exact absurd h List.not_mem_nil
  | cons k' keys ih =>
      rw [List.map_cons, List.lookup_cons]
      cases hk : k == k' with
      | true => simp [beq_iff_eq.mp hk]
      | false => exact ih ((List.mem_cons.mp h).resolve_left (beq_eq_false_iff_ne.mp hk))

section

variable (s : Store) (rows : List LedgerRow)

/-- The entries that the positions are computed over. -/
def entriesOf : List EarningsLedgerEntry :=
  rows.map (·.entry)

def positionOf (scope : TripScope) : TripMoneyPosition :=
  let tripEntries := (entriesOf rows).filter (·.scope = scope)
  tripCashPosition tripEntries (s.linesOf tripEntries) (s.offsetsFunded scope)
    (s.offsetsReceived scope)

def positionsOf : List (TripScope × TripMoneyPosition) :=
  s.tripMoneyPositions (entriesOf rows)

/-- A voided row shows only where cash was paid for its trip. -/
def shows (row : LedgerRow) : Bool :=
  ¬ (row.entry.status = .voided ∧ (positionOf s rows row.entry.scope).cashPaid = 0)

def shownRows : List LedgerRow :=
  rows.filter (shows s rows)

/-- The rows that the days of a trip are made of. -/
def membersOf (scope : TripScope) : List LedgerRow :=
  (shownRows s rows).filter (·.entry.scope = scope)

def shownScopes : List TripScope :=
  orderedKeys ((shownRows s rows).map (·.entry.scope))

/-- The money of a trip that is shown. -/
def moneyOf (scope : TripScope) : TripDayMoney :=
  (tripDayMoney (membersOf s rows scope) (positionOf s rows scope)).toOption.getD
    { firstDay := 0, floor := 0, cash := [], recoveries := [] }

/-- Everything that is posted to the days. -/
def allPostings : List (GroupKey × EarningsGroup) :=
  (shownRows s rows).flatMap rowPostings
    ++ (shownScopes s rows).flatMap (fun scope => (moneyOf s rows scope).postings scope.2)

variable {s rows}

theorem lookup_positionsOf {scope : TripScope} (h : scope ∈ (entriesOf rows).map (·.scope)) :
    (positionsOf s rows).lookup scope = some (positionOf s rows scope) :=
  lookup_keyed (mem_orderedKeys.mpr h)

theorem scope_mem_entries {row : LedgerRow} (h : row ∈ rows) :
    row.entry.scope ∈ (entriesOf rows).map (·.scope) :=
  List.mem_map.mpr ⟨row.entry, List.mem_map.mpr ⟨row, h, rfl⟩, rfl⟩

theorem mem_shownScopes {scope : TripScope} :
    scope ∈ shownScopes s rows ↔ ∃ row ∈ shownRows s rows, row.entry.scope = scope := by
  rw [shownScopes, mem_orderedKeys, List.mem_map]

theorem membersOf_ne_nil {scope : TripScope} (h : scope ∈ shownScopes s rows) :
    membersOf s rows scope ≠ [] := by
  rcases mem_shownScopes.mp h with ⟨row, hrow, hscope⟩
  exact List.ne_nil_of_mem (List.mem_filter.mpr ⟨hrow, by simpa using hscope⟩)

theorem membersOf_subset {scope : TripScope} {row : LedgerRow} (h : row ∈ membersOf s rows scope) :
    row ∈ rows ∧ row ∈ shownRows s rows ∧ row.entry.scope = scope := by
  rcases List.mem_filter.mp h with ⟨hshown, hscope⟩
  exact ⟨List.mem_of_mem_filter hshown, hshown, by simpa using hscope⟩

theorem moneyOf_spec (hknown : ∀ row ∈ rows, Known row) {scope : TripScope}
    (h : scope ∈ shownScopes s rows) :
    tripDayMoney (membersOf s rows scope) (positionOf s rows scope) = .ok (moneyOf s rows scope)
      ∧ MoneyOf (membersOf s rows scope) (positionOf s rows scope) (moneyOf s rows scope) := by
  rcases tripDayMoney_spec (positionOf s rows scope) (membersOf_ne_nil h)
    (fun row hrow => hknown row (membersOf_subset hrow).1) with ⟨money, hok, hmoney⟩
  have hsame : moneyOf s rows scope = money := by
    rw [moneyOf, hok]
    rfl
  exact ⟨by rw [hsame, hok], hsame ▸ hmoney⟩

/-! ## Showing the rows -/

theorem gather_ok {taken : List LedgerRow} (state : Gathered)
    (htaken : ∀ row ∈ taken, row ∈ rows) (hknown : ∀ row ∈ rows, Known row) :
    checkedFold (gatherRow (positionsOf s rows)) state taken
      = .ok
        { shown := state.shown ++ taken.filter (shows s rows)
          groups := addAll (·.1) (·.2) ((taken.filter (shows s rows)).flatMap rowPostings)
            state.groups } := by
  induction taken generalizing state with
  | nil => simp [addAll]
  | cons row taken ih =>
      have hmem := htaken row List.mem_cons_self
      have hlookup := lookup_positionsOf (s := s) (scope_mem_entries hmem)
      have hrest := fun r hr => htaken r (List.mem_cons_of_mem _ hr)
      rw [checkedFold_cons]
      by_cases hvoided : row.entry.status = .voided
          ∧ (positionOf s rows row.entry.scope).cashPaid = 0
      · have hhidden : shows s rows row = false := by simpa [shows] using hvoided
        have hstep : gatherRow (positionsOf s rows) state row = .ok state := by
          simp only [gatherRow, bind_eq_ok, demand_eq_ok]
          exact ⟨_, hlookup, by simp [hvoided]⟩
        rw [hstep, List.filter_cons_of_neg (by simp [hhidden])]
        exact ih state hrest
      · have hshown : shows s rows row = true := decide_eq_true hvoided
        have hstep : gatherRow (positionsOf s rows) state row = .ok
            { shown := state.shown ++ [row]
              groups := addAll (·.1) (·.2) (rowPostings row) state.groups } := by
          simp only [gatherRow, bind_eq_ok, demand_eq_ok]
          refine ⟨_, hlookup, ?_⟩
          rw [if_neg hvoided]
          exact bind_eq_ok.mpr ⟨⟨⟩, require_of (hknown row hmem), rfl⟩
        rw [hstep, List.filter_cons_of_pos hshown, List.flatMap_cons, addAll_append]
        exact (ih _ hrest).trans (by simp)

/-- The groups that the rows open: one for each day of each shown row. -/
theorem mem_row_groups {key : GroupKey} :
    key ∈ (addAll (·.1) (·.2) ((shownRows s rows).flatMap rowPostings) []).map (·.1)
      ↔ ∃ row ∈ shownRows s rows, key.2 = row.entry.currency
          ∧ ∃ allocation ∈ workDays row, allocation.day = key.1 := by
  rw [mem_keys_addAll]
  simp only [List.map_nil, List.not_mem_nil, false_or, List.mem_flatMap, rowPostings, List.mem_map]
  constructor
  · rintro ⟨posting, ⟨row, hrow, allocation, hallocation, rfl⟩, rfl⟩
    exact ⟨row, hrow, rfl, allocation, hallocation, rfl⟩
  · rintro ⟨row, hrow, hcurrency, allocation, hallocation, hday⟩
    exact ⟨_, ⟨row, hrow, allocation, hallocation, rfl⟩, Prod.ext hday.symm hcurrency⟩

theorem memberDays_groups {scope : TripScope} {day : Day}
    (h : day ∈ memberDays (membersOf s rows scope)) :
    (day, scope.2) ∈ (addAll (·.1) (·.2) ((shownRows s rows).flatMap rowPostings) []).map
      (·.1) := by
  rcases mem_memberDays.mp h with ⟨row, hrow, allocation, hallocation, hday⟩
  rcases membersOf_subset hrow with ⟨_, hshown, hscope⟩
  exact mem_row_groups.mpr ⟨row, hshown, by rw [← hscope]; rfl, allocation, hallocation, hday⟩

/-! ## Settling the trips -/

/-- How the payment of a trip stands. -/
def stateOf (s : Store) (rows : List LedgerRow) (heldTrips : List Id)
    (offsetAt : TripScope → Option Int) (scope : TripScope) : TripState :=
  tripState heldTrips (offsetAt scope) (membersOf s rows scope) (positionOf s rows scope)

variable (heldTrips : List Id) (offsetAt : TripScope → Option Int)

theorem settleTrip_ok (hknown : ∀ row ∈ rows, Known row) {scope : TripScope}
    (hscope : scope ∈ shownScopes s rows) {state : Settled}
    (hgroups : ∀ day ∈ memberDays (membersOf s rows scope),
      (day, scope.2) ∈ state.groups.map (·.1)) :
    settleTrip heldTrips offsetAt (positionsOf s rows) state (scope, membersOf s rows scope) = .ok
      { groups := addAll (·.1) (·.2) ((moneyOf s rows scope).postings scope.2) state.groups
        states := state.states ++ [(scope, stateOf s rows heldTrips offsetAt scope)]
        heldAmounts :=
          if isHeld heldTrips (membersOf s rows scope) (positionOf s rows scope) then
            addTo scope.2 (outstanding (positionOf s rows scope)) state.heldAmounts
          else state.heldAmounts } := by
  rcases moneyOf_spec hknown hscope with ⟨hok, hmoney⟩
  rcases mem_shownScopes.mp hscope with ⟨row, hrow, hrowScope⟩
  have hlookup : (positionsOf s rows).lookup scope = some (positionOf s rows scope) := by
    rw [← hrowScope]
    exact lookup_positionsOf (scope_mem_entries (List.mem_of_mem_filter hrow))
  have hpost : addTripDayMoney state.groups (membersOf s rows scope) (positionOf s rows scope)
      scope.2 = .ok (addAll (·.1) (·.2) ((moneyOf s rows scope).postings scope.2)
        state.groups) := by
    refine bind_eq_ok.mpr ⟨_, hok, postTo_all ?_⟩
    intro posting hposting
    rcases mem_postings hmoney hposting with ⟨hday, hcurrency⟩
    have hkey : posting.1 = (posting.1.1, scope.2) := Prod.ext rfl hcurrency
    rw [hkey]
    exact hgroups posting.1.1 hday
  simp only [settleTrip, bind_eq_ok, demand_eq_ok, pure_eq_ok]
  exact ⟨_, hlookup, _, hpost, rfl⟩

theorem settle_ok (hknown : ∀ row ∈ rows, Known row) {scopes : List TripScope} (state : Settled)
    (hscopes : ∀ scope ∈ scopes, scope ∈ shownScopes s rows)
    (hgroups : ∀ scope ∈ scopes, ∀ day ∈ memberDays (membersOf s rows scope),
      (day, scope.2) ∈ state.groups.map (·.1)) :
    checkedFold (settleTrip heldTrips offsetAt (positionsOf s rows)) state
        (scopes.map (fun scope => (scope, membersOf s rows scope))) = .ok
      { groups := addAll (·.1) (·.2)
          (scopes.flatMap (fun scope => (moneyOf s rows scope).postings scope.2)) state.groups
        states := state.states
          ++ scopes.map (fun scope => (scope, stateOf s rows heldTrips offsetAt scope))
        heldAmounts := addAll (·.2) (fun scope => outstanding (positionOf s rows scope))
          (scopes.filter (fun scope =>
            isHeld heldTrips (membersOf s rows scope) (positionOf s rows scope)))
          state.heldAmounts } := by
  induction scopes generalizing state with
  | nil => simp [addAll]
  | cons scope scopes ih =>
      have hstep := settleTrip_ok heldTrips offsetAt hknown (hscopes scope List.mem_cons_self)
        (hgroups scope List.mem_cons_self)
      rw [List.map_cons, checkedFold_cons, hstep]
      refine (ih _ (fun k hk => hscopes k (List.mem_cons_of_mem _ hk)) ?_).trans ?_
      · intro k hk day hday
        exact mem_keys_addAll.mpr (.inl (hgroups k (List.mem_cons_of_mem _ hk) day hday))
      · by_cases hheld : isHeld heldTrips (membersOf s rows scope) (positionOf s rows scope) = true
        · simp [hheld, addAll]
        · simp [addAll_append, hheld]

/-! ## The days -/

/-- A day shows the money of its group. -/
structure Presents (group : GroupKey × EarningsGroup) (row : EarningsDay) : Prop where
  day : row.day = group.1.1
  currency : row.currency = group.1.2
  amount : row.amount = group.2.amount
  toDeduct : row.toDeduct = group.2.toDeduct
  cashPaid : row.cashPaid = group.2.cashPaid

theorem presentDay_spec {states : List (TripScope × TripState)}
    {group : GroupKey × EarningsGroup}
    (hscopes : ∀ scope ∈ group.2.scopes, (states.lookup scope).isSome)
    (hdates : ∀ scope state, states.lookup scope = some state → state.paid = true →
      state.lastDate.isSome) :
    ∃ day, presentDay states group = .ok day ∧ Presents group day := by
  have hpaid : ∀ scope ∈ group.2.scopes, (states.lookup scope).any (·.paid) = true →
      ((states.lookup scope).bind (·.lastDate)).isSome := by
    intro scope hscope hany
    rcases Option.isSome_iff_exists.mp (hscopes scope hscope) with ⟨state, hstate⟩
    rw [hstate] at hany ⊢
    exact hdates scope state hstate hany
  simp only [presentDay, bind_eq_ok, require_eq_ok, pure_eq_ok]
  refine ⟨_, ⟨⟨⟩, hscopes, ⟨⟩, ?_, rfl⟩, rfl, rfl, rfl, rfl, rfl⟩
  rintro ⟨hall, _⟩ scope hscope
  exact hpaid scope hscope ((of_decide_eq_true hall).2 scope hscope)

/-- The groups in the end. -/
def finalGroups (s : Store) (rows : List LedgerRow) : Groups :=
  addAll (·.1) (·.2) (allPostings s rows) []

/-- The trips whose money is kept back. -/
def heldScopes (s : Store) (rows : List LedgerRow) (heldTrips : List Id) : List TripScope :=
  (shownScopes s rows).filter (fun scope =>
    isHeld heldTrips (membersOf s rows scope) (positionOf s rows scope))

/-- A group names trips that are shown. -/
theorem scopes_shown : ∀ group ∈ finalGroups s rows, ∀ scope ∈ group.2.scopes,
    scope ∈ shownScopes s rows := by
  refine forall_addAll (fun g : EarningsGroup => ∀ scope ∈ g.scopes, scope ∈ shownScopes s rows)
    ?_ ?_ (by simp)
  · intro g g' hg hg' scope hscope
    rcases Finset.mem_union.mp hscope with hscope | hscope
    · exact hg scope hscope
    · exact hg' scope hscope
  · intro posting hposting scope hscope
    rcases List.mem_append.mp hposting with hposting | hposting
    · rcases List.mem_flatMap.mp hposting with ⟨row, hrow, hposting⟩
      rcases List.mem_map.mp hposting with ⟨allocation, _, rfl⟩
      dsimp only at hscope
      split_ifs at hscope
      · simp at hscope
      · rw [Finset.mem_singleton.mp hscope]
        exact mem_shownScopes.mpr ⟨row, hrow, rfl⟩
    · -- a trip adds money, no scopes
      rcases List.mem_flatMap.mp hposting with ⟨trip, _, hposting⟩
      simp only [TripDayMoney.postings, List.cons_append, List.mem_cons, List.mem_append,
        List.mem_map] at hposting
      rcases hposting with rfl | ⟨entry, _, rfl⟩ | ⟨entry, _, rfl⟩
      all_goals simp at hscope

theorem paid_has_date (scope : TripScope)
    (h : (stateOf s rows heldTrips offsetAt scope).paid = true) :
    (stateOf s rows heldTrips offsetAt scope).lastDate.isSome = true := by
  simp only [stateOf, tripState, Bool.and_eq_true, decide_eq_true_eq] at h ⊢
  rw [Option.isSome_iff_ne_none]
  exact fun hnone => h.2 (List.max?_eq_none_iff.mp hnone)

theorem groupEarningsDays_ok (hknown : ∀ row ∈ rows, Known row) :
    ∃ days presented, groupEarningsDays rows heldTrips offsetAt (positionsOf s rows) = .ok (days,
        addAll (·.2) (fun scope => outstanding (positionOf s rows scope))
          (heldScopes s rows heldTrips) [])
      ∧ List.Forall₂ Presents
        ((finalGroups s rows).insertionSort (fun group group' => group.1.2 ≤ group'.1.2)) presented
      ∧ days.Perm presented := by
  -- the two loops, and then each group becomes a day
  have hgather := gather_ok (s := s) {} (fun _ h => h) hknown
  have hsettle := settle_ok heldTrips offsetAt hknown
    { groups := addAll (·.1) (·.2) ((shownRows s rows).flatMap rowPostings) [] }
    (fun _ h => h) (fun _ _ _ hday => memberDays_groups hday)
  rw [← addAll_append] at hsettle
  have hread : ∀ group ∈ (finalGroups s rows).insertionSort
      (fun group group' => group.1.2 ≤ group'.1.2),
      ∃ day, presentDay ((shownScopes s rows).map
        (fun scope => (scope, stateOf s rows heldTrips offsetAt scope))) group = .ok day
        ∧ Presents group day := by
    intro group hgroup
    have hmem := (List.perm_insertionSort _ _).mem_iff.mp hgroup
    refine presentDay_spec ?_ ?_
    · intro scope hscope
      rw [lookup_keyed (scopes_shown group hmem scope hscope)]
      rfl
    · intro scope state hstate hpaid
      rcases List.lookup_eq_some_iff.mp hstate with ⟨before, after, hsplit, _⟩
      have hin : (scope, state) ∈ (shownScopes s rows).map
          (fun scope => (scope, stateOf s rows heldTrips offsetAt scope)) := by
        rw [hsplit]
        simp
      rcases List.mem_map.mp hin with ⟨scope', _, hsame⟩
      have hstateOf : stateOf s rows heldTrips offsetAt scope' = state := (Prod.mk.inj hsame).2
      rw [← hstateOf] at hpaid ⊢
      exact paid_has_date heldTrips offsetAt scope' hpaid
  -- no day fails to be presented
  rcases exists_checkedMap hread with ⟨presented, hpresented, hmatch⟩
  have hok : groupEarningsDays rows heldTrips offsetAt (positionsOf s rows)
      = .ok (presented.insertionSort (fun day day' => day'.day ≤ day.day),
        addAll (·.2) (fun scope => outstanding (positionOf s rows scope))
          (heldScopes s rows heldTrips) []) :=
    bind_eq_ok.mpr ⟨_, hgather, bind_eq_ok.mpr ⟨_, hsettle, bind_eq_ok.mpr
      ⟨presented, hpresented, rfl⟩⟩⟩
  exact ⟨_, presented, hok, hmatch, List.perm_insertionSort _ _⟩

end

end EarningsDays
end Payout
end Mobility
