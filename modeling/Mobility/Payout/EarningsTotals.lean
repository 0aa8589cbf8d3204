import Mobility.Payout.EarningsGroups

/-!
# EarningsTotals — the days of a driver add up to the trips

Each column of the days is what was posted to it (`total_days`), and what was posted is
read off the rows and trips one by one.  Trips without a shown row are worth nothing and
owe nothing, so the totals run over all trips.
-/

namespace Mobility
namespace Payout
namespace EarningsDays

open Lib

section

variable {s : Store} {rows : List LedgerRow} (heldTrips : List Id)
  (offsetAt : TripScope → Option Int)

/-! ## Totals -/

/-- A column of the days is what was posted to it. -/
theorem total_days {days presented : List EarningsDay}
    (hmatch : List.Forall₂ Presents
      ((finalGroups s rows).insertionSort (fun group group' => group.1.2 ≤ group'.1.2)) presented)
    (hdays : days.Perm presented) (column : EarningsGroup →+ Int) {field : EarningsDay → Int}
    (hfield : ∀ group day, Presents group day → column group.2 = field day) (c : Currency) :
    total (·.currency = c) field days
      = posted column (fun key => key.2 = c) (allPostings s rows) := by
  rw [total_perm hdays, ← column_of_groups, ← finalGroups,
    ← total_perm (List.perm_insertionSort (fun group group' => group.1.2 ≤ group'.1.2)
      (finalGroups s rows))]
  refine (total_forall₂ hmatch ?_).symm
  intro group day hshows
  exact ⟨by simp [hshows.currency], hfield group day hshows⟩

theorem sum_map_ite {α : Type} (xs : List α) (p : α → Bool) (f : α → Int) :
    (xs.map (fun x => if p x = true then f x else 0)).sum = total p f xs := by
  induction xs with
  | nil => rfl
  | cons x xs ih => rw [List.map_cons, List.sum_cons, total_cons, ih]

/-- What all postings put in a column under one currency: rows first, then trips. -/
theorem posted_all (column : EarningsGroup →+ Int) (c : Currency) :
    posted column (fun key => key.2 = c) (allPostings s rows)
      = total (·.entry.currency = c)
          (fun row => ((rowPostings row).map (fun posting => column posting.2)).sum)
          (shownRows s rows)
        + total (·.2 = c)
          (fun scope => (((moneyOf s rows scope).postings scope.2).map
            (fun posting => column posting.2)).sum)
          (shownScopes s rows) := by
  rw [allPostings, posted_append, posted_flatMap, posted_flatMap, ← sum_map_ite, ← sum_map_ite]
  congr 1
  · congr 1
    refine List.map_congr_left ?_
    intro row _
    rw [posted_of_currency rowPostings_currency]
    simp
  · congr 1
    refine List.map_congr_left ?_
    intro scope _
    rw [posted_of_currency postings_currency]
    simp

/-- The columns of what a trip posts. -/
theorem sum_postings_amount (money : TripDayMoney) (currency : Currency) :
    ((money.postings currency).map (fun posting => amountColumn posting.2)).sum = money.floor := by
  simp [TripDayMoney.postings, Function.comp_def]

theorem sum_postings_toDeduct (money : TripDayMoney) (currency : Currency) :
    ((money.postings currency).map (fun posting => toDeductColumn posting.2)).sum
      = (money.recoveries.map (·.2)).sum := by
  simp [TripDayMoney.postings, Function.comp_def]

theorem sum_rowPostings_amount (row : LedgerRow) :
    ((rowPostings row).map (fun posting => amountColumn posting.2)).sum
      = ((signedDays row).map (·.2)).sum := by
  simp [rowPostings, signedDays, Function.comp_def]

theorem sum_rowPostings_toDeduct (row : LedgerRow) :
    ((rowPostings row).map (fun posting => toDeductColumn posting.2)).sum = 0 := by
  simp [rowPostings, Function.comp_def]

theorem awarded_eq (members : List LedgerRow) :
    awarded members = (members.map (fun row => ((signedDays row).map (·.2)).sum)).sum := by
  unfold awarded
  induction members with
  | nil => rfl
  | cons row members ih =>
      rw [List.flatMap_cons, List.map_append, List.sum_append, ih, List.map_cons, List.sum_cons]

/-- The rows of one currency were awarded what its trips were. -/
theorem total_awarded (c : Currency) :
    total (·.entry.currency = c) (fun row => ((signedDays row).map (·.2)).sum) (shownRows s rows)
      = total (·.2 = c) (fun scope => awarded (membersOf s rows scope)) (shownScopes s rows) := by
  have hkeys : ∀ row ∈ shownRows s rows, row.entry.scope ∈ shownScopes s rows := by
    intro row hrow
    exact mem_shownScopes.mpr ⟨row, hrow, rfl⟩
  have hmembers : ∀ scope, (shownRows s rows).filter (fun row => scope = row.entry.scope)
      = membersOf s rows scope := by
    intro scope
    exact List.filter_congr (fun row _ => decide_eq_decide.mpr eq_comm)
  have htrips : ((shownScopes s rows).map (fun scope =>
      (((shownRows s rows).filter (fun row => scope = row.entry.scope)).map (fun row =>
        if row.entry.currency = c then ((signedDays row).map (·.2)).sum else 0)).sum)).sum
      = ((shownRows s rows).map (fun row =>
        if row.entry.currency = c then ((signedDays row).map (·.2)).sum else 0)).sum :=
    sum_by_key _ (nodup_orderedKeys _) hkeys
  rw [← sum_map_ite, ← sum_map_ite]
  simp only [decide_eq_true_eq]
  rw [← htrips]
  congr 1
  refine List.map_congr_left ?_
  intro scope _
  rw [hmembers]
  have hcurrency : ∀ row ∈ membersOf s rows scope, row.entry.currency = scope.2 := by
    intro row hrow
    rw [← (membersOf_subset hrow).2.2]
    rfl
  split_ifs with hc
  · rw [awarded_eq]
    congr 1
    exact List.map_congr_left (fun row hrow => if_pos ((hcurrency row hrow).trans hc))
  · refine List.sum_eq_zero ?_
    intro amount hamount
    rcases List.mem_map.mp hamount with ⟨row, hrow, rfl⟩
    exact if_neg (fun hrowCurrency => hc ((hcurrency row hrow).symm.trans hrowCurrency))

/-! ## Trips that are not shown -/

/-- The recovery offsets of the trips read are funded, in their own currency, by rows that
are read. -/
structure OffsetsWithin (s : Store) (rows : List LedgerRow) : Prop where
  /-- a table constraint -/
  positive : ∀ offset ∈ s.offsets, 0 < offset.amount
  funded : ∀ offset ∈ s.offsets, ∀ entry, s.fundingEntry? offset = some entry →
    (entry.tripSessionId, offset.currency) ∈ (entriesOf rows).map (·.scope) →
      entry ∈ entriesOf rows ∧ entry.currency = offset.currency

theorem voided_of_hidden {scope : TripScope} (h : scope ∉ shownScopes s rows) :
    ∀ entry ∈ entriesOf rows, entry.scope = scope →
      entry.status = .voided ∧ (positionOf s rows scope).cashPaid = 0 := by
  intro entry hentry hscope
  rcases List.mem_map.mp hentry with ⟨row, hrow, rfl⟩
  by_contra hshows
  refine h (mem_shownScopes.mpr ⟨row, List.mem_filter.mpr ⟨hrow, ?_⟩, hscope⟩)
  exact decide_eq_true (hscope ▸ hshows)

/-- Voided rows are worth nothing. -/
theorem awards_of_voided {entries : List EarningsLedgerEntry}
    (h : ∀ entry ∈ entries, entry.status = .voided) (awards : TripAwards) :
    entries.foldl TripAwards.add awards = awards := by
  induction entries with
  | nil => rfl
  | cons entry entries ih =>
      have hfirst : awards.add entry = awards := if_pos (h entry List.mem_cons_self)
      rw [List.foldl_cons, hfirst]
      exact ih (fun e he => h e (List.mem_cons_of_mem _ he))

theorem earnedNet_of_hidden {scope : TripScope} (h : scope ∉ shownScopes s rows) :
    (positionOf s rows scope).earnedNet = 0 := by
  have hawards : tripAwards ((entriesOf rows).filter (·.scope = scope)) = {} := by
    refine awards_of_voided ?_ {}
    intro entry hentry
    rcases List.mem_filter.mp hentry with ⟨hmem, hscope⟩
    exact (voided_of_hidden h entry hmem (by simpa using hscope)).1
  simp [positionOf, tripCashPosition, hawards, TripAwards.earnedNet]

/-- A trip that is not shown funded no offset, so it owes nothing. -/
theorem debt_of_hidden (hoffsets : OffsetsWithin s rows) {scope : TripScope}
    (hscope : scope ∈ (entriesOf rows).map (·.scope)) (h : scope ∉ shownScopes s rows) :
    (positionOf s rows scope).debt = 0 := by
  have hcash : (positionOf s rows scope).cashPaid = 0 := by
    rcases List.mem_map.mp hscope with ⟨entry, hentry, hsame⟩
    exact (voided_of_hidden h entry hentry hsame).2
  have hfunded : s.offsetsFunded scope = 0 := by
    have hnone : s.offsets.filter (s.fundedBy scope) = [] := by
      refine List.filter_eq_nil_iff.mpr ?_
      intro offset hoffset hfunds
      unfold Store.fundedBy at hfunds
      cases hentry : s.fundingEntry? offset with
      | none => simp [hentry] at hfunds
      | some entry =>
          have hsame : entry.tripSessionId = scope.1 ∧ offset.currency = scope.2 := by
            simpa [hentry] using hfunds
          have hkey : (entry.tripSessionId, offset.currency) = scope := Prod.ext hsame.1 hsame.2
          rcases hoffsets.funded offset hoffset entry hentry (hkey ▸ hscope) with
            ⟨hmem, hcurrency⟩
          have hentryScope : entry.scope = scope := by
            rw [← hkey, ← hcurrency]
            rfl
          -- a funding entry is never voided
          have hlive : entry.status ≠ .voided := by
            have hfilter := (Option.filter_eq_some_iff.mp hentry).2
            simpa using hfilter
          exact hlive (voided_of_hidden h entry hmem hentryScope).1
    simp [Store.offsetsFunded, hnone]
  have hreceived : 0 ≤ s.offsetsReceived scope :=
    offsetTotal_nonneg (fun offset hoffset =>
      hoffsets.positive offset (List.mem_of_mem_filter hoffset))
  have hearned := earnedNet_of_hidden h
  have hposition : (positionOf s rows scope).offsetsFunded = s.offsetsFunded scope
      ∧ (positionOf s rows scope).offsetsReceived = s.offsetsReceived scope := ⟨rfl, rfl⟩
  simp only [TripMoneyPosition.debt, TripMoneyPosition.settled, hposition.1, hposition.2, hcash,
    hfunded, hearned]
  omega

/-- A figure that leaves out or is zero for the trips not shown adds up over all trips. -/
theorem total_positions (p : TripScope → TripMoneyPosition → Bool)
    (figure : TripScope → TripMoneyPosition → Int)
    (hzero : ∀ scope ∈ (entriesOf rows).map (·.scope), scope ∉ shownScopes s rows →
      p scope (positionOf s rows scope) = false ∨ figure scope (positionOf s rows scope) = 0) :
    total (fun trip => p trip.1 trip.2) (fun trip => figure trip.1 trip.2) (positionsOf s rows)
      = total (fun scope => p scope (positionOf s rows scope))
        (fun scope => figure scope (positionOf s rows scope)) (shownScopes s rows) := by
  have hall : total (fun trip => p trip.1 trip.2) (fun trip => figure trip.1 trip.2)
      (positionsOf s rows) = total (fun scope => p scope (positionOf s rows scope))
        (fun scope => figure scope (positionOf s rows scope))
        (orderedKeys ((entriesOf rows).map (·.scope))) := by
    unfold total positionsOf Store.tripMoneyPositions
    rw [List.filter_map, List.map_map]
    rfl
  rw [hall]
  refine (total_of_subset (nodup_orderedKeys _) (nodup_orderedKeys _) ?_ ?_).symm
  · intro scope hscope
    rcases mem_shownScopes.mp hscope with ⟨row, hrow, rfl⟩
    exact mem_orderedKeys.mpr (scope_mem_entries (List.mem_of_mem_filter hrow))
  · intro scope hscope hhidden
    exact hzero scope (mem_orderedKeys.mp hscope) hhidden

/-! ## Lifetime earnings -/

/-- `driver_money_balance(...).earned_net`, the lifetime figure of a currency. -/
def lifetimeEarned (s : Store) (rows : List LedgerRow) (c : Currency) : Int :=
  ((s.tripMoneyPositions ((entriesOf rows).filter (·.currency = c))).map (·.2.earnedNet)).sum

theorem orderedKeys_filter {κ : Type} [DecidableEq κ] (p : κ → Bool) (keys : List κ) :
    orderedKeys (keys.filter p) = (orderedKeys keys).filter p := by
  induction keys with
  | nil => rfl
  | cons k keys ih =>
      by_cases hp : p k = true
      · rw [List.filter_cons_of_pos hp, orderedKeys, orderedKeys, ih, List.filter_cons_of_pos hp,
          List.filter_filter, List.filter_filter]
        simp only [Bool.and_comm]
      · rw [List.filter_cons_of_neg hp, orderedKeys, List.filter_cons_of_neg hp, ih,
          List.filter_filter]
        refine List.filter_congr ?_
        intro x _
        by_cases hx : x = k
        · simp [hx, hp]
        · simp [hx]

theorem lifetimeEarned_eq (c : Currency) :
    lifetimeEarned s rows c = total (·.1.2 = c) (·.2.earnedNet) (positionsOf s rows) := by
  have hscopes : ((entriesOf rows).filter (·.currency = c)).map (·.scope)
      = ((entriesOf rows).map (·.scope)).filter (·.2 = c) := by
    rw [List.filter_map]
    rfl
  unfold lifetimeEarned total positionsOf Store.tripMoneyPositions
  rw [hscopes, orderedKeys_filter, List.filter_map, List.map_map, List.map_map]
  congr 1
  refine List.map_congr_left ?_
  intro scope hscope
  have hc : scope.2 = c := by simpa using (List.mem_filter.mp hscope).2
  -- rows of the trip in this currency are all rows of the scope
  have hentries : ((entriesOf rows).filter (·.currency = c)).filter (·.scope = scope)
      = (entriesOf rows).filter (·.scope = scope) := by
    rw [List.filter_filter]
    refine List.filter_congr ?_
    intro entry _
    by_cases hentry : entry.scope = scope
    · have hcurrency : entry.currency = c := by
        rw [← hc, ← hentry]
        rfl
      simp [hentry, hcurrency]
    · simp [hentry]
  simp only [Function.comp_apply, hentries]

/-! ## Cash and money on hold -/

theorem total_map' {α β : Type} {g : α → β} {p : β → Bool} {f : β → Int} (xs : List α) :
    total p f (xs.map g) = total (fun x => p (g x)) (fun x => f (g x)) xs := by
  unfold total
  rw [List.filter_map, List.map_map]
  rfl

theorem posted_cash (money : TripDayMoney) (currency c : Currency) (day : Day) :
    posted cashPaidColumn (fun key => (day, c) = key) (money.postings currency)
      = if currency = c then total (·.1 = day) (·.2) money.cash else 0 := by
  have hfloor : posted cashPaidColumn (fun key => (day, c) = key)
      [((money.firstDay, currency), { amount := money.floor })] = 0 := by
    simp [posted]
  have hrecoveries : posted cashPaidColumn (fun key => (day, c) = key)
      (money.recoveries.map (fun entry => ((entry.1, currency), { toDeduct := entry.2 }))) = 0 := by
    rw [posted, total_map']
    exact List.sum_eq_zero (by simp)
  have hcash : posted cashPaidColumn (fun key => (day, c) = key)
      (money.cash.map (fun entry => ((entry.1, currency), { cashPaid := entry.2 })))
        = if currency = c then total (·.1 = day) (·.2) money.cash else 0 := by
    rw [posted, total_map']
    split_ifs with hc
    · refine total_congr ?_
      intro entry _
      simp [hc, eq_comm]
    · refine total_eq_zero ?_
      intro entry _
      simp [Ne.symm hc]
  calc posted cashPaidColumn (fun key => (day, c) = key) (money.postings currency)
      = posted cashPaidColumn (fun key => (day, c) = key)
          [((money.firstDay, currency), { amount := money.floor })]
        + posted cashPaidColumn (fun key => (day, c) = key)
          (money.cash.map (fun entry => ((entry.1, currency), { cashPaid := entry.2 })))
        + posted cashPaidColumn (fun key => (day, c) = key)
          (money.recoveries.map (fun entry => ((entry.1, currency), { toDeduct := entry.2 }))) := by
        rw [← posted_append, ← posted_append]
        rfl
    _ = if currency = c then total (·.1 = day) (·.2) money.cash else 0 := by
        rw [hfloor, hcash, hrecoveries]
        omega

/-- The cash of a group is the cash its trips show on that day. -/
theorem cash_of_group {group : GroupKey × EarningsGroup} (h : group ∈ finalGroups s rows) :
    group.2.cashPaid = total (·.2 = group.1.2)
      (fun scope => total (·.1 = group.1.1) (·.2) (moneyOf s rows scope).cash)
      (shownScopes s rows) := by
  have hgroup := column_of_group cashPaidColumn h
  have hrows : posted cashPaidColumn (fun key => group.1 = key)
      ((shownRows s rows).flatMap rowPostings) = 0 := by
    refine List.sum_eq_zero ?_
    intro cash hcash
    rcases List.mem_map.mp hcash with ⟨posting, hposting, rfl⟩
    rcases List.mem_flatMap.mp (List.mem_of_mem_filter hposting) with ⟨row, _, hrow⟩
    rcases List.mem_map.mp hrow with ⟨allocation, _, rfl⟩
    rfl
  calc group.2.cashPaid
      = posted cashPaidColumn (fun key => group.1 = key) (allPostings s rows) := hgroup
    _ = ((shownScopes s rows).map (fun scope => posted cashPaidColumn (fun key => group.1 = key)
          ((moneyOf s rows scope).postings scope.2))).sum := by
        rw [allPostings, posted_append, hrows, zero_add, posted_flatMap]
    _ = _ := by
        rw [← sum_map_ite]
        congr 1
        refine List.map_congr_left ?_
        intro scope _
        rw [posted_cash]
        simp

theorem membersOf_hidden {scope : TripScope} (h : scope ∉ shownScopes s rows) :
    membersOf s rows scope = [] := by
  refine List.filter_eq_nil_iff.mpr ?_
  intro row hrow hscope
  exact h (mem_shownScopes.mpr ⟨row, hrow, by simpa using hscope⟩)

theorem cash_of_hidden {scope : TripScope} (h : scope ∉ shownScopes s rows) :
    (moneyOf s rows scope).cash = [] := by
  rw [moneyOf, membersOf_hidden h]
  rfl

/-! ## Adding up -/

theorem amounts_add_up (hknown : ∀ row ∈ rows, Known row) (c : Currency) :
    posted amountColumn (fun key => key.2 = c) (allPostings s rows)
      = total (·.1.2 = c) (·.2.earnedNet) (positionsOf s rows) := by
  have hrows : total (·.entry.currency = c)
      (fun row => ((rowPostings row).map (fun posting => amountColumn posting.2)).sum)
      (shownRows s rows)
        = total (·.2 = c) (fun scope => awarded (membersOf s rows scope)) (shownScopes s rows) := by
    rw [← total_awarded]
    exact total_congr_amount (fun row _ _ => sum_rowPostings_amount row)
  have htrips : total (·.2 = c) (fun scope => (((moneyOf s rows scope).postings scope.2).map
      (fun posting => amountColumn posting.2)).sum) (shownScopes s rows)
        = total (·.2 = c) (fun scope => (moneyOf s rows scope).floor) (shownScopes s rows) :=
    total_congr_amount (fun scope _ _ => sum_postings_amount _ scope.2)
  calc posted amountColumn (fun key => key.2 = c) (allPostings s rows)
      = total (·.2 = c) (fun scope => awarded (membersOf s rows scope)
          + (moneyOf s rows scope).floor) (shownScopes s rows) := by
        rw [posted_all, hrows, htrips, total_add]
    _ = total (·.2 = c) (fun scope => (positionOf s rows scope).earnedNet) (shownScopes s rows) :=
        total_congr_amount (fun scope hscope _ => (moneyOf_spec hknown hscope).2.floor)
    _ = total (·.1.2 = c) (·.2.earnedNet) (positionsOf s rows) :=
        (total_positions (fun scope _ => scope.2 = c) (fun _ position => position.earnedNet)
          (fun _ _ hhidden => .inr (earnedNet_of_hidden hhidden))).symm

theorem debts_add_up (hknown : ∀ row ∈ rows, Known row) (hoffsets : OffsetsWithin s rows)
    (c : Currency) :
    posted toDeductColumn (fun key => key.2 = c) (allPostings s rows)
      = total (·.1.2 = c) (·.2.debt) (positionsOf s rows) := by
  have hrows : total (·.entry.currency = c)
      (fun row => ((rowPostings row).map (fun posting => toDeductColumn posting.2)).sum)
      (shownRows s rows) = 0 := by
    refine List.sum_eq_zero ?_
    intro amount hamount
    rcases List.mem_map.mp hamount with ⟨row, _, rfl⟩
    exact sum_rowPostings_toDeduct row
  calc posted toDeductColumn (fun key => key.2 = c) (allPostings s rows)
      = total (·.2 = c) (fun scope => (positionOf s rows scope).debt) (shownScopes s rows) := by
        rw [posted_all, hrows, zero_add]
        refine total_congr_amount ?_
        intro scope hscope _
        rw [sum_postings_toDeduct]
        exact (moneyOf_spec hknown hscope).2.debt
    _ = total (·.1.2 = c) (·.2.debt) (positionsOf s rows) :=
        (total_positions (fun scope _ => scope.2 = c) (fun _ position => position.debt)
          (fun _ hscope hhidden => .inr (debt_of_hidden hoffsets hscope hhidden))).symm

theorem held_adds_up (c : Currency) :
    valueAt (addAll (·.2) (fun scope => outstanding (positionOf s rows scope))
        (heldScopes s rows heldTrips) []) c
      = total (fun trip => trip.1.2 = c && isHeld heldTrips (membersOf s rows trip.1) trip.2)
          (fun trip => max (trip.2.earnedNet - trip.2.settled) 0) (positionsOf s rows) := by
  have hpositions := @total_positions s rows
    (fun scope position => scope.2 = c && isHeld heldTrips (membersOf s rows scope) position)
    (fun _ position => outstanding position) (by
      intro scope _ hhidden
      left
      rw [membersOf_hidden hhidden]
      simp [isHeld])
  rw [valueAt_addAll, valueAt_nil, zero_add]
  refine Eq.trans ?_ hpositions.symm
  unfold total heldScopes
  rw [List.filter_filter]
  congr 2
  refine List.filter_congr ?_
  intro scope _
  rw [decide_eq_decide.mpr (eq_comm (a := c))]

theorem toDeduct_nonneg (hknown : ∀ row ∈ rows, Known row) :
    ∀ group ∈ finalGroups s rows, 0 ≤ group.2.toDeduct := by
  refine forall_addAll (fun g : EarningsGroup => 0 ≤ g.toDeduct) (fun _ _ => add_nonneg) ?_
    (by simp)
  intro posting hposting
  rcases List.mem_append.mp hposting with hposting | hposting
  · rcases List.mem_flatMap.mp hposting with ⟨row, _, hposting⟩
    rcases List.mem_map.mp hposting with ⟨allocation, _, rfl⟩
    exact le_refl _
  · rcases List.mem_flatMap.mp hposting with ⟨scope, hscope, hposting⟩
    simp only [TripDayMoney.postings, List.cons_append, List.mem_cons, List.mem_append,
      List.mem_map] at hposting
    rcases hposting with rfl | ⟨entry, _, rfl⟩ | ⟨entry, hentry, rfl⟩
    · exact le_refl _
    · exact le_refl _
    · exact (moneyOf_spec hknown hscope).2.nonneg entry hentry

/-- Every day of a shown trip has its group. -/
theorem exists_group (hknown : ∀ row ∈ rows, Known row) {scope : TripScope}
    {entry : Day × Int} (h : entry ∈ (moneyOf s rows scope).cash) :
    ∃ group ∈ finalGroups s rows, group.1 = (entry.1, scope.2) := by
  have hscope : scope ∈ shownScopes s rows := by
    by_contra hhidden
    rw [cash_of_hidden hhidden] at h
    exact absurd h List.not_mem_nil
  have hkey : (entry.1, scope.2) ∈ (finalGroups s rows).map (·.1) := by
    rw [finalGroups, allPostings, addAll_append]
    exact mem_keys_addAll.mpr (.inl (memberDays_groups
      ((moneyOf_spec hknown hscope).2.cashDays entry h)))
  exact List.mem_map.mp hkey

end

/-- The days of a driver's rows, all of whose work days are known, are always shown.  By
currency their amounts add up to what the trips earned, which is the lifetime figure, and
what is to deduct to the trips' debts, never negative on a day; a trip shows all of its
cash and offsets on its days or none; the money on hold is what the held trips are owed. -/
theorem earnings_days_conserve_money {s : Store} {rows : List LedgerRow} (heldTrips : List Id)
    (offsetAt : TripScope → Option Int) (hknown : ∀ row ∈ rows, workDays row ≠ [])
    (hoffsets : OffsetsWithin s rows) :
    ∃ days held, groupEarningsDays rows heldTrips offsetAt (positionsOf s rows) = .ok (days, held)
      ∧ (∀ c, total (·.currency = c) (·.amount) days
            = total (·.1.2 = c) (·.2.earnedNet) (positionsOf s rows)
          ∧ total (·.1.2 = c) (·.2.earnedNet) (positionsOf s rows) = lifetimeEarned s rows c
          ∧ total (·.currency = c) (·.toDeduct) days
            = total (·.1.2 = c) (·.2.debt) (positionsOf s rows)
          ∧ valueAt held c = total (fun trip => trip.1.2 = c
              && isHeld heldTrips (membersOf s rows trip.1) trip.2)
            (fun trip => max (trip.2.earnedNet - trip.2.settled) 0) (positionsOf s rows))
      ∧ (∀ day ∈ days, 0 ≤ day.toDeduct
          ∧ day.cashPaid = total (·.1.2 = day.currency)
            (fun trip => total (·.1 = day.day) (·.2) (moneyOf s rows trip.1).cash)
            (positionsOf s rows))
      ∧ ∀ trip ∈ positionsOf s rows,
          (((moneyOf s rows trip.1).cash.map (·.2)).sum = 0
            ∨ ((moneyOf s rows trip.1).cash.map (·.2)).sum
              = trip.2.cashPaid + trip.2.offsetsFunded)
          ∧ ∀ entry ∈ (moneyOf s rows trip.1).cash,
              ∃ day ∈ days, day.day = entry.1 ∧ day.currency = trip.1.2 := by
  rcases groupEarningsDays_ok heldTrips offsetAt (s := s) hknown with
    ⟨days, presented, hok, hmatch, hdays⟩
  refine ⟨days, _, hok, ?_, ?_, ?_⟩
  · intro c
    refine ⟨?_, (lifetimeEarned_eq c).symm, ?_, held_adds_up heldTrips c⟩
    · rw [total_days hmatch hdays amountColumn (fun _ _ h => h.amount.symm) c]
      exact amounts_add_up hknown c
    · rw [total_days hmatch hdays toDeductColumn (fun _ _ h => h.toDeduct.symm) c]
      exact debts_add_up hknown hoffsets c
  · intro day hday
    rcases exists_of_mem_forall₂ hmatch (hdays.mem_iff.mp hday) with ⟨group, hgroup, hshows⟩
    have hmem := (List.perm_insertionSort _ _).mem_iff.mp hgroup
    refine ⟨hshows.toDeduct ▸ toDeduct_nonneg hknown group hmem, ?_⟩
    rw [hshows.cashPaid, hshows.currency, hshows.day, cash_of_group hmem]
    refine (total_positions (fun scope _ => scope.2 = group.1.2)
      (fun scope _ => total (·.1 = group.1.1) (·.2) (moneyOf s rows scope).cash) ?_).symm
    intro scope _ hhidden
    right
    rw [cash_of_hidden hhidden]
    rfl
  · intro trip htrip
    rcases List.mem_map.mp htrip with ⟨scope, _, rfl⟩
    constructor
    · by_cases hscope : scope ∈ shownScopes s rows
      · exact (moneyOf_spec hknown hscope).2.cash
      · left
        rw [cash_of_hidden hscope]
        rfl
    · intro entry hentry
      -- the day of an entry is the day of some group, and every group is shown
      rcases exists_group hknown hentry with ⟨group, hgroup, hkey⟩
      have hsorted := (List.perm_insertionSort
        (fun group group' : GroupKey × EarningsGroup => group.1.2 ≤ group'.1.2) _).mem_iff.mpr
        hgroup
      rcases exists_of_mem_forall₂_left hmatch hsorted with ⟨day, hday, hshows⟩
      refine ⟨day, hdays.mem_iff.mpr hday, ?_, ?_⟩
      · rw [hshows.day, hkey]
      · rw [hshows.currency, hkey]

/-- 100.00 over two days. -/
def pay : LedgerRow :=
  { entry :=
      { id := 1
        driverProfileId := 1
        driverUserId := 1
        tripSessionId := some 1
        entryType := .tripPayout
        status := .paid
        amount := 10000
        currency := "NGN"
        occurredAt := 10 }
    createdAt := 10
    amountByDay := some [{ day := 1, amount := 6000 }, { day := 2, amount := 4000 }]
    nonneg := by decide }

/-- 30.00 deducted on the second day. -/
def deduction : LedgerRow :=
  { entry :=
      { id := 2
        driverProfileId := 1
        driverUserId := 1
        tripSessionId := some 1
        entryType := .reversal
        status := .available
        amount := 3000
        currency := "NGN"
        occurredAt := 20
        ledgerMetadata := { sourceEntryId := some 1 } }
    createdAt := 20
    lagosDay := some 2
    nonneg := by decide }

/-- The whole 100.00 went to the debt of another trip before the deduction. -/
def offsetStore : Store :=
  { entries := [pay.entry, deduction.entry]
    offsets :=
      [{ sourceTripId := 2
         fundingEntryId := 1
         driverProfileId := 1
         amount := 10000
         currency := "NGN"
         requestId := 1
         actorUserId := some 1
         automaticRunId := none }] }

theorem earnings_days_conserve_money_offset :
    ∃ days held, groupEarningsDays [pay, deduction] [] (fun _ => none)
        (positionsOf offsetStore [pay, deduction]) = .ok (days, held)
      ∧ total (·.currency = "NGN") (·.amount) days = 7000
      ∧ total (·.currency = "NGN") (·.toDeduct) days = 3000 := by
  have hknown : ∀ row ∈ [pay, deduction], workDays row ≠ [] := by decide
  have hoffsets : OffsetsWithin offsetStore [pay, deduction] := by
    constructor
    · decide
    · intro offset hoffset entry hentry _
      rw [List.mem_singleton.mp hoffset] at hentry ⊢
      have hpay : pay.entry = entry := Option.some.inj hentry
      rw [← hpay]
      exact ⟨List.mem_cons_self, rfl⟩
  rcases earnings_days_conserve_money [] (fun _ => none) hknown hoffsets with
    ⟨days, held, hok, htotals, _⟩
  refine ⟨days, held, hok, ?_, ?_⟩
  · rw [(htotals "NGN").1]
    decide
  · rw [(htotals "NGN").2.2.1]
    decide

end EarningsDays
end Payout
end Mobility
