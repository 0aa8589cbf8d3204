import Mobility.Payout.EarningsDays

/-!
# EarningsTrips — what one trip adds to its days

The parts a trip recovers and the money it adds to the days of its rows.  Both go
through when the work days of the rows are known, stay on those days and add up to the
trip's debt, award and cash.
-/

namespace Mobility
namespace Payout
namespace EarningsDays

open Lib

/-! ## Rows -/

/-- The days a row was worked on are known. -/
def Known (row : LedgerRow) : Prop :=
  workDays row ≠ []

variable {row : LedgerRow} {members : List LedgerRow} {position : TripMoneyPosition}

theorem mem_memberDays {day : Day} :
    day ∈ memberDays members ↔ ∃ row ∈ members, ∃ allocation ∈ workDays row,
      allocation.day = day := by
  simp [memberDays]

theorem memberDays_ne_nil (hne : members ≠ []) (hknown : ∀ row ∈ members, Known row) :
    memberDays members ≠ [] := by
  cases members with
  | nil => exact absurd rfl hne
  | cons row rest =>
      intro hnil
      rw [memberDays, List.flatMap_cons, List.append_eq_nil_iff] at hnil
      exact hknown row List.mem_cons_self (List.map_eq_nil_iff.mp hnil.1)

/-- A reversal is dated by the one day its metadata names. -/
theorem workDays_reversal (htype : row.entry.entryType = .reversal) (hknown : Known row) :
    ∃ allocation, workDays row = [allocation] := by
  cases hday : row.lagosDay with
  | none => exact absurd (by simp [workDays, htype, hday]) hknown
  | some day =>
      exact ⟨{ day := day, amount := row.entry.amount }, by simp [workDays, htype, hday]⟩

theorem firstDay_mem {days : List Day} {firstDay : Day} (h : days.min? = some firstDay) :
    firstDay ∈ days :=
  List.min?_mem h

theorem exists_firstDay {days : List Day} (hne : days ≠ []) :
    ∃ firstDay, days.min? = some firstDay := by
  cases hmin : days.min? with
  | none => exact absurd (List.min?_eq_none_iff.mp hmin) hne
  | some firstDay => exact ⟨firstDay, rfl⟩

/-! ## Recoveries -/

/-- What deductions take is never negative and never more than what is owed. -/
theorem takeDeductions_spec (rows : List LedgerRow) {remaining : Int} (h : 0 ≤ remaining) :
    (∀ part ∈ takeDeductions remaining rows, part.1 ∈ rows ∧ 0 ≤ part.2)
      ∧ ((takeDeductions remaining rows).map (·.2)).sum ≤ remaining := by
  induction rows generalizing remaining with
  | nil => exact ⟨by simp [takeDeductions], by simpa [takeDeductions] using h⟩
  | cons row rest ih =>
      unfold takeDeductions
      split_ifs with hdone
      · exact ⟨by simp, by simpa using h⟩
      · have hleft : 0 ≤ remaining - min remaining row.entry.amount := by omega
        have hpart : 0 ≤ min remaining row.entry.amount := le_min h row.nonneg
        rcases ih hleft with ⟨hrest, hsum⟩
        constructor
        · intro part hpartMem
          rcases List.mem_cons.mp hpartMem with rfl | hpartMem
          · exact ⟨List.mem_cons_self, hpart⟩
          · exact ⟨List.mem_cons_of_mem _ (hrest part hpartMem).1, (hrest part hpartMem).2⟩
        · rw [List.map_cons, List.sum_cons]
          omega

theorem debt_nonneg (position : TripMoneyPosition) : 0 ≤ position.debt :=
  le_max_right _ _

theorem overpaidDeductions_spec (members : List LedgerRow) (position : TripMoneyPosition) :
    (∀ part ∈ overpaidDeductions members position,
        part.1 ∈ members ∧ part.1.entry.entryType = .reversal ∧ 0 ≤ part.2)
      ∧ ((overpaidDeductions members position).map (·.2)).sum ≤ position.debt := by
  rcases takeDeductions_spec ((members.filter (fun row => isManualDeduction row.entry
    && row.entry.status ≠ .voided)).insertionSort newerDeduction) (debt_nonneg position)
    with ⟨hparts, hsum⟩
  refine ⟨?_, hsum⟩
  intro part hpart
  rcases hparts part hpart with ⟨hmem, hnonneg⟩
  rcases List.mem_filter.mp ((List.perm_insertionSort _ _).mem_iff.mp hmem) with ⟨hrow, hmanual⟩
  have htype : part.1.entry.entryType = .reversal := by
    simp only [isManualDeduction, Bool.and_eq_true, decide_eq_true_eq] at hmanual
    exact hmanual.1.1.1
  exact ⟨hrow, htype, hnonneg⟩

/-- The day of a row that has one. -/
def deductionDay (row : LedgerRow) : Day :=
  ((workDays row).head?.map (·.day)).getD 0

theorem recoverDeductions_ok {parts : List (LedgerRow × Int)} (result : List (Day × Int))
    (h : ∀ part ∈ parts, ∃ allocation, workDays part.1 = [allocation]) :
    checkedFold recoverDeduction result parts
      = .ok (addAll (fun part => deductionDay part.1) (·.2) parts result) := by
  induction parts generalizing result with
  | nil => rfl
  | cons part parts ih =>
      rcases h part List.mem_cons_self with ⟨allocation, hone⟩
      have hday : deductionDay part.1 = allocation.day := by simp [deductionDay, hone]
      have hstep : recoverDeduction result part
          = .ok (addTo (deductionDay part.1) part.2 result) := by
        simp only [recoverDeduction, hone, hday]
      rw [checkedFold_cons, hstep]
      exact ih _ (fun p hp => h p (List.mem_cons_of_mem _ hp))

/-- A tally of the debt over days of the trip, with nothing negative. -/
structure RecoveryOf (members : List LedgerRow) (position : TripMoneyPosition)
    (result : List (Day × Int)) : Prop where
  days : ∀ day ∈ result.map (·.1), day ∈ memberDays members
  nodup : (result.map (·.1)).Nodup
  total : tallied result = position.debt
  nonneg : ∀ entry ∈ result, 0 ≤ entry.2

theorem recoveryDays_spec (position : TripMoneyPosition) (hne : members ≠ [])
    (hknown : ∀ row ∈ members, Known row) :
    ∃ result, recoveryDays members position = .ok result ∧ RecoveryOf members position result := by
  rcases overpaidDeductions_spec members position with ⟨hparts, hsum⟩
  rcases exists_firstDay (memberDays_ne_nil hne hknown) with ⟨firstDay, hfirst⟩
  have hones : ∀ part ∈ overpaidDeductions members position,
      ∃ allocation, workDays part.1 = [allocation] := by
    intro part hpart
    exact workDays_reversal (hparts part hpart).2.1 (hknown part.1 (hparts part hpart).1)
  have hfold := recoverDeductions_ok [] hones
  have hdeducted : tallied (addAll (fun part => deductionDay part.1) (·.2)
      (overpaidDeductions members position) [])
        = ((overpaidDeductions members position).map (·.2)).sum := by
    rw [tallied_addAll, tallied_nil, zero_add]
  have hresult : recoveryDays members position = .ok _ :=
    bind_eq_ok.mpr ⟨_, hfold, bind_eq_ok.mpr ⟨firstDay, demand_eq_ok.mpr hfirst, rfl⟩⟩
  refine ⟨_, hresult, ?_⟩
  · refine ⟨?_, nodup_keys_addTo (nodup_keys_addAll List.nodup_nil), ?_, ?_⟩
    · intro day hday
      rcases mem_keys_addTo.mp hday with hday | rfl
      · rcases mem_keys_addAll.mp hday with hday | ⟨part, hpart, rfl⟩
        · exact absurd hday List.not_mem_nil
        · -- the day of a deduction is a day of its row
          rcases hones part hpart with ⟨allocation, hone⟩
          exact mem_memberDays.mpr ⟨part.1, (hparts part hpart).1, allocation, by simp [hone],
            by simp [deductionDay, hone]⟩
      · exact firstDay_mem hfirst
    · rw [tallied_addTo]
      omega
    · refine forall_addTo (fun n : Int => 0 ≤ n) (fun m n => add_nonneg) ?_ ?_
      · rw [hdeducted]
        omega
      · exact forall_addAll (fun n : Int => 0 ≤ n) (fun m n => add_nonneg)
          (fun part hpart => (hparts part hpart).2.2) (by simp)

/-! ## Money of one trip -/

/-- What the days of the members were awarded together. -/
def awarded (members : List LedgerRow) : Int :=
  ((members.flatMap signedDays).map (·.2)).sum

def settledCash (position : TripMoneyPosition) : Int :=
  position.cashPaid + position.offsetsFunded

theorem mem_signedDays {day : Day} :
    (∃ entry ∈ members.flatMap signedDays, day = entry.1) ↔ day ∈ memberDays members := by
  simp only [mem_memberDays, List.mem_flatMap, signedDays, List.mem_map]
  constructor
  · rintro ⟨entry, ⟨row, hrow, allocation, hallocation, rfl⟩, rfl⟩
    exact ⟨row, hrow, allocation, hallocation, rfl⟩
  · rintro ⟨row, hrow, allocation, hallocation, rfl⟩
    exact ⟨_, ⟨row, hrow, allocation, hallocation, rfl⟩, rfl⟩

/-- What a trip adds lies on its own days and settles its award, its cash and its debt. -/
structure MoneyOf (members : List LedgerRow) (position : TripMoneyPosition)
    (money : TripDayMoney) : Prop where
  firstDay : money.firstDay ∈ memberDays members
  floor : awarded members + money.floor = position.earnedNet
  cashDays : ∀ entry ∈ money.cash, entry.1 ∈ memberDays members
  cash : (money.cash.map (·.2)).sum = 0 ∨ (money.cash.map (·.2)).sum = settledCash position
  recoveryDays : ∀ entry ∈ money.recoveries, entry.1 ∈ memberDays members
  debt : (money.recoveries.map (·.2)).sum = position.debt
  nonneg : ∀ entry ∈ money.recoveries, 0 ≤ entry.2

/-- Cash that covers the award of a trip is its award and its debt before the offsets it
received, day by day. -/
theorem sum_covered {amounts rawDebt : List (Day × Int)} (hnodup : (amounts.map (·.1)).Nodup)
    (hraw : (rawDebt.map (·.1)).Nodup)
    (hdays : ∀ day ∈ rawDebt.map (·.1), day ∈ amounts.map (·.1)) :
    ((amounts.map (fun entry => (entry.1, entry.2 + valueAt rawDebt entry.1))).map (·.2)).sum
      = tallied amounts + tallied rawDebt := by
  have hmap : (amounts.map (fun entry => (entry.1, entry.2 + valueAt rawDebt entry.1))).map (·.2)
      = amounts.map (fun entry => entry.2 + valueAt rawDebt entry.1) := by
    rw [List.map_map]
    rfl
  have hkeys : amounts.map (fun entry => valueAt rawDebt entry.1)
      = (amounts.map (·.1)).map (valueAt rawDebt) := by
    rw [List.map_map]
    rfl
  calc ((amounts.map (fun entry => (entry.1, entry.2 + valueAt rawDebt entry.1))).map (·.2)).sum
      = (amounts.map (·.2)).sum + (amounts.map (fun entry => valueAt rawDebt entry.1)).sum := by
        rw [hmap, List.sum_map_add]
    _ = tallied amounts + tallied rawDebt := by
        rw [hkeys, sum_valueAt hnodup hraw hdays]
        rfl

theorem tripCash_mem {firstDay : Day} {amounts rawDebt : List (Day × Int)}
    (hfirst : firstDay ∈ amounts.map (·.1)) :
    ∀ entry ∈ tripCash position firstDay amounts rawDebt, entry.1 ∈ amounts.map (·.1) := by
  intro entry hentry
  unfold tripCash at hentry
  dsimp only at hentry
  split_ifs at hentry
  · rw [List.mem_singleton.mp hentry]
    exact hfirst
  · rcases List.mem_map.mp hentry with ⟨amount, hamount, rfl⟩
    exact List.mem_map.mpr ⟨amount, hamount, rfl⟩
  · exact absurd hentry List.not_mem_nil

theorem tripCash_sum {firstDay : Day} {amounts rawDebt : List (Day × Int)}
    (hnodup : (amounts.map (·.1)).Nodup) (hsum : tallied amounts = position.earnedNet)
    (hraw : RecoveryOf members { position with offsetsReceived := 0 } rawDebt)
    (hdays : ∀ day ∈ rawDebt.map (·.1), day ∈ amounts.map (·.1)) :
    ((tripCash position firstDay amounts rawDebt).map (·.2)).sum = 0
      ∨ ((tripCash position firstDay amounts rawDebt).map (·.2)).sum = settledCash position := by
  unfold tripCash
  dsimp only
  split_ifs with hone hcovered
  · exact .inr (by simp [settledCash])
  · right
    have hdebt : tallied rawDebt = settledCash position - position.earnedNet := by
      rw [hraw.total]
      simp only [TripMoneyPosition.debt, TripMoneyPosition.settled, settledCash]
      omega
    rw [sum_covered hnodup hraw.nodup hdays, hsum, hdebt]
    omega
  · exact .inl (by simp)

theorem tripDayMoney_spec (position : TripMoneyPosition) (hne : members ≠ [])
    (hknown : ∀ row ∈ members, Known row) :
    ∃ money, tripDayMoney members position = .ok money ∧ MoneyOf members position money := by
  have hkeys : ∀ day, day ∈ (addAll (·.1) (·.2) (members.flatMap signedDays) []).map (·.1)
      ↔ day ∈ memberDays members := by
    intro day
    rw [mem_keys_addAll, ← mem_signedDays]
    simp
  have hnodup : ((addAll (·.1) (·.2) (members.flatMap signedDays) []).map (·.1)).Nodup :=
    nodup_keys_addAll List.nodup_nil
  have hsum : tallied (addAll (·.1) (·.2) (members.flatMap signedDays) []) = awarded members := by
    rw [tallied_addAll, tallied_nil, zero_add, awarded]
  generalize hamounts : addAll (·.1) (·.2) (members.flatMap signedDays) [] = amounts at *
  have hnonempty : amounts.map (·.1) ≠ [] := by
    intro hnil
    rcases List.exists_mem_of_ne_nil _ (memberDays_ne_nil hne hknown) with ⟨day, hday⟩
    have hmem := (hkeys day).mpr hday
    rw [hnil] at hmem
    exact absurd hmem List.not_mem_nil
  rcases exists_firstDay hnonempty with ⟨firstDay, hfirst⟩
  have hfirstMem : firstDay ∈ memberDays members := (hkeys firstDay).mp (firstDay_mem hfirst)
  rcases recoveryDays_spec { position with offsetsReceived := 0 } hne hknown with
    ⟨rawDebt, hrawOk, hraw⟩
  rcases recoveryDays_spec position hne hknown with ⟨recoveries, hrecOk, hrec⟩
  -- the amounts after the floor was put on the first day
  have hfloorDays : ∀ day, day ∈ (addTo firstDay (position.earnedNet - tallied amounts)
      amounts).map (·.1) ↔ day ∈ memberDays members := by
    intro day
    rw [mem_keys_addTo, hkeys]
    exact ⟨fun h => h.elim id (fun h => h ▸ hfirstMem), .inl⟩
  have hfloorSum : tallied (addTo firstDay (position.earnedNet - tallied amounts) amounts)
      = position.earnedNet := by
    rw [tallied_addTo]
    omega
  have hmoney : tripDayMoney members position = .ok
      { firstDay := firstDay
        floor := position.earnedNet - tallied amounts
        cash := tripCash position firstDay
          (addTo firstDay (position.earnedNet - tallied amounts) amounts) rawDebt
        recoveries := recoveries } := by
    unfold tripDayMoney
    rw [hamounts]
    exact bind_eq_ok.mpr ⟨firstDay, demand_eq_ok.mpr hfirst, bind_eq_ok.mpr ⟨rawDebt, hrawOk,
      bind_eq_ok.mpr ⟨recoveries, hrecOk, rfl⟩⟩⟩
  refine ⟨_, hmoney, hfirstMem, ?_, ?_, ?_, ?_, hrec.total, hrec.nonneg⟩
  · simp only [hsum]
    omega
  · intro entry hentry
    exact (hfloorDays entry.1).mp (tripCash_mem ((hfloorDays firstDay).mpr hfirstMem) entry hentry)
  · exact tripCash_sum (nodup_keys_addTo hnodup) hfloorSum hraw
      (fun day hday => (hfloorDays day).mpr (hraw.days day hday))
  · intro entry hentry
    exact hrec.days entry.1 (List.mem_map_of_mem hentry)

end EarningsDays
end Payout
end Mobility
