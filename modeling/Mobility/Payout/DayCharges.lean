import Mobility.Lib.Ceilings
import Mobility.Payout.DayAllocations

/-!
# DayCharges — a live line is charged to its days at no less than their part of it

`chargeOn` is what one row of `cashByDay` charges to a day.  The cash of a day is the sum
of these charges, and a row charges each day at least the part of its calculation that
belongs to the day, or its whole amount.
-/

namespace Mobility
namespace Payout
namespace DayCeiling

open Lib
open Trips (Day)

variable [TextReaders] {s : Store} {books : PayBooks} {line : PayoutBatchLine}
  {entry : EarningsLedgerEntry}

/-! ## Dictionaries that are read -/

theorem nodup_positiveDays {amountByDay : StoredDays} {days : List (Day × Int)}
    (h : positiveDays amountByDay = .ok days) : (days.map (·.1)).Nodup := by
  simp only [positiveDays, bind_eq_ok] at h
  rcases h with ⟨items, _, hfold⟩
  refine checkedFold_invariant (fun days => (days.map (·.1)).Nodup) ?_ items hfold List.nodup_nil
  intro days item days' hdays hstep
  simp only [bind_eq_ok, ite_eq_ok, pure_eq_ok] at hstep
  rcases hstep with ⟨_, _, amount, _, ⟨_, day, _, rfl⟩ | ⟨_, rfl⟩⟩
  · exact nodup_keys_setTo hdays
  · exact hdays

theorem readAllocation_ok {allocation : StoredDays} {parsed : List (Day × Int)}
    (h : readAllocation allocation = some parsed) : parseAllocation allocation = .ok parsed := by
  unfold readAllocation at h
  split_ifs at h
  cases hparse : parseAllocation allocation with
  | error error => simp [hparse] at h
  | ok read =>
      simp only [hparse] at h
      split_ifs at h
      exact congrArg Except.ok (Option.some.inj h)

theorem nodup_readAllocation {allocation : StoredDays} {parsed : List (Day × Int)}
    (h : readAllocation allocation = some parsed) : (parsed.map (·.1)).Nodup := by
  have hparse := readAllocation_ok h
  simp only [parseAllocation, bind_eq_ok] at hparse
  rcases hparse with ⟨items, _, hfold⟩
  refine checkedFold_invariant (fun days => (days.map (·.1)).Nodup) ?_ items hfold List.nodup_nil
  intro days item days' hdays hstep
  simp only [bind_eq_ok, pure_eq_ok] at hstep
  rcases hstep with ⟨day, _, _, _, amount, _, rfl⟩
  exact nodup_keys_setTo hdays

/-- The days of every allocation are known once all are gathered. -/
theorem gatherDays_spec : ∀ {allocations : List StoredDays} {days out : List (Day × Int)},
    gatherDays allocations days = some out → (days.map (·.1)).Nodup →
      (out.map (·.1)).Nodup ∧ (∀ day ∈ days.map (·.1), day ∈ out.map (·.1))
      ∧ ∀ allocation ∈ allocations, ∃ parsed, readAllocation allocation = some parsed
        ∧ ∀ day ∈ parsed.map (·.1), day ∈ out.map (·.1) := by
  intro allocations
  -- later allocations only add days, so the days known so far stay known
  induction allocations with
  | nil =>
      intro days out h hdays
      simp only [gatherDays, Option.some.injEq] at h
      subst h
      exact ⟨hdays, fun _ hday => hday, by simp⟩
  | cons allocation rest ih =>
      intro days out h hdays
      simp only [gatherDays, Option.bind_eq_some_iff] at h
      rcases h with ⟨parsed, hparsed, hrest⟩
      rcases ih hrest (nodup_keys_setAll hdays) with ⟨hnodup, hkept, hread⟩
      have hknown : ∀ day, day ∈ days.map (·.1) ∨ day ∈ parsed.map (·.1) →
          day ∈ out.map (·.1) :=
        fun day hday => hkept day (mem_keys_setAll.mpr hday)
      refine ⟨hnodup, fun day hday => hknown day (.inl hday), ?_⟩
      intro other hother
      rcases List.mem_cons.mp hother with rfl | hother
      · exact ⟨parsed, hparsed, fun day hday => hknown day (.inr hday)⟩
      · exact hread other hother

/-- The text stored for a day: of several keys that read as it, the last counts. -/
def storedOn (items : List (String × String)) (day : Day) : Option String :=
  (items.reverse.find? (fun item => TextReaders.fromIsoFormat item.1 = some day)).map (·.2)

theorem storedOn_append {items : List (String × String)} {item : String × String} {day : Day}
    (hread : TextReaders.fromIsoFormat item.1 = some day) (day' : Day) :
    storedOn (items ++ [item]) day' = if day' = day then some item.2 else storedOn items day' := by
  unfold storedOn
  rw [List.reverse_append, List.reverse_singleton, List.singleton_append, List.find?_cons, hread]
  by_cases hsame : day' = day
  · simp [hsame]
  · simp [hsame, Ne.symm hsame]

/-- A dictionary has the amount of the text stored for each day, and no other days. -/
theorem lookup_parseAllocation {items : List (String × String)} {parsed : List (Day × Int)}
    (h : parseAllocation (.object items) = .ok parsed) (day : Day) :
    (∀ text, storedOn items day = some text →
        ∃ amount, money text = .ok (some amount) ∧ parsed.lookup day = some amount)
      ∧ (storedOn items day = none → parsed.lookup day = none) := by
  simp only [parseAllocation, bind_eq_ok, StoredDays.items, Except.ok.injEq] at h
  rcases h with ⟨_, rfl, hfold⟩
  -- what was read is the amount of the last key up to here
  refine checkedFold_prefix (fun done days =>
    (∀ text, storedOn done day = some text →
        ∃ amount, money text = .ok (some amount) ∧ days.lookup day = some amount)
      ∧ (storedOn done day = none → days.lookup day = none)) ?_ hfold
    ⟨by simp [storedOn], by simp⟩
  intro done item rest days days' _ hdone hstep
  simp only [bind_eq_ok, demand_eq_ok, pure_eq_ok, comparable] at hstep
  rcases hstep with ⟨read, hread, _, hmoney, amount, rfl, rfl⟩
  rw [storedOn_append hread, lookup_setTo]
  by_cases hsame : day = read
  · rw [if_pos hsame, if_pos hsame]
    refine ⟨?_, fun hnone => absurd hnone (by simp)⟩
    intro text htext
    exact ⟨amount, Option.some.inj htext ▸ hmoney, rfl⟩
  · rw [if_neg hsame, if_neg hsame]
    exact hdone

/-! ## One line -/

/-- What a line charges to a day. -/
def chargeOn (books : PayBooks) (row : PayoutBatchLine × EarningsLedgerEntry) (day : Day) : Int :=
  valueAt ((lineCharges books row.1 row.2).getD []) day

/-- The part of a calculation that belongs to a day, as its allocation reads. -/
def partOn (calculation : PayoutCalculation) (day : Day) : Int :=
  valueAt ((readAllocation calculation.amountByDay).getD []) day

/-- The part of a day is the amount stored for it, and a day without one has no part. -/
structure PartOf (calculation : PayoutCalculation) (day : Day) (part : Int) : Prop where
  stored : ∃ items, calculation.amountByDay = .object items
    ∧ (∀ text, storedOn items day = some text → money text = .ok (some part))
    ∧ (storedOn items day = none → part = 0)

theorem partOf_partOn {calculation : PayoutCalculation} {parsed : List (Day × Int)}
    (h : readAllocation calculation.amountByDay = some parsed) (day : Day) :
    PartOf calculation day (partOn calculation day) := by
  have hpart : partOn calculation day = valueAt parsed day := by
    rw [partOn, h, Option.getD_some]
  rw [hpart, valueAt]
  have hparse := readAllocation_ok h
  cases hstored : calculation.amountByDay with
  | absent => simp [hstored, parseAllocation, StoredDays.items] at hparse
  | other pairs => simp [hstored, parseAllocation, StoredDays.items] at hparse
  | object items =>
      rw [hstored] at hparse
      rcases lookup_parseAllocation hparse day with ⟨hsome, hnone⟩
      refine ⟨items, hstored, ?_, ?_⟩
      · intro text htext
        rcases hsome text htext with ⟨amount, hmoney, hlookup⟩
        simpa [hlookup] using hmoney
      · intro habsent
        simp [hnone habsent]

/-- Either the line is charged exactly as its one calculation says, or all of it to every known
day. -/
theorem lineCharges_spec {charges : List (Day × Int)}
    (h : lineCharges books line entry = some charges) :
    ∃ calculations days, rowCalculations books entry = some calculations
      ∧ gatherDays (calculations.map (·.amountByDay)) [] = some days
      ∧ ((entry.payoutCalculationId.isSome ∧ charges = days)
        ∨ charges = days.map (fun day => (day.1, line.amount))) := by
  simp only [lineCharges, Option.bind_eq_bind, Option.bind_eq_some_iff] at h
  rcases h with ⟨calculations, hcalculations, h⟩
  split_ifs at h
  rcases Option.bind_eq_some_iff.mp h with ⟨days, hdays, h⟩
  split_ifs at h with _ hconsistent
  · -- the parts add up to the amount, so they are charged as they are
    simp only [Bool.and_eq_true, Bool.not_eq_true', Option.isNone_eq_false_iff] at hconsistent
    refine ⟨calculations, days, hcalculations, hdays, .inl ⟨hconsistent.1, ?_⟩⟩
    simpa using h.symm
  · -- a correction, or parts that do not add up
    refine ⟨calculations, days, hcalculations, hdays, .inr ?_⟩
    simpa using h.symm

theorem nodup_lineCharges {charges : List (Day × Int)}
    (h : lineCharges books line entry = some charges) : (charges.map (·.1)).Nodup := by
  rcases lineCharges_spec h with ⟨calculations, days, _, hdays, hcharges⟩
  have hnodup := (gatherDays_spec hdays List.nodup_nil).1
  rcases hcharges with ⟨_, rfl⟩ | rfl
  · exact hnodup
  · simpa [List.map_map, Function.comp_def] using hnodup

/-- The allocations behind the charges of a line were all read. -/
theorem readAllocation_of_charged {charges : List (Day × Int)}
    (h : lineCharges books line entry = some charges) {calculations : List PayoutCalculation}
    (hcalculations : rowCalculations books entry = some calculations)
    {calculation : PayoutCalculation} (hmem : calculation ∈ calculations) :
    ∃ parsed, readAllocation calculation.amountByDay = some parsed := by
  rcases lineCharges_spec h with ⟨calculations', days, hcalculations', hdays, _⟩
  rw [hcalculations, Option.some.injEq] at hcalculations'
  subst hcalculations'
  rcases (gatherDays_spec hdays List.nodup_nil).2.2 _ (List.mem_map_of_mem hmem) with
    ⟨parsed, hparsed, _⟩
  exact ⟨parsed, hparsed⟩

/-- A line is never charged to a day at less than the part of its calculation there, unless that
is more than the line pays. -/
theorem min_partOn_le_chargeOn {charges : List (Day × Int)}
    (h : lineCharges books line entry = some charges) {calculations : List PayoutCalculation}
    (hcalculations : rowCalculations books entry = some calculations)
    {calculation : PayoutCalculation} (hmem : calculation ∈ calculations) (day : Day) :
    min (partOn calculation day) line.amount ≤ chargeOn books (line, entry) day := by
  rcases lineCharges_spec h with ⟨calculations', days, hcalculations', hdays, hcharges⟩
  rw [hcalculations, Option.some.injEq] at hcalculations'
  subst hcalculations'
  rcases gatherDays_spec hdays List.nodup_nil with ⟨_, _, hread⟩
  rcases hread _ (List.mem_map_of_mem hmem) with ⟨parsed, hparsed, hknown⟩
  have hpart : partOn calculation day = valueAt parsed day := by
    rw [partOn, hparsed, Option.getD_some]
  rw [hpart, chargeOn, h, Option.getD_some]
  rcases hcharges with ⟨hown, rfl⟩ | rfl
  · -- the line has one calculation, and is charged exactly as it says
    have hone : calculations = [calculation] := by
      unfold rowCalculations at hcalculations
      split at hcalculations
      · next hnone => simp [hnone] at hown
      · split at hcalculations
        · exact absurd hcalculations (by simp)
        · split_ifs at hcalculations
          rw [Option.some.injEq] at hcalculations
          rw [← hcalculations] at hmem ⊢
          rw [List.mem_singleton.mp hmem]
    have hexact : valueAt charges day = valueAt parsed day := by
      simp only [hone, List.map_cons, List.map_nil, gatherDays, hparsed, Option.bind_some,
        Option.some.injEq] at hdays
      rw [← hdays, valueAt, lookup_setAll (nodup_readAllocation hparsed)]
      simp [valueAt]
    exact hexact ▸ min_le_left _ _
  · -- all of the line is charged to every day that is known
    rw [valueAt_map_const]
    split_ifs with hday
    · exact min_le_right _ _
    · have hnone : valueAt parsed day = 0 :=
        valueAt_of_not_mem (fun hmem => hday (hknown day hmem))
      exact hnone ▸ min_le_left _ _

/-! ## All lines of a driver -/

theorem chargeRows_spec : ∀ {rows : List (PayoutBatchLine × EarningsLedgerEntry)}
    {totals cash : List (Day × Int)}, chargeRows books rows totals = some cash →
      (∀ row ∈ rows, ∃ charges, lineCharges books row.1 row.2 = some charges)
      ∧ ∀ day, valueAt cash day
        = valueAt totals day + (rows.map (fun row => chargeOn books row day)).sum := by
  intro rows
  -- over the rows, with the totals so far left open
  induction rows with
  | nil =>
      intro totals cash h
      simp only [chargeRows, Option.some.injEq] at h
      subst h
      exact ⟨by simp, by simp⟩
  | cons row rest ih =>
      intro totals cash h
      simp only [chargeRows, Option.bind_eq_some_iff] at h
      rcases h with ⟨charges, hcharges, hrest⟩
      rcases ih hrest with ⟨hall, hsum⟩
      constructor
      · intro other hother
        rcases List.mem_cons.mp hother with rfl | hother
        · exact ⟨charges, hcharges⟩
        · exact hall other hother
      · intro day
        have hrow : chargeOn books row day = valueAt charges day := by
          rw [chargeOn, hcharges, Option.getD_some]
        calc
          valueAt cash day
              = valueAt (addAll (·.1) (·.2) charges totals) day
                + (rest.map (fun row => chargeOn books row day)).sum := hsum day
          _ = valueAt totals day + valueAt charges day
                + (rest.map (fun row => chargeOn books row day)).sum := by
              rw [valueAt_addAll_tally (nodup_lineCharges hcharges)]
          _ = valueAt totals day
                + ((row :: rest).map (fun row => chargeOn books row day)).sum := by
              rw [List.map_cons, List.sum_cons, hrow, add_assoc]

/-- The cash of a day is what the driver's live lines charge to it. -/
theorem cashByDay_eq {driverProfileId : Id} {cash : List (Day × Int)}
    (h : cashByDay s books driverProfileId = some cash) (day : Day) :
    valueAt cash day
      = ((cashRows s books driverProfileId).map (fun row => chargeOn books row day)).sum := by
  have hsum := (chargeRows_spec h).2 day
  rwa [valueAt_nil, zero_add] at hsum

end DayCeiling
end Payout
end Mobility
