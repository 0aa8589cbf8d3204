import Mathlib.Data.List.GetD
import Mobility.Lib.Cuts
import Mobility.Lib.Tallies
import Mobility.Pay.Eligibility

/-!
# Classification — the breakdown of a session (`classify_session`)

The cuts of a session divide it into slices.  Each slice is charged once: to the reason
against it, or as eligible time to the Lagos day of its start.  So the breakdown is a
partition of the whole seconds of the session, and the binary search finds the one ping
interval that an eligible slice lies in.
-/

namespace Mobility
namespace Pay

open Lib
open Trips

/-- `STATIONARY_POLICY_D39`, the only stop policy. -/
def stationaryPolicyD39 : String := "d39-stop-5min-v1"

def exclusionReasons : List ExclusionReason :=
  [.gpsGap, .lowAccuracy, .teleport, .outOfWindow, .outOfArea, .stationary]

namespace EligibilitySession

/-! ## The breakdown -/

/-- One eligible slice; the last four fields describe the ping interval it lies in. -/
structure EligibleSlice where
  startOffset : Nat
  endOffset : Nat
  day : Day
  premium : Bool
  intervalIndex : Nat
  intervalLength : Nat
  intervalStartSeconds : ℚ
  intervalSeconds : ℚ
  deriving DecidableEq, Repr

def EligibleSlice.length (slice : EligibleSlice) : Nat :=
  slice.endOffset - slice.startOffset

/-- `stationary_detector_evidence`. -/
structure DetectorEvidence where
  version : String
  params : EligibilityParams
  excludedStopRanges : List (Nat × Nat)
  deriving DecidableEq, Repr

structure EligibilityBreakdown where
  eligibleSeconds : Nat := 0
  excludedSecondsByReason : List (ExclusionReason × Nat) := []
  teleportIncidentCount : Nat := 0
  eligibleSecondsByDay : List (Day × Nat) := []
  eligibleSlices : List EligibleSlice := []
  stationaryDetectorEvidence : Option DetectorEvidence := none
  /-- sub-second intervals that are eligible at their instant: index, day, premium -/
  eligibleInstantIntervals : List (Nat × Day × Bool) := []
  deriving DecidableEq, Repr

section

variable [Geodesy] (c : EligibilitySession)

/-- The slice boundaries: session edges, window edges, pings, stops and midnights. -/
def boundaries : List Nat :=
  (0 :: c.duration :: c.cuts ++ lagosMidnightOffsets c.sessionStartedAt c.duration).dedup
    |>.insertionSort (· ≤ ·)

/-- The ping interval that a slice start lies in, with its index. -/
def intervalAt? (point : Nat) : Option (Nat × EligibilityPing × EligibilityPing) :=
  (c.intervalIndexFor point).bind (fun index => c.intervals[index]?.map (index, ·))

/-- The eligible slice between two cuts of a ping interval. -/
def eligibleSlice (index : Nat) (interval : EligibilityPing × EligibilityPing)
    (slice : Nat × Nat) : EligibleSlice :=
  { startOffset := slice.1
    endOffset := slice.2
    day := lagosDayAt c.sessionStartedAt slice.1
    premium := interval.1.inPremium && interval.2.inPremium
    intervalIndex := index
    intervalLength := c.pingOffset interval.2 - c.pingOffset interval.1
    intervalStartSeconds := c.elapsed interval.1
    intervalSeconds := c.elapsed interval.2 - c.elapsed interval.1 }

/-- What becomes of a slice: a reason against it, or an eligible slice. -/
def verdict (slice : Nat × Nat) : ExclusionReason ⊕ EligibleSlice :=
  match c.intervalAt? slice.1 with
  | none => .inl .gpsGap
  | some (index, interval) =>
      match c.sliceReason interval slice.1 with
      | some reason => .inl reason
      | none => .inr (c.eligibleSlice index interval slice)

/-- One round of the loop over the boundaries. -/
def chargeSlice (b : EligibilityBreakdown) (slice : Nat × Nat) : EligibilityBreakdown :=
  let length := slice.2 - slice.1
  if length = 0 then b
  else
    match c.verdict slice with
    | .inl reason =>
        { b with excludedSecondsByReason := addTo reason length b.excludedSecondsByReason }
    | .inr eligible =>
        { b with
          eligibleSeconds := b.eligibleSeconds + length
          eligibleSecondsByDay := addTo eligible.day length b.eligibleSecondsByDay
          eligibleSlices := b.eligibleSlices ++ [eligible] }

/-- The sub-second intervals that carry distance but no seconds. -/
def eligibleInstants : List (Nat × Day × Bool) :=
  c.intervals.zipIdx.filterMap (fun (interval, index) =>
    if c.EligibleInstant interval then
      some (index, lagosDayAt c.sessionStartedAt (c.pingOffset interval.1),
        interval.1.inPremium && interval.2.inPremium)
    else
      none)

def teleportIncidents : Nat :=
  (c.intervals.filter (fun interval =>
    c.signalReason interval.1 interval.2 = some .teleport)).length

def classifySession : EligibilityBreakdown :=
  if c.duration = 0 then {}
  else if c.ordered = [] then { excludedSecondsByReason := [(.gpsGap, c.duration)] }
  else
    let charged := (slices c.boundaries).foldl c.chargeSlice
      { excludedSecondsByReason := exclusionReasons.map (·, 0) }
    { charged with
      excludedSecondsByReason := charged.excludedSecondsByReason.filter (0 < ·.2)
      teleportIncidentCount := c.teleportIncidents
      stationaryDetectorEvidence := some
        { version := stationaryPolicyD39
          params := c.params
          excludedStopRanges := c.stayPointRegions }
      eligibleInstantIntervals := c.eligibleInstants }

end

/-! ## Offsets -/

section

variable {c : EligibilitySession}

theorem off_le_duration (moment : Int) : c.off moment ≤ c.duration :=
  min_le_right _ _

theorem off_mono {moment moment' : Int} (h : moment ≤ moment') : c.off moment ≤ c.off moment' := by
  refine min_le_min_right _ (Int.toNat_le_toNat ?_)
  refine Int.ediv_le_ediv ?_ (Int.sub_le_sub_right h _)
  norm_num [microsPerSecond]

theorem ordered_pairwise :
    c.ordered.Pairwise (fun ping ping' => ping.recordedAt ≤ ping'.recordedAt) := by
  have htotal : Std.Total (fun ping ping' : EligibilityPing => ping.recordedAt ≤ ping'.recordedAt) :=
    ⟨fun ping ping' => le_total ping.recordedAt ping'.recordedAt⟩
  have htrans : IsTrans EligibilityPing (fun ping ping' => ping.recordedAt ≤ ping'.recordedAt) :=
    ⟨fun _ _ _ => le_trans⟩
  exact List.pairwise_insertionSort _ _

theorem offsets_pairwise : c.offsets.Pairwise (· ≤ ·) :=
  List.pairwise_map.mpr (ordered_pairwise.imp off_mono)

theorem offsets_mono (c : EligibilitySession) {i j : Nat} (hij : i ≤ j) (hj : j < c.offsets.length) :
    c.offsets.getD i 0 ≤ c.offsets.getD j 0 := by
  have hi : i < c.offsets.length := hij.trans_lt hj
  rw [List.getD_eq_getElem _ _ hi, List.getD_eq_getElem _ _ hj]
  rcases hij.lt_or_eq with hlt | rfl
  · exact List.pairwise_iff_getElem.mp offsets_pairwise i j hi hj hlt
  · exact le_refl _

/-! ## The binary search -/

/-- The whole-second span of ping interval `index` holds the point. -/
def Spans (c : EligibilitySession) (index point : Nat) : Prop :=
  index + 1 < c.offsets.length ∧ c.offsets.getD index 0 ≤ point
    ∧ point < c.offsets.getD (index + 1) 0

/-- Intervals span disjoint seconds. -/
theorem Spans.unique {index index' point : Nat} (h : c.Spans index point)
    (h' : c.Spans index' point) : index = index' := by
  rcases lt_trichotomy index index' with hlt | rfl | hgt
  · have hle := c.offsets_mono (Nat.succ_le_of_lt hlt) (Nat.lt_of_succ_lt h'.1)
    exact absurd h.2.2 (not_lt.mpr (hle.trans h'.2.1))
  · rfl
  · have hle := c.offsets_mono (Nat.succ_le_of_lt hgt) (Nat.lt_of_succ_lt h.1)
    exact absurd h'.2.2 (not_lt.mpr (hle.trans h.2.1))

theorem searchInterval_spans {point fuel index : Nat} {low high : Int} (hlow : 0 ≤ low)
    (hhigh : high + 2 ≤ c.offsets.length)
    (h : searchInterval c.offsets point fuel low high = some index) : c.Spans index point := by
  induction fuel generalizing low high with
  | zero => exact absurd h (by simp [searchInterval])
  | succ fuel ih =>
      unfold searchInterval at h
      dsimp only at h
      split_ifs at h with hle hin hbefore
      · have hindex : ((low + high) / 2).toNat = index := Option.some.inj h
        rw [hindex] at hin
        exact ⟨by omega, hin.1, hin.2⟩
      · exact ih hlow (by omega) h
      · exact ih (by omega) hhigh h

/-- The search narrows towards the interval that spans the point. -/
theorem searchInterval_of_spans {point fuel index : Nat} {low high : Int}
    (hspans : c.Spans index point) (hlow : 0 ≤ low) (hle : low ≤ index) (hge : index ≤ high)
    (hhigh : high + 2 ≤ c.offsets.length) (hfuel : high + 1 - low ≤ fuel) :
    searchInterval c.offsets point fuel low high = some index := by
  induction fuel generalizing low high with
  | zero => omega
  | succ fuel ih =>
      have hmid : 0 ≤ (low + high) / 2 := by omega
      unfold searchInterval
      rw [if_pos (hle.trans hge)]
      dsimp only
      split_ifs with hin hbefore
      · have hspans' : c.Spans ((low + high) / 2).toNat point := ⟨by omega, hin.1, hin.2⟩
        exact congrArg some (hspans'.unique hspans)
      · -- the point lies before the middle, so its interval does too
        have hlt : index < ((low + high) / 2).toNat := by
          by_contra hnot
          have hmono := c.offsets_mono (not_lt.mp hnot) (Nat.lt_of_succ_lt hspans.1)
          exact absurd (hmono.trans hspans.2.1) (not_le.mpr hbefore)
        exact ih hlow hle (by omega) (by omega) (by omega)
      · -- the point lies after the middle interval
        have hgt : ((low + high) / 2).toNat < index := by
          by_contra hnot
          have hlater : ¬ point < c.offsets.getD (((low + high) / 2).toNat + 1) 0 :=
            fun hlt => hin ⟨not_lt.mp hbefore, hlt⟩
          have hmono := c.offsets_mono (Nat.succ_le_succ (not_lt.mp hnot)) (by omega)
          exact hlater (hspans.2.2.trans_le hmono)
        exact ih (by omega) (by omega) hge hhigh (by omega)

/-- The binary search finds the one interval that spans a point. -/
theorem intervalIndexFor_eq_some {point index : Nat} :
    c.intervalIndexFor point = some index ↔ c.Spans index point := by
  constructor
  · intro h
    unfold intervalIndexFor at h
    split_ifs at h
    exact searchInterval_spans (le_refl _) (by omega) h
  · intro h
    have hlength := h.1
    unfold intervalIndexFor
    rw [if_neg, searchInterval_of_spans h (le_refl _) (by omega) (by omega) (by omega) (by omega)]
    rintro (hfirst | hlast)
    · have hhead : c.offsets.head? = some (c.offsets.getD 0 0) := by
        rw [List.getD_eq_getElem _ _ (by omega), List.head?_eq_getElem?,
          List.getElem?_eq_getElem (by omega)]
      rw [hhead] at hfirst
      have hmono := c.offsets_mono (Nat.zero_le index) (by omega : index < c.offsets.length)
      have hlt : point < c.offsets.getD 0 0 := by simpa using hfirst
      exact absurd (hmono.trans h.2.1) (not_le.mpr hlt)
    · have hend : c.offsets.getLast? = some (c.offsets.getD (c.offsets.length - 1) 0) := by
        rw [List.getD_eq_getElem _ _ (by omega), List.getLast?_eq_getElem?,
          List.getElem?_eq_getElem (by omega)]
      rw [hend] at hlast
      have hmono := c.offsets_mono (by omega : index + 1 ≤ c.offsets.length - 1) (by omega)
      have hle : c.offsets.getD (c.offsets.length - 1) 0 ≤ point := by simpa using hlast
      exact absurd (h.2.2.trans_le hmono) (not_lt.mpr hle)

theorem intervals_eq_some {index : Nat} {interval : EligibilityPing × EligibilityPing} :
    c.intervals[index]? = some interval
      ↔ c.ordered[index]? = some interval.1 ∧ c.ordered[index + 1]? = some interval.2 := by
  rw [intervals, List.getElem?_zip_eq_some, List.getElem?_tail]

/-- The offsets of the two pings of an interval. -/
theorem offsets_of_interval {index : Nat} {interval : EligibilityPing × EligibilityPing}
    (h : c.intervals[index]? = some interval) :
    index + 1 < c.offsets.length ∧ c.offsets.getD index 0 = c.pingOffset interval.1
      ∧ c.offsets.getD (index + 1) 0 = c.pingOffset interval.2 := by
  rcases intervals_eq_some.mp h with ⟨hfirst, hsecond⟩
  have hlength : index + 1 < c.ordered.length := (List.getElem?_eq_some_iff.mp hsecond).1
  refine ⟨by simpa [offsets] using hlength, ?_, ?_⟩
  · simp [offsets, List.getD_eq_getElem?_getD, hfirst]
  · simp [offsets, List.getD_eq_getElem?_getD, hsecond]

theorem exists_interval {index : Nat} (h : index + 1 < c.offsets.length) :
    ∃ interval, c.intervals[index]? = some interval := by
  have hlength : index + 1 < c.ordered.length := by simpa [offsets] using h
  exact ⟨(c.ordered[index], c.ordered[index + 1]), intervals_eq_some.mpr
    ⟨List.getElem?_eq_getElem _, List.getElem?_eq_getElem _⟩⟩

theorem intervalAt?_eq_some {point index : Nat}
    {interval : EligibilityPing × EligibilityPing} :
    c.intervalAt? point = some (index, interval)
      ↔ c.Spans index point ∧ c.intervals[index]? = some interval := by
  simp only [intervalAt?, Option.bind_eq_some_iff, Option.map_eq_some_iff,
    intervalIndexFor_eq_some, Prod.mk.injEq]
  constructor
  · rintro ⟨found, hspans, interval', hinterval, rfl, rfl⟩
    exact ⟨hspans, hinterval⟩
  · rintro ⟨hspans, hinterval⟩
    exact ⟨index, hspans, interval, hinterval, rfl, rfl⟩

end

/-! ## Boundaries -/

section

variable [Geodesy] {c : EligibilitySession}

/-- A stop runs from the offset of one ping to the offset of another. -/
theorem stayRegionsFrom_offsets {region : Nat × Nat} {skip : Nat} {pings : List EligibilityPing}
    (h : region ∈ c.stayRegionsFrom skip pings) :
    ∃ first last, region = (c.pingOffset first, c.pingOffset last) := by
  induction pings generalizing skip with
  | nil => exact absurd h (by simp [stayRegionsFrom])
  | cons anchor rest ih =>
      cases skip with
      | succ skip => exact ih h
      | zero =>
          unfold stayRegionsFrom at h
          dsimp only at h
          split at h
          · exact ih h
          · rename_i last _
            split_ifs at h with hlong hspan
            · rcases List.mem_append.mp h with h | h
              · exact ⟨anchor, last, List.mem_singleton.mp h⟩
              · exact ih h
            · exact ih h
            · exact ih h

theorem cuts_le {point : Nat} (h : point ∈ c.cuts) : point ≤ c.duration := by
  simp only [cuts, List.mem_append, List.mem_cons, List.not_mem_nil, or_false, offsets,
    List.mem_map, List.mem_flatMap] at h
  rcases h with ((rfl | rfl) | ⟨ping, _, rfl⟩) | ⟨region, hregion, hpoint⟩
  · unfold windowFrom
    cases c.windowStartAt with
    | none => exact Nat.zero_le _
    | some moment => exact off_le_duration moment
  · unfold windowTo
    cases c.windowEndAt with
    | none => exact le_refl _
    | some moment => exact off_le_duration moment
  · exact off_le_duration _
  · rcases stayRegionsFrom_offsets hregion with ⟨first, last, rfl⟩
    rcases hpoint with rfl | rfl
    · exact off_le_duration _
    · exact off_le_duration _

theorem mem_boundaries {point : Nat} :
    point ∈ c.boundaries ↔ point = 0 ∨ point = c.duration ∨ point ∈ c.cuts
      ∨ point ∈ lagosMidnightOffsets c.sessionStartedAt c.duration := by
  simp [boundaries]

theorem boundaries_sorted : c.boundaries.Pairwise (· < ·) := by
  have hle : c.boundaries.Pairwise (· ≤ ·) := List.pairwise_insertionSort _ _
  have hnodup : c.boundaries.Nodup :=
    (List.perm_insertionSort _ _).nodup_iff.mpr (List.nodup_dedup _)
  exact (hle.and hnodup).imp (fun h => lt_of_le_of_ne h.1 h.2)

theorem boundaries_le_duration {point : Nat} (h : point ∈ c.boundaries) : point ≤ c.duration := by
  rcases mem_boundaries.mp h with rfl | rfl | hcut | hmidnight
  · exact Nat.zero_le _
  · exact le_refl _
  · exact cuts_le hcut
  · simp only [lagosMidnightOffsets, List.mem_filter, decide_eq_true_eq] at hmidnight
    exact hmidnight.2.2.le

theorem sum_boundaries :
    ((slices c.boundaries).map (fun slice => slice.2 - slice.1)).sum = c.duration := by
  have hfirst : c.boundaries.head? = some 0 :=
    head?_eq_of_le boundaries_sorted (mem_boundaries.mpr (.inl rfl)) (fun _ _ => Nat.zero_le _)
  have hlast : c.boundaries.getLast? = some c.duration :=
    getLast?_eq_of_le boundaries_sorted (mem_boundaries.mpr (.inr (.inl rfl)))
      (fun _ => boundaries_le_duration)
  rw [sum_lengths boundaries_sorted hfirst hlast, Nat.sub_zero]

/-! ## Charging the slices -/

theorem verdict_eq_inr {slice : Nat × Nat} {x : EligibleSlice} :
    c.verdict slice = .inr x ↔ ∃ index interval, c.Spans index slice.1
      ∧ c.intervals[index]? = some interval ∧ c.sliceReason interval slice.1 = none
      ∧ x = c.eligibleSlice index interval slice := by
  unfold verdict
  constructor
  · intro h
    split at h
    · exact absurd h (by simp)
    · rename_i index interval hat
      split at h
      · exact absurd h (by simp)
      · rename_i hreason
        rcases intervalAt?_eq_some.mp hat with ⟨hspans, hinterval⟩
        exact ⟨index, interval, hspans, hinterval, hreason, (Sum.inr.inj h).symm⟩
  · rintro ⟨index, interval, hspans, hinterval, hreason, rfl⟩
    rw [intervalAt?_eq_some.mpr ⟨hspans, hinterval⟩]
    simp [hreason]

/-- The eligible slices among some slices. -/
def eligibleAmong (c : EligibilitySession) (stretches : List (Nat × Nat)) : List EligibleSlice :=
  stretches.filterMap (fun slice => (c.verdict slice).getRight?)

theorem mem_eligibleAmong {stretches : List (Nat × Nat)} {x : EligibleSlice} :
    x ∈ c.eligibleAmong stretches ↔ ∃ slice ∈ stretches, c.verdict slice = .inr x := by
  simp [eligibleAmong, Sum.getRight?_eq_some_iff]

/-- What the loop over the slices leaves: each slice is charged to its reason, or joins the
eligible ones and their day. -/
structure Charged (c : EligibilitySession) (stretches : List (Nat × Nat))
    (before after : EligibilityBreakdown) : Prop where
  slices : after.eligibleSlices = before.eligibleSlices ++ c.eligibleAmong stretches
  seconds : after.eligibleSeconds
    = before.eligibleSeconds + ((c.eligibleAmong stretches).map (·.length)).sum
  byDay : after.eligibleSecondsByDay
    = addAll (·.day) (·.length) (c.eligibleAmong stretches) before.eligibleSecondsByDay
  conserved : after.eligibleSeconds + tallied after.excludedSecondsByReason
    = before.eligibleSeconds + tallied before.excludedSecondsByReason
      + (stretches.map (fun slice => slice.2 - slice.1)).sum

theorem charged_one {slice : Nat × Nat} (hlt : slice.1 < slice.2) (b : EligibilityBreakdown) :
    Charged c [slice] b (c.chargeSlice b slice) := by
  have hlength : ¬ slice.2 - slice.1 = 0 := by omega
  unfold chargeSlice
  dsimp only
  rw [if_neg hlength]
  cases hverdict : c.verdict slice with
  | inl reason =>
      have hnone : c.eligibleAmong [slice] = [] := by simp [eligibleAmong, hverdict]
      refine ⟨?_, ?_, ?_, ?_⟩
      · simp [hnone]
      · simp [hnone]
      · simp [hnone, addAll]
      · simp [tallied_addTo, add_assoc]
  | inr eligible =>
      have hone : c.eligibleAmong [slice] = [eligible] := by simp [eligibleAmong, hverdict]
      have hsame : eligible.length = slice.2 - slice.1 := by
        rcases verdict_eq_inr.mp hverdict with ⟨index, interval, _, _, _, rfl⟩
        rfl
      refine ⟨?_, ?_, ?_, ?_⟩
      · simp [hone]
      · simp [hone, hsame]
      · simp [hone, addAll, hsame]
      · simp only [List.map_cons, List.map_nil, List.sum_cons, List.sum_nil]
        omega

theorem charged_fold {stretches : List (Nat × Nat)} (hlt : ∀ slice ∈ stretches, slice.1 < slice.2)
    (b : EligibilityBreakdown) : Charged c stretches b (stretches.foldl c.chargeSlice b) := by
  induction stretches generalizing b with
  | nil => exact ⟨by simp [eligibleAmong], by simp [eligibleAmong], by simp [eligibleAmong, addAll],
      by simp⟩
  | cons slice rest ih =>
      have hone := charged_one (hlt slice List.mem_cons_self) (c := c) b
      have hrest := ih (fun s hs => hlt s (List.mem_cons_of_mem _ hs)) (c.chargeSlice b slice)
      have hsplit : c.eligibleAmong (slice :: rest)
          = c.eligibleAmong [slice] ++ c.eligibleAmong rest := by
        simp only [eligibleAmong, ← List.filterMap_append, List.cons_append, List.nil_append]
      refine ⟨?_, ?_, ?_, ?_⟩
      · rw [List.foldl_cons, hrest.slices, hone.slices, hsplit, List.append_assoc]
      · rw [List.foldl_cons, hrest.seconds, hone.seconds, hsplit, List.map_append,
          List.sum_append, add_assoc]
      · rw [List.foldl_cons, hrest.byDay, hone.byDay, hsplit]
        simp [addAll, List.foldl_append]
      · rw [List.foldl_cons, hrest.conserved, hone.conserved]
        simp [add_assoc]

theorem eligibleAmong_eq_nil {stretches : List (Nat × Nat)}
    (h : ∀ index point, ¬ c.Spans index point) : c.eligibleAmong stretches = [] := by
  refine List.eq_nil_iff_forall_not_mem.mpr ?_
  intro x hx
  rcases mem_eligibleAmong.mp hx with ⟨slice, _, hverdict⟩
  rcases verdict_eq_inr.mp hverdict with ⟨index, _, hspans, _⟩
  exact h index slice.1 hspans

/-- The breakdown charges every slice of the session, also where it returns early. -/
theorem classifySession_charged : Charged c (slices c.boundaries) {} c.classifySession := by
  have hsum := sum_boundaries (c := c)
  unfold classifySession
  split_ifs with hduration hempty
  · have hnone : c.eligibleAmong (slices c.boundaries) = [] := by
      refine eligibleAmong_eq_nil ?_
      rintro index point ⟨hlength, hle, hlt⟩
      have hoffset : c.offsets.getD (index + 1) 0 ≤ c.duration := by
        rw [List.getD_eq_getElem _ _ hlength]
        rcases List.mem_map.mp (List.getElem_mem hlength) with ⟨ping, _, hping⟩
        exact hping ▸ off_le_duration _
      omega
    refine ⟨by simp [hnone], by simp [hnone], by simp [hnone, addAll], ?_⟩
    rw [hsum, hduration]
    rfl
  · have hnone : c.eligibleAmong (slices c.boundaries) = [] := by
      refine eligibleAmong_eq_nil ?_
      rintro index point ⟨hlength, _, _⟩
      simp [offsets, hempty] at hlength
    refine ⟨by simp [hnone], by simp [hnone], by simp [hnone, addAll], ?_⟩
    rw [hsum]
    simp
  · have hlt : ∀ slice ∈ slices c.boundaries, slice.1 < slice.2 :=
      fun _ => slices_lt boundaries_sorted
    have hcharged := charged_fold (c := c) hlt
      { excludedSecondsByReason := exclusionReasons.map (·, 0) }
    dsimp only
    -- only what the loop charged matters from here on, not how it ran
    generalize (slices c.boundaries).foldl c.chargeSlice _ = charged at hcharged ⊢
    refine ⟨hcharged.slices, hcharged.seconds, hcharged.byDay, ?_⟩
    have hzero : tallied (exclusionReasons.map (fun reason => (reason, 0))) = 0 := by decide
    have hfilter : ∀ excluded : List (ExclusionReason × Nat),
        tallied (excluded.filter (0 < ·.2)) = tallied excluded := by
      intro excluded
      refine tallied_filter ?_
      intro entry _ hentry
      simpa using hentry
    have hconserved := hcharged.conserved
    rw [hzero] at hconserved
    rw [hfilter]
    exact hconserved

theorem mem_eligibleSlices {x : EligibleSlice} :
    x ∈ c.classifySession.eligibleSlices
      ↔ ∃ slice ∈ slices c.boundaries, c.verdict slice = .inr x := by
  rw [classifySession_charged.slices, List.nil_append, mem_eligibleAmong]

/-- An eligible slice lies between two cuts, inside the ping interval it names. -/
theorem eligible_within {slice : Nat × Nat} (hslice : slice ∈ slices c.boundaries)
    {x : EligibleSlice} (h : c.verdict slice = .inr x) :
    (x.startOffset, x.endOffset) = slice ∧ c.Spans x.intervalIndex x.startOffset
      ∧ x.endOffset ≤ c.offsets.getD (x.intervalIndex + 1) 0 := by
  rcases verdict_eq_inr.mp h with ⟨index, interval, hspans, _, _, rfl⟩
  refine ⟨rfl, hspans, ?_⟩
  have hcut : c.offsets.getD (index + 1) 0 ∈ c.boundaries := by
    refine mem_boundaries.mpr (.inr (.inr (.inl ?_)))
    rw [List.getD_eq_getElem _ _ hspans.1]
    simp [cuts, List.getElem_mem hspans.1]
  -- pings are cuts, so the next ping cannot fall inside the slice
  rcases le_or_le_of_mem_slices boundaries_sorted hslice hcut with hbefore | hafter
  · exact absurd hspans.2.2 (not_lt.mpr hbefore)
  · exact hafter

theorem eligibleSlices_pairwise :
    c.classifySession.eligibleSlices.Pairwise (fun x y => x.endOffset ≤ y.startOffset) := by
  rw [classifySession_charged.slices, List.nil_append]
  refine List.pairwise_filterMap.mpr ?_
  refine (slices_pairwise boundaries_sorted).imp ?_
  intro slice slice' hle x hx y hy
  rcases verdict_eq_inr.mp (Sum.getRight?_eq_some_iff.mp hx) with ⟨_, _, _, _, _, rfl⟩
  rcases verdict_eq_inr.mp (Sum.getRight?_eq_some_iff.mp hy) with ⟨_, _, _, _, _, rfl⟩
  exact hle

/-! ## The partition -/

omit [Geodesy] in
theorem duration_eq :
    (c.duration : Int)
      = max 0 ⌊((c.sessionEndedAt - c.sessionStartedAt : Int) : ℚ) / 1000000⌋ := by
  have hfloor : ⌊((c.sessionEndedAt - c.sessionStartedAt : Int) : ℚ) / 1000000⌋
      = (c.sessionEndedAt - c.sessionStartedAt) / 1000000 := by
    exact_mod_cast Rat.floor_intCast_div_natCast (c.sessionEndedAt - c.sessionStartedAt) 1000000
  rw [hfloor, duration, Int.toNat_eq_max, max_comm]
  rfl

/-- Eligible and excluded time partition the whole seconds of the session, and every eligible
slice lies in the one ping interval that the binary search finds for its start. -/
theorem breakdown_partitions_session (c : EligibilitySession) :
    ((c.classifySession.eligibleSeconds
        + tallied c.classifySession.excludedSecondsByReason : Nat) : Int)
        = max 0 ⌊((c.sessionEndedAt - c.sessionStartedAt : Int) : ℚ) / 1000000⌋
      ∧ c.classifySession.eligibleSeconds = tallied c.classifySession.eligibleSecondsByDay
      ∧ c.classifySession.eligibleSeconds
        = (c.classifySession.eligibleSlices.map (·.length)).sum
      ∧ c.classifySession.eligibleSlices.Pairwise (fun x y => x.endOffset ≤ y.startOffset)
      ∧ ∀ x ∈ c.classifySession.eligibleSlices,
          x.startOffset < x.endOffset ∧ x.endOffset ≤ c.duration
          ∧ x.intervalIndex + 1 < c.offsets.length
          ∧ c.offsets.getD x.intervalIndex 0 ≤ x.startOffset
          ∧ x.endOffset ≤ c.offsets.getD (x.intervalIndex + 1) 0
          ∧ c.intervalIndexFor x.startOffset = some x.intervalIndex
          ∧ ∀ index, index + 1 < c.offsets.length → c.offsets.getD index 0 ≤ x.startOffset →
              x.startOffset < c.offsets.getD (index + 1) 0 → index = x.intervalIndex := by
  have hcharged := classifySession_charged (c := c)
  have hseconds : c.classifySession.eligibleSeconds
      = (c.classifySession.eligibleSlices.map (·.length)).sum := by
    rw [hcharged.seconds, hcharged.slices]
    simp
  have hbyDay : tallied c.classifySession.eligibleSecondsByDay
      = (c.classifySession.eligibleSlices.map (·.length)).sum := by
    rw [hcharged.byDay, hcharged.slices, tallied_addAll]
    simp
  have htotal : c.classifySession.eligibleSeconds
      + tallied c.classifySession.excludedSecondsByReason = c.duration := by
    have hconserved := hcharged.conserved
    rw [sum_boundaries] at hconserved
    simpa using hconserved
  -- every second of the session is in some slice
  refine ⟨by rw [htotal, duration_eq], hseconds.trans hbyDay.symm, hseconds,
    eligibleSlices_pairwise, ?_⟩
  intro x hx
  rcases mem_eligibleSlices.mp hx with ⟨slice, hslice, hverdict⟩
  rcases eligible_within hslice hverdict with ⟨hsame, hspans, hend⟩
  have hlt : slice.1 < slice.2 := slices_lt boundaries_sorted hslice
  have hle : slice.2 ≤ c.duration := boundaries_le_duration (mem_of_mem_slices hslice).2
  rw [← hsame] at hlt hle
  refine ⟨hlt, hle, hspans.1, hspans.2.1, hend, intervalIndexFor_eq_some.mpr hspans, ?_⟩
  intro index hlength hfrom hto
  exact Spans.unique ⟨hlength, hfrom, hto⟩ hspans

end

end EligibilitySession

end Pay
end Mobility
