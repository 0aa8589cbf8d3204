import Mobility.Lib.Scans
import Mobility.Pay.Classification

/-!
# Stops — the stay points of a trip (`_stay_point_regions`)

Two nested loops look for continuous stops.  An anchor is followed as long as the next pings
come without a gap and stay within the radius of the anchor; a stop longer than the window is
excluded and jumped over.

* `stayPointLoop` is the loop as it is written, over the positions of the ping list.
* It is a greedy scan of the line of pings, so `stay_regions_greedy` reads its rules off it.
* The regions that a session is classified with are the result of this loop.
-/

namespace Mobility
namespace Pay

open Lib

/-- What `_stay_point_regions` is called with. -/
structure StayPoints where
  pings : List EligibilityPing
  offsets : List Nat
  rawSeconds : List ℚ
  params : EligibilityParams
  deriving DecidableEq, Repr

namespace StayPoints

section

variable (a : StayPoints)

def count : Nat := a.pings.length

def secondsAt (i : Nat) : ℚ := a.rawSeconds.getD i 0

def offsetAt (i : Nat) : Nat := a.offsets.getD i 0

/-- `raw_seconds[j] - raw_seconds[i]`, a difference of doubles. -/
def gapBetween (i j : Nat) : ℚ := nearestDouble (a.secondsAt j - a.secondsAt i)

/-- Time-ordered pings, with their raw seconds and their clamped offsets. -/
structure TimeOrdered : Prop where
  rawSeconds_length : a.rawSeconds.length = a.count
  offsets_length : a.offsets.length = a.count
  seconds : a.rawSeconds.Pairwise (· ≤ ·)
  offsets : a.offsets.Pairwise (· ≤ ·)

/-- The stop at these pings lasts longer than the window. -/
def Long (anchor last : Nat) : Prop :=
  a.params.stationaryWindowSeconds < a.gapBetween anchor last

instance (anchor last : Nat) : Decidable (a.Long anchor last) :=
  inferInstanceAs (Decidable (_ < _))

/-- The offsets of a stop, unless clamping left nothing of it. -/
def region (run : Nat × Nat) : Option (Nat × Nat) :=
  if a.offsetAt run.1 < a.offsetAt run.2 then some (a.offsetAt run.1, a.offsetAt run.2) else none

end

/-! ## The loops -/

section

variable [Geodesy] (a : StayPoints)

/-- `haversine_m` between two pings of the list. -/
def metresFrom (anchor j : Nat) : ℚ :=
  match a.pings[anchor]?, a.pings[j]? with
  | some first, some second => EligibilitySession.metresBetween first second
  | _, _ => 0

/-- The inner loop: `last_inside` follows `j` until one of the two breaks. -/
def lastInside (anchor : Nat) : List Nat → Nat → Nat
  | [], last => last
  | j :: rest, last =>
      if a.params.maxPingGapSeconds < a.gapBetween (j - 1) j then last
      else if a.params.stationaryRadiusM ≤ a.metresFrom anchor j then last
      else lastInside anchor rest j

/-- `lastInside` over `range(anchor + 1, count)`. -/
def stayEnd (anchor : Nat) : Nat :=
  a.lastInside anchor (List.range' (anchor + 1) (a.count - (anchor + 1))) anchor

/-- The outer loop; `none` when it needs more rounds than `fuel`. -/
def stayPointLoop : Nat → Nat → List (Nat × Nat) → Option (List (Nat × Nat))
  | 0, anchor, regions => if anchor < a.count - 1 then none else some regions
  | fuel + 1, anchor, regions =>
      if anchor < a.count - 1 then
        let last := a.stayEnd anchor
        if anchor < last ∧ a.Long anchor last then
          stayPointLoop fuel (last + 1) (regions ++ (a.region (anchor, last)).toList)
        else
          stayPointLoop fuel (anchor + 1) regions
      else
        some regions

def stayPointRegions : Option (List (Nat × Nat)) := a.stayPointLoop a.count 0 []

/-- Ping `j` follows its predecessor without a gap and lies inside the radius of the anchor. -/
def Joins (anchor j : Nat) : Prop :=
  a.gapBetween (j - 1) j ≤ a.params.maxPingGapSeconds
    ∧ a.metresFrom anchor j < a.params.stationaryRadiusM

instance (anchor j : Nat) : Decidable (a.Joins anchor j) :=
  inferInstanceAs (Decidable (_ ∧ _))

end

/-! ## The inner loop -/

section

variable [Geodesy] {a : StayPoints}

/-- The inner loop stops at the first ping that does not join. -/
theorem lastInside_stops {anchor left last : Nat} (hle : anchor ≤ last)
    (hcount : last + 1 + left = a.count)
    (hjoined : ∀ j, anchor < j → j ≤ last → a.Joins anchor j) :
    Stops a.Joins a.count anchor (a.lastInside anchor (List.range' (last + 1) left) last) := by
  -- on the pings that are left, which all before joined the anchor
  induction left generalizing last with
  | zero =>
      refine ⟨hle, by simp [lastInside]; omega, hjoined, ?_⟩
      intro hlater
      simp only [List.range'_zero, lastInside] at hlater
      omega
  | succ left ih =>
      rw [List.range'_succ]
      unfold lastInside
      split_ifs with hgap hfar
      · -- a gap before the next ping
        refine ⟨hle, by omega, hjoined, fun _ hjoins => ?_⟩
        exact absurd hjoins.1 (not_le.mpr hgap)
      · -- the next ping lies outside the radius
        refine ⟨hle, by omega, hjoined, fun _ hjoins => ?_⟩
        exact absurd hjoins.2 (not_lt.mpr hfar)
      · apply ih (Nat.le_succ_of_le hle) (by omega)
        intro j hj hjl
        rcases Nat.lt_or_eq_of_le hjl with hjlt | rfl
        · exact hjoined j hj (Nat.le_of_lt_succ hjlt)
        · exact ⟨not_lt.mp hgap, not_le.mp hfar⟩

theorem stayEnd_stops {anchor : Nat} (hanchor : anchor < a.count) :
    Stops a.Joins a.count anchor (a.stayEnd anchor) := by
  apply lastInside_stops (le_refl _) (by omega)
  intro j hj hjl
  omega

omit [Geodesy] in
theorem secondsAt_mono (h : a.TimeOrdered) {i j : Nat} (hij : i ≤ j) (hj : j < a.count) :
    a.secondsAt i ≤ a.secondsAt j := by
  have hlength := h.rawSeconds_length
  have hj' : j < a.rawSeconds.length := by omega
  have hi' : i < a.rawSeconds.length := by omega
  simp only [secondsAt, List.getD_eq_getElem _ _ hi', List.getD_eq_getElem _ _ hj']
  rcases Nat.lt_or_eq_of_le hij with hlt | rfl
  · exact List.pairwise_iff_getElem.mp h.seconds i j hi' hj' hlt
  · exact le_refl _

omit [Geodesy] in
theorem offsetAt_mono (h : a.TimeOrdered) {i j : Nat} (hij : i ≤ j) (hj : j < a.count) :
    a.offsetAt i ≤ a.offsetAt j := by
  have hlength := h.offsets_length
  have hj' : j < a.offsets.length := by omega
  have hi' : i < a.offsets.length := by omega
  simp only [offsetAt, List.getD_eq_getElem _ _ hi', List.getD_eq_getElem _ _ hj']
  rcases Nat.lt_or_eq_of_le hij with hlt | rfl
  · exact List.pairwise_iff_getElem.mp h.offsets i j hi' hj' hlt
  · exact le_refl _

/-- The longest run from an anchor is long as soon as any run from it is. -/
theorem not_long_of_stops (h : a.TimeOrdered) {anchor last : Nat}
    (hstops : Stops a.Joins a.count anchor last) (hshort : ¬ (anchor < last ∧ a.Long anchor last))
    {last' : Nat} (hrun : Run a.Joins a.count anchor last') : ¬ a.Long anchor last' := by
  intro hlong
  have hle : last' ≤ last := hstops.le_of_run hrun
  apply hshort
  refine ⟨lt_of_lt_of_le hrun.extends_anchor hle, ?_⟩
  -- rounding keeps the longer run the longer one
  calc a.params.stationaryWindowSeconds
      < a.gapBetween anchor last' := hlong
    _ ≤ a.gapBetween anchor last :=
        nearestDouble_mono (sub_le_sub_right (secondsAt_mono h hle hstops.inside) _)

/-! ## The outer loop -/

/-- The loop is a greedy scan of the pings from its anchor on. -/
theorem stayPointLoop_greedy (h : a.TimeOrdered) {fuel anchor : Nat}
    {regions : List (Nat × Nat)} (hfuel : a.count ≤ fuel + (anchor + 1)) :
    ∃ runs, Greedy a.Joins a.Long a.count anchor runs
      ∧ a.stayPointLoop fuel anchor regions = some (regions ++ runs.filterMap a.region) := by
  -- each round moves the anchor, so the fuel covers the pings from it on
  induction fuel generalizing anchor regions with
  | zero =>
      refine ⟨[], .done (by omega), ?_⟩
      have hend : ¬ anchor < a.count - 1 := by omega
      simp [stayPointLoop, hend]
  | succ fuel ih =>
      by_cases hinside : anchor < a.count - 1
      · have hanchor : anchor < a.count := by omega
        have hstops : Stops a.Joins a.count anchor (a.stayEnd anchor) := stayEnd_stops hanchor
        by_cases hstay : anchor < a.stayEnd anchor ∧ a.Long anchor (a.stayEnd anchor)
        · -- the stop is jumped over
          have hrest : a.count ≤ fuel + (a.stayEnd anchor + 1 + 1) := by omega
          rcases @ih (a.stayEnd anchor + 1)
            (regions ++ (a.region (anchor, a.stayEnd anchor)).toList) hrest with
            ⟨runs, hgreedy, hloop⟩
          refine ⟨(anchor, a.stayEnd anchor) :: runs,
            .jump (hstops.longestRun hstay.1) hstay.2 hgreedy, ?_⟩
          simp only [stayPointLoop, if_pos hinside, if_pos hstay, hloop, List.append_assoc]
          cases hregion : a.region (anchor, a.stayEnd anchor) with
          | none => simp [List.filterMap_cons_none hregion]
          | some region => simp [List.filterMap_cons_some hregion]
        · -- no run from this anchor is long
          have hrest : a.count ≤ fuel + (anchor + 1 + 1) := by omega
          rcases @ih (anchor + 1) regions hrest with ⟨runs, hgreedy, hloop⟩
          refine ⟨runs, .pass (fun last hrun => not_long_of_stops h hstops hstay hrun) hgreedy, ?_⟩
          simp only [stayPointLoop, if_pos hinside, if_neg hstay, hloop]
      · refine ⟨[], .done (by omega), ?_⟩
        simp [stayPointLoop, hinside]

theorem stayPointRegions_greedy (h : a.TimeOrdered) :
    ∃ runs, Greedy a.Joins a.Long a.count 0 runs
      ∧ ∀ fuel, a.count ≤ fuel + 1 → a.stayPointLoop fuel 0 [] = some (runs.filterMap a.region) := by
  have hloop : ∀ fuel, a.count ≤ fuel + 1 → ∃ runs, Greedy a.Joins a.Long a.count 0 runs
      ∧ a.stayPointLoop fuel 0 [] = some (runs.filterMap a.region) :=
    fun fuel hfuel => stayPointLoop_greedy h hfuel
  rcases hloop a.count (Nat.le_succ a.count) with ⟨runs, hgreedy, _⟩
  refine ⟨runs, hgreedy, ?_⟩
  intro fuel hfuel
  rcases hloop fuel hfuel with ⟨runs', hgreedy', hresult⟩
  rw [hgreedy.unique hgreedy']
  exact hresult

omit [Geodesy] in
theorem region_eq_some {run region : Nat × Nat} :
    a.region run = some region
      ↔ a.offsetAt run.1 < a.offsetAt run.2 ∧ (a.offsetAt run.1, a.offsetAt run.2) = region := by
  simp [StayPoints.region]

/-- Regions follow one another, since a run ends before the next one starts. -/
theorem regions_pairwise (h : a.TimeOrdered) {runs : List (Nat × Nat)}
    (hgreedy : Greedy a.Joins a.Long a.count 0 runs) :
    (runs.filterMap a.region).Pairwise (fun region region' => region.2 ≤ region'.1) := by
  refine List.pairwise_filterMap.mpr (hgreedy.pairwise.imp_of_mem ?_)
  intro run run' _ hrun' hlt region hregion region' hregion'
  have hnext := (hgreedy.sound hrun').2.1
  rcases region_eq_some.mp hregion with ⟨_, rfl⟩
  rcases region_eq_some.mp hregion' with ⟨_, rfl⟩
  exact offsetAt_mono h hlt.le (hnext.extends_anchor.trans hnext.inside)

/-! ## The regions -/

/-- The loop finishes within one round for each ping but the last, whatever the distances.  Its
regions lie one after another; each is a longest stop, longer than the window; and the anchor
of any such stop lies in one of these, or in one whose offsets are empty. -/
theorem stay_regions_greedy (h : a.TimeOrdered) :
    ∃ runs : List (Nat × Nat),
      (∀ fuel, a.count ≤ fuel + 1 → a.stayPointLoop fuel 0 [] = some (runs.filterMap a.region))
        ∧ (runs.filterMap a.region).Pairwise (fun region region' => region.2 ≤ region'.1)
        ∧ (∀ region ∈ runs.filterMap a.region, region.1 < region.2
          ∧ ∃ run ∈ runs, (a.offsetAt run.1, a.offsetAt run.2) = region)
        ∧ (∀ run ∈ runs, LongestRun a.Joins a.count run.1 run.2 ∧ a.Long run.1 run.2)
        ∧ ∀ first last, Run a.Joins a.count first last → a.Long first last →
          ∃ run ∈ runs, run.1 ≤ first ∧ first ≤ run.2
            ∧ ((a.offsetAt run.1, a.offsetAt run.2) ∈ runs.filterMap a.region
              ∨ a.offsetAt run.1 = a.offsetAt run.2) := by
  rcases stayPointRegions_greedy h with ⟨runs, hgreedy, hloop⟩
  refine ⟨runs, hloop, regions_pairwise h hgreedy, ?_, ?_, ?_⟩
  · intro region hregion
    rcases List.mem_filterMap.mp hregion with ⟨run, hrun, hsome⟩
    rcases region_eq_some.mp hsome with ⟨hlt, rfl⟩
    exact ⟨hlt, run, hrun, rfl⟩
  · exact fun run hrun => (hgreedy.sound hrun).2
  · intro first last hrun hlong
    rcases hgreedy.complete (Nat.zero_le first) hrun hlong with ⟨run, hmem, hfirst, hlast⟩
    refine ⟨run, hmem, hfirst, hlast, ?_⟩
    -- a run that gives no region has lost its offsets to the clamping
    have hlongest := (hgreedy.sound hmem).2.1
    have hoffsets : a.offsetAt run.1 ≤ a.offsetAt run.2 :=
      offsetAt_mono h hlongest.extends_anchor.le hlongest.inside
    rcases hoffsets.lt_or_eq with hlt | heq
    · exact .inl (List.mem_filterMap.mpr ⟨run, hmem, region_eq_some.mpr ⟨hlt, rfl⟩⟩)
    · exact .inr heq

end

/-- Metres along the streets of a grid. -/
@[reducible]
def gridGeodesy : Geodesy where
  haversineM latitude longitude latitude' longitude' :=
    111195 * (|latitude' - latitude| + |longitude' - longitude|)

/-- A car that stands in one place for five minutes and a second. -/
def parked : StayPoints :=
  let ping (seconds : Int) : EligibilityPing :=
    { recordedAt := seconds * 1000000, latitude := 6, longitude := 3, accuracyM := some 5,
      inArea := true }
  { pings := [ping 0, ping 100, ping 200, ping 301]
    offsets := [0, 100, 200, 301]
    rawSeconds := [0, 100, 200, 301]
    params := {} }

/-- Five minutes by the clock, a stop by its doubles. -/
example :
    let a : StayPoints :=
      { pings := [], offsets := [383, 683]
        rawSeconds := [nearestDouble (383133 / 1000), nearestDouble (683133 / 1000)], params := {} }
    a.Long 0 1 := by
  decide +kernel

theorem stay_regions_greedy_parked :
    ∃ runs : List (Nat × Nat),
      @stayPointLoop gridGeodesy parked 3 0 [] = some (runs.filterMap parked.region)
        ∧ ∃ run ∈ runs, run.1 ≤ 0 ∧ 0 ≤ run.2 := by
  have hordered : parked.TimeOrdered :=
    ⟨by decide, by decide, by decide +kernel, by decide⟩
  have hstands : ∀ j < 4, 0 < j → @Joins gridGeodesy parked 0 j := by
    decide +kernel
  have hrun : Run (@Joins gridGeodesy parked) parked.count 0 3 :=
    ⟨by decide, by decide, fun j hj hjl => hstands j (Nat.lt_succ_of_le hjl) hj⟩
  rcases @stay_regions_greedy gridGeodesy parked hordered with ⟨runs, hloop, _, _, _, hcomplete⟩
  rcases hcomplete 0 3 hrun (by decide +kernel) with ⟨run, hmem, hfirst, hlast, _⟩
  exact ⟨runs, hloop 3 (by decide), run, hmem, hfirst, hlast⟩

end StayPoints

/-! ## The stops of a session -/

namespace EligibilitySession

section

variable [Geodesy] (c : EligibilitySession)

/-- What `classify_session` asks the loop for. -/
def stayPoints : StayPoints :=
  { pings := c.ordered
    offsets := c.offsets
    rawSeconds := c.ordered.map c.rawSeconds
    params := c.params }

omit [Geodesy] in
theorem stayPoints_timeOrdered : c.stayPoints.TimeOrdered where
  rawSeconds_length := by simp [stayPoints, StayPoints.count]
  offsets_length := by simp [stayPoints, StayPoints.count, offsets]
  seconds := by
    refine List.pairwise_map.mpr (ordered_pairwise.imp ?_)
    intro ping ping' hle
    have hcast : ((ping.recordedAt - c.sessionStartedAt : Int) : ℚ)
        ≤ ((ping'.recordedAt - c.sessionStartedAt : Int) : ℚ) := by
      exact_mod_cast Int.sub_le_sub_right hle _
    exact nearestDouble_mono (div_le_div_of_nonneg_right hcast (by norm_num))
  offsets := offsets_pairwise

variable {c}

theorem stayRegionsFrom_skip (skip : Nat) (pings : List EligibilityPing) :
    c.stayRegionsFrom skip pings = c.stayRegionsFrom 0 (pings.drop skip) := by
  induction pings generalizing skip with
  | nil => simp [stayRegionsFrom]
  | cons ping rest ih =>
      cases skip with
      | zero => rfl
      | succ skip => simpa [stayRegionsFrom] using ih skip

omit [Geodesy] in
theorem secondsAt_stayPoints {i : Nat} {ping : EligibilityPing} (h : c.ordered[i]? = some ping) :
    c.stayPoints.secondsAt i = c.rawSeconds ping := by
  simp [StayPoints.secondsAt, stayPoints, List.getD_eq_getElem?_getD, h]

omit [Geodesy] in
theorem gapBetween_stayPoints {i j : Nat} {ping ping' : EligibilityPing}
    (h : c.ordered[i]? = some ping) (h' : c.ordered[j]? = some ping') :
    c.stayPoints.gapBetween i j = c.rawGap ping ping' := by
  rw [StayPoints.gapBetween, rawGap, secondsAt_stayPoints h, secondsAt_stayPoints h']

omit [Geodesy] in
theorem offsetAt_stayPoints {i : Nat} {ping : EligibilityPing} (h : c.ordered[i]? = some ping) :
    c.stayPoints.offsetAt i = c.pingOffset ping := by
  simp [StayPoints.offsetAt, stayPoints, offsets, List.getD_eq_getElem?_getD, h]

theorem metresFrom_stayPoints {i j : Nat} {ping ping' : EligibilityPing}
    (h : c.ordered[i]? = some ping) (h' : c.ordered[j]? = some ping') :
    c.stayPoints.metresFrom i j = metresBetween ping ping' := by
  simp [StayPoints.metresFrom, stayPoints, h, h']

omit [Geodesy] in
theorem long_stayPoints {i j : Nat} {ping ping' : EligibilityPing}
    (h : c.ordered[i]? = some ping) (h' : c.ordered[j]? = some ping') :
    c.stayPoints.Long i j
      ↔ c.params.stationaryWindowSeconds < c.rawGap ping ping' := by
  rw [StayPoints.Long, gapBetween_stayPoints h h']
  exact Iff.rfl

omit [Geodesy] in
theorem region_stayPoints {i j : Nat} {ping ping' : EligibilityPing}
    (h : c.ordered[i]? = some ping) (h' : c.ordered[j]? = some ping') :
    (c.stayPoints.region (i, j)).toList
      = if c.pingOffset ping < c.pingOffset ping' then
          [(c.pingOffset ping, c.pingOffset ping')] else [] := by
  rw [StayPoints.region, offsetAt_stayPoints h, offsetAt_stayPoints h']
  split_ifs <;> rfl

omit [Geodesy] in
/-- Reading the line from position `i` on. -/
theorem ordered_of_drop {i : Nat} {ping : EligibilityPing} {rest : List EligibilityPing}
    (h : c.ordered.drop i = ping :: rest) :
    c.ordered[i]? = some ping ∧ c.ordered.drop (i + 1) = rest
      ∧ i + 1 + rest.length = c.stayPoints.count := by
  refine ⟨?_, ?_, ?_⟩
  · have hfirst : (c.ordered.drop i)[0]? = c.ordered[i + 0]? := List.getElem?_drop
    simpa [h] using hfirst.symm
  · have hrest : (c.ordered.drop i).tail = c.ordered.drop (i + 1) := List.tail_drop
    simpa [h] using hrest.symm
  · have hlength := congrArg List.length h
    simp only [List.length_drop, List.length_cons] at hlength
    have hcount : c.stayPoints.count = c.ordered.length := rfl
    omega

/-- `stayLength` counts the pings that join the run of an anchor. -/
theorem stayLength_stops {anchor i : Nat} {first previous : EligibilityPing}
    {rest : List EligibilityPing} (hfirst : c.ordered[anchor]? = some first) (hle : anchor ≤ i)
    (hprevious : c.ordered.drop i = previous :: rest)
    (hjoined : ∀ j, anchor < j → j ≤ i → c.stayPoints.Joins anchor j) :
    Stops c.stayPoints.Joins c.stayPoints.count anchor (i + c.stayLength first previous rest) := by
  -- on the pings that are left; `i` is the position of `previous`
  induction rest generalizing i previous with
  | nil =>
      rcases ordered_of_drop hprevious with ⟨_, _, hcount⟩
      simp only [List.length_nil] at hcount
      refine ⟨by omega, by simp only [stayLength]; omega, hjoined, ?_⟩
      intro hlater
      simp only [stayLength] at hlater
      omega
  | cons ping rest ih =>
      rcases ordered_of_drop hprevious with ⟨hi, hdrop, hcount⟩
      rcases ordered_of_drop hdrop with ⟨hnext, _, _⟩
      -- what the loop compares at position `i + 1`
      have hgap : c.stayPoints.gapBetween (i + 1 - 1) (i + 1) = c.rawGap previous ping := by
        rw [Nat.add_sub_cancel, gapBetween_stayPoints hi hnext]
      have hmetres := metresFrom_stayPoints hfirst hnext
      simp only [List.length_cons] at hcount
      unfold stayLength
      split_ifs with hbreaks
      · refine ⟨by omega, by omega, hjoined, fun _ hjoins => ?_⟩
        simp only [Nat.add_zero, StayPoints.Joins, hgap, hmetres] at hjoins
        rcases hbreaks with hbreak | hbreak
        · exact absurd hjoins.1 (not_le.mpr hbreak)
        · exact absurd hjoins.2 (not_lt.mpr hbreak)
      · have hjoins : c.stayPoints.Joins anchor (i + 1) := by
          simp only [StayPoints.Joins, hgap, hmetres]
          exact ⟨not_lt.mp fun h => hbreaks (.inl h), not_le.mp fun h => hbreaks (.inr h)⟩
        have hrest := ih (Nat.le_succ_of_le hle) hdrop (fun j hj hjl =>
          (Nat.lt_or_eq_of_le hjl).elim (fun hlt => hjoined j hj (Nat.le_of_lt_succ hlt))
            (fun heq => heq ▸ hjoins))
        have hsame : i + (c.stayLength first ping rest + 1)
            = i.succ + c.stayLength first ping rest := by omega
        rw [hsame]
        exact hrest

/-- The next ping already lies outside. -/
theorem stayRegionsFrom_alone {first : EligibilityPing} {rest : List EligibilityPing}
    (h : (rest.take (c.stayLength first first rest)).getLast? = none) :
    c.stayRegionsFrom 0 (first :: rest) = c.stayRegionsFrom 0 rest := by
  simp only [stayRegionsFrom, h]

theorem stayRegionsFrom_stop {first last : EligibilityPing} {rest : List EligibilityPing}
    (h : (rest.take (c.stayLength first first rest)).getLast? = some last) :
    c.stayRegionsFrom 0 (first :: rest)
      = if c.params.stationaryWindowSeconds < c.rawGap first last then
          (if c.pingOffset first < c.pingOffset last then
              [(c.pingOffset first, c.pingOffset last)] else [])
            ++ c.stayRegionsFrom (c.stayLength first first rest) rest
        else c.stayRegionsFrom 0 rest := by
  simp only [stayRegionsFrom, h]

/-- One anchor of the recursion over the list. -/
theorem stayRegionsFrom_anchor {anchor : Nat} {first : EligibilityPing}
    {rest : List EligibilityPing} (h : c.ordered.drop anchor = first :: rest) :
    ∃ last, Stops c.stayPoints.Joins c.stayPoints.count anchor last
      ∧ c.stayRegionsFrom 0 (c.ordered.drop anchor)
        = if anchor < last ∧ c.stayPoints.Long anchor last then
            (c.stayPoints.region (anchor, last)).toList
              ++ c.stayRegionsFrom 0 (c.ordered.drop (last + 1))
          else c.stayRegionsFrom 0 (c.ordered.drop (anchor + 1)) := by
  rcases ordered_of_drop h with ⟨hfirst, hdrop, hcount⟩
  have hstops := stayLength_stops hfirst (le_refl anchor) h (fun j hj hjl => by omega)
  refine ⟨_, hstops, ?_⟩
  rw [h, hdrop]
  cases hlength : c.stayLength first first rest with
  -- no ping joins the anchor, so it is passed by
  | zero =>
      have hnone : (rest.take (c.stayLength first first rest)).getLast? = none := by
        simp [hlength]
      rw [stayRegionsFrom_alone hnone, if_neg]
      exact fun hboth => lt_irrefl anchor hboth.1
  | succ k =>
      rw [hlength] at hstops
      have hinside := hstops.inside
      -- the last ping of the stop
      have hrest : ∀ j, rest[j]? = c.ordered[anchor + 1 + j]? := by
        intro j
        rw [← hdrop, List.getElem?_drop]
      have hindex : anchor + 1 + k < c.ordered.length := by
        have hordered : c.stayPoints.count = c.ordered.length := rfl
        omega
      have hlast : c.ordered[anchor + (k + 1)]? = some c.ordered[anchor + 1 + k] := by
        rw [Nat.add_comm k 1, ← Nat.add_assoc]
        exact List.getElem?_eq_getElem hindex
      have hgetLast : (rest.take (c.stayLength first first rest)).getLast?
          = some c.ordered[anchor + 1 + k] := by
        simp [hlength, List.getLast?_take, hrest, List.getElem?_eq_getElem hindex]
      have hskip : rest.drop (k + 1) = c.ordered.drop (anchor + (k + 1) + 1) := by
        rw [← hdrop, List.drop_drop]
        congr 1
        omega
      rw [stayRegionsFrom_stop hgetLast, hlength]
      have hlong := long_stayPoints hfirst hlast
      have hregion := region_stayPoints hfirst hlast
      by_cases hstay : c.stayPoints.Long anchor (anchor + (k + 1))
      · have hboth : anchor < anchor + (k + 1) ∧ c.stayPoints.Long anchor (anchor + (k + 1)) :=
          ⟨by omega, hstay⟩
        rw [if_pos (hlong.mp hstay), if_pos hboth, hregion, stayRegionsFrom_skip (k + 1), hskip]
      · rw [if_neg (fun hwindow => hstay (hlong.mpr hwindow)), if_neg (fun hboth => hstay hboth.2)]

/-- The recursion over the ping list gives the regions of the greedy scan. -/
theorem stayRegionsFrom_greedy {anchor : Nat} {runs : List (Nat × Nat)}
    (h : Greedy c.stayPoints.Joins c.stayPoints.Long c.stayPoints.count anchor runs) :
    c.stayRegionsFrom 0 (c.ordered.drop anchor) = runs.filterMap c.stayPoints.region := by
  -- on the scan: both sides take the same step at every anchor
  induction h with
  | @done anchor hend =>
      have hcount : c.ordered.length ≤ anchor + 1 := hend
      cases hdrop : c.ordered.drop anchor with
      | nil => simp [stayRegionsFrom]
      | cons first rest =>
          rcases ordered_of_drop hdrop with ⟨_, _, hlength⟩
          have hrest : rest = [] := List.length_eq_zero_iff.mp (by
            have hordered : c.stayPoints.count = c.ordered.length := rfl
            omega)
          simp [hrest, stayRegionsFrom]
  | @jump anchor last runs hlongest hlong _ ih =>
      have hinside : anchor < c.ordered.length := hlongest.extends_anchor.trans hlongest.inside
      rcases stayRegionsFrom_anchor (List.drop_eq_getElem_cons hinside) with ⟨last', hstops, hstep⟩
      have hlast := hstops.eq_of_longest hlongest
      subst hlast
      rw [hstep, if_pos ⟨hlongest.extends_anchor, hlong⟩, ih]
      cases hregion : c.stayPoints.region (anchor, last') with
      | none => simp [List.filterMap_cons_none hregion]
      | some region => simp [List.filterMap_cons_some hregion]
  | @pass anchor runs hnone _ ih =>
      by_cases hinside : anchor < c.ordered.length
      · rcases stayRegionsFrom_anchor (List.drop_eq_getElem_cons hinside) with
          ⟨last, hstops, hstep⟩
        rw [hstep, if_neg, ih]
        rintro ⟨hfirst, hlong⟩
        exact hnone last (hstops.longestRun hfirst).toRun hlong
      · have hnil : ∀ i, anchor ≤ i → c.ordered.drop i = [] := fun i hi =>
          List.drop_eq_nil_of_le (by omega)
        rw [hnil anchor (le_refl _)]
        rw [hnil (anchor + 1) (Nat.le_succ _)] at ih
        exact ih

/-- A session is classified with the regions that the loop returns. -/
theorem stayPointLoop_session {fuel : Nat} (hfuel : c.stayPoints.count ≤ fuel + 1) :
    c.stayPoints.stayPointLoop fuel 0 [] = some c.stayPointRegions := by
  rcases StayPoints.stayPointRegions_greedy c.stayPoints_timeOrdered with ⟨runs, hgreedy, hloop⟩
  rw [hloop fuel hfuel, ← stayRegionsFrom_greedy hgreedy]
  rfl

end

end EligibilitySession

end Pay
end Mobility
