import Mathlib.Data.Set.Card
import Mobility.Pay.Classification
import Mobility.Pay.Credits

/-!
# Midnights — slices and the Lagos days they are charged to

A slice is charged to the Lagos day of its start.  The midnight cuts are whole seconds
from the start, rounded down, so a session that starts a fraction of a second off has its
cut in the second before midnight, and the slice that starts there runs on into the next
day.  This is the only way in which a slice leaves its day.
-/

namespace Mobility
namespace Pay

open Lib
open Trips

namespace EligibilitySession

/-- The Lagos date of an instant, in seconds from the start. -/
def lagosDate (c : EligibilitySession) (t : ℚ) : Day :=
  lagosDayFor ⌊(c.sessionStartedAt : ℚ) + t * 1000000⌋

/-- Every instant of the slice falls on the day that the slice is charged to. -/
def KeepsToDay (c : EligibilitySession) (x : EligibleSlice) : Prop :=
  ∀ t : ℚ, x.startOffset ≤ t → t < x.endOffset → c.lagosDate t = x.day

/-- The whole second `point` counts as driving time: it lies between two pings with a good
signal, both in the area, in the window and outside every stop. -/
def DrivenAt [Geodesy] (c : EligibilitySession) (point : Nat) : Prop :=
  ∃ interval ∈ c.intervals, c.pingOffset interval.1 ≤ point ∧ point < c.pingOffset interval.2
    ∧ c.signalReason interval.1 interval.2 = none ∧ interval.1.inArea ∧ interval.2.inArea
    ∧ c.InWindow point ∧ ¬ c.Stationary point

/-- The whole second of the session in which the midnight that begins `day` falls. -/
def midnightSecond (c : EligibilitySession) (day : Day) : Nat :=
  (((lagosDayUtcRange day).1 - c.sessionStartedAt) / microsPerSecond).toNat

/-- No Lagos midnight falls inside a second of driving. -/
def MidnightsClear [Geodesy] (c : EligibilitySession) : Prop :=
  ∀ day, c.sessionStartedAt < (lagosDayUtcRange day).1 →
    ¬ microsPerSecond ∣ (lagosDayUtcRange day).1 - c.sessionStartedAt →
    ¬ c.DrivenAt (c.midnightSecond day)

/-! ## Days and midnights -/

/-- A day has begun when its midnight has passed. -/
theorem le_lagosDayFor_iff {moment : Int} {day : Day} :
    day ≤ lagosDayFor moment ↔ (lagosDayUtcRange day).1 ≤ moment := by
  have hpos : (0 : Int) < microsPerDay := by norm_num [microsPerDay, microsPerSecond]
  unfold lagosDayFor lagosDayUtcRange
  rw [Int.le_ediv_iff_mul_le hpos]
  omega

theorem lagosDayFor_lt_iff {moment : Int} {day : Day} :
    lagosDayFor moment < day ↔ moment < (lagosDayUtcRange day).1 := by
  rw [← not_le, ← not_le, le_lagosDayFor_iff]

theorem lagosDayFor_midnight (day : Day) : lagosDayFor (lagosDayUtcRange day).1 = day := by
  refine le_antisymm ?_ (le_lagosDayFor_iff.mpr (le_refl _))
  refine Int.lt_add_one_iff.mp (lagosDayFor_lt_iff.mpr ?_)
  simp only [lagosDayUtcRange, microsPerDay, microsPerSecond]
  omega

section

variable {c : EligibilitySession}

/-- The whole second in which a midnight after the start falls. -/
theorem midnight_second {day : Day} (h : c.sessionStartedAt < (lagosDayUtcRange day).1) :
    c.sessionStartedAt
        + (c.midnightSecond day : Int) * microsPerSecond ≤ (lagosDayUtcRange day).1
      ∧ (lagosDayUtcRange day).1 < c.sessionStartedAt
        + ((c.midnightSecond day : Int) + 1) * microsPerSecond := by
  unfold midnightSecond
  generalize (lagosDayUtcRange day).1 = midnight at h ⊢
  unfold microsPerSecond
  omega

variable [Geodesy]

/-- A midnight inside the session is a cut, at the second it falls in. -/
theorem midnight_mem_boundaries {day : Day}
    (h : c.sessionStartedAt < (lagosDayUtcRange day).1)
    (hinside : c.midnightSecond day < c.duration) :
    c.midnightSecond day ∈ c.boundaries := by
  by_cases hzero : c.midnightSecond day = 0
  · exact mem_boundaries.mpr (.inl hzero)
  · refine mem_boundaries.mpr (.inr (.inr (.inr ?_)))
    rcases midnight_second h with ⟨_, hafter⟩
    have hstart : lagosDayFor c.sessionStartedAt < day := lagosDayFor_lt_iff.mpr h
    have hend : day ≤ lagosDayAt c.sessionStartedAt c.duration := by
      refine le_lagosDayFor_iff.mpr ?_
      unfold microsPerSecond at hafter ⊢
      omega
    unfold lagosMidnightOffsets
    refine List.mem_filter.mpr ⟨List.mem_map.mpr ⟨day, ?_, rfl⟩, ?_⟩
    · exact mem_daysThrough.mpr ⟨Int.add_one_le_iff.mpr hstart, hend⟩
    · simpa [Nat.pos_iff_ne_zero] using And.intro hzero hinside

/-! ## Driving time -/

theorem intervalReason_eq_none {interval : EligibilityPing × EligibilityPing} :
    c.intervalReason interval = none
      ↔ c.signalReason interval.1 interval.2 = none ∧ interval.1.inArea ∧ interval.2.inArea := by
  unfold intervalReason
  rw [Option.or_eq_none_iff]
  by_cases harea : interval.1.inArea = true ∧ interval.2.inArea = true
  · simp [harea]
  · rw [if_neg harea]
    simp only [reduceCtorEq, and_false, false_iff, not_and]
    exact fun _ hfirst hsecond => harea ⟨hfirst, hsecond⟩

/-- An interval is never excluded by its window or a stop: those are decided by slice. -/
theorem intervalReason_cases (c : EligibilitySession)
    (interval : EligibilityPing × EligibilityPing) :
    c.intervalReason interval = none ∨ c.intervalReason interval = some .gpsGap
      ∨ c.intervalReason interval = some .lowAccuracy ∨ c.intervalReason interval = some .teleport
      ∨ c.intervalReason interval = some .outOfArea := by
  unfold intervalReason signalReason
  dsimp only
  split_ifs <;> simp

theorem sliceReason_eq_none {interval : EligibilityPing × EligibilityPing} {point : Nat} :
    c.sliceReason interval point = none
      ↔ c.intervalReason interval = none ∧ c.InWindow point ∧ ¬ c.Stationary point := by
  unfold sliceReason
  rcases c.intervalReason_cases interval with hreason | hreason | hreason | hreason | hreason
  · rw [hreason]
    by_cases hwindow : c.InWindow point
    · by_cases hstationary : c.Stationary point
      · simp [hwindow, hstationary]
      · simp [hwindow, hstationary]
    · simp [hwindow]
  · simp [hreason]
  · simp [hreason]
  · simp [hreason]
  · rw [hreason]
    by_cases hwindow : c.InWindow point
    · simp [hwindow]
    · simp [hwindow]

/-- A slice is eligible when its first second is driving time. -/
theorem exists_eligible_iff {slice : Nat × Nat} :
    (∃ x, c.verdict slice = .inr x) ↔ c.DrivenAt slice.1 := by
  constructor
  · rintro ⟨x, h⟩
    rcases verdict_eq_inr.mp h with ⟨index, interval, hspans, hinterval, hreason, _⟩
    rcases sliceReason_eq_none.mp hreason with ⟨hbase, hwindow, hstop⟩
    rcases intervalReason_eq_none.mp hbase with ⟨hsignal, hfirst, hsecond⟩
    rcases offsets_of_interval hinterval with ⟨_, hfrom, hto⟩
    exact ⟨interval, List.mem_of_getElem? hinterval, hfrom ▸ hspans.2.1, hto ▸ hspans.2.2, hsignal,
      hfirst, hsecond, hwindow, hstop⟩
  · rintro ⟨interval, hmem, hfrom, hto, hsignal, hfirst, hsecond, hwindow, hstop⟩
    rcases List.getElem?_of_mem hmem with ⟨index, hinterval⟩
    rcases offsets_of_interval hinterval with ⟨hlength, hfromEq, htoEq⟩
    refine ⟨_, verdict_eq_inr.mpr ⟨index, interval, ⟨hlength, hfromEq ▸ hfrom, htoEq ▸ hto⟩,
      hinterval, ?_, rfl⟩⟩
    exact sliceReason_eq_none.mpr
      ⟨intervalReason_eq_none.mpr ⟨hsignal, hfirst, hsecond⟩, hwindow, hstop⟩

theorem eligible_fields {slice : Nat × Nat} {x : EligibleSlice} (h : c.verdict slice = .inr x) :
    x.startOffset = slice.1 ∧ x.endOffset = slice.2
      ∧ x.day = lagosDayAt c.sessionStartedAt slice.1 := by
  rcases verdict_eq_inr.mp h with ⟨_, _, _, _, _, rfl⟩
  exact ⟨rfl, rfl, rfl⟩

/-! ## Slices that leave their day -/

omit [Geodesy] in
theorem floor_instant (c : EligibilitySession) (moment : Int) :
    c.lagosDate (((moment - c.sessionStartedAt : Int) : ℚ) / 1000000) = lagosDayFor moment := by
  unfold lagosDate
  have hsame : (c.sessionStartedAt : ℚ)
      + ((moment - c.sessionStartedAt : Int) : ℚ) / 1000000 * 1000000 = (moment : ℚ) := by
    push_cast
    ring
  rw [hsame, Int.floor_intCast]

/-- A slice that starts in the second of an off-beat midnight runs into the next day. -/
theorem driven_midnight_leaves {day : Day} (hstart : c.sessionStartedAt < (lagosDayUtcRange day).1)
    (hbeat : ¬ microsPerSecond ∣ (lagosDayUtcRange day).1 - c.sessionStartedAt)
    (hdriven : c.DrivenAt (c.midnightSecond day)) :
    ∃ x ∈ c.classifySession.eligibleSlices, ¬ c.KeepsToDay x := by
  rcases midnight_second hstart with ⟨hfrom, hto⟩
  have hinside : c.midnightSecond day < c.duration := by
    rcases hdriven with ⟨interval, _, _, hlt, _⟩
    exact hlt.trans_le (off_le_duration _)
  have hcut := midnight_mem_boundaries hstart hinside
  have hlast : c.duration ∈ c.boundaries := mem_boundaries.mpr (.inr (.inl rfl))
  rcases exists_slice boundaries_sorted hcut hlast (le_refl _) hinside with
    ⟨slice, hslice, hle, hlt⟩
  have hfirst : slice.1 = c.midnightSecond day := by
    rcases le_or_le_of_mem_slices boundaries_sorted hslice hcut with h | h
    · exact le_antisymm hle h
    · exact absurd hlt (not_lt.mpr h)
  rcases exists_eligible_iff.mpr (hfirst.symm ▸ hdriven : c.DrivenAt slice.1) with ⟨x, hx⟩
  refine ⟨x, mem_eligibleSlices.mpr ⟨slice, hslice, hx⟩, ?_⟩
  rcases eligible_fields hx with ⟨hxstart, hxend, hxday⟩
  intro hkeeps
  -- midnight lies inside the slice, and its date is the next day's
  have hmidnight := hkeeps (((lagosDayUtcRange day).1 - c.sessionStartedAt : Int) / 1000000) ?_ ?_
  · rw [floor_instant, lagosDayFor_midnight, hxday, hfirst] at hmidnight
    have hbefore : lagosDayAt c.sessionStartedAt (c.midnightSecond day) < day := by
      refine lagosDayFor_lt_iff.mpr (lt_of_le_of_ne hfrom ?_)
      intro hsame
      exact hbeat (Dvd.intro_left _ (eq_sub_of_add_eq' hsame))
    exact hbefore.ne' hmidnight
  · rw [hxstart, hfirst, le_div_iff₀ (by norm_num)]
    have hcast : (c.midnightSecond day : Int) * 1000000
        ≤ (lagosDayUtcRange day).1 - c.sessionStartedAt := by
      unfold microsPerSecond at hfrom
      omega
    exact_mod_cast hcast
  · rw [hxend, div_lt_iff₀ (by norm_num)]
    have hnext : slice.1 + 1 ≤ slice.2 := slices_lt boundaries_sorted hslice
    have hcast : (lagosDayUtcRange day).1 - c.sessionStartedAt < (slice.2 : Int) * 1000000 := by
      rw [← hfirst] at hto
      unfold microsPerSecond at hto
      omega
    exact_mod_cast hcast

/-- A slice that leaves its day starts in the second of an off-beat midnight. -/
theorem driven_midnight_of_leaves {x : EligibleSlice} (hx : x ∈ c.classifySession.eligibleSlices)
    {t : ℚ} (hfrom : x.startOffset ≤ t) (hto : t < x.endOffset) (hdate : c.lagosDate t ≠ x.day) :
    ∃ day, c.sessionStartedAt < (lagosDayUtcRange day).1
      ∧ ¬ microsPerSecond ∣ (lagosDayUtcRange day).1 - c.sessionStartedAt
      ∧ c.DrivenAt (c.midnightSecond day) := by
  rcases mem_eligibleSlices.mp hx with ⟨slice, hslice, hverdict⟩
  rcases eligible_fields hverdict with ⟨hxstart, hxend, hxday⟩
  have hmoment : c.sessionStartedAt + (slice.1 : Int) * microsPerSecond
      ≤ ⌊(c.sessionStartedAt : ℚ) + t * 1000000⌋ := by
    refine Int.le_floor.mpr ?_
    rw [hxstart] at hfrom
    unfold microsPerSecond
    push_cast
    linarith
  have hlater : x.day < c.lagosDate t := by
    rw [hxday]
    refine lt_of_le_of_ne (lagosDayFor_mono hmoment) ?_
    exact fun hsame => hdate (hxday ▸ hsame.symm)
  have hnext : x.day + 1 ≤ c.lagosDate t := hlater
  have hbegun : (lagosDayUtcRange (x.day + 1)).1 ≤ ⌊(c.sessionStartedAt : ℚ) + t * 1000000⌋ :=
    le_lagosDayFor_iff.mp hnext
  have hahead : c.sessionStartedAt + (slice.1 : Int) * microsPerSecond
      < (lagosDayUtcRange (x.day + 1)).1 := by
    refine lagosDayFor_lt_iff.mp ?_
    rw [hxday]
    exact Int.lt_add_one_of_le (le_refl _)
  have hbefore : (lagosDayUtcRange (x.day + 1)).1
      < c.sessionStartedAt + (slice.2 : Int) * microsPerSecond := by
    refine hbegun.trans_lt (Int.floor_lt.mpr ?_)
    rw [hxend] at hto
    unfold microsPerSecond
    push_cast
    linarith
  have hstart : c.sessionStartedAt < (lagosDayUtcRange (x.day + 1)).1 := by
    unfold microsPerSecond at hahead
    omega
  have hend : slice.2 ≤ c.duration := boundaries_le_duration (mem_of_mem_slices hslice).2
  rcases midnight_second hstart with ⟨hle, hlt⟩
  have hbounds : slice.1 ≤ c.midnightSecond (x.day + 1) ∧ c.midnightSecond (x.day + 1) < slice.2 := by
    unfold microsPerSecond at hahead hbefore hle hlt
    omega
  have hcut := midnight_mem_boundaries hstart (hbounds.2.trans_le hend)
  -- no cut lies inside the slice, so midnight falls in its first second
  have hfirst : c.midnightSecond (x.day + 1) = slice.1 := by
    rcases le_or_le_of_mem_slices boundaries_sorted hslice hcut with h | h
    · exact le_antisymm h hbounds.1
    · exact absurd hbounds.2 (not_lt.mpr h)
  refine ⟨x.day + 1, hstart, ?_, ?_⟩
  · rintro ⟨beat, hbeat⟩
    rw [hfirst] at hle hlt
    unfold microsPerSecond at hbeat hahead hle hlt
    omega
  · rw [hfirst]
    exact exists_eligible_iff.mp ⟨x, hverdict⟩

/-! ## Seconds by day -/

/-- The eligible seconds all of whose instants fall on a Lagos day. -/
def secondsDrivenOn (c : EligibilitySession) (day : Day) : Set Nat :=
  {second | (∃ x ∈ c.classifySession.eligibleSlices, x.startOffset ≤ second ∧ second < x.endOffset)
    ∧ ∀ t : ℚ, second ≤ t → t < second + 1 → c.lagosDate t = day}

/-- Where slices keep to their days, each day is charged the seconds driven on it. -/
theorem seconds_of_keepsToDay (h : ∀ x ∈ c.classifySession.eligibleSlices, c.KeepsToDay x)
    (day : Day) :
    valueAt c.classifySession.eligibleSecondsByDay day = (c.secondsDrivenOn day).ncard := by
  have hpairwise : ((c.classifySession.eligibleSlices.filter (fun x => day = x.day)).map
      (fun x => (x.startOffset, x.endOffset))).Pairwise (fun s t => s.2 ≤ t.1) :=
    List.pairwise_map.mpr (eligibleSlices_pairwise.sublist List.filter_sublist)
  have hcard := card_covered hpairwise
  rw [List.map_map] at hcard
  -- the seconds of a day are those that its slices cover
  have hset : c.secondsDrivenOn day = ↑(covered ((c.classifySession.eligibleSlices.filter
      (fun x => day = x.day)).map (fun x => (x.startOffset, x.endOffset)))) := by
    ext second
    rw [Finset.mem_coe, mem_covered]
    constructor
    · rintro ⟨⟨x, hx, hfrom, hto⟩, hdate⟩
      have hstart : (x.startOffset : ℚ) ≤ second := by exact_mod_cast hfrom
      have hend : (second : ℚ) < x.endOffset := by exact_mod_cast hto
      have hday : day = x.day :=
        (hdate second (le_refl _) (by linarith)).symm.trans (h x hx second hstart hend)
      exact ⟨_, List.mem_map.mpr ⟨x, List.mem_filter.mpr ⟨hx, by simpa using hday⟩, rfl⟩, hfrom, hto⟩
    · rintro ⟨stretch, hstretch, hfrom, hto⟩
      rcases List.mem_map.mp hstretch with ⟨x, hx, rfl⟩
      rcases List.mem_filter.mp hx with ⟨hx, hday⟩
      have hsame : day = x.day := by simpa using hday
      refine ⟨⟨x, hx, hfrom, hto⟩, ?_⟩
      intro t hle hlt
      have hstart : (x.startOffset : ℚ) ≤ second := by exact_mod_cast hfrom
      have hend : (second : ℚ) + 1 ≤ x.endOffset := by exact_mod_cast Nat.succ_le_of_lt hto
      rw [hsame]
      exact h x hx t (hstart.trans hle) (hlt.trans_le hend)
  have hcharged := classifySession_charged (c := c)
  calc valueAt c.classifySession.eligibleSecondsByDay day
      = ((c.classifySession.eligibleSlices.filter (fun x => day = x.day)).map (·.length)).sum := by
        rw [hcharged.byDay, hcharged.slices, valueAt_addAll]
        simp
    _ = _ := hcard.symm
    _ = (c.secondsDrivenOn day).ncard := by rw [hset, Set.ncard_coe_finset]

/-- Slices keep to their Lagos days, and days are charged the seconds driven on them, exactly
when no midnight falls inside a second of driving. -/
theorem slices_keep_to_their_days_iff (c : EligibilitySession) :
    ((∀ x ∈ c.classifySession.eligibleSlices, ∀ t : ℚ, x.startOffset ≤ t → t < x.endOffset →
        c.lagosDate t = x.day)
      ∧ ∀ day, valueAt c.classifySession.eligibleSecondsByDay day = (c.secondsDrivenOn day).ncard)
      ↔ c.MidnightsClear := by
  constructor
  · rintro ⟨hkeeps, _⟩ day hstart hbeat hdriven
    rcases driven_midnight_leaves hstart hbeat hdriven with ⟨x, hx, hleaves⟩
    exact hleaves (hkeeps x hx)
  · intro hclear
    have hkeeps : ∀ x ∈ c.classifySession.eligibleSlices, c.KeepsToDay x := by
      intro x hx t hfrom hto
      by_contra hdate
      rcases driven_midnight_of_leaves hx hfrom hto hdate with ⟨day, hstart, hbeat, hdriven⟩
      exact hclear day hstart hbeat hdriven
    exact ⟨hkeeps, seconds_of_keepsToDay hkeeps⟩

/-- A session that starts on a whole second has its midnights between seconds. -/
theorem midnightsClear_of_whole_start (h : microsPerSecond ∣ c.sessionStartedAt) :
    c.MidnightsClear := by
  intro day _ hbeat
  refine absurd (Int.dvd_sub ?_ h) hbeat
  exact ⟨day * 86400 - 3600, by simp [lagosDayUtcRange, microsPerDay, lagosOffset]; ring⟩

end

/-- All places are one place: the distance of a vehicle that stands still. -/
@[reducible]
def standingGeodesy : Geodesy where
  haversineM _ _ _ _ := 0

/-- Five seconds from a second and a half before midnight. -/
def midnightDrive : EligibilitySession :=
  let start := (lagosDayUtcRange 20000).1 - 1500000
  let ping (recordedAt : Int) : EligibilityPing :=
    { recordedAt := recordedAt, latitude := 6, longitude := 3, accuracyM := some 5, inArea := true }
  { sessionStartedAt := start
    sessionEndedAt := start + 5000000
    pings := [ping start, ping (start + 5000000)]
    windowStartAt := none
    windowEndAt := none }

/-- Its second slice starts in the last second of one day and is driven on the next. -/
theorem not_every_slice_keeps_to_its_day :
    ¬ ∀ x ∈ (@classifySession standingGeodesy midnightDrive).eligibleSlices, ∀ t : ℚ,
      x.startOffset ≤ t → t < x.endOffset → midnightDrive.lagosDate t = x.day := by
  intro hkeeps
  have hslice : ∃ x ∈ (@classifySession standingGeodesy midnightDrive).eligibleSlices,
      x.startOffset = 1 ∧ x.endOffset = 5 ∧ x.day = 19999 := by
    decide +kernel
  rcases hslice with ⟨x, hx, hstart, hend, hday⟩
  have hdate := hkeeps x hx 2 (by rw [hstart]; norm_num) (by rw [hend]; norm_num)
  rw [hday] at hdate
  exact absurd hdate (by decide +kernel)

end EligibilitySession

end Pay
end Mobility
