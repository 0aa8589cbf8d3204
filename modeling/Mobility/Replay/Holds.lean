import Mobility.Replay.Orders

/-!
# Holds — what does and what does not depend on the order of the calls

The latest trip of the whole group is held in every order, and no order holds a trip that
has no earlier trip of another driver.  Between these the order decides: a trip that is
already overtaken when its call comes is not looked at again.
-/

namespace Mobility
namespace Replay

open Lib

variable {settings : Settings} {s s' : State} {group : GroupKey}

/-- The group as it was, and the trips of the calls. -/
def State.groupAfter (s : State) (group : GroupKey) (calls : List Detection) : Set Id :=
  arrived {t | s.InGroup group t} (calls.map (·.tripId))

/-- Some call left the trip the latest of the group, with another driver's trip in it. -/
def State.LedAfterCall (s : State) (group : GroupKey) (calls : List Detection) (tripId : Id) : Prop :=
  LedOnArrival s.occurredKey s.OtherDriver {t | s.InGroup group t} (calls.map (·.tripId)) tripId

/-- The calls in the order of their trips, after whatever the group held before. -/
def State.InTimeOrder (s : State) (group : GroupKey) (calls : List Detection) : Prop :=
  (calls.map (·.tripId)).Pairwise (fun a b => s.occurredKey a ≤ s.occurredKey b)
    ∧ ∀ known, s.InGroup group known → ∀ call ∈ calls, s.occurredKey known ≤ s.occurredKey call.tripId

/-- Two trips of different drivers have different places in the group. -/
theorem occurredKey_ne_of_otherDriver {a b : Id} (h : s.OtherDriver a b) :
    s.occurredKey a ≠ s.occurredKey b := by
  intro hkey
  exact h (occurredKey_inj hkey ▸ rfl)

/-- Which trips of a group are held after its calls, in whatever order they came. -/
theorem route_replay_holds_by_order (settings : Settings) (normalized : Fingerprint)
    (s s' : State) (calls : List Detection)
    (hshared : SharedGroup settings normalized s calls)
    (hrun : detectAll settings s calls = .ok s') :
    let group := (settings.routeReplayDetectorVersion, normalized)
    (∀ t, s'.Held t ↔ s.Held t ∨ s.LedAfterCall group calls t)
    ∧ (calls ≠ [] → ∀ t ∈ s.groupAfter group calls,
        (∀ m ∈ s.groupAfter group calls, s.occurredKey m ≤ s.occurredKey t) →
          (∃ m ∈ s.groupAfter group calls, s.OtherDriver m t) → s'.Held t)
    ∧ (∀ t, s'.Held t → s.Held t ∨ ∃ m ∈ s.groupAfter group calls,
        s.occurredKey m < s.occurredKey t ∧ s.OtherDriver m t)
    ∧ (s.InTimeOrder group calls → ∀ call ∈ calls, ∀ m ∈ s.groupAfter group calls,
        s.occurredKey m < s.occurredKey call.tripId → s.OtherDriver m call.tripId →
          s'.Held call.tripId) := by
  intro group
  have hheld := (detectAll_progress hshared hrun).held
  refine ⟨hheld, ?_, ?_, ?_⟩
  · intro hsome t ht hlatest hother
    have hcalls : calls.map (·.tripId) ≠ [] := mt List.map_eq_nil_iff.mp hsome
    exact (hheld t).mpr (.inr (.of_leads hcalls ⟨ht, hlatest, hother⟩))
  · intro t ht
    refine ((hheld t).mp ht).imp_right ?_
    intro hled
    exact hled.exists_before (fun _ => occurredKey_ne_of_otherDriver)
  · rintro ⟨hsorted, hknown⟩ call hcall m hm hbefore hother
    refine (hheld call.tripId).mpr (.inr ?_)
    exact .of_sorted hsorted (fun known hin => hknown known hin call hcall)
      (List.mem_map_of_mem hcall) hm hbefore hother

/-! ## Two orders of one group -/

def sampleSettings : Settings :=
  { routeReplayDetectorVersion := "v1"
    routeReplayMinValidPings := 5
    routeReplayMinDistanceM := 10000
    routeReplayMaxEvidenceMatches := 3
    configFingerprint := "config" }

/-- Three trips on one route, an hour apart: driver 2, driver 1, driver 2. -/
def threeTrips : State :=
  let trip (id driver : Id) : TripSession :=
    { id := id
      assignmentId := driver
      campaignId := 1
      driverProfileId := driver
      vehicleId := driver
      startedAt := 0
      endedAt := some (id * 3600000000) }
  let analytics (id : Id) : TripAnalytics :=
    { id := id
      tripSessionId := id
      distanceM := 500000
      computedAt := 20000000000
      storedOutput := some "output" }
  { trips := [trip 1 2, trip 2 1, trip 3 2], analytics := [analytics 1, analytics 2, analytics 3] }

def processed (tripId : Id) : Detection :=
  { tripId := tripId
    analyticsId := tripId
    pointCount := 10
    sourceFingerprint := some "output"
    route := some { payloadFingerprint := "payload", normalizedFingerprint := "route" }
    now := 30000000000 }

theorem threeTrips_shared (calls : List Detection)
    (h : ∀ call ∈ calls, call ∈ [processed 1, processed 2, processed 3]) :
    SharedGroup sampleSettings "route" threeTrips calls where
  signatureKeys := List.nodup_nil
  flagKeys := ⟨List.nodup_nil, fun _ hflag => absurd hflag List.not_mem_nil⟩
  joins := by
    intro call hcall
    have hthree := h call hcall
    simp only [List.mem_cons, List.not_mem_nil, or_false] at hthree
    rcases hthree with rfl | rfl | rfl
    all_goals exact ⟨⟨_, rfl⟩, _, _, _, rfl, rfl, rfl, .inl rfl⟩
  stored := fun _ _ signature hnone => by cases hnone

theorem route_replay_holds_in_time_order :
    ∃ s', detectAll sampleSettings threeTrips [processed 1, processed 2, processed 3] = .ok s'
      ∧ s'.Held 2 ∧ s'.Held 3 := by
  have hshared := threeTrips_shared [processed 1, processed 2, processed 3] (fun _ h => h)
  rcases detectAll_accepted hshared (by decide) with ⟨s', hrun⟩
  have hholds := (route_replay_holds_by_order _ _ _ _ _ hshared hrun).2.2.2 ⟨by decide, ?_⟩
  · refine ⟨s', hrun, hholds (processed 2) (by decide) 1 (.inr (by decide)) (by decide) (by decide),
      hholds (processed 3) (by decide) 2 (.inr (by decide)) (by decide) (by decide)⟩
  · rintro known ⟨signature, hsignature, _⟩
    exact absurd hsignature List.not_mem_nil

/-- The last trip's call first: the middle trip is overtaken when its call comes. -/
theorem not_route_replay_holds_order_free :
    ¬ ∀ (settings : Settings) (normalized : Fingerprint) (s s₁ s₂ : State)
        (calls calls' : List Detection),
      SharedGroup settings normalized s calls → (∀ call, call ∈ calls ↔ call ∈ calls') →
        detectAll settings s calls = .ok s₁ → detectAll settings s calls' = .ok s₂ →
          ∀ t, s₁.Held t ↔ s₂.Held t := by
  intro hfree
  have hshared := threeTrips_shared [processed 1, processed 2, processed 3] (fun _ h => h)
  have hshared' := threeTrips_shared [processed 3, processed 1, processed 2] (by decide)
  rcases detectAll_accepted hshared (by decide) with ⟨s₁, hrun⟩
  rcases detectAll_accepted hshared' (by decide) with ⟨s₂, hrun'⟩
  have hsame := hfree _ _ _ _ _ _ _ hshared (fun call => by simp; tauto) hrun hrun' 2
  have hheld : s₁.Held 2 := by
    have htest : (detectAll sampleSettings threeTrips
        [processed 1, processed 2, processed 3]).toOption.any (·.Held 2) = true := by decide
    simpa [hrun, Except.toOption] using htest
  have hfreed : ¬ s₂.Held 2 := by
    have htest : (detectAll sampleSettings threeTrips
        [processed 3, processed 1, processed 2]).toOption.any (¬ ·.Held 2) = true := by decide
    simpa [hrun', Except.toOption] using htest
  exact hfreed (hsame.mp hheld)

end Replay
end Mobility
