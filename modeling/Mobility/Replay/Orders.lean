import Mathlib.Data.List.Dedup
import Mobility.Lib.Leaders
import Mobility.Lib.Table
import Mobility.Replay.Detection

/-!
# Orders — which trips a group's calls hold, call by call

A call adds its trip to the group and looks at the latest member of what is known so far.
A trip is held exactly when it was that latest member after one of the calls, with a trip
of another driver beside it.
-/

namespace Mobility
namespace Replay

open Lib

variable {settings : Settings} {s s' : State} {group : GroupKey}

/-! ## The notions of the statements -/

/-- The trip carries an active replay flag. -/
def State.Held (s : State) (tripId : Id) : Prop :=
  ∃ flag ∈ s.flags, flag.tripSessionId = tripId ∧ flag.status.HoldActive

instance (s : State) (tripId : Id) : Decidable (s.Held tripId) :=
  inferInstanceAs (Decidable (∃ flag ∈ s.flags, _ ∧ _))

/-- The trip's signature is computed, current and in the group. -/
def State.InGroup (s : State) (group : GroupKey) (tripId : Id) : Prop :=
  ∃ signature ∈ s.signatures, signature.tripSessionId = tripId
    ∧ (memberOf s group signature).isSome = true

/-- Where the trip stands in its group: its time, then its id. -/
def State.occurredKey (s : State) (tripId : Id) : Int ×ₗ Id :=
  toLex (((s.trip? tripId).map (·.occurredAt)).getD 0, tripId)

def State.OtherDriver (s : State) (a b : Id) : Prop :=
  (s.trip? a).map (·.driverProfileId) ≠ (s.trip? b).map (·.driverProfileId)

instance (s : State) (a b : Id) : Decidable (s.OtherDriver a b) :=
  inferInstanceAs (Decidable (_ ≠ _))

theorem occurredKey_inj {a b : Id} (h : s.occurredKey a = s.occurredKey b) : a = b :=
  congrArg (fun key => (ofLex key).2) h

/-! ## Members -/

/-- What a member row says about its signature and its trip. -/
theorem memberOf_eq_some {signature : RouteReplaySignature} {member : Member}
    (h : memberOf s group signature = some member) :
    member.tripId = signature.tripSessionId ∧ signature.group = some group
      ∧ member.key = s.occurredKey member.tripId
      ∧ (s.trip? member.tripId).map (·.driverProfileId) = some member.driverProfileId := by
  unfold memberOf at h
  split at h
  · rename_i trip analytics htrip _
    split_ifs at h with hin
    rcases Option.some.inj h with rfl
    rcases hin with ⟨hstatus, hversion, hnormalized, _⟩
    refine ⟨rfl, ?_, ?_, ?_⟩
    · simp [RouteReplaySignature.group, hstatus, hnormalized, hversion]
    · simp [Member.key, State.occurredKey, htrip]
    · simp [htrip]
  · cases h

theorem mem_groupMembers {member : Member} :
    member ∈ groupMembers s group ↔
      ∃ signature ∈ s.signatures, memberOf s group signature = some member :=
  List.mem_filterMap

theorem inGroup_iff {tripId : Id} :
    s.InGroup group tripId ↔ ∃ member ∈ groupMembers s group, member.tripId = tripId := by
  constructor
  · rintro ⟨signature, hsignature, hid, hsome⟩
    rcases Option.isSome_iff_exists.mp hsome with ⟨member, hmember⟩
    exact ⟨member, mem_groupMembers.mpr ⟨signature, hsignature, hmember⟩,
      (memberOf_eq_some hmember).1.trans hid⟩
  · rintro ⟨member, hmember, hid⟩
    rcases mem_groupMembers.mp hmember with ⟨signature, hsignature, hsome⟩
    exact ⟨signature, hsignature, (memberOf_eq_some hsome).1.symm.trans hid,
      Option.isSome_iff_exists.mpr ⟨member, hsome⟩⟩

/-- Membership reads the trips and the analytics rows only. -/
theorem memberOf_congr (htrips : s'.trips = s.trips) (hanalytics : s'.analytics = s.analytics)
    (signature : RouteReplaySignature) : memberOf s' group signature = memberOf s group signature := by
  simp [memberOf, State.trip?, State.analytics?, htrips, hanalytics]

theorem latestMember_eq_some {members : List Member} {target : Member}
    (h : latestMember members = some target) :
    target ∈ members ∧ ∀ member ∈ members, member.key ≤ target.key := by
  have htotal : Std.Total (fun a b : Member => b.key ≤ a.key) := ⟨fun a b => le_total b.key a.key⟩
  have htrans : IsTrans Member (fun a b => b.key ≤ a.key) := ⟨fun _ _ _ hab hbc => hbc.trans hab⟩
  exact head?_insertionSort h

theorem latestMember_ne_none {members : List Member} {member : Member} (h : member ∈ members) :
    ∃ target, latestMember members = some target := by
  cases hlatest : latestMember members with
  | some target => exact ⟨target, rfl⟩
  | none =>
      have hempty := List.head?_eq_none_iff.mp hlatest
      have hmem : member ∈ members.insertionSort (fun a b => b.key ≤ a.key) := by simpa using h
      rw [hempty] at hmem
      exact absurd hmem List.not_mem_nil

/-- The group query's answer is the trip that leads the group. -/
theorem leads_iff {tripId : Id} :
    Leads s.occurredKey s.OtherDriver {t | s.InGroup group t} tripId ↔
      ∃ target, latestMember (groupMembers s group) = some target ∧ target.tripId = tripId
        ∧ ∃ member ∈ groupMembers s group, member.driverProfileId ≠ target.driverProfileId := by
  have hrow : ∀ member ∈ groupMembers s group, member.key = s.occurredKey member.tripId
      ∧ (s.trip? member.tripId).map (·.driverProfileId) = some member.driverProfileId := by
    intro member hmember
    rcases mem_groupMembers.mp hmember with ⟨signature, _, hsome⟩
    exact (memberOf_eq_some hsome).2.2
  constructor
  · rintro ⟨hin, hgreatest, rival, hrival, hother⟩
    rcases inGroup_iff.mp hin with ⟨leader, hleader, rfl⟩
    rcases inGroup_iff.mp hrival with ⟨member, hmember, rfl⟩
    rcases latestMember_ne_none hleader with ⟨target, htarget⟩
    rcases latestMember_eq_some htarget with ⟨htargetMem, hlatest⟩
    have hle := hlatest leader hleader
    have hge := hgreatest target.tripId (inGroup_iff.mpr ⟨target, htargetMem, rfl⟩)
    rw [(hrow leader hleader).1, (hrow target htargetMem).1] at hle
    have hsame := occurredKey_inj (le_antisymm hge hle)
    refine ⟨target, htarget, hsame, member, hmember, ?_⟩
    intro heq
    refine hother ?_
    rw [(hrow member hmember).2, ← hsame, (hrow target htargetMem).2, heq]
  · rintro ⟨target, htarget, rfl, member, hmember, hdriver⟩
    rcases latestMember_eq_some htarget with ⟨htargetMem, hlatest⟩
    refine ⟨inGroup_iff.mpr ⟨target, htargetMem, rfl⟩, ?_, member.tripId,
      inGroup_iff.mpr ⟨member, hmember, rfl⟩, ?_⟩
    · rintro other hother
      rcases inGroup_iff.mp hother with ⟨row, hrowMem, rfl⟩
      rw [← (hrow row hrowMem).1, ← (hrow target htargetMem).1]
      exact hlatest row hrowMem
    · intro heq
      rw [(hrow member hmember).2, (hrow target htargetMem).2] at heq
      exact hdriver (Option.some.inj heq)

/-! ## Flags -/

/-- Flag ids name one flag and are handed out once. -/
structure FlagKeys (s : State) : Prop where
  nodup : (s.flags.map (·.id)).Nodup
  fresh : ∀ flag ∈ s.flags, flag.id < s.nextFlagId

/-- Everything but the flags is the same. -/
structure SameEvidence (s s' : State) : Prop where
  trips : s'.trips = s.trips
  analytics : s'.analytics = s.analytics
  signatures : s'.signatures = s.signatures

theorem SameEvidence.refl (s : State) : SameEvidence s s := ⟨rfl, rfl, rfl⟩

/-- Rewriting a flag without touching its trip or its status moves no hold. -/
theorem held_rewrite {flag updated : FraudFlag} (hkeys : (s.flags.map (·.id)).Nodup)
    (hflag : flag ∈ s.flags) (htrip : updated.tripSessionId = flag.tripSessionId)
    (hstatus : updated.status = flag.status) (tripId : Id) :
    ({ s with flags := s.flags.map (fun row => if row.id = flag.id then updated else row) } :
      State).Held tripId ↔ s.Held tripId := by
  have hrow : ∀ row ∈ s.flags, (if row.id = flag.id then updated else row).tripSessionId
      = row.tripSessionId ∧ (if row.id = flag.id then updated else row).status = row.status := by
    intro row hrow
    split_ifs with hid
    · rcases eq_of_key_eq hkeys hrow hflag hid with rfl
      exact ⟨htrip, hstatus⟩
    · exact ⟨rfl, rfl⟩
  constructor
  · rintro ⟨row, hmem, hid, hactive⟩
    rcases List.mem_map.mp hmem with ⟨old, hold, rfl⟩
    rw [(hrow old hold).1] at hid
    rw [(hrow old hold).2] at hactive
    exact ⟨old, hold, hid, hactive⟩
  · rintro ⟨old, hold, hid, hactive⟩
    refine ⟨_, List.mem_map_of_mem hold, ?_, ?_⟩
    · exact (hrow old hold).1.trans hid
    · exact (hrow old hold).2 ▸ hactive

/-- A write holds the target, and nothing else is held or released. -/
theorem writeReplayFlag_held {target : Member} {evidence : ReplayEvidence} {flag : FraudFlag}
    {changed : Bool} (hkeys : FlagKeys s)
    (h : writeReplayFlag s target evidence = .ok (s', flag, changed)) :
    SameEvidence s s' ∧ FlagKeys s'
      ∧ ∀ tripId, s'.Held tripId ↔ s.Held tripId ∨ tripId = target.tripId := by
  rcases bind_eq_ok.mp h with ⟨trip, htrip, h⟩
  rcases bind_eq_ok.mp h with ⟨analytics, _, h⟩
  have htripId : trip.id = target.tripId := (mem_of_lookup (demand_eq_ok.mp htrip)).2
  cases hstored : nonterminalReplayFlag s trip.id with
  | some old =>
      simp only [hstored] at h
      have hold : old ∈ s.flags := List.mem_of_find?_eq_some hstored
      have hactive : old.tripSessionId = trip.id ∧ old.status.HoldActive := by
        simpa using List.find?_some hstored
      have hheld : s.Held target.tripId := ⟨old, hold, hactive.1.trans htripId, hactive.2⟩
      -- the trip was held already, so holding it again changes nothing
      have hsame : ∀ tripId, s.Held tripId ↔ s.Held tripId ∨ tripId = target.tripId := by
        intro tripId
        refine ⟨.inl, ?_⟩
        rintro (hid | rfl)
        · exact hid
        · exact hheld
      rcases ite_eq_ok.mp h with ⟨_, h⟩ | ⟨_, h⟩
      · cases h
        exact ⟨.refl s, hkeys, hsame⟩
      · cases h
        refine ⟨⟨rfl, rfl, rfl⟩, ⟨?_, ?_⟩, ?_⟩
        · rw [keys_of_map]
          · exact hkeys.nodup
          · intro row
            split_ifs with hid
            · exact hid.symm
            · rfl
        · intro row hrow
          rcases List.mem_map.mp hrow with ⟨before, hbefore, rfl⟩
          split_ifs
          · exact hkeys.fresh old hold
          · exact hkeys.fresh before hbefore
        · intro tripId
          refine Iff.trans (held_rewrite hkeys.nodup hold ?_ ?_ tripId) (hsame tripId)
          · rfl
          · rfl
  | none =>
      simp only [hstored] at h
      cases h
      refine ⟨⟨rfl, rfl, rfl⟩, ⟨?_, ?_⟩, ?_⟩
      · -- ids are handed out in increasing order
        refine nodup_map_append hkeys.nodup ?_
        intro row hrow
        exact (hkeys.fresh row hrow).ne
      · intro row hrow
        rcases List.mem_append.mp hrow with hrow | hrow
        · exact (hkeys.fresh row hrow).trans (Nat.lt_succ_self _)
        · rw [List.mem_singleton.mp hrow]
          exact Nat.lt_succ_self _
      · intro tripId
        constructor
        · rintro ⟨row, hrow, hid, hactive⟩
          rcases List.mem_append.mp hrow with hrow | hrow
          · exact .inl ⟨row, hrow, hid, hactive⟩
          · rw [List.mem_singleton.mp hrow] at hid
            exact .inr (hid.symm.trans htripId)
        · rintro (⟨row, hrow, hid, hactive⟩ | rfl)
          · exact ⟨row, List.mem_append_left _ hrow, hid, hactive⟩
          · exact ⟨_, List.mem_append_right _ (List.mem_singleton.mpr rfl), htripId, .inl rfl⟩

/-- Both counts of the evidence are positive exactly when another driver's trip is there. -/
theorem evidence_empty_iff {members : List Member} {target : Member}
    (hsame : ∀ member ∈ members, member.tripId = target.tripId →
      member.driverProfileId = target.driverProfileId) :
    ((replayEvidence settings target
        (members.filter (fun member => member.tripId ≠ target.tripId))).totalMatchCount = 0
      ∨ (replayEvidence settings target
        (members.filter (fun member => member.tripId ≠ target.tripId))).crossAccountMatchCount = 0)
      ↔ ∀ member ∈ members, member.driverProfileId = target.driverProfileId := by
  have hcross : (members.filter (fun member => member.tripId ≠ target.tripId)).countP
      (fun member => decide (member.driverProfileId ≠ target.driverProfileId)) = 0 ↔
        ∀ member ∈ members, member.driverProfileId = target.driverProfileId := by
    rw [List.countP_eq_zero]
    constructor
    · intro hnone member hmember
      by_cases hid : member.tripId = target.tripId
      · exact hsame member hmember hid
      · simpa using hnone member (List.mem_filter.mpr ⟨hmember, by simpa using hid⟩)
    · intro hall member hmember
      simpa using hall member (List.mem_filter.mp hmember).1
  refine Iff.trans ⟨?_, .inr⟩ hcross
  rintro (hempty | hzero)
  · have hnil := List.length_eq_zero_iff.mp hempty
    simp only [replayEvidence]
    rw [hnil]
    rfl
  · exact hzero

/-- Reconciling a group holds its leader. -/
theorem reconcileGroup_held {result : GroupResult} (hkeys : FlagKeys s)
    (h : reconcileGroup settings s group = .ok (s', result)) :
    SameEvidence s s' ∧ FlagKeys s' ∧ ∀ tripId, s'.Held tripId ↔
      s.Held tripId ∨ Leads s.occurredKey s.OtherDriver {t | s.InGroup group t} tripId := by
  simp only [leads_iff]
  unfold reconcileGroup at h
  cases hlatest : latestMember (groupMembers s group) with
  | none =>
      simp only [hlatest] at h
      cases h
      exact ⟨.refl s, hkeys, fun tripId => by simp⟩
  | some target =>
      simp only [hlatest] at h
      -- the driver of a trip is read from the trip, so one trip has one driver
      have hdriver : ∀ member ∈ groupMembers s group, member.tripId = target.tripId →
          member.driverProfileId = target.driverProfileId := by
        intro member hmember hid
        rcases mem_groupMembers.mp hmember with ⟨_, _, hsome⟩
        rcases mem_groupMembers.mp (latestMember_eq_some hlatest).1 with ⟨_, _, htarget⟩
        have hmemberDriver := (memberOf_eq_some hsome).2.2.2
        rw [hid, (memberOf_eq_some htarget).2.2.2] at hmemberDriver
        exact (Option.some.inj hmemberDriver).symm
      rcases ite_eq_ok.mp h with ⟨hempty, h⟩ | ⟨hrivals, h⟩
      · -- no other driver in the group: nobody leads, nothing is written
        have hall := (evidence_empty_iff hdriver).mp hempty
        cases h
        refine ⟨.refl s, hkeys, ?_⟩
        intro tripId
        refine ⟨.inl, ?_⟩
        rintro (hheld | ⟨_, htarget, _, member, hmember, hother⟩)
        · exact hheld
        · exact absurd (Option.some.inj htarget ▸ hall member hmember) hother
      · have hsome := mt (evidence_empty_iff hdriver).mpr hrivals
        push Not at hsome
        rcases bind_eq_ok.mp h with ⟨⟨s₁, flag, changed⟩, hwrite, h⟩
        cases h
        rcases writeReplayFlag_held hkeys hwrite with ⟨hevidence, hkeys', hheld⟩
        refine ⟨hevidence, hkeys', ?_⟩
        intro tripId
        rw [hheld]
        refine or_congr Iff.rfl ?_
        constructor
        · rintro rfl
          exact ⟨target, rfl, rfl, hsome⟩
        · rintro ⟨_, htarget, rfl, _⟩
          rw [← Option.some.inj htarget]

/-! ## Signatures -/

@[simp]
theorem upsertSignature_flags (s : State) (row : RouteReplaySignature) :
    (upsertSignature s row).flags = s.flags ∧ (upsertSignature s row).nextFlagId = s.nextFlagId
      ∧ (upsertSignature s row).trips = s.trips
      ∧ (upsertSignature s row).analytics = s.analytics := by
  unfold upsertSignature
  split <;> exact ⟨rfl, rfl, rfl, rfl⟩

/-- A trip has one signature, the row written last. -/
theorem upsertSignature_rows (hkeys : (s.signatures.map (·.tripSessionId)).Nodup)
    (row : RouteReplaySignature) :
    ((upsertSignature s row).signatures.map (·.tripSessionId)).Nodup
      ∧ ∀ signature, signature ∈ (upsertSignature s row).signatures ↔
          signature = row
            ∨ signature ∈ s.signatures ∧ signature.tripSessionId ≠ row.tripSessionId := by
  unfold upsertSignature
  cases hold : s.signatureForTrip row.tripSessionId with
  | none =>
      have hnew := lookup_eq_none.mp hold
      refine ⟨nodup_map_append hkeys hnew, ?_⟩
      intro signature
      simp only [List.mem_append, List.mem_singleton]
      constructor
      · rintro (hmem | rfl)
        · exact .inr ⟨hmem, hnew signature hmem⟩
        · exact .inl rfl
      · rintro (rfl | ⟨hmem, _⟩)
        · exact .inr rfl
        · exact .inl hmem
  | some old =>
      -- the old row is rewritten in its place
      rcases mem_of_lookup hold with ⟨hmem, hid⟩
      constructor
      · rw [keys_of_map]
        · exact hkeys
        · intro signature
          split_ifs with hsame
          · exact hsame.symm
          · rfl
      · intro signature
        simp only [List.mem_map]
        constructor
        · rintro ⟨before, hbefore, rfl⟩
          split_ifs with hsame
          · exact .inl rfl
          · exact .inr ⟨hbefore, hsame⟩
        · rintro (rfl | ⟨hbefore, hne⟩)
          · exact ⟨old, hmem, if_pos hid⟩
          · exact ⟨signature, hbefore, if_neg hne⟩

/-- The row a call writes names the call's trip. -/
theorem signatureRow_trip {call : Detection} {evaluation : Evaluation} :
    (signatureRow settings call evaluation (s.signatureForTrip call.tripId)).tripSessionId
      = call.tripId := by
  unfold signatureRow
  cases hold : s.signatureForTrip call.tripId with
  | none => rfl
  | some old =>
      dsimp only
      split_ifs
      · exact (mem_of_lookup hold).2
      · rfl

/-! ## Calls of one group -/

/-- The call's evaluation is computed, current, and has the group's fingerprint. -/
structure Detection.Joins (settings : Settings) (s : State) (normalized : Fingerprint)
    (call : Detection) : Prop where
  trip : ∃ trip, s.trip? call.tripId = some trip
  computed : ∃ analytics source route, s.analytics? call.analyticsId = some analytics
    ∧ evaluate settings analytics call
      = { status := .computed
          sourceFingerprint := source
          fingerprints := some route
          errorCode := none }
    ∧ route.normalizedFingerprint = normalized
    ∧ (analytics.storedOutput = some source
        ∨ analytics.storedOutput = none ∧ analytics.computedAt ≤ call.now)

theorem Detection.Joins.congr {normalized : Fingerprint} {call : Detection}
    (htrips : s'.trips = s.trips) (hanalytics : s'.analytics = s.analytics)
    (h : call.Joins settings s normalized) : call.Joins settings s' normalized where
  trip := by simpa [State.trip?, htrips] using h.trip
  computed := by simpa [State.analytics?, hanalytics] using h.computed

/-- The trip's stored signature, when there is one, is in the group. -/
def State.NoOtherGroup (s : State) (group : GroupKey) (tripId : Id) : Prop :=
  ∀ signature, s.signatureForTrip tripId = some signature →
    (memberOf s group signature).isSome = true

/-- The written row is a member of the group. -/
theorem signatureRow_member {normalized : Fingerprint} {call : Detection}
    {analytics : TripAnalytics} (h : call.Joins settings s normalized)
    (hrow : s.analytics? call.analyticsId = some analytics)
    (hstored : s.NoOtherGroup (settings.routeReplayDetectorVersion, normalized) call.tripId) :
    (memberOf s (settings.routeReplayDetectorVersion, normalized)
      (signatureRow settings call (evaluate settings analytics call)
        (s.signatureForTrip call.tripId))).isSome = true := by
  rcases h.trip with ⟨trip, htrip⟩
  rcases h.computed with ⟨analytics', source, route, hanalytics, hevaluate, rfl, hcurrent⟩
  rcases Option.some.inj (hrow.symm.trans hanalytics) with rfl
  have hnew : ∀ row : RouteReplaySignature, row.tripSessionId = call.tripId →
      row.tripAnalyticsId = call.analyticsId → row.status = .computed →
      row.detectorVersion = settings.routeReplayDetectorVersion →
      row.normalizedFingerprint = some route.normalizedFingerprint →
      row.sourceAnalyticsFingerprint = source → row.computedAt = call.now →
        (memberOf s (settings.routeReplayDetectorVersion, route.normalizedFingerprint)
          row).isSome = true := by
    intro row hid hrowAnalytics hstatus hversion hfingerprint hsource hat
    have hrowCurrent : row.Current analytics := by
      unfold RouteReplaySignature.Current
      rw [hsource, hat]
      exact hcurrent
    simp [memberOf, hid, hrowAnalytics, htrip, hanalytics, hstatus, hversion, hfingerprint,
      hrowCurrent]
  unfold signatureRow
  cases hold : s.signatureForTrip call.tripId with
  | none => exact hnew _ rfl rfl (by simp [hevaluate]) rfl (by simp [hevaluate]) (by simp [hevaluate]) rfl
  | some old =>
      dsimp only
      split_ifs
      · exact hstored old hold
      · exact hnew _ rfl rfl (by simp [hevaluate]) rfl (by simp [hevaluate])
          (by simp [hevaluate]) rfl

/-- What a call of the group does: its trip joins the group, and the leader of the group
is held. -/
theorem detectRouteReplay_joins {normalized : Fingerprint} {call : Detection}
    {result : RouteReplayResult}
    (hkeys : (s.signatures.map (·.tripSessionId)).Nodup) (hflags : FlagKeys s)
    (hjoins : call.Joins settings s normalized)
    (hstored : s.NoOtherGroup (settings.routeReplayDetectorVersion, normalized) call.tripId)
    (h : detectRouteReplay settings s call = .ok (s', result)) :
    s'.trips = s.trips ∧ s'.analytics = s.analytics
      ∧ (s'.signatures.map (·.tripSessionId)).Nodup ∧ FlagKeys s'
      ∧ (∀ signature ∈ s'.signatures, signature ∈ s.signatures
          ∨ (memberOf s (settings.routeReplayDetectorVersion, normalized) signature).isSome = true)
      ∧ (∀ tripId, s'.InGroup (settings.routeReplayDetectorVersion, normalized) tripId ↔
          tripId = call.tripId
            ∨ s.InGroup (settings.routeReplayDetectorVersion, normalized) tripId)
      ∧ ∀ tripId, s'.Held tripId ↔ s.Held tripId
          ∨ Leads s.occurredKey s.OtherDriver
              {t | s'.InGroup (settings.routeReplayDetectorVersion, normalized) t} tripId := by
  rcases bind_eq_ok.mp h with ⟨trip, _, h⟩
  rcases bind_eq_ok.mp h with ⟨analytics, hanalytics, h⟩
  rcases bind_eq_ok.mp h with ⟨_, _, h⟩
  rcases bind_eq_ok.mp h with ⟨⟨s₁, results⟩, hreconciled, h⟩
  cases h
  have hanalytics := demand_eq_ok.mp hanalytics
  have hmember := signatureRow_member hjoins hanalytics hstored
  -- the trip leaves no other group, so one group is reconciled
  have hgroups : (((s.signatureForTrip call.tripId).bind (·.group)).toList
      ++ ((evaluate settings analytics call).fingerprints.map (fun route =>
        (settings.routeReplayDetectorVersion, route.normalizedFingerprint))).toList).dedup
        = [(settings.routeReplayDetectorVersion, normalized)] := by
    rcases hjoins.computed with ⟨analytics', source, route, hrow, hevaluate, rfl, _⟩
    rcases Option.some.inj (hanalytics.symm.trans hrow) with rfl
    rw [hevaluate]
    cases hold : s.signatureForTrip call.tripId with
    | none => rfl
    | some old =>
        rcases Option.isSome_iff_exists.mp (hstored old hold) with ⟨member, hsome⟩
        rw [Option.bind_some, (memberOf_eq_some hsome).2.1]
        exact (List.dedup_cons_of_mem (List.mem_singleton.mpr rfl)).trans (List.nodup_singleton _).dedup
  rw [hgroups] at hreconciled
  rcases bind_eq_ok.mp hreconciled with ⟨⟨s₂, results₂⟩, hround, hdone⟩
  cases hdone
  rcases bind_eq_ok.mp hround with ⟨⟨s₃, groupResult⟩, hgroup, hdone⟩
  cases hdone
  dsimp only at hgroup
  generalize hrowEq : signatureRow settings call (evaluate settings analytics call)
    (s.signatureForTrip call.tripId) = row at hgroup hmember
  have hrowTrip : row.tripSessionId = call.tripId := hrowEq ▸ signatureRow_trip
  rcases upsertSignature_flags s row with ⟨hflagRows, hnext, htrips, hanalyticsRows⟩
  rcases upsertSignature_rows hkeys row with ⟨hkeys', hrows⟩
  have hflags' : FlagKeys (upsertSignature s row) :=
    ⟨by rw [hflagRows]; exact hflags.nodup, by rw [hflagRows, hnext]; exact hflags.fresh⟩
  rcases reconcileGroup_held hflags' hgroup with ⟨hsame, hflags'', hheld⟩
  have htrips' := hsame.trips.trans htrips
  have hanalytics' := hsame.analytics.trans hanalyticsRows
  have hkeyEq : (upsertSignature s row).occurredKey = s.occurredKey := by
    funext tripId
    simp [State.occurredKey, State.trip?]
  have hotherEq : (upsertSignature s row).OtherDriver = s.OtherDriver := by
    funext a b
    simp [State.OtherDriver, State.trip?]
  have hin : ∀ tripId, s'.InGroup (settings.routeReplayDetectorVersion, normalized) tripId ↔
      (upsertSignature s row).InGroup (settings.routeReplayDetectorVersion, normalized) tripId := by
    intro tripId
    simp only [State.InGroup, hsame.signatures, memberOf_congr hsame.trips hsame.analytics]
  refine ⟨htrips', hanalytics', hsame.signatures.symm ▸ hkeys', hflags'', ?_, ?_, ?_⟩
  · intro signature hsignature
    rw [hsame.signatures] at hsignature
    rcases (hrows signature).mp hsignature with rfl | ⟨hold, _⟩
    · exact .inr hmember
    · exact .inl hold
  · intro tripId
    rw [hin]
    simp only [State.InGroup, memberOf_congr htrips hanalyticsRows, hrows]
    constructor
    · rintro ⟨signature, rfl | ⟨hold, _⟩, hid, hsome⟩
      · exact .inl (hid.symm.trans hrowTrip)
      · exact .inr ⟨signature, hold, hid, hsome⟩
    · rintro (rfl | ⟨signature, hold, hid, hsome⟩)
      · exact ⟨row, .inl rfl, hrowTrip, hmember⟩
      · by_cases hcall : tripId = call.tripId
        · exact ⟨row, .inl rfl, hrowTrip.trans hcall.symm, hmember⟩
        · refine ⟨signature, .inr ⟨hold, ?_⟩, hid, hsome⟩
          rw [hid, hrowTrip]
          exact hcall
  · intro tripId
    rw [hheld, hkeyEq, hotherEq]
    simp only [hin]
    refine or_congr ?_ Iff.rfl
    simp only [State.Held, hflagRows]

/-! ## Acceptance -/

/-- A member's trip and analytics rows are there to be read. -/
theorem memberOf_rows {signature : RouteReplaySignature} {member : Member}
    (h : memberOf s group signature = some member) :
    (∃ trip, s.trip? member.tripId = some trip)
      ∧ ∃ analytics, s.analytics? member.analyticsId = some analytics := by
  unfold memberOf at h
  split at h
  · rename_i trip analytics htrip hanalytics
    split_ifs at h
    rcases Option.some.inj h with rfl
    have hid : analytics.id = signature.tripAnalyticsId := (mem_of_lookup hanalytics).2
    exact ⟨⟨trip, htrip⟩, analytics, hid.symm ▸ hanalytics⟩
  · cases h

theorem writeReplayFlag_accepted {target : Member} (htarget : target ∈ groupMembers s group)
    (evidence : ReplayEvidence) : ∃ written, writeReplayFlag s target evidence = .ok written := by
  rcases mem_groupMembers.mp htarget with ⟨signature, _, hsome⟩
  rcases memberOf_rows hsome with ⟨⟨trip, htrip⟩, analytics, hanalytics⟩
  unfold writeReplayFlag
  rw [demand_eq_ok.mpr htrip, demand_eq_ok.mpr hanalytics]
  dsimp only [bind, Except.bind]
  cases nonterminalReplayFlag s trip.id with
  | none => exact ⟨_, rfl⟩
  | some flag =>
      by_cases hkept : flag.status ≠ .open ∨ flag.id ∈ s.disputes
      · exact ⟨_, if_pos hkept⟩
      · exact ⟨_, if_neg hkept⟩

theorem reconcileGroup_accepted (settings : Settings) (s : State) (group : GroupKey) :
    ∃ reconciled, reconcileGroup settings s group = .ok reconciled := by
  unfold reconcileGroup
  cases hlatest : latestMember (groupMembers s group) with
  | none => exact ⟨_, rfl⟩
  | some target =>
      dsimp only
      split_ifs
      · exact ⟨_, rfl⟩
      · rcases writeReplayFlag_accepted (latestMember_eq_some hlatest).1 (replayEvidence settings
          target ((groupMembers s group).filter (fun member => member.tripId ≠ target.tripId)))
          with ⟨written, hwritten⟩
        exact ⟨_, by rw [hwritten]; rfl⟩

theorem reconcileGroups_accepted (settings : Settings) (groups : List GroupKey) :
    ∀ acc : State × List (GroupKey × GroupResult), ∃ reconciled,
      checkedFold (fun (acc : State × List (GroupKey × GroupResult)) group => do
        let (s, result) ← reconcileGroup settings acc.1 group
        return (s, acc.2 ++ [(group, result)])) acc groups = .ok reconciled := by
  induction groups with
  | nil => exact fun acc => ⟨acc, rfl⟩
  | cons group groups ih =>
      intro acc
      rcases reconcileGroup_accepted settings acc.1 group with ⟨⟨s', result⟩, hgroup⟩
      rcases ih (s', acc.2 ++ [(group, result)]) with ⟨reconciled, hrest⟩
      refine ⟨reconciled, ?_⟩
      rw [checkedFold_cons, hgroup]
      exact hrest

/-- A call whose members are free is accepted. -/
theorem detectRouteReplay_accepted {normalized : Fingerprint} {call : Detection}
    (hjoins : call.Joins settings s normalized) (hbusy : call.busy = []) :
    ∃ detected, detectRouteReplay settings s call = .ok detected := by
  rcases hjoins.trip with ⟨trip, htrip⟩
  rcases hjoins.computed with ⟨analytics, _, _, hanalytics, _⟩
  rcases reconcileGroups_accepted settings
    (((s.signatureForTrip call.tripId).bind (·.group)).toList
      ++ ((evaluate settings analytics call).fingerprints.map (fun route =>
        (settings.routeReplayDetectorVersion, route.normalizedFingerprint))).toList).dedup
    (upsertSignature s (signatureRow settings call (evaluate settings analytics call)
      (s.signatureForTrip call.tripId)), []) with ⟨⟨s', results⟩, hreconciled⟩
  refine ⟨_, bind_eq_ok.mpr ⟨trip, demand_eq_ok.mpr htrip, bind_eq_ok.mpr ⟨analytics,
    demand_eq_ok.mpr hanalytics, bind_eq_ok.mpr ⟨⟨⟩, require_of ?_,
      bind_eq_ok.mpr ⟨(s', results), hreconciled, rfl⟩⟩⟩⟩⟩
  intro _ _ member _ _ hmember
  rw [hbusy] at hmember
  exact absurd hmember List.not_mem_nil

/-! ## Runs -/

/-- Calls whose evaluations are computed and current and share one normalized fingerprint,
from a state where none of their trips is in another group. -/
structure SharedGroup (settings : Settings) (normalized : Fingerprint) (s : State)
    (calls : List Detection) : Prop where
  signatureKeys : (s.signatures.map (·.tripSessionId)).Nodup
  flagKeys : FlagKeys s
  joins : ∀ call ∈ calls, call.Joins settings s normalized
  stored : ∀ call ∈ calls,
    s.NoOtherGroup (settings.routeReplayDetectorVersion, normalized) call.tripId

/-- What holds after some of the calls. -/
structure Progress (settings : Settings) (normalized : Fingerprint) (s : State)
    (calls : List Detection) (done : List Detection) (s' : State) : Prop where
  trips : s'.trips = s.trips
  analytics : s'.analytics = s.analytics
  shared : SharedGroup settings normalized s' calls
  members : ∀ tripId, s'.InGroup (settings.routeReplayDetectorVersion, normalized) tripId ↔
    tripId ∈ arrived {t | s.InGroup (settings.routeReplayDetectorVersion, normalized) t}
      (done.map (·.tripId))
  held : ∀ tripId, s'.Held tripId ↔ s.Held tripId
    ∨ LedOnArrival s.occurredKey s.OtherDriver
        {t | s.InGroup (settings.routeReplayDetectorVersion, normalized) t}
        (done.map (·.tripId)) tripId

theorem Progress.init {normalized : Fingerprint} {calls : List Detection}
    (h : SharedGroup settings normalized s calls) : Progress settings normalized s calls [] s where
  trips := rfl
  analytics := rfl
  shared := h
  members := by simp [arrived]
  held := by simp [not_ledOnArrival_nil]

theorem Progress.step {normalized : Fingerprint} {calls done : List Detection} {call : Detection}
    {s₁ s₂ : State} {result : RouteReplayResult} (h : Progress settings normalized s calls done s₁)
    (hcall : call ∈ calls) (hstep : detectRouteReplay settings s₁ call = .ok (s₂, result)) :
    Progress settings normalized s calls (done ++ [call]) s₂ := by
  rcases detectRouteReplay_joins h.shared.signatureKeys h.shared.flagKeys
    (h.shared.joins call hcall) (h.shared.stored call hcall) hstep with
    ⟨htrips, hanalytics, hkeys, hflags, hrows, hmembers, hheld⟩
  -- the order and the drivers are read from trips, which no call writes
  have hkey : s₁.occurredKey = s.occurredKey := by
    funext tripId
    simp [State.occurredKey, State.trip?, h.trips]
  have hother : s₁.OtherDriver = s.OtherDriver := by
    funext a b
    simp [State.OtherDriver, State.trip?, h.trips]
  have hin : ∀ tripId, s₂.InGroup (settings.routeReplayDetectorVersion, normalized) tripId ↔
      tripId ∈ arrived {t | s.InGroup (settings.routeReplayDetectorVersion, normalized) t}
        ((done ++ [call]).map (·.tripId)) := by
    intro tripId
    rw [hmembers, h.members]
    simp only [arrived, Set.mem_ofPred_eq, List.map_append, List.mem_append, List.map_cons,
      List.map_nil, List.mem_singleton]
    tauto
  refine {
    trips := htrips.trans h.trips
    analytics := hanalytics.trans h.analytics
    shared := {
      signatureKeys := hkeys
      flagKeys := hflags
      joins := fun other hmem => (h.shared.joins other hmem).congr htrips hanalytics
      stored := ?_ }
    members := hin
    held := ?_ }
  · intro other hmem signature hsignature
    rw [memberOf_congr htrips hanalytics]
    rcases mem_of_lookup hsignature with ⟨hrow, hid⟩
    rcases hrows signature hrow with hold | hsome
    · exact h.shared.stored other hmem signature (lookup_eq_some h.shared.signatureKeys hold hid)
    · exact hsome
  · intro tripId
    rw [hheld, h.held, List.map_append, List.map_singleton, ledOnArrival_concat, or_assoc, hkey,
      hother]
    -- the group after the call is what has arrived by then
    have hset : {t | s₂.InGroup (settings.routeReplayDetectorVersion, normalized) t}
        = arrived {t | s.InGroup (settings.routeReplayDetectorVersion, normalized) t}
          (done.map (·.tripId) ++ [call.tripId]) := by
      ext t
      simpa using hin t
    rw [hset]

theorem detectAll_progress {normalized : Fingerprint} {calls : List Detection}
    (h : SharedGroup settings normalized s calls) (hrun : detectAll settings s calls = .ok s') :
    Progress settings normalized s calls calls s' := by
  refine checkedFold_prefix (Progress settings normalized s calls) ?_ hrun (.init h)
  intro done call rest s₁ s₂ hsplit hprogress hstep
  rcases map_eq_ok.mp hstep with ⟨⟨s₃, result⟩, hdetect, rfl⟩
  exact hprogress.step (hsplit ▸ List.mem_append_right _ List.mem_cons_self) hdetect

/-- Calls whose members are free are all accepted. -/
theorem detectAll_accepted {normalized : Fingerprint} :
    ∀ {calls : List Detection} {s : State}, SharedGroup settings normalized s calls →
      (∀ call ∈ calls, call.busy = []) → ∃ s', detectAll settings s calls = .ok s' := by
  intro calls
  induction calls with
  | nil => exact fun _ _ => ⟨_, rfl⟩
  | cons call calls ih =>
      intro s h hbusy
      rcases detectRouteReplay_accepted (h.joins call List.mem_cons_self)
        (hbusy call List.mem_cons_self) with ⟨⟨s₁, result⟩, hdetect⟩
      have hnext := ((Progress.init h).step List.mem_cons_self hdetect).shared
      have hrest : SharedGroup settings normalized s₁ calls :=
        { hnext with
          joins := fun other hmem => hnext.joins other (List.mem_cons_of_mem _ hmem)
          stored := fun other hmem => hnext.stored other (List.mem_cons_of_mem _ hmem) }
      rcases ih hrest (fun other hmem => hbusy other (List.mem_cons_of_mem _ hmem)) with ⟨s', hrun⟩
      exact ⟨s', bind_eq_ok.mpr ⟨s₁, map_eq_ok.mpr ⟨_, hdetect, rfl⟩, hrun⟩⟩

end Replay
end Mobility
