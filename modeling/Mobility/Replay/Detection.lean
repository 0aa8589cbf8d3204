import Mathlib.Data.Prod.Lex
import Mobility.Basic
import Mobility.Lib.Checked
import Mobility.Lib.Newest

/-!
# Detection — one trip's replay signature and its group (`services/route_replay.py`)

`detect_route_replay` runs in one transaction.  It writes the trip's signature and then
reconciles the groups of trips that share a normalized fingerprint: of each group it looks
at the latest member only.

The fingerprints are hashes of the ordered pings; a call carries what
`canonical_route_fingerprints` and `analytics_output_fingerprint` came to.
-/

namespace Mobility
namespace Replay

open Lib

abbrev Fingerprint := String

def routeReplayErrorCode : String := "route_replay_evaluation_failed"

def unavailableFingerprint : Fingerprint := String.ofList (List.replicate 64 '0')

structure Settings where
  routeReplayDetectorVersion : String
  routeReplayMinValidPings : Nat
  /-- In hundredths of a metre, as the stored distances. -/
  routeReplayMinDistanceM : Int
  routeReplayMaxEvidenceMatches : Nat
  /-- `route_replay_config_fingerprint`. -/
  configFingerprint : Fingerprint
  deriving DecidableEq, Repr

structure RouteFingerprints where
  payloadFingerprint : Fingerprint
  normalizedFingerprint : Fingerprint
  deriving DecidableEq, Repr

inductive RouteReplayStatus
  | computed
  | insufficientData
  | error
  deriving DecidableEq, Repr

inductive ReplayKind
  | identical
  | timeShifted
  deriving DecidableEq, Repr

/-! ## The tables -/

structure TripSession where
  id : Id
  assignmentId : Id
  campaignId : Id
  driverProfileId : Id
  vehicleId : Id
  startedAt : Int
  endedAt : Option Int
  deriving DecidableEq, Repr

structure TripAnalytics where
  id : Id
  tripSessionId : Id
  distanceM : Int
  computedAt : Int
  /-- The output fingerprint that the metadata holds; older rows have none. -/
  storedOutput : Option Fingerprint
  deriving DecidableEq, Repr

structure RouteReplaySignature where
  tripSessionId : Id
  tripAnalyticsId : Id
  status : RouteReplayStatus
  detectorVersion : String
  detectorConfigFingerprint : Fingerprint
  sourceAnalyticsFingerprint : Fingerprint
  payloadFingerprint : Option Fingerprint
  normalizedFingerprint : Option Fingerprint
  pointCount : Nat
  errorCode : Option String
  computedAt : Int
  deriving DecidableEq, Repr

inductive FraudFlagStatus
  | open
  | confirmed
  | dismissed
  deriving DecidableEq, Repr

/-- `hold_active`. -/
def FraudFlagStatus.HoldActive (status : FraudFlagStatus) : Prop :=
  status = .open ∨ status = .confirmed

instance (status : FraudFlagStatus) : Decidable status.HoldActive :=
  inferInstanceAs (Decidable (_ ∨ _))

structure ReplayEvidence where
  detectorVersion : String
  matchKind : ReplayKind
  totalMatchCount : Nat
  crossAccountMatchCount : Nat
  sampledMatchedTripIds : List Id
  deriving DecidableEq, Repr

/-- A fraud flag of the type `route_replay`. -/
structure FraudFlag where
  id : Id
  tripSessionId : Id
  status : FraudFlagStatus
  tripAnalyticsId : Id
  assignmentId : Id
  campaignId : Id
  driverProfileId : Id
  vehicleId : Id
  evidence : ReplayEvidence
  detectedAt : Int
  deriving DecidableEq, Repr

structure State where
  trips : List TripSession := []
  analytics : List TripAnalytics := []
  signatures : List RouteReplaySignature := []
  flags : List FraudFlag := []
  /-- The flags that a driver disputed. -/
  disputes : List Id := []
  /-- The flags a hold notice was sent for. -/
  notices : List Id := []
  nextFlagId : Id := 1
  deriving DecidableEq, Repr

inductive Refusal
  | fraudScopeBusy
  | evidenceMissing
  deriving DecidableEq, Repr

def State.trip? (s : State) (id : Id) : Option TripSession :=
  s.trips.find? (·.id = id)

def State.analytics? (s : State) (id : Id) : Option TripAnalytics :=
  s.analytics.find? (·.id = id)

def State.signatureForTrip (s : State) (tripId : Id) : Option RouteReplaySignature :=
  s.signatures.find? (·.tripSessionId = tripId)

/-! ## Groups -/

/-- A row of the group query. -/
structure Member where
  tripId : Id
  payloadFingerprint : Option Fingerprint
  driverProfileId : Id
  occurredAt : Int
  analyticsId : Id
  analyticsComputedAt : Int
  deriving DecidableEq, Repr

/-- A detector version and a normalized fingerprint. -/
abbrev GroupKey := String × Fingerprint

def TripSession.occurredAt (trip : TripSession) : Int :=
  trip.endedAt.getD trip.startedAt

/-- The signature was computed from what the analytics row holds now. -/
def RouteReplaySignature.Current (signature : RouteReplaySignature) (analytics : TripAnalytics) :
    Prop :=
  analytics.storedOutput = some signature.sourceAnalyticsFingerprint
    ∨ analytics.storedOutput = none ∧ analytics.computedAt ≤ signature.computedAt

instance (signature : RouteReplaySignature) (analytics : TripAnalytics) :
    Decidable (signature.Current analytics) :=
  inferInstanceAs (Decidable (_ ∨ _))

def memberOf (s : State) (group : GroupKey) (signature : RouteReplaySignature) : Option Member :=
  match s.trip? signature.tripSessionId, s.analytics? signature.tripAnalyticsId with
  | some trip, some analytics =>
      if signature.status = .computed ∧ signature.detectorVersion = group.1
          ∧ signature.normalizedFingerprint = some group.2 ∧ signature.Current analytics then
        some {
          tripId := signature.tripSessionId
          payloadFingerprint := signature.payloadFingerprint
          driverProfileId := trip.driverProfileId
          occurredAt := trip.occurredAt
          analyticsId := analytics.id
          analyticsComputedAt := analytics.computedAt }
      else none
  | _, _ => none

def groupMembers (s : State) (group : GroupKey) : List Member :=
  s.signatures.filterMap (memberOf s group)

/-- The order of the group: by time, then by trip. -/
def Member.key (member : Member) : Int ×ₗ Id :=
  toLex (member.occurredAt, member.tripId)

/-- `ORDER BY occurred_at DESC, trip_id DESC LIMIT 1`. -/
def latestMember (members : List Member) : Option Member :=
  (members.insertionSort (fun a b => b.key ≤ a.key)).head?

/-! ## Flags -/

/-- The open or confirmed flag of the trip. -/
def nonterminalReplayFlag (s : State) (tripId : Id) : Option FraudFlag :=
  s.flags.find? (fun flag => flag.tripSessionId = tripId ∧ flag.status.HoldActive)

/-- `_write_replay_flag`: the flag, and whether it was written. -/
def writeReplayFlag (s : State) (target : Member) (evidence : ReplayEvidence) :
    Except Refusal (State × FraudFlag × Bool) := do
  let trip ← demand (s.trip? target.tripId) .evidenceMissing
  let analytics ← demand (s.analytics? target.analyticsId) .evidenceMissing
  match nonterminalReplayFlag s trip.id with
  | some flag =>
      if flag.status ≠ .open ∨ flag.id ∈ s.disputes then return (s, flag, false)
      else
        let updated : FraudFlag := { flag with
          tripAnalyticsId := analytics.id
          assignmentId := trip.assignmentId
          campaignId := trip.campaignId
          driverProfileId := trip.driverProfileId
          vehicleId := trip.vehicleId
          evidence := evidence
          detectedAt := analytics.computedAt }
        return ({ s with flags := s.flags.map (fun row => if row.id = flag.id then updated else row) },
          updated, updated ≠ flag)
  | none =>
      let flag : FraudFlag := {
        id := s.nextFlagId
        tripSessionId := trip.id
        status := .open
        tripAnalyticsId := analytics.id
        assignmentId := trip.assignmentId
        campaignId := trip.campaignId
        driverProfileId := trip.driverProfileId
        vehicleId := trip.vehicleId
        evidence := evidence
        detectedAt := analytics.computedAt }
      return ({ s with
        flags := s.flags ++ [flag]
        notices := s.notices ++ [flag.id]
        nextFlagId := s.nextFlagId + 1 }, flag, true)

/-- The evidence against the latest member. -/
def replayEvidence (settings : Settings) (target : Member) (others : List Member) :
    ReplayEvidence :=
  { detectorVersion := settings.routeReplayDetectorVersion
    matchKind :=
      if ∃ member ∈ others, member.payloadFingerprint = target.payloadFingerprint then .identical
      else .timeShifted
    totalMatchCount := others.length
    crossAccountMatchCount := others.countP (·.driverProfileId ≠ target.driverProfileId)
    sampledMatchedTripIds := ((others.insertionSort (fun a b => a.key ≤ b.key)).map
      (·.tripId)).take settings.routeReplayMaxEvidenceMatches }

structure GroupResult where
  replayFlag : Option FraudFlag := none
  matchKind : Option ReplayKind := none
  changed : Bool := false
  deriving DecidableEq, Repr

/-- `_reconcile_group`. -/
def reconcileGroup (settings : Settings) (s : State) (group : GroupKey) :
    Except Refusal (State × GroupResult) :=
  match latestMember (groupMembers s group) with
  | none => .ok (s, {})
  | some target =>
      let others := (groupMembers s group).filter (fun member => member.tripId ≠ target.tripId)
      let evidence := replayEvidence settings target others
      if evidence.totalMatchCount = 0 ∨ evidence.crossAccountMatchCount = 0 then .ok (s, {})
      else do
        let (s, flag, changed) ← writeReplayFlag s target evidence
        return (s, { replayFlag := some flag, matchKind := some evidence.matchKind, changed := changed })

/-! ## The call -/

/-- A call: the trip and its analytics row, the number of its valid pings, and what the
fingerprints came to (`none`: the computation raised). -/
structure Detection where
  tripId : Id
  analyticsId : Id
  pointCount : Nat
  sourceFingerprint : Option Fingerprint
  route : Option RouteFingerprints
  now : Int
  /-- The trips whose scope another transaction holds. -/
  busy : List Id := []
  deriving DecidableEq, Repr

/-- What the trip's own evidence comes to. -/
structure Evaluation where
  status : RouteReplayStatus
  sourceFingerprint : Fingerprint
  fingerprints : Option RouteFingerprints
  errorCode : Option String
  deriving DecidableEq, Repr

def evaluate (settings : Settings) (analytics : TripAnalytics) (call : Detection) : Evaluation :=
  match call.sourceFingerprint with
  | none =>
      { status := .error
        sourceFingerprint := unavailableFingerprint
        fingerprints := none
        errorCode := some routeReplayErrorCode }
  | some source =>
      if call.pointCount < settings.routeReplayMinValidPings
          ∨ analytics.distanceM < settings.routeReplayMinDistanceM then
        { status := .insufficientData
          sourceFingerprint := source
          fingerprints := none
          errorCode := none }
      else
        match call.route with
        | none =>
            { status := .error
              sourceFingerprint := source
              fingerprints := none
              errorCode := some routeReplayErrorCode }
        | some fingerprints =>
            { status := .computed
              sourceFingerprint := source
              fingerprints := some fingerprints
              errorCode := none }

/-- The row the call writes; one that only repeats what is stored keeps its date. -/
def signatureRow (settings : Settings) (call : Detection) (evaluation : Evaluation)
    (existing : Option RouteReplaySignature) : RouteReplaySignature :=
  let row : RouteReplaySignature := {
    tripSessionId := call.tripId
    tripAnalyticsId := call.analyticsId
    status := evaluation.status
    detectorVersion := settings.routeReplayDetectorVersion
    detectorConfigFingerprint := settings.configFingerprint
    sourceAnalyticsFingerprint := evaluation.sourceFingerprint
    payloadFingerprint := evaluation.fingerprints.map (·.payloadFingerprint)
    normalizedFingerprint := evaluation.fingerprints.map (·.normalizedFingerprint)
    pointCount := call.pointCount
    errorCode := evaluation.errorCode
    computedAt := call.now }
  match existing with
  | none => row
  | some signature =>
      if { row with computedAt := signature.computedAt } = signature then signature else row

/-- `_upsert_signature`. -/
def upsertSignature (s : State) (row : RouteReplaySignature) : State :=
  match s.signatureForTrip row.tripSessionId with
  | none => { s with signatures := s.signatures ++ [row] }
  | some _ =>
      { s with signatures := s.signatures.map (fun signature =>
          if signature.tripSessionId = row.tripSessionId then row else signature) }

/-- The group a stored signature is in. -/
def RouteReplaySignature.group (signature : RouteReplaySignature) : Option GroupKey :=
  if signature.status = .computed then
    signature.normalizedFingerprint.map (fun normalized => (signature.detectorVersion, normalized))
  else none

structure RouteReplayResult where
  signature : RouteReplaySignature
  replayFlag : Option FraudFlag
  matchKind : Option ReplayKind
  changed : Bool
  deriving DecidableEq, Repr

/-- The groups are reconciled one after another; each result is kept with its group. -/
def reconcileGroups (settings : Settings) (s : State) (groups : List GroupKey) :
    Except Refusal (State × List (GroupKey × GroupResult)) :=
  checkedFold (fun (acc : State × List (GroupKey × GroupResult)) group => do
    let (s, result) ← reconcileGroup settings acc.1 group
    return (s, acc.2 ++ [(group, result)])) (s, []) groups

/-- `detect_route_replay`: the group the trip leaves is reconciled before the one it joins. -/
def detectRouteReplay (settings : Settings) (s : State) (call : Detection) :
    Except Refusal (State × RouteReplayResult) := do
  let _ ← demand (s.trip? call.tripId) .evidenceMissing
  let analytics ← demand (s.analytics? call.analyticsId) .evidenceMissing
  let evaluation := evaluate settings analytics call
  let old := s.signatureForTrip call.tripId
  let newGroup := evaluation.fingerprints.map (fun route =>
    (settings.routeReplayDetectorVersion, route.normalizedFingerprint))
  let groups := ((old.bind (·.group)).toList ++ newGroup.toList).dedup
  -- a busy member rolls the call back, to be tried again
  require (∀ group ∈ groups, ∀ member ∈ groupMembers s group, member.tripId ≠ call.tripId →
    member.tripId ∉ call.busy) .fraudScopeBusy
  let row := signatureRow settings call evaluation old
  let (s, results) ← reconcileGroups settings (upsertSignature s row) groups
  let current := ((results.find? (fun result => some result.1 = newGroup)).map (·.2)).getD {}
  return (s, {
    signature := row
    replayFlag := current.replayFlag
    matchKind := current.matchKind
    changed := decide (old ≠ some row) || results.any (·.2.changed) })

/-- The calls of the workers, one committed after another. -/
def detectAll (settings : Settings) (s : State) (calls : List Detection) : Except Refusal State :=
  checkedFold (fun s call => Prod.fst <$> detectRouteReplay settings s call) s calls

end Replay
end Mobility
