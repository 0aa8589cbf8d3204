import Mathlib.Data.List.Dedup
import Mobility.Basic
import Mobility.Lib.Machine
import Mobility.Retention.Calendar

/-!
# Purge — retention of the ping partitions (`run_ping_retention`)

A run works through a list of statements.  Each is committed before the next one starts,
so a run may stop between any two of them; a `DETACH ... CONCURRENTLY` is two, since it
leaves the detach pending in between.  The advisory lock admits one run at a time and is
given back when the run ends or its connection dies.
-/

namespace Mobility
namespace Retention

open Lib

/-! ## The catalog and the evidence -/

/-- The names that the partition pattern matches. -/
inductive PartitionName
  | month (year month : Nat)
  | legacy
  deriving DecidableEq, Repr

structure PartitionInfo where
  name : PartitionName
  lower : Moment
  upper : Moment
  detachPending : Bool
  deriving DecidableEq, Repr

inductive Attachment
  | attached
  /-- A concurrent detach was begun and not completed. -/
  | pending
  /-- Out of the partition tree; the catalog no longer holds its bounds. -/
  | standalone
  deriving DecidableEq, Repr

structure Table where
  name : PartitionName
  lower : Moment
  upper : Moment
  attachment : Attachment := .attached
  /-- The batch of each ping in the table. -/
  pings : List Id := []
  deriving DecidableEq, Repr

structure Batch where
  id : Id
  receivedAt : Moment
  deriving DecidableEq, Repr

inductive DataPurgeEvent
  | purgeStarted
  | detachFinalized
  | dropped
  | batchesPurged
  deriving DecidableEq, Repr

structure DataPurgeAudit where
  partitionName : Option PartitionName
  rangeFrom : Option Moment
  rangeTo : Option Moment
  event : DataPurgeEvent
  rowCount : Option Int
  retentionMonths : Nat
  jobRunId : Id
  deriving DecidableEq, Repr

def Table.info (table : Table) : PartitionInfo :=
  { name := table.name
    lower := table.lower
    upper := table.upper
    detachPending := table.attachment = .pending }

/-! ## Runs -/

/-- The statement a run makes next about a partition; the ones after it follow from it. -/
inductive Task
  | finalize (partition : PartitionInfo)
  | recordFinalized (partition : PartitionInfo)
  | start (partition : PartitionInfo)
  | detach (partition : PartitionInfo)
  | completeDetach (partition : PartitionInfo)
  | drop (partition : PartitionInfo)
  deriving DecidableEq, Repr

structure Run where
  jobRunId : Id
  now : Moment
  retentionMonths : Nat
  todo : List Task
  /-- The expired partitions were listed. -/
  scanned : Bool := false
  finalized : List PartitionName := []
  dropped : List PartitionName := []
  deriving DecidableEq, Repr

def Run.cutoff (run : Run) : Moment :=
  subtractCalendarMonths run.now run.retentionMonths

/-- What a run returned, or that it raised. -/
inductive Outcome
  | skipped
  | refusedDetachedOrphan (names : List PartitionName)
  | refusedPendingDetach (names : List PartitionName)
  | raised
  | completed (finalized dropped : List PartitionName) (batchesPurged : Nat)
  deriving DecidableEq, Repr

structure State where
  tables : List Table
  batches : List Batch := []
  audit : List DataPurgeAudit := []
  pingRetentionMonths : Nat
  run : Option Run := none
  outcomes : List Outcome := []
  deriving DecidableEq, Repr

/-! ## Reading the catalog and the evidence -/

def State.table? (s : State) (name : PartitionName) : Option Table :=
  s.tables.find? (·.name = name)

/-- `list_partitions`: the partition tree, by lower bound. -/
def listPartitions (s : State) : List PartitionInfo :=
  ((s.tables.filter (·.attachment ≠ .standalone)).map (·.info)).insertionSort
    (fun a b => a.lower ≤ b.lower)

/-- `_detached_orphans`. -/
def detachedOrphans (s : State) : List PartitionName :=
  (s.tables.filter (·.attachment = .standalone)).map (·.name)

def trail (audit : List DataPurgeAudit) (name : PartitionName) : List DataPurgeAudit :=
  audit.filter (·.partitionName = some name)

def hasDropped (audit : List DataPurgeAudit) (name : PartitionName) : Prop :=
  ∃ row ∈ audit, row.partitionName = some name ∧ row.event = .dropped

instance (audit : List DataPurgeAudit) (name : PartitionName) : Decidable (hasDropped audit name) :=
  inferInstanceAs (Decidable (∃ row ∈ audit, _ ∧ _))

/-- `_orphan_partition`: the bounds that the trail of a standalone table agrees on. -/
def orphanPartition (audit : List DataPurgeAudit) (name : PartitionName) :
    Except Unit (Option PartitionInfo) :=
  if hasDropped audit name then .error ⟨⟩
  else
    let started := (trail audit name).filter (·.event = .purgeStarted)
    if started = [] ∨ ∃ row ∈ started, row.rowCount.all (· < 0) then .ok none
    else
      match ((trail audit name).map (fun row => (row.rangeFrom, row.rangeTo))).dedup with
      | [(some lower, some upper)] =>
          if upper ≤ lower ∨ ¬ lower.Aligned ∨ ¬ upper.Aligned then .ok none
          else .ok (some { name := name, lower := lower, upper := upper, detachPending := false })
      | _ => .ok none

/-- `_has_matching_started_event`. -/
def HasMatchingStartedEvent (audit : List DataPurgeAudit) (partition : PartitionInfo) : Prop :=
  (∃ row ∈ audit, row.partitionName = some partition.name ∧ row.event = .purgeStarted
    ∧ row.rangeFrom = some partition.lower ∧ row.rangeTo = some partition.upper
    ∧ row.rowCount ≠ none)
  ∧ ¬ hasDropped audit partition.name

instance (audit : List DataPurgeAudit) (partition : PartitionInfo) :
    Decidable (HasMatchingStartedEvent audit partition) :=
  inferInstanceAs (Decidable ((∃ row ∈ audit, _ ∧ _) ∧ _))

/-- The row `_record_purge_event` adds for a partition. -/
def partitionEvent (run : Run) (partition : PartitionInfo) (event : DataPurgeEvent)
    (rowCount : Option Int) : DataPurgeAudit :=
  { partitionName := some partition.name
    rangeFrom := some partition.lower
    rangeTo := some partition.upper
    event := event
    rowCount := rowCount
    retentionMonths := run.retentionMonths
    jobRunId := run.jobRunId }

/-! ## Beginning a run -/

def State.finish (s : State) (outcome : Outcome) : State :=
  { s with run := none, outcomes := s.outcomes ++ [outcome] }

/-- The pending detach was begun by a run and is still past the cutoff. -/
def Authorized (s : State) (cutoff : Moment) (partition : PartitionInfo) : Prop :=
  HasMatchingStartedEvent s.audit partition ∧ partition.upper ≤ cutoff

instance (s : State) (cutoff : Moment) (partition : PartitionInfo) :
    Decidable (Authorized s cutoff partition) :=
  inferInstanceAs (Decidable (_ ∧ _))

/-- What recovery starts from: the detaches to finalize, then the tables to drop. -/
def recoveryTasks (orphans authorized : List PartitionInfo) : List Task :=
  authorized.map .finalize ++ (orphans ++ authorized).map .drop

/-- A run up to its first statement: what is half purged is classified, and one partition
that is not the job's to destroy refuses the run. -/
def beginRun (s : State) (jobRunId : Id) (now : Moment) : State :=
  let cutoff := subtractCalendarMonths now s.pingRetentionMonths
  let pending := (listPartitions s).filter (·.detachPending)
  match checkedMap (orphanPartition s.audit) (detachedOrphans s) with
  | .error _ => s.finish .raised
  | .ok orphans =>
      let refusedOrphans := ((detachedOrphans s).zip orphans).filter
        (fun orphan => orphan.2.all (cutoff < ·.upper))
      let refused := pending.filter (¬ Authorized s cutoff ·)
      if refusedOrphans ≠ [] then s.finish (.refusedDetachedOrphan (refusedOrphans.map (·.1)))
      else if refused ≠ [] then s.finish (.refusedPendingDetach (refused.map (·.name)))
      else
        { s with run := some {
            jobRunId := jobRunId
            now := now
            retentionMonths := s.pingRetentionMonths
            todo := recoveryTasks (orphans.filterMap id)
              (pending.filter (Authorized s cutoff ·)) } }

/-! ## The statements -/

def State.setAttachment (s : State) (name : PartitionName) (attachment : Attachment) : State :=
  { s with tables := s.tables.map (fun table =>
      if table.name = name then { table with attachment := attachment } else table) }

def State.record (s : State) (row : DataPurgeAudit) : State :=
  { s with audit := s.audit ++ [row] }

/-- The batches with no visible ping that arrived before the cutoff. -/
def State.deadBatches (s : State) (cutoff : Moment) : List Batch :=
  s.batches.filter (fun batch =>
    (∀ table ∈ s.tables, table.attachment = .attached → batch.id ∉ table.pings)
      ∧ batch.receivedAt < cutoff)

/-- The next statement of the run; a statement that raises ends it. -/
def nextStatement (s : State) (run : Run) : State :=
  match run.todo with
  | .finalize partition :: rest =>
      if (s.table? partition.name).any (·.attachment = .pending) then
        { s.setAttachment partition.name .standalone with
          run := some { run with todo := .recordFinalized partition :: rest } }
      else s.finish .raised
  | .recordFinalized partition :: rest =>
      { s.record (partitionEvent run partition .detachFinalized none) with
        run := some { run with
          todo := rest
          finalized := run.finalized ++ [partition.name] } }
  | .start partition :: rest =>
      match s.table? partition.name with
      | none => s.finish .raised
      | some table =>
          { s.record (partitionEvent run partition .purgeStarted (some table.pings.length)) with
            run := some { run with todo := .detach partition :: rest } }
  | .detach partition :: rest =>
      -- one detach of a parent may be pending at a time
      if (s.table? partition.name).any (·.attachment = .attached)
          ∧ ∀ table ∈ s.tables, table.attachment ≠ .pending then
        { s.setAttachment partition.name .pending with
          run := some { run with todo := .completeDetach partition :: rest } }
      else s.finish .raised
  | .completeDetach partition :: rest =>
      if (s.table? partition.name).any (·.attachment = .pending) then
        { s.setAttachment partition.name .standalone with
          run := some { run with todo := .drop partition :: rest } }
      else s.finish .raised
  | .drop partition :: rest =>
      if run.cutoff < partition.upper ∨ hasDropped s.audit partition.name
          ∨ s.table? partition.name = none then s.finish .raised
      else
        { s.record (partitionEvent run partition .dropped none) with
          tables := s.tables.filter (·.name ≠ partition.name)
          run := some { run with todo := rest, dropped := run.dropped ++ [partition.name] } }
  | [] =>
      if run.scanned then
        let dead := s.deadBatches run.cutoff
        let row : DataPurgeAudit := {
          partitionName := none
          rangeFrom := none
          rangeTo := none
          event := .batchesPurged
          rowCount := some dead.length
          retentionMonths := run.retentionMonths
          jobRunId := run.jobRunId }
        State.finish { s with
          batches := s.batches.filter (· ∉ dead)
          audit := if dead = [] then s.audit else s.audit ++ [row] }
          (.completed run.finalized run.dropped dead.length)
      else
        let expired := (listPartitions s).filter (·.upper ≤ run.cutoff)
        { s with run := some { run with todo := expired.map .start, scanned := true } }

/-! ## Histories -/

inductive Action
  | begin (jobRunId : Id) (now : Moment)
  | next
  /-- The run's process or connection dies. -/
  | crash
  | setRetention (months : Nat)
  | manualDetach (name : PartitionName)
  | manualDetachConcurrently (name : PartitionName)
  | manualFinalize (name : PartitionName)
  deriving DecidableEq, Repr

def step (s : State) : Action → Except Unit State
  | .begin jobRunId now =>
      if s.run = none then .ok (beginRun s jobRunId now)
      else .ok { s with outcomes := s.outcomes ++ [.skipped] }
  | .next => do
      let run ← demand s.run ⟨⟩
      return nextStatement s run
  | .crash => .ok { s with run := none }
  | .setRetention months => do
      require (1 ≤ months) ⟨⟩
      return { s with pingRetentionMonths := months }
  | .manualDetach name => do
      require ((s.table? name).any (·.attachment = .attached) = true) ⟨⟩
      return s.setAttachment name .standalone
  | .manualDetachConcurrently name => do
      require ((s.table? name).any (·.attachment = .attached) = true
        ∧ ∀ table ∈ s.tables, table.attachment ≠ .pending) ⟨⟩
      return s.setAttachment name .pending
  | .manualFinalize name => do
      require ((s.table? name).any (·.attachment = .pending) = true) ⟨⟩
      return s.setAttachment name .standalone

/-- The partitions of a new installation. -/
structure Catalog where
  tables : List Table
  names : (tables.map (·.name)).Nodup
  attached : ∀ table ∈ tables, table.attachment = .attached
  aligned : ∀ table ∈ tables, table.lower.Aligned ∧ table.upper.Aligned
  bounds : ∀ table ∈ tables, table.lower < table.upper

def retention (catalog : Catalog) (batches : List Batch) (months : Nat) :
    Machine State Action Unit :=
  { init := { tables := catalog.tables, batches := batches, pingRetentionMonths := months }
    step := step }

end Retention
end Mobility
