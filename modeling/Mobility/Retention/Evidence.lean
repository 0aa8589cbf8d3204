import Mobility.Lib.Table
import Mobility.Retention.Purge

/-!
# Evidence — a partition is destroyed only on the trail that claims it

The invariant speaks of the tables and the evidence rows, and of what backs each statement
a run still has to make: every one but the first of a partition has a committed
`purge_started` row with the partition's own bounds.
-/

namespace Mobility
namespace Retention

open Lib

variable {catalog : Catalog} {s s' : State} {run : Run}

/-! ## The invariant -/

/-- The catalog gave the partition these bounds. -/
def Exact (catalog : Catalog) (name : PartitionName) (lower upper : Moment) : Prop :=
  ∃ table ∈ catalog.tables, table.name = name ∧ table.lower = lower ∧ table.upper = upper

/-- A `purge_started` row claims the partition, with its bounds and a row count. -/
def Started (audit : List DataPurgeAudit) (name : PartitionName) (lower upper : Moment) : Prop :=
  ∃ row ∈ audit, row.partitionName = some name ∧ row.event = .purgeStarted
    ∧ row.rangeFrom = some lower ∧ row.rangeTo = some upper ∧ ∃ count, row.rowCount = some count

def Task.partition : Task → PartitionInfo
  | .finalize partition | .recordFinalized partition | .start partition
  | .detach partition | .completeDetach partition | .drop partition => partition

/-- The statement is about a partition of the catalog, and only counting its rows comes
before the claim. -/
structure Backed (catalog : Catalog) (audit : List DataPurgeAudit) (task : Task) : Prop where
  exact : Exact catalog task.partition.name task.partition.lower task.partition.upper
  started : task = .start task.partition
    ∨ Started audit task.partition.name task.partition.lower task.partition.upper

structure Accounted (catalog : Catalog) (tables : List Table) (audit : List DataPurgeAudit) :
    Prop where
  names : (tables.map (·.name)).Nodup
  bounds : ∀ table ∈ tables, Exact catalog table.name table.lower table.upper
  trail : ∀ row ∈ audit, ∀ name, row.partitionName = some name →
    ∃ lower upper, Exact catalog name lower upper ∧ row.rangeFrom = some lower
      ∧ row.rangeTo = some upper
  counted : ∀ row ∈ audit, row.event = .purgeStarted → ∃ count, row.rowCount = some count ∧ 0 ≤ count
  gone : ∀ known ∈ catalog.tables, hasDropped audit known.name ↔
    ∀ table ∈ tables, table.name ≠ known.name
  once : ((audit.filter (·.event = .dropped)).map (·.partitionName)).Nodup

structure Sound (catalog : Catalog) (s : State) : Prop where
  accounted : Accounted catalog s.tables s.audit
  backed : ∀ run, s.run = some run → ∀ task ∈ run.todo, Backed catalog s.audit task

theorem Exact.unique {name : PartitionName} {lower lower' upper upper' : Moment}
    (h : Exact catalog name lower upper) (h' : Exact catalog name lower' upper') :
    lower = lower' ∧ upper = upper' := by
  rcases h with ⟨table, htable, hname, rfl, rfl⟩
  rcases h' with ⟨table', htable', hname', rfl, rfl⟩
  rcases eq_of_key_eq catalog.names htable htable' (hname.trans hname'.symm) with rfl
  exact ⟨rfl, rfl⟩

theorem Exact.aligned {name : PartitionName} {lower upper : Moment}
    (h : Exact catalog name lower upper) :
    lower.Aligned ∧ upper.Aligned ∧ lower < upper := by
  rcases h with ⟨table, htable, _, rfl, rfl⟩
  exact ⟨(catalog.aligned table htable).1, (catalog.aligned table htable).2,
    catalog.bounds table htable⟩

theorem Started.append {audit : List DataPurgeAudit} {name : PartitionName} {lower upper : Moment}
    (h : Started audit name lower upper) (rows : List DataPurgeAudit) :
    Started (audit ++ rows) name lower upper := by
  rcases h with ⟨row, hrow, hclaims⟩
  exact ⟨row, List.mem_append_left _ hrow, hclaims⟩

theorem Backed.append {audit : List DataPurgeAudit} {task : Task} (h : Backed catalog audit task)
    (rows : List DataPurgeAudit) : Backed catalog (audit ++ rows) task where
  exact := h.exact
  started := h.started.imp_right (·.append rows)

theorem hasDropped_append {audit : List DataPurgeAudit} {name : PartitionName}
    {row : DataPurgeAudit} :
    hasDropped (audit ++ [row]) name ↔
      hasDropped audit name ∨ row.partitionName = some name ∧ row.event = .dropped := by
  simp [hasDropped, or_and_right, exists_or]

/-- The rows with a drop are what a name's drop is read from. -/
theorem hasDropped_iff {audit : List DataPurgeAudit} {name : PartitionName} :
    hasDropped audit name ↔
      some name ∈ (audit.filter (·.event = .dropped)).map (·.partitionName) := by
  simp only [hasDropped, List.mem_map, List.mem_filter, decide_eq_true_eq]
  refine exists_congr ?_
  intro row
  tauto

/-! ## What the writes keep -/

theorem mem_setAttachment {name : PartitionName} {attachment : Attachment} {table' : Table}
    (h : table' ∈ (s.setAttachment name attachment).tables) :
    ∃ table ∈ s.tables, table'.name = table.name ∧ table'.lower = table.lower
      ∧ table'.upper = table.upper
      ∧ (table.name = name ∧ table'.attachment = attachment
        ∨ table.name ≠ name ∧ table' = table) := by
  rcases List.mem_map.mp h with ⟨table, htable, rfl⟩
  refine ⟨table, htable, ?_⟩
  split_ifs with hname
  · exact ⟨rfl, rfl, rfl, .inl ⟨hname, rfl⟩⟩
  · exact ⟨rfl, rfl, rfl, .inr ⟨hname, rfl⟩⟩

theorem setAttachment_names (s : State) (name : PartitionName) (attachment : Attachment) :
    (s.setAttachment name attachment).tables.map (·.name) = s.tables.map (·.name) := by
  refine keys_of_map _ _ _ ?_
  intro table
  split_ifs <;> rfl

/-- Attaching and detaching touches neither names nor bounds. -/
theorem Accounted.setAttachment (h : Accounted catalog s.tables s.audit) (name : PartitionName)
    (attachment : Attachment) : Accounted catalog (s.setAttachment name attachment).tables s.audit := by
  have hnames := setAttachment_names s name attachment
  refine {
    names := hnames ▸ h.names
    bounds := ?_
    trail := h.trail
    counted := h.counted
    gone := ?_
    once := h.once }
  · intro table' htable'
    rcases mem_setAttachment htable' with ⟨table, htable, hname, hlower, hupper, _⟩
    rw [hname, hlower, hupper]
    exact h.bounds table htable
  · intro known hknown
    have hmem : ∀ tables : List Table, (∀ table ∈ tables, table.name ≠ known.name) ↔
        known.name ∉ tables.map (·.name) := by
      intro tables
      simp only [List.mem_map, not_exists, not_and]
    rw [h.gone known hknown, hmem, hmem, hnames]

/-- A row that is not a drop, about a partition of the catalog or about none. -/
theorem Accounted.record {tables : List Table} {audit : List DataPurgeAudit}
    (h : Accounted catalog tables audit) {row : DataPurgeAudit} (hevent : row.event ≠ .dropped)
    (hbounds : ∀ name, row.partitionName = some name → ∃ lower upper,
      Exact catalog name lower upper ∧ row.rangeFrom = some lower ∧ row.rangeTo = some upper)
    (hcount : row.event = .purgeStarted → ∃ count, row.rowCount = some count ∧ 0 ≤ count) :
    Accounted catalog tables (audit ++ [row]) where
  names := h.names
  bounds := h.bounds
  trail := by
    intro other hother
    rcases List.mem_append.mp hother with hother | hother
    · exact h.trail other hother
    · exact List.mem_singleton.mp hother ▸ hbounds
  counted := by
    intro other hother
    rcases List.mem_append.mp hother with hother | hother
    · exact h.counted other hother
    · exact List.mem_singleton.mp hother ▸ hcount
  gone := by
    intro known hknown
    rw [hasDropped_append, ← h.gone known hknown]
    simp [hevent]
  once := by simpa [List.filter_append, hevent] using h.once

/-- A drop and its row. -/
theorem Accounted.drop {tables : List Table} {audit : List DataPurgeAudit}
    (h : Accounted catalog tables audit) {row : DataPurgeAudit} {name : PartitionName}
    (hname : row.partitionName = some name) (hevent : row.event = .dropped)
    (hbounds : ∃ lower upper, Exact catalog name lower upper ∧ row.rangeFrom = some lower
      ∧ row.rangeTo = some upper)
    (hfresh : ¬ hasDropped audit name) :
    Accounted catalog (tables.filter (·.name ≠ name)) (audit ++ [row]) where
  names := h.names.sublist (List.filter_sublist.map _)
  bounds := fun table htable => h.bounds table (List.mem_filter.mp htable).1
  trail := by
    intro other hother known hknown
    rcases List.mem_append.mp hother with hother | hother
    · exact h.trail other hother known hknown
    · rw [List.mem_singleton.mp hother] at hknown ⊢
      exact Option.some.inj (hname.symm.trans hknown) ▸ hbounds
  counted := by
    intro other hother
    rcases List.mem_append.mp hother with hother | hother
    · exact h.counted other hother
    · rw [List.mem_singleton.mp hother, hevent]
      exact fun habsurd => absurd habsurd (by simp)
  gone := by
    intro known hknown
    rw [hasDropped_append, h.gone known hknown, hname, hevent]
    simp only [List.mem_filter, decide_not, Bool.not_eq_true', decide_eq_false_iff_not,
      Option.some.injEq, and_true]
    constructor
    · rintro (hgone | rfl) table htable
      · exact hgone table htable.1
      · exact htable.2
    · intro hgone
      -- a partition is gone when its table is dropped now or was before
      by_cases hsame : name = known.name
      · exact .inr hsame
      · refine .inl ?_
        intro table htable hknownName
        exact hgone table ⟨htable, fun heq => hsame (heq.symm.trans hknownName)⟩ hknownName
  once := by
    rw [List.filter_append, List.map_append, List.nodup_append]
    refine ⟨h.once, ?_, ?_⟩
    · simp [hevent]
    · intro known hknown other hother heq
      have hrow : other = some name := by simpa [hevent, hname] using hother
      exact hfresh (hasDropped_iff.mpr (hrow ▸ heq ▸ hknown))

/-! ## Beginning a run -/

theorem mem_listPartitions {partition : PartitionInfo} :
    partition ∈ listPartitions s ↔
      ∃ table ∈ s.tables, table.attachment ≠ .standalone ∧ table.info = partition := by
  simp [listPartitions, and_assoc]

/-- The trail's bounds are the catalog's, and the trail claims the partition. -/
theorem orphanPartition_started {tables : List Table} {audit : List DataPurgeAudit}
    {name : PartitionName} {partition : PartitionInfo} (h : Accounted catalog tables audit)
    (horphan : orphanPartition audit name = .ok (some partition)) :
    partition.name = name ∧ Exact catalog name partition.lower partition.upper
      ∧ Started audit name partition.lower partition.upper := by
  unfold orphanPartition at horphan
  dsimp only at horphan
  rcases ite_eq_ok.mp horphan with ⟨_, horphan⟩ | ⟨_, horphan⟩
  · cases horphan
  rcases ite_eq_ok.mp horphan with ⟨_, horphan⟩ | ⟨hstarted, horphan⟩
  · cases horphan
  rcases not_or.mp hstarted with ⟨hsome, _⟩
  rcases List.exists_mem_of_ne_nil _ hsome with ⟨row, hrow⟩
  rcases List.mem_filter.mp hrow with ⟨htrail, hevent⟩
  rcases List.mem_filter.mp htrail with ⟨hmem, hname⟩
  have hname : row.partitionName = some name := by simpa using hname
  have hevent : row.event = .purgeStarted := by simpa using hevent
  split at horphan
  · rename_i lower upper hbounds
    rcases ite_eq_ok.mp horphan with ⟨_, horphan⟩ | ⟨_, horphan⟩
    · cases horphan
    rcases Option.some.inj (Except.ok.inj horphan) with rfl
    have hrowBounds : (row.rangeFrom, row.rangeTo) ∈
        ((trail audit name).map (fun row => (row.rangeFrom, row.rangeTo))).dedup :=
      List.mem_dedup.mpr (List.mem_map.mpr ⟨row, htrail, rfl⟩)
    rw [hbounds, List.mem_singleton, Prod.mk.injEq] at hrowBounds
    rcases h.trail row hmem name hname with ⟨lower', upper', hexact, hfrom, hto⟩
    have hlower : lower' = lower := Option.some.inj (hfrom.symm.trans hrowBounds.1)
    have hupper : upper' = upper := Option.some.inj (hto.symm.trans hrowBounds.2)
    rcases h.counted row hmem hevent with ⟨count, hcount, _⟩
    exact ⟨rfl, hlower ▸ hupper ▸ hexact,
      row, hmem, hname, hevent, hrowBounds.1, hrowBounds.2, count, hcount⟩
  · cases horphan

/-- What a begun run does before its first statement. -/
inductive Begins (s : State) (jobRunId : Id) (now : Moment) : State → Prop
  | refuse (outcome : Outcome) : Begins s jobRunId now (s.finish outcome)
  | work (orphans : List (Option PartitionInfo))
      (horphans : checkedMap (orphanPartition s.audit) (detachedOrphans s) = .ok orphans)
      (hexpired : ∀ orphan ∈ (detachedOrphans s).zip orphans,
        ∃ partition, orphan.2 = some partition
          ∧ partition.upper ≤ subtractCalendarMonths now s.pingRetentionMonths)
      (hauthorized : ∀ partition ∈ listPartitions s, partition.detachPending = true →
        Authorized s (subtractCalendarMonths now s.pingRetentionMonths) partition) :
      Begins s jobRunId now { s with run := some {
        jobRunId := jobRunId
        now := now
        retentionMonths := s.pingRetentionMonths
        todo := recoveryTasks (orphans.filterMap id)
          (((listPartitions s).filter (·.detachPending)).filter
            (Authorized s (subtractCalendarMonths now s.pingRetentionMonths) ·)) } }

theorem beginRun_begins (s : State) (jobRunId : Id) (now : Moment) :
    Begins s jobRunId now (beginRun s jobRunId now) := by
  unfold beginRun
  dsimp only
  split
  · exact .refuse _
  · rename_i orphans horphans
    split_ifs with hrefusedOrphans hrefused
    · exact .refuse _
    · exact .refuse _
    · refine .work orphans horphans ?_ ?_
      · intro orphan horphan
        have hkept := List.filter_eq_nil_iff.mp (not_not.mp hrefusedOrphans) orphan horphan
        cases hpartition : orphan.2 with
        | none => simp [hpartition] at hkept
        | some partition => exact ⟨partition, rfl, by simpa [hpartition] using hkept⟩
      · intro partition hpartition hpending
        have hkept := List.filter_eq_nil_iff.mp (not_not.mp hrefused) partition
          (List.mem_filter.mpr ⟨hpartition, hpending⟩)
        simpa using hkept

/-! ## Statements -/

/-- What the next statement of a run does. -/
inductive Statement (s : State) (run : Run) : State → Prop
  | raise : Statement s run (s.finish .raised)
  | finalize (partition : PartitionInfo) (rest : List Task)
      (htodo : run.todo = .finalize partition :: rest) :
      Statement s run { s.setAttachment partition.name .standalone with
        run := some { run with todo := .recordFinalized partition :: rest } }
  | recordFinalized (partition : PartitionInfo) (rest : List Task)
      (htodo : run.todo = .recordFinalized partition :: rest) :
      Statement s run { s.record (partitionEvent run partition .detachFinalized none) with
        run := some { run with
          todo := rest
          finalized := run.finalized ++ [partition.name] } }
  | start (partition : PartitionInfo) (rest : List Task) (table : Table)
      (htodo : run.todo = .start partition :: rest) :
      Statement s run
        { s.record (partitionEvent run partition .purgeStarted (some table.pings.length)) with
          run := some { run with todo := .detach partition :: rest } }
  | detach (partition : PartitionInfo) (rest : List Task)
      (htodo : run.todo = .detach partition :: rest) :
      Statement s run { s.setAttachment partition.name .pending with
        run := some { run with todo := .completeDetach partition :: rest } }
  | completeDetach (partition : PartitionInfo) (rest : List Task)
      (htodo : run.todo = .completeDetach partition :: rest) :
      Statement s run { s.setAttachment partition.name .standalone with
        run := some { run with todo := .drop partition :: rest } }
  | drop (partition : PartitionInfo) (rest : List Task)
      (htodo : run.todo = .drop partition :: rest) (hcutoff : partition.upper ≤ run.cutoff)
      (hfresh : ¬ hasDropped s.audit partition.name) :
      Statement s run { s.record (partitionEvent run partition .dropped none) with
        tables := s.tables.filter (·.name ≠ partition.name)
        run := some { run with todo := rest, dropped := run.dropped ++ [partition.name] } }
  | scan (htodo : run.todo = []) (hscanned : run.scanned = false) :
      Statement s run { s with run := some { run with
        todo := ((listPartitions s).filter (·.upper ≤ run.cutoff)).map .start
        scanned := true } }
  | complete (outcome : Outcome) (batches : List Batch) (rows : List DataPurgeAudit)
      (hrows : ∀ row ∈ rows, row.partitionName = none ∧ row.event = .batchesPurged)
      (hone : rows.length ≤ 1) :
      Statement s run (State.finish { s with batches := batches, audit := s.audit ++ rows } outcome)

theorem nextStatement_statement (s : State) (run : Run) :
    Statement s run (nextStatement s run) := by
  unfold nextStatement
  split
  · split_ifs
    · exact .finalize _ _ ‹_›
    · exact .raise
  · exact .recordFinalized _ _ ‹_›
  · split
    · exact .raise
    · exact .start _ _ _ ‹_›
  · split_ifs
    · exact .detach _ _ ‹_›
    · exact .raise
  · split_ifs
    · exact .completeDetach _ _ ‹_›
    · exact .raise
  · split_ifs with hrefused
    · exact .raise
    · rcases not_or.mp hrefused with ⟨hcutoff, hrefused⟩
      exact .drop _ _ ‹_› (not_lt.mp hcutoff) (not_or.mp hrefused).1
  · split_ifs with hscanned
    · dsimp only
      split_ifs
      · have hstate := @Statement.complete s run
          (.completed run.finalized run.dropped (s.deadBatches run.cutoff).length)
          (s.batches.filter (· ∉ s.deadBatches run.cutoff)) [] (by simp) (by simp)
        simpa using hstate
      · exact .complete _ _ [_] (by simp) (by simp)
    · exact .scan ‹_› (by simpa using hscanned)

/-! ## Steps -/

theorem mem_recoveryTasks {orphans authorized : List PartitionInfo} {task : Task}
    (h : task ∈ recoveryTasks orphans authorized) :
    task ≠ .start task.partition
      ∧ (task.partition ∈ orphans ∨ task.partition ∈ authorized) := by
  rcases List.mem_append.mp h with h | h
  · rcases List.mem_map.mp h with ⟨partition, hpartition, rfl⟩
    exact ⟨by simp, .inr hpartition⟩
  · rcases List.mem_map.mp h with ⟨partition, hpartition, rfl⟩
    exact ⟨by simp, List.mem_append.mp hpartition⟩

/-- The statements of a new run are backed by the trail they were chosen on. -/
theorem Begins.backed (h : Accounted catalog s.tables s.audit) {jobRunId : Id} {now : Moment}
    (hbegins : Begins s jobRunId now s') :
    s'.tables = s.tables ∧ s'.audit = s.audit
      ∧ ∀ run, s'.run = some run → ∀ task ∈ run.todo, Backed catalog s'.audit task := by
  cases hbegins with
  | refuse outcome => exact ⟨rfl, rfl, fun run hrun => absurd hrun (by simp [State.finish])⟩
  | work orphans horphans hexpired hauthorized =>
      refine ⟨rfl, rfl, ?_⟩
      intro run hrun task htask
      rcases Option.some.inj hrun with rfl
      rcases mem_recoveryTasks htask with ⟨hnotStart, hpartition | hpartition⟩
      · rcases List.mem_filterMap.mp hpartition with ⟨orphan, horphan, hsome⟩
        rcases exists_of_mem_forall₂ (checkedMap_forall₂ horphans) horphan with ⟨name, _, hread⟩
        have hsome : orphan = some task.partition := hsome
        rw [hsome] at hread
        rcases orphanPartition_started h hread with ⟨hname, hexact, hstarted⟩
        exact ⟨hname ▸ hexact, .inr (hname ▸ hstarted)⟩
      · rcases List.mem_filter.mp hpartition with ⟨hlisted, hauthorized⟩
        rcases mem_listPartitions.mp (List.mem_filter.mp hlisted).1 with ⟨table, htable, _, hinfo⟩
        have hclaim : Authorized s _ task.partition := of_decide_eq_true hauthorized
        rcases hclaim.1.1 with ⟨row, hrow, hname, hevent, hfrom, hto, hcount⟩
        refine ⟨hinfo ▸ h.bounds table htable, .inr ⟨row, hrow, hname, hevent, hfrom, hto, ?_⟩⟩
        exact Option.ne_none_iff_exists'.mp hcount

/-- The head of the list is replaced, the evidence grows. -/
theorem backed_advance {audit : List DataPurgeAudit} {todo rest : List Task}
    (h : ∀ task ∈ todo, Backed catalog audit task) (hrest : ∀ task ∈ rest, task ∈ todo)
    (rows : List DataPurgeAudit) {task : Task} (htask : Backed catalog (audit ++ rows) task) :
    ∀ other ∈ task :: rest, Backed catalog (audit ++ rows) other := by
  intro other hother
  rcases List.mem_cons.mp hother with rfl | hother
  · exact htask
  · exact (h other (hrest other hother)).append rows

theorem Sound.statement (h : Sound catalog s) (hrun : s.run = some run)
    (hstatement : Statement s run s') : Sound catalog s' := by
  have hbacked := h.backed run hrun
  -- a task that replaces the head about the same partition, with the claim made
  have hnext : ∀ {head next : Task} {rest : List Task}, run.todo = head :: rest →
      head ≠ .start head.partition → next.partition = head.partition →
        ∀ task ∈ next :: rest, Backed catalog s.audit task := by
    intro head next rest htodo hhead hsame
    have hheadBacked := hbacked head (htodo ▸ List.mem_cons_self)
    have hnextBacked : Backed catalog s.audit next :=
      ⟨hsame ▸ hheadBacked.exact, .inr (hsame ▸ hheadBacked.started.resolve_left hhead)⟩
    have hrest : ∀ task ∈ rest, task ∈ run.todo :=
      fun task htask => htodo ▸ List.mem_cons_of_mem _ htask
    simpa using backed_advance hbacked hrest [] (by simpa using hnextBacked)
  cases hstatement with
  | raise => exact ⟨h.accounted, fun _ hnone => absurd hnone (by simp [State.finish])⟩
  | finalize partition rest htodo =>
      refine ⟨h.accounted.setAttachment _ _, ?_⟩
      intro run' hrun'
      rcases Option.some.inj hrun' with rfl
      exact hnext htodo (by simp) rfl
  | recordFinalized partition rest htodo =>
      have hexact := (hbacked _ (htodo ▸ List.mem_cons_self)).exact
      refine ⟨h.accounted.record (by simp [partitionEvent]) ?_ (by simp [partitionEvent]), ?_⟩
      · intro name hname
        rcases Option.some.inj hname with rfl
        exact ⟨_, _, hexact, rfl, rfl⟩
      · intro run' hrun' task htask
        rcases Option.some.inj hrun' with rfl
        exact (hbacked task (htodo ▸ List.mem_cons_of_mem _ htask)).append _
  | start partition rest table htodo =>
      have hexact := (hbacked _ (htodo ▸ List.mem_cons_self)).exact
      refine ⟨h.accounted.record (by simp [partitionEvent]) ?_ ?_, ?_⟩
      · intro name hname
        rcases Option.some.inj hname with rfl
        exact ⟨_, _, hexact, rfl, rfl⟩
      · exact fun _ => ⟨_, rfl, Int.natCast_nonneg _⟩
      · intro run' hrun'
        rcases Option.some.inj hrun' with rfl
        refine backed_advance hbacked (fun task htask => htodo ▸ List.mem_cons_of_mem _ htask) _ ?_
        -- the row that was just written is the claim
        exact ⟨hexact, .inr ⟨_, List.mem_append_right _ (List.mem_singleton.mpr rfl), rfl, rfl, rfl,
          rfl, _, rfl⟩⟩
  | detach partition rest htodo =>
      refine ⟨h.accounted.setAttachment _ _, ?_⟩
      intro run' hrun'
      rcases Option.some.inj hrun' with rfl
      exact hnext htodo (by simp) rfl
  | completeDetach partition rest htodo =>
      refine ⟨h.accounted.setAttachment _ _, ?_⟩
      intro run' hrun'
      rcases Option.some.inj hrun' with rfl
      exact hnext htodo (by simp) rfl
  | drop partition rest htodo hcutoff hfresh =>
      have hexact := (hbacked _ (htodo ▸ List.mem_cons_self)).exact
      refine ⟨h.accounted.drop rfl rfl ⟨_, _, hexact, rfl, rfl⟩ hfresh, ?_⟩
      intro run' hrun' task htask
      rcases Option.some.inj hrun' with rfl
      exact (hbacked task (htodo ▸ List.mem_cons_of_mem _ htask)).append _
  | scan htodo hscanned =>
      refine ⟨h.accounted, ?_⟩
      intro run' hrun' task htask
      rcases Option.some.inj hrun' with rfl
      rcases List.mem_map.mp htask with ⟨partition, hpartition, rfl⟩
      rcases mem_listPartitions.mp (List.mem_filter.mp hpartition).1 with ⟨table, htable, _, hinfo⟩
      exact ⟨hinfo ▸ h.accounted.bounds table htable, .inl rfl⟩
  | complete outcome batches rows hrows hone =>
      refine ⟨?_, fun _ hnone => absurd hnone (by simp [State.finish])⟩
      rcases rows with _ | ⟨row, rest⟩
      · simpa [State.finish] using h.accounted
      · have hrest : rest = [] := by simpa using hone
        have hrow := hrows row List.mem_cons_self
        rw [hrest]
        exact h.accounted.record (by simp [hrow.2]) (by simp [hrow.1]) (by simp [hrow.2])

theorem Sound.setAttachment (h : Sound catalog s) (name : PartitionName)
    (attachment : Attachment) : Sound catalog (s.setAttachment name attachment) :=
  ⟨h.accounted.setAttachment name attachment, h.backed⟩

theorem sound_step {action : Action} (h : Sound catalog s) (hstep : step s action = .ok s') :
    Sound catalog s' := by
  cases action with
  | begin jobRunId now =>
      rcases ite_eq_ok.mp hstep with ⟨_, hstep⟩ | ⟨_, hstep⟩
      · rcases Except.ok.inj hstep with rfl
        rcases (beginRun_begins s jobRunId now).backed h.accounted with ⟨htables, haudit, hbacked⟩
        exact ⟨by rw [htables, haudit]; exact h.accounted, hbacked⟩
      · rcases Except.ok.inj hstep with rfl
        exact ⟨h.accounted, h.backed⟩
  | next =>
      rcases bind_eq_ok.mp hstep with ⟨run, hrun, hstep⟩
      rcases pure_eq_ok.mp hstep with rfl
      exact h.statement (demand_eq_ok.mp hrun) (nextStatement_statement s run)
  | crash =>
      rcases Except.ok.inj hstep with rfl
      exact ⟨h.accounted, fun _ hnone => by cases hnone⟩
  | setRetention months =>
      rcases bind_eq_ok.mp hstep with ⟨_, _, hstep⟩
      rcases pure_eq_ok.mp hstep with rfl
      exact ⟨h.accounted, h.backed⟩
  | manualDetach name | manualDetachConcurrently name | manualFinalize name =>
      rcases bind_eq_ok.mp hstep with ⟨_, _, hstep⟩
      rcases pure_eq_ok.mp hstep with rfl
      exact h.setAttachment _ _

theorem Sound.init (catalog : Catalog) (batches : List Batch) (months : Nat) :
    Sound catalog (retention catalog batches months).init where
  accounted := {
    names := catalog.names
    bounds := fun table htable => ⟨table, htable, rfl, rfl, rfl⟩
    trail := fun _ hrow => absurd hrow List.not_mem_nil
    counted := fun _ hrow => absurd hrow List.not_mem_nil
    gone := by
      intro known hknown
      refine ⟨?_, fun hgone => absurd rfl (hgone known hknown)⟩
      rintro ⟨row, hrow, _⟩
      exact absurd hrow List.not_mem_nil
    once := List.nodup_nil }
  backed := fun _ hnone => by cases hnone

theorem sound_of_reachable {batches : List Batch} {months : Nat}
    (h : Reachable (retention catalog batches months) s) : Sound catalog s :=
  ReachableBy.invariant (Sound catalog) (.init catalog batches months)
    (fun _ _ _ hsound _ hstep => sound_step hsound hstep) h

/-! ## Destruction -/

/-- Only a drop changes which tables there are. -/
theorem Statement.destroyed (h : Sound catalog s) (hrun : s.run = some run)
    (hstatement : Statement s run s') {table : Table} (htable : table ∈ s.tables)
    (hgone : ∀ other ∈ s'.tables, other.name ≠ table.name) :
    table.upper ≤ run.cutoff ∧ Started s.audit table.name table.lower table.upper
      ∧ ¬ hasDropped s.audit table.name
      ∧ ∃ row, s'.audit = s.audit ++ [row] ∧ row.partitionName = some table.name
          ∧ row.event = .dropped ∧ row.rangeFrom = some table.lower
          ∧ row.rangeTo = some table.upper := by
  have hattached : ∀ (name : PartitionName) (attachment : Attachment),
      ¬ ∀ other ∈ (s.setAttachment name attachment).tables, other.name ≠ table.name := by
    intro name attachment hnone
    have hname : table.name ∈ (s.setAttachment name attachment).tables.map (·.name) :=
      setAttachment_names s name attachment ▸ List.mem_map_of_mem htable
    rcases List.mem_map.mp hname with ⟨other, hother, heq⟩
    exact hnone other hother heq
  cases hstatement with
  | drop partition rest htodo hcutoff hfresh =>
      have hname : table.name = partition.name := by
        by_contra hne
        exact hgone table (List.mem_filter.mpr ⟨htable, by simpa using hne⟩) rfl
      have hbacked := h.backed run hrun _ (htodo ▸ List.mem_cons_self)
      rcases (h.accounted.bounds table htable).unique (hname ▸ hbacked.exact) with ⟨hlower, hupper⟩
      rw [hname, hlower, hupper]
      refine ⟨hcutoff, hbacked.started.resolve_left (by simp), hfresh, _, rfl, rfl, rfl, rfl, rfl⟩
  | finalize partition rest htodo => exact absurd hgone (hattached _ _)
  | detach partition rest htodo => exact absurd hgone (hattached _ _)
  | completeDetach partition rest htodo => exact absurd hgone (hattached _ _)
  | _ => exact absurd rfl (hgone table htable)

/-- A step that takes a table away is the drop of a running run, past its cutoff, claimed
before and recorded in the same step. -/
theorem destroyed_with_evidence {action : Action} (h : Sound catalog s)
    (hstep : step s action = .ok s') {table : Table} (htable : table ∈ s.tables)
    (hgone : ∀ other ∈ s'.tables, other.name ≠ table.name) :
    ∃ run, s.run = some run ∧ table.upper ≤ run.cutoff
      ∧ Started s.audit table.name table.lower table.upper
      ∧ ¬ hasDropped s.audit table.name
      ∧ ∃ row, s'.audit = s.audit ++ [row] ∧ row.partitionName = some table.name
          ∧ row.event = .dropped ∧ row.rangeFrom = some table.lower
          ∧ row.rangeTo = some table.upper := by
  -- a step that keeps the names of the tables takes none away
  have hkept : s'.tables.map (·.name) ≠ s.tables.map (·.name) := by
    intro hsame
    have hname : table.name ∈ s'.tables.map (·.name) := hsame ▸ List.mem_map_of_mem htable
    rcases List.mem_map.mp hname with ⟨other, hother, heq⟩
    exact hgone other hother heq
  cases action with
  | begin jobRunId now =>
      refine absurd ?_ hkept
      rcases ite_eq_ok.mp hstep with ⟨_, hstep⟩ | ⟨_, hstep⟩
      · rcases Except.ok.inj hstep with rfl
        rw [((beginRun_begins s jobRunId now).backed h.accounted).1]
      · rcases Except.ok.inj hstep with rfl
        rfl
  | next =>
      rcases bind_eq_ok.mp hstep with ⟨run, hrun, hstep⟩
      rcases pure_eq_ok.mp hstep with rfl
      have hrun := demand_eq_ok.mp hrun
      exact ⟨run, hrun, (nextStatement_statement s run).destroyed h hrun htable hgone⟩
  | crash =>
      rcases Except.ok.inj hstep with rfl
      exact absurd rfl hkept
  | setRetention months =>
      rcases bind_eq_ok.mp hstep with ⟨_, _, hstep⟩
      rcases pure_eq_ok.mp hstep with rfl
      exact absurd rfl hkept
  | manualDetach name | manualDetachConcurrently name | manualFinalize name =>
      rcases bind_eq_ok.mp hstep with ⟨_, _, hstep⟩
      rcases pure_eq_ok.mp hstep with rfl
      exact absurd (setAttachment_names _ _ _) hkept

end Retention
end Mobility
