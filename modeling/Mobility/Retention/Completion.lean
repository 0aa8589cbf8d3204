import Mobility.Retention.Recovery

/-!
# Completion — an uninterrupted run works its list to the end

The list has three parts: pending detaches to finalize, standalone tables to drop, and,
once nothing is half purged, the expired partitions of the tree.  Each part is worked off
by induction on its partitions.
-/

namespace Mobility
namespace Retention

open Lib

variable {catalog : Catalog} {s s' : State} {run : Run} {now : Moment}

/-! ## Going on -/

/-- The run takes its next statements, and nothing else happens. -/
def Continues : State → State → Prop :=
  Relation.ReflTransGen (fun s s' => step s .next = .ok s')

theorem continues_next (hrun : s.run = some run) (hnext : nextStatement s run = s') :
    Continues s s' :=
  .single (bind_eq_ok.mpr ⟨run, demand_eq_ok.mpr hrun, congrArg Except.ok hnext⟩)

theorem Continues.trans {s₁ s₂ s₃ : State} (h : Continues s₁ s₂) (h' : Continues s₂ s₃) :
    Continues s₁ s₃ :=
  Relation.ReflTransGen.trans h h'

theorem Continues.sound (h : Continues s s') (hsound : Sound catalog s) : Sound catalog s' := by
  induction h with
  | refl => exact hsound
  | tail _ hstep ih => exact sound_step ih hstep

/-- A table that is there was not dropped. -/
theorem Accounted.not_dropped {tables : List Table} {audit : List DataPurgeAudit}
    (h : Accounted catalog tables audit) {table : Table} (htable : table ∈ tables) :
    ¬ hasDropped audit table.name := by
  rcases h.bounds table htable with ⟨known, hknown, hname, _, _⟩
  intro hdropped
  rw [← hname] at hdropped
  exact (h.gone known hknown).mp hdropped table htable hname.symm

theorem table?_eq_some (h : (s.tables.map (·.name)).Nodup) {table : Table}
    (htable : table ∈ s.tables) : s.table? table.name = some table :=
  lookup_eq_some h htable rfl

theorem mem_setAttachment_other {name : PartitionName} {attachment : Attachment} {table : Table}
    (htable : table ∈ s.tables) (hne : table.name ≠ name) :
    table ∈ (s.setAttachment name attachment).tables :=
  List.mem_map.mpr ⟨table, htable, if_neg hne⟩

theorem table?_setAttachment {name : PartitionName} {table : Table}
    (h : s.table? name = some table) (attachment : Attachment) :
    (s.setAttachment name attachment).table? name
      = some { table with attachment := attachment } := by
  have hname : table.name = name := (mem_of_lookup h).2
  have hkey : (fun row : Table => decide ((if row.name = name then
      { row with attachment := attachment } else row).name = name))
        = fun row => decide (row.name = name) := by
    funext row
    split_ifs <;> rfl
  simp only [State.table?, State.setAttachment, List.find?_map, Function.comp_def, hkey]
  rw [State.table?] at h
  rw [h, Option.map_some, if_pos hname]

theorem listPartitions_names (h : (s.tables.map (·.name)).Nodup) :
    ((listPartitions s).map (·.name)).Nodup := by
  have hperm := ((s.tables.filter (·.attachment ≠ .standalone)).map
    (·.info)).perm_insertionSort (fun a b => a.lower ≤ b.lower)
  refine ((hperm.map (·.name)).nodup_iff).mpr ?_
  rw [List.map_map]
  exact h.sublist (List.filter_sublist.map _)

/-! ## Recovery -/

/-- The pending detaches of `fins` are still to be finalized, the tables of `drops` are
still to be dropped, and these are all that is not attached. -/
structure Recovering (catalog : Catalog) (now : Moment) (months : Nat) (outcomes : List Outcome)
    (fins drops : List PartitionInfo) (s : State) : Prop where
  run : ∃ run, s.run = some run ∧ run.todo = fins.map .finalize ++ drops.map .drop
    ∧ run.scanned = false ∧ run.now = now ∧ run.retentionMonths = months
  outcomes : s.outcomes = outcomes
  sound : Sound catalog s
  expired : ∀ partition ∈ drops, partition.upper ≤ subtractCalendarMonths now months
  finNames : (fins.map (·.name)).Nodup
  finTables : ∀ partition ∈ fins, ∃ table ∈ s.tables, table.name = partition.name
    ∧ table.attachment = .pending
  dropNames : (drops.map (·.name)).Nodup
  dropTables : ∀ partition ∈ drops, ∃ table ∈ s.tables, table.name = partition.name
  pending : ∀ table ∈ s.tables, table.attachment = .pending → table.name ∈ fins.map (·.name)
  detached : ∀ table ∈ s.tables, table.attachment ≠ .attached → table.name ∈ drops.map (·.name)

theorem Recovering.finalize {months : Nat} {outcomes : List Outcome} {partition : PartitionInfo}
    {fins drops : List PartitionInfo}
    (h : Recovering catalog now months outcomes (partition :: fins) drops s) :
    ∃ s', Continues s s' ∧ Recovering catalog now months outcomes fins drops s' := by
  rcases h.run with ⟨run, hrun, htodo, hscanned, hnow, hmonths⟩
  rcases h.finTables partition List.mem_cons_self with ⟨table, htable, hname, hpending⟩
  have hlookup : s.table? partition.name = some table :=
    hname ▸ table?_eq_some h.sound.accounted.names htable
  rcases List.nodup_cons.mp h.finNames with ⟨hnew, hfinNames⟩
  have hnames := setAttachment_names s partition.name .standalone
  have hnew : partition.name ∉ fins.map (·.name) := hnew
  let rest : List Task := fins.map .finalize ++ drops.map .drop
  have htodo : run.todo = .finalize partition :: rest := htodo
  -- two statements: the detachment is finalized, then recorded
  have hfirst : nextStatement s run = { s.setAttachment partition.name .standalone with
      run := some { run with todo := .recordFinalized partition :: rest } } := by
    simp [nextStatement, htodo, hlookup, hpending]
  have hcontinues := (continues_next hrun hfirst).trans (continues_next rfl rfl)
  refine ⟨_, hcontinues, ?_⟩
  refine {
    run := ⟨_, rfl, rfl, hscanned, hnow, hmonths⟩
    outcomes := h.outcomes
    sound := hcontinues.sound h.sound
    expired := h.expired
    finNames := hfinNames
    finTables := ?_
    dropNames := h.dropNames
    dropTables := ?_
    pending := ?_
    detached := ?_ }
  · intro other hother
    rcases h.finTables other (List.mem_cons_of_mem _ hother) with ⟨row, hrow, hrowName, hrowPending⟩
    refine ⟨row, mem_setAttachment_other hrow ?_, hrowName, hrowPending⟩
    exact fun heq => hnew (heq ▸ hrowName ▸ List.mem_map_of_mem hother)
  · intro other hother
    rcases h.dropTables other hother with ⟨row, hrow, hrowName⟩
    have hmem : other.name ∈ (s.setAttachment partition.name .standalone).tables.map (·.name) :=
      hnames ▸ hrowName ▸ List.mem_map_of_mem hrow
    exact List.mem_map.mp hmem
  · intro row hrow hrowPending
    rcases mem_setAttachment hrow with ⟨old, hold, _, _, _, ⟨_, hstandalone⟩ | ⟨hne, rfl⟩⟩
    · rw [hstandalone] at hrowPending
      cases hrowPending
    · exact (List.mem_cons.mp (h.pending row hold hrowPending)).resolve_left hne
  · intro row hrow hnot
    rcases mem_setAttachment hrow with ⟨old, hold, hsame, _, _, ⟨hpartition, _⟩ | ⟨_, rfl⟩⟩
    · rw [hsame, hpartition, ← hname]
      exact h.detached table htable (by simp [hpending])
    · exact h.detached row hold hnot

theorem Recovering.finalize_all {months : Nat} {outcomes : List Outcome}
    {drops : List PartitionInfo} : ∀ {fins : List PartitionInfo} {s : State},
      Recovering catalog now months outcomes fins drops s →
        ∃ s', Continues s s' ∧ Recovering catalog now months outcomes [] drops s' := by
  intro fins
  induction fins with
  | nil => exact fun h => ⟨_, .refl, h⟩
  | cons partition fins ih =>
      intro s h
      rcases h.finalize with ⟨s₁, hfirst, h₁⟩
      rcases ih h₁ with ⟨s', hrest, h'⟩
      exact ⟨s', hfirst.trans hrest, h'⟩

/-- What a drop statement does when the table is there. -/
theorem nextStatement_drop (hsound : Sound catalog s) {partition : PartitionInfo}
    {rest : List Task} (htodo : run.todo = .drop partition :: rest)
    (hexpired : partition.upper ≤ run.cutoff)
    (htable : ∃ table ∈ s.tables, table.name = partition.name) :
    nextStatement s run = { s.record (partitionEvent run partition .dropped none) with
      tables := s.tables.filter (·.name ≠ partition.name)
      run := some { run with todo := rest, dropped := run.dropped ++ [partition.name] } } := by
  rcases htable with ⟨table, htable, hname⟩
  have hfresh : ¬ hasDropped s.audit partition.name :=
    hname ▸ hsound.accounted.not_dropped htable
  have hlookup : s.table? partition.name = some table :=
    hname ▸ table?_eq_some hsound.accounted.names htable
  simp [nextStatement, htodo, hlookup, hfresh, not_lt.mpr hexpired]

theorem Recovering.drop_all {months : Nat} {outcomes : List Outcome} :
    ∀ {drops : List PartitionInfo} {s : State},
      Recovering catalog now months outcomes [] drops s →
        ∃ s', Continues s s' ∧ Recovering catalog now months outcomes [] [] s' := by
  intro drops
  induction drops with
  | nil => exact fun h => ⟨_, .refl, h⟩
  | cons partition drops ih =>
      intro s h
      rcases h.run with ⟨run, hrun, htodo, hscanned, hnow, hmonths⟩
      rcases List.nodup_cons.mp h.dropNames with ⟨hnew, hdropNames⟩
      have hnew : partition.name ∉ drops.map (·.name) := hnew
      have hexpired : partition.upper ≤ run.cutoff := by
        rw [Run.cutoff, hnow, hmonths]
        exact h.expired partition List.mem_cons_self
      -- each round drops the first table left, with its record
      have hdrop := nextStatement_drop h.sound htodo hexpired (h.dropTables partition List.mem_cons_self)
      have hcontinues := continues_next hrun hdrop
      have hnext : Recovering catalog now months outcomes [] drops
          { s.record (partitionEvent run partition .dropped none) with
            tables := s.tables.filter (·.name ≠ partition.name)
            run := some { run with
              todo := drops.map .drop
              dropped := run.dropped ++ [partition.name] } } := {
        run := ⟨_, rfl, rfl, hscanned, hnow, hmonths⟩
        outcomes := h.outcomes
        sound := hcontinues.sound h.sound
        expired := fun other hother => h.expired other (List.mem_cons_of_mem _ hother)
        finNames := List.nodup_nil
        finTables := fun _ hnone => absurd hnone List.not_mem_nil
        dropNames := hdropNames
        dropTables := by
          intro other hother
          rcases h.dropTables other (List.mem_cons_of_mem _ hother) with ⟨row, hrow, hrowName⟩
          refine ⟨row, List.mem_filter.mpr ⟨hrow, ?_⟩, hrowName⟩
          simp only [ne_eq, decide_not, Bool.not_eq_true', decide_eq_false_iff_not]
          exact fun heq => hnew (heq ▸ hrowName ▸ List.mem_map_of_mem hother)
        pending := fun row hrow => h.pending row (List.mem_filter.mp hrow).1
        detached := by
          intro row hrow hnot
          rcases List.mem_filter.mp hrow with ⟨hmem, hne⟩
          exact (List.mem_cons.mp (h.detached row hmem hnot)).resolve_left (by simpa using hne) }
      rcases ih hnext with ⟨s', hrest, h'⟩
      exact ⟨s', hcontinues.trans hrest, h'⟩

/-! ## The expired partitions -/

/-- Every table is attached, and the partitions of `expired` are what is past the cutoff. -/
structure Purging (catalog : Catalog) (now : Moment) (months : Nat) (outcomes : List Outcome)
    (expired : List PartitionInfo) (s : State) : Prop where
  run : ∃ run, s.run = some run ∧ run.todo = expired.map .start ∧ run.scanned = true
    ∧ run.now = now ∧ run.retentionMonths = months
  outcomes : s.outcomes = outcomes
  sound : Sound catalog s
  attached : ∀ table ∈ s.tables, table.attachment = .attached
  past : ∀ partition ∈ expired, partition.upper ≤ subtractCalendarMonths now months
  names : (expired.map (·.name)).Nodup
  tables : ∀ partition ∈ expired, ∃ table ∈ s.tables, table.name = partition.name
  kept : ∀ table ∈ s.tables, table.upper ≤ subtractCalendarMonths now months →
    table.name ∈ expired.map (·.name)

/-- Listing the tree when recovery is done. -/
theorem Recovering.scan {months : Nat} {outcomes : List Outcome}
    (h : Recovering catalog now months outcomes [] [] s) :
    ∃ expired s', Continues s s' ∧ Purging catalog now months outcomes expired s' := by
  rcases h.run with ⟨run, hrun, htodo, hscanned, hnow, hmonths⟩
  have htodo : run.todo = [] := htodo
  have hattached : ∀ table ∈ s.tables, table.attachment = .attached := by
    intro table htable
    by_contra hnot
    exact List.not_mem_nil (h.detached table htable hnot)
  have hscan : nextStatement s run = { s with run := some { run with
      todo := ((listPartitions s).filter (·.upper ≤ run.cutoff)).map .start
      scanned := true } } := by
    simp [nextStatement, htodo, hscanned]
  have hcutoff : run.cutoff = subtractCalendarMonths now months := by
    rw [Run.cutoff, hnow, hmonths]
  have hcontinues := continues_next hrun hscan
  refine ⟨(listPartitions s).filter (·.upper ≤ run.cutoff), _, hcontinues, ?_⟩
  refine {
    run := ⟨_, rfl, rfl, rfl, hnow, hmonths⟩
    outcomes := h.outcomes
    sound := hcontinues.sound h.sound
    attached := hattached
    past := ?_
    names := ?_
    tables := ?_
    kept := ?_ }
  · intro partition hpartition
    exact hcutoff ▸ of_decide_eq_true (List.mem_filter.mp hpartition).2
  · exact (listPartitions_names h.sound.accounted.names).sublist (List.filter_sublist.map _)
  · intro partition hpartition
    rcases mem_listPartitions.mp (List.mem_filter.mp hpartition).1 with ⟨table, htable, _, rfl⟩
    exact ⟨table, htable, rfl⟩
  · intro table htable hupper
    refine List.mem_map.mpr ⟨table.info, List.mem_filter.mpr ⟨?_, ?_⟩, rfl⟩
    · exact mem_listPartitions.mpr ⟨table, htable, by simp [hattached table htable], rfl⟩
    · exact decide_eq_true (hcutoff ▸ hupper)

/-- Counting, claiming, detaching and dropping one partition of a whole tree. -/
theorem Purging.purge {months : Nat} {outcomes : List Outcome} {partition : PartitionInfo}
    {expired : List PartitionInfo}
    (h : Purging catalog now months outcomes (partition :: expired) s) :
    ∃ s', Continues s s' ∧ Purging catalog now months outcomes expired s' := by
  rcases h.run with ⟨run, hrun, htodo, hscanned, hnow, hmonths⟩
  rcases h.tables partition List.mem_cons_self with ⟨table, htable, hname⟩
  rcases List.nodup_cons.mp h.names with ⟨hnew, hnames⟩
  have hnew : partition.name ∉ expired.map (·.name) := hnew
  have htodo : run.todo = .start partition :: expired.map .start := htodo
  have hlookup : s.table? partition.name = some table :=
    hname ▸ table?_eq_some h.sound.accounted.names htable
  have hpast : partition.upper ≤ run.cutoff := by
    rw [Run.cutoff, hnow, hmonths]
    exact h.past partition List.mem_cons_self
  -- count and claim
  let started : State :=
    { s.record (partitionEvent run partition .purgeStarted (some table.pings.length)) with
      run := some { run with todo := .detach partition :: expired.map .start } }
  have hstart : nextStatement s run = started := by
    simp [nextStatement, htodo, hlookup, started]
  -- the two transactions of the concurrent detach
  let pending : State := { started.setAttachment partition.name .pending with
    run := some { run with todo := .completeDetach partition :: expired.map .start } }
  have hpending : nextStatement started
      { run with todo := .detach partition :: expired.map .start } = pending := by
    have hfree : ∀ row ∈ s.tables, row.attachment ≠ .pending := fun row hrow => by
      simp [h.attached row hrow]
    have hstarted : started.table? partition.name = some table := hlookup
    simp only [nextStatement, hstarted, Option.any_some, h.attached table htable]
    exact if_pos ⟨by simp, hfree⟩
  let detached : State := { pending.setAttachment partition.name .standalone with
    run := some { run with todo := .drop partition :: expired.map .start } }
  have hlookupPending : pending.table? partition.name = some { table with attachment := .pending } :=
    table?_setAttachment hlookup .pending
  have hdetached : nextStatement pending
      { run with todo := .completeDetach partition :: expired.map .start } = detached := by
    simp only [nextStatement, hlookupPending]
    exact if_pos rfl
  have hlookupDetached : detached.table? partition.name
      = some { table with attachment := .standalone } :=
    table?_setAttachment hlookupPending .standalone
  have hcontinues : Continues s detached := by
    refine (continues_next hrun hstart).trans ?_
    exact (continues_next rfl hpending).trans (continues_next rfl hdetached)
  let dropping : Run := { run with todo := .drop partition :: expired.map .start }
  have hdetachedRun : detached.run = some dropping := rfl
  have htodo' : dropping.todo = .drop partition :: expired.map .start := rfl
  have hdrop := nextStatement_drop (hcontinues.sound h.sound) htodo' hpast
    ⟨_, (mem_of_lookup hlookupDetached).1, (mem_of_lookup hlookupDetached).2⟩
  have hcontinues' := hcontinues.trans (continues_next hdetachedRun hdrop)
  -- what remains are the other tables, as they were
  have hremain : ∀ row, row ∈ detached.tables.filter (·.name ≠ partition.name) ↔
      row ∈ s.tables ∧ row.name ≠ partition.name := by
    intro row
    simp only [ne_eq, decide_not, List.mem_filter, Bool.not_eq_true', decide_eq_false_iff_not]
    refine and_congr_left ?_
    intro hne
    constructor
    · intro hrow
      rcases mem_setAttachment hrow with ⟨moved, hmoved, hsame, _, _, ⟨heq, _⟩ | ⟨_, rfl⟩⟩
      · exact absurd (hsame.trans heq) hne
      · rcases mem_setAttachment hmoved with ⟨old, hold, hsame, _, _, ⟨heq, _⟩ | ⟨_, rfl⟩⟩
        · exact absurd (hsame.trans heq) hne
        · exact hold
    · intro hrow
      exact mem_setAttachment_other (mem_setAttachment_other hrow hne) hne
  refine ⟨_, hcontinues', ?_⟩
  refine {
    run := ⟨_, rfl, rfl, hscanned, hnow, hmonths⟩
    outcomes := h.outcomes
    sound := hcontinues'.sound h.sound
    attached := fun row hrow => h.attached row ((hremain row).mp hrow).1
    past := fun other hother => h.past other (List.mem_cons_of_mem _ hother)
    names := hnames
    tables := ?_
    kept := ?_ }
  · intro other hother
    rcases h.tables other (List.mem_cons_of_mem _ hother) with ⟨row, hrow, hrowName⟩
    refine ⟨row, (hremain row).mpr ⟨hrow, ?_⟩, hrowName⟩
    exact fun heq => hnew (heq ▸ hrowName ▸ List.mem_map_of_mem hother)
  · intro row hrow hupper
    rcases (hremain row).mp hrow with ⟨hmem, hne⟩
    exact (List.mem_cons.mp (h.kept row hmem hupper)).resolve_left hne

theorem Purging.purge_all {months : Nat} {outcomes : List Outcome} :
    ∀ {expired : List PartitionInfo} {s : State},
      Purging catalog now months outcomes expired s →
        ∃ s', Continues s s' ∧ Purging catalog now months outcomes [] s' := by
  intro expired
  induction expired with
  | nil => exact fun h => ⟨_, .refl, h⟩
  | cons partition expired ih =>
      intro s h
      rcases h.purge with ⟨s₁, hfirst, h₁⟩
      rcases ih h₁ with ⟨s', hrest, h'⟩
      exact ⟨s', hfirst.trans hrest, h'⟩

/-- The batches, and the end of the run. -/
theorem Purging.complete {months : Nat} {outcomes : List Outcome}
    (h : Purging catalog now months outcomes [] s) :
    ∃ s' finalized dropped batchesPurged, Continues s s' ∧ s'.run = none
      ∧ s'.outcomes = outcomes ++ [.completed finalized dropped batchesPurged]
      ∧ ∀ table ∈ s'.tables, table.attachment = .attached
          ∧ subtractCalendarMonths now months < table.upper := by
  rcases h.run with ⟨run, hrun, htodo, hscanned, hnow, hmonths⟩
  have htodo : run.todo = [] := htodo
  refine ⟨_, run.finalized, run.dropped, (s.deadBatches run.cutoff).length,
    continues_next hrun rfl, ?_⟩
  simp only [nextStatement, htodo, hscanned, if_true, State.finish, true_and]
  refine ⟨by rw [h.outcomes], ?_⟩
  intro table htable
  refine ⟨h.attached table htable, ?_⟩
  by_contra hpast
  exact List.not_mem_nil (h.kept table htable (not_lt.mp hpast))

/-! ## From a crash to the end of the next run -/

/-- The trail of a claimed standalone table gives its bounds back. -/
theorem orphanPartition_of_started {tables : List Table} {audit : List DataPurgeAudit}
    (h : Accounted catalog tables audit) {table : Table} (htable : table ∈ tables)
    (hstarted : Started audit table.name table.lower table.upper) :
    orphanPartition audit table.name = .ok (some {
      name := table.name
      lower := table.lower
      upper := table.upper
      detachPending := false }) := by
  have hexact := h.bounds table htable
  rcases hexact.aligned with ⟨hlower, hupper, hlt⟩
  rcases hstarted with ⟨row, hrow, hname, hevent, hfrom, hto, hcount⟩
  have hrowTrail : row ∈ trail audit table.name :=
    List.mem_filter.mpr ⟨hrow, by simpa using hname⟩
  -- the trail has a start, and no start counts below zero
  have hclaims : ¬ ((trail audit table.name).filter (·.event = .purgeStarted) = []
      ∨ ∃ row ∈ (trail audit table.name).filter (·.event = .purgeStarted),
        row.rowCount.all (· < 0) = true) := by
    rintro (hempty | ⟨other, hother, hnegative⟩)
    · have hmem : row ∈ (trail audit table.name).filter (·.event = .purgeStarted) :=
        List.mem_filter.mpr ⟨hrowTrail, by simpa using hevent⟩
      rw [hempty] at hmem
      exact absurd hmem List.not_mem_nil
    · rcases List.mem_filter.mp hother with ⟨hotherTrail, hotherEvent⟩
      rcases h.counted other (List.mem_filter.mp hotherTrail).1 (by simpa using hotherEvent) with
        ⟨count, hsome, hnonneg⟩
      rw [hsome, Option.all_some, decide_eq_true_eq] at hnegative
      exact absurd hnegative (not_lt.mpr hnonneg)
  have hbounds : ((trail audit table.name).map (fun row => (row.rangeFrom, row.rangeTo))).dedup
      = [(some table.lower, some table.upper)] := by
    have hall : ∀ bounds ∈ (trail audit table.name).map (fun row => (row.rangeFrom, row.rangeTo)),
        bounds = (some table.lower, some table.upper) := by
      intro bounds hmem
      rcases List.mem_map.mp hmem with ⟨other, hother, rfl⟩
      rcases List.mem_filter.mp hother with ⟨hotherMem, hotherName⟩
      rcases h.trail other hotherMem table.name (by simpa using hotherName) with
        ⟨lower, upper, hotherExact, hotherFrom, hotherTo⟩
      rcases hexact.unique hotherExact with ⟨rfl, rfl⟩
      rw [hotherFrom, hotherTo]
    have hlength : ((trail audit table.name).map
        (fun row => (row.rangeFrom, row.rangeTo))).length ≠ 0 := by
      rw [List.length_map]
      exact (List.length_pos_of_mem hrowTrail).ne'
    rw [List.eq_replicate_of_mem hall, List.replicate_dedup hlength]
  unfold orphanPartition
  rw [if_neg (h.not_dropped htable), if_neg hclaims, hbounds]
  exact if_neg (by simp [hlt, hlower, hupper])

/-- The tables out of the tree, as the evidence gives them. -/
def standalonePartitions (s : State) : List PartitionInfo :=
  (s.tables.filter (·.attachment = .standalone)).map (·.info)

/-- The detaches in the tree that were not completed. -/
def pendingPartitions (s : State) : List PartitionInfo :=
  (listPartitions s).filter (·.detachPending)

theorem mem_standalonePartitions {partition : PartitionInfo} :
    partition ∈ standalonePartitions s ↔
      ∃ table ∈ s.tables, table.attachment = .standalone ∧ table.info = partition := by
  simp [standalonePartitions, and_assoc]

theorem mem_pendingPartitions {partition : PartitionInfo} :
    partition ∈ pendingPartitions s ↔
      ∃ table ∈ s.tables, table.attachment = .pending ∧ table.info = partition := by
  simp only [pendingPartitions, List.mem_filter, mem_listPartitions]
  constructor
  · rintro ⟨⟨table, htable, _, rfl⟩, hpending⟩
    exact ⟨table, htable, of_decide_eq_true hpending, rfl⟩
  · rintro ⟨table, htable, hpending, rfl⟩
    exact ⟨⟨table, htable, by simp [hpending], rfl⟩, decide_eq_true hpending⟩

/-- After crashes only, nothing refuses the run: every partition that is half purged is
recovered. -/
theorem Recoverable.beginRun_eq (h : Recoverable now s) (hsound : Sound catalog s)
    (jobRunId : Id) :
    beginRun s jobRunId now = { s with run := some {
      jobRunId := jobRunId
      now := now
      retentionMonths := s.pingRetentionMonths
      todo := recoveryTasks (standalonePartitions s) (pendingPartitions s) } } := by
  have horphans : checkedMap (orphanPartition s.audit) (detachedOrphans s)
      = .ok ((s.tables.filter (·.attachment = .standalone)).map (fun table => some table.info)) := by
    rw [detachedOrphans, checkedMap_map]
    refine checkedMap_ok ?_
    intro table htable
    rcases List.mem_filter.mp htable with ⟨hmem, hstandalone⟩
    have hstandalone : table.attachment = .standalone := of_decide_eq_true hstandalone
    have hclaimed := (h.claimed table hmem (by simp [hstandalone])).1
    rw [orphanPartition_of_started hsound.accounted hmem hclaimed, Table.info, hstandalone]
    rfl
  -- no orphan is younger than the cutoff, so none is refused
  have hrefusedOrphans : ((detachedOrphans s).zip ((s.tables.filter
      (·.attachment = .standalone)).map (fun table => some table.info))).filter (fun orphan =>
        orphan.2.all (subtractCalendarMonths now s.pingRetentionMonths < ·.upper)) = [] := by
    rw [detachedOrphans, List.zip_map', List.filter_eq_nil_iff]
    intro orphan horphan
    rcases List.mem_map.mp horphan with ⟨table, htable, rfl⟩
    rcases List.mem_filter.mp htable with ⟨hmem, hstandalone⟩
    have hstandalone : table.attachment = .standalone := of_decide_eq_true hstandalone
    have hpast := (h.claimed table hmem (by simp [hstandalone])).2
    simpa [Table.info] using hpast
  -- and every pending detachment has its record of a started purge
  have hauthorized : ∀ partition ∈ pendingPartitions s,
      Authorized s (subtractCalendarMonths now s.pingRetentionMonths) partition := by
    intro partition hpartition
    rcases mem_pendingPartitions.mp hpartition with ⟨table, htable, hpending, rfl⟩
    rcases h.claimed table htable (by simp [hpending]) with ⟨hstarted, hpast⟩
    rcases hstarted with ⟨row, hrow, hname, hevent, hfrom, hto, count, hcount⟩
    exact ⟨⟨⟨row, hrow, hname, hevent, hfrom, hto, by simp [hcount]⟩,
      hsound.accounted.not_dropped htable⟩, hpast⟩
  have hrefused : (pendingPartitions s).filter
      (¬ Authorized s (subtractCalendarMonths now s.pingRetentionMonths) ·) = [] := by
    rw [List.filter_eq_nil_iff]
    intro partition hpartition
    simpa using hauthorized partition hpartition
  have hkept : (pendingPartitions s).filter
      (Authorized s (subtractCalendarMonths now s.pingRetentionMonths) ·) = pendingPartitions s :=
    List.filter_eq_self.mpr (fun partition hpartition => decide_eq_true (hauthorized _ hpartition))
  have hinfos : ((s.tables.filter (·.attachment = .standalone)).map
      (fun table => some table.info)).filterMap id = standalonePartitions s := by
    simp [standalonePartitions, List.filterMap_map]
  unfold beginRun
  dsimp only
  rw [horphans]
  dsimp only
  rw [hrefusedOrphans, if_neg (by simp), ← pendingPartitions, hrefused, if_neg (by simp), hkept,
    hinfos]

theorem Recoverable.begin (h : Recoverable now s) (hsound : Sound catalog s) (jobRunId : Id) :
    Recovering catalog now s.pingRetentionMonths s.outcomes (pendingPartitions s)
      (standalonePartitions s ++ pendingPartitions s) (beginRun s jobRunId now) := by
  rcases (beginRun_begins s jobRunId now).backed hsound.accounted with ⟨htables, haudit, hbacked⟩
  have hsound' : Sound catalog (beginRun s jobRunId now) :=
    ⟨by rw [htables, haudit]; exact hsound.accounted, hbacked⟩
  have hnames := hsound.accounted.names
  have hpendingNames : ((pendingPartitions s).map (·.name)).Nodup :=
    (listPartitions_names hnames).sublist (List.filter_sublist.map _)
  -- what is taken up again was not attached any more
  have hhalf : ∀ partition ∈ standalonePartitions s ++ pendingPartitions s,
      ∃ table ∈ s.tables, table.attachment ≠ .attached ∧ table.info = partition := by
    intro partition hpartition
    rcases List.mem_append.mp hpartition with hpartition | hpartition
    · rcases mem_standalonePartitions.mp hpartition with ⟨table, htable, hstandalone, rfl⟩
      exact ⟨table, htable, by simp [hstandalone], rfl⟩
    · rcases mem_pendingPartitions.mp hpartition with ⟨table, htable, hpending, rfl⟩
      exact ⟨table, htable, by simp [hpending], rfl⟩
  refine {
    run := ?_
    outcomes := by rw [h.beginRun_eq hsound]
    sound := hsound'
    expired := ?_
    finNames := hpendingNames
    finTables := ?_
    dropNames := ?_
    dropTables := ?_
    pending := ?_
    detached := ?_ }
  · rw [h.beginRun_eq hsound]
    exact ⟨_, rfl, rfl, rfl, rfl, rfl⟩
  · intro partition hpartition
    rcases hhalf partition hpartition with ⟨table, htable, hnot, rfl⟩
    exact (h.claimed table htable hnot).2
  · intro partition hpartition
    rcases mem_pendingPartitions.mp hpartition with ⟨table, htable, hpending, rfl⟩
    exact ⟨table, htables.symm ▸ htable, rfl, hpending⟩
  · rw [List.map_append, List.nodup_append]
    refine ⟨?_, hpendingNames, ?_⟩
    · rw [standalonePartitions, List.map_map]
      exact hnames.sublist (List.filter_sublist.map _)
    · intro name hname other hother heq
      rcases List.mem_map.mp hname with ⟨partition, hpartition, rfl⟩
      rcases List.mem_map.mp hother with ⟨partition', hpartition', rfl⟩
      rcases mem_standalonePartitions.mp hpartition with ⟨table, htable, hstandalone, rfl⟩
      rcases mem_pendingPartitions.mp hpartition' with ⟨table', htable', hpending, rfl⟩
      -- one table is not both standalone and pending
      rcases eq_of_key_eq hnames htable htable' heq with rfl
      rw [hstandalone] at hpending
      cases hpending
  · intro partition hpartition
    rcases hhalf partition hpartition with ⟨table, htable, _, rfl⟩
    exact ⟨table, htables.symm ▸ htable, rfl⟩
  · intro table htable hpending
    rw [htables] at htable
    exact List.mem_map.mpr ⟨table.info, mem_pendingPartitions.mpr ⟨table, htable, hpending, rfl⟩,
      rfl⟩
  · intro table htable hnot
    rw [htables] at htable
    refine List.mem_map.mpr ⟨table.info, List.mem_append.mpr ?_, rfl⟩
    cases hattachment : table.attachment with
    | attached => exact absurd hattachment hnot
    | pending => exact .inr (mem_pendingPartitions.mpr ⟨table, htable, hattachment, rfl⟩)
    | standalone => exact .inl (mem_standalonePartitions.mpr ⟨table, htable, hattachment, rfl⟩)

/-- The run after the crashes, to its end. -/
theorem Recoverable.completes (h : Recoverable now s) (hsound : Sound catalog s)
    (jobRunId : Id) :
    ∃ s' finalized dropped batchesPurged, Continues (beginRun s jobRunId now) s' ∧ s'.run = none
      ∧ s'.outcomes = s.outcomes ++ [.completed finalized dropped batchesPurged]
      ∧ (∀ table ∈ s'.tables, table.attachment = .attached
          ∧ subtractCalendarMonths now s.pingRetentionMonths < table.upper)
      ∧ ∀ table ∈ s.tables, table.attachment ≠ .attached → hasDropped s'.audit table.name := by
  have hbegun := h.begin hsound jobRunId
  rcases hbegun.finalize_all with ⟨s₁, hfinalized, h₁⟩
  rcases h₁.drop_all with ⟨s₂, hdropped, h₂⟩
  rcases h₂.scan with ⟨expired, s₃, hscanned, h₃⟩
  rcases h₃.purge_all with ⟨s₄, hpurged, h₄⟩
  rcases h₄.complete with ⟨s', finalized, dropped, batches, hlast, hdone, houtcomes, hkept⟩
  have hcontinues := hfinalized.trans (hdropped.trans (hscanned.trans (hpurged.trans hlast)))
  refine ⟨s', finalized, dropped, batches, hcontinues, hdone, houtcomes, hkept, ?_⟩
  intro table htable hnot
  have hsound' := (hcontinues.sound hbegun.sound).accounted
  have hexact := hsound.accounted.bounds table htable
  rcases hexact with ⟨known, hknown, hname, hlower, hupper⟩
  rw [← hname, hsound'.gone known hknown]
  intro other hother hsame
  -- a table of that name would still be past the cutoff
  rcases (hsound'.bounds other hother).unique ⟨known, hknown, hsame.symm, rfl, rfl⟩ with ⟨_, hsameUpper⟩
  have hpast := (h.claimed table htable hnot).2
  rw [← hupper, ← hsameUpper] at hpast
  exact absurd hpast (not_le.mpr (hkept other hother).2)

/-! ## The statement -/

/-- The first of a month. -/
def firstOf (monthIndex : Int) : Moment :=
  monthStart {
    monthIndex := monthIndex
    day := 1
    micros := 0
    one_le_day := Nat.one_pos
    day_le := daysInMonth_pos _
    micros_lt := microsPerDay_pos }

/-- A partition of an old month and one of the current month. -/
def twoPartitions : Catalog :=
  let table (monthIndex : Int) (name : PartitionName) : Table :=
    { name := name
      lower := firstOf monthIndex
      upper := firstOf (monthIndex + 1) }
  { tables := [table 24300 (.month 2025 1), table 24318 (.month 2026 7)]
    names := by decide
    attached := by decide
    aligned := by decide
    bounds := by decide }

/-- A run that dies inside the concurrent detach. -/
def diesDetaching : List Action :=
  [.begin 1 (firstOf 24318), .next, .next, .next, .crash]

/-- Runs and their crashes, whatever their clocks. -/
def Action.Unattended : Action → Prop
  | .begin _ _ | .next | .crash => True
  | .setRetention _ | .manualDetach _ | .manualDetachConcurrently _ | .manualFinalize _ => False

instance (action : Action) : Decidable action.Unattended :=
  match action with
  | .begin _ _ | .next | .crash => .isTrue trivial
  | .setRetention _ | .manualDetach _ | .manualDetachConcurrently _ | .manualFinalize _ =>
      .isFalse id

/-- A run that is over takes no further statement. -/
theorem Continues.eq_of_done (h : Continues s s') (hdone : s.run = none) : s' = s := by
  induction h with
  | refl => rfl
  | tail _ hstep ih =>
      subst ih
      rcases bind_eq_ok.mp hstep with ⟨run, hrun, _⟩
      have hsome := demand_eq_ok.mp hrun
      rw [hdone] at hsome
      cases hsome

end Retention
end Mobility
