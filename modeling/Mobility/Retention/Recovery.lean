import Mathlib.Logic.Relation
import Mobility.Retention.Evidence

/-!
# Recovery — the run after a crash takes up what was left half purged

From a state with every partition attached, runs that crash anywhere leave only partitions
that a `purge_started` row claims and that stay past the cutoff.  The next run that is not
interrupted classifies all of them as its own and works its list to the end.
-/

namespace Mobility
namespace Retention

open Lib

variable {catalog : Catalog} {s s' : State} {run : Run} {now : Moment}

/-! ## What crashes leave behind -/

/-- No run is going on, and nothing is detached or half detached. -/
def State.Whole (s : State) : Prop :=
  s.run = none ∧ ∀ table ∈ s.tables, table.attachment = .attached

/-- Runs up to a moment, and their crashes; nothing done by hand, the setting unchanged. -/
def Action.UpTo (now : Moment) : Action → Prop
  | .begin _ begun => begun ≤ now
  | .next | .crash => True
  | .setRetention _ | .manualDetach _ | .manualDetachConcurrently _ | .manualFinalize _ => False

instance (now : Moment) (action : Action) : Decidable (action.UpTo now) :=
  match action with
  | .begin _ begun => inferInstanceAs (Decidable (begun ≤ now))
  | .next | .crash => .isTrue trivial
  | .setRetention _ | .manualDetach _ | .manualDetachConcurrently _ | .manualFinalize _ =>
      .isFalse id

/-- What is half purged is claimed and past the cutoff, now and for a run in progress. -/
structure Recoverable (now : Moment) (s : State) : Prop where
  claimed : ∀ table ∈ s.tables, table.attachment ≠ .attached →
    Started s.audit table.name table.lower table.upper
      ∧ table.upper ≤ subtractCalendarMonths now s.pingRetentionMonths
  tasks : ∀ run, s.run = some run → ∀ task ∈ run.todo,
    task.partition.upper ≤ subtractCalendarMonths now s.pingRetentionMonths
  cutoff : ∀ run, s.run = some run → run.now ≤ now ∧ run.retentionMonths = s.pingRetentionMonths

theorem Recoverable.of_whole (h : s.Whole) : Recoverable now s where
  claimed := fun table htable hnot => absurd (h.2 table htable) hnot
  tasks := fun _ hrun => by rw [h.1] at hrun; cases hrun
  cutoff := fun _ hrun => by rw [h.1] at hrun; cases hrun

/-- A statement's partition may be detached: it is claimed and past the cutoff. -/
theorem Recoverable.detach (h : Recoverable now s) (hsound : Sound catalog s) (task : Task)
    (hrun : s.run = some run) (htask : task ∈ run.todo) (hnotStart : task ≠ .start task.partition)
    (attachment : Attachment) :
    ∀ table ∈ (s.setAttachment task.partition.name attachment).tables,
      table.attachment ≠ .attached → Started s.audit table.name table.lower table.upper
        ∧ table.upper ≤ subtractCalendarMonths now s.pingRetentionMonths := by
  have hbacked := hsound.backed run hrun task htask
  intro table' htable' hnot
  rcases mem_setAttachment htable' with
    ⟨table, htable, hname, hlower, hupper, ⟨hsame, _⟩ | ⟨_, rfl⟩⟩
  · rcases (hsound.accounted.bounds table htable).unique (hsame ▸ hbacked.exact) with
      ⟨htaskLower, htaskUpper⟩
    rw [hname, hlower, hupper, hsame, htaskLower, htaskUpper]
    exact ⟨hbacked.started.resolve_left hnotStart, h.tasks run hrun task htask⟩
  · exact h.claimed table' htable hnot

/-- A run that goes on with its own clock and setting. -/
theorem Recoverable.advance (h : Recoverable now s) (hrun : s.run = some run) {run' : Run}
    (hrun' : s'.run = some run') (hclock : run'.now = run.now ∧ run'.retentionMonths
      = run.retentionMonths ∧ s'.pingRetentionMonths = s.pingRetentionMonths)
    (hclaimed : ∀ table ∈ s'.tables, table.attachment ≠ .attached →
      Started s'.audit table.name table.lower table.upper
        ∧ table.upper ≤ subtractCalendarMonths now s.pingRetentionMonths)
    (htasks : ∀ task ∈ run'.todo,
      task.partition.upper ≤ subtractCalendarMonths now s.pingRetentionMonths) :
    Recoverable now s' := by
  rcases hclock with ⟨hnow, hmonths, hsetting⟩
  have honly : ∀ other, s'.run = some other → other = run' := fun other hother =>
    Option.some.inj (hother.symm.trans hrun')
  refine ⟨hsetting ▸ hclaimed, ?_, ?_⟩
  · intro other hother
    rw [honly other hother, hsetting]
    exact htasks
  · intro other hother
    rw [honly other hother, hsetting, hnow, hmonths]
    exact h.cutoff run hrun

theorem Recoverable.statement (h : Recoverable now s) (hsound : Sound catalog s)
    (hrun : s.run = some run) (hstatement : Statement s run s') : Recoverable now s' := by
  have hcutoff := h.cutoff run hrun
  have htasks := h.tasks run hrun
  -- the list shrinks, or its head is replaced about the same partition
  have hrest : ∀ {head : Task} {rest : List Task}, run.todo = head :: rest → ∀ task ∈ rest,
      task.partition.upper ≤ subtractCalendarMonths now s.pingRetentionMonths :=
    fun htodo task htask => htasks task (htodo ▸ List.mem_cons_of_mem _ htask)
  have hreplaced : ∀ {head next : Task} {rest : List Task}, run.todo = head :: rest →
      next.partition = head.partition → ∀ task ∈ next :: rest,
        task.partition.upper ≤ subtractCalendarMonths now s.pingRetentionMonths := by
    intro head next rest htodo hsame task htask
    rcases List.mem_cons.mp htask with rfl | htask
    · exact hsame ▸ htasks head (htodo ▸ List.mem_cons_self)
    · exact hrest htodo task htask
  have hrecorded : ∀ (rows : List DataPurgeAudit), ∀ table ∈ s.tables,
      table.attachment ≠ .attached → Started (s.audit ++ rows) table.name table.lower table.upper
        ∧ table.upper ≤ subtractCalendarMonths now s.pingRetentionMonths :=
    fun rows table htable hnot => (h.claimed table htable hnot).imp_left (·.append rows)
  cases hstatement with
  | raise =>
      exact ⟨h.claimed, fun _ hnone => absurd hnone (by simp [State.finish]),
        fun _ hnone => absurd hnone (by simp [State.finish])⟩
  | finalize partition rest htodo =>
      refine h.advance hrun rfl ⟨rfl, rfl, rfl⟩ ?_ (hreplaced htodo rfl)
      exact h.detach hsound (.finalize partition) hrun (htodo ▸ List.mem_cons_self)
        (by simp) _
  | recordFinalized partition rest htodo =>
      exact h.advance hrun rfl ⟨rfl, rfl, rfl⟩ (hrecorded _) (hrest htodo)
  | start partition rest table htodo =>
      exact h.advance hrun rfl ⟨rfl, rfl, rfl⟩ (hrecorded _) (hreplaced htodo rfl)
  | detach partition rest htodo =>
      refine h.advance hrun rfl ⟨rfl, rfl, rfl⟩ ?_ (hreplaced htodo rfl)
      exact h.detach hsound (.detach partition) hrun (htodo ▸ List.mem_cons_self)
        (by simp) _
  | completeDetach partition rest htodo =>
      refine h.advance hrun rfl ⟨rfl, rfl, rfl⟩ ?_ (hreplaced htodo rfl)
      exact h.detach hsound (.completeDetach partition) hrun
        (htodo ▸ List.mem_cons_self) (by simp) _
  | drop partition rest htodo _ hfresh =>
      refine h.advance hrun rfl ⟨rfl, rfl, rfl⟩ ?_ (hrest htodo)
      exact fun table htable => hrecorded _ table (List.mem_filter.mp htable).1
  | scan htodo hscanned =>
      refine h.advance hrun rfl ⟨rfl, rfl, rfl⟩ h.claimed ?_
      intro task htask
      rcases List.mem_map.mp htask with ⟨partition, hpartition, rfl⟩
      rcases List.mem_filter.mp hpartition with ⟨hlisted, hexpired⟩
      rcases mem_listPartitions.mp hlisted with ⟨table, htable, _, rfl⟩
      have hexpired : table.upper ≤ subtractCalendarMonths run.now run.retentionMonths :=
        of_decide_eq_true hexpired
      rw [hcutoff.2] at hexpired
      exact (hsound.accounted.bounds table htable).aligned.2.1.le_cutoff_of_le hexpired hcutoff.1
  | complete outcome batches rows =>
      exact ⟨hrecorded rows, fun _ hnone => absurd hnone (by simp [State.finish]),
        fun _ hnone => absurd hnone (by simp [State.finish])⟩

/-- The partitions a run begins with are past its cutoff. -/
theorem Begins.expired {jobRunId : Id} {begun : Moment} (h : Begins s jobRunId begun s') :
    s'.pingRetentionMonths = s.pingRetentionMonths ∧ ∀ run, s'.run = some run →
      run.now = begun ∧ run.retentionMonths = s.pingRetentionMonths ∧ ∀ task ∈ run.todo,
        task.partition.upper ≤ subtractCalendarMonths begun s.pingRetentionMonths := by
  cases h with
  | refuse outcome => exact ⟨rfl, fun _ hnone => absurd hnone (by simp [State.finish])⟩
  | work orphans horphans hexpired hauthorized =>
      refine ⟨rfl, ?_⟩
      intro run hrun
      rcases Option.some.inj hrun with rfl
      refine ⟨rfl, rfl, ?_⟩
      intro task htask
      rcases (mem_recoveryTasks htask).2 with hpartition | hpartition
      · rcases List.mem_filterMap.mp hpartition with ⟨orphan, horphan, hsome⟩
        have hlength := (checkedMap_forall₂ horphans).length_eq
        rw [← List.map_snd_zip hlength.ge] at horphan
        rcases List.mem_map.mp horphan with ⟨pair, hpair, rfl⟩
        rcases hexpired pair hpair with ⟨partition, hread, hupper⟩
        have hsame : partition = task.partition := Option.some.inj (hread.symm.trans hsome)
        exact hsame ▸ hupper
      · have hauthorized := (List.mem_filter.mp hpartition).2
        exact (of_decide_eq_true hauthorized).2

theorem recoverable_step {action : Action} (h : Recoverable now s) (hsound : Sound catalog s)
    (hupTo : action.UpTo now) (hstep : step s action = .ok s') : Recoverable now s' := by
  cases action with
  | begin jobRunId begun =>
      rcases ite_eq_ok.mp hstep with ⟨hnone, hstep⟩ | ⟨_, hstep⟩
      · rcases Except.ok.inj hstep with rfl
        have hbegins := beginRun_begins s jobRunId begun
        rcases hbegins.backed hsound.accounted with ⟨htables, haudit, hbacked⟩
        rcases hbegins.expired with ⟨hmonths, hexpired⟩
        refine ⟨?_, ?_, ?_⟩
        · rw [htables, haudit, hmonths]
          exact h.claimed
        · intro run hrun task htask
          rw [hmonths]
          exact (hbacked run hrun task htask).exact.aligned.2.1.le_cutoff_of_le
            ((hexpired run hrun).2.2 task htask) hupTo
        · intro run hrun
          rw [hmonths, (hexpired run hrun).1]
          exact ⟨hupTo, (hexpired run hrun).2.1⟩
      · rcases Except.ok.inj hstep with rfl
        exact ⟨h.claimed, h.tasks, h.cutoff⟩
  | next =>
      rcases bind_eq_ok.mp hstep with ⟨run, hrun, hstep⟩
      rcases pure_eq_ok.mp hstep with rfl
      exact h.statement hsound (demand_eq_ok.mp hrun) (nextStatement_statement s run)
  | crash =>
      rcases Except.ok.inj hstep with rfl
      exact ⟨h.claimed, fun _ hnone => absurd hnone (by simp), fun _ hnone => absurd hnone (by simp)⟩
  | setRetention months => exact hupTo.elim
  | manualDetach name => exact hupTo.elim
  | manualDetachConcurrently name => exact hupTo.elim
  | manualFinalize name => exact hupTo.elim

theorem Statement.months (h : Statement s run s') :
    s'.pingRetentionMonths = s.pingRetentionMonths := by
  cases h with
  | _ => rfl

theorem step_months {action : Action} (hupTo : action.UpTo now) (hstep : step s action = .ok s') :
    s'.pingRetentionMonths = s.pingRetentionMonths := by
  cases action with
  | begin jobRunId begun =>
      rcases ite_eq_ok.mp hstep with ⟨_, hstep⟩ | ⟨_, hstep⟩
      · rcases Except.ok.inj hstep with rfl
        exact (beginRun_begins s jobRunId begun).expired.1
      · rcases Except.ok.inj hstep with rfl
        rfl
  | next =>
      rcases bind_eq_ok.mp hstep with ⟨run, _, hstep⟩
      rcases pure_eq_ok.mp hstep with rfl
      exact (nextStatement_statement s run).months
  | crash =>
      rcases Except.ok.inj hstep with rfl
      rfl
  | setRetention months => exact hupTo.elim
  | manualDetach name => exact hupTo.elim
  | manualDetachConcurrently name => exact hupTo.elim
  | manualFinalize name => exact hupTo.elim

end Retention
end Mobility
