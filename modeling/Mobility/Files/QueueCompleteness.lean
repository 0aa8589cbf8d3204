import Mobility.Files.QueueRuns
import Mobility.Files.Safety

/-!
# QueueCompleteness — one failing deletion and the rest of the queue

`Unblocked` is exactly when a pass with a round for every receipt does what it should.  One
direction counts down the receipts that still need a round; the other follows the receipt that
is held up.
-/

namespace Mobility
namespace Files

open Lib

variable {createdAt : Id → Int} {outcome : Id → StorageOutcome}

/-! ## What every pass keeps -/

/-- How a receipt may change over a pass. -/
structure Progress (d d' : StoredObjectDeletion) : Prop where
  id : d'.id = d.id
  done : d.state = .completed → d'.state = .completed
  settled : d.state ≠ .pending → d'.state ≠ .pending ∧ d'.attempts = d.attempts
  once : d'.attempts ≤ d.attempts + 1

theorem Progress.refl (d : StoredObjectDeletion) : Progress d d :=
  ⟨rfl, fun h => h, fun h => ⟨h, rfl⟩, Nat.le_succ _⟩

/-- A failed call counts an attempt and leaves the receipt pending. -/
theorem progress_attempt {d : StoredObjectDeletion} (hpending : d.state = .pending)
    (code : Option String) : Progress d (d.attempt code .pending) :=
  ⟨rfl, fun h => absurd (hpending.symm.trans h) (by simp), fun h => absurd hpending h, Nat.le_refl _⟩

/-- A round, and the rest of the pass after it. -/
theorem Round.progress {w w₂ : Store} {x d d' : StoredObjectDeletion}
    {S : StoredObjectDeletion → Prop} {F U : List Id}
    {g : StoredObjectDeletion → StoredObjectDeletion} (h : Round x S F U g w w₂)
    (hids : (w.deletions.map (·.id)).Nodup) (hx : x ∈ w.deletions) (hd : d ∈ w.deletions)
    (hrest : Progress (g d) d') : Progress d d' := by
  have hattempts : (g d).attempts ≤ d.attempts + (if d.state = .pending ∧ d.id = x.id then 1 else 0)
      ∧ (d.state ≠ .pending → (g d).attempts = d.attempts) := by
    by_cases hid : d.id = x.id
    · cases eq_of_key_eq hids hd hx hid
      rw [h.self]
      by_cases hpending : x.state = .pending
      · exact ⟨by simp [hpending], fun hnot => absurd hpending hnot⟩
      · exact ⟨by simp [hpending], fun _ => by simp [hpending]⟩
    · rw [(h.others d hd hid).1]
      exact ⟨Nat.le_add_right _ _, fun _ => rfl⟩
  refine ⟨hrest.id.trans (h.same d).id, fun hdone => hrest.done ((h.forward d hd).2 hdone), ?_, ?_⟩
  · intro hstate
    have hsettled := hrest.settled fun hpending => hstate ((h.forward d hd).1 hpending)
    exact ⟨hsettled.1, hsettled.2.trans (hattempts.2 hstate)⟩
  · by_cases hpending : (g d).state = .pending
    · -- another receipt had the round
      have hother := (h.pending_iff hids hx hd).mp hpending
      rw [if_neg fun hself => hother.2 hself.2] at hattempts
      have honce := hrest.once
      omega
    · have hsettled := (hrest.settled hpending).2
      have hle := hattempts.1
      split_ifs at hle <;> omega

variable (createdAt outcome) in
/-- The rows of a pass, receipt by receipt. -/
theorem pass_progress (limit : Nat) {w : Store} (hlinked : Linked w) :
    ∃ G, (processStoredObjectDeletions createdAt outcome limit w).store.deletions
        = w.deletions.map G ∧ ∀ d ∈ w.deletions, Progress d (G d) := by
  have hsame : ∃ G, w.deletions = w.deletions.map G ∧ ∀ d ∈ w.deletions, Progress d (G d) :=
    ⟨id, (List.map_id _).symm, fun d _ => .refl d⟩
  induction limit generalizing w with
  | zero => exact hsame
  | succ limit ih =>
      cases hnext : w.nextDeletion createdAt with
      | none =>
          rw [processStoredObjectDeletions]
          simp only [hnext]
          exact hsame
      | some x =>
          rcases nextDeletion_some hnext with ⟨hx, hselectable⟩
          rcases pass_succ outcome hlinked hnext limit with
            ⟨-, -, hstore⟩ | ⟨hpending, -, code, objects, -, hstore⟩
              | ⟨-, S, F, U, g, w₂, hround, hstore⟩
          · rw [hstore]
            exact hsame
          · rw [hstore]
            refine ⟨fun d => if d.id = x.id then d.attempt (some code) .pending else d, rfl, ?_⟩
            intro d hd
            dsimp only
            split_ifs with hid
            · cases eq_of_key_eq hlinked.ids hd hx hid
              exact progress_attempt hpending _
            · exact .refl d
          · rw [hstore]
            have hlinked₂ := hround.linked hround.closed hlinked
            rcases ih hlinked₂ ⟨id, (List.map_id _).symm, fun d _ => .refl d⟩ with
              ⟨G, hG, hprogress⟩
            refine ⟨G ∘ g, by rw [hG, hround.deletions, List.map_map], fun d hd => ?_⟩
            exact hround.progress hlinked.ids hx hd (hprogress _ (hround.mem hd))

/-! ## The receipts that still need a round -/

open Classical in
/-- A selectable receipt that is pending, or is only left to be finalized and not stuck. -/
noncomputable def Store.needsRound (w : Store) (d : StoredObjectDeletion) : Bool :=
  w.Selectable d ∧ (d.state = .pending
    ∨ (d.state = .providerDeleted ∧ ¬ w.Awaits d ∧ ¬ w.Stuck d))

noncomputable def Store.agenda (w : Store) : Nat :=
  w.deletions.countP w.needsRound

theorem needsRound_iff {w : Store} {d : StoredObjectDeletion} : w.needsRound d = true ↔
    w.Selectable d ∧ (d.state = .pending
      ∨ (d.state = .providerDeleted ∧ ¬ w.Awaits d ∧ ¬ w.Stuck d)) := by
  simp [Store.needsRound]

theorem countP_lt {α : Type} {p q : α → Bool} {l : List α} (h : ∀ a ∈ l, q a = true → p a = true)
    {x : α} (hx : x ∈ l) (hp : p x = true) (hq : q x = false) : l.countP q < l.countP p := by
  induction l with
  | nil => cases hx
  | cons a l ih =>
      have hle : l.countP q ≤ l.countP p :=
        List.countP_mono_left fun b hb => h b (List.mem_cons_of_mem _ hb)
      rcases List.mem_cons.mp hx with rfl | hx
      · simp only [List.countP_cons, hp, hq, if_true]
        have hfalse : (if false = true then 1 else 0) = 0 := rfl
        omega
      · have hlt := ih (fun b hb => h b (List.mem_cons_of_mem _ hb)) hx
        have ha := h a List.mem_cons_self
        simp only [List.countP_cons]
        split_ifs with hqa hpa
        · omega
        · exact absurd (ha hqa) hpa
        · omega
        · omega

/-- A round of a receipt that is not stuck is one fewer to come. -/
theorem Round.agenda_lt {w w₂ : Store} {x : StoredObjectDeletion}
    {S : StoredObjectDeletion → Prop} {F U : List Id}
    {g : StoredObjectDeletion → StoredObjectDeletion} (h : Round x S F U g w w₂)
    (hlinked : Linked w) (hnext : w.nextDeletion createdAt = some x)
    (hfree : x.state = .pending ∨ ¬ w.Stuck x) : w₂.agenda < w.agenda := by
  rcases nextDeletion_some hnext with ⟨hx, hselectable⟩
  have hcount : w₂.agenda = w.deletions.countP (w₂.needsRound ∘ g) := by
    rw [Store.agenda, h.deletions, List.countP_map]
  rw [hcount]
  refine countP_lt ?_ hx ?_ ?_
  · intro d hd hneeds
    rcases needsRound_iff.mp hneeds with ⟨hselectable', hpending | ⟨hdeleted, hready, hstuck⟩⟩
    · exact needsRound_iff.mpr ⟨h.selectable_of hd hselectable', .inl ((h.forward d hd).1 hpending)⟩
    · rcases h.ready_of hlinked hx hselectable.1 hd hdeleted hready hstuck with
        ⟨-, hdeleted', hready', hstuck'⟩
      exact needsRound_iff.mpr ⟨h.selectable_of hd hselectable', .inr ⟨hdeleted', hready', hstuck'⟩⟩
  · refine needsRound_iff.mpr ⟨hselectable, ?_⟩
    by_cases hpending : x.state = .pending
    · exact .inl hpending
    · refine .inr ⟨?_, ?_, hfree.resolve_left hpending⟩
      · cases hstate : x.state with
        | pending => exact absurd hstate hpending
        | providerDeleted => rfl
        | completed => exact absurd hstate hselectable.1
      · rintro ⟨s, hs, hsib, hspending⟩
        exact hpending (nextDeletion_pending hnext hs
          (hselectable.sibling hsib (by rw [hspending]; simp)) hspending)
  · refine Bool.eq_false_iff.mpr fun hneeds => ?_
    rcases needsRound_iff.mp hneeds with ⟨hselectable', hpending | ⟨-, hready, hstuck⟩⟩
    · exact h.self_not_pending hx hpending
    · rcases h.self_waits hlinked.ids hx hselectable'.1 with hwaits | hstuck'
      · exact hready hwaits
      · exact hstuck hstuck'

/-! ## An unblocked queue is served -/

/-- What the pass owes one selectable receipt. -/
structure Served (outcome : Id → StorageOutcome) (w : Store) (d d' : StoredObjectDeletion) :
    Prop where
  attempted : d.state = .pending → d'.attempts = d.attempts + 1
  completed : (d.state = .pending → (outcome d.id).errorCode = none) → ¬ w.StillReferenced d →
    d'.state = .completed
  recorded : d.state = .pending → ∀ code, (outcome d.id).errorCode = some code →
    d'.state = .pending ∧ d'.lastErrorCode = some code

/-- Nothing is owed where no receipt is pending, and none that is left has a free file. -/
theorem served_of_idle {w : Store} {d d' : StoredObjectDeletion} (hstate : d.state ≠ .pending)
    (hreferenced : w.StillReferenced d) : Served outcome w d d' :=
  ⟨fun h => absurd h hstate, fun _ h => absurd hreferenced h, fun h => absurd h hstate⟩

theorem Round.served {w w₂ : Store} {x d d' : StoredObjectDeletion}
    {S : StoredObjectDeletion → Prop} {F U : List Id}
    {g : StoredObjectDeletion → StoredObjectDeletion} (h : Round x S F U g w w₂)
    (hids : (w.deletions.map (·.id)).Nodup) (hx : x ∈ w.deletions)
    (hcall : x.state = .pending → (outcome x.id).errorCode = none) (hd : d ∈ w.deletions)
    (hselectable : w.Selectable d) (hprogress : Progress (g d) d')
    (hserved : w₂.Selectable (g d) → Served outcome w₂ (g d) d') : Served outcome w d d' := by
  have hid := (h.same d).id
  -- a pending receipt is the one of the round, or pending for a later one
  have hcases : d.state = .pending → d = x ∨ ((g d).state = .pending
      ∧ (g d).attempts = d.attempts) := by
    intro hpending
    by_cases hdx : d.id = x.id
    · exact .inl (eq_of_key_eq hids hd hx hdx)
    · exact .inr ⟨(h.pending_iff hids hx hd).mpr ⟨hpending, hdx⟩, (h.others d hd hdx).1⟩
  have hlater : (g d).state = .pending → Served outcome w₂ (g d) d' := fun hpending =>
    hserved (h.selectable hselectable (by rw [hpending]; simp))
  refine ⟨?_, ?_, ?_⟩
  · intro hpending
    rcases hcases hpending with rfl | ⟨hpending', hattempts⟩
    · rw [(hprogress.settled (h.self_not_pending hx)).2, h.self, if_pos hpending]
    · rw [(hlater hpending').attempted hpending', hattempts]
  · intro hgone hfree
    by_cases hopen : (g d).state = .completed
    · exact hprogress.done hopen
    · refine (hserved (h.selectable hselectable hopen)).completed ?_ ?_
      · intro hpending
        rw [hid]
        exact hgone ((h.forward d hd).1 hpending)
      · exact fun href => hfree ((h.stillReferenced_iff hd (h.not_taken hd hopen)).mp href)
  · intro hpending code hcode
    rcases hcases hpending with rfl | ⟨hpending', -⟩
    · rw [hcall hpending] at hcode
      cases hcode
    · exact (hlater hpending').recorded hpending' code (by rw [hid]; exact hcode)

/-- A failed call ends the pass; the receipt was the last of its queue. -/
theorem served_of_failed {w : Store} (hlinked : Linked w) (hfree : Unblocked createdAt outcome w)
    {x : StoredObjectDeletion} (hnext : w.nextDeletion createdAt = some x)
    (hpending : x.state = .pending) {code : String} (hcode : (outcome x.id).errorCode = some code)
    {d : StoredObjectDeletion} (hd : d ∈ w.deletions) (hselectable : w.Selectable d) :
    Served outcome w d (if d.id = x.id then d.attempt (some code) .pending else d) := by
  rcases nextDeletion_some hnext with ⟨hx, hxselectable⟩
  have hfails : (outcome x.id).errorCode ≠ none := by
    rw [hcode]
    simp
  have hlast := hfree.lastToFail x hx hxselectable hpending hfails
  -- every other pending receipt would have been selected before
  have honly : ∀ s ∈ w.deletions, w.Selectable s → s.state = .pending → s.id = x.id := by
    intro s hs hsselectable hspending
    by_contra hne
    have hbefore := (hlast s hs hsselectable hne).1 hspending
    have hage := nextDeletion_age hnext hs hsselectable
      ⟨fun _ => hspending, fun _ => hpending⟩
    exact absurd hbefore (not_lt.mpr hage)
  by_cases hid : d.id = x.id
  · rw [if_pos hid]
    cases eq_of_key_eq hlinked.ids hd hx hid
    refine ⟨fun _ => rfl, fun hgone => absurd (hgone hpending) hfails, fun _ code' hcode' => ?_⟩
    rw [hcode] at hcode'
    cases hcode'
    exact ⟨rfl, rfl⟩
  · rw [if_neg hid]
    have hstate : d.state ≠ .pending := fun h => hid (honly d hd hselectable h)
    refine served_of_idle hstate ?_
    by_contra hunreferenced
    rcases (hlast d hd hselectable hid).2 hunreferenced with ⟨hsib, hwaits⟩
    have hdeleted : d.state = .providerDeleted := by
      cases hdstate : d.state with
      | pending => exact absurd hdstate hstate
      | providerDeleted => rfl
      | completed => exact absurd hdstate hselectable.1
    rcases hwaits hdeleted with ⟨s, hs, hssib, hspending⟩
    have hsx := honly s hs (hselectable.sibling hssib (by rw [hspending]; simp)) hspending
    cases eq_of_key_eq hlinked.ids hs hx hsx
    exact hsib hssib.symm

/-- When a stuck receipt is selected, nothing else is left to complete. -/
theorem served_of_stuck {w : Store} (hfree : Unblocked createdAt outcome w)
    {x : StoredObjectDeletion} (hnext : w.nextDeletion createdAt = some x)
    (hdeleted : x.state ≠ .pending) (hstuck : w.Stuck x) {d d' : StoredObjectDeletion}
    (hd : d ∈ w.deletions) (hselectable : w.Selectable d) : Served outcome w d d' := by
  rcases nextDeletion_some hnext with ⟨hx, hxselectable⟩
  have hnone : ∀ s ∈ w.deletions, w.Selectable s → s.state ≠ .pending :=
    fun s hs hsselectable hspending =>
      hdeleted (nextDeletion_pending hnext hs hsselectable hspending)
  refine served_of_idle (hnone d hd hselectable) ?_
  by_contra hunreferenced
  have hstate : d.state = .providerDeleted := by
    cases hdstate : d.state with
    | pending => exact absurd hdstate (hnone d hd hselectable)
    | providerDeleted => rfl
    | completed => exact absurd hdstate hselectable.1
  have hready : ¬ w.Awaits d := by
    rintro ⟨s, hs, hsib, hspending⟩
    exact hnone s hs (hselectable.sibling hsib (by rw [hspending]; simp)) hspending
  rcases hfree.stuckLast x hx hxselectable hstuck d hd hselectable hstate hready hunreferenced with
    ⟨y, hy, hyopen, hsib, hbefore⟩
  have hyselectable := hselectable.sibling hsib hyopen
  have hage := nextDeletion_age hnext hy hyselectable
    ⟨fun h => absurd h hdeleted, fun h => absurd h (hnone y hy hyselectable)⟩
  exact absurd hbefore (not_lt.mpr hage)

theorem pass_serves (limit : Nat) {w : Store} (hlinked : Linked w)
    (hfree : Unblocked createdAt outcome w) (hlimit : w.agenda ≤ limit) :
    ∃ G, (processStoredObjectDeletions createdAt outcome limit w).store.deletions
        = w.deletions.map G
      ∧ ∀ d ∈ w.deletions, Progress d (G d) ∧ (w.Selectable d → Served outcome w d (G d)) := by
  induction limit generalizing w with
  | zero =>
      refine ⟨id, (List.map_id _).symm, fun d hd => ⟨.refl d, fun hselectable => ?_⟩⟩
      -- no receipt needs a round, so the free ones are completed
      have hnone : ∀ s ∈ w.deletions, w.needsRound s = false := by
        intro s hs
        have hzero := List.countP_eq_zero.mp (Nat.le_zero.mp hlimit) s hs
        simpa using hzero
      have hidle : ∀ s ∈ w.deletions, w.Selectable s → s.state ≠ .pending := by
        intro s hs hsselectable hspending
        exact absurd (needsRound_iff.mpr ⟨hsselectable, .inl hspending⟩)
          (Bool.eq_false_iff.mp (hnone s hs))
      refine served_of_idle (hidle d hd hselectable) ?_
      by_contra hunreferenced
      have hdeleted : d.state = .providerDeleted := by
        cases hdstate : d.state with
        | pending => exact absurd hdstate (hidle d hd hselectable)
        | providerDeleted => rfl
        | completed => exact absurd hdstate hselectable.1
      refine absurd (needsRound_iff.mpr ⟨hselectable, .inr ⟨hdeleted, ?_, fun hstuck =>
        hunreferenced hstuck.2⟩⟩) (Bool.eq_false_iff.mp (hnone d hd))
      rintro ⟨s, hs, hsib, hspending⟩
      exact hidle s hs (hselectable.sibling hsib (by rw [hspending]; simp)) hspending
  | succ limit ih =>
      cases hnext : w.nextDeletion createdAt with
      | none =>
          rw [processStoredObjectDeletions]
          simp only [hnext]
          exact ⟨id, (List.map_id _).symm, fun d hd => ⟨.refl d, fun hselectable =>
            absurd hselectable (nextDeletion_none hnext hd)⟩⟩
      | some x =>
          rcases nextDeletion_some hnext with ⟨hx, hxselectable⟩
          rcases pass_succ outcome hlinked hnext limit with
            ⟨hpending, hrefused, -⟩ | ⟨hpending, -, code, objects, hcode, hstore⟩
              | ⟨hcall, S, F, U, g, w₂, hround, hstore⟩
          · exact absurd (hfree.unrefused x hx hxselectable hpending) hrefused
          · rw [hstore]
            refine ⟨fun d => if d.id = x.id then d.attempt (some code) .pending else d, rfl, ?_⟩
            intro d hd
            refine ⟨?_, served_of_failed hlinked hfree hnext hpending hcode hd⟩
            dsimp only
            split_ifs with hid
            · cases eq_of_key_eq hlinked.ids hd hx hid
              exact progress_attempt hpending _
            · exact .refl d
          · by_cases hstuck : x.state ≠ .pending ∧ w.Stuck x
            · rcases pass_progress createdAt outcome (limit + 1) hlinked
                with ⟨G, hG, hprogress⟩
              exact ⟨G, hG, fun d hd => ⟨hprogress d hd,
                served_of_stuck hfree hnext hstuck.1 hstuck.2 hd⟩⟩
            · have hlt := hround.agenda_lt hlinked hnext (by
                by_cases hpending : x.state = .pending
                · exact .inl hpending
                · exact .inr fun h => hstuck ⟨hpending, h⟩)
              rcases ih (hround.linked hround.closed hlinked)
                (hround.unblocked hlinked hx hxselectable.1 hfree) (by omega) with ⟨G, hG, hserved⟩
              rw [hstore]
              refine ⟨G ∘ g, by rw [hG, hround.deletions, List.map_map], fun d hd => ?_⟩
              rcases hserved _ (hround.mem hd) with ⟨hprogress, hserved⟩
              exact ⟨hround.progress hlinked.ids hx hd hprogress, fun hselectable =>
                hround.served hlinked.ids hx (fun hpending => (hcall hpending).2) hd hselectable
                  hprogress hserved⟩

theorem agenda_le (w : Store) : w.agenda ≤ w.deletions.length :=
  List.countP_le_length

theorem neverBlocks_of_unblocked {w : Store} (hlinked : Linked w)
    (hfree : Unblocked createdAt outcome w) {limit : Nat} (hlimit : w.deletions.length ≤ limit) :
    NeverBlocks outcome w (processStoredObjectDeletions createdAt outcome limit w).store := by
  rcases pass_serves limit hlinked hfree (le_trans (agenda_le w) hlimit) with ⟨G, hG, hserved⟩
  have hmem : ∀ d ∈ w.deletions,
      G d ∈ (processStoredObjectDeletions createdAt outcome limit w).store.deletions := by
    intro d hd
    rw [hG]
    exact List.mem_map_of_mem hd
  refine ⟨?_, ?_, ?_, ?_⟩
  · intro d hd hselectable hpending
    exact ⟨G d, hmem d hd, (hserved d hd).1.id, ((hserved d hd).2 hselectable).attempted hpending⟩
  · intro d hd hselectable hgone hunreferenced
    exact ⟨G d, hmem d hd, (hserved d hd).1.id,
      ((hserved d hd).2 hselectable).completed hgone hunreferenced⟩
  · intro d hd hselectable hpending code hcode
    rcases ((hserved d hd).2 hselectable).recorded hpending code hcode with ⟨hstate, herror⟩
    exact ⟨G d, hmem d hd, (hserved d hd).1.id, hstate, herror⟩
  · intro d hd
    exact ⟨G d, hmem d hd, (hserved d hd).1.id, (hserved d hd).1.once⟩

/-! ## A blocked queue is not -/

theorem mem_callFailed {w : Store} {x d : StoredObjectDeletion} {code : String}
    {objects : List StorageKey} (hd : d ∈ w.deletions) (hne : d.id ≠ x.id) :
    d ∈ (w.callFailed x code objects).deletions :=
  List.mem_map.mpr ⟨d, hd, if_neg hne⟩

/-- A failed call completes nothing. -/
theorem open_callFailed {w : Store} {d : StoredObjectDeletion} (x : StoredObjectDeletion)
    (code : String) (objects : List StorageKey) (hd : d ∈ w.deletions) (hopen : d.state ≠ .completed) :
    ∃ d' ∈ (w.callFailed x code objects).deletions, d'.id = d.id ∧ d'.state ≠ .completed := by
  refine ⟨_, List.mem_map_of_mem hd, ?_⟩
  split_ifs
  · exact ⟨rfl, by simp [StoredObjectDeletion.attempt]⟩
  · exact ⟨rfl, hopen⟩

/-- The receipt has the attempts it had. -/
def Unattempted (id : Id) (attempts : Nat) (w : Store) : Prop :=
  ∃ d ∈ w.deletions, d.id = id ∧ d.attempts = attempts

def Uncompleted (id : Id) (w : Store) : Prop :=
  ∃ d ∈ w.deletions, d.id = id ∧ d.state ≠ .completed

/-- A refused receipt is not attempted. -/
theorem refused_unattempted (limit : Nat) {w : Store} (hlinked : Linked w)
    {d : StoredObjectDeletion} (hd : d ∈ w.deletions) (hselectable : w.Selectable d)
    (hpending : d.state = .pending) (hrefused : ¬ w.MayDelete d) :
    Unattempted d.id d.attempts (processStoredObjectDeletions createdAt outcome limit w).store := by
  refine pass_run (P := fun v => Linked v ∧ ∃ e ∈ v.deletions, e.id = d.id
    ∧ e.attempts = d.attempts ∧ v.Selectable e ∧ e.state = .pending ∧ ¬ v.MayDelete e)
    (fun v hv => hv.1) ?_ ?_ ?_ limit ⟨hlinked, d, hd, rfl, rfl, hselectable, hpending, hrefused⟩
  · rintro v ⟨-, e, he, hid, hattempts, -⟩
    exact ⟨e, he, hid, hattempts⟩
  · rintro v x code objects ⟨hv, e, he, hid, hattempts, -, -, hnot⟩ hnext - hmay -
    have hne : e.id ≠ x.id := by
      intro hex
      rw [eq_of_key_eq hv.ids he (nextDeletion_some hnext).1 hex] at hnot
      exact hnot hmay
    exact ⟨e, mem_callFailed he hne, hid, hattempts⟩
  · rintro v x S F U g v₂ ⟨hv, e, he, hid, hattempts, heselectable, hepending, hnot⟩ hnext hcall h
    have hx := (nextDeletion_some hnext).1
    have hne : e.id ≠ x.id := by
      intro hex
      cases eq_of_key_eq hv.ids he hx hex
      exact hnot (hcall hepending).1
    have hstate := (h.pending_iff hv.ids hx he).mpr ⟨hepending, hne⟩
    refine ⟨h.linked h.closed hv, g e, h.mem he, (h.same e).id.trans hid,
      (h.others e he hne).1.trans hattempts, h.selectable heselectable (by rw [hstate]; simp),
      hstate, ?_⟩
    unfold Store.MayDelete at hnot ⊢
    rw [(h.same e).ownerType, (h.same e).ownerId, h.unreferenced_iff]
    exact hnot

/-- A receipt whose call fails, still pending. -/
def StillFailing (outcome : Id → StorageOutcome) (f : StoredObjectDeletion) (w : Store)
    (f' : StoredObjectDeletion) : Prop :=
  f' ∈ w.deletions ∧ f'.id = f.id ∧ w.Selectable f' ∧ f'.state = .pending
    ∧ (outcome f.id).errorCode ≠ none

/-- The pass does not go on from a failed call. -/
theorem Round.stillFailing {w w₂ : Store} {x f f' : StoredObjectDeletion}
    {S : StoredObjectDeletion → Prop} {F U : List Id}
    {g : StoredObjectDeletion → StoredObjectDeletion} (h : Round x S F U g w w₂)
    (hids : (w.deletions.map (·.id)).Nodup) (hx : x ∈ w.deletions)
    (hcall : x.state = .pending → w.MayDelete x ∧ (outcome x.id).errorCode = none)
    (hf : StillFailing outcome f w f') :
    f'.id ≠ x.id ∧ StillFailing outcome f w₂ (g f') := by
  rcases hf with ⟨hmem, hid, hselectable, hpending, hfails⟩
  have hne : f'.id ≠ x.id := by
    intro hfx
    cases eq_of_key_eq hids hmem hx hfx
    rw [← hid] at hfails
    exact hfails (hcall hpending).2
  have hstate := (h.pending_iff hids hx hmem).mpr ⟨hpending, hne⟩
  exact ⟨hne, h.mem hmem, (h.same f').id.trans hid, h.selectable hselectable (by rw [hstate]; simp),
    hstate, hfails⟩

/-- Behind a receipt whose call fails no pending receipt is attempted. -/
theorem behind_failure_unattempted (limit : Nat) {w : Store} (hlinked : Linked w)
    {f e : StoredObjectDeletion} (hf : StillFailing outcome f w f)
    (he : e ∈ w.deletions) (hepending : e.state = .pending)
    (hbehind : age createdAt f < age createdAt e) :
    Unattempted e.id e.attempts (processStoredObjectDeletions createdAt outcome limit w).store := by
  -- the failing receipt comes before this one
  have hselected : ∀ (v : Store) (x f' e' : StoredObjectDeletion),
      v.nextDeletion createdAt = some x → StillFailing outcome f v f' → e'.id = e.id →
        e'.id ≠ x.id := by
    rintro v x f' e' hnext ⟨hf', hfid, hfselectable, hfpending, -⟩ heid hex
    have hxpending := nextDeletion_pending hnext hf' hfselectable hfpending
    have hage := nextDeletion_age hnext hf' hfselectable ⟨fun _ => hfpending, fun _ => hxpending⟩
    have hagex : age createdAt x = age createdAt e := by rw [age, age, ← hex, heid]
    have hagef : age createdAt f' = age createdAt f := by rw [age, age, hfid]
    rw [hagex, hagef] at hage
    exact absurd hbehind (not_lt.mpr hage)
  refine pass_run (P := fun v => Linked v ∧ (∃ f', StillFailing outcome f v f')
    ∧ ∃ e' ∈ v.deletions, e'.id = e.id ∧ e'.attempts = e.attempts ∧ e'.state = .pending)
    (fun v hv => hv.1) ?_ ?_ ?_ limit ⟨hlinked, ⟨f, hf⟩, e, he, rfl, rfl, hepending⟩
  · rintro v ⟨-, -, e', he', hid, hattempts, -⟩
    exact ⟨e', he', hid, hattempts⟩
  · rintro v x code objects ⟨hv, ⟨f', hf'⟩, e', he', hid, hattempts, -⟩ hnext - - -
    exact ⟨e', mem_callFailed he' (hselected v x f' e' hnext hf' hid), hid, hattempts⟩
  · rintro v x S F U g v₂ ⟨hv, ⟨f', hf'⟩, e', he', hid, hattempts, hep⟩ hnext hcall h
    have hx := (nextDeletion_some hnext).1
    have hne := hselected v x f' e' hnext hf' hid
    exact ⟨h.linked h.closed hv, ⟨g f', (h.stillFailing hv.ids hx hcall hf').2⟩,
      g e', h.mem he', (h.same e').id.trans hid, (h.others e' he' hne).1.trans hattempts,
      (h.pending_iff hv.ids hx he').mpr ⟨hep, hne⟩⟩

/-- What the round does not take stays open. -/
theorem Round.stays_open {w w₂ : Store} {x d : StoredObjectDeletion}
    {S : StoredObjectDeletion → Prop} {F U : List Id}
    {g : StoredObjectDeletion → StoredObjectDeletion} (h : Round x S F U g w w₂)
    (hids : (w.deletions.map (·.id)).Nodup) (hx : x ∈ w.deletions) (hd : d ∈ w.deletions)
    (hopen : d.state ≠ .completed) (hS : ¬ S d) : (g d).state ≠ .completed := by
  by_cases hid : d.id = x.id
  · cases eq_of_key_eq hids hd hx hid
    rcases h.result with ⟨hSx, -⟩ | ⟨-, hstate, -⟩
    · exact absurd hSx hS
    · rw [hstate]
      simp
  · rw [(h.others d hd hid).2.2 hS]
    exact hopen

/-- A receipt that no round takes is not completed. -/
theorem pass_leaves_open {P : Store → StoredObjectDeletion → Prop}
    (hround : ∀ (v : Store) (x : StoredObjectDeletion) S F U g v₂ (e : StoredObjectDeletion),
      Linked v → e ∈ v.deletions → e.state ≠ .completed → P v e →
      v.nextDeletion createdAt = some x →
      (x.state = .pending → v.MayDelete x ∧ (outcome x.id).errorCode = none) →
      Round x S F U g v v₂ → ¬ S e ∧ P v₂ (g e))
    (limit : Nat) {w : Store} (hlinked : Linked w) {e : StoredObjectDeletion}
    (he : e ∈ w.deletions) (hopen : e.state ≠ .completed) (hP : P w e) :
    Uncompleted e.id (processStoredObjectDeletions createdAt outcome limit w).store := by
  refine pass_run (P := fun v => Linked v ∧ ∃ e' ∈ v.deletions, e'.id = e.id
    ∧ e'.state ≠ .completed ∧ P v e') (fun v hv => hv.1) ?_ ?_ ?_ limit
    ⟨hlinked, e, he, rfl, hopen, hP⟩
  · rintro v ⟨-, e', he', hid, hopen', -⟩
    exact ⟨e', he', hid, hopen'⟩
  · rintro v x code objects ⟨-, e', he', hid, hopen', -⟩ - - - -
    rcases open_callFailed x code objects he' hopen' with
      ⟨e'', he'', hid', hopen''⟩
    exact ⟨e'', he'', hid'.trans hid, hopen''⟩
  · rintro v x S F U g v₂ ⟨hv, e', he', hid, hopen', hP'⟩ hnext hcall h
    rcases hround v x S F U g v₂ e' hv he' hopen' hP' hnext hcall h with ⟨hS, hP₂⟩
    exact ⟨h.linked h.closed hv, g e', h.mem he', (h.same e').id.trans hid,
      h.stays_open hv.ids (nextDeletion_some hnext).1 he' hopen' hS, hP₂⟩

/-- A round that completes a receipt is that of a sibling. -/
theorem Round.sibling_of_taken {w w₂ : Store} {x d : StoredObjectDeletion}
    {S : StoredObjectDeletion → Prop} {F U : List Id}
    {g : StoredObjectDeletion → StoredObjectDeletion} (h : Round x S F U g w w₂)
    (hids : (w.deletions.map (·.id)).Nodup) (hx : x ∈ w.deletions) (hd : d ∈ w.deletions)
    (hS : S d) : x.SiblingOf d := by
  rcases (h.settled d hd hS).1 with hid | ⟨-, hsib⟩
  · rw [eq_of_key_eq hids hd hx hid]
    exact .refl x
  · exact hsib

/-- A sibling of a receipt whose call fails waits for it. -/
theorem sibling_of_failure_uncompleted (limit : Nat) {w : Store} (hlinked : Linked w)
    {f e : StoredObjectDeletion} (hf : StillFailing outcome f w f) (he : e ∈ w.deletions)
    (hopen : e.state ≠ .completed) (hsib : f.SiblingOf e) :
    Uncompleted e.id (processStoredObjectDeletions createdAt outcome limit w).store := by
  refine pass_leaves_open (P := fun v e' => ∃ f', StillFailing outcome f v f' ∧ f'.SiblingOf e')
    ?_ limit hlinked he hopen ⟨f, hf, hsib⟩
  rintro v x S F U g v₂ e' hv he' hopen' ⟨f', hf', hsib'⟩ hnext hcall h
  rcases nextDeletion_some hnext with ⟨hx, hxselectable⟩
  rcases h.stillFailing hv.ids hx hcall hf' with ⟨hne, hkept⟩
  refine ⟨fun hS => ?_, g f', hkept, h.sibling_iff.mpr hsib'⟩
  -- the round would have taken the failing receipt along
  have hxf : x.SiblingOf f' := (h.sibling_of_taken hv.ids hx he' hS).trans hsib'.symm
  have hjoint := hv.joint hx hf'.1 (fun hid => hne hid.symm) hxf hxselectable.1
    (by rw [hf'.2.2.2.1]; simp)
  rcases h.result with ⟨-, -, htakes⟩ | ⟨hnone, -⟩
  · exact (h.settled f' hf'.1 (htakes hjoint f' hf'.1 hxf)).2 hne hf'.2.2.2.1
  · exact hnone e' hS

/-- While a receipt fails, no receipt is only finalized. -/
theorem ready_uncompleted (limit : Nat) {w : Store} (hlinked : Linked w)
    {f e : StoredObjectDeletion} (hf : StillFailing outcome f w f) (he : e ∈ w.deletions)
    (hopen : e.state ≠ .completed) (hready : ¬ w.Awaits e) :
    Uncompleted e.id (processStoredObjectDeletions createdAt outcome limit w).store := by
  refine pass_leaves_open (P := fun v e' => (∃ f', StillFailing outcome f v f') ∧ ¬ v.Awaits e')
    ?_ limit hlinked he hopen ⟨⟨f, hf⟩, hready⟩
  rintro v x S F U g v₂ e' hv he' hopen' ⟨⟨f', hf'⟩, hready'⟩ hnext hcall h
  have hx := (nextDeletion_some hnext).1
  refine ⟨fun hS => ?_, ⟨g f', (h.stillFailing hv.ids hx hcall hf').2⟩, ?_⟩
  · exact hready' ⟨x, hx, (h.sibling_of_taken hv.ids hx he' hS).symm,
      nextDeletion_pending hnext hf'.1 hf'.2.2.1 hf'.2.2.2.1⟩
  · rintro ⟨s', hs', hsib, hpending⟩
    rcases h.exists_of_mem hs' with ⟨s, hs, rfl⟩
    exact hready' ⟨s, hs, h.sibling_iff.mp hsib, (h.forward s hs).1 hpending⟩

/-- Behind a stuck receipt nothing is finalized. -/
theorem behind_stuck_uncompleted (limit : Nat) {w : Store} (hlinked : Linked w)
    {d e : StoredObjectDeletion} (hd : d ∈ w.deletions) (hselectable : w.Selectable d)
    (hstuck : w.Stuck d) (he : e ∈ w.deletions) (hopen : e.state ≠ .completed)
    (hready : ¬ w.Awaits e)
    (hbehind : ∀ y ∈ w.deletions, y.state ≠ .completed → e.SiblingOf y →
      ¬ age createdAt y < age createdAt d) :
    Uncompleted e.id (processStoredObjectDeletions createdAt outcome limit w).store := by
  have hage : ∀ {x : StoredObjectDeletion} {S F U g} {v v₂ : Store}, Round x S F U g v v₂ →
      ∀ y, age createdAt (g y) = age createdAt y := fun h y => by
    rw [age, age, (h.same y).id]
  refine pass_leaves_open (P := fun v e' => (∃ d' ∈ v.deletions, v.Selectable d' ∧ v.Stuck d'
    ∧ ∀ y ∈ v.deletions, y.state ≠ .completed → e'.SiblingOf y →
      ¬ age createdAt y < age createdAt d') ∧ ¬ v.Awaits e')
    ?_ limit hlinked he hopen ⟨⟨d, hd, hselectable, hstuck, hbehind⟩, hready⟩
  rintro v x S F U g v₂ e' hv he' hopen' ⟨⟨d', hd', hselectable', hstuck', hbehind'⟩, hready'⟩ hnext
    hcall h
  rcases nextDeletion_some hnext with ⟨hx, hxselectable⟩
  -- the stuck receipt is not taken: it has no open sibling
  have hSd : ¬ S d' := by
    intro hS
    have hsame := hv.eq_of_stillReferenced hd' hx hstuck'.1 hstuck'.2
      (h.sibling_of_taken hv.ids hx hd' hS).symm hselectable'.1 hxselectable.1
    cases eq_of_key_eq hv.ids hd' hx hsame
    rcases h.result with ⟨-, hfree, -⟩ | ⟨hnone, -⟩
    · exact hfree hstuck'
    · exact hnone x hS
  have hSe : ¬ S e' := by
    intro hS
    have hsib := (h.sibling_of_taken hv.ids hx he' hS).symm
    have hxstate : x.state ≠ .pending := fun hpending => hready' ⟨x, hx, hsib, hpending⟩
    have hdstate : d'.state ≠ .pending := fun hpending =>
      hxstate (nextDeletion_pending hnext hd' hselectable' hpending)
    have hle := nextDeletion_age hnext hd' hselectable'
      ⟨fun hpending => absurd hpending hxstate, fun hpending => absurd hpending hdstate⟩
    have heq := le_antisymm hle (not_lt.mp (hbehind' x hx hxselectable.1 hsib))
    -- the round would be that of the stuck receipt itself
    cases eq_of_key_eq hv.ids hx hd' (age_injective heq)
    rcases h.result with ⟨-, hfree, -⟩ | ⟨hnone, -⟩
    · exact hfree hstuck'
    · exact hnone e' hS
  have hopen₂ := h.stays_open hv.ids hx hd' hselectable'.1 hSd
  refine ⟨hSe, ⟨g d', h.mem hd', h.selectable hselectable' hopen₂, (h.stuck_iff hd' hSd).mpr hstuck',
    ?_⟩, ?_⟩
  · intro y' hy' hyopen hsib
    rcases h.exists_of_mem hy' with ⟨y, hy, rfl⟩
    rw [hage h, hage h]
    exact hbehind' y hy (h.open_of hy hyopen) (h.sibling_iff.mp hsib)
  · rintro ⟨s', hs', hsib, hpending⟩
    rcases h.exists_of_mem hs' with ⟨s, hs, rfl⟩
    exact hready' ⟨s, hs, h.sibling_iff.mp hsib, (h.forward s hs).1 hpending⟩

/-! ## The condition -/

theorem unblocked_of_neverBlocks {w : Store} (hlinked : Linked w) (limit : Nat)
    (h : NeverBlocks outcome w (processStoredObjectDeletions createdAt outcome limit w).store) :
    Unblocked createdAt outcome w := by
  rcases pass_progress createdAt outcome limit hlinked with
    ⟨G, hG, hprogress⟩
  have hids :
      ((processStoredObjectDeletions createdAt outcome limit w).store.deletions.map (·.id)).Nodup := by
    rw [hG, List.map_map]
    have hsame : w.deletions.map ((·.id) ∘ G) = w.deletions.map (·.id) :=
      List.map_congr_left fun d hd => (hprogress d hd).id
    rw [hsame]
    exact hlinked.ids
  have hattempted : ∀ d ∈ w.deletions, w.Selectable d → d.state = .pending →
      ¬ Unattempted d.id d.attempts
        (processStoredObjectDeletions createdAt outcome limit w).store := by
    rintro d hd hselectable hpending ⟨e, he, hid, hattempts⟩
    rcases h.attempted d hd hselectable hpending with ⟨d', hd', hid', hattempts'⟩
    cases eq_of_key_eq hids he hd' (hid.trans hid'.symm)
    omega
  have hcompleted : ∀ d ∈ w.deletions, w.Selectable d →
      (d.state = .pending → (outcome d.id).errorCode = none) → ¬ w.StillReferenced d →
        ¬ Uncompleted d.id (processStoredObjectDeletions createdAt outcome limit w).store := by
    rintro d hd hselectable hgone hfree ⟨e, he, hid, hopen⟩
    rcases h.completed d hd hselectable hgone hfree with ⟨d', hd', hid', hdone⟩
    cases eq_of_key_eq hids he hd' (hid.trans hid'.symm)
    exact hopen hdone
  refine ⟨?_, ?_, ?_⟩
  · intro d hd hselectable hpending
    by_contra hrefused
    exact hattempted d hd hselectable hpending
      (refused_unattempted limit hlinked hd hselectable hpending hrefused)
  · intro f hf hfselectable hfpending hfails e he heselectable hne
    have hfailing : StillFailing outcome f w f := ⟨hf, rfl, hfselectable, hfpending, hfails⟩
    have hbefore : e.state = .pending → age createdAt e < age createdAt f := by
      intro hepending
      by_contra hnot
      refine hattempted e he heselectable hepending (behind_failure_unattempted limit hlinked
        hfailing he hepending (lt_of_le_of_ne (not_lt.mp hnot) fun heq => ?_))
      exact hne (age_injective heq).symm
    refine ⟨hbefore, fun hfree => ⟨fun hsib => ?_, fun hdeleted => ?_⟩⟩
    · by_cases hefails : e.state = .pending ∧ (outcome e.id).errorCode ≠ none
      · -- two failing receipts: the younger is not attempted
        have hyounger := hbefore hefails.1
        exact hattempted f hf hfselectable hfpending (behind_failure_unattempted limit hlinked
          ⟨he, rfl, heselectable, hefails⟩ hf hfpending hyounger)
      · refine hcompleted e he heselectable (fun hpending => ?_) hfree
          (sibling_of_failure_uncompleted limit hlinked hfailing he heselectable.1 hsib)
        by_contra herror
        exact hefails ⟨hpending, herror⟩
    · by_contra hready
      exact hcompleted e he heselectable (fun hpending => by rw [hdeleted] at hpending; cases hpending)
        hfree (ready_uncompleted limit hlinked hfailing he heselectable.1 hready)
  · intro d hd hselectable hstuck e he heselectable hdeleted hready hfree
    by_contra hnone
    refine hcompleted e he heselectable (fun hpending => by rw [hdeleted] at hpending; cases hpending)
      hfree (behind_stuck_uncompleted limit hlinked hd hselectable hstuck he heselectable.1 hready ?_)
    intro y hy hyopen hsib hage
    exact hnone ⟨y, hy, hyopen, hsib, hage⟩

/-- The two receipts of the expired upload `uploadId`. -/
def expiryReceipts (uploadId : Id) : List StoredObjectDeletion :=
  [(2 * uploadId, StorageKey.unconfirmed (sampleUpload uploadId).scope uploadId),
    (2 * uploadId + 1, StorageKey.managed (sampleUpload uploadId).scope uploadId)].map
    fun (id, key) =>
      { id := id
        storedFileId := none
        uploadIntentId := some uploadId
        scope := (sampleUpload uploadId).scope
        ownerType := .fileUploadIntent
        ownerId := uploadId
        storageKey := key
        objectChecksumSha256 := "checksum"
        reason := "expired_upload_intent"
        requestFingerprint := "deletion" }

/-- Two expired uploads. -/
def sampleQueue : Store :=
  { clock := 100
    uploads := [sampleUpload 1, sampleUpload 2]
    deletions := expiryReceipts 1 ++ expiryReceipts 2 }

theorem sampleQueue_linked : Linked sampleQueue := by
  have hupload : ∀ d ∈ sampleQueue.deletions, d.ownerType = .fileUploadIntent
      ∧ d.uploadIntentId = some d.ownerId ∧ d.storedFileId = none := by decide
  refine ⟨by decide, ?_, ?_, ?_⟩
  · intro d hd _ kind hkind
    rw [(hupload d hd).1] at hkind
    cases hkind
  · intro d hd _ hkyc
    rw [(hupload d hd).1] at hkyc
    cases hkyc
  · intro d hd e _ _ _ _ _ _
    refine ⟨(hupload d hd).2.2, d.ownerId, (hupload d hd).2.1, fun f hf => absurd hf (by simp [sampleQueue]), ?_⟩
    intro t ht htu
    rw [(hupload t ht).2.1] at htu
    exact ⟨by rw [(hupload t ht).1, (hupload d hd).1], (Option.some.inj htu).symm⟩

/-- Every object of the two uploads can be deleted but the first. -/
def sampleOutcome : Id → StorageOutcome
  | 2 => .conflict false
  | _ => .notFound

end Files
end Mobility
