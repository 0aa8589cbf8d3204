import Mathlib.Data.List.Pairwise
import Mobility.Payout.Effects

/-!
# Keys — primary keys and the active-reservation index hold in every store

`Keyed` is what the database promises of the batch and line tables.  It is kept
by every elementary effect, so lookups by key are unambiguous in the proofs that
follow.
-/

namespace Mobility
namespace Payout

open Lib

/-- Two lines do not both hold an active reservation of one ledger entry. -/
def NoDoubleReservation (l l' : PayoutBatchLine) : Prop :=
  l.reservationActive → l'.reservationActive → l.ledgerEntryId ≠ l'.ledgerEntryId

structure Keyed (bs : List PayoutBatch) : Prop where
  batchIds : (bs.map (·.id)).Nodup
  lineIds : ((linesOfBatches bs).map (·.id)).Nodup
  active : (linesOfBatches bs).Pairwise NoDoubleReservation
  predecessors : ((linesOfBatches bs).filterMap (·.predecessorLineId)).Nodup
  drafts : ∀ b ∈ bs, b.status = .draft → b.lines = []
  currencies : ∀ b ∈ bs, ∃ c, ∀ l ∈ b.lines, l.currency = c

theorem NoDoubleReservation.symm {l l' : PayoutBatchLine} (h : NoDoubleReservation l l') :
    NoDoubleReservation l' l :=
  fun hl' hl heq => h hl hl' heq.symm

instance : Std.Symm NoDoubleReservation :=
  ⟨fun _ _ h => h.symm⟩

theorem keyed_nil : Keyed [] where
  batchIds := by simp
  lineIds := by simp [linesOfBatches]
  active := by simp [linesOfBatches]
  predecessors := by simp [linesOfBatches]
  drafts := by simp
  currencies := by simp

theorem mem_linesOfBatches {bs : List PayoutBatch} {l : PayoutBatchLine} :
    l ∈ linesOfBatches bs ↔ ∃ b ∈ bs, l ∈ b.lines := by
  simp [linesOfBatches]

theorem linesOfBatches_append (bs bs' : List PayoutBatch) :
    linesOfBatches (bs ++ bs') = linesOfBatches bs ++ linesOfBatches bs' := by
  simp [linesOfBatches]

namespace Keyed

variable {bs : List PayoutBatch}

/-- A batch id names one batch. -/
theorem batch_eq (h : Keyed bs) {b b' : PayoutBatch} (hb : b ∈ bs) (hb' : b' ∈ bs)
    (hid : b.id = b'.id) : b = b' :=
  eq_of_key_eq h.batchIds hb hb' hid

/-- A line id names one line. -/
theorem line_eq (h : Keyed bs) {l l' : PayoutBatchLine} (hl : l ∈ linesOfBatches bs)
    (hl' : l' ∈ linesOfBatches bs) (hid : l.id = l'.id) : l = l' :=
  eq_of_key_eq h.lineIds hl hl' hid

end Keyed

/-! ## Preservation -/

section Preservation

variable [Hashing] {r : Cause} {bs bs' : List PayoutBatch}

omit [Hashing] in
/-- The two line indexes after insertion. -/
theorem Insertable.pairwise {lines : List PayoutBatchLine} (h : Insertable bs lines) :
    (linesOfBatches bs ++ lines).Pairwise NoDoubleReservation := by
  have hfiltered := List.pairwise_map.mp h.2.1
  rw [List.pairwise_filter] at hfiltered
  exact hfiltered.imp (fun hpair hl hl' => hpair hl hl')

omit [Hashing] in
theorem linesOfBatches_filter_subset (p : PayoutBatch → Bool) :
    (linesOfBatches (bs.filter p)).Sublist (linesOfBatches bs) := by
  induction bs with
  | nil => simp [linesOfBatches]
  | cons b bs ih =>
      rw [List.filter_cons]
      split_ifs
      · simpa [linesOfBatches] using ih
      · simp only [linesOfBatches, List.flatMap_cons] at ih ⊢
        exact ih.trans (List.sublist_append_right _ _)

omit [Hashing] in
/-- Removing batches without lines removes no line. -/
theorem linesOfBatches_remove {id : Id} (h : ∀ b ∈ bs, b.id = id → b.lines = []) :
    linesOfBatches (bs.filter (·.id ≠ id)) = linesOfBatches bs := by
  induction bs with
  | nil => rfl
  | cons b bs ih =>
      have hrest := ih (fun b' hb' => h b' (List.mem_cons_of_mem _ hb'))
      simp only [linesOfBatches, List.flatMap_cons] at hrest ⊢
      by_cases hid : b.id = id
      · simpa [hid, h b (by simp) hid] using hrest
      · simpa [hid] using hrest

omit [Hashing] in
/-- Filling the one empty batch with key `id` adds its lines, up to order. -/
theorem linesOfBatches_fill (hids : (bs.map (·.id)).Nodup) {b : PayoutBatch} (hb : b ∈ bs)
    (hempty : b.lines = []) (f : PayoutBatch → PayoutBatch) :
    (linesOfBatches (bs.map (fun b' => if b'.id = b.id then f b' else b'))).Perm
      (linesOfBatches bs ++ (f b).lines) := by
  rcases exists_split_of_mem hids hb f with ⟨before, after, hbs, hmap⟩
  rw [hmap, hbs]
  simp only [linesOfBatches, List.flatMap_append, List.flatMap_cons, hempty, List.nil_append,
    List.append_assoc]
  exact List.Perm.append_left _ List.perm_append_comm

theorem forall₂_linesOfBatches (h : List.Forall₂ (BatchEffect r) bs bs') :
    List.Forall₂ (LineEffect r) (linesOfBatches bs) (linesOfBatches bs') :=
  forall₂_flatMap (fun _ _ hb => hb.lines) h

theorem keyed_update (hk : Keyed bs) (h : List.Forall₂ (BatchEffect r) bs bs') : Keyed bs' where
  batchIds := by
    rw [map_eq_of_forall₂ (fun _ _ hb => hb.id) h]
    exact hk.batchIds
  lineIds := by
    rw [map_eq_of_forall₂ (fun _ _ hl => hl.frozen.1) (forall₂_linesOfBatches h)]
    exact hk.lineIds
  active := by
    refine pairwise_of_forall₂ ?_ (forall₂_linesOfBatches h) hk.active
    intro x x' y y' hx hy hxy hx' hy'
    rw [hx.frozen.2.1, hy.frozen.2.1]
    exact hxy (hx.active hx') (hy.active hy')
  predecessors := by
    have hsame := congrArg (List.filterMap id)
      (map_eq_of_forall₂ (fun _ _ hl => hl.frozen.2.2.1) (forall₂_linesOfBatches h))
    rw [List.filterMap_map, List.filterMap_map, Function.id_comp] at hsame
    exact hsame ▸ hk.predecessors
  drafts := by
    intro b' hb' hdraft
    rcases exists_of_mem_forall₂ h hb' with ⟨b, hb, hbb'⟩
    have hlines := hbb'.lines
    rw [hk.drafts b hb (hbb'.draft hdraft)] at hlines
    exact List.forall₂_nil_left_iff.mp hlines
  currencies := by
    intro b' hb'
    rcases exists_of_mem_forall₂ h hb' with ⟨b, hb, hbb'⟩
    rcases hk.currencies b hb with ⟨c, hc⟩
    refine ⟨c, ?_⟩
    intro l' hl'
    rcases exists_of_mem_forall₂ hbb'.lines hl' with ⟨l, hl, hll'⟩
    exact hll'.frozen.2.2.2.2.1.trans (hc l hl)

omit [Hashing] in
theorem keyed_append (hk : Keyed bs) {b : PayoutBatch} (hfresh : ∀ b' ∈ bs, b'.id ≠ b.id)
    (hins : Insertable bs b.lines) (hdraft : b.status = .draft → b.lines = [])
    (hcurrency : ∃ c, ∀ l ∈ b.lines, l.currency = c) : Keyed (bs ++ [b]) where
  batchIds := by
    rw [List.map_append, List.nodup_append]
    refine ⟨hk.batchIds, by simp, ?_⟩
    intro i hi j hj
    rcases List.mem_map.mp hi with ⟨b', hb', rfl⟩
    simp only [List.map_cons, List.map_nil, List.mem_singleton] at hj
    exact hj ▸ hfresh b' hb'
  lineIds := by simpa [linesOfBatches_append, linesOfBatches] using hins.1
  active := by simpa [linesOfBatches_append, linesOfBatches] using hins.pairwise
  predecessors := by simpa [linesOfBatches_append, linesOfBatches] using hins.2.2
  drafts := by
    intro b' hb' hstatus
    rcases List.mem_append.mp hb' with hb' | hb'
    · exact hk.drafts b' hb' hstatus
    · rw [List.mem_singleton.mp hb'] at hstatus ⊢
      exact hdraft hstatus
  currencies := by
    intro b' hb'
    rcases List.mem_append.mp hb' with hb' | hb'
    · exact hk.currencies b' hb'
    · exact List.mem_singleton.mp hb' ▸ hcurrency

theorem keyed_step (hk : Keyed bs) (h : BatchesEffect r bs bs') : Keyed bs' := by
  cases h with
  | draft b hfresh hdraft hempty =>
      -- a draft has no lines, so only the batch keys are asked
      refine keyed_append hk hfresh ⟨?_, ?_, ?_⟩ (fun _ => hempty) ⟨b.currency, by simp [hempty]⟩
      · simpa [hempty] using hk.lineIds
      · rw [hempty, List.append_nil, List.Nodup, List.pairwise_map, List.pairwise_filter]
        exact hk.active.imp (fun hpair hl hl' => hpair hl hl')
      · rw [hempty, List.append_nil]
        exact hk.predecessors
  | remove id _ =>
      refine ⟨?_, ?_, ?_, ?_, ?_, ?_⟩
      · exact hk.batchIds.sublist (List.filter_sublist.map _)
      · exact hk.lineIds.sublist ((linesOfBatches_filter_subset _).map _)
      · exact hk.active.sublist (linesOfBatches_filter_subset _)
      · exact hk.predecessors.sublist ((linesOfBatches_filter_subset _).filterMap _)
      · intro b hb
        exact hk.drafts b (List.mem_of_mem_filter hb)
      · intro b hb
        exact hk.currencies b (List.mem_of_mem_filter hb)
  | reserve id lines _ hdraft hexists hins _ hcurrency =>
      rcases hexists with ⟨b, hb, rfl⟩
      -- the lines of a filled draft come to those of all other batches
      have hfill := linesOfBatches_fill hk.batchIds hb (hk.drafts b hb (hdraft b hb rfl))
        (reserveWith lines)
      refine ⟨?_, ?_, ?_, ?_, ?_, ?_⟩
      · have hids : (bs.map (fun b' => if b'.id = b.id then reserveWith lines b' else b')).map
            (·.id) = bs.map (·.id) := by
          rw [List.map_map]
          refine List.map_congr_left ?_
          intro b' _
          by_cases hid : b'.id = b.id
          · simp [hid, reserveWith, freezeBatchInstructionSet]
          · simp [hid]
        rw [hids]
        exact hk.batchIds
      · exact (hfill.map (·.id)).nodup_iff.mpr hins.1
      · exact (hfill.pairwise_iff NoDoubleReservation.symm).mpr hins.pairwise
      · exact (hfill.filterMap _).nodup_iff.mpr hins.2.2
      · intro b' hb' hstatus
        rcases List.mem_map.mp hb' with ⟨b₀, hb₀, rfl⟩
        by_cases hid : b₀.id = b.id
        · simp [hid, reserveWith] at hstatus
        · simp only [hid, if_false] at hstatus ⊢
          exact hk.drafts b₀ hb₀ hstatus
      · intro b' hb'
        rcases List.mem_map.mp hb' with ⟨b₀, hb₀, rfl⟩
        by_cases hid : b₀.id = b.id
        · simpa [hid, reserveWith] using hcurrency
        · simpa [hid] using hk.currencies b₀ hb₀
  | append b _ hfresh hstatus hins _ _ hcurrency =>
      exact keyed_append hk hfresh hins (fun hdraft => absurd hdraft hstatus) hcurrency
  | update f heffect =>
      exact keyed_update hk (forall₂_map_self heffect)

theorem keyed_steps (hk : Keyed bs) (h : BatchesEffects r bs bs') : Keyed bs' := by
  induction h with
  | refl => exact hk
  | tail _ hstep ih => exact keyed_step ih hstep

/-- Every line outlives a transaction, changed by one effect at most. -/
theorem line_persists (hk : Keyed bs) (h : BatchesEffect r bs bs') {l : PayoutBatchLine}
    (hl : l ∈ linesOfBatches bs) : ∃ l' ∈ linesOfBatches bs', LineEffect r l l' := by
  rcases mem_linesOfBatches.mp hl with ⟨b, hb, hlb⟩
  -- only drafts are removed or filled, and drafts have no lines
  have hdraft : b.status ≠ .draft := by
    intro hstatus
    simp [hk.drafts b hb hstatus] at hlb
  cases h with
  | draft b₀ =>
      exact ⟨l, mem_linesOfBatches.mpr ⟨b, List.mem_append_left _ hb, hlb⟩, .same l⟩
  | remove id hdrafts =>
      have hid : b.id ≠ id := fun hid => hdraft (hdrafts b hb hid)
      exact ⟨l, mem_linesOfBatches.mpr ⟨b, List.mem_filter.mpr ⟨hb, by simpa using hid⟩, hlb⟩,
        .same l⟩
  | reserve id lines _ hdrafts =>
      have hid : b.id ≠ id := fun hid => hdraft (hdrafts b hb hid)
      refine ⟨l, mem_linesOfBatches.mpr ⟨b, List.mem_map.mpr ⟨b, hb, ?_⟩, hlb⟩, .same l⟩
      simp [hid]
  | append b₀ =>
      exact ⟨l, mem_linesOfBatches.mpr ⟨b, List.mem_append_left _ hb, hlb⟩, .same l⟩
  | update f heffect =>
      rcases exists_of_mem_forall₂_left (heffect b hb).lines hlb with ⟨l', hl', hll'⟩
      exact ⟨l', mem_linesOfBatches.mpr ⟨f b, List.mem_map_of_mem hb, hl'⟩, hll'⟩

/-- Only a creating operation adds lines. -/
theorem line_origin (hr : r ≠ .creation) (h : BatchesEffect r bs bs') {l' : PayoutBatchLine}
    (hl' : l' ∈ linesOfBatches bs') : ∃ l ∈ linesOfBatches bs, LineEffect r l l' := by
  rcases mem_linesOfBatches.mp hl' with ⟨b', hb', hlb'⟩
  cases h with
  | draft b _ _ hempty =>
      rcases List.mem_append.mp hb' with hb' | hb'
      · exact ⟨l', mem_linesOfBatches.mpr ⟨b', hb', hlb'⟩, .same l'⟩
      · rw [List.mem_singleton.mp hb', hempty] at hlb'
        exact absurd hlb' List.not_mem_nil
  | remove id _ =>
      exact ⟨l', mem_linesOfBatches.mpr ⟨b', List.mem_of_mem_filter hb', hlb'⟩, .same l'⟩
  | reserve id lines hcreation => exact absurd hcreation hr
  | append b hcreation => exact absurd hcreation hr
  | update f heffect =>
      rcases List.mem_map.mp hb' with ⟨b, hb, rfl⟩
      rcases exists_of_mem_forall₂ (heffect b hb).lines hlb' with ⟨l, hl, hll'⟩
      exact ⟨l, mem_linesOfBatches.mpr ⟨b, hb, hl⟩, hll'⟩

end Preservation

end Payout
end Mobility
