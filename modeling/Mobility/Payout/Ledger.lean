import Mobility.Payout.SubmissionSafety

/-!
# Ledger — credits, the lines that pay them and the offsets they fund

* `LedgerInv`: every line stands on a released credit, a credit is paid exactly
  while a line of it succeeded (or once recovery used it up), and the entries of a
  trip belong to the trip's driver.
* `Creation`: what an operation that creates lines does to the ledger.

`ledgerInv_of_reachable` shows that the invariant holds in every reachable state.
-/

namespace Mobility
namespace Payout

open Lib

/-! ## Lines between two settlements -/

/-- Two readings of one line between which it was neither settled nor revived. -/
structure Steady (l l' : PayoutBatchLine) : Prop where
  entry : l'.ledgerEntryId = l.ledgerEntryId
  succeeded : l'.status = .succeeded ↔ l.status = .succeeded
  void : l.status = .void → l'.status = .void

theorem Steady.refl (l : PayoutBatchLine) : Steady l l :=
  ⟨rfl, Iff.rfl, fun h => h⟩

theorem Steady.trans {l l' l'' : PayoutBatchLine} (h : Steady l l') (h' : Steady l' l'') :
    Steady l l'' :=
  ⟨h'.entry.trans h.entry, h'.succeeded.trans h.succeeded, fun hvoid => h'.void (h.void hvoid)⟩

/-- Lines that come from other lines, none of them settled on the way. -/
structure SteadyLines (ls ls' : List PayoutBatchLine) : Prop where
  origin : ∀ l' ∈ ls', ∃ l ∈ ls, Steady l l'
  persists : ∀ l ∈ ls, ∃ l' ∈ ls', Steady l l'

theorem SteadyLines.refl (ls : List PayoutBatchLine) : SteadyLines ls ls where
  origin := fun l hl => ⟨l, hl, Steady.refl l⟩
  persists := fun l hl => ⟨l, hl, Steady.refl l⟩

theorem SteadyLines.trans {ls ls' ls'' : List PayoutBatchLine} (h : SteadyLines ls ls')
    (h' : SteadyLines ls' ls'') : SteadyLines ls ls'' where
  origin := by
    intro l'' hl''
    rcases h'.origin l'' hl'' with ⟨l', hl', hsteady'⟩
    rcases h.origin l' hl' with ⟨l, hl, hsteady⟩
    exact ⟨l, hl, hsteady.trans hsteady'⟩
  persists := by
    intro l hl
    rcases h.persists l hl with ⟨l', hl', hsteady⟩
    rcases h'.persists l' hl' with ⟨l'', hl'', hsteady'⟩
    exact ⟨l'', hl'', hsteady.trans hsteady'⟩

section

variable [Hashing] {r : Cause} {bs bs' : List PayoutBatch}

/-- Apart from evidence no effect settles a line. -/
theorem steady_of_effect (hr : r ≠ .evidence) {l l' : PayoutBatchLine} (hl : LineInv l)
    (h : LineEffect r l l') : Steady l l' := by
  refine ⟨h.frozen.2.1, ?_, ?_⟩
  · cases h with
    | resolve final _ _ hi hcurrent _ _ => simp [hl.reserved_of_current hi hcurrent]
    | cancel hcancel =>
        rcases cancelUncalledLine_eq_some hcancel with
          ⟨hreserved, ⟨_, rfl⟩ | ⟨_, _, _, rfl⟩⟩ <;> simp [hreserved]
    | evidence hevidence => exact absurd hevidence hr
    | void hreserved => simp [voidLine, hreserved]
    | _ => simp [PayoutBatchLine.mapIntent]
  · intro hvoid
    cases h with
    | resolve final _ _ hi hcurrent _ _ =>
        simp [hl.reserved_of_current hi hcurrent] at hvoid
    | cancel hcancel =>
        rcases cancelUncalledLine_eq_some hcancel with
          ⟨_, ⟨_, rfl⟩ | ⟨_, _, _, rfl⟩⟩ <;> rfl
    | evidence hevidence => exact absurd hevidence hr
    | void => rfl
    | _ => simpa [PayoutBatchLine.mapIntent] using hvoid

/-- Consistent lines stay consistent through a transaction. -/
theorem lineInv_steps (hlines : ∀ l ∈ linesOfBatches bs, LineInv l)
    (h : BatchesEffects r bs bs') : ∀ l ∈ linesOfBatches bs', LineInv l := by
  have hbatches : ∀ b ∈ bs', ∀ l ∈ b.lines, LineInv l := by
    refine batches_invariant (P := fun b => ∀ l ∈ b.lines, LineInv l) ?_ ?_ ?_ h ?_
    · intro b hempty l hl
      simp [hempty] at hl
    · exact fun b hborn _ l hl => lineInv_born (hborn l hl)
    · intro b b' hinv he l' hl'
      rcases exists_of_mem_forall₂ he.lines hl' with ⟨l, hl, hll'⟩
      exact lineInv_step (hinv l hl) hll'
    · exact fun b hb l hl => hlines l (mem_linesOfBatches.mpr ⟨b, hb, hl⟩)
  intro l hl
  rcases mem_linesOfBatches.mp hl with ⟨b, hb, hlb⟩
  exact hbatches b hb l hlb

theorem steadyLines_of_effects (hevidence : r ≠ .evidence) (hcreation : r ≠ .creation)
    (hk : Keyed bs) (hlines : ∀ l ∈ linesOfBatches bs, LineInv l)
    (h : BatchesEffects r bs bs') : SteadyLines (linesOfBatches bs) (linesOfBatches bs') := by
  induction h with
  | refl => exact SteadyLines.refl _
  | tail hsteps hstep ih =>
      have hkeyed := keyed_steps hk hsteps
      have hinv := lineInv_steps hlines hsteps
      refine ih.trans ⟨?_, ?_⟩
      · intro l' hl'
        rcases line_origin hcreation hstep hl' with ⟨l, hl, heffect⟩
        exact ⟨l, hl, steady_of_effect hevidence (hinv l hl) heffect⟩
      · intro l hl
        rcases line_persists hkeyed hstep hl with ⟨l', hl', heffect⟩
        exact ⟨l', hl', steady_of_effect hevidence (hinv l hl) heffect⟩

end

/-! ## The invariant -/

/-- A credit that money can stand on. -/
def Released (e : EarningsLedgerEntry) : Prop :=
  e.status = .available ∨ e.status = .paid

/-- Every line of the credit is void. -/
def AllVoid (s : Store) (entryId : Id) : Prop :=
  ∀ l ∈ s.lines, l.ledgerEntryId = entryId → l.status = .void

/-- Some line of the credit succeeded. -/
def CashPaid (s : Store) (entryId : Id) : Prop :=
  ∃ l ∈ s.lines, l.ledgerEntryId = entryId ∧ l.status = .succeeded

structure LedgerInv (s : Store) : Prop where
  tripIds : (s.trips.map (·.id)).Nodup
  entryIds : (s.entries.map (·.id)).Nodup
  owned : ∀ e ∈ s.entries, ∃ t ∈ s.trips,
    e.tripSessionId = some t.id ∧ e.driverProfileId = t.driverProfileId
  backed : ∀ l ∈ s.lines, ∃ e ∈ s.entries, e.id = l.ledgerEntryId ∧ Released e
    ∧ (l.status = .succeeded → e.status = .paid)
  paid : ∀ e ∈ s.entries, e.status = .paid → CashPaid s e.id ∨ AllVoid s e.id

/-- Whose the credits are: those of a trip belong to the trip's one driver. -/
structure Ownership (s : Store) : Prop where
  tripIds : (s.trips.map (·.id)).Nodup
  entryIds : (s.entries.map (·.id)).Nodup
  owned : ∀ e ∈ s.entries, ∃ t ∈ s.trips,
    e.tripSessionId = some t.id ∧ e.driverProfileId = t.driverProfileId

theorem Ownership.entry?_eq {s : Store} (h : Ownership s) {e : EarningsLedgerEntry}
    (he : e ∈ s.entries) : s.entry? e.id = some e :=
  lookup_eq_some h.entryIds he rfl

/-- The entries of a trip belong to one driver. -/
theorem Ownership.driver_eq {s : Store} (h : Ownership s) {e e' : EarningsLedgerEntry}
    (he : e ∈ s.entries) (he' : e' ∈ s.entries) (htrip : e.tripSessionId = e'.tripSessionId) :
    e.driverProfileId = e'.driverProfileId := by
  rcases h.owned e he with ⟨t, ht, hid, hdriver⟩
  rcases h.owned e' he' with ⟨t', ht', hid', hdriver'⟩
  have hsame : t = t' := by
    refine eq_of_key_eq h.tripIds ht ht' ?_
    rw [hid, hid', Option.some.injEq] at htrip
    exact htrip
  rw [hdriver, hdriver', hsame]

namespace LedgerInv

variable {s s' : Store}

theorem ownership (h : LedgerInv s) : Ownership s :=
  ⟨h.tripIds, h.entryIds, h.owned⟩

/-- Writes to lines that settle none of them. -/
theorem of_lines (h : LedgerInv s) (htrips : s'.trips = s.trips)
    (hentries : s'.entries = s.entries) (hlines : SteadyLines s.lines s'.lines) :
    LedgerInv s' where
  tripIds := htrips ▸ h.tripIds
  entryIds := hentries ▸ h.entryIds
  owned := htrips ▸ hentries ▸ h.owned
  backed := by
    intro l' hl'
    rcases hlines.origin l' hl' with ⟨l, hl, hsteady⟩
    rcases h.backed l hl with ⟨e, he, hid, hreleased, hpaid⟩
    refine ⟨e, hentries ▸ he, hid.trans hsteady.entry.symm, hreleased, ?_⟩
    intro hsucceeded
    exact hpaid (hsteady.succeeded.mp hsucceeded)
  paid := by
    intro e he hpaid
    rcases h.paid e (hentries ▸ he) hpaid with ⟨l, hl, hid, hsucceeded⟩ | hvoid
    · rcases hlines.persists l hl with ⟨l', hl', hsteady⟩
      exact .inl ⟨l', hl', hsteady.entry.trans hid, hsteady.succeeded.mpr hsucceeded⟩
    · refine .inr ?_
      intro l' hl' hid
      rcases hlines.origin l' hl' with ⟨l, hl, hsteady⟩
      exact hsteady.void (hvoid l hl (hsteady.entry.symm.trans hid))

theorem openTrip (h : LedgerInv s) {trip : TripSession} (hfresh : s.trip? trip.id = none) :
    LedgerInv { s with trips := s.trips ++ [trip] } where
  tripIds := by
    rw [List.map_append, List.nodup_append]
    refine ⟨h.tripIds, by simp, ?_⟩
    intro i hi j hj
    rcases List.mem_map.mp hi with ⟨t, ht, rfl⟩
    simp only [List.map_cons, List.map_nil, List.mem_singleton] at hj
    exact hj ▸ lookup_eq_none.mp hfresh t ht
  entryIds := h.entryIds
  owned := by
    intro e he
    rcases h.owned e he with ⟨t, ht, hrest⟩
    exact ⟨t, List.mem_append_left _ ht, hrest⟩
  backed := h.backed
  paid := h.paid

/-- A new entry has no lines yet. -/
theorem post (h : LedgerInv s) {e : EarningsLedgerEntry} (hfresh : s.entry? e.id = none)
    (howned : ∃ t ∈ s.trips,
      e.tripSessionId = some t.id ∧ e.driverProfileId = t.driverProfileId) :
    LedgerInv { s with entries := s.entries ++ [e] } where
  tripIds := h.tripIds
  entryIds := by
    rw [List.map_append, List.nodup_append]
    refine ⟨h.entryIds, by simp, ?_⟩
    intro i hi j hj
    rcases List.mem_map.mp hi with ⟨e', he', rfl⟩
    simp only [List.map_cons, List.map_nil, List.mem_singleton] at hj
    exact hj ▸ lookup_eq_none.mp hfresh e' he'
  owned := by
    intro e' he'
    rcases List.mem_append.mp he' with he' | he'
    · exact h.owned e' he'
    · exact List.mem_singleton.mp he' ▸ howned
  backed := by
    intro l hl
    rcases h.backed l hl with ⟨e', he', hrest⟩
    exact ⟨e', List.mem_append_left _ he', hrest⟩
  paid := by
    intro e' he' hpaid
    rcases List.mem_append.mp he' with he' | he'
    · exact h.paid e' he' hpaid
    · refine .inr ?_
      intro l hl hid
      rcases h.backed l hl with ⟨e₀, he₀, hid₀, _⟩
      rw [List.mem_singleton.mp he'] at hid
      exact absurd (hid₀.trans hid) (lookup_eq_none.mp hfresh e₀ he₀)

/-- A pending entry has no lines, so releasing it disturbs none. -/
theorem release (h : LedgerInv s) {entryId : Id} {e : EarningsLedgerEntry}
    (he : s.entry? entryId = some e) (hpending : e.status = .pending) :
    LedgerInv (s.updateEntry entryId (fun e => { e with status := .available })) where
  tripIds := h.tripIds
  entryIds := by
    have hids : (s.updateEntry entryId (fun e => { e with status := .available })).entries.map
        (·.id) = s.entries.map (·.id) := by
      simp only [Store.updateEntry, List.map_map]
      refine List.map_congr_left ?_
      intro e' _
      simp only [Function.comp_apply]
      split_ifs <;> rfl
    exact hids ▸ h.entryIds
  owned := by
    intro e' he'
    rcases List.mem_map.mp he' with ⟨e₀, he₀, rfl⟩
    split_ifs <;> exact h.owned e₀ he₀
  backed := by
    intro l hl
    rcases h.backed l hl with ⟨e₀, he₀, hid, hreleased, hpaid⟩
    have hother : e₀.id ≠ entryId := by
      rintro rfl
      rw [h.ownership.entry?_eq he₀, Option.some.injEq] at he
      rw [he] at hreleased
      simp [Released, hpending] at hreleased
    refine ⟨e₀, List.mem_map.mpr ⟨e₀, he₀, if_neg hother⟩, hid, hreleased, hpaid⟩
  paid := by
    intro e' he' hpaid
    rcases List.mem_map.mp he' with ⟨e₀, he₀, rfl⟩
    split_ifs at hpaid ⊢
    exact h.paid e₀ he₀ hpaid

end LedgerInv

/-! ## Operations that create lines -/

/-- Mark the entries that recovery used up. -/
def settleIn (settled : List Id) (e : EarningsLedgerEntry) : EarningsLedgerEntry :=
  if e.id ∈ settled then { e with status := .paid } else e

@[simp]
theorem settleIn_nil : settleIn [] = id := by
  funext e
  simp [settleIn]

@[simp]
theorem settleIn_id (settled : List Id) (e : EarningsLedgerEntry) :
    (settleIn settled e).id = e.id := by
  unfold settleIn
  split_ifs <;> rfl

theorem settleIn_scope (settled : List Id) (e : EarningsLedgerEntry) :
    (settleIn settled e).scope = e.scope := by
  unfold settleIn
  split_ifs <;> rfl

theorem settleIn_comp (settled settled' : List Id) (e : EarningsLedgerEntry) :
    settleIn settled' (settleIn settled e) = settleIn (settled ++ settled') e := by
  by_cases h : e.id ∈ settled
  · by_cases h' : e.id ∈ settled' <;> simp [settleIn, h, h']
  · by_cases h' : e.id ∈ settled' <;> simp [settleIn, h, h']

/-- Using credits up keeps whose they are. -/
theorem Ownership.settleIn {s s' : Store} (h : Ownership s) {settled : List Id}
    (htrips : s'.trips = s.trips)
    (hentries : s'.entries = s.entries.map (Mobility.Payout.settleIn settled)) :
    Ownership s' where
  tripIds := htrips ▸ h.tripIds
  entryIds := by
    have hids : s'.entries.map (·.id) = s.entries.map (·.id) := by
      rw [hentries, List.map_map]
      exact List.map_congr_left (fun e _ => settleIn_id settled e)
    exact hids ▸ h.entryIds
  owned := by
    rw [hentries, htrips]
    intro e' he'
    rcases List.mem_map.mp he' with ⟨e, he, rfl⟩
    unfold Mobility.Payout.settleIn
    split_ifs <;> exact h.owned e he

/-- The ledger side of an operation that creates the lines `ls`, funds the offsets `os` and uses up
the `settled` entries. -/
structure Creation (s s' : Store) (ls : List PayoutBatchLine)
    (os : List PayoutRecoveryOffset) (settled : List Id) : Prop where
  trips : s'.trips = s.trips
  entries : s'.entries = s.entries.map (settleIn settled)
  offsets : s'.offsets = s.offsets ++ os
  lines : s'.lines.Perm (s.lines ++ ls)
  reserved : ∀ l ∈ ls, isReserved l ∧ l.status = .reserved
  drawn : ∀ l ∈ ls, ∃ e ∈ s.entries, e.id = l.ledgerEntryId ∧ e.status = .available
    ∧ e.id ∉ settled
  funded : ∀ o ∈ os, ∃ e ∈ s.entries, e.id = o.fundingEntryId ∧ e.status = .available
    ∧ e.currency = o.currency
  used : ∀ e ∈ s.entries, e.id ∈ settled → e.status = .available
    ∧ ∀ l ∈ s.lines, l.ledgerEntryId = e.id → l.status = .void ∨ l.status = .succeeded

namespace Creation

variable {s s' s'' : Store} {lines lines' : List PayoutBatchLine}
  {offsets offsets' : List PayoutRecoveryOffset} {settled settled' : List Id}

theorem refl (s : Store) : Creation s s [] [] [] where
  trips := rfl
  entries := by simp
  offsets := by simp
  lines := by simp
  reserved := by simp
  drawn := by simp
  funded := by simp
  used := by simp

theorem of_same_tables (htrips : s'.trips = s.trips) (hentries : s'.entries = s.entries)
    (hoffsets : s'.offsets = s.offsets) (hlines : s'.lines = s.lines) :
    Creation s s' [] [] [] where
  trips := htrips
  entries := by simp [hentries]
  offsets := by simp [hoffsets]
  lines := by simp [hlines]
  reserved := by simp
  drawn := by simp
  funded := by simp
  used := by simp

/-- An entry that is still available after a creation was available and is not used up. -/
theorem available_back (h : Creation s s' lines offsets settled) {e' : EarningsLedgerEntry}
    (he' : e' ∈ s'.entries) (havailable : e'.status = .available) :
    e' ∈ s.entries ∧ e'.id ∉ settled := by
  rw [h.entries] at he'
  rcases List.mem_map.mp he' with ⟨e, he, rfl⟩
  unfold settleIn at havailable ⊢
  split_ifs at havailable ⊢ with hsettled
  exact ⟨he, hsettled⟩

theorem trans (h : Creation s s' lines offsets settled)
    (h' : Creation s' s'' lines' offsets' settled') :
    Creation s s'' (lines ++ lines') (offsets ++ offsets') (settled ++ settled') where
  trips := h'.trips.trans h.trips
  entries := by
    rw [h'.entries, h.entries, List.map_map]
    exact List.map_congr_left (fun e _ => settleIn_comp settled settled' e)
  offsets := by rw [h'.offsets, h.offsets, List.append_assoc]
  lines := by
    rw [← List.append_assoc]
    exact h'.lines.trans (h.lines.append_right lines')
  reserved := by
    intro l hl
    rcases List.mem_append.mp hl with hl | hl
    · exact h.reserved l hl
    · exact h'.reserved l hl
  drawn := by
    intro l hl
    rcases List.mem_append.mp hl with hl | hl
    · -- a line just created keeps its entry from being used up
      rcases h.drawn l hl with ⟨e, he, hid, havailable, hunsettled⟩
      refine ⟨e, he, hid, havailable, ?_⟩
      intro hmem
      rcases List.mem_append.mp hmem with hmem | hmem
      · exact hunsettled hmem
      · have he' : e ∈ s'.entries := by
          rw [h.entries]
          exact List.mem_map.mpr ⟨e, he, if_neg hunsettled⟩
        have hl' : l ∈ s'.lines := h.lines.mem_iff.mpr (List.mem_append_right _ hl)
        have hdecided := (h'.used e he' hmem).2 l hl' hid.symm
        simp [(h.reserved l hl).2] at hdecided
    · rcases h'.drawn l hl with ⟨e, he, hid, havailable, hunsettled⟩
      rcases h.available_back he havailable with ⟨he, hunsettled'⟩
      refine ⟨e, he, hid, havailable, ?_⟩
      exact fun hmem => (List.mem_append.mp hmem).elim hunsettled' hunsettled
  funded := by
    intro o ho
    rcases List.mem_append.mp ho with ho | ho
    · exact h.funded o ho
    · rcases h'.funded o ho with ⟨e, he, hid, havailable, hcurrency⟩
      exact ⟨e, (h.available_back he havailable).1, hid, havailable, hcurrency⟩
  used := by
    intro e he hmem
    by_cases hsettled : e.id ∈ settled
    · exact h.used e he hsettled
    · have he' : e ∈ s'.entries := by
        rw [h.entries]
        exact List.mem_map.mpr ⟨e, he, if_neg hsettled⟩
      rcases h'.used e he' ((List.mem_append.mp hmem).resolve_left hsettled) with
        ⟨havailable, hlines⟩
      refine ⟨havailable, ?_⟩
      intro l hl hid
      exact hlines l (h.lines.mem_iff.mpr (List.mem_append_left _ hl)) hid

end Creation

theorem LedgerInv.create {s s' : Store} (h : LedgerInv s) {lines : List PayoutBatchLine}
    {offsets : List PayoutRecoveryOffset} {settled : List Id}
    (hcreation : Creation s s' lines offsets settled) : LedgerInv s' where
  tripIds := (h.ownership.settleIn hcreation.trips hcreation.entries).tripIds
  entryIds := (h.ownership.settleIn hcreation.trips hcreation.entries).entryIds
  owned := (h.ownership.settleIn hcreation.trips hcreation.entries).owned
  backed := by
    intro l hl
    rw [hcreation.entries]
    rcases List.mem_append.mp (hcreation.lines.mem_iff.mp hl) with hl | hl
    · rcases h.backed l hl with ⟨e, he, hid, hreleased, hpaid⟩
      refine ⟨settleIn settled e, List.mem_map_of_mem he, (settleIn_id _ _).trans hid, ?_, ?_⟩
      · unfold settleIn
        split_ifs
        · exact .inr rfl
        · exact hreleased
      · intro hsucceeded
        unfold settleIn
        split_ifs
        · rfl
        · exact hpaid hsucceeded
    · rcases hcreation.drawn l hl with ⟨e, he, hid, havailable, hunsettled⟩
      refine ⟨e, List.mem_map.mpr ⟨e, he, if_neg hunsettled⟩, hid, .inl havailable, ?_⟩
      simp [(hcreation.reserved l hl).2]
  paid := by
    intro e' he' hpaid
    rw [hcreation.entries] at he'
    rcases List.mem_map.mp he' with ⟨e, he, rfl⟩
    rw [settleIn_id]
    -- no new line stands on a paid entry
    have hold : ∀ l ∈ s'.lines, l.ledgerEntryId = e.id → l ∈ s.lines := by
      intro l hl hid
      rcases List.mem_append.mp (hcreation.lines.mem_iff.mp hl) with hl | hl
      · exact hl
      · rcases hcreation.drawn l hl with ⟨e₀, he₀, hid₀, havailable, hunsettled⟩
        have hsame : e₀ = e := eq_of_key_eq h.entryIds he₀ he (hid₀.trans hid)
        subst hsame
        simp [settleIn, hunsettled, havailable] at hpaid
    have hkept : CashPaid s e.id → CashPaid s' e.id := by
      rintro ⟨l, hl, hid, hsucceeded⟩
      exact ⟨l, hcreation.lines.mem_iff.mpr (List.mem_append_left _ hl), hid, hsucceeded⟩
    by_cases hsettled : e.id ∈ settled
    · by_cases hcash : CashPaid s e.id
      · exact .inl (hkept hcash)
      · refine .inr ?_
        intro l hl hid
        rcases (hcreation.used e he hsettled).2 l (hold l hl hid) hid with hvoid | hsucceeded
        · exact hvoid
        · exact absurd ⟨l, hold l hl hid, hid, hsucceeded⟩ hcash
    · have hstatus : e.status = .paid := by simpa [settleIn, hsettled] using hpaid
      rcases h.paid e he hstatus with hcash | hvoid
      · exact .inl (hkept hcash)
      · exact .inr (fun l hl hid => hvoid l (hold l hl hid) hid)

end Payout
end Mobility
