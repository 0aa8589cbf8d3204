import Mathlib.Algebra.Order.BigOperators.Group.List
import Mathlib.Algebra.Order.Group.Int
import Mobility.Payout.Ledger

/-!
# Positions — how a creation moves the balance of a trip

`Store.scopePosition` is the position of one trip in one currency read from all its
entries.  `charge` is what a creation takes from a scope, `received` what it gives
to a trip in debt; `Within` says that no scope was charged beyond its
`batchPayable`, and composes along a run of creations.
-/

namespace Mobility
namespace Payout

open Lib

namespace Store

def scopeEntries (s : Store) (scope : TripScope) : List EarningsLedgerEntry :=
  s.entries.filter (·.scope = scope)

def scopePosition (s : Store) (scope : TripScope) : TripMoneyPosition :=
  tripCashPosition (s.scopeEntries scope) (s.linesOf (s.scopeEntries scope))
    (s.offsetsFunded scope) (s.offsetsReceived scope)

/-- `max(min(released - negatives, earned_net), 0)` of a trip. -/
def releasedNet (s : Store) (scope : TripScope) : Int :=
  let awards := tripAwards (s.scopeEntries scope)
  max (min (awards.released - awards.negatives) awards.earnedNet) 0

/-- The line is paid from an entry of the scope. -/
def onScope (s : Store) (scope : TripScope) (l : PayoutBatchLine) : Bool :=
  (s.scopeEntries scope).any (fun e => e.id = l.ledgerEntryId)

end Store

def offsetTotal (offsets : List PayoutRecoveryOffset) : Int :=
  (offsets.map (·.amount)).sum

/-- What new lines and offsets draw from a scope. -/
def charge (s : Store) (scope : TripScope) (ls : List PayoutBatchLine)
    (os : List PayoutRecoveryOffset) : Int :=
  totalAmount (ls.filter (s.onScope scope)) + offsetTotal (os.filter (s.fundedBy scope))

/-- What new offsets repay for the trip of a scope. -/
def received (s : Store) (scope : TripScope) (os : List PayoutRecoveryOffset) : Int :=
  offsetTotal (os.filter (s.receivedBy scope))

/-! ## Sums -/

@[simp]
theorem totalAmount_nil : totalAmount [] = 0 := rfl

@[simp]
theorem totalAmount_append (ls ls' : List PayoutBatchLine) :
    totalAmount (ls ++ ls') = totalAmount ls + totalAmount ls' := by
  simp [totalAmount]

@[simp]
theorem offsetTotal_nil : offsetTotal [] = 0 := rfl

@[simp]
theorem offsetTotal_append (os os' : List PayoutRecoveryOffset) :
    offsetTotal (os ++ os') = offsetTotal os + offsetTotal os' := by
  simp [offsetTotal]

theorem totalAmount_perm {ls ls' : List PayoutBatchLine} (h : ls.Perm ls') :
    totalAmount ls = totalAmount ls' :=
  (h.map _).sum_eq

theorem totalAmount_nonneg {ls : List PayoutBatchLine} (h : ∀ l ∈ ls, 0 < l.amount) :
    0 ≤ totalAmount ls := by
  refine List.sum_nonneg ?_
  intro amount hamount
  rcases List.mem_map.mp hamount with ⟨l, hl, rfl⟩
  exact (h l hl).le

theorem offsetTotal_nonneg {os : List PayoutRecoveryOffset} (h : ∀ o ∈ os, 0 < o.amount) :
    0 ≤ offsetTotal os := by
  refine List.sum_nonneg ?_
  intro amount hamount
  rcases List.mem_map.mp hamount with ⟨o, ho, rfl⟩
  exact (h o ho).le

theorem le_totalAmount {ls : List PayoutBatchLine} (h : ∀ l ∈ ls, 0 < l.amount)
    {l : PayoutBatchLine} (hl : l ∈ ls) : l.amount ≤ totalAmount ls := by
  refine List.single_le_sum ?_ _ (List.mem_map_of_mem hl)
  intro amount hamount
  rcases List.mem_map.mp hamount with ⟨l', hl', rfl⟩
  exact (h l' hl').le

theorem le_offsetTotal {os : List PayoutRecoveryOffset} (h : ∀ o ∈ os, 0 < o.amount)
    {o : PayoutRecoveryOffset} (ho : o ∈ os) : o.amount ≤ offsetTotal os := by
  refine List.single_le_sum ?_ _ (List.mem_map_of_mem ho)
  intro amount hamount
  rcases List.mem_map.mp hamount with ⟨o', ho', rfl⟩
  exact (h o' ho').le

theorem charge_append (s : Store) (scope : TripScope) (ls ls' : List PayoutBatchLine)
    (os os' : List PayoutRecoveryOffset) :
    charge s scope (ls ++ ls') (os ++ os') = charge s scope ls os + charge s scope ls' os' := by
  simp only [charge, List.filter_append, totalAmount_append, offsetTotal_append]
  omega

theorem received_append (s : Store) (scope : TripScope) (os os' : List PayoutRecoveryOffset) :
    received s scope (os ++ os') = received s scope os + received s scope os' := by
  simp [received]

theorem funded_le_charge (s : Store) (scope : TripScope) {ls : List PayoutBatchLine}
    (os : List PayoutRecoveryOffset) (hls : ∀ l ∈ ls, 0 < l.amount) :
    offsetTotal (os.filter (s.fundedBy scope)) ≤ charge s scope ls os := by
  have hnonneg : 0 ≤ totalAmount (ls.filter (s.onScope scope)) :=
    totalAmount_nonneg (fun l hl => hls l (List.mem_of_mem_filter hl))
  simp only [charge]
  omega

theorem charge_nonneg (s : Store) (scope : TripScope) {ls : List PayoutBatchLine}
    {os : List PayoutRecoveryOffset} (hls : ∀ l ∈ ls, 0 < l.amount)
    (hos : ∀ o ∈ os, 0 < o.amount) : 0 ≤ charge s scope ls os :=
  le_trans (offsetTotal_nonneg (fun o ho => hos o (List.mem_of_mem_filter ho)))
    (funded_le_charge s scope os hls)

theorem received_nonneg (s : Store) (scope : TripScope) {os : List PayoutRecoveryOffset}
    (hos : ∀ o ∈ os, 0 < o.amount) : 0 ≤ received s scope os :=
  offsetTotal_nonneg (fun o ho => hos o (List.mem_of_mem_filter ho))

/-! ## Trip awards -/

theorem TripAwards.add_comm (a : TripAwards) (e e' : EarningsLedgerEntry) :
    (a.add e).add e' = (a.add e').add e := by
  unfold TripAwards.add
  split_ifs <;> simp <;> omega

/-- Awards do not depend on the order of the entries. -/
theorem tripAwards_perm {es es' : List EarningsLedgerEntry} (h : es.Perm es') :
    tripAwards es = tripAwards es' := by
  refine h.foldl_eq' ?_ _
  intro e _ e' _ a
  exact TripAwards.add_comm a e e'

theorem TripAwards.add_settleIn (a : TripAwards) {settled : List Id} {e : EarningsLedgerEntry}
    (h : e.id ∈ settled → Released e) : a.add (settleIn settled e) = a.add e := by
  unfold settleIn
  split_ifs with hsettled
  · rcases h hsettled with hstatus | hstatus
    all_goals
      by_cases htype : e.entryType = .reversal
      · simp [TripAwards.add, htype, hstatus, isManualDeduction]
      · simp [TripAwards.add, htype, hstatus]
  · rfl

/-- Using a released credit up changes no award. -/
theorem tripAwards_settleIn {settled : List Id} :
    ∀ {es : List EarningsLedgerEntry}, (∀ e ∈ es, e.id ∈ settled → Released e) →
      tripAwards (es.map (settleIn settled)) = tripAwards es := by
  intro es h
  simp only [tripAwards, List.foldl_map]
  refine List.foldl_ext _ _ _ ?_
  intro a e he
  exact TripAwards.add_settleIn a (h e he)

/-! ## The position of a scope -/

theorem mem_orderedKeys {κ : Type} [DecidableEq κ] {k : κ} :
    ∀ {ks : List κ}, k ∈ orderedKeys ks ↔ k ∈ ks := by
  intro ks
  induction ks with
  | nil => simp [orderedKeys]
  | cons k' ks ih =>
      by_cases h : k = k'
      · simp [orderedKeys, h]
      · simp [orderedKeys, ih, h]

theorem nodup_orderedKeys {κ : Type} [DecidableEq κ] :
    ∀ ks : List κ, (orderedKeys ks).Nodup := by
  intro ks
  induction ks with
  | nil => simp [orderedKeys]
  | cons k ks ih =>
      refine List.nodup_cons.mpr ⟨by simp, ?_⟩
      exact ih.filter _

theorem orderedKeys_const {κ : Type} [DecidableEq κ] (k : κ) :
    ∀ {ks : List κ}, (∀ x ∈ ks, x = k) → ks ≠ [] → orderedKeys ks = [k] := by
  intro ks h hne
  cases ks with
  | nil => exact absurd rfl hne
  | cons x ks =>
      have hx : x = k := h x (by simp)
      subst hx
      have hrest : (orderedKeys ks).filter (fun y => decide (y ≠ x)) = [] := by
        refine List.filter_eq_nil_iff.mpr ?_
        intro y hy
        have hyx : y = x := h y (List.mem_cons_of_mem _ (mem_orderedKeys.mp hy))
        simp [hyx]
      simp only [orderedKeys, hrest]

theorem tripMoneyPosition_eq (s : Store) (trip : Id) (c : Currency) :
    s.tripMoneyPosition trip c
      = if s.scopeEntries (some trip, c) = [] then {} else s.scopePosition (some trip, c) := by
  have hentries : s.entries.filter (·.scope = (some trip, c)) = s.scopeEntries (some trip, c) := rfl
  simp only [Store.tripMoneyPosition, hentries]
  split_ifs with hempty
  · simp [hempty, Store.tripMoneyPositions, orderedKeys]
  · have hscope : ∀ x ∈ (s.scopeEntries (some trip, c)).map (·.scope), x = (some trip, c) := by
      intro x hx
      rcases List.mem_map.mp hx with ⟨e, he, rfl⟩
      simpa [Store.scopeEntries] using (List.mem_filter.mp he).2
    have hkeys := orderedKeys_const (some trip, c) hscope (by simpa using hempty)
    have hall : (s.scopeEntries (some trip, c)).filter (·.scope = (some trip, c))
        = s.scopeEntries (some trip, c) := by
      simp [Store.scopeEntries, List.filter_filter]
    simp [Store.tripMoneyPositions, hkeys, hall, Store.scopePosition]

theorem mem_scopeEntries {s : Store} {scope : TripScope} {e : EarningsLedgerEntry} :
    e ∈ s.scopeEntries scope ↔ e ∈ s.entries ∧ e.scope = scope := by
  simp [Store.scopeEntries]

theorem tripMoneyPosition_of_entry {s : Store} {e : EarningsLedgerEntry} (he : e ∈ s.entries)
    {trip : Id} (htrip : e.tripSessionId = some trip) :
    s.tripMoneyPosition trip e.currency = s.scopePosition (some trip, e.currency) := by
  rw [tripMoneyPosition_eq, if_neg]
  intro hempty
  have hmem : e ∈ s.scopeEntries (some trip, e.currency) :=
    mem_scopeEntries.mpr ⟨he, by simp [EarningsLedgerEntry.scope, htrip]⟩
  simp [hempty] at hmem

theorem tripMoneyPosition_batchPayable_nonneg (s : Store) (trip : Id) (c : Currency) :
    0 ≤ (s.tripMoneyPosition trip c).batchPayable := by
  rw [tripMoneyPosition_eq]
  split_ifs
  · exact le_refl _
  · exact le_max_right _ _

theorem scopePosition_batchPayable (s : Store) (scope : TripScope) :
    (s.scopePosition scope).batchPayable
      = max (max (s.releasedNet scope - (s.scopePosition scope).settled) 0
          - (s.scopePosition scope).reserved - (s.scopePosition scope).inFlight) 0 := rfl

theorem releasedNet_le_earnedNet (s : Store) (scope : TripScope) :
    s.releasedNet scope ≤ (s.scopePosition scope).earnedNet := by
  have hearned : 0 ≤ (tripAwards (s.scopeEntries scope)).earnedNet := le_max_right _ _
  exact max_le (min_le_right _ _) hearned

theorem mem_driverEntries {s : Store} {driver : Id} {c : Currency} {e : EarningsLedgerEntry} :
    e ∈ s.driverEntries driver c ↔ e ∈ s.entries ∧ e.driverProfileId = driver ∧ e.currency = c := by
  rw [Store.driverEntries, (List.perm_insertionSort _ _).mem_iff]
  simp

/-- A recovery reads the position of a whole trip: its entries are one driver's. -/
theorem driverRecoveryPositions_eq {s : Store} (h : Ownership s) {driver : Id} {c : Currency}
    {scope : TripScope} {p : TripMoneyPosition}
    (hp : (scope, p) ∈ s.driverRecoveryPositions driver c) :
    p.settled = (s.scopePosition scope).settled
      ∧ p.earnedNet = (s.scopePosition scope).earnedNet := by
  simp only [Store.driverRecoveryPositions, Store.tripMoneyPositions, List.mem_map,
    Prod.mk.injEq] at hp
  rcases hp with ⟨scope', hscope', rfl, rfl⟩
  have hsource : ∃ e₀ ∈ s.driverEntries driver c, e₀.scope = scope' := by
    rcases List.mem_map.mp (mem_orderedKeys.mp hscope') with ⟨e₀, he₀, hscope₀⟩
    exact ⟨e₀, he₀, hscope₀⟩
  rcases hsource with ⟨e₀, he₀, hscope₀⟩
  have he₀' := mem_driverEntries.mp he₀
  -- a trip has one driver, so filtering by the driver first drops nothing
  have hperm : ((s.driverEntries driver c).filter (·.scope = scope')).Perm
      (s.scopeEntries scope') := by
    have hfilter : (s.entries.filter (fun e => e.driverProfileId = driver ∧ e.currency = c)).filter
        (·.scope = scope') = s.scopeEntries scope' := by
      rw [List.filter_filter, Store.scopeEntries]
      refine List.filter_congr ?_
      intro e he
      by_cases hscope : e.scope = scope'
      · have htrip : e.tripSessionId = e₀.tripSessionId := by
          have := congrArg Prod.fst (hscope.trans hscope₀.symm)
          exact this
        have hcurrency : e.currency = e₀.currency := by
          have := congrArg Prod.snd (hscope.trans hscope₀.symm)
          exact this
        simp [hscope, h.driver_eq he he₀'.1 htrip, he₀'.2.1, hcurrency, he₀'.2.2]
      · simp [hscope]
    exact hfilter ▸ (List.perm_insertionSort _ _).filter _
  have hawards := tripAwards_perm hperm
  have hlines : s.linesOf ((s.driverEntries driver c).filter (·.scope = scope'))
      = s.linesOf (s.scopeEntries scope') := by
    refine List.filter_congr ?_
    intro l _
    rw [Bool.eq_iff_iff, List.any_eq_true, List.any_eq_true]
    constructor
    · rintro ⟨e, he, hid⟩
      exact ⟨e, hperm.mem_iff.mp he, hid⟩
    · rintro ⟨e, he, hid⟩
      exact ⟨e, hperm.mem_iff.mpr he, hid⟩
  constructor
  · simp only [TripMoneyPosition.settled, tripCashPosition, Store.scopePosition, hlines]
  · simp only [tripCashPosition, Store.scopePosition, hawards]

/-! ## Positions across a movement -/

/-- New reserved lines and offsets, and released credits used up. -/
structure Movement (s s' : Store) (ls : List PayoutBatchLine) (os : List PayoutRecoveryOffset)
    (settled : List Id) : Prop where
  trips : s'.trips = s.trips
  entries : s'.entries = s.entries.map (settleIn settled)
  offsets : s'.offsets = s.offsets ++ os
  lines : s'.lines.Perm (s.lines ++ ls)
  reserved : ∀ l ∈ ls, isReserved l
  used : ∀ e ∈ s.entries, e.id ∈ settled → Released e

theorem Creation.movement {s s' : Store} {ls : List PayoutBatchLine}
    {os : List PayoutRecoveryOffset} {settled : List Id} (h : Creation s s' ls os settled) :
    Movement s s' ls os settled where
  trips := h.trips
  entries := h.entries
  offsets := h.offsets
  lines := h.lines
  reserved := fun l hl => (h.reserved l hl).1
  used := fun e he hsettled => .inl (h.used e he hsettled).1

namespace Movement

variable {s s' : Store} {ls : List PayoutBatchLine} {os : List PayoutRecoveryOffset}
  {settled : List Id}

theorem ownership (h : Movement s s' ls os settled) (hown : Ownership s) : Ownership s' :=
  hown.settleIn h.trips h.entries

theorem scopeEntries (h : Movement s s' ls os settled) (scope : TripScope) :
    s'.scopeEntries scope = (s.scopeEntries scope).map (settleIn settled) := by
  simp only [Store.scopeEntries, h.entries, List.filter_map]
  congr 1
  refine List.filter_congr ?_
  intro e _
  simp [settleIn_scope]

theorem onScope (h : Movement s s' ls os settled) (scope : TripScope) :
    s'.onScope scope = s.onScope scope := by
  funext l
  simp [Store.onScope, h.scopeEntries, List.any_map, Function.comp_def]

theorem awards (h : Movement s s' ls os settled) (scope : TripScope) :
    tripAwards (s'.scopeEntries scope) = tripAwards (s.scopeEntries scope) := by
  rw [h.scopeEntries]
  refine tripAwards_settleIn ?_
  intro e he hsettled
  exact h.used e (mem_scopeEntries.mp he).1 hsettled

theorem releasedNet (h : Movement s s' ls os settled) (scope : TripScope) :
    s'.releasedNet scope = s.releasedNet scope := by
  simp only [Store.releasedNet, h.awards scope]

theorem earnedNet (h : Movement s s' ls os settled) (scope : TripScope) :
    (s'.scopePosition scope).earnedNet = (s.scopePosition scope).earnedNet := by
  simp only [Store.scopePosition, tripCashPosition, h.awards scope]

theorem scopeLines (h : Movement s s' ls os settled) (scope : TripScope) :
    (s'.lines.filter (s'.onScope scope)).Perm
      (s.lines.filter (s.onScope scope) ++ ls.filter (s.onScope scope)) := by
  rw [h.onScope scope, ← List.filter_append]
  exact h.lines.filter _

/-- The new lines are reserved, so they enter no other total. -/
theorem lineTotal (h : Movement s s' ls os settled) (scope : TripScope)
    (p : PayoutBatchLine → Bool) :
    totalAmount ((s'.lines.filter (s'.onScope scope)).filter p)
      = totalAmount ((s.lines.filter (s.onScope scope)).filter p)
        + totalAmount ((ls.filter (s.onScope scope)).filter p) := by
  rw [totalAmount_perm ((h.scopeLines scope).filter p), List.filter_append, totalAmount_append]

theorem reserved_filter (h : Movement s s' ls os settled) (scope : TripScope)
    {p : PayoutBatchLine → Bool} {b : Bool} (hp : ∀ l, isReserved l → p l = b) :
    (ls.filter (s.onScope scope)).filter p = if b then ls.filter (s.onScope scope) else [] := by
  have hall : ∀ l ∈ ls.filter (s.onScope scope), p l = b := by
    intro l hl
    exact hp l (h.reserved l (List.mem_of_mem_filter hl))
  cases b with
  | true => exact List.filter_eq_self.mpr hall
  | false => exact List.filter_eq_nil_iff.mpr (fun l hl => by simp [hall l hl])

theorem entry? (h : Movement s s' ls os settled) (id : Id) :
    s'.entry? id = (s.entry? id).map (settleIn settled) := by
  simp only [Store.entry?, h.entries, List.find?_map]
  congr 2
  funext e
  simp

/-- Using credits up voids none, so the offsets count as before. -/
theorem fundingEntry? (h : Movement s s' ls os settled) (o : PayoutRecoveryOffset) :
    s'.fundingEntry? o = (s.fundingEntry? o).map (settleIn settled) := by
  simp only [Store.fundingEntry?, h.entry?]
  cases hentry : s.entry? o.fundingEntryId with
  | none => rfl
  | some e =>
      by_cases hsettled : e.id ∈ settled
      · have he : e ∈ s.entries := List.mem_of_find?_eq_some hentry
        rcases h.used e he hsettled with hstatus | hstatus
        all_goals simp [settleIn, hsettled, hstatus, Option.filter]
      · have hsame : settleIn settled e = e := if_neg hsettled
        simp only [Option.map_some, hsame, Option.filter]
        split_ifs <;> simp [hsame]

theorem fundedBy (h : Movement s s' ls os settled) (scope : TripScope) :
    s'.fundedBy scope = s.fundedBy scope := by
  funext o
  simp only [Store.fundedBy, h.fundingEntry?]
  cases s.fundingEntry? o with
  | none => rfl
  | some e =>
      have htrip : (settleIn settled e).tripSessionId = e.tripSessionId :=
        congrArg Prod.fst (settleIn_scope settled e)
      simp [htrip]

theorem receivedBy (h : Movement s s' ls os settled) (scope : TripScope) :
    s'.receivedBy scope = s.receivedBy scope := by
  funext o
  simp [Store.receivedBy, h.fundingEntry?]

theorem settled_eq (h : Movement s s' ls os settled) (scope : TripScope) :
    (s'.scopePosition scope).settled = (s.scopePosition scope).settled
      + offsetTotal (os.filter (s.fundedBy scope)) - received s scope os := by
  have hcash : (s'.scopePosition scope).cashPaid = (s.scopePosition scope).cashPaid := by
    have hpaid := h.lineTotal scope isPaid
    have hnew : ∀ l, isReserved l → isPaid l = false := by
      intro l hl
      simp only [isReserved, Bool.and_eq_true, Bool.not_eq_true'] at hl
      exact hl.1.1
    rw [h.reserved_filter scope hnew] at hpaid
    exact hpaid.trans (add_zero _)
  have hfunded : s'.offsetsFunded scope
      = s.offsetsFunded scope + offsetTotal (os.filter (s.fundedBy scope)) := by
    simp [Store.offsetsFunded, h.offsets, h.fundedBy, offsetTotal]
  have hreceived : s'.offsetsReceived scope = s.offsetsReceived scope + received s scope os := by
    simp [Store.offsetsReceived, h.offsets, h.receivedBy, received, offsetTotal]
  have hoffsets : (s'.scopePosition scope).settled = (s'.scopePosition scope).cashPaid
      + s'.offsetsFunded scope - s'.offsetsReceived scope := rfl
  have hoffsets₀ : (s.scopePosition scope).settled = (s.scopePosition scope).cashPaid
      + s.offsetsFunded scope - s.offsetsReceived scope := rfl
  omega

theorem reserved_eq (h : Movement s s' ls os settled) (scope : TripScope) :
    (s'.scopePosition scope).reserved = (s.scopePosition scope).reserved
      + totalAmount (ls.filter (s.onScope scope)) := by
  have hreserved := h.lineTotal scope isReserved
  rw [h.reserved_filter scope (fun l hl => hl)] at hreserved
  exact hreserved

theorem inFlight_eq (h : Movement s s' ls os settled) (scope : TripScope) :
    (s'.scopePosition scope).inFlight = (s.scopePosition scope).inFlight := by
  have hinFlight := h.lineTotal scope isInFlight
  have hnew : ∀ l, isReserved l → isInFlight l = false := by
    intro l hl
    simp only [isReserved, Bool.and_eq_true, Bool.not_eq_true'] at hl
    simp [isInFlight, hl.2]
  rw [h.reserved_filter scope hnew] at hinFlight
  exact hinFlight.trans (add_zero _)

/-- The charge is the same read before or after. -/
theorem charge_eq (h : Movement s s' ls os settled) (scope : TripScope)
    (ls' : List PayoutBatchLine) (os' : List PayoutRecoveryOffset) :
    charge s' scope ls' os' = charge s scope ls' os' := by
  simp only [charge, h.onScope, h.fundedBy]

theorem received_eq (h : Movement s s' ls os settled) (scope : TripScope)
    (os' : List PayoutRecoveryOffset) : received s' scope os' = received s scope os' := by
  simp only [received, h.receivedBy]

theorem scopeEntries_nil (h : Movement s s' ls os settled) (scope : TripScope) :
    s'.scopeEntries scope = [] ↔ s.scopeEntries scope = [] := by
  simp [h.scopeEntries]

end Movement

/-! ## Staying within the authority of a trip -/

/-- Amounts are positive in the store and in what is created. -/
structure Positive (s : Store) (ls : List PayoutBatchLine) (os : List PayoutRecoveryOffset) :
    Prop where
  stored : ∀ l ∈ s.lines, 0 < l.amount
  lines : ∀ l ∈ ls, 0 < l.amount
  offsets : ∀ o ∈ os, 0 < o.amount

/-- No trip was charged beyond what it could pay, and a trip that was repaid still
has nothing to pay with. -/
structure Within (s s' : Store) (ls : List PayoutBatchLine) (os : List PayoutRecoveryOffset) :
    Prop where
  charged : ∀ trip c,
    charge s (some trip, c) ls os ≤ (s.tripMoneyPosition trip c).batchPayable
  owing : ∀ trip c, received s (some trip, c) os = 0
    ∨ (s'.scopePosition (some trip, c)).earnedNet ≤ (s'.scopePosition (some trip, c)).settled

section Authority

variable {s s' s'' : Store} {ls ls' : List PayoutBatchLine} {os os' : List PayoutRecoveryOffset}
  {settled settled' : List Id}

theorem scopePosition_nonneg (hpos : ∀ l ∈ s.lines, 0 < l.amount) (scope : TripScope) :
    0 ≤ (s.scopePosition scope).reserved ∧ 0 ≤ (s.scopePosition scope).inFlight := by
  constructor
  all_goals
    refine totalAmount_nonneg ?_
    intro l hl
    exact hpos l (List.mem_of_mem_filter (List.mem_of_mem_filter hl))

/-- What was charged is gone from the payable amount. -/
theorem Creation.batchPayable_le (h : Creation s s' ls os settled) (hpos : Positive s ls os)
    {trip : Id} {c : Currency}
    (hcharged : charge s (some trip, c) ls os ≤ (s.tripMoneyPosition trip c).batchPayable)
    (howing : received s (some trip, c) os = 0
      ∨ (s'.scopePosition (some trip, c)).earnedNet ≤ (s'.scopePosition (some trip, c)).settled) :
    (s'.tripMoneyPosition trip c).batchPayable
      ≤ (s.tripMoneyPosition trip c).batchPayable - charge s (some trip, c) ls os := by
  have hcharge := charge_nonneg s (some trip, c) hpos.lines hpos.offsets
  by_cases hempty : s.scopeEntries (some trip, c) = []
  · have hempty' := (h.movement.scopeEntries_nil (some trip, c)).mpr hempty
    simp only [tripMoneyPosition_eq, hempty, hempty', if_true] at hcharged ⊢
    omega
  · have hempty' : s'.scopeEntries (some trip, c) ≠ [] :=
      fun h' => hempty ((h.movement.scopeEntries_nil (some trip, c)).mp h')
    simp only [tripMoneyPosition_eq, hempty, hempty', if_false] at hcharged ⊢
    have hnonneg := scopePosition_nonneg hpos.stored (some trip, c)
    have hbefore := scopePosition_batchPayable s (some trip, c)
    have hafter := scopePosition_batchPayable s' (some trip, c)
    rw [h.movement.releasedNet, h.movement.settled_eq, h.movement.reserved_eq, h.movement.inFlight_eq] at hafter
    rw [h.movement.earnedNet, h.movement.settled_eq] at howing
    have hearned := releasedNet_le_earnedNet s (some trip, c)
    have hfunded : 0 ≤ offsetTotal (os.filter (s.fundedBy (some trip, c))) := offsetTotal_nonneg
      (fun o ho => hpos.offsets o (List.mem_of_mem_filter ho))
    have hlines : 0 ≤ totalAmount (ls.filter (s.onScope (some trip, c))) := totalAmount_nonneg
      (fun l hl => hpos.lines l (List.mem_of_mem_filter hl))
    simp only [charge] at hcharged hcharge ⊢
    rcases howing with hnone | howing <;> omega

/-- A charged trip stays covered by its released earnings. -/
theorem Within.covered (hw : Within s s' ls os) (h : Creation s s' ls os settled)
    (hpos : Positive s ls os) {trip : Id} {c : Currency}
    (hcharge : 0 < charge s (some trip, c) ls os) :
    (s'.tripMoneyPosition trip c).settled + (s'.tripMoneyPosition trip c).reserved
      + (s'.tripMoneyPosition trip c).inFlight ≤ s'.releasedNet (some trip, c) := by
  have hcharged := hw.charged trip c
  by_cases hempty : s.scopeEntries (some trip, c) = []
  · simp only [tripMoneyPosition_eq, hempty, if_true] at hcharged
    omega
  · have hempty' : s'.scopeEntries (some trip, c) ≠ [] :=
      fun h' => hempty ((h.movement.scopeEntries_nil (some trip, c)).mp h')
    simp only [tripMoneyPosition_eq, hempty, hempty', if_false] at hcharged ⊢
    have hnonneg := scopePosition_nonneg hpos.stored (some trip, c)
    have hbefore := scopePosition_batchPayable s (some trip, c)
    have hreceived := received_nonneg s (some trip, c) hpos.offsets
    rw [h.movement.releasedNet, h.movement.settled_eq, h.movement.reserved_eq, h.movement.inFlight_eq]
    simp only [charge] at hcharged hcharge
    omega

theorem Within.trans (hw : Within s s' ls os) (h : Creation s s' ls os settled)
    (hpos : Positive s ls os) (hw' : Within s' s'' ls' os') (h' : Creation s' s'' ls' os' settled')
    (hpos' : ∀ o ∈ os', 0 < o.amount) : Within s s'' (ls ++ ls') (os ++ os') where
  charged := by
    intro trip c
    have hleft := h.batchPayable_le hpos (hw.charged trip c) (hw.owing trip c)
    have hright := hw'.charged trip c
    rw [h.movement.charge_eq] at hright
    rw [charge_append]
    omega
  owing := by
    intro trip c
    have hfunded : 0 ≤ offsetTotal (os'.filter (s'.fundedBy (some trip, c))) := offsetTotal_nonneg
      (fun o ho => hpos' o (List.mem_of_mem_filter ho))
    have howing := hw.owing trip c
    have howing' := hw'.owing trip c
    rw [h.movement.received_eq] at howing'
    rw [received_append]
    have hsettled := h'.movement.settled_eq (some trip, c)
    rw [h.movement.received_eq] at hsettled
    rw [h'.movement.earnedNet] at howing' ⊢
    rcases howing' with hnone' | howing'
    · rcases howing with hnone | howing
      · exact .inl (by omega)
      · exact .inr (by omega)
    · exact .inr howing'

theorem Within.refl (s : Store) : Within s s [] [] where
  charged := by
    intro trip c
    simpa [charge] using tripMoneyPosition_batchPayable_nonneg s trip c
  owing := fun _ _ => .inl rfl

end Authority

end Payout
end Mobility
