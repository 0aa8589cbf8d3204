import Mobility.Files.QueueRounds

/-!
# QueueRuns — what a whole pass leaves

`NeverBlocks` says what a pass with enough rounds should come to; `Unblocked` says of the
receipts, before the pass, when it does.  A failed call ends the pass, so it must be the last
thing the queue has; a receipt whose file is still referenced is selected over and over, so
nothing may wait behind it.
-/

namespace Mobility
namespace Files

open Lib

/-! ## One round -/

/-- The round of `x` that the pass goes on from: the receipts `S` are completed, with all open
siblings of `x` where they go together, or else none is, and `x` waits or is stuck. -/
structure Round (x : StoredObjectDeletion) (S : StoredObjectDeletion → Prop) (F U : List Id)
    (g : StoredObjectDeletion → StoredObjectDeletion) (w w' : Store) : Prop
    extends Moves S F U g w w' where
  closed : ClosedUnder w S
  settled : ∀ d ∈ w.deletions, S d → x.Settles d ∧ (d.id ≠ x.id → d.state ≠ .pending)
  others : ∀ d ∈ w.deletions, d.id ≠ x.id → (g d).attempts = d.attempts
    ∧ (g d).lastErrorCode = d.lastErrorCode ∧ (¬ S d → (g d).state = d.state)
  self : (g x).attempts = x.attempts + if x.state = .pending then 1 else 0
  result : (S x ∧ ¬ (x.ownerType.kycKind = none ∧ w.StillReferenced x)
      ∧ (x.Joint → ∀ d ∈ w.deletions, x.SiblingOf d → S d))
    ∨ ((∀ d, ¬ S d) ∧ (g x).state = .providerDeleted
      ∧ ((x.Joint ∧ ∃ s ∈ w.deletions, s.id ≠ x.id ∧ x.SiblingOf s ∧ s.state = .pending)
        ∨ (x.ownerType.kycKind = none ∧ w.StillReferenced x)))

section Round

variable {w w₁ : Store} {x : StoredObjectDeletion} {F U : List Id}
variable {g₁ g : StoredObjectDeletion → StoredObjectDeletion}

theorem Moves.refl (w : Store) : Moves (fun _ => False) [] [] id w w := by
  refine
    { submissions := rfl
      documents := rfl
      attachments := rfl
      deletions := (List.map_id _).symm
      files := fun f => by simp
      uploads := fun _ _ hu => hu
      free := by simp
      held := by simp
      same := fun _ => ⟨rfl, rfl, rfl, rfl, rfl⟩
      done := fun _ _ hfalse => hfalse.elim
      links := fun d _ _ => ⟨(filter_notMem_nil _).symm, (filter_notMem_nil _).symm⟩
      uploadLinks := fun _ _ hu => hu
      forward := fun _ _ => ⟨fun h => h, fun h => h⟩ }

/-- The provider call changes no link. -/
theorem Moves.links_eq (h : Moves (fun _ => False) [] [] g₁ w w₁) {d : StoredObjectDeletion}
    (hd : d ∈ w.deletions) :
    (g₁ d).storedFileId = d.storedFileId ∧ (g₁ d).uploadIntentId = d.uploadIntentId := by
  rcases h.links d hd id with ⟨hfile, hupload⟩
  rw [filter_notMem_nil] at hfile hupload
  exact ⟨hfile, hupload⟩

theorem Moves.joint_iff (h : Moves (fun _ => False) [] [] g₁ w w₁) {d : StoredObjectDeletion}
    (hd : d ∈ w.deletions) : (g₁ d).Joint ↔ d.Joint := by
  unfold StoredObjectDeletion.Joint
  rw [(h.same d).ownerType, (h.links_eq hd).1, (h.links_eq hd).2]

theorem Moves.settles_iff (h : Moves (fun _ => False) [] [] g₁ w w₁) (hx : x ∈ w.deletions)
    {d : StoredObjectDeletion} : (g₁ x).Settles (g₁ d) ↔ x.Settles d := by
  unfold StoredObjectDeletion.Settles
  rw [(h.same d).id, (h.same x).id, h.joint_iff hx, h.sibling_iff]

/-- A provider call and the finalization after it move the receipts together. -/
theorem Moves.completes (h₁ : Moves (fun _ => False) [] [] g₁ w w₁) {w₂ : Store}
    (hx : x ∈ w.deletions) (h₂ : Completes (g₁ x) F U g w₁ w₂) :
    Moves x.Settles F U (g ∘ g₁) w w₂ := by
  have hfiles : ∀ f, f ∈ w₁.files ↔ f ∈ w.files := fun f => by simpa using h₁.files f
  refine
    { submissions := h₂.submissions.trans h₁.submissions
      documents := h₂.documents.trans h₁.documents
      attachments := h₂.attachments.trans h₁.attachments
      deletions := by rw [h₂.deletions, h₁.deletions, List.map_map]
      files := fun f => by rw [h₂.files, hfiles]
      uploads := fun u hu hsome => h₂.uploads u hu (h₁.uploads u List.not_mem_nil hsome)
      free := fun y hy => h₁.unreferenced_iff.mp (h₂.free y hy)
      held := ?_
      same := ?_
      done := fun d hd hS => h₂.done _ (h₁.mem hd) ((h₁.settles_iff hx).mpr hS)
      links := ?_
      uploadLinks := fun d u hu => h₁.uploadLinks d u (h₂.uploadLinks _ u hu)
      forward := ?_ }
  · -- what holds an upload after the call held it before
    intro u hu
    rcases h₂.held u hu with ⟨t', ht', hS, htu⟩ | ⟨f, hf, hF, hfu⟩
    · rcases h₁.exists_of_mem ht' with ⟨t, ht, rfl⟩
      exact .inl ⟨t, ht, (h₁.settles_iff hx).mp hS, h₁.uploadLinks t u htu⟩
    · exact .inr ⟨f, (hfiles f).mp hf, hF, hfu⟩
  · intro d
    have hfirst := h₁.same d
    have hsecond := h₂.same (g₁ d)
    exact ⟨hsecond.id.trans hfirst.id, hsecond.ownerType.trans hfirst.ownerType,
      hsecond.ownerId.trans hfirst.ownerId, hsecond.storageKey.trans hfirst.storageKey,
      hsecond.requestFingerprint.trans hfirst.requestFingerprint⟩
  · intro d hd hS
    have hlinks := h₂.links _ (h₁.mem hd) fun hS' => hS ((h₁.settles_iff hx).mp hS')
    rw [(h₁.links_eq hd).1, (h₁.links_eq hd).2] at hlinks
    exact hlinks
  · intro d hd
    have hfirst := h₁.forward d hd
    have hsecond := h₂.forward _ (h₁.mem hd)
    exact ⟨fun h => hfirst.1 (hsecond.1 h), fun h => hsecond.2 (hfirst.2 h)⟩

/-- What a finalization completes takes its open siblings along. -/
theorem settles_closed (hlinked : Linked w) (hx : x ∈ w.deletions) (hopen : x.state ≠ .completed) :
    ClosedUnder w x.Settles := by
  intro t ht hS d hd hsib hdopen
  by_cases hid : d.id = x.id
  · exact .inl hid
  have hxd : x.SiblingOf d := by
    rcases hS with htx | ⟨-, hxt⟩
    · rwa [eq_of_key_eq hlinked.ids ht hx htx] at hsib
    · exact hxt.trans hsib
  exact .inr ⟨hlinked.joint hx hd (fun h => hid h.symm) hxd hopen hdopen, hxd⟩

/-- A round after its provider call. -/
theorem round_of_moves (hlinked : Linked w) (hx : x ∈ w.deletions) (hselectable : w.Selectable x)
    (h₁ : Moves (fun _ => False) [] [] g₁ w w₁)
    (hothers : ∀ d ∈ w.deletions, d.id ≠ x.id → g₁ d = d)
    (hdeleted : (g₁ x).state = .providerDeleted)
    (hself : (g₁ x).attempts = x.attempts + if x.state = .pending then 1 else 0) :
    ∃ S F U g w₂ finished, finalizeStoredObjectDeletion w₁ x.id = .ok (w₂, finished)
      ∧ Round x S F U g w w₂ := by
  have hlinked₁ : Linked w₁ := h₁.linked (fun _ _ hfalse => hfalse.elim) hlinked
  have hx₁ := h₁.mem hx
  have hselectable₁ : w₁.Selectable (g₁ x) :=
    (h₁.selectable_iff (by rw [hdeleted]; simp) hselectable.1).mpr hselectable
  have hid : (g₁ x).id = x.id := (h₁.same x).id
  -- a pending receipt after the call was one before it, and is another one
  have hpending : ∀ s ∈ w.deletions, (g₁ s).state = .pending → s.id ≠ x.id := by
    intro s hs hstate hsx
    rw [eq_of_key_eq hlinked.ids hs hx hsx, hdeleted] at hstate
    cases hstate
  have hidle : ∀ {w₂}, w₂ = w₁ → (g₁ x).state = .providerDeleted →
      ((x.Joint ∧ ∃ s ∈ w.deletions, s.id ≠ x.id ∧ x.SiblingOf s ∧ s.state = .pending)
        ∨ (x.ownerType.kycKind = none ∧ w.StillReferenced x)) →
      Round x (fun _ => False) [] [] g₁ w w₂ := by
    rintro w₂ rfl hstate hwhy
    refine
      { h₁ with
        closed := fun _ _ hfalse => hfalse.elim
        settled := fun _ _ hfalse => hfalse.elim
        others := ?_
        self := hself
        result := .inr ⟨fun _ hfalse => hfalse, hstate, hwhy⟩ }
    intro d hd hne
    rw [hothers d hd hne]
    exact ⟨rfl, rfl, fun _ => rfl⟩
  rcases finalize_cases hlinked₁ hx₁ hselectable₁ hdeleted with
    ⟨hjoint, ⟨s', hs', hsib, hstate⟩, hfinal⟩ | ⟨hkind, hreferenced, hfinal⟩
      | ⟨hsettled, hfree, F, U, g, w₂, hfinal, hcompletes⟩
  · rw [hid] at hfinal
    rcases h₁.exists_of_mem hs' with ⟨s, hs, rfl⟩
    refine ⟨_, _, _, _, _, _, hfinal, hidle rfl hdeleted (.inl ⟨(h₁.joint_iff hx).mp hjoint, s, hs,
      hpending s hs hstate, h₁.sibling_iff.mp hsib, (h₁.forward s hs).1 hstate⟩)⟩
  · rw [hid] at hfinal
    rw [(h₁.same x).ownerType] at hkind
    exact ⟨_, _, _, _, _, _, hfinal, hidle rfl hdeleted (.inr ⟨hkind,
      (h₁.stillReferenced_iff hx id).mp hreferenced⟩)⟩
  · rw [hid] at hfinal
    refine ⟨x.Settles, F, U, g ∘ g₁, w₂, true, hfinal, ?_⟩
    refine
      { h₁.completes hx hcompletes with
        closed := settles_closed hlinked hx hselectable.1
        settled := ?_
        others := ?_
        self := ?_
        result := .inl ⟨.inl rfl, ?_, fun hjoint d _ hsib => .inr ⟨hjoint, hsib⟩⟩ }
    · intro d hd hS
      refine ⟨hS, fun hne hstate => ?_⟩
      rcases hS with hsame | ⟨hjoint, hsib⟩
      · exact hne hsame
      · refine hsettled ((h₁.joint_iff hx).mpr hjoint) ⟨g₁ d, h₁.mem hd, h₁.sibling_iff.mpr hsib, ?_⟩
        rw [hothers d hd hne]
        exact hstate
    · intro d hd hne
      have htally := hcompletes.tally (g₁ d)
      refine ⟨?_, ?_, fun hS => ?_⟩
      · rw [Function.comp_apply, htally.1, hothers d hd hne]
      · rw [Function.comp_apply, htally.2, hothers d hd hne]
      · have hstays := hcompletes.stays _ (h₁.mem hd) fun hS' => hS ((h₁.settles_iff hx).mp hS')
        rw [Function.comp_apply, hstays, hothers d hd hne]
    · rw [Function.comp_apply, (hcompletes.tally (g₁ x)).1, hself]
    · rw [(h₁.same x).ownerType, h₁.stillReferenced_iff hx id] at hfree
      exact hfree

end Round

/-! ## The pass, round by round -/

section Pass

variable {createdAt : Id → Int} {outcome : Id → StorageOutcome}

/-- The store that a failed call of `x` leaves. -/
def Store.callFailed (w : Store) (x : StoredObjectDeletion) (code : String)
    (objects : List StorageKey) : Store :=
  ({ w with objects := objects } : Store).rewriteDeletion x.id (.attempt (some code) .pending)

variable (outcome) in
theorem pass_succ {w : Store} (hlinked : Linked w) {x : StoredObjectDeletion}
    (hnext : w.nextDeletion createdAt = some x) (limit : Nat) :
    (x.state = .pending ∧ ¬ w.MayDelete x
      ∧ (processStoredObjectDeletions createdAt outcome (limit + 1) w).store = w)
    ∨ (x.state = .pending ∧ w.MayDelete x ∧ ∃ code objects, (outcome x.id).errorCode = some code
      ∧ (processStoredObjectDeletions createdAt outcome (limit + 1) w).store
        = w.callFailed x code objects)
    ∨ ((x.state = .pending → w.MayDelete x ∧ (outcome x.id).errorCode = none)
      ∧ ∃ S F U g w₂, Round x S F U g w w₂
        ∧ (processStoredObjectDeletions createdAt outcome (limit + 1) w).store
          = (processStoredObjectDeletions createdAt outcome limit w₂).store) := by
  rcases nextDeletion_some hnext with ⟨hx, hselectable⟩
  rw [processStoredObjectDeletions]
  simp only [hnext]
  rcases deleteStoredObject_selected hlinked.ids hx hselectable (outcome x.id) with
    ⟨hdeleted, hcall⟩ | ⟨hpending, hretired, hreferenced, e, hcall⟩
      | ⟨hpending, hmay, called, objects, hcalled, hcall⟩
  · -- the object is gone already
    rcases round_of_moves hlinked hx hselectable (Moves.refl w) (fun _ _ _ => rfl) hdeleted
      (by rw [if_neg (by simp [hdeleted])]; rfl) with ⟨S, F, U, g, w₂, finished, hfinal, hround⟩
    refine .inr (.inr ⟨fun hpending => ?_, S, F, U, g, w₂, hround, ?_⟩)
    · rw [hdeleted] at hpending
      cases hpending
    · rw [hcall]
      simp only [hfinal]
  · refine .inl ⟨hpending, fun hmay => hreferenced (hmay hretired), ?_⟩
    rw [hcall]
  · cases hcode : (outcome x.id).errorCode with
    | some code =>
        refine .inr (.inl ⟨hpending, hmay, code, objects, rfl, ?_⟩)
        rw [hcall, hcode, hcalled]
        rfl
    | none =>
        have hmoves := moves_rewrite .providerDeleted hlinked.ids hx hpending
          ⟨objects, hcalled⟩ none
        rcases round_of_moves hlinked hx hselectable hmoves (fun d _ hne => if_neg hne)
          (by rw [if_pos rfl]; rfl) (by rw [if_pos rfl, if_pos hpending]; rfl) with
          ⟨S, F, U, g, w₂, finished, hfinal, hround⟩
        refine .inr (.inr ⟨fun _ => ⟨hmay, rfl⟩, S, F, U, g, w₂, hround, ?_⟩)
        rw [hcall, hcode]
        simp only [hfinal]

/-- The rule for passes: what holds of every round's store, and what the pass then leaves. -/
theorem pass_run {P Q : Store → Prop} (hlinked : ∀ w, P w → Linked w) (hstop : ∀ w, P w → Q w)
    (hfail : ∀ w x code objects, P w → w.nextDeletion createdAt = some x → x.state = .pending →
      w.MayDelete x → (outcome x.id).errorCode = some code → Q (w.callFailed x code objects))
    (hround : ∀ w x S F U g w₂, P w → w.nextDeletion createdAt = some x →
      (x.state = .pending → w.MayDelete x ∧ (outcome x.id).errorCode = none) →
      Round x S F U g w w₂ → P w₂) (limit : Nat) {w : Store} (h : P w) :
    Q (processStoredObjectDeletions createdAt outcome limit w).store := by
  induction limit generalizing w with
  | zero => exact hstop w h
  | succ limit ih =>
      cases hnext : w.nextDeletion createdAt with
      | none =>
          rw [processStoredObjectDeletions]
          simp only [hnext]
          exact hstop w h
      | some x =>
          rcases pass_succ outcome (hlinked w h) hnext limit with
            ⟨-, -, hstore⟩ | ⟨hpending, hmay, code, objects, hcode, hstore⟩
              | ⟨hcall, S, F, U, g, w₂, hmoves, hstore⟩
          · rw [hstore]
            exact hstop w h
          · rw [hstore]
            exact hfail w x code objects h hnext hpending hmay hcode
          · rw [hstore]
            exact ih (hround w x S F U g w₂ h hnext hcall hmoves)

/-! ## What a pass should leave, and when it does -/

/-- Every selectable receipt that is pending is attempted, once; it is completed when its
object goes and its file is free, and stays pending with its error when the call fails. -/
structure NeverBlocks (outcome : Id → StorageOutcome) (w w' : Store) : Prop where
  attempted : ∀ d ∈ w.deletions, w.Selectable d → d.state = .pending →
    ∃ d' ∈ w'.deletions, d'.id = d.id ∧ d'.attempts = d.attempts + 1
  completed : ∀ d ∈ w.deletions, w.Selectable d →
    (d.state = .pending → (outcome d.id).errorCode = none) → ¬ w.StillReferenced d →
      ∃ d' ∈ w'.deletions, d'.id = d.id ∧ d'.state = .completed
  recorded : ∀ d ∈ w.deletions, w.Selectable d → d.state = .pending →
    ∀ code, (outcome d.id).errorCode = some code →
      ∃ d' ∈ w'.deletions, d'.id = d.id ∧ d'.state = .pending ∧ d'.lastErrorCode = some code
  once : ∀ d ∈ w.deletions, ∃ d' ∈ w'.deletions, d'.id = d.id ∧ d'.attempts ≤ d.attempts + 1

/-- The receipt is finalized alone, and its file is still referenced. -/
def Store.Stuck (w : Store) (d : StoredObjectDeletion) : Prop :=
  d.ownerType.kycKind = none ∧ w.StillReferenced d

/-- No pending receipt is refused; one whose call fails is the last of the queue, with nothing
else left to complete; and whatever waits for its finalization only stands before every stuck
receipt, itself or by a sibling. -/
structure Unblocked (createdAt : Id → Int) (outcome : Id → StorageOutcome) (w : Store) : Prop where
  unrefused : ∀ d ∈ w.deletions, w.Selectable d → d.state = .pending → w.MayDelete d
  lastToFail : ∀ f ∈ w.deletions, w.Selectable f → f.state = .pending →
    (outcome f.id).errorCode ≠ none → ∀ e ∈ w.deletions, w.Selectable e → e.id ≠ f.id →
      (e.state = .pending → age createdAt e < age createdAt f)
        ∧ (¬ w.StillReferenced e → ¬ f.SiblingOf e ∧ (e.state = .providerDeleted → w.Awaits e))
  stuckLast : ∀ d ∈ w.deletions, w.Selectable d → w.Stuck d → ∀ e ∈ w.deletions,
    w.Selectable e → e.state = .providerDeleted → ¬ w.Awaits e → ¬ w.StillReferenced e →
      ∃ y ∈ w.deletions, y.state ≠ .completed ∧ e.SiblingOf y ∧ age createdAt y < age createdAt d

/-! ## What a round keeps -/

namespace Round

variable {w w₂ : Store} {x d e : StoredObjectDeletion} {S : StoredObjectDeletion → Prop}
variable {F U : List Id} {g : StoredObjectDeletion → StoredObjectDeletion}

theorem self_not_pending (h : Round x S F U g w w₂) (hx : x ∈ w.deletions) :
    (g x).state ≠ .pending := by
  rcases h.result with ⟨hS, -, -⟩ | ⟨-, hdeleted, -⟩
  · rw [h.done x hx hS]
    simp
  · rw [hdeleted]
    simp

theorem pending_iff (h : Round x S F U g w w₂) (hids : (w.deletions.map (·.id)).Nodup)
    (hx : x ∈ w.deletions) (hd : d ∈ w.deletions) :
    (g d).state = .pending ↔ d.state = .pending ∧ d.id ≠ x.id := by
  constructor
  · intro hpending
    refine ⟨(h.forward d hd).1 hpending, fun hid => ?_⟩
    rw [eq_of_key_eq hids hd hx hid] at hpending
    exact h.self_not_pending hx hpending
  · rintro ⟨hpending, hne⟩
    rw [(h.others d hd hne).2.2 fun hS => (h.settled d hd hS).2 hne hpending]
    exact hpending

theorem selectable (h : Round x S F U g w w₂) (hselectable : w.Selectable d)
    (hopen : (g d).state ≠ .completed) : w₂.Selectable (g d) :=
  (h.selectable_iff hopen hselectable.1).mpr hselectable

theorem selectable_of (h : Round x S F U g w w₂) (hd : d ∈ w.deletions)
    (hselectable : w₂.Selectable (g d)) : w.Selectable d :=
  (h.selectable_iff hselectable.1 (h.open_of hd hselectable.1)).mp hselectable

/-- A receipt that the round leaves deleted waits as before. -/
theorem awaits_iff (h : Round x S F U g w w₂) (hlinked : Linked w) (hx : x ∈ w.deletions)
    (hxopen : x.state ≠ .completed) (he : e ∈ w.deletions) (hne : e.id ≠ x.id) (hS : ¬ S e)
    (heopen : e.state ≠ .completed) : w₂.Awaits (g e) ↔ w.Awaits e := by
  constructor
  · rintro ⟨s', hs', hsib, hpending⟩
    rcases h.exists_of_mem hs' with ⟨s, hs, rfl⟩
    exact ⟨s, hs, h.sibling_iff.mp hsib, (h.forward s hs).1 hpending⟩
  · rintro ⟨s, hs, hsib, hpending⟩
    by_cases hsx : s.id = x.id
    · -- the receipt it waited for had its round, and did not take it along
      cases eq_of_key_eq hlinked.ids hs hx hsx
      have hjoint := hlinked.joint hs he (fun hid => hne hid.symm) hsib.symm hxopen heopen
      rcases h.result with ⟨-, -, htakes⟩ | ⟨-, -, ⟨-, t, ht, htne, htsib, htpending⟩ | hstuck⟩
      · exact absurd (htakes hjoint e he hsib.symm) hS
      · exact ⟨g t, h.mem ht, h.sibling_iff.mpr (hsib.trans htsib),
          (h.pending_iff hlinked.ids hx ht).mpr ⟨htpending, htne⟩⟩
      · exact absurd (hlinked.eq_of_stillReferenced hs he hstuck.1 hstuck.2 hsib.symm hxopen heopen)
          fun hid => hne hid.symm
    · exact ⟨g s, h.mem hs, h.sibling_iff.mpr hsib,
        (h.pending_iff hlinked.ids hx hs).mpr ⟨hpending, hsx⟩⟩

theorem stuck_iff (h : Round x S F U g w w₂) (hd : d ∈ w.deletions) (hS : ¬ S d) :
    w₂.Stuck (g d) ↔ w.Stuck d := by
  unfold Store.Stuck
  rw [(h.same d).ownerType, h.stillReferenced_iff hd hS]

/-- The receipt of the round is completed, or waits, or is stuck. -/
theorem self_waits (h : Round x S F U g w w₂) (hids : (w.deletions.map (·.id)).Nodup)
    (hx : x ∈ w.deletions) (hopen : (g x).state ≠ .completed) :
    w₂.Awaits (g x) ∨ w₂.Stuck (g x) := by
  have hS := h.not_taken hx hopen
  rcases h.result with ⟨hSx, -⟩ | ⟨-, -, ⟨-, t, ht, htne, htsib, htpending⟩ | hstuck⟩
  · exact absurd hSx hS
  · exact .inl ⟨g t, h.mem ht, h.sibling_iff.mpr htsib,
      (h.pending_iff hids hx ht).mpr ⟨htpending, htne⟩⟩
  · exact .inr ((h.stuck_iff hx hS).mpr hstuck)

/-- What is only left to be finalized was so before the round. -/
theorem ready_of (h : Round x S F U g w w₂) (hlinked : Linked w) (hx : x ∈ w.deletions)
    (hxopen : x.state ≠ .completed) (he : e ∈ w.deletions) (hdeleted : (g e).state = .providerDeleted)
    (hready : ¬ w₂.Awaits (g e)) (hfree : ¬ w₂.Stuck (g e)) :
    e.id ≠ x.id ∧ e.state = .providerDeleted ∧ ¬ w.Awaits e ∧ ¬ w.Stuck e := by
  have hopen : (g e).state ≠ .completed := by
    rw [hdeleted]
    simp
  have hne : e.id ≠ x.id := by
    intro hid
    cases eq_of_key_eq hlinked.ids he hx hid
    rcases h.self_waits hlinked.ids he hopen with hwaits | hstuck
    · exact hready hwaits
    · exact hfree hstuck
  have hS := h.not_taken he hopen
  refine ⟨hne, ?_, ?_, fun hstuck => hfree ((h.stuck_iff he hS).mpr hstuck)⟩
  · rw [← (h.others e he hne).2.2 hS]
    exact hdeleted
  · exact fun hwaits => hready ((h.awaits_iff hlinked hx hxopen he hne hS (h.open_of he hopen)).mpr
      hwaits)

theorem unblocked (h : Round x S F U g w w₂) (hlinked : Linked w) (hx : x ∈ w.deletions)
    (hxopen : x.state ≠ .completed) (hfree : Unblocked createdAt outcome w) :
    Unblocked createdAt outcome w₂ := by
  have hage : ∀ d, age createdAt (g d) = age createdAt d := fun d => by
    rw [age, age, (h.same d).id]
  refine ⟨?_, ?_, ?_⟩
  · intro d' hd' hselectable hpending
    rcases h.exists_of_mem hd' with ⟨d, hd, rfl⟩
    have hmay := hfree.unrefused d hd (h.selectable_of hd hselectable) ((h.forward d hd).1 hpending)
    unfold Store.MayDelete at hmay ⊢
    rw [(h.same d).ownerType, (h.same d).ownerId, h.unreferenced_iff]
    exact hmay
  · intro f' hf' hfselectable hfpending hfails e' he' heselectable hne
    rcases h.exists_of_mem hf' with ⟨f, hf, rfl⟩
    rcases h.exists_of_mem he' with ⟨e, he, rfl⟩
    rw [(h.same f).id] at hfails hne
    rw [(h.same e).id] at hne
    have hS := h.not_taken he heselectable.1
    rcases hfree.lastToFail f hf (h.selectable_of hf hfselectable) ((h.forward f hf).1 hfpending)
      hfails e he (h.selectable_of he heselectable) hne with ⟨hbefore, hdone⟩
    refine ⟨fun hpending => ?_, fun hunreferenced => ?_⟩
    · rw [hage, hage]
      exact hbefore ((h.forward e he).1 hpending)
    · rcases hdone fun href => hunreferenced ((h.stillReferenced_iff he hS).mpr href) with
        ⟨hsib, hwaits⟩
      refine ⟨fun hsib' => hsib (h.sibling_iff.mp hsib'), fun hdeleted => ?_⟩
      by_contra hready
      rcases h.ready_of hlinked hx hxopen he hdeleted hready fun hstuck => hunreferenced hstuck.2 with
        ⟨-, hdeleted', hready', -⟩
      exact hready' (hwaits hdeleted')
  · intro d' hd' hdselectable hstuck e' he' heselectable hdeleted hready hunreferenced
    rcases h.exists_of_mem hd' with ⟨d, hd, rfl⟩
    rcases h.exists_of_mem he' with ⟨e, he, rfl⟩
    have hSd := h.not_taken hd hdselectable.1
    have hSe := h.not_taken he heselectable.1
    rcases h.ready_of hlinked hx hxopen he hdeleted hready fun hstuck => hunreferenced hstuck.2 with
      ⟨-, hdeleted', hready', -⟩
    rcases hfree.stuckLast d hd (h.selectable_of hd hdselectable) ((h.stuck_iff hd hSd).mp hstuck) e he
      (h.selectable_of he heselectable) hdeleted' hready'
      (fun href => hunreferenced ((h.stillReferenced_iff he hSe).mpr href)) with
      ⟨y, hy, hyopen, hsib, hbefore⟩
    -- the sibling is still open: it would have taken `e` along
    have hSy : ¬ S y := fun hSy =>
      hSe (h.closed y hy hSy e he hsib.symm (h.open_of he heselectable.1))
    refine ⟨g y, h.mem hy, ?_, h.sibling_iff.mpr hsib, by rw [hage, hage]; exact hbefore⟩
    by_cases hyx : y.id = x.id
    · cases eq_of_key_eq hlinked.ids hy hx hyx
      rcases h.result with ⟨hSx, -⟩ | ⟨-, hstate, -⟩
      · exact absurd hSx hSy
      · rw [hstate]
        simp
    · rw [(h.others y hy hyx).2.2 hSy]
      exact hyopen

end Round

end Pass

end Files
end Mobility
