import Mobility.Files.Queue

/-!
# QueueRounds — what one round of a pass does

A round deletes one object and finalizes one receipt.  A receipt of a submission, or of an
expired upload, is finalized with its siblings and waits for the pending ones; any other
receipt is finalized alone, unless its file is still referenced.
-/

namespace Mobility
namespace Files

open Lib

/-! ## Receipts and their owners -/

/-- Finalized together with the other receipts of its owner. -/
def StoredObjectDeletion.Joint (d : StoredObjectDeletion) : Prop :=
  d.ownerType.kycKind.isSome = true ∨ (d.storedFileId = none ∧ d.uploadIntentId.isSome = true)

/-- The receipt's file is stored, and something refers to it. -/
def Store.StillReferenced (w : Store) (d : StoredObjectDeletion) : Prop :=
  ∃ x, d.storedFileId = some x ∧ (∃ f ∈ w.files, f.id = x) ∧ ¬ w.Unreferenced x

/-- A receipt of the same owner has its object left. -/
def Store.Awaits (w : Store) (d : StoredObjectDeletion) : Prop :=
  ∃ s ∈ w.deletions, d.SiblingOf s ∧ s.state = .pending

/-- The rows of the owner's uploads can be removed: each is there, and is held by files only
that go with the owner's receipts. -/
def Store.Removable (w : Store) (d : StoredObjectDeletion) : Prop :=
  ∀ s ∈ w.deletions, d.SiblingOf s → ∀ u, s.uploadIntentId = some u →
    (w.upload? u).isSome = true ∧ ∀ f ∈ w.files, f.uploadIntentId = some u →
      w.Unreferenced f.id ∧ ∃ t ∈ w.deletions, d.SiblingOf t ∧ t.storedFileId = some f.id

/-- What the writers of receipts leave.  The receipts of a purged submission belong to a
terminal one without documents, and name the files that hold its uploads.  Two open receipts of
one owner that is no submission are the two of an expired upload. -/
structure Linked (w : Store) : Prop where
  ids : (w.deletions.map (·.id)).Nodup
  retired : ∀ d ∈ w.deletions, w.Selectable d → ∀ kind, d.ownerType.kycKind = some kind →
    ∃ s, w.submission? kind d.ownerId = some s ∧ s.status ∈ terminalKycStatuses
      ∧ s.purgedAt.isSome = true ∧ w.documentsOf kind s.id = []
  removable : ∀ d ∈ w.deletions, w.Selectable d → d.ownerType.kycKind.isSome = true →
    w.Removable d
  alone : ∀ d ∈ w.deletions, ∀ e ∈ w.deletions, d.id ≠ e.id → d.SiblingOf e →
    d.ownerType.kycKind = none → d.state ≠ .completed → e.state ≠ .completed →
      d.storedFileId = none ∧ ∃ u, d.uploadIntentId = some u
        ∧ (∀ f ∈ w.files, f.uploadIntentId ≠ some u)
        ∧ ∀ t ∈ w.deletions, t.uploadIntentId = some u → t.SiblingOf d

section Siblings

variable {w : Store} {d e t : StoredObjectDeletion}

theorem StoredObjectDeletion.SiblingOf.refl (d : StoredObjectDeletion) : d.SiblingOf d :=
  ⟨rfl, rfl⟩

theorem StoredObjectDeletion.SiblingOf.symm (h : d.SiblingOf e) : e.SiblingOf d :=
  ⟨h.1.symm, h.2.symm⟩

theorem StoredObjectDeletion.SiblingOf.trans (h : d.SiblingOf e) (h' : e.SiblingOf t) : d.SiblingOf t :=
  ⟨h'.1.trans h.1, h'.2.trans h.2⟩

/-- Siblings are selected alike. -/
theorem Store.Selectable.sibling (h : w.Selectable d) (hsib : d.SiblingOf e)
    (hopen : e.state ≠ .completed) : w.Selectable e := by
  refine ⟨hopen, ?_⟩
  rw [hsib.1, hsib.2]
  exact h.2

/-- Two open receipts of one owner are finalized together. -/
theorem Linked.joint (h : Linked w) (hd : d ∈ w.deletions) (he : e ∈ w.deletions)
    (hne : d.id ≠ e.id) (hsib : d.SiblingOf e) (hdopen : d.state ≠ .completed)
    (heopen : e.state ≠ .completed) : d.Joint := by
  cases hkind : d.ownerType.kycKind with
  | some kind => exact .inl (by rw [hkind]; rfl)
  | none =>
      rcases h.alone d hd e he hne hsib hkind hdopen heopen with ⟨hnone, u, hu, -, -⟩
      exact .inr ⟨hnone, by rw [hu]; rfl⟩

/-- A receipt that is finalized alone has no open sibling. -/
theorem Linked.eq_of_stillReferenced (h : Linked w) (hd : d ∈ w.deletions) (he : e ∈ w.deletions)
    (hkind : d.ownerType.kycKind = none) (hreferenced : w.StillReferenced d)
    (hsib : d.SiblingOf e) (hdopen : d.state ≠ .completed) (heopen : e.state ≠ .completed) :
    d.id = e.id := by
  by_contra hne
  rcases h.joint hd he hne hsib hdopen heopen with hkyc | ⟨hnone, -⟩
  · rw [hkind] at hkyc
    cases hkyc
  · rcases hreferenced with ⟨x, hx, -⟩
    rw [hnone] at hx
    cases hx

end Siblings

/-! ## Rows that go, receipts that are completed -/

/-- The receipts `S` are completed; the others lose their links to the removed rows, and go
forward if they move at all. -/
structure Moves (S : StoredObjectDeletion → Prop) (F U : List Id)
    (g : StoredObjectDeletion → StoredObjectDeletion) (w w' : Store) : Prop where
  submissions : w'.submissions = w.submissions
  documents : w'.documents = w.documents
  attachments : w'.attachments = w.attachments
  deletions : w'.deletions = w.deletions.map g
  files : ∀ f, f ∈ w'.files ↔ f ∈ w.files ∧ f.id ∉ F
  uploads : ∀ u, u ∉ U → (w.upload? u).isSome = true → (w'.upload? u).isSome = true
  free : ∀ x ∈ F, w.Unreferenced x
  held : ∀ u ∈ U, (∃ t ∈ w.deletions, S t ∧ t.uploadIntentId = some u)
    ∨ ∃ f ∈ w.files, f.id ∈ F ∧ f.uploadIntentId = some u
  same : ∀ d, SameReceipt d (g d)
  done : ∀ d ∈ w.deletions, S d → (g d).state = .completed
  links : ∀ d ∈ w.deletions, ¬ S d → (g d).storedFileId = d.storedFileId.filter (· ∉ F)
    ∧ (g d).uploadIntentId = d.uploadIntentId.filter (· ∉ U)
  uploadLinks : ∀ d u, (g d).uploadIntentId = some u → d.uploadIntentId = some u
  forward : ∀ d ∈ w.deletions, ((g d).state = .pending → d.state = .pending)
    ∧ (d.state = .completed → (g d).state = .completed)

/-- `S` takes the open siblings of what it takes. -/
def ClosedUnder (w : Store) (S : StoredObjectDeletion → Prop) : Prop :=
  ∀ t ∈ w.deletions, S t → ∀ d ∈ w.deletions, t.SiblingOf d → d.state ≠ .completed → S d

namespace Moves

variable {S : StoredObjectDeletion → Prop} {F U : List Id}
variable {g : StoredObjectDeletion → StoredObjectDeletion} {w w' : Store}
variable {d e : StoredObjectDeletion}

theorem sibling_iff (h : Moves S F U g w w') : (g d).SiblingOf (g e) ↔ d.SiblingOf e := by
  unfold StoredObjectDeletion.SiblingOf
  rw [(h.same d).ownerType, (h.same d).ownerId, (h.same e).ownerType, (h.same e).ownerId]

theorem mem (h : Moves S F U g w w') (hd : d ∈ w.deletions) : g d ∈ w'.deletions := by
  rw [h.deletions]
  exact List.mem_map_of_mem hd

theorem exists_of_mem (h : Moves S F U g w w') (hd : d ∈ w'.deletions) :
    ∃ d₀ ∈ w.deletions, g d₀ = d := by
  rw [h.deletions] at hd
  exact List.mem_map.mp hd

theorem unreferenced_iff (h : Moves S F U g w w') {x : Id} :
    w'.Unreferenced x ↔ w.Unreferenced x := by
  unfold Store.Unreferenced
  rw [h.documents, h.attachments]

theorem open_of (h : Moves S F U g w w') (hd : d ∈ w.deletions)
    (hopen : (g d).state ≠ .completed) : d.state ≠ .completed := fun hdone =>
  hopen ((h.forward d hd).2 hdone)

theorem not_taken (h : Moves S F U g w w') (hd : d ∈ w.deletions)
    (hopen : (g d).state ≠ .completed) : ¬ S d := fun hS => hopen (h.done d hd hS)

theorem selectable_iff (h : Moves S F U g w w') (hopen : (g d).state ≠ .completed)
    (hopen' : d.state ≠ .completed) : w'.Selectable (g d) ↔ w.Selectable d := by
  unfold Store.Selectable Store.submission?
  rw [(h.same d).ownerType, (h.same d).ownerId, h.submissions]
  simp [hopen, hopen']

theorem stillReferenced_iff (h : Moves S F U g w w') (hd : d ∈ w.deletions) (hS : ¬ S d) :
    w'.StillReferenced (g d) ↔ w.StillReferenced d := by
  constructor
  · rintro ⟨x, hx, ⟨f, hf, hid⟩, hreferenced⟩
    rw [(h.links d hd hS).1] at hx
    exact ⟨x, (Option.filter_eq_some_iff.mp hx).1, ⟨f, ((h.files f).mp hf).1, hid⟩,
      fun hfree => hreferenced (h.unreferenced_iff.mpr hfree)⟩
  · rintro ⟨x, hx, ⟨f, hf, hid⟩, hreferenced⟩
    -- a referenced file stays, and so does the link to it
    have hkept : x ∉ F := fun hF => hreferenced (h.free x hF)
    refine ⟨x, ?_, ⟨f, (h.files f).mpr ⟨hf, hid ▸ hkept⟩, hid⟩,
      fun hfree => hreferenced (h.unreferenced_iff.mp hfree)⟩
    rw [(h.links d hd hS).1]
    exact Option.filter_eq_some_iff.mpr ⟨hx, by simpa using hkept⟩

/-- The links stay as the writers of receipts leave them. -/
theorem linked (h : Moves S F U g w w') (hclosed : ClosedUnder w S) (hlinked : Linked w) :
    Linked w' := by
  have hkeep : ∀ d ∈ w.deletions, (g d).state ≠ .completed →
      ∀ s ∈ w.deletions, d.SiblingOf s → ¬ S s := fun d hd hopen s hs hsib hS =>
    h.not_taken hd hopen (hclosed s hs hS d hd hsib.symm (h.open_of hd hopen))
  refine ⟨?_, ?_, ?_, ?_⟩
  · rw [h.deletions, keys_of_map _ _ _ fun d => (h.same d).id]
    exact hlinked.ids
  · intro d' hd' hselectable kind hkind
    rcases h.exists_of_mem hd' with ⟨d, hd, rfl⟩
    have hopen := hselectable.1
    rw [(h.same d).ownerType] at hkind
    rcases hlinked.retired d hd ((h.selectable_iff hopen (h.open_of hd hopen)).mp hselectable)
      kind hkind with ⟨s, hs, hterminal, hpurged, hdocuments⟩
    refine ⟨s, ?_, hterminal, hpurged, ?_⟩
    · rw [(h.same d).ownerId, Store.submission?, h.submissions]
      exact hs
    · rw [Store.documentsOf, h.documents]
      exact hdocuments
  · intro d' hd' hselectable hkyc
    rcases h.exists_of_mem hd' with ⟨d, hd, rfl⟩
    have hopen := hselectable.1
    rw [(h.same d).ownerType] at hkyc
    have hold := hlinked.removable d hd
      ((h.selectable_iff hopen (h.open_of hd hopen)).mp hselectable) hkyc
    intro s' hs' hsib u hu
    rcases h.exists_of_mem hs' with ⟨s, hs, rfl⟩
    have hsib := h.sibling_iff.mp hsib
    rw [(h.links s hs (hkeep d hd hopen s hs hsib)).2] at hu
    rcases Option.filter_eq_some_iff.mp hu with ⟨hu, hkept⟩
    have hkept : u ∉ U := by simpa using hkept
    rcases hold s hs hsib u hu with ⟨hupload, hholders⟩
    refine ⟨h.uploads u hkept hupload, ?_⟩
    intro f hf hfu
    rcases (h.files f).mp hf with ⟨hf, hfkept⟩
    rcases hholders f hf hfu with ⟨hfree, t, ht, htsib, hlink⟩
    refine ⟨h.unreferenced_iff.mpr hfree, g t, h.mem ht, h.sibling_iff.mpr htsib, ?_⟩
    rw [(h.links t ht (hkeep d hd hopen t ht htsib)).1]
    exact Option.filter_eq_some_iff.mpr ⟨hlink, by simpa using hfkept⟩
  · intro d' hd' e' he' hne hsib hkind hdopen heopen
    rcases h.exists_of_mem hd' with ⟨d, hd, rfl⟩
    rcases h.exists_of_mem he' with ⟨e, he, rfl⟩
    rw [(h.same d).id, (h.same e).id] at hne
    rw [(h.same d).ownerType] at hkind
    have hsib := h.sibling_iff.mp hsib
    rcases hlinked.alone d hd e he hne hsib hkind (h.open_of hd hdopen) (h.open_of he heopen) with
      ⟨hnone, u, hu, hunheld, hsame⟩
    have hS := h.not_taken hd hdopen
    -- the upload is no removed one: its receipts are siblings, and no file holds it
    have hkept : u ∉ U := by
      intro hU
      rcases h.held u hU with ⟨t, ht, hSt, htu⟩ | ⟨f, hf, -, hfu⟩
      · exact hS (hclosed t ht hSt d hd (hsame t ht htu) (h.open_of hd hdopen))
      · exact hunheld f hf hfu
    refine ⟨?_, u, ?_, ?_, ?_⟩
    · rw [(h.links d hd hS).1, hnone]
      rfl
    · rw [(h.links d hd hS).2]
      exact Option.filter_eq_some_iff.mpr ⟨hu, by simpa using hkept⟩
    · intro f hf
      exact hunheld f ((h.files f).mp hf).1
    · intro t' ht' htu
      rcases h.exists_of_mem ht' with ⟨t, ht, rfl⟩
      exact h.sibling_iff.mpr (hsame t ht (h.uploadLinks t u htu))

end Moves

/-! ## The provider call -/

/-- The receipt `x` is rewritten to another open state. -/
theorem moves_rewrite {w called : Store} (state : DeletionState) (hids : (w.deletions.map (·.id)).Nodup)
    {x : StoredObjectDeletion} (hx : x ∈ w.deletions) (hpending : x.state = .pending)
    (hcalled : ∃ objects, called = { w with objects := objects }) (code : Option String) :
    Moves (fun _ => False) [] [] (fun d => if d.id = x.id then d.attempt code state else d) w
      (called.rewriteDeletion x.id (.attempt code state)) := by
  rcases hcalled with ⟨objects, rfl⟩
  refine
    { submissions := rfl
      documents := rfl
      attachments := rfl
      deletions := rfl
      files := fun f => by simp [Store.rewriteDeletion]
      uploads := fun u _ hu => hu
      free := fun _ hnil => nomatch hnil
      held := fun _ hnil => nomatch hnil
      same := fun d => by split <;> exact ⟨rfl, rfl, rfl, rfl, rfl⟩
      done := fun _ _ hfalse => hfalse.elim
      links := ?_
      uploadLinks := fun d u hu => by split at hu <;> exact hu
      forward := ?_ }
  · intro d _ _
    rw [filter_notMem_nil, filter_notMem_nil]
    split <;> exact ⟨rfl, rfl⟩
  · intro d hd
    by_cases hid : d.id = x.id
    · have hsame : d = x := eq_of_key_eq hids hd hx hid
      subst hsame
      exact ⟨fun _ => hpending, fun hdone => by rw [hpending] at hdone; cases hdone⟩
    · simp only [if_neg hid]
      exact ⟨fun h => h, fun h => h⟩

/-- What the provider call of a selected receipt comes to. -/
theorem deleteStoredObject_selected {w : Store} (hids : (w.deletions.map (·.id)).Nodup)
    {x : StoredObjectDeletion} (hx : x ∈ w.deletions) (hselectable : w.Selectable x)
    (outcome : StorageOutcome) :
    (x.state = .providerDeleted ∧ deleteStoredObject w x.id outcome.answer = .ok (w, none))
    ∨ (x.state = .pending ∧ x.ownerType = .retiredDriverAgreement ∧ ¬ w.Unreferenced x.ownerId
      ∧ ∃ e, deleteStoredObject w x.id outcome.answer = .error e)
    ∨ (x.state = .pending ∧ w.MayDelete x ∧ ∃ called objects,
      called = { w with objects := objects }
        ∧ deleteStoredObject w x.id outcome.answer = .ok (match outcome.errorCode with
          | none => (called.rewriteDeletion x.id (.attempt none .providerDeleted), none)
          | some code => (called.rewriteDeletion x.id (.attempt (some code) .pending),
              some storageUnavailable))) := by
  have hlookup : w.deletion? x.id = some x := lookup_eq_some hids hx rfl
  unfold deleteStoredObject
  simp only [hlookup]
  cases hstate : x.state with
  | completed => exact absurd hstate hselectable.1
  | providerDeleted => exact .inl ⟨rfl, by rw [if_pos (.inl rfl)]; rfl⟩
  | pending =>
      rw [if_neg (by simp)]
      by_cases hmay : w.MayDelete x
      · -- the guard of the owner passes: the filter of the pass is that of a submission
        have hguard : requireDeletionAuthority w x = .ok ⟨⟩ := by
          unfold requireDeletionAuthority
          cases hkind : x.ownerType.kycKind with
          | some kind =>
              have hpurged := hselectable.2
              rw [hkind] at hpurged
              exact require_of (by simpa using hpurged)
          | none =>
              by_cases hretired : x.ownerType = .retiredDriverAgreement
              · simp only [if_pos hretired]
                exact require_of (Files.unreferenced_iff.mpr (hmay hretired))
              · simp only [if_neg hretired]
                rfl
        refine .inr (.inr ⟨rfl, hmay,
          if outcome.answer.removes then w.removeObject x.storageKey else w,
          (if outcome.answer.removes then w.removeObject x.storageKey else w).objects, ?_, ?_⟩)
        · split <;> rfl
        · rw [hguard]
          cases outcome <;> rfl
      · have hretired : x.ownerType = .retiredDriverAgreement ∧ ¬ w.Unreferenced x.ownerId := by
          unfold Store.MayDelete at hmay
          exact Classical.not_imp.mp hmay
        refine .inr (.inl ⟨rfl, hretired.1, hretired.2, ?_⟩)
        have hrefused : ∃ e, requireDeletionAuthority w x = .error e := by
          cases hguard : requireDeletionAuthority w x with
          | error e => exact ⟨e, rfl⟩
          | ok u => exact absurd (requireDeletionAuthority_ok hguard) hmay
        rcases hrefused with ⟨e, he⟩
        exact ⟨e, by rw [he]; rfl⟩

/-! ## The finalization -/

/-- The receipts that a finalization of `x` completes. -/
def StoredObjectDeletion.Settles (x d : StoredObjectDeletion) : Prop :=
  d.id = x.id ∨ (x.Joint ∧ x.SiblingOf d)

/-- The finalization of `x` completes `x`, with its siblings where they go together, and
leaves the state of the other receipts. -/
structure Completes (x : StoredObjectDeletion) (F U : List Id)
    (g : StoredObjectDeletion → StoredObjectDeletion) (w w' : Store) : Prop
    extends Moves x.Settles F U g w w' where
  tally : ∀ d, (g d).attempts = d.attempts ∧ (g d).lastErrorCode = d.lastErrorCode
  stays : ∀ d ∈ w.deletions, ¬ x.Settles d → (g d).state = d.state

section Finalize

variable {w : Store} {x : StoredObjectDeletion} {F U : List Id}
variable {g : StoredObjectDeletion → StoredObjectDeletion}

theorem completes_remove (hfree : ∀ y ∈ F, w.Unreferenced y)
    (hheld : ∀ u ∈ U, (∃ t ∈ w.deletions, x.Settles t ∧ t.uploadIntentId = some u)
      ∨ ∃ f ∈ w.files, f.id ∈ F ∧ f.uploadIntentId = some u)
    (hsame : ∀ d, SameReceipt d (g d))
    (htally : ∀ d, (g d).attempts = d.attempts ∧ (g d).lastErrorCode = d.lastErrorCode)
    (hupload : ∀ d u, (g d).uploadIntentId = some u → d.uploadIntentId = some u)
    (hdone : ∀ d ∈ w.deletions, x.Settles d → (g d).state = .completed)
    (hkept : ∀ d ∈ w.deletions, ¬ x.Settles d → g d = d.unlink F U) :
    Completes x F U g w (w.remove F U g) := by
  refine
    { submissions := rfl
      documents := rfl
      attachments := rfl
      deletions := rfl
      files := fun f => by simp [Store.remove]
      uploads := ?_
      free := hfree
      held := hheld
      same := hsame
      done := hdone
      links := fun d hd hS => by rw [hkept d hd hS]; exact ⟨rfl, rfl⟩
      uploadLinks := hupload
      forward := ?_
      tally := htally
      stays := fun d hd hS => by rw [hkept d hd hS]; rfl }
  · intro u hu hsome
    rcases Option.isSome_iff_exists.mp hsome with ⟨row, hrow⟩
    rcases mem_of_lookup hrow with ⟨hmem, hid⟩
    have hkept : row ∈ (w.remove F U g).uploads :=
      List.mem_filter.mpr ⟨hmem, by simpa [hid] using hu⟩
    by_contra hnone
    exact lookup_eq_none.mp (Option.not_isSome_iff_eq_none.mp hnone) row hkept hid
  · intro d hd
    by_cases hS : x.Settles d
    · rw [hdone d hd hS]
      exact ⟨fun h => absurd h (by simp), fun _ => rfl⟩
    · rw [hkept d hd hS]
      exact ⟨fun h => h, fun h => h⟩

/-- A receipt that is completed alone, with the rows `F` and `U` gone before. -/
theorem completes_alone (hjoint : ¬ x.Joint) (hfree : ∀ y ∈ F, w.Unreferenced y)
    (hheld : ∀ u ∈ U, ∃ f ∈ w.files, f.id ∈ F ∧ f.uploadIntentId = some u) :
    Completes x F U (fun d => if d.id = x.id then { d.unlink F U with state := .completed }
        else d.unlink F U) w
      ((w.remove F U (·.unlink F U)).rewriteDeletion x.id
        (fun d => { d with state := .completed })) := by
  have hsettles : ∀ d ∈ w.deletions, x.Settles d → d.id = x.id := by
    rintro d hd (hid | ⟨hjoint', -⟩)
    · exact hid
    · exact absurd hjoint' hjoint
  have hstore : (w.remove F U (·.unlink F U)).rewriteDeletion x.id
        (fun d => { d with state := .completed })
      = w.remove F U (fun d => if d.id = x.id then { d.unlink F U with state := .completed }
        else d.unlink F U) := by
    simp only [Store.rewriteDeletion, Store.remove, List.map_map]
    rfl
  rw [hstore]
  refine completes_remove hfree (fun u hu => .inr (hheld u hu)) ?_ ?_ ?_ ?_ ?_
  · intro d
    split <;> exact ⟨rfl, rfl, rfl, rfl, rfl⟩
  · intro d
    split <;> exact ⟨rfl, rfl⟩
  · intro d u hu
    split at hu <;> exact (Option.filter_eq_some_iff.mp hu).1
  · intro d hd hS
    rw [if_pos (hsettles d hd hS)]
  · intro d _ hS
    rw [if_neg fun hid => hS (.inl hid)]

/-- The rows of a submission's files and uploads go when they can be removed. -/
theorem deleteUploads_exists (uploadIds : List Id)
    (hunheld : ∀ f ∈ w.files, ∀ u ∈ uploadIds, f.uploadIntentId ≠ some u)
    (hstored : ∀ u ∈ uploadIds, (w.upload? u).isSome = true) :
    w.deleteUploads uploadIds = .ok (w.remove [] uploadIds (·.unlink [] uploadIds)) := by
  have hok : ∃ w', w.deleteUploads uploadIds = .ok w' := by
    unfold Store.deleteUploads
    rw [require_of hunheld, require_of hstored]
    exact ⟨_, rfl⟩
  rcases hok with ⟨w', hw'⟩
  rw [hw', (deleteUploads_ok hw').2]

theorem finalizeKycOwner_completes {kind : KycKind}
    (hids : (w.deletions.map (·.id)).Nodup) (hx : x ∈ w.deletions)
    (hkind : x.ownerType.kycKind = some kind) (hsettled : ¬ w.Awaits x)
    (hretired : ∃ s, w.submission? kind x.ownerId = some s ∧ s.status ∈ terminalKycStatuses
      ∧ s.purgedAt.isSome = true ∧ w.documentsOf kind s.id = [])
    (hremovable : w.Removable x) :
    ∃ F U g w', finalizeKycOwner w kind x = .ok (w', true) ∧ Completes x F U g w w' := by
  rcases hretired with ⟨s, hs, hterminal, hpurged, hdocuments⟩
  have hsibling : ∀ d, d ∈ w.siblings x ↔ d ∈ w.deletions ∧ x.SiblingOf d := by
    intro d
    simp [Store.siblings]
  rcases foldl_deleteSiblingFile w (w.siblings x) [] (by simp) with ⟨F, hfold, -, hfree, hall⟩
  rw [deleteFiles_nil] at hfold
  have hjoint : x.Joint := .inl (by rw [hkind]; rfl)
  have hsettles : ∀ d ∈ w.deletions, x.Settles d ↔ x.SiblingOf d := by
    intro d hd
    constructor
    · rintro (hid | ⟨-, hsib⟩)
      · rw [eq_of_key_eq hids hd hx hid]
        exact .refl x
      · exact hsib
    · exact fun hsib => .inr ⟨hjoint, hsib⟩
  set uploadIds := (w.siblings x).filterMap (·.uploadIntentId) with huploadIds
  have hlinkedBy : ∀ u ∈ uploadIds, ∃ t ∈ w.deletions, x.SiblingOf t ∧ t.uploadIntentId = some u := by
    intro u hu
    rcases List.mem_filterMap.mp hu with ⟨t, ht, htu⟩
    exact ⟨t, ((hsibling t).mp ht).1, ((hsibling t).mp ht).2, htu⟩
  have hdelete := deleteUploads_exists (w := (w.deleteFiles F).unlinkSiblings x) uploadIds ?_ ?_
  · refine ⟨F, uploadIds, x.close F uploadIds, w.remove F uploadIds (x.close F uploadIds), ?_, ?_⟩
    · unfold finalizeKycOwner
      rw [if_neg ?_]
      · simp only [hs]
        rw [if_neg (not_not.mpr ⟨hterminal, hpurged⟩), if_neg (not_not.mpr hdocuments), hfold,
          ← huploadIds, hdelete, ← remove_uploads_siblings]
        rfl
      · rintro ⟨t, ht, hpending⟩
        exact hsettled ⟨t, ((hsibling t).mp ht).1, ((hsibling t).mp ht).2, hpending⟩
    · refine completes_remove (fun y hy => (hfree y hy).1) ?_ ?_ ?_ ?_ ?_ ?_
      · intro u hu
        rcases hlinkedBy u hu with ⟨t, ht, hsib, htu⟩
        exact .inl ⟨t, ht, .inr ⟨hjoint, hsib⟩, htu⟩
      · intro d
        unfold StoredObjectDeletion.close
        split <;> exact ⟨rfl, rfl, rfl, rfl, rfl⟩
      · intro d
        unfold StoredObjectDeletion.close
        split <;> exact ⟨rfl, rfl⟩
      · intro d u hu
        unfold StoredObjectDeletion.close at hu
        split at hu
        · cases hu
        · exact (Option.filter_eq_some_iff.mp hu).1
      · intro d hd hS
        simp [StoredObjectDeletion.close, (hsettles d hd).mp hS]
      · intro d hd hS
        have hnot : ¬ x.SiblingOf d := fun hsib => hS ((hsettles d hd).mpr hsib)
        simp [StoredObjectDeletion.close, hnot]
  · -- a file that holds one of the uploads is a sibling's, and unreferenced, so it is gone
    intro f hf u hu hfu
    rcases hlinkedBy u hu with ⟨t, ht, hsib, htu⟩
    have hfile : f ∈ w.files ∧ f.id ∉ F := by
      simpa [Store.unlinkSiblings, Store.deleteFiles, Store.remove] using hf
    rcases (hremovable t ht hsib u htu).2 f hfile.1 hfu with ⟨hunreferenced, r, hr, hrsib, hlink⟩
    exact hfile.2 (hall r ((hsibling r).mpr ⟨hr, hrsib⟩) f.id hlink hunreferenced
      ⟨f, hfile.1, rfl⟩)
  · intro u hu
    rcases hlinkedBy u hu with ⟨t, ht, hsib, htu⟩
    have hstored := (hremovable t ht hsib u htu).1
    simpa [Store.upload?, Store.unlinkSiblings, Store.deleteFiles, Store.remove] using hstored

/-- The receipts of an expired upload are completed together. -/
theorem completes_expired (hids : (w.deletions.map (·.id)).Nodup) (hx : x ∈ w.deletions)
    (hjoint : x.Joint) (uploadId : Id) :
    Completes x [] [] (fun d => if x.SiblingOf d then { d with state := .completed } else d) w
      (({ w with uploads := w.uploads.map (fun u =>
        if u.id = uploadId then { u with status := .expired } else u) } : Store).completeSiblings
          x) := by
  refine
    { submissions := rfl
      documents := rfl
      attachments := rfl
      deletions := rfl
      files := fun f => by simp [Store.completeSiblings]
      uploads := ?_
      free := by simp
      held := by simp
      same := fun d => by split <;> exact ⟨rfl, rfl, rfl, rfl, rfl⟩
      done := ?_
      links := ?_
      uploadLinks := fun d u hu => by split at hu <;> exact hu
      forward := ?_
      tally := fun d => by split <;> exact ⟨rfl, rfl⟩
      stays := fun d _ hS => by rw [if_neg fun hsib => hS (.inr ⟨hjoint, hsib⟩)] }
  · intro u _ hsome
    rcases Option.isSome_iff_exists.mp hsome with ⟨row, hrow⟩
    rcases mem_of_lookup hrow with ⟨hmem, hid⟩
    -- an expired upload keeps its row
    by_contra hnone
    refine lookup_eq_none.mp (Option.not_isSome_iff_eq_none.mp hnone) _
      (List.mem_map_of_mem hmem) ?_
    split <;> exact hid
  · intro d hd hS
    have hsib : x.SiblingOf d := by
      rcases hS with hid | ⟨-, hsib⟩
      · rw [eq_of_key_eq hids hd hx hid]
        exact .refl x
      · exact hsib
    rw [if_pos hsib]
  · intro d _ _
    rw [filter_notMem_nil, filter_notMem_nil]
    split <;> exact ⟨rfl, rfl⟩
  · intro d _
    split
    · exact ⟨fun h => absurd h (by simp), fun _ => rfl⟩
    · exact ⟨fun h => h, fun h => h⟩

/-- An unreferenced file's row goes, with its upload when nothing else holds that. -/
theorem deleteFile_removes (file : StoredFile) :
    ∃ U, (w.deleteFile file.id).deleteUnusedUpload file.uploadIntentId
        = .ok (w.remove [file.id] U (·.unlink [file.id] U))
      ∧ ∀ u ∈ U, file.uploadIntentId = some u := by
  have hdelete : w.deleteFile file.id = w.remove [file.id] [] (·.unlink [file.id] []) := by
    rw [← Store.deleteFiles, ← deleteFile_deleteFiles, deleteFiles_nil]
  rw [hdelete]
  cases hupload : file.uploadIntentId with
  | none => exact ⟨[], rfl, by simp⟩
  | some u =>
      set v := w.remove [file.id] [] (·.unlink [file.id] []) with hv
      by_cases hkept : v.files.any (·.uploadIntentId = some u) = true ∨ (v.upload? u).isNone = true
      · exact ⟨[], by simp only [Store.deleteUnusedUpload]; rw [if_pos hkept]; rfl, by simp⟩
      · rcases not_or.mp hkept with ⟨hunheld, hstored⟩
        refine ⟨[u], ?_, by simp⟩
        simp only [Store.deleteUnusedUpload]
        rw [if_neg hkept, deleteUploads_exists]
        · simp only [hv, Store.remove, List.map_map]
          congr 2
          · simp
          · simp
          · exact List.map_congr_left fun d _ => unlink_unlink d [file.id] [u]
        · intro f hf u' hu' hfu
          rw [List.mem_singleton.mp hu'] at hfu
          exact hunheld (List.any_eq_true.mpr ⟨f, hf, by simpa using hfu⟩)
        · intro u' hu'
          rw [List.mem_singleton.mp hu']
          cases hrow : v.upload? u with
          | none => exact absurd (by rw [hrow]; rfl) hstored
          | some row => rfl

/-- What the finalization of a deleted receipt comes to. -/
theorem finalize_cases (hlinked : Linked w) (hx : x ∈ w.deletions)
    (hselectable : w.Selectable x) (hdeleted : x.state = .providerDeleted) :
    (x.Joint ∧ w.Awaits x ∧ finalizeStoredObjectDeletion w x.id = .ok (w, false))
    ∨ (x.ownerType.kycKind = none ∧ w.StillReferenced x
      ∧ finalizeStoredObjectDeletion w x.id = .ok (w, false))
    ∨ ((x.Joint → ¬ w.Awaits x) ∧ ¬ (x.ownerType.kycKind = none ∧ w.StillReferenced x)
      ∧ ∃ F U g w',
        finalizeStoredObjectDeletion w x.id = .ok (w', true) ∧ Completes x F U g w w') := by
  have hlookup : w.deletion? x.id = some x := lookup_eq_some hlinked.ids hx rfl
  have hsibling : ∀ d, d ∈ w.siblings x ↔ d ∈ w.deletions ∧ x.SiblingOf d := by
    intro d
    simp [Store.siblings]
  have hawaits : (∃ s ∈ w.siblings x, s.state = .pending) ↔ w.Awaits x := by
    constructor
    · rintro ⟨s, hs, hpending⟩
      exact ⟨s, ((hsibling s).mp hs).1, ((hsibling s).mp hs).2, hpending⟩
    · rintro ⟨s, hs, hsib, hpending⟩
      exact ⟨s, (hsibling s).mpr ⟨hs, hsib⟩, hpending⟩
  unfold finalizeStoredObjectDeletion
  simp only [hlookup]
  -- from here on the cases follow the branches of the finalization
  rw [if_neg hselectable.1, if_neg (not_not.mpr hdeleted)]
  cases hkind : x.ownerType.kycKind with
  | some kind =>
      have hjoint : x.Joint := .inl (by rw [hkind]; rfl)
      by_cases hwaits : w.Awaits x
      · refine .inl ⟨hjoint, hwaits, ?_⟩
        simp only [finalizeKycOwner]
        rw [if_pos (hawaits.mpr hwaits)]
        rfl
      · exact .inr (.inr ⟨fun _ => hwaits, by simp, finalizeKycOwner_completes hlinked.ids hx hkind hwaits
          (hlinked.retired x hx hselectable kind hkind)
          (hlinked.removable x hx hselectable (by rw [hkind]; rfl))⟩)
  | none =>
      cases hlink : x.storedFileId with
      | some fileId =>
          have hjoint : ¬ x.Joint := by
            rintro (hkyc | ⟨hnone, -⟩)
            · rw [hkind] at hkyc
              cases hkyc
            · rw [hlink] at hnone
              cases hnone
          cases hfile : w.file? fileId with
          | none =>
              simp only [hfile]
              -- the file is already gone, so only the receipt is completed
              have hstore := completes_alone (w := w) (x := x) (F := []) (U := []) hjoint (by simp)
                (by simp)
              have hsame : w.remove [] [] (·.unlink [] []) = w := deleteFiles_nil w
              rw [hsame] at hstore
              refine .inr (.inr ⟨fun h => absurd h hjoint, ?_, _, _, _, _, rfl, hstore⟩)
              rintro ⟨-, y, hy, ⟨f, hf, hid⟩, -⟩
              rw [hlink] at hy
              cases hy
              exact lookup_eq_none.mp hfile f hf hid
          | some file =>
              rcases mem_of_lookup hfile with ⟨hmem, rfl⟩
              simp only [hfile]
              by_cases hreferenced : w.fileIsReferenced file.id none none = true
              · rw [if_pos hreferenced]
                -- another row still refers to the file
                refine .inr (.inl ⟨trivial, ⟨file.id, hlink, ⟨file, hmem, rfl⟩, ?_⟩, rfl⟩)
                intro hfree
                rw [Files.unreferenced_iff.mpr hfree] at hreferenced
                cases hreferenced
              · rw [if_neg hreferenced]
                have hfree : w.Unreferenced file.id :=
                  Files.unreferenced_iff.mp (Bool.eq_false_iff.mpr hreferenced)
                rcases deleteFile_removes (w := w) file with ⟨U, hremove, hU⟩
                rw [hremove]
                refine .inr (.inr ⟨fun h => absurd h hjoint, ?_, [file.id], U, _, _, rfl,
                  completes_alone hjoint ?_ ?_⟩)
                · rintro ⟨-, y, hy, -, hreferenced'⟩
                  rw [hlink] at hy
                  cases hy
                  exact hreferenced' hfree
                · intro y hy
                  rw [List.mem_singleton.mp hy]
                  exact hfree
                · intro u hu
                  exact ⟨file, hmem, List.mem_singleton_self _, hU u hu⟩
      | none =>
          have hunlinked : ¬ ((none : Option KycKind) = none ∧ w.StillReferenced x) := by
            rintro ⟨-, y, hy, -⟩
            rw [hlink] at hy
            cases hy
          cases hupload : x.uploadIntentId with
          | none =>
              have hjoint : ¬ x.Joint := by
                rintro (hkyc | ⟨-, hsome⟩)
                · rw [hkind] at hkyc
                  cases hkyc
                · rw [hupload] at hsome
                  cases hsome
              have hstore := completes_alone (w := w) (x := x) (F := []) (U := []) hjoint (by simp)
                (by simp)
              have hsame : w.remove [] [] (·.unlink [] []) = w := deleteFiles_nil w
              rw [hsame] at hstore
              exact .inr (.inr ⟨fun h => absurd h hjoint, hunlinked, _, _, _, _, rfl, hstore⟩)
          | some uploadId =>
              -- the receipt of an expired upload waits for its siblings
              have hjoint : x.Joint := .inr ⟨hlink, by rw [hupload]; rfl⟩
              by_cases hwaits : w.Awaits x
              · refine .inl ⟨hjoint, hwaits, ?_⟩
                dsimp only
                rw [if_pos (hawaits.mpr hwaits)]
                rfl
              · dsimp only
                rw [if_neg (fun h => hwaits (hawaits.mp h))]
                exact .inr (.inr ⟨fun _ => hwaits, hunlinked, [], [], _, _, rfl,
                  completes_expired hlinked.ids hx hjoint uploadId⟩)

end Finalize

end Files
end Mobility
