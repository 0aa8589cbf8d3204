import Mobility.Files.QueueRounds
import Mobility.Files.Safety

/-!
# QueueLinks — the queue of every run is linked

`Owned` follows the receipts and their owners through all transactions; `Linked` is read off
it.  The identifiers of new files are new to the receipts too, which outlive their files.
-/

namespace Mobility
namespace Files

open Lib

section

variable [DeletionHashing]

/-! ## Receipts and owners in every run -/

structure Owned (w : Store) : Prop where
  payloads : RetiredPayloads w.submissions w.documents
  /-- a completed receipt holds no upload, except one of an expired upload -/
  closed : ∀ d ∈ w.deletions, d.ownerType ≠ .fileUploadIntent → d.state = .completed →
    d.uploadIntentId = none
  upload : ∀ d ∈ w.deletions, d.ownerType = .fileUploadIntent →
    ∀ u, d.uploadIntentId = some u → u = d.ownerId
  held : ∀ d ∈ w.deletions, d.ownerType = .fileUploadIntent → d.state ≠ .completed →
    d.uploadIntentId = some d.ownerId
  retires : ∀ d ∈ w.deletions, d.ownerType = .retiredDriverAgreement → d.state ≠ .completed →
    ∀ f ∈ w.files, f.id = d.ownerId → d.requestFingerprint = DeletionHashing.sha256 f.retirement
  once : ∀ d ∈ w.deletions, ∀ e ∈ w.deletions, d.ownerType = .retiredDriverAgreement →
    e.ownerType = .retiredDriverAgreement → d.state ≠ .completed → e.state ≠ .completed →
    d.ownerId = e.ownerId → d.id = e.id

/-- The identifier of a new file is no owner's of a receipt. -/
def FreshFiles (w : Store) (a : Action) : Prop :=
  ∀ w', step w a = .ok w' → ∀ f' ∈ w'.files,
    (∃ f ∈ w.files, f.id = f'.id) ∨ ∀ d ∈ w.deletions, d.ownerId ≠ f'.id

variable {w w' : Store} {g : StoredObjectDeletion → StoredObjectDeletion}

theorem Owned.init : Owned {} where
  payloads := ⟨List.nodup_nil, fun _ hs => absurd hs List.not_mem_nil,
    fun _ hs => absurd hs List.not_mem_nil⟩
  closed := fun _ hd => absurd hd List.not_mem_nil
  upload := fun _ hd => absurd hd List.not_mem_nil
  held := fun _ hd => absurd hd List.not_mem_nil
  retires := fun _ hd => absurd hd List.not_mem_nil
  once := fun _ hd => absurd hd List.not_mem_nil

/-- The rule for transactions that write no receipt. -/
theorem Owned.moved (howned : Owned w) (hpayloads : RetiredPayloads w'.submissions w'.documents)
    (hfiles : ∀ f' ∈ w'.files, (∃ f ∈ w.files, f.id = f'.id ∧ f.retirement = f'.retirement)
      ∨ ∀ d ∈ w.deletions, d.ownerId ≠ f'.id)
    (hdeletions : w'.deletions = w.deletions.map g) (hsame : ∀ d, SameReceipt d (g d))
    (hopen : ∀ d ∈ w.deletions, (g d).state ≠ .completed → d.state ≠ .completed)
    (hlink : ∀ d ∈ w.deletions, ∀ u, (g d).uploadIntentId = some u → d.uploadIntentId = some u)
    (hclosed : ∀ d ∈ w.deletions, d.ownerType ≠ .fileUploadIntent → (g d).state = .completed →
      (g d).uploadIntentId = none)
    (hheld : ∀ d ∈ w.deletions, d.ownerType = .fileUploadIntent → (g d).state ≠ .completed →
      (g d).uploadIntentId = d.uploadIntentId) : Owned w' := by
  have hback : ∀ d' ∈ w'.deletions, ∃ d ∈ w.deletions, g d = d' := by
    intro d' hd'
    rw [hdeletions] at hd'
    exact List.mem_map.mp hd'
  refine ⟨hpayloads, ?_, ?_, ?_, ?_, ?_⟩
  · intro d' hd' howner hcompleted
    rcases hback d' hd' with ⟨d, hd, rfl⟩
    exact hclosed d hd ((hsame d).ownerType ▸ howner) hcompleted
  · intro d' hd' howner u hu
    rcases hback d' hd' with ⟨d, hd, rfl⟩
    exact (howned.upload d hd ((hsame d).ownerType ▸ howner) u (hlink d hd u hu)).trans
      (hsame d).ownerId.symm
  · intro d' hd' howner hd'open
    rcases hback d' hd' with ⟨d, hd, rfl⟩
    have howner : d.ownerType = .fileUploadIntent := (hsame d).ownerType ▸ howner
    calc
      (g d).uploadIntentId = d.uploadIntentId := hheld d hd howner hd'open
      _ = some d.ownerId := howned.held d hd howner (hopen d hd hd'open)
      _ = some (g d).ownerId := congrArg some (hsame d).ownerId.symm
  · intro d' hd' howner hd'open f' hf' hid
    rcases hback d' hd' with ⟨d, hd, rfl⟩
    rcases hfiles f' hf' with ⟨f, hf, hfid, hretirement⟩ | hfresh
    · have hrequest := howned.retires d hd ((hsame d).ownerType ▸ howner) (hopen d hd hd'open) f hf
        (hfid.trans (hid.trans (hsame d).ownerId))
      calc
        (g d).requestFingerprint = d.requestFingerprint := (hsame d).requestFingerprint
        _ = DeletionHashing.sha256 f.retirement := hrequest
        _ = DeletionHashing.sha256 f'.retirement := congrArg _ hretirement
    · exact absurd ((hsame d).ownerId.symm.trans hid.symm) (hfresh d hd)
  · intro d' hd' e' he' hdowner heowner hdopen heopen hsameOwner
    rcases hback d' hd' with ⟨d, hd, rfl⟩
    rcases hback e' he' with ⟨e, he, rfl⟩
    have hid := howned.once d hd e he ((hsame d).ownerType ▸ hdowner)
      ((hsame e).ownerType ▸ heowner) (hopen d hd hdopen) (hopen e he heopen)
      ((hsame d).ownerId.symm.trans (hsameOwner.trans (hsame e).ownerId))
    exact (hsame d).id.trans (hid.trans (hsame e).id.symm)

/-- The rule where the receipts are as they were. -/
theorem Owned.kept (howned : Owned w) (hpayloads : RetiredPayloads w'.submissions w'.documents)
    (hfiles : ∀ f' ∈ w'.files, (∃ f ∈ w.files, f.id = f'.id ∧ f.retirement = f'.retirement)
      ∨ ∀ d ∈ w.deletions, d.ownerId ≠ f'.id)
    (hdeletions : w'.deletions = w.deletions) : Owned w' := by
  refine howned.moved (g := id) hpayloads hfiles ?_ (fun d => ⟨rfl, rfl, rfl, rfl, rfl⟩)
    (fun _ _ h => h) (fun _ _ _ h => h) howned.closed (fun _ _ _ _ => rfl)
  rw [hdeletions, List.map_id]

omit [DeletionHashing] in
/-- Files that were stored before. -/
theorem sameFiles (h : ∀ f ∈ w'.files, f ∈ w.files) :
    ∀ f' ∈ w'.files, (∃ f ∈ w.files, f.id = f'.id ∧ f.retirement = f'.retirement)
      ∨ ∀ d ∈ w.deletions, d.ownerId ≠ f'.id :=
  fun f' hf' => .inl ⟨f', h f' hf', rfl, rfl⟩

omit [DeletionHashing] in
/-- One more file, under a new identifier. -/
theorem addedFile {file : StoredFile} (hfiles : w'.files = w.files ++ [file])
    (hfreshId : ∀ f ∈ w.files, f.id ≠ file.id)
    (hfresh : ∀ f' ∈ w'.files,
      (∃ f ∈ w.files, f.id = f'.id) ∨ ∀ d ∈ w.deletions, d.ownerId ≠ f'.id) :
    ∀ f' ∈ w'.files, (∃ f ∈ w.files, f.id = f'.id ∧ f.retirement = f'.retirement)
      ∨ ∀ d ∈ w.deletions, d.ownerId ≠ f'.id := by
  intro f' hf'
  rcases List.mem_append.mp (hfiles ▸ hf') with hold | hnew
  · exact .inl ⟨f', hold, rfl, rfl⟩
  · rcases hfresh f' hf' with ⟨f, hf, hid⟩ | hunowned
    · exact absurd (List.mem_singleton.mp hnew ▸ hid) (hfreshId f hf)
    · exact .inr hunowned

/-- New receipts: one of an expired upload holds it, one of a retired file is the first. -/
theorem Owned.receipts (hinv : Inv w) (howned : Owned w) {new : List StoredObjectDeletion}
    {submissions : List KycSubmission} {documents : List KycDocument}
    (hpayloads : RetiredPayloads submissions documents) (hpending : ∀ d ∈ new, d.state = .pending)
    (hgood : ∀ d ∈ new, NewReceipt w { w with documents := documents } d)
    (halone : ∀ d ∈ new, d.ownerType = .retiredDriverAgreement → new = [d]) :
    Owned { w with
      deletions := w.deletions ++ new, submissions := submissions, documents := documents } := by
  have hretired : ∀ d ∈ new, d.ownerType = .retiredDriverAgreement → ∃ f ∈ w.files,
      d.ownerId = f.id ∧ d.requestFingerprint = DeletionHashing.sha256 f.retirement
        ∧ ∀ e ∈ w.deletions, e.requestFingerprint ≠ d.requestFingerprint := by
    intro d hd howner
    cases hgood d hd with
    | file f hf names notUpload free first =>
        exact ⟨f, hf, names.retired howner, (first howner).1, (first howner).2⟩
    | upload u owner ownerId unlinked upload dead spent =>
        rw [owner] at howner
        cases howner
  -- an old open receipt of the same file would have been found
  have hfirst : ∀ d ∈ new, d.ownerType = .retiredDriverAgreement → ∀ e ∈ w.deletions,
      e.ownerType = .retiredDriverAgreement → e.state ≠ .completed → e.ownerId ≠ d.ownerId := by
    intro d hd howner e he heowner heopen hsame
    rcases hretired d hd howner with ⟨f, hf, hid, hrequest, hother⟩
    exact hother e he ((howned.retires e he heowner heopen f hf
      (hid.symm.trans hsame.symm)).trans hrequest.symm)
  have hopen : ∀ d ∈ new, d.state ≠ .completed := by
    intro d hd
    rw [hpending d hd]
    decide
  refine ⟨hpayloads, ?_, ?_, ?_, ?_, ?_⟩
  · intro d hd howner hcompleted
    rcases List.mem_append.mp hd with hold | hnew
    · exact howned.closed d hold howner hcompleted
    · exact absurd hcompleted (hopen d hnew)
  · intro d hd howner u hu
    rcases List.mem_append.mp hd with hold | hnew
    · exact howned.upload d hold howner u hu
    · cases hgood d hnew with
      | file f hf names notUpload free first => exact absurd howner notUpload
      | upload v owner ownerId unlinked upload dead spent =>
          have hsame : v = u := Option.some.inj (upload.symm.trans hu)
          exact hsame.symm.trans ownerId.symm
  · intro d hd howner hdopen
    rcases List.mem_append.mp hd with hold | hnew
    · exact howned.held d hold howner hdopen
    · cases hgood d hnew with
      | file f hf names notUpload free first => exact absurd howner notUpload
      | upload v owner ownerId unlinked upload dead spent =>
          exact upload.trans (congrArg some ownerId.symm)
  · intro d hd howner hdopen f hf hid
    rcases List.mem_append.mp hd with hold | hnew
    · exact howned.retires d hold howner hdopen f hf hid
    · cases hgood d hnew with
      | file f₀ hf₀ names notUpload free first =>
          have hsame : f₀ = f := hinv.file_eq hf₀ hf ((names.retired howner).symm.trans hid.symm)
          exact hsame ▸ (first howner).1
      | upload v owner ownerId unlinked upload dead spent =>
          rw [owner] at howner
          cases howner
  · intro d hd e he hdowner heowner hdopen heopen hsame
    rcases List.mem_append.mp hd with hdold | hdnew
    · rcases List.mem_append.mp he with heold | henew
      · exact howned.once d hdold e heold hdowner heowner hdopen heopen hsame
      · exact absurd hsame (hfirst e henew heowner d hdold hdowner hdopen)
    · rcases List.mem_append.mp he with heold | henew
      · exact absurd hsame.symm (hfirst d hdnew hdowner e heold heowner heopen)
      · have hone := halone d hdnew hdowner
        rw [hone] at henew
        rw [List.mem_singleton.mp henew]

theorem Owned.effect (hinv : Inv w) (howned : Owned w) (h : Effect w w')
    (hfresh : ∀ f' ∈ w'.files,
      (∃ f ∈ w.files, f.id = f'.id) ∨ ∀ d ∈ w.deletions, d.ownerId ≠ f'.id) : Owned w' := by
  cases h with
  | same => exact howned
  | tick now later => exact howned.kept howned.payloads (sameFiles (fun _ hf => hf)) rfl
  | put key => exact howned.kept howned.payloads (sameFiles (fun _ hf => hf)) rfl
  | upload intent key fresh unheld =>
      exact howned.kept howned.payloads (sameFiles (fun _ hf => hf)) rfl
  | confirm intent hintent file unused running fileUpload scope fileKey freshId freshKey =>
      exact howned.kept howned.payloads (addedFile rfl freshId hfresh) rfl
  | scan fileId verdict =>
      refine howned.kept howned.payloads ?_ rfl
      intro f' hf'
      rcases List.mem_map.mp hf' with ⟨f, hf, rfl⟩
      refine .inl ⟨f, hf, ?_, ?_⟩
      · split_ifs <;> rfl
      · -- the verdict of a scan is no part of a request
        split_ifs <;> rfl
  | artifact file attachment name noUpload fileKey stored freshId freshKey unheld holds unfenced =>
      exact howned.kept howned.payloads (addedFile rfl freshId hfresh) rfl
  | refer submissions documents attachments newDocuments newAttachments payloads =>
      exact howned.kept (payloads howned.payloads) (sameFiles (fun _ hf => hf)) rfl
  | receipts new submissions documents fewer ids pending good alone payloads =>
      exact howned.receipts hinv (payloads howned.payloads) pending good alone
  | provider intent hintent pending may removed f kept opened =>
      have hstate : ∀ d ∈ w.deletions, d.id = intent.id → d.state ≠ .completed := by
        intro d hd hid
        rw [eq_of_key_eq hinv.deletionIds hd hintent hid, pending]
        decide
      have hopened : ∀ d, (f d).state ≠ .completed := by
        intro d
        rcases opened d with hpending | hdeleted
        · rw [hpending]
          decide
        · rw [hdeleted]
          decide
      have hmoved : ∀ v : Store, v.submissions = w.submissions → v.documents = w.documents →
          v.files = w.files → v.deletions = w.deletions → Owned (v.rewriteDeletion intent.id f) := by
        intro v hsubmissions hdocuments hfiles hdeletions
        refine howned.moved
          (g := fun d => if d.id = intent.id then f d else d) ?_ ?_ ?_ ?_ ?_ ?_ ?_ ?_
        · exact hsubmissions.symm ▸ hdocuments.symm ▸ howned.payloads
        · exact sameFiles (fun g hg => hfiles ▸ hg)
        · exact congrArg _ hdeletions
        · intro d
          split_ifs
          · exact (kept d).1
          · exact ⟨rfl, rfl, rfl, rfl, rfl⟩
        · intro d hd hopen
          split_ifs at hopen with hid
          · exact hstate d hd hid
          · exact hopen
        · intro d hd u hu
          split_ifs at hu
          · exact (kept d).2.2 ▸ hu
          · exact hu
        · intro d hd howner hcompleted
          split_ifs at hcompleted ⊢
          · exact absurd hcompleted (hopened d)
          · exact howned.closed d hd howner hcompleted
        · intro d _ _ _
          split_ifs
          · exact (kept d).2.2
          · rfl
      cases removed with
      | false => exact hmoved w rfl rfl rfl rfl
      | true => exact hmoved (w.removeObject intent.storageKey) rfl rfl rfl rfl
  | died intent hintent pending may =>
      exact howned.kept howned.payloads (sameFiles (fun _ hf => hf)) rfl

/-! ## Finalizations -/

/-- An upload that a file holds is no expired one. -/
theorem held_kept (hinv : Inv w) (howned : Owned w) {U : List Id}
    (hheld : ∀ u ∈ U, ∃ f ∈ w.files, f.uploadIntentId = some u) {d : StoredObjectDeletion}
    (hd : d ∈ w.deletions) (howner : d.ownerType = .fileUploadIntent) (hopen : d.state ≠ .completed) :
    d.uploadIntentId.filter (· ∉ U) = d.uploadIntentId := by
  have hupload := howned.held d hd howner hopen
  have hnone : d.storedFileId = none := by
    cases hlink : d.storedFileId with
    | none => rfl
    | some x => exact absurd howner (hinv.linked d hd x hlink).2.1
  rcases (hinv.unlinked d hd hopen hnone).2 d.ownerId hupload with ⟨_, hspent⟩
  have hkept : d.ownerId ∉ U := by
    intro hU
    rcases hheld d.ownerId hU with ⟨f, hf, hfu⟩
    exact hspent.1 f hf hfu
  rw [hupload]
  exact Option.filter_eq_some_iff.mpr ⟨rfl, by simpa using hkept⟩

/-- A receipt that is none of an expired upload holds an upload only through its file. -/
theorem file_of_upload (hinv : Inv w) (howned : Owned w) {d : StoredObjectDeletion}
    (hd : d ∈ w.deletions) (howner : d.ownerType ≠ .fileUploadIntent) {u : Id}
    (hu : d.uploadIntentId = some u) :
    ∃ f ∈ w.files, d.storedFileId = some f.id ∧ f.uploadIntentId = some u := by
  have hopen : d.state ≠ .completed := by
    intro hcompleted
    rw [howned.closed d hd howner hcompleted] at hu
    cases hu
  cases hlink : d.storedFileId with
  | none => exact absurd ((hinv.unlinked d hd hopen hlink).2 u hu).1 howner
  | some x =>
      rcases hinv.linked d hd x hlink with ⟨_, _, f, hf, hid, hnames⟩
      exact ⟨f, hf, congrArg some hid.symm, hnames.upload.symm.trans hu⟩

omit [DeletionHashing] in
theorem notUpload_of_kyc {d : StoredObjectDeletion} (hkyc : d.ownerType.kycKind.isSome = true) :
    d.ownerType ≠ .fileUploadIntent := by
  intro howner
  rw [howner] at hkyc
  cases hkyc

/-- The rule for transactions that complete the receipts of `p`: one of an expired upload that
stays open keeps it, any other that completes lets its upload go. -/
theorem Owned.completes (howned : Owned w) (p : StoredObjectDeletion → Prop) [DecidablePred p]
    (hpayloads : RetiredPayloads w'.submissions w'.documents) (hfiles : ∀ f ∈ w'.files, f ∈ w.files)
    (hdeletions : w'.deletions = w.deletions.map g) (hsame : ∀ d, SameReceipt d (g d))
    (hstate : ∀ d, (g d).state = if p d then .completed else d.state)
    (hlink : ∀ d u, (g d).uploadIntentId = some u → d.uploadIntentId = some u)
    (hdropped : ∀ d ∈ w.deletions, d.ownerType ≠ .fileUploadIntent → p d →
      (g d).uploadIntentId = none)
    (hkept : ∀ d ∈ w.deletions, d.ownerType = .fileUploadIntent → d.state ≠ .completed → ¬ p d →
      (g d).uploadIntentId = d.uploadIntentId) : Owned w' := by
  have hleft : ∀ d, (g d).state ≠ .completed → ¬ p d ∧ d.state ≠ .completed := by
    intro d hopen
    rw [hstate] at hopen
    split_ifs at hopen with hp
    · exact absurd rfl hopen
    · exact ⟨hp, hopen⟩
  refine howned.moved hpayloads (sameFiles hfiles) hdeletions hsame
    (fun d _ hopen => (hleft d hopen).2) (fun d _ => hlink d) ?_ ?_
  · intro d hd howner hcompleted
    by_cases hp : p d
    · exact hdropped d hd howner hp
    · rw [hstate, if_neg hp] at hcompleted
      -- a completed receipt held no upload before
      refine Option.eq_none_iff_forall_ne_some.mpr ?_
      intro u hu
      have hbefore := hlink d u hu
      rw [howned.closed d hd howner hcompleted] at hbefore
      cases hbefore
  · intro d hd howner hopen
    exact hkept d hd howner (hleft d hopen).2 (hleft d hopen).1

theorem Owned.finalization (hinv : Inv w) (howned : Owned w) (h : Finalization w w') : Owned w' := by
  cases h with
  | same => exact howned
  | submission intent hintent kyc F gone free uploads =>
      have hheld : ∀ u ∈ (w.siblings intent).filterMap (·.uploadIntentId),
          ∃ f ∈ w.files, f.uploadIntentId = some u := by
        intro u hu
        rcases List.mem_filterMap.mp hu with ⟨d, hd, hdu⟩
        rcases List.mem_filter.mp hd with ⟨hd, hsib⟩
        have howner : d.ownerType = intent.ownerType := (of_decide_eq_true hsib : intent.SiblingOf d).1
        rcases file_of_upload hinv howned hd (howner ▸ notUpload_of_kyc kyc) hdu with
          ⟨f, hf, _, hfu⟩
        exact ⟨f, hf, hfu⟩
      refine howned.completes intent.SiblingOf
        (g := intent.close F ((w.siblings intent).filterMap (·.uploadIntentId)))
        howned.payloads (fun _ hf => (List.mem_filter.mp hf).1) rfl ?_ ?_ ?_ ?_ ?_
      all_goals unfold StoredObjectDeletion.close
      · intro d
        split_ifs <;> exact ⟨rfl, rfl, rfl, rfl, rfl⟩
      · intro d
        split_ifs <;> rfl
      · intro d u hu
        split_ifs at hu
        exact (Option.filter_eq_some_iff.mp hu).1
      · intro d hd howner hsib
        rw [if_pos hsib]
      · intro d hd howner hopen hsib
        rw [if_neg hsib]
        exact held_kept hinv howned hheld hd howner hopen
  | file intent hintent file hfile link U free uploads held =>
      have hheld : ∀ u ∈ U, ∃ f ∈ w.files, f.uploadIntentId = some u :=
        fun u hu => ⟨file, hfile, held u hu⟩
      refine howned.completes (·.id = intent.id)
        (g := fun d => if d.id = intent.id then { d.unlink [file.id] U with state := .completed }
          else d.unlink [file.id] U)
        howned.payloads (fun _ hf => (List.mem_filter.mp hf).1) ?_ ?_ ?_ ?_ ?_ ?_
      · simp only [Store.rewriteDeletion, Store.remove, List.map_map]
        rfl
      · intro d
        split_ifs <;> exact ⟨rfl, rfl, rfl, rfl, rfl⟩
      · intro d
        split_ifs <;> rfl
      · intro d u hu
        split_ifs at hu <;> exact (Option.filter_eq_some_iff.mp hu).1
      · intro d hd howner hid
        -- the completed receipt loses the upload that its file held
        rw [if_pos hid, eq_of_key_eq hinv.deletionIds hd hintent hid]
        rcases hinv.linked intent hintent file.id link with ⟨_, _, f, hf, hfid, hnames⟩
        refine Option.filter_eq_none_iff.mpr ?_
        intro u hu
        have hheldBy : f.uploadIntentId = some u := hnames.upload.symm.trans hu
        simpa using (uploads f hf u hheldBy).mp (hfid ▸ List.mem_singleton_self _)
      · intro d hd howner hopen hid
        rw [if_neg hid]
        exact held_kept hinv howned hheld hd howner hopen
  | upload intent hintent opened unlinked uploadId upload =>
      rcases (hinv.unlinked intent hintent opened unlinked).2 uploadId upload with ⟨howner, _⟩
      refine howned.completes intent.SiblingOf
        (g := fun d => if intent.SiblingOf d then { d with state := .completed } else d)
        howned.payloads (fun _ hf => hf) rfl ?_ ?_ ?_ ?_ ?_
      · intro d
        split_ifs <;> exact ⟨rfl, rfl, rfl, rfl, rfl⟩
      · intro d
        split_ifs <;> rfl
      · intro d u hu
        split_ifs at hu <;> exact hu
      · intro d hd hnotUpload hsib
        exact absurd (hsib.1.trans howner) hnotUpload
      · intro d _ _ _ hsib
        rw [if_neg hsib]
  | alone intent hintent unlinked noUpload =>
      refine howned.completes (·.id = intent.id)
        (g := fun d => if d.id = intent.id then { d with state := .completed } else d)
        howned.payloads (fun _ hf => hf) rfl ?_ ?_ ?_ ?_ ?_
      · intro d
        split_ifs <;> exact ⟨rfl, rfl, rfl, rfl, rfl⟩
      · intro d
        split_ifs <;> rfl
      · intro d u hu
        split_ifs at hu <;> exact hu
      · intro d hd _ hid
        rw [if_pos hid, eq_of_key_eq hinv.deletionIds hd hintent hid]
        exact noUpload
      · intro d _ _ _ hid
        rw [if_neg hid]

theorem owned_of_reachable (h : ReachableBy fileSystem FreshFiles w) : Owned w := by
  refine ReachableBy.invariant_of Inv (fun _ => reachable_inv) Owned Owned.init ?_ h
  intro w a w' hinv howned hfresh hstep
  rcases step_cases hinv hstep with hfinal | heffect
  · exact howned.finalization hinv hfinal
  · exact howned.effect hinv heffect (hfresh w' hstep)

/-! ## The queue -/

theorem linked_of_owned (hinv : Inv w) (howned : Owned w) : Linked w := by
  refine ⟨hinv.deletionIds, ?_, ?_, ?_⟩
  · intro d _ hselectable kind hkind
    have hpurged := hselectable.2
    rw [hkind, Option.all_some] at hpurged
    rcases (Option.any_eq_true _ _).mp hpurged with ⟨s, hs, hspurged⟩
    have hmem := (submission_found hs).1
    refine ⟨s, hs, howned.payloads.terminal s hmem hspurged, hspurged, ?_⟩
    refine List.filter_eq_nil_iff.mpr ?_
    intro document hdocument hof
    have hof := of_decide_eq_true hof
    exact howned.payloads.detached s hmem hspurged document hdocument
      ⟨hof.1.trans (submission_found hs).2.1.symm, hof.2⟩
  · intro d hd _ hkyc s hs hsib u hu
    have howner : s.ownerType ≠ .fileUploadIntent := hsib.1 ▸ notUpload_of_kyc hkyc
    rcases file_of_upload hinv howned hs howner hu with ⟨file, hfile, hlink, hfu⟩
    refine ⟨?_, ?_⟩
    · cases hinv.source file hfile with
      | upload scope row hrow confirmed upload key =>
          have hid : row.id = u := Option.some.inj (upload.symm.trans hfu)
          unfold Store.upload?
          rw [lookup_eq_some hinv.uploadIds hrow hid]
          rfl
      | report name upload key =>
          rw [upload] at hfu
          cases hfu
    · intro f hf hfu'
      -- an upload makes one file
      have hsame : f = file := hinv.onePerUpload f hf file hfile u hfu' hfu
      rw [hsame]
      refine ⟨hinv.freed s hs file.id hlink (.inl ?_), s, hs, hsib, hlink⟩
      intro hretired
      rw [← hsib.1, hretired] at hkyc
      cases hkyc
  · intro d hd e he hne hsib hkind hdopen heopen
    cases howner : d.ownerType with
    | driverKycSubmission | vehicleEvidenceSubmission =>
        rw [howner] at hkind
        cases hkind
    | retiredDriverAgreement =>
        exact absurd (howned.once d hd e he howner (hsib.1.trans howner) hdopen heopen hsib.2.symm) hne
    | fileUploadIntent =>
        have hupload := howned.held d hd howner hdopen
        have hnone : d.storedFileId = none := by
          cases hlink : d.storedFileId with
          | none => rfl
          | some x => exact absurd howner (hinv.linked d hd x hlink).2.1
        rcases (hinv.unlinked d hd hdopen hnone).2 d.ownerId hupload with ⟨_, hspent⟩
        refine ⟨hnone, d.ownerId, hupload, hspent.1, ?_⟩
        intro t ht htu
        by_cases htowner : t.ownerType = .fileUploadIntent
        · exact ⟨howner.trans htowner.symm, howned.upload t ht htowner d.ownerId htu⟩
        · rcases file_of_upload hinv howned ht htowner htu with ⟨f, hf, _, hfu⟩
          exact absurd hfu (hspent.1 f hf)

/-- Every run leaves a linked queue. -/
theorem linked_of_reachable (h : ReachableBy fileSystem FreshFiles w) : Linked w :=
  linked_of_owned (reachable_inv h.reachable) (owned_of_reachable h)

end

/-- `FreshFiles`, as a check of a run. -/
def freshFiles [DeletionHashing] (w : Store) (a : Action) : Bool :=
  (step w a).toOption.all (fun w' => w'.files.all (fun f' =>
    w.files.any (·.id = f'.id) || w.deletions.all (·.ownerId ≠ f'.id)))

theorem freshFiles_iff [DeletionHashing] {w : Store} {a : Action} (h : freshFiles w a = true) :
    FreshFiles w a := by
  intro w' hstep f' hf'
  unfold freshFiles at h
  rw [hstep] at h
  have hfile := List.all_eq_true.mp h f' hf'
  simpa using hfile

/-- The queue of a purge is linked. -/
theorem linked_of_reachable_purge :
    ∃ w, ReachableBy (@fileSystem sampleDeletionHashing) (@FreshFiles sampleDeletionHashing) w ∧ Linked w
      ∧ ∃ d ∈ w.deletions, w.Selectable d := by
  let _ := sampleDeletionHashing
  rcases fileSystem.exists_reachableBy FreshFiles samplePurge (fun _ _ _ h => freshFiles_iff h)
    (fun w => w.deletions.any (w.Selectable ·)) (by decide +kernel) with ⟨w, hreach, htest⟩
  rcases List.any_eq_true.mp htest with ⟨d, hd, hselectable⟩
  exact ⟨w, hreach, linked_of_reachable hreach, d, hd, of_decide_eq_true hselectable⟩

end Files
end Mobility
