import Mobility.Files.Effects

/-!
# Invariant — open receipts and the files they name

The invariant of every run.  An open receipt either names a file that nothing else may come
to refer to, or its key can belong to no file any more.  One lemma per effect.
-/

namespace Mobility
namespace Files

open Lib

/-- Where a stored file comes from: a confirmed upload, or a report. -/
inductive Source (uploads : List FileUploadIntent) (f : StoredFile) : Prop
  | upload (scope : FileScope) (u : FileUploadIntent) (hu : u ∈ uploads)
      (confirmed : u.status = .confirmed) (upload : f.uploadIntentId = some u.id)
      (key : f.storageKey = .managed scope u.id)
  | report (name : String) (upload : f.uploadIntentId = none) (key : f.storageKey = .report name)

structure Inv (w : Store) : Prop where
  fileIds : (w.files.map (·.id)).Nodup
  fileKeys : (w.files.map (·.storageKey)).Nodup
  uploadIds : (w.uploads.map (·.id)).Nodup
  deletionIds : (w.deletions.map (·.id)).Nodup
  uploadKeys : ∀ u ∈ w.uploads, u.objectKey = .unconfirmed u.scope u.id
  source : ∀ f ∈ w.files, Source w.uploads f
  onePerUpload : ∀ f ∈ w.files, ∀ g ∈ w.files, ∀ u,
    f.uploadIntentId = some u → g.uploadIntentId = some u → f = g
  /-- a linked receipt is open and names a stored file -/
  linked : ∀ d ∈ w.deletions, ∀ fileId, d.storedFileId = some fileId →
    d.state ≠ .completed ∧ d.ownerType ≠ .fileUploadIntent
      ∧ ∃ f ∈ w.files, f.id = fileId ∧ d.Names f
  /-- and nothing refers to that file, unless the receipt still waits for it -/
  freed : ∀ d ∈ w.deletions, ∀ fileId, d.storedFileId = some fileId →
    d.ownerType ≠ .retiredDriverAgreement ∨ d.state = .providerDeleted → w.Unreferenced fileId
  /-- an open receipt that is not linked has a key of no file -/
  unlinked : ∀ d ∈ w.deletions, d.state ≠ .completed → d.storedFileId = none →
    w.Dead d.storageKey
      ∧ ∀ u, d.uploadIntentId = some u → d.ownerType = .fileUploadIntent ∧ w.Spent u
  /-- a file without its object is on its way out -/
  present : ∀ f ∈ w.files, f.storageKey ∉ w.objects → w.Unreferenced f.id ∧ w.Fenced f.id

/-! ## Small facts -/

theorem Inv.fenced {w : Store} (hinv : Inv w) {d : StoredObjectDeletion} (hd : d ∈ w.deletions)
    {fileId : Id} (hlink : d.storedFileId = some fileId) : w.Fenced fileId :=
  ⟨d, hd, (hinv.linked d hd fileId hlink).1, hlink⟩

theorem Inv.file_eq {w : Store} (hinv : Inv w) {f g : StoredFile} (hf : f ∈ w.files)
    (hg : g ∈ w.files) (hid : f.id = g.id) : f = g :=
  eq_of_key_eq hinv.fileIds hf hg hid

/-- A dead key is no file's. -/
theorem Inv.not_owned_of_dead {w : Store} (hinv : Inv w) {key : StorageKey} (hdead : w.Dead key)
    {f : StoredFile} (hf : f ∈ w.files) : f.storageKey ≠ key := by
  intro hkey
  cases hinv.source f hf with
  | upload scope u hu confirmed upload hmanaged =>
      rw [← hkey, hmanaged] at hdead
      exact hdead.1 f hf upload
  | report name upload hreport =>
      rw [← hkey, hreport] at hdead
      exact hdead f hf hreport

theorem Dead.mono {w w' : Store} {key : StorageKey}
    (hspent : ∀ u, key.uploadId? = some u → w.Spent u → w'.Spent u)
    (hreport : ∀ name, key = .report name → (∀ f ∈ w.files, f.storageKey ≠ .report name) →
      ∀ f ∈ w'.files, f.storageKey ≠ .report name) (hdead : w.Dead key) : w'.Dead key := by
  cases key with
  | unconfirmed scope u => trivial
  | managed scope u => exact hspent u rfl hdead
  | report name => exact hreport name rfl hdead

/-- The rule for steps that leave files, receipts, references and objects as they are. -/
theorem Inv.unlinked_mono {w w' : Store} (hinv : Inv w)
    (hspent : ∀ d ∈ w.deletions, ∀ u, d.uploadIntentId = some u ∨ d.storageKey.uploadId? = some u →
      w.Spent u → w'.Spent u)
    (hreport : ∀ d ∈ w.deletions, ∀ name, d.storageKey = .report name →
      (∀ f ∈ w.files, f.storageKey ≠ .report name) → ∀ f ∈ w'.files, f.storageKey ≠ .report name)
    {d : StoredObjectDeletion} (hd : d ∈ w.deletions) (hopen : d.state ≠ .completed)
    (hnone : d.storedFileId = none) :
    w'.Dead d.storageKey
      ∧ ∀ u, d.uploadIntentId = some u → d.ownerType = .fileUploadIntent ∧ w'.Spent u := by
  rcases hinv.unlinked d hd hopen hnone with ⟨hdead, hupload⟩
  refine ⟨Dead.mono (fun u hu => hspent d hd u (.inr hu)) (hreport d hd) hdead, ?_⟩
  intro u hu
  rcases hupload u hu with ⟨howner, hspent'⟩
  exact ⟨howner, hspent d hd u (.inl hu) hspent'⟩

/-- What the provider may delete is no referenced file's object. -/
theorem Inv.free_of_mayDelete {w : Store} (hinv : Inv w) {intent : StoredObjectDeletion}
    (hintent : intent ∈ w.deletions) (hpending : intent.state = .pending)
    (hmay : w.MayDelete intent) {f : StoredFile} (hf : f ∈ w.files)
    (hkey : f.storageKey = intent.storageKey) :
    w.Unreferenced f.id ∧ intent.storedFileId = some f.id := by
  have hopen : intent.state ≠ .completed := by
    rw [hpending]
    simp
  cases hlink : intent.storedFileId with
  | none =>
      have hdead := (hinv.unlinked intent hintent hopen hlink).1
      exact absurd hkey (hinv.not_owned_of_dead hdead hf)
  | some fileId =>
      rcases hinv.linked intent hintent fileId hlink with ⟨_, _, g, hg, rfl, hnames⟩
      have hfg : f = g := eq_of_key_eq hinv.fileKeys hf hg (hkey.trans hnames.key)
      subst hfg
      refine ⟨?_, rfl⟩
      by_cases hretired : intent.ownerType = .retiredDriverAgreement
      · exact hnames.retired hretired ▸ hmay hretired
      · exact hinv.freed intent hintent f.id hlink (.inl hretired)

/-! ## The effects -/

theorem Inv.init : Inv {} :=
  { fileIds := by simp
    fileKeys := by simp
    uploadIds := by simp
    deletionIds := by simp
    uploadKeys := by simp
    source := by simp
    onePerUpload := by simp
    linked := by simp
    freed := by simp
    unlinked := by simp
    present := by simp }

theorem Inv.tick {w : Store} (hinv : Inv w) {now : Int} (hlater : w.clock ≤ now) :
    Inv { w with clock := now } :=
  { hinv with
    unlinked := fun d hd hopen hnone => by
      refine @Inv.unlinked_mono w { w with clock := now } hinv ?_ (fun _ _ _ _ h => h) d hd hopen hnone
      rintro d hd u - ⟨hfiles, huploads⟩
      refine ⟨hfiles, ?_⟩
      intro u' hu' hid
      exact le_trans (huploads u' hu' hid) hlater }

theorem Inv.put {w : Store} (hinv : Inv w) (key : StorageKey) :
    Inv { w with objects := key :: w.objects } :=
  { hinv with
    present := fun f hf hgone => hinv.present f hf (fun hkey => hgone (List.mem_cons_of_mem _ hkey)) }

theorem Inv.upload {w : Store} (hinv : Inv w) {intent : FileUploadIntent}
    (hkey : intent.objectKey = .unconfirmed intent.scope intent.id)
    (hfresh : ∀ u ∈ w.uploads, u.id ≠ intent.id)
    (hunheld : ∀ d ∈ w.deletions, d.uploadIntentId ≠ some intent.id
      ∧ d.storageKey.uploadId? ≠ some intent.id) :
    Inv { w with uploads := w.uploads ++ [intent] } :=
  { hinv with
    uploadIds := nodup_map_append hinv.uploadIds hfresh
    uploadKeys := fun u hu => by
      rcases List.mem_append.mp hu with hu | hu
      · exact hinv.uploadKeys u hu
      · cases List.mem_singleton.mp hu
        exact hkey
    source := fun f hf => by
      cases hinv.source f hf with
      | upload scope u hu confirmed upload key =>
          exact .upload scope u (List.mem_append_left _ hu) confirmed upload key
      | report name upload key => exact .report name upload key
    unlinked := fun d hd hopen hnone => by
      refine @Inv.unlinked_mono w { w with uploads := w.uploads ++ [intent] } hinv ?_
        (fun _ _ _ _ h => h) d hd hopen hnone
      rintro d hd u hheld ⟨hfiles, huploads⟩
      refine ⟨hfiles, ?_⟩
      intro u' hu' hid
      rcases List.mem_append.mp hu' with hu' | hu'
      · exact huploads u' hu' hid
      · -- the new intent's identifier is in no receipt
        cases List.mem_singleton.mp hu'
        subst hid
        rcases hheld with hheld | hheld
        · exact absurd hheld (hunheld d hd).1
        · exact absurd hheld (hunheld d hd).2 }

theorem Inv.confirm {w : Store} (hinv : Inv w) {intent : FileUploadIntent}
    (hintent : intent ∈ w.uploads) {file : StoredFile}
    (hunused : ∀ f ∈ w.files, f.uploadIntentId ≠ some intent.id)
    (hrunning : w.clock < intent.expiresAt) (hupload : file.uploadIntentId = some intent.id)
    {scope : FileScope} (hkey : file.storageKey = .managed scope intent.id)
    (hfreshId : ∀ f ∈ w.files, f.id ≠ file.id)
    (hfreshKey : ∀ f ∈ w.files, f.storageKey ≠ file.storageKey) :
    Inv { w with
      files := w.files ++ [file]
      uploads := w.uploads.map (fun u =>
        if u.id = intent.id then { u with status := .confirmed } else u)
      objects := file.storageKey :: w.objects } := by
  have hkeep : ∀ u : FileUploadIntent,
      (if u.id = intent.id then { u with status := .confirmed } else u).id = u.id := by
    intro u
    split <;> rfl
  -- an upload that is not over is not spent
  have hspent : ∀ u, w.Spent u → u ≠ intent.id := by
    rintro u ⟨_, hexpired⟩ rfl
    exact absurd (hexpired intent hintent rfl) (not_le.mpr hrunning)
  refine
    { hinv with
      fileIds := nodup_map_append hinv.fileIds hfreshId
      fileKeys := nodup_map_append hinv.fileKeys hfreshKey
      uploadIds := by rw [keys_of_map _ _ _ hkeep]; exact hinv.uploadIds
      uploadKeys := ?_
      source := ?_
      onePerUpload := ?_
      linked := ?_
      unlinked := ?_
      present := ?_ }
  · intro u' hu'
    rcases List.mem_map.mp hu' with ⟨u, hu, rfl⟩
    split <;> exact hinv.uploadKeys u hu
  · intro f hf
    rcases List.mem_append.mp hf with hf | hf
    · cases hinv.source f hf with
      | upload scope u hu confirmed upload key =>
          refine .upload scope _ (List.mem_map_of_mem hu) ?_ ?_ ?_
          · split
            · rfl
            · exact confirmed
          · rw [hkeep, upload]
          · rw [hkeep, key]
      | report name upload key => exact .report name upload key
    · cases List.mem_singleton.mp hf
      refine .upload scope _ (List.mem_map_of_mem hintent) ?_ ?_ ?_
      · simp
      · rw [hkeep, hupload]
      · rw [hkeep, hkey]
  · intro f hf g hg u hfu hgu
    rcases List.mem_append.mp hf with hf | hf <;> rcases List.mem_append.mp hg with hg | hg
    · exact hinv.onePerUpload f hf g hg u hfu hgu
    · cases List.mem_singleton.mp hg
      rw [hupload] at hgu
      cases hgu
      exact absurd hfu (hunused f hf)
    · cases List.mem_singleton.mp hf
      rw [hupload] at hfu
      cases hfu
      exact absurd hgu (hunused g hg)
    · rw [List.mem_singleton.mp hf, List.mem_singleton.mp hg]
  · intro d hd fileId hlink
    rcases hinv.linked d hd fileId hlink with ⟨hopen, howner, f, hf, hid, hnames⟩
    exact ⟨hopen, howner, f, List.mem_append_left _ hf, hid, hnames⟩
  · intro d hd hopen hnone
    refine @Inv.unlinked_mono w _ hinv ?_ ?_ d hd hopen hnone
    · intro d hd u _ hu
      refine ⟨?_, ?_⟩
      · intro f hf
        rcases List.mem_append.mp hf with hf | hf
        · exact hu.1 f hf
        · cases List.mem_singleton.mp hf
          rw [hupload]
          simpa using (hspent u hu).symm
      · intro u' hu' hid
        rcases List.mem_map.mp hu' with ⟨old, hold, rfl⟩
        rw [hkeep] at hid
        have hexpired := hu.2 old hold hid
        split <;> exact hexpired
    · intro d hd name _ hreport f hf
      rcases List.mem_append.mp hf with hf | hf
      · exact hreport f hf
      · cases List.mem_singleton.mp hf
        rw [hkey]
        simp
  · intro f hf hgone
    rcases List.mem_append.mp hf with hf | hf
    · exact hinv.present f hf (fun hstored => hgone (List.mem_cons_of_mem _ hstored))
    · cases List.mem_singleton.mp hf
      exact absurd (List.mem_cons_self ..) hgone

theorem Inv.scan {w : Store} (hinv : Inv w) (fileId : Id) (verdict : FileScanStatus) :
    Inv (scanStoredFile w fileId verdict) := by
  -- a scan changes the verdict of a file and nothing that the invariant reads
  have hback : ∀ f' ∈ (scanStoredFile w fileId verdict).files, ∃ f ∈ w.files, f'.id = f.id
      ∧ f'.storageKey = f.storageKey ∧ f'.uploadIntentId = f.uploadIntentId := by
    intro f' hf'
    rcases List.mem_map.mp hf' with ⟨f, hf, rfl⟩
    refine ⟨f, hf, ?_⟩
    split <;> exact ⟨rfl, rfl, rfl⟩
  have hids : (scanStoredFile w fileId verdict).files.map (·.id) = w.files.map (·.id) :=
    keys_of_map _ _ _ (fun f => by split <;> rfl)
  refine
    { hinv with
      fileIds := hids ▸ hinv.fileIds
      fileKeys := ?_
      source := ?_
      onePerUpload := ?_
      linked := ?_
      unlinked := ?_
      present := ?_ }
  · have hkeys : (scanStoredFile w fileId verdict).files.map (·.storageKey)
        = w.files.map (·.storageKey) :=
      keys_of_map _ _ _ (fun f => by split <;> rfl)
    exact hkeys ▸ hinv.fileKeys
  · intro f' hf'
    rcases hback f' hf' with ⟨f, hf, _, hkey, hupload⟩
    cases hinv.source f hf with
    | upload scope u hu confirmed upload key =>
        exact .upload scope u hu confirmed (hupload.trans upload) (hkey.trans key)
    | report name upload key => exact .report name (hupload.trans upload) (hkey.trans key)
  · intro f' hf' g' hg' u hfu hgu
    rcases hback f' hf' with ⟨f, hf, hfid, _, hfupload⟩
    rcases hback g' hg' with ⟨g, hg, hgid, _, hgupload⟩
    have hfg : f = g := hinv.onePerUpload f hf g hg u (hfupload ▸ hfu) (hgupload ▸ hgu)
    exact eq_of_key_eq (hids ▸ hinv.fileIds) hf' hg' (by rw [hfid, hgid, hfg])
  · intro d hd fileId' hlink
    rcases hinv.linked d hd fileId' hlink with ⟨hopen, howner, f, hf, hid, hnames⟩
    refine ⟨hopen, howner, _, List.mem_map_of_mem hf, ?_, ?_⟩
    · split <;> exact hid
    · split <;> exact ⟨hnames.file, hnames.key, hnames.upload, hnames.retired⟩
  · intro d hd hopen hnone
    refine @Inv.unlinked_mono w _ hinv ?_ ?_ d hd hopen hnone
    · rintro d hd u - ⟨hfiles, huploads⟩
      refine ⟨?_, huploads⟩
      intro f' hf'
      rcases hback f' hf' with ⟨f, hf, _, _, hupload⟩
      exact hupload ▸ hfiles f hf
    · intro d hd name _ hreport f' hf'
      rcases hback f' hf' with ⟨f, hf, _, hkey, _⟩
      exact hkey ▸ hreport f hf
  · intro f' hf' hgone
    rcases hback f' hf' with ⟨f, hf, hid, hkey, _⟩
    have hold := hinv.present f hf (hkey ▸ hgone)
    exact hid ▸ hold

/-- A new file that has its object, and no upload. -/
theorem Inv.addReport {w : Store} (hinv : Inv w) {file : StoredFile} {name : String}
    (hupload : file.uploadIntentId = none) (hkey : file.storageKey = .report name)
    (hstored : .report name ∈ w.objects) (hfreshId : ∀ f ∈ w.files, f.id ≠ file.id)
    (hfreshKey : ∀ f ∈ w.files, f.storageKey ≠ file.storageKey)
    (hunheld : ∀ d ∈ w.deletions, d.storageKey ≠ .report name) :
    Inv { w with files := w.files ++ [file] } := by
  refine
    { hinv with
      fileIds := nodup_map_append hinv.fileIds hfreshId
      fileKeys := nodup_map_append hinv.fileKeys hfreshKey
      source := ?_
      onePerUpload := ?_
      linked := ?_
      unlinked := ?_
      present := ?_ }
  · intro f hf
    rcases List.mem_append.mp hf with hf | hf
    · exact hinv.source f hf
    · cases List.mem_singleton.mp hf
      exact .report name hupload hkey
  · intro f hf g hg u hfu hgu
    rcases List.mem_append.mp hf with hf | hf
    · rcases List.mem_append.mp hg with hg | hg
      · exact hinv.onePerUpload f hf g hg u hfu hgu
      · cases List.mem_singleton.mp hg
        rw [hupload] at hgu
        cases hgu
    · cases List.mem_singleton.mp hf
      rw [hupload] at hfu
      cases hfu
  · intro d hd fileId hlink
    rcases hinv.linked d hd fileId hlink with ⟨hopen, howner, f, hf, hid, hnames⟩
    exact ⟨hopen, howner, f, List.mem_append_left _ hf, hid, hnames⟩
  · intro d hd hopen hnone
    refine @Inv.unlinked_mono w _ hinv ?_ ?_ d hd hopen hnone
    · rintro d hd u - ⟨hfiles, huploads⟩
      refine ⟨?_, huploads⟩
      intro f hf
      rcases List.mem_append.mp hf with hf | hf
      · exact hfiles f hf
      · cases List.mem_singleton.mp hf
        rw [hupload]
        simp
    · intro d hd other hdkey hreport f hf
      rcases List.mem_append.mp hf with hf | hf
      · exact hreport f hf
      · cases List.mem_singleton.mp hf
        intro hother
        -- no receipt waits for the name of the new report
        exact hunheld d hd (hdkey.trans (hother.symm.trans hkey))
  · intro f hf hgone
    rcases List.mem_append.mp hf with hf | hf
    · exact hinv.present f hf hgone
    · cases List.mem_singleton.mp hf
      exact absurd (hkey ▸ hstored) hgone

theorem Inv.refer {w : Store} (hinv : Inv w) (submissions : List KycSubmission)
    {documents : List KycDocument} {attachments : List FileAttachment}
    (hdocuments : ∀ d ∈ documents, d ∈ w.documents ∨ ¬ w.Fenced d.storedFileId)
    (hattachments : ∀ a ∈ attachments, a ∈ w.attachments ∨ ¬ w.Fenced a.storedFileId) :
    Inv { w with
      submissions := submissions, documents := documents, attachments := attachments } := by
  -- only unfenced files get a new reference
  have hfree : ∀ fileId, w.Fenced fileId → w.Unreferenced fileId →
      { w with documents := documents, attachments := attachments }.Unreferenced fileId := by
    rintro fileId hfenced ⟨hold, hold'⟩
    refine ⟨?_, ?_⟩
    · intro d hd hfile
      rcases hdocuments d hd with hd | hd
      · exact hold d hd hfile
      · exact hd (hfile ▸ hfenced)
    · intro a ha hfile
      rcases hattachments a ha with ha | ha
      · exact hold' a ha hfile
      · exact ha (hfile ▸ hfenced)
  exact
    { hinv with
      freed := fun d hd fileId hlink hsettled =>
        hfree fileId (hinv.fenced hd hlink) (hinv.freed d hd fileId hlink hsettled)
      present := fun f hf hgone => by
        rcases hinv.present f hf hgone with ⟨hunreferenced, hfenced⟩
        exact ⟨hfree f.id hfenced hunreferenced, hfenced⟩ }

theorem Inv.receipts [DeletionHashing] {w : Store} (hinv : Inv w) {new : List StoredObjectDeletion}
    (submissions : List KycSubmission) {documents : List KycDocument}
    (hfewer : ∀ d ∈ documents, d ∈ w.documents)
    (hids : ((w.deletions ++ new).map (·.id)).Nodup) (hpending : ∀ d ∈ new, d.state = .pending)
    (hgood : ∀ d ∈ new, NewReceipt w { w with documents := documents } d) :
    Inv { w with
      deletions := w.deletions ++ new, submissions := submissions, documents := documents } := by
  -- dropping documents only frees files
  have hunreferenced : ∀ fileId, w.Unreferenced fileId →
      { w with documents := documents }.Unreferenced fileId := by
    rintro fileId ⟨hdocuments, hattachments⟩
    exact ⟨fun d hd => hdocuments d (hfewer d hd), hattachments⟩
  refine
    { hinv with
      deletionIds := hids
      linked := ?_
      freed := ?_
      unlinked := ?_
      present := ?_ }
  · intro d hd fileId hlink
    rcases List.mem_append.mp hd with hd | hd
    · exact hinv.linked d hd fileId hlink
    · cases hgood d hd with
      | file f hf names notUpload free first =>
          have hid : f.id = fileId := Option.some.inj (names.file.symm.trans hlink)
          exact ⟨by rw [hpending d hd]; simp, notUpload, f, hf, hid, names⟩
      | upload u owner ownerId unlinked upload dead spent =>
          rw [unlinked] at hlink
          cases hlink
  · intro d hd fileId hlink hsettled
    rcases List.mem_append.mp hd with hd | hd
    · exact hunreferenced fileId (hinv.freed d hd fileId hlink hsettled)
    · cases hgood d hd with
      | file f hf names notUpload free first =>
          have hid : f.id = fileId := Option.some.inj (names.file.symm.trans hlink)
          rcases hsettled with howner | hdeleted
          · exact hid ▸ free howner
          · rw [hpending d hd] at hdeleted
            cases hdeleted
      | upload u owner ownerId unlinked upload dead spent =>
          rw [unlinked] at hlink
          cases hlink
  · intro d hd hopen hnone
    rcases List.mem_append.mp hd with hd | hd
    · exact hinv.unlinked d hd hopen hnone
    · cases hgood d hd with
      | file f hf names notUpload free first =>
          rw [names.file] at hnone
          cases hnone
      | upload u owner ownerId unlinked upload dead spent =>
          refine ⟨dead, ?_⟩
          intro u' hu'
          have hu : u = u' := Option.some.inj (upload.symm.trans hu')
          exact ⟨owner, hu ▸ spent⟩
  · intro f hf hgone
    rcases hinv.present f hf hgone with ⟨hfree, d, hd, hopen, hlink⟩
    exact ⟨hunreferenced f.id hfree, d, List.mem_append_left _ hd, hopen, hlink⟩

/-- The object of an unreferenced, fenced file may go. -/
theorem Inv.removeObject {w : Store} (hinv : Inv w) {key : StorageKey}
    (hfree : ∀ f ∈ w.files, f.storageKey = key → w.Unreferenced f.id ∧ w.Fenced f.id) :
    Inv (w.removeObject key) :=
  { hinv with
    present := fun f hf hgone => by
      by_cases hkey : f.storageKey = key
      · exact hfree f hf hkey
      · refine hinv.present f hf ?_
        intro hstored
        exact hgone (List.mem_filter.mpr ⟨hstored, by simpa using hkey⟩) }

/-- A receipt's state may become that its object is deleted, once its file is free. -/
theorem Inv.rewriteDeletion {w : Store} (hinv : Inv w) {intent : StoredObjectDeletion}
    (hintent : intent ∈ w.deletions) (hmay : w.MayDelete intent)
    {f : StoredObjectDeletion → StoredObjectDeletion}
    (hkept : ∀ d, SameReceipt d (f d) ∧ (f d).storedFileId = d.storedFileId
      ∧ (f d).uploadIntentId = d.uploadIntentId)
    (hopened : ∀ d, (f d).state = .pending ∨ (f d).state = .providerDeleted)
    (hstate : intent.state = .pending) :
    Inv (w.rewriteDeletion intent.id f) := by
  -- every receipt is an old one or the rewritten one
  have hback : ∀ d' ∈ (w.rewriteDeletion intent.id f).deletions,
      d' ∈ w.deletions ∨ d' = f intent :=
    fun d' hd' => (mem_rewrite hinv.deletionIds hintent f hd').symm
  have hfopen : (f intent).state ≠ .completed := by
    rcases hopened intent with hpending | hdeleted
    · rw [hpending]
      simp
    · rw [hdeleted]
      simp
  have hopen : intent.state ≠ .completed := by
    rw [hstate]
    simp
  rcases hkept intent with ⟨hsame, hfile, hupload⟩
  refine
    { hinv with
      deletionIds := ?_
      linked := ?_
      freed := ?_
      unlinked := ?_
      present := ?_ }
  · exact (keys_rewrite hinv.deletionIds hintent f hsame.id) ▸ hinv.deletionIds
  · intro d' hd' fileId hlink
    rcases hback d' hd' with hd | rfl
    · exact hinv.linked d' hd fileId hlink
    · rcases hinv.linked intent hintent fileId (hfile ▸ hlink) with ⟨_, howner, g, hg, hid, hnames⟩
      refine ⟨hfopen, hsame.ownerType ▸ howner, g, hg, hid, ?_⟩
      exact
        { file := hfile.trans hnames.file
          key := hsame.storageKey.trans hnames.key
          upload := hupload.trans hnames.upload
          retired := fun hretired =>
            hsame.ownerId.trans (hnames.retired (hsame.ownerType ▸ hretired)) }
  · intro d' hd' fileId hlink hsettled
    rcases hback d' hd' with hd | rfl
    · exact hinv.freed d' hd fileId hlink hsettled
    · have hlink' : intent.storedFileId = some fileId := hfile ▸ hlink
      by_cases hretired : intent.ownerType = .retiredDriverAgreement
      · rcases hinv.linked intent hintent fileId hlink' with ⟨_, _, g, _, hid, hnames⟩
        -- a retired agreement is settled by the check that its file is free
        have hfree := hmay hretired
        rw [hnames.retired hretired, hid] at hfree
        exact hfree
      · exact hinv.freed intent hintent fileId hlink' (.inl hretired)
  · intro d' hd' hopen' hnone
    rcases hback d' hd' with hd | rfl
    · exact hinv.unlinked d' hd hopen' hnone
    · rcases hinv.unlinked intent hintent hopen (hfile ▸ hnone) with ⟨hdead, hspent⟩
      refine ⟨hsame.storageKey.symm ▸ hdead, ?_⟩
      intro u hu
      rcases hspent u (hupload ▸ hu) with ⟨howner, hspent⟩
      exact ⟨hsame.ownerType.trans howner, hspent⟩
  · intro g hg hgone
    rcases hinv.present g hg hgone with ⟨hfree, d, hd, hdopen, hlink⟩
    refine ⟨hfree, ?_⟩
    by_cases hd' : d.id = intent.id
    · -- the rewritten receipt still fences its file
      have hsame' : d = intent := eq_of_key_eq hinv.deletionIds hd hintent hd'
      subst hsame'
      exact ⟨f d, List.mem_map.mpr ⟨d, hd, by simp⟩, hfopen, hfile.trans hlink⟩
    · exact ⟨d, List.mem_map.mpr ⟨d, hd, by simp [hd']⟩, hdopen, hlink⟩

/-- Every transaction but finalization keeps the invariant. -/
theorem Inv.effect [DeletionHashing] {w w' : Store} (hinv : Inv w) (h : Effect w w') : Inv w' := by
  cases h with
  | same => exact hinv
  | tick now later => exact hinv.tick later
  | put key => exact hinv.put key
  | upload intent key fresh unheld => exact hinv.upload key fresh unheld
  | confirm intent hintent file unused running fileUpload scope fileKey freshId freshKey =>
      exact hinv.confirm hintent unused running fileUpload fileKey freshId freshKey
  | scan fileId verdict => exact hinv.scan fileId verdict
  | artifact file attachment name noUpload fileKey stored freshId freshKey unheld holds unfenced =>
      have hfile := hinv.addReport noUpload fileKey stored freshId freshKey unheld
      refine hfile.refer w.submissions (fun d hd => .inl hd) ?_
      intro a ha
      rcases List.mem_append.mp ha with ha | ha
      · exact .inl ha
      · cases List.mem_singleton.mp ha
        exact .inr unfenced
  | refer submissions documents attachments newDocuments newAttachments payloads =>
      refine hinv.refer submissions ?_ ?_
      · intro d hd
        exact (newDocuments d hd).imp_right And.left
      · intro a ha
        exact (newAttachments a ha).imp_right And.left
  | receipts new submissions documents fewer ids pending good alone payloads =>
      exact hinv.receipts submissions fewer (ids hinv.deletionIds) pending good
  | provider intent hintent pending may removed f kept opened =>
      cases removed with
      | false => exact hinv.rewriteDeletion hintent may kept opened pending
      | true =>
          have hremoved : Inv (w.removeObject intent.storageKey) := by
            refine hinv.removeObject ?_
            intro g hg hkey
            rcases hinv.free_of_mayDelete hintent pending may hg hkey with ⟨hfree, hlink⟩
            exact ⟨hfree, hinv.fenced hintent hlink⟩
          exact hremoved.rewriteDeletion hintent may kept opened pending
  | died intent hintent pending may =>
      refine hinv.removeObject ?_
      intro g hg hkey
      rcases hinv.free_of_mayDelete hintent pending may hg hkey with ⟨hfree, hlink⟩
      exact ⟨hfree, hinv.fenced hintent hlink⟩

/-! ## What an effect removes -/

/-- Every effect keeps all files and upload intents, under their identifiers. -/
theorem Effect.keeps [DeletionHashing] {w w' : Store} (h : Effect w w') :
    (∀ f ∈ w.files, ∃ f' ∈ w'.files, f'.id = f.id)
      ∧ ∀ u ∈ w.uploads, ∃ u' ∈ w'.uploads, u'.id = u.id := by
  cases h with
  | same => exact ⟨fun f hf => ⟨f, hf, rfl⟩, fun u hu => ⟨u, hu, rfl⟩⟩
  | tick now later => exact ⟨fun f hf => ⟨f, hf, rfl⟩, fun u hu => ⟨u, hu, rfl⟩⟩
  | put key => exact ⟨fun f hf => ⟨f, hf, rfl⟩, fun u hu => ⟨u, hu, rfl⟩⟩
  | upload intent key fresh unheld =>
      exact ⟨fun f hf => ⟨f, hf, rfl⟩, fun u hu => ⟨u, List.mem_append_left _ hu, rfl⟩⟩
  | confirm intent hintent file unused running fileUpload scope fileKey freshId freshKey =>
      refine ⟨fun f hf => ⟨f, List.mem_append_left _ hf, rfl⟩, ?_⟩
      intro u hu
      refine ⟨_, List.mem_map_of_mem hu, ?_⟩
      split <;> rfl
  | scan fileId verdict =>
      refine ⟨?_, fun u hu => ⟨u, hu, rfl⟩⟩
      intro f hf
      refine ⟨_, List.mem_map_of_mem hf, ?_⟩
      split <;> rfl
  | artifact file attachment name noUpload fileKey stored freshId freshKey unheld holds unfenced =>
      exact ⟨fun f hf => ⟨f, List.mem_append_left _ hf, rfl⟩, fun u hu => ⟨u, hu, rfl⟩⟩
  | refer submissions documents attachments newDocuments newAttachments payloads =>
      exact ⟨fun f hf => ⟨f, hf, rfl⟩, fun u hu => ⟨u, hu, rfl⟩⟩
  | receipts new submissions documents fewer ids pending good alone payloads =>
      exact ⟨fun f hf => ⟨f, hf, rfl⟩, fun u hu => ⟨u, hu, rfl⟩⟩
  | provider intent hintent pending may removed f kept opened =>
      cases removed <;> exact ⟨fun f hf => ⟨f, hf, rfl⟩, fun u hu => ⟨u, hu, rfl⟩⟩
  | died intent hintent pending may =>
      exact ⟨fun f hf => ⟨f, hf, rfl⟩, fun u hu => ⟨u, hu, rfl⟩⟩

/-- A reference is old, or names a stored file. -/
theorem Effect.documents [DeletionHashing] {w w' : Store} (h : Effect w w') :
    ∀ d ∈ w'.documents, d ∈ w.documents ∨ ∃ f ∈ w'.files, f.id = d.storedFileId := by
  cases h with
  | refer submissions documents attachments newDocuments newAttachments payloads =>
      intro d hd
      exact (newDocuments d hd).imp_right And.right
  | receipts new submissions documents fewer ids pending good alone payloads =>
      intro d hd
      exact .inl (fewer d hd)
  | provider intent hintent pending may removed f kept opened =>
      intro d hd
      cases removed <;> exact .inl hd
  | _ =>
      intro d hd
      exact .inl hd

theorem Effect.attachments [DeletionHashing] {w w' : Store} (h : Effect w w') :
    ∀ a ∈ w'.attachments, a ∈ w.attachments ∨ ∃ f ∈ w'.files, f.id = a.storedFileId := by
  cases h with
  | artifact file attachment name noUpload fileKey stored freshId freshKey unheld holds unfenced =>
      intro a ha
      rcases List.mem_append.mp ha with ha | ha
      · exact .inl ha
      · cases List.mem_singleton.mp ha
        exact .inr ⟨file, by simp, holds.symm⟩
  | refer submissions documents attachments newDocuments newAttachments payloads =>
      intro a ha
      exact (newAttachments a ha).imp_right And.right
  | provider intent hintent pending may removed f kept opened =>
      intro a ha
      cases removed <;> exact .inl ha
  | _ =>
      intro a ha
      exact .inl ha

/-- An object goes by a provider call only, and belongs to no referenced file. -/
theorem Effect.removed_free [DeletionHashing] {w w' : Store} (hinv : Inv w) (h : Effect w w') {key : StorageKey}
    (hkey : key ∈ w.objects) (hgone : key ∉ w'.objects) {f : StoredFile} (hf : f ∈ w.files)
    (hfile : f.storageKey = key) : w.Unreferenced f.id := by
  have hcall : ∀ intent ∈ w.deletions, intent.state = .pending → w.MayDelete intent →
      key ∉ (w.removeObject intent.storageKey).objects → w.Unreferenced f.id := by
    intro intent hintent hpending hmay hgone
    have hsame : f.storageKey = intent.storageKey := by
      rw [hfile]
      by_contra hne
      exact hgone (List.mem_filter.mpr ⟨hkey, by simpa using hne⟩)
    exact (hinv.free_of_mayDelete hintent hpending hmay hf hsame).1
  cases h with
  | same => exact absurd hkey hgone
  | tick now later => exact absurd hkey hgone
  | put key' => exact absurd (List.mem_cons_of_mem _ hkey) hgone
  | upload intent _ fresh unheld => exact absurd hkey hgone
  | confirm intent hintent file unused running fileUpload scope fileKey freshId freshKey =>
      exact absurd (List.mem_cons_of_mem _ hkey) hgone
  | scan fileId verdict => exact absurd hkey hgone
  | artifact file attachment name noUpload fileKey stored freshId freshKey unheld holds unfenced =>
      exact absurd hkey hgone
  | refer submissions documents attachments newDocuments newAttachments payloads =>
      exact absurd hkey hgone
  | receipts new submissions documents fewer ids pending good alone payloads => exact absurd hkey hgone
  | provider intent hintent pending may removed g kept opened =>
      cases removed with
      | false => exact absurd hkey hgone
      | true => exact hcall intent hintent pending may hgone
  | died intent hintent pending may => exact hcall intent hintent pending may hgone

end Files
end Mobility
