import Mobility.Files.Invariant

/-!
# Finalization — what the removal of rows leaves

`finalizeStoredObjectDeletion` removes files and upload intents, nulls the links of other
receipts to them, and completes the receipts it is about.  `Inv.removal` is the one rule for
all of its branches; what goes is unreferenced.
-/

namespace Mobility
namespace Files

open Lib

/-! ## The rule -/

/-- A receipt whose links to removed rows are set null. -/
def StoredObjectDeletion.unlink (files uploads : List Id) (d : StoredObjectDeletion) :
    StoredObjectDeletion :=
  { d with
    storedFileId := d.storedFileId.filter (· ∉ files)
    uploadIntentId := d.uploadIntentId.filter (· ∉ uploads) }

theorem filter_notMem_nil (link : Option Id) : link.filter (· ∉ ([] : List Id)) = link := by
  cases link <;> rfl

@[simp]
theorem unlink_nil (d : StoredObjectDeletion) : d.unlink [] [] = d := by
  simp only [StoredObjectDeletion.unlink, filter_notMem_nil]

theorem unlink_unlink (d : StoredObjectDeletion) (files uploads : List Id) :
    (d.unlink files []).unlink [] uploads = d.unlink files uploads := by
  simp only [StoredObjectDeletion.unlink, filter_notMem_nil]

def Store.remove (w : Store) (files uploads : List Id)
    (g : StoredObjectDeletion → StoredObjectDeletion) : Store :=
  { w with
    files := w.files.filter (·.id ∉ files)
    uploads := w.uploads.filter (·.id ∉ uploads)
    deletions := w.deletions.map g }

/-- Rows may go when each file goes with its upload, and each completed receipt with its
file. -/
theorem Inv.removal {w : Store} (hinv : Inv w) {F U : List Id} {S : StoredObjectDeletion → Prop}
    {g : StoredObjectDeletion → StoredObjectDeletion} (hsame : ∀ d, SameReceipt d (g d))
    (hdone : ∀ d ∈ w.deletions, S d → (g d).state = .completed ∧ (g d).storedFileId = none)
    (hkeep : ∀ d ∈ w.deletions, ¬ S d → g d = d.unlink F U)
    (hgone : ∀ d ∈ w.deletions, S d → ∀ x, d.storedFileId = some x → x ∈ F)
    (huploads : ∀ f ∈ w.files, ∀ u, f.uploadIntentId = some u → (f.id ∈ F ↔ u ∈ U)) :
    Inv (w.remove F U g) := by
  have hfile : ∀ f, f ∈ (w.remove F U g).files ↔ f ∈ w.files ∧ f.id ∉ F := by
    intro f
    simp [Store.remove]
  have hupload : ∀ u, u ∈ (w.remove F U g).uploads ↔ u ∈ w.uploads ∧ u.id ∉ U := by
    intro u
    simp [Store.remove]
  -- a receipt that still links is none of the completed ones
  have hlinked : ∀ d ∈ w.deletions, ∀ x, (g d).storedFileId = some x →
      ¬ S d ∧ d.storedFileId = some x ∧ x ∉ F ∧ g d = d.unlink F U := by
    intro d hd x hlink
    have hS : ¬ S d := by
      intro hS
      rw [(hdone d hd hS).2] at hlink
      cases hlink
    have hg := hkeep d hd hS
    rw [hg] at hlink
    rcases Option.filter_eq_some_iff.mp hlink with ⟨hlink, hx⟩
    exact ⟨hS, hlink, by simpa using hx, hg⟩
  refine
    { fileIds := hinv.fileIds.sublist (List.filter_sublist.map _)
      fileKeys := hinv.fileKeys.sublist (List.filter_sublist.map _)
      uploadIds := hinv.uploadIds.sublist (List.filter_sublist.map _)
      deletionIds := ?_
      uploadKeys := fun u hu => hinv.uploadKeys u ((hupload u).mp hu).1
      source := ?_
      onePerUpload := fun f hf f' hf' =>
        hinv.onePerUpload f ((hfile f).mp hf).1 f' ((hfile f').mp hf').1
      linked := ?_
      freed := ?_
      unlinked := ?_
      present := ?_ }
  · exact (keys_of_map _ w.deletions g (fun d => (hsame d).id)) ▸ hinv.deletionIds
  · intro f hf
    rcases (hfile f).mp hf with ⟨hf, hkept⟩
    cases hinv.source f hf with
    | upload scope u hu confirmed upload key =>
        refine .upload scope u ((hupload u).mpr ⟨hu, ?_⟩) confirmed upload key
        exact fun hU => hkept ((huploads f hf u.id upload).mpr hU)
    | report name upload key => exact .report name upload key
  · intro d' hd' x hlink
    rcases List.mem_map.mp hd' with ⟨d, hd, rfl⟩
    rcases hlinked d hd x hlink with ⟨_, hold, hx, hg⟩
    rcases hinv.linked d hd x hold with ⟨hopen, howner, f, hf, rfl, hnames⟩
    refine ⟨by rw [hg]; exact hopen, (hsame d).ownerType ▸ howner, f, (hfile f).mpr ⟨hf, hx⟩, rfl,
      ?_⟩
    refine
      { file := hlink
        key := (hsame d).storageKey.trans hnames.key
        upload := ?_
        retired := fun hretired =>
          (hsame d).ownerId.trans (hnames.retired ((hsame d).ownerType ▸ hretired)) }
    rw [hg]
    cases hu : f.uploadIntentId with
    | none => simp [StoredObjectDeletion.unlink, hnames.upload, hu]
    | some u =>
        have hU : u ∉ U := fun hU => hx ((huploads f hf u hu).mpr hU)
        simp [StoredObjectDeletion.unlink, hnames.upload, hu, Option.filter, hU]
  · intro d' hd' x hlink hsettled
    rcases List.mem_map.mp hd' with ⟨d, hd, rfl⟩
    rcases hlinked d hd x hlink with ⟨_, hold, _, hg⟩
    refine hinv.freed d hd x hold ?_
    rw [hg] at hsettled
    exact hsettled
  · intro d' hd' hopen hnone
    rcases List.mem_map.mp hd' with ⟨d, hd, rfl⟩
    have hS : ¬ S d := fun hS => hopen (hdone d hd hS).1
    have hg := hkeep d hd hS
    rw [hg] at hopen hnone
    have hheld : ∀ u, (g d).uploadIntentId = some u → d.uploadIntentId = some u ∧ u ∉ U := by
      intro u hu
      rw [hg] at hu
      rcases Option.filter_eq_some_iff.mp hu with ⟨hu, hU⟩
      exact ⟨hu, by simpa using hU⟩
    cases hlink : d.storedFileId with
    | none =>
        have hspent : ∀ u, w.Spent u → (w.remove F U g).Spent u := by
          rintro u ⟨hfiles, huploads'⟩
          exact ⟨fun f hf => hfiles f ((hfile f).mp hf).1,
            fun u' hu' => huploads' u' ((hupload u').mp hu').1⟩
        rcases hinv.unlinked d hd hopen hlink with ⟨hdead, hspent'⟩
        refine ⟨?_, ?_⟩
        · rw [(hsame d).storageKey]
          refine Dead.mono (fun u _ => hspent u) ?_ hdead
          exact fun name _ hreport f hf => hreport f ((hfile f).mp hf).1
        · intro u hu
          rcases hspent' u (hheld u hu).1 with ⟨howner, hspent''⟩
          exact ⟨(hsame d).ownerType.trans howner, hspent u hspent''⟩
    | some x =>
        -- the link was set null: the file went, and its upload with it
        have hx : x ∈ F := by
          by_contra hx
          simp [StoredObjectDeletion.unlink, hlink, Option.filter, hx] at hnone
        rcases hinv.linked d hd x hlink with ⟨_, _, f, hf, rfl, hnames⟩
        refine ⟨?_, ?_⟩
        · rw [(hsame d).storageKey, hnames.key]
          cases hinv.source f hf with
          | upload scope u hu confirmed upload key =>
              rw [key]
              refine ⟨?_, ?_⟩
              · intro f' hf' hf'u
                rcases (hfile f').mp hf' with ⟨hf', hkept⟩
                exact hkept (hinv.onePerUpload f hf f' hf' u.id upload hf'u ▸ hx)
              · intro u' hu' hid
                exact absurd (hid ▸ (huploads f hf u.id upload).mp hx) ((hupload u').mp hu').2
          | report name upload key =>
              rw [key]
              intro f' hf' hf'key
              rcases (hfile f').mp hf' with ⟨hf', hkept⟩
              exact hkept (eq_of_key_eq hinv.fileKeys hf hf' (key.trans hf'key.symm) ▸ hx)
        · intro u hu
          rcases hheld u hu with ⟨hu, hU⟩
          exact absurd ((huploads f hf u (hnames.upload.symm.trans hu)).mp hx) hU
  · intro f hf hgone'
    rcases (hfile f).mp hf with ⟨hf, hkept⟩
    rcases hinv.present f hf hgone' with ⟨hfree, d, hd, hopen, hlink⟩
    have hS : ¬ S d := fun hS => hkept (hgone d hd hS f.id hlink)
    refine ⟨hfree, g d, List.mem_map_of_mem hd, ?_, ?_⟩
    · rw [hkeep d hd hS]
      exact hopen
    · rw [hkeep d hd hS]
      simp [StoredObjectDeletion.unlink, hlink, Option.filter, hkept]

/-- A receipt that links no file may be completed. -/
theorem Inv.complete {w : Store} (hinv : Inv w) {S : StoredObjectDeletion → Prop} [DecidablePred S]
    (hnone : ∀ d ∈ w.deletions, S d → d.storedFileId = none) :
    Inv { w with deletions := w.deletions.map (fun d =>
      if S d then { d with state := .completed } else d) } := by
  have hremoved := hinv.removal (S := S) (F := []) (U := [])
    (g := fun d => if S d then { d with state := .completed } else d) ?_ ?_ ?_ ?_ ?_
  · simpa [Store.remove] using hremoved
  · intro d
    split <;> exact ⟨rfl, rfl, rfl, rfl, rfl⟩
  · intro d hd hS
    simp [hS, hnone d hd hS]
  · intro d _ hS
    simp [hS]
  · intro d hd hS x hlink
    rw [hnone d hd hS] at hlink
    cases hlink
  · simp

/-! ## What goes -/

/-- Only unreferenced files go, and only their upload intents. -/
structure Finalized (w w' : Store) : Prop where
  objects : w'.objects = w.objects
  documents : w'.documents = w.documents
  attachments : w'.attachments = w.attachments
  files : ∀ f ∈ w.files, f ∉ w'.files → w.Unreferenced f.id
  uploads : ∀ u ∈ w.uploads, u.id ∉ w'.uploads.map (·.id) →
    ∀ f ∈ w.files, f.uploadIntentId = some u.id → w.Unreferenced f.id

theorem Finalized.refl (w : Store) : Finalized w w :=
  { objects := rfl
    documents := rfl
    attachments := rfl
    files := fun _ hf hgone => absurd hf hgone
    uploads := fun _ hu hgone => absurd (List.mem_map_of_mem hu) hgone }

theorem Finalized.remove {w : Store} {F U : List Id}
    {g : StoredObjectDeletion → StoredObjectDeletion} (hfree : ∀ x ∈ F, w.Unreferenced x)
    (huploads : ∀ f ∈ w.files, ∀ u, f.uploadIntentId = some u → (f.id ∈ F ↔ u ∈ U)) :
    Finalized w (w.remove F U g) := by
  refine ⟨rfl, rfl, rfl, ?_, ?_⟩
  · intro f hf hgone
    by_cases hF : f.id ∈ F
    · exact hfree f.id hF
    · exact absurd (List.mem_filter.mpr ⟨hf, by simpa using hF⟩) hgone
  · intro u hu hgone f hf hupload
    by_cases hU : u.id ∈ U
    · exact hfree f.id ((huploads f hf u.id hupload).mpr hU)
    · have hkept : u ∈ (w.remove F U g).uploads :=
        List.mem_filter.mpr ⟨hu, by simpa using hU⟩
      exact absurd (List.mem_map_of_mem hkept) hgone

/-! ## The files of a purged submission -/

/-- Delete the rows of several files. -/
def Store.deleteFiles (w : Store) (files : List Id) : Store :=
  w.remove files [] (·.unlink files [])

theorem deleteFiles_nil (w : Store) : w.deleteFiles [] = w := by
  simp [Store.deleteFiles, Store.remove]

theorem deleteFile_deleteFiles (w : Store) (files : List Id) (fileId : Id) :
    (w.deleteFiles files).deleteFile fileId = w.deleteFiles (fileId :: files) := by
  have hfiles : (w.files.filter (·.id ∉ files)).filter (·.id ≠ fileId)
      = w.files.filter (·.id ∉ fileId :: files) := by
    rw [List.filter_filter]
    refine List.filter_congr ?_
    intro f _
    simp
  have hlinks : ∀ d : StoredObjectDeletion,
      (if (d.unlink files []).storedFileId = some fileId then
        { d.unlink files [] with storedFileId := none } else d.unlink files [])
        = d.unlink (fileId :: files) [] := by
    intro d
    cases hlink : d.storedFileId with
    | none => simp [StoredObjectDeletion.unlink, hlink]
    | some x =>
        by_cases hx : x = fileId <;> by_cases hF : x ∈ files <;>
          simp_all [StoredObjectDeletion.unlink, Option.filter]
  simp only [Store.deleteFile, Store.deleteFiles, Store.remove, List.map_map, hfiles,
    Store.mk.injEq, true_and, and_true]
  exact List.map_congr_left (fun d _ => hlinks d)

/-- The loop over the siblings: the files that go are unreferenced, and every sibling's file
that exists and is unreferenced goes. -/
theorem foldl_deleteSiblingFile (w : Store) (siblings : List StoredObjectDeletion)
    (done : List Id) (hdone : ∀ x ∈ done, w.Unreferenced x) :
    ∃ F, siblings.foldl Store.deleteSiblingFile (w.deleteFiles done) = w.deleteFiles F
      ∧ (∀ x ∈ done, x ∈ F)
      ∧ (∀ x ∈ F, w.Unreferenced x ∧ (x ∈ done ∨ ∃ s ∈ siblings, s.storedFileId = some x))
      ∧ ∀ s ∈ siblings, ∀ x, s.storedFileId = some x → w.Unreferenced x →
          (∃ f ∈ w.files, f.id = x) → x ∈ F := by
  induction siblings generalizing done with
  | nil => exact ⟨done, rfl, fun x hx => hx, fun x hx => ⟨hdone x hx, .inl hx⟩, by simp⟩
  | cons s siblings ih =>
      -- one round adds the sibling's file, or leaves the store as it is
      have hround : ∃ done', (w.deleteFiles done).deleteSiblingFile s = w.deleteFiles done'
          ∧ (∀ x ∈ done, x ∈ done')
          ∧ (∀ x ∈ done', w.Unreferenced x ∧ (x ∈ done ∨ s.storedFileId = some x))
          ∧ ∀ x, s.storedFileId = some x → w.Unreferenced x → (∃ f ∈ w.files, f.id = x) →
              x ∈ done' := by
        unfold Store.deleteSiblingFile
        cases hlink : s.storedFileId with
        | none =>
            exact ⟨done, rfl, fun x hx => hx, fun x hx => ⟨hdone x hx, .inl hx⟩, by simp⟩
        | some x =>
            simp only [Option.bind_some]
            cases hfile : (w.deleteFiles done).file? x with
            | none =>
                refine ⟨done, rfl, fun x hx => hx, fun x hx => ⟨hdone x hx, .inl hx⟩, ?_⟩
                rintro y hy _ ⟨f, hf, rfl⟩
                cases hy
                by_contra hnot
                have hkept : f ∈ (w.deleteFiles done).files :=
                  List.mem_filter.mpr ⟨hf, by simpa using hnot⟩
                exact lookup_eq_none.mp hfile f hkept rfl
            | some file =>
                obtain rfl : file.id = x := (mem_of_lookup hfile).2
                by_cases hreferenced :
                    (w.deleteFiles done).fileIsReferenced file.id none none = true
                · refine ⟨done, by simp [hreferenced], fun x hx => hx,
                    fun x hx => ⟨hdone x hx, .inl hx⟩, ?_⟩
                  rintro y hy hfree -
                  cases hy
                  have hfree' : (w.deleteFiles done).Unreferenced file.id := hfree
                  rw [unreferenced_iff.mpr hfree'] at hreferenced
                  cases hreferenced
                · have hfree : (w.deleteFiles done).Unreferenced file.id :=
                    unreferenced_iff.mp (Bool.eq_false_iff.mpr hreferenced)
                  refine ⟨file.id :: done, ?_, fun y hy => List.mem_cons_of_mem _ hy, ?_, ?_⟩
                  · dsimp only
                    rw [if_neg hreferenced, deleteFile_deleteFiles]
                  · intro y hy
                    rcases List.mem_cons.mp hy with rfl | hy
                    · exact ⟨hfree, .inr rfl⟩
                    · exact ⟨hdone y hy, .inl hy⟩
                  · rintro y hy - -
                    cases hy
                    exact List.mem_cons_self ..
      rcases hround with ⟨done', hstore, hmore, hfree, hall⟩
      rcases ih done' (fun x hx => (hfree x hx).1) with ⟨F, hF, hdone'F, hFfree, hFall⟩
      refine ⟨F, ?_, fun x hx => hdone'F x (hmore x hx), ?_, ?_⟩
      · rw [List.foldl_cons, hstore, hF]
      · intro x hx
        rcases hFfree x hx with ⟨hxfree, hx | ⟨s', hs', hlink⟩⟩
        · rcases (hfree x hx).2 with hx | hlink
          · exact ⟨hxfree, .inl hx⟩
          · exact ⟨hxfree, .inr ⟨s, by simp, hlink⟩⟩
        · exact ⟨hxfree, .inr ⟨s', by simp [hs'], hlink⟩⟩
      · intro s' hs' x hlink hxfree hexists
        rcases List.mem_cons.mp hs' with rfl | hs'
        · exact hdone'F x (hall x hlink hxfree hexists)
        · exact hFall s' hs' x hlink hxfree hexists

/-- What a finished finalization of a submission leaves: its receipts completed, the receipts
of other owners unlinked from the rows that went. -/
def StoredObjectDeletion.close (intent : StoredObjectDeletion) (F U : List Id)
    (d : StoredObjectDeletion) : StoredObjectDeletion :=
  if intent.SiblingOf d then
    { d with state := .completed, storedFileId := none, uploadIntentId := none }
  else d.unlink F U

theorem remove_uploads_siblings (w : Store) (intent : StoredObjectDeletion) (F U : List Id) :
    (((w.deleteFiles F).unlinkSiblings intent).remove [] U (·.unlink [] U)).completeSiblings intent
      = w.remove F U (intent.close F U) := by
  simp only [Store.deleteFiles, Store.unlinkSiblings, Store.completeSiblings, Store.remove,
    List.map_map, Store.mk.injEq, true_and, and_true]
  refine ⟨by simp, by simp, List.map_congr_left ?_⟩
  intro d _
  by_cases hsib : intent.SiblingOf d
  · have hunlinked : intent.SiblingOf (d.unlink F []) := hsib
    have hnulled : intent.SiblingOf
        (({ d.unlink F [] with storedFileId := none, uploadIntentId := none } :
          StoredObjectDeletion).unlink [] U) := hsib
    simp only [Function.comp_apply, StoredObjectDeletion.close, if_pos hsib, if_pos hunlinked,
      if_pos hnulled]
    rfl
  · have hunlinked : ¬ intent.SiblingOf (d.unlink F []) := hsib
    have hunlinked' : ¬ intent.SiblingOf (d.unlink F U) := hsib
    simp only [Function.comp_apply, StoredObjectDeletion.close, if_neg hsib, if_neg hunlinked,
      unlink_unlink, if_neg hunlinked']

theorem deleteUploads_ok {w w' : Store} {uploadIds : List Id}
    (h : w.deleteUploads uploadIds = .ok w') :
    (∀ f ∈ w.files, ∀ u ∈ uploadIds, f.uploadIntentId ≠ some u)
      ∧ w' = w.remove [] uploadIds (·.unlink [] uploadIds) := by
  rcases bind_eq_ok.mp h with ⟨_, hrestrict, h⟩
  rcases bind_eq_ok.mp h with ⟨_, _, h⟩
  refine ⟨require_eq_ok.mp hrestrict, ?_⟩
  rw [← pure_eq_ok.mp h]
  have hlinks : ∀ d : StoredObjectDeletion,
      (if d.uploadIntentId.any (· ∈ uploadIds) then { d with uploadIntentId := none } else d)
        = d.unlink [] uploadIds := by
    intro d
    cases d with
    | mk id storedFileId uploadIntentId =>
        cases storedFileId <;> cases uploadIntentId with
        | none => rfl
        | some u => by_cases hu : u ∈ uploadIds <;> simp [StoredObjectDeletion.unlink, Option.filter, hu]
  simp only [Store.remove, Store.mk.injEq, true_and, and_true]
  refine ⟨by simp, List.map_congr_left (fun d _ => hlinks d)⟩

/-- What a finalization comes to. -/
inductive Finalization (w : Store) : Store → Prop
  | same : Finalization w w
  | submission (intent : StoredObjectDeletion) (hintent : intent ∈ w.deletions)
      (kyc : intent.ownerType.kycKind.isSome = true) (F : List Id)
      (gone : ∀ d ∈ w.deletions, intent.SiblingOf d → ∀ x, d.storedFileId = some x → x ∈ F)
      (free : ∀ x ∈ F, w.Unreferenced x)
      (uploads : ∀ f ∈ w.files, ∀ u, f.uploadIntentId = some u →
        (f.id ∈ F ↔ u ∈ (w.siblings intent).filterMap (·.uploadIntentId))) :
      Finalization w (w.remove F ((w.siblings intent).filterMap (·.uploadIntentId))
        (intent.close F ((w.siblings intent).filterMap (·.uploadIntentId))))
  | file (intent : StoredObjectDeletion) (hintent : intent ∈ w.deletions) (file : StoredFile)
      (hfile : file ∈ w.files) (link : intent.storedFileId = some file.id) (U : List Id)
      (free : w.Unreferenced file.id)
      (uploads : ∀ f ∈ w.files, ∀ u, f.uploadIntentId = some u → (f.id ∈ [file.id] ↔ u ∈ U))
      (held : ∀ u ∈ U, file.uploadIntentId = some u) :
      Finalization w ((w.remove [file.id] U (·.unlink [file.id] U)).rewriteDeletion intent.id
        (fun d => { d with state := .completed }))
  | upload (intent : StoredObjectDeletion) (hintent : intent ∈ w.deletions)
      (opened : intent.state ≠ .completed) (unlinked : intent.storedFileId = none) (uploadId : Id)
      (upload : intent.uploadIntentId = some uploadId) :
      Finalization w (({ w with uploads := w.uploads.map (fun u =>
        if u.id = uploadId then { u with status := .expired } else u) } : Store).completeSiblings
          intent)
  | alone (intent : StoredObjectDeletion) (hintent : intent ∈ w.deletions)
      (unlinked : intent.storedFileId = none) (noUpload : intent.uploadIntentId = none) :
      Finalization w (w.rewriteDeletion intent.id (fun d => { d with state := .completed }))

theorem finalizeKycOwner_ok {w w' : Store} (hinv : Inv w) {kind : KycKind}
    {intent : StoredObjectDeletion} (hintent : intent ∈ w.deletions)
    (hkind : intent.ownerType.kycKind = some kind) {finished : Bool}
    (h : finalizeKycOwner w kind intent = .ok (w', finished)) : Finalization w w' := by
  unfold finalizeKycOwner at h
  rcases ite_eq_ok.mp h with ⟨_, h⟩ | ⟨hsettled, h⟩
  · cases pure_eq_ok.mp h
    exact .same
  cases hsubmission : w.submission? kind intent.ownerId with
  | none =>
      simp only [hsubmission] at h
      cases pure_eq_ok.mp h
      exact .same
  | some submission =>
      simp only [hsubmission] at h
      rcases ite_eq_ok.mp h with ⟨_, h⟩ | ⟨_, h⟩
      · cases pure_eq_ok.mp h
        exact .same
      rcases ite_eq_ok.mp h with ⟨_, h⟩ | ⟨_, h⟩
      · cases pure_eq_ok.mp h
        exact .same
      rcases bind_eq_ok.mp h with ⟨v, hv, h⟩
      cases pure_eq_ok.mp h
      rcases foldl_deleteSiblingFile w (w.siblings intent) [] (by simp) with
        ⟨F, hfold, -, hfree, hall⟩
      rw [deleteFiles_nil] at hfold
      rw [hfold] at hv
      rcases deleteUploads_ok hv with ⟨hrestrict, rfl⟩
      have hsibling : ∀ d, d ∈ w.siblings intent ↔ d ∈ w.deletions ∧ intent.SiblingOf d := by
        intro d
        simp [Store.siblings]
      -- every linked sibling has its object deleted, so its file is free and goes
      have hgone : ∀ d ∈ w.deletions, intent.SiblingOf d → ∀ x, d.storedFileId = some x → x ∈ F := by
        intro d hd hsib x hlink
        rcases hinv.linked d hd x hlink with ⟨hopen, _, f, hf, hid, _⟩
        have hdeleted : d.state = .providerDeleted := by
          cases hstate : d.state with
          | pending => exact absurd ⟨d, (hsibling d).mpr ⟨hd, hsib⟩, hstate⟩ hsettled
          | providerDeleted => rfl
          | completed => exact absurd hstate hopen
        exact hall d ((hsibling d).mpr ⟨hd, hsib⟩) x hlink (hinv.freed d hd x hlink (.inr hdeleted))
          ⟨f, hf, hid⟩
      have huploads : ∀ f ∈ w.files, ∀ u, f.uploadIntentId = some u →
          (f.id ∈ F ↔ u ∈ (w.siblings intent).filterMap (·.uploadIntentId)) := by
        intro f hf u hu
        constructor
        · intro hF
          rcases (hfree f.id hF).2 with hnil | ⟨s, hs, hlink⟩
          · cases hnil
          · rcases hinv.linked s ((hsibling s).mp hs).1 f.id hlink with ⟨_, _, g, hg, hid, hnames⟩
            have hgf : g = f := hinv.file_eq hg hf hid
            exact List.mem_filterMap.mpr ⟨s, hs, by rw [hnames.upload, hgf, hu]⟩
        · intro hU
          by_contra hF
          have hkept : f ∈ ((w.deleteFiles F).unlinkSiblings intent).files :=
            List.mem_filter.mpr ⟨hf, by simpa using hF⟩
          exact hrestrict f hkept u hU hu
      rw [remove_uploads_siblings]
      exact .submission intent hintent (by rw [hkind]; rfl) F hgone (fun x hx => (hfree x hx).1)
        huploads

/-! ## The other owners -/

/-- A file's row goes together with its upload intent. -/
theorem deleteFile_deleteUnusedUpload {w w' : Store} (hinv : Inv w) {file : StoredFile}
    (hfile : file ∈ w.files)
    (h : (w.deleteFile file.id).deleteUnusedUpload file.uploadIntentId = .ok w') :
    ∃ U, w' = w.remove [file.id] U (·.unlink [file.id] U)
      ∧ (∀ f ∈ w.files, ∀ u, f.uploadIntentId = some u → (f.id ∈ [file.id] ↔ u ∈ U))
      ∧ ∀ u ∈ U, file.uploadIntentId = some u := by
  have hdelete : w.deleteFile file.id = w.deleteFiles [file.id] := by
    rw [← deleteFile_deleteFiles, deleteFiles_nil]
  rw [hdelete] at h
  cases hupload : file.uploadIntentId with
  | none =>
      rw [hupload] at h
      have hw' : w.deleteFiles [file.id] = w' := pure_eq_ok.mp h
      refine ⟨[], hw'.symm, ?_, fun u hu => absurd hu List.not_mem_nil⟩
      intro f hf u hu
      constructor
      · intro hid
        rw [hinv.file_eq hf hfile (List.mem_singleton.mp hid), hupload] at hu
        cases hu
      · intro hnil
        cases hnil
  | some u =>
      have honly : ∀ f ∈ w.files, f.uploadIntentId = some u → f = file :=
        fun f hf hu => hinv.onePerUpload f hf file hfile u hu hupload
      rw [hupload] at h
      rcases ite_eq_ok.mp h with ⟨hkept, _⟩ | ⟨_, h⟩
      · -- no other file holds the intent, and the intent is there
        exfalso
        rcases hkept with hother | habsent
        · rcases List.any_eq_true.mp hother with ⟨f, hf, hu⟩
          rcases List.mem_filter.mp hf with ⟨hf, hid⟩
          have hsame := honly f hf (by simpa using hu)
          simp [hsame] at hid
        · cases hinv.source file hfile with
          | upload scope u' hu' confirmed upload key =>
              have hid : u'.id = u := Option.some.inj (upload.symm.trans hupload)
              have hmem : u' ∈ (w.deleteFiles [file.id]).uploads :=
                List.mem_filter.mpr ⟨hu', by simp⟩
              refine lookup_eq_none.mp (Option.isNone_iff_eq_none.mp habsent) u' hmem hid
          | report name upload key =>
              rw [upload] at hupload
              cases hupload
      · rcases deleteUploads_ok h with ⟨_, rfl⟩
        refine ⟨[u], ?_, ?_, fun u' hu' => congrArg some (List.mem_singleton.mp hu').symm⟩
        · simp only [Store.deleteFiles, Store.remove, List.map_map, Store.mk.injEq, true_and,
            and_true]
          refine ⟨by simp, by simp, List.map_congr_left ?_⟩
          intro d _
          exact unlink_unlink d [file.id] [u]
        · intro f hf u' hu'
          constructor
          · intro hid
            rw [hinv.file_eq hf hfile (List.mem_singleton.mp hid), hupload] at hu'
            cases hu'
            exact List.mem_singleton_self _
          · intro hu
            rw [honly f hf (List.mem_singleton.mp hu ▸ hu')]
            exact List.mem_singleton_self _

/-- The receipts of an expired upload are completed, and the intent marked. -/
theorem Inv.expireUpload {w : Store} (hinv : Inv w) {intent : StoredObjectDeletion}
    (hintent : intent ∈ w.deletions) (hopen : intent.state ≠ .completed)
    (hnone : intent.storedFileId = none) {uploadId : Id}
    (hupload : intent.uploadIntentId = some uploadId) :
    Inv (({ w with uploads := w.uploads.map (fun u =>
      if u.id = uploadId then { u with status := .expired } else u) } : Store).completeSiblings
        intent) := by
  rcases (hinv.unlinked intent hintent hopen hnone).2 uploadId hupload with ⟨howner, hspent⟩
  have hkeep : ∀ u : FileUploadIntent,
      (if u.id = uploadId then { u with status := .expired } else u).id = u.id := by
    intro u
    split <;> rfl
  have hexpired : Inv { w with uploads := w.uploads.map (fun u =>
      if u.id = uploadId then { u with status := .expired } else u) } := by
    refine
      { hinv with
        uploadIds := by rw [keys_of_map _ _ _ hkeep]; exact hinv.uploadIds
        uploadKeys := ?_
        source := ?_
        unlinked := ?_ }
    · intro u' hu'
      rcases List.mem_map.mp hu' with ⟨u, hu, rfl⟩
      split <;> exact hinv.uploadKeys u hu
    · intro f hf
      cases hinv.source f hf with
      | upload scope u hu confirmed upload key =>
          -- the expired intent has no file, so it is not this one
          have hne : u.id ≠ uploadId := by
            rintro rfl
            exact hspent.1 f hf upload
          refine .upload scope u (List.mem_map.mpr ⟨u, hu, by simp [hne]⟩) confirmed upload key
      | report name upload key => exact .report name upload key
    · intro d hd hdopen hdnone
      refine @Inv.unlinked_mono w _ hinv ?_ ?_ d hd hdopen hdnone
      · rintro d hd u - ⟨hfiles, huploads⟩
        refine ⟨hfiles, ?_⟩
        intro u' hu' hid
        rcases List.mem_map.mp hu' with ⟨old, hold, rfl⟩
        rw [hkeep] at hid
        have hover := huploads old hold hid
        split <;> exact hover
      · intro d _ name _ hreport
        exact hreport
  refine hexpired.complete (S := intent.SiblingOf) ?_
  intro d hd hsib
  cases hlink : d.storedFileId with
  | none => rfl
  | some x => exact absurd (hsib.1.trans howner) (hinv.linked d hd x hlink).2.1

/-! ## The transaction -/

theorem Inv.completeIntent {w : Store} (hinv : Inv w) {intentId : Id}
    (hnone : ∀ d ∈ w.deletions, d.id = intentId → d.storedFileId = none) :
    Inv (w.rewriteDeletion intentId (fun d => { d with state := .completed })) :=
  hinv.complete (S := fun d => d.id = intentId) hnone

theorem finalizeStoredObjectDeletion_ok {w w' : Store} (hinv : Inv w) {intentId : Id}
    {finished : Bool} (h : finalizeStoredObjectDeletion w intentId = .ok (w', finished)) :
    Finalization w w' := by
  unfold finalizeStoredObjectDeletion at h
  cases hlookup : w.deletion? intentId with
  | none =>
      simp only [hlookup] at h
      cases pure_eq_ok.mp h
      exact .same
  | some intent =>
      simp only [hlookup] at h
      rcases mem_of_lookup hlookup with ⟨hintent, rfl⟩
      rcases ite_eq_ok.mp h with ⟨_, h⟩ | ⟨hopen, h⟩
      · cases pure_eq_ok.mp h
        exact .same
      rcases ite_eq_ok.mp h with ⟨_, h⟩ | ⟨_, h⟩
      · cases pure_eq_ok.mp h
        exact .same
      cases hkind : intent.ownerType.kycKind with
      | some kind =>
          simp only [hkind] at h
          exact finalizeKycOwner_ok hinv hintent hkind h
      | none =>
          cases hlink : intent.storedFileId with
          | some fileId =>
              rcases hinv.linked intent hintent fileId hlink with ⟨_, _, f, hf, hid, hnames⟩
              cases hfile : w.file? fileId with
              -- an open receipt keeps its file row
              | none => exact absurd hid (lookup_eq_none.mp hfile f hf)
              | some file =>
                  simp only [hkind, hlink, hfile] at h
                  rcases mem_of_lookup hfile with ⟨hmem, rfl⟩
                  rcases ite_eq_ok.mp h with ⟨_, h⟩ | ⟨hreferenced, h⟩
                  · cases pure_eq_ok.mp h
                    exact .same
                  · rcases bind_eq_ok.mp h with ⟨v, hv, h⟩
                    cases pure_eq_ok.mp h
                    -- the file goes, with the uploads that only it used
                    have hfree : w.Unreferenced file.id :=
                      unreferenced_iff.mp (Bool.eq_false_iff.mpr hreferenced)
                    rcases deleteFile_deleteUnusedUpload hinv hmem hv with ⟨U, rfl, huploads, hheld⟩
                    exact .file intent hintent file hmem hlink U hfree huploads hheld
          | none =>
              cases hupload : intent.uploadIntentId with
              | none =>
                  simp only [hkind, hlink, hupload] at h
                  cases pure_eq_ok.mp h
                  exact .alone intent hintent hlink hupload
              | some uploadId =>
                  simp only [hkind, hlink, hupload] at h
                  rcases ite_eq_ok.mp h with ⟨_, h⟩ | ⟨_, h⟩
                  · cases pure_eq_ok.mp h
                    exact .same
                  · cases pure_eq_ok.mp h
                    exact .upload intent hintent hopen hlink uploadId hupload

/-- Finalization keeps the invariant. -/
theorem Inv.finalization {w w' : Store} (hinv : Inv w) (h : Finalization w w') : Inv w' := by
  cases h with
  | same => exact hinv
  | submission intent hintent kyc F gone free uploads =>
      refine hinv.removal (S := intent.SiblingOf) ?_ ?_ ?_ gone uploads
      · intro d
        unfold StoredObjectDeletion.close
        split <;> exact ⟨rfl, rfl, rfl, rfl, rfl⟩
      · intro d _ hsib
        simp [StoredObjectDeletion.close, hsib]
      · intro d _ hsib
        simp [StoredObjectDeletion.close, hsib]
  | file intent hintent file hfile link U free uploads held =>
      have hremoved : Inv (w.remove [file.id] U (·.unlink [file.id] U)) :=
        hinv.removal (S := fun _ => False) (fun d => ⟨rfl, rfl, rfl, rfl, rfl⟩)
          (fun _ _ hS => hS.elim) (fun _ _ _ => rfl) (fun _ _ hS => hS.elim) uploads
      refine hremoved.completeIntent ?_
      intro d' hd' hid'
      rcases List.mem_map.mp hd' with ⟨d, hd, rfl⟩
      have hsame : d = intent := eq_of_key_eq hinv.deletionIds hd hintent hid'
      simp [StoredObjectDeletion.unlink, hsame, link, Option.filter]
  | upload intent hintent opened unlinked uploadId upload =>
      exact hinv.expireUpload hintent opened unlinked upload
  | alone intent hintent unlinked noUpload =>
      refine hinv.completeIntent ?_
      intro d hd hid
      rw [eq_of_key_eq hinv.deletionIds hd hintent hid]
      exact unlinked

/-- And it removes nothing that is referenced. -/
theorem Finalization.finalized {w w' : Store} (h : Finalization w w') : Finalized w w' := by
  cases h with
  | same => exact .refl w
  | submission intent hintent kyc F gone free uploads => exact .remove free uploads
  | file intent hintent file hfile link U free uploads held =>
      have hrows := Finalized.remove (g := (·.unlink [file.id] U))
        (fun x hx => List.mem_singleton.mp hx ▸ free) uploads
      exact ⟨rfl, rfl, rfl, hrows.files, hrows.uploads⟩
  | upload intent hintent opened unlinked uploadId upload =>
      refine ⟨rfl, rfl, rfl, (Finalized.refl w).files, ?_⟩
      intro u hu hgone
      -- the upload changes its status and stays
      refine absurd (List.mem_map.mpr ⟨_, List.mem_map_of_mem hu, ?_⟩) hgone
      split <;> rfl
  | alone intent hintent unlinked noUpload =>
      exact ⟨rfl, rfl, rfl, (Finalized.refl w).files, (Finalized.refl w).uploads⟩

end Files
end Mobility
