import Mobility.Files.Finalization

/-!
# Safety — no live document loses its file

The step theorem of the component, over every interleaving of its transactions: an object goes
only when no row refers to its file, and so do a file's row and its upload intent.  The run
theorem reads off it: whatever refers to a file finds the row, and the object.
-/

namespace Mobility
namespace Files

open Lib

/-! ## The invariant of every run -/

section Runs

variable [DeletionHashing]

theorem authorizeUploadExpiry_effect {w w' : Store} (hinv : Inv w) {uploadId : Id}
    {newId : Bool → Id} (h : authorizeUploadExpiry w uploadId newId = .ok w') : Effect w w' := by
  rcases bind_eq_ok.mp h with ⟨intent, hintent, h⟩
  rcases bind_eq_ok.mp h with ⟨_, hopen, h⟩
  rcases bind_eq_ok.mp h with ⟨⟨w₁, first⟩, hfirst, h⟩
  rcases bind_eq_ok.mp h with ⟨⟨w₂, second⟩, hsecond, h⟩
  cases pure_eq_ok.mp h
  rcases mem_of_lookup (demand_eq_ok.mp hintent) with ⟨hmem, _⟩
  rcases require_eq_ok.mp hopen with ⟨hpending, hexpired, _⟩
  -- a pending intent has no file, and an expired one gets none
  have hspent : w.Spent intent.id := by
    refine ⟨?_, ?_⟩
    · intro f hf hupload
      cases hinv.source f hf with
      | upload scope u hu confirmed upload key =>
          have hid : u.id = intent.id := Option.some.inj (upload.symm.trans hupload)
          have hsame : u = intent := eq_of_key_eq hinv.uploadIds hu hmem hid
          rw [hsame, hpending] at confirmed
          cases confirmed
      | report name upload key =>
          rw [upload] at hupload
          cases hupload
    · intro u hu hid
      have hsame : u = intent := eq_of_key_eq hinv.uploadIds hu hmem hid
      exact hsame ▸ hexpired
  rcases ensureStoredObjectDeletion_ok hfirst with ⟨new, rfl, hids, hnew⟩
  rcases ensureStoredObjectDeletion_ok hsecond with ⟨more, rfl, hmoreIds, hmore⟩
  have hstore : ({ w with deletions := w.deletions ++ new ++ more } : Store)
      = { w with deletions := w.deletions ++ (new ++ more) } := by
    rw [List.append_assoc]
  show Effect w { w with deletions := w.deletions ++ new ++ more }
  rw [hstore]
  have howner : ∀ d ∈ new ++ more, d.ownerType = .fileUploadIntent := by
    intro d hd
    rcases List.mem_append.mp hd with hd | hd
    · exact (hnew d hd).2.2.2.2.2.1
    · exact (hmore d hd).2.2.2.2.2.1
  refine .receipts (new ++ more) w.submissions w.documents (fun d hd => hd) ?_ ?_ ?_ ?_ id
  · intro hnodup
    rw [← List.append_assoc]
    exact hmoreIds (hids hnodup)
  · intro d hd
    rcases List.mem_append.mp hd with hd | hd
    · exact (hnew d hd).2.1
    · exact (hmore d hd).2.1
  · intro d hd
    rcases List.mem_append.mp hd with hd | hd
    · rcases hnew d hd with ⟨_, _, hlink, hupload, hkey, howner, hownerId, _⟩
      refine .upload intent.id howner hownerId hlink hupload ?_ hspent
      rw [hkey]
      dsimp only
      rw [hinv.uploadKeys intent hmem]
      trivial
    · rcases hmore d hd with ⟨_, _, hlink, hupload, hkey, howner, hownerId, _⟩
      refine .upload intent.id howner hownerId hlink hupload ?_ hspent
      rw [hkey]
      exact hspent
  · intro d hd hretired
    rw [howner d hd] at hretired
    cases hretired

/-- What one step is: a finalization, or one of the effects. -/
theorem step_cases {w w' : Store} (hinv : Inv w) {a : Action} (h : step w a = .ok w') :
    Finalization w w' ∨ Effect w w' := by
  cases a with
  | tick now =>
      rcases bind_eq_ok.mp h with ⟨_, hlater, h⟩
      rw [← pure_eq_ok.mp h]
      exact .inr (.tick now (require_eq_ok.mp hlater))
  | put key =>
      rw [← pure_eq_ok.mp h]
      exact .inr (.put key)
  | createUpload intent => exact .inr (createUpload_effect h)
  | confirmUpload uploadId scope actorUserId newFileId promoted =>
      exact .inr (confirmUpload_effect h)
  | scan fileId verdict =>
      rw [← pure_eq_ok.mp h]
      exact .inr (.scan fileId verdict)
  | bindCreative creativeId organizationId fileId => exact .inr (bindCreative_effect h)
  | attachPhotos driverUserId submissionId fileIds =>
      exact .inr (attachInstallationPhotos_effect h)
  | addReportArtifact reportId newFileId organizationId requestedByUserId name contentType checksum =>
      exact .inr (addReportArtifact_effect h)
  | submitDriverKyc request answers submissionId => exact .inr (submitDriverKyc_effect h)
  | rewrapDriverNin probeId rotated submissionId clientRequestId =>
      exact .inr (rewrapDriverNin_effect h)
  | submitVehicleEvidence request answers submissionId =>
      exact .inr (submitVehicleEvidence_effect h)
  | submitVehicleProfile request answers submissionId =>
      exact .inr (submitVehicleProfile_effect h)
  | decide kind submissionId subjectUserId decision reviewed =>
      exact .inr (decideSubmission_effect h)
  | authorizePurge kind submissionId cutoff reason newId =>
      rcases map_eq_ok.mp h with ⟨⟨v, deletions⟩, h', rfl⟩
      exact .inr (authorizePurge_effect h')
  | authorizeUploadExpiry uploadId newId => exact .inr (authorizeUploadExpiry_effect hinv h)
  | retireDriverAgreement fileId newId => exact .inr (retireDriverAgreement_effect h)
  | deleteObject intentId answer =>
      rcases map_eq_ok.mp h with ⟨⟨v, raised⟩, h', rfl⟩
      exact .inr (deleteStoredObject_effect h')
  | recoverObject intentId answer =>
      rcases bind_eq_ok.mp h with ⟨_, _, h⟩
      rcases map_eq_ok.mp h with ⟨⟨v, raised⟩, h', rfl⟩
      exact .inr (deleteStoredObject_effect h')
  | finalize intentId =>
      rcases map_eq_ok.mp h with ⟨⟨v, finished⟩, h', rfl⟩
      exact .inl (finalizeStoredObjectDeletion_ok hinv h')

theorem reachable_inv {w : Store} (hw : Reachable fileSystem w) : Inv w := by
  refine ReachableBy.invariant Inv Inv.init ?_ hw
  intro w a w' hinv _ hstep
  rcases step_cases hinv hstep with hfinal | heffect
  · exact hinv.finalization hfinal
  · exact hinv.effect heffect

/-! ## The theorems -/

/-- An object is deleted, and a stored file's row and its upload intent are removed, only
while no document, creative, installation photo or report artifact refers to the file. -/
theorem only_unreferenced_files_go {w w' : Store} {a : Action} (hw : Reachable fileSystem w)
    (hstep : step w a = .ok w') :
    (∀ key ∈ w.objects, key ∉ w'.objects →
        ∀ f ∈ w.files, f.storageKey = key → w.Unreferenced f.id)
      ∧ (∀ f ∈ w.files, (∀ f' ∈ w'.files, f'.id ≠ f.id) → w.Unreferenced f.id)
      ∧ ∀ u ∈ w.uploads, (∀ u' ∈ w'.uploads, u'.id ≠ u.id) →
          ∀ f ∈ w.files, f.uploadIntentId = some u.id → w.Unreferenced f.id := by
  have hinv := reachable_inv hw
  rcases step_cases hinv hstep with hfinalization | heffect
  · have hfinal := hfinalization.finalized
    refine ⟨?_, ?_, ?_⟩
    · intro key hkey hgone
      exact absurd (hfinal.objects ▸ hkey) hgone
    · intro f hf hgone
      exact hfinal.files f hf (fun hkept => hgone f hkept rfl)
    · intro u hu hgone
      refine hfinal.uploads u hu ?_
      intro hkept
      rcases List.mem_map.mp hkept with ⟨u', hu', hid⟩
      exact hgone u' hu' hid
  · refine ⟨?_, ?_, ?_⟩
    · intro key hkey hgone f hf hfile
      exact heffect.removed_free hinv hkey hgone hf hfile
    · intro f hf hgone
      rcases heffect.keeps.1 f hf with ⟨f', hf', hid⟩
      exact absurd hid (hgone f' hf')
    · intro u hu hgone
      rcases heffect.keeps.2 u hu with ⟨u', hu', hid⟩
      exact absurd hid (hgone u' hu')

end Runs

/-- A digest that tells the sample receipts apart. -/
@[reducible]
def sampleDeletionHashing : DeletionHashing where
  sha256 request :=
    match request.storageKey with
    | .managed _ 1 => "license"
    | _ => "photo"

def sampleUpload (id : Id) : FileUploadIntent :=
  { id := id
    scope := { organizationId := none, subjectUserId := some 7 }
    uploaderUserId := 7
    clientRequestId := id
    requestFingerprint := "upload"
    purpose := .driverKyc
    declaredSha256 := "checksum"
    objectKey := .unconfirmed { organizationId := none, subjectUserId := some 7 } id
    expiresAt := 100 }

def sampleRequest : DriverKycRequest :=
  { actorUserId := 7
    driverProfileId := 8
    clientRequestId := 9
    documentFileIds := [(.driverLicense, 11), (.driverPhoto, 12)]
    allowDocumentRenewal := false }

def sampleAnswers : DriverKycAnswers :=
  { admitted := .ok ⟨⟩
    sameRequest := true
    bankVersion := .ok ⟨⟩
    naturallyExpired := false
    consentMissing := false
    protection := .ok ⟨⟩ }

/-- Two files are submitted, rejected, and their purge is authorized. -/
def samplePurge : List Action :=
  [.createUpload (sampleUpload 1), .createUpload (sampleUpload 2),
   .confirmUpload 1 (sampleUpload 1).scope 7 11 (.ok ("image/png", "checksum")),
   .confirmUpload 2 (sampleUpload 2).scope 7 12 (.ok ("image/png", "checksum")),
   .scan 11 .clean, .scan 12 .clean,
   .submitDriverKyc sampleRequest sampleAnswers 20,
   .decide .driver 20 7 .rejected (.ok ⟨⟩),
   .tick 1000,
   .authorizePurge .driver 20 500 "retention" (· + 100)]

/-- The provider deletes the first object of the purge. -/
theorem only_unreferenced_files_go_purge :
    ∃ w w', Reachable (@fileSystem sampleDeletionHashing) w
      ∧ @step sampleDeletionHashing w (.deleteObject 111 .deleted) = .ok w'
      ∧ (∃ key ∈ w.objects, key ∉ w'.objects)
      ∧ (∀ key ∈ w.objects, key ∉ w'.objects →
          ∀ f ∈ w.files, f.storageKey = key → w.Unreferenced f.id)
      ∧ (∀ f ∈ w.files, (∀ f' ∈ w'.files, f'.id ≠ f.id) → w.Unreferenced f.id)
      ∧ ∀ u ∈ w.uploads, (∀ u' ∈ w'.uploads, u'.id ≠ u.id) →
          ∀ f ∈ w.files, f.uploadIntentId = some u.id → w.Unreferenced f.id := by
  rcases Machine.exists_step (@fileSystem sampleDeletionHashing) samplePurge
    (.deleteObject 111 .deleted) (fun w w' => decide (∃ key ∈ w.objects, key ∉ w'.objects))
    (by decide +kernel) with ⟨w, w', hw, hstep, htest⟩
  exact ⟨w, w', hw, hstep, of_decide_eq_true htest,
    @only_unreferenced_files_go sampleDeletionHashing w w' (.deleteObject 111 .deleted) hw hstep⟩

section Live

variable [DeletionHashing]

/-- Whatever refers to a file finds it stored. -/
theorem references_stored {w : Store} (hw : Reachable fileSystem w) :
    (∀ d ∈ w.documents, ∃ f ∈ w.files, f.id = d.storedFileId)
      ∧ ∀ a ∈ w.attachments, ∃ f ∈ w.files, f.id = a.storedFileId := by
  refine ReachableBy.invariant_of Inv (fun _ => reachable_inv)
    (fun w => (∀ d ∈ w.documents, ∃ f ∈ w.files, f.id = d.storedFileId)
      ∧ ∀ a ∈ w.attachments, ∃ f ∈ w.files, f.id = a.storedFileId) ?_ ?_ hw
  · exact ⟨fun d hd => absurd hd List.not_mem_nil, fun a ha => absurd ha List.not_mem_nil⟩
  · rintro w a w' hinv ⟨hdocuments, hattachments⟩ _ hstep
    rcases step_cases hinv hstep with hfinalization | heffect
    · have hfinal := hfinalization.finalized
      -- a removed file is unreferenced, so it is none of these
      have hkept : ∀ fileId, ¬ w.Unreferenced fileId → (∃ f ∈ w.files, f.id = fileId) →
          ∃ f ∈ w'.files, f.id = fileId := by
        rintro fileId hheld ⟨f, hf, rfl⟩
        by_contra hgone
        exact hheld (hfinal.files f hf (fun hf' => hgone ⟨f, hf', rfl⟩))
      refine ⟨?_, ?_⟩
      · intro d hd
        have hd : d ∈ w.documents := hfinal.documents ▸ hd
        exact hkept _ (fun hfree => hfree.1 d hd rfl) (hdocuments d hd)
      · intro a ha
        have ha : a ∈ w.attachments := hfinal.attachments ▸ ha
        exact hkept _ (fun hfree => hfree.2 a ha rfl) (hattachments a ha)
    · refine ⟨?_, ?_⟩
      · intro d hd
        rcases heffect.documents d hd with hd | hstored
        · rcases hdocuments d hd with ⟨f, hf, hid⟩
          rcases heffect.keeps.1 f hf with ⟨f', hf', hid'⟩
          exact ⟨f', hf', hid'.trans hid⟩
        · exact hstored
      · intro a ha
        rcases heffect.attachments a ha with ha | hstored
        · rcases hattachments a ha with ⟨f, hf, hid⟩
          rcases heffect.keeps.1 f hf with ⟨f', hf', hid'⟩
          exact ⟨f', hf', hid'.trans hid⟩
        · exact hstored

/-- No live document, and no other row that holds a file, loses the file or its object. -/
theorem live_file_present {w : Store} (hw : Reachable fileSystem w) {fileId : Id}
    (hlive : ¬ w.Unreferenced fileId) :
    ∃ f ∈ w.files, f.id = fileId ∧ f.storageKey ∈ w.objects := by
  have hstored : ∃ f ∈ w.files, f.id = fileId := by
    by_contra hnone
    refine hlive ⟨?_, ?_⟩
    · rintro d hd rfl
      exact hnone ((references_stored hw).1 d hd)
    · rintro a ha rfl
      exact hnone ((references_stored hw).2 a ha)
  rcases hstored with ⟨f, hf, rfl⟩
  refine ⟨f, hf, rfl, ?_⟩
  by_contra hgone
  exact hlive ((reachable_inv hw).present f hf hgone).1

end Live

end Files
end Mobility
