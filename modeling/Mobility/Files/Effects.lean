import Mobility.Files.Retention
import Mobility.Lib.Table

/-!
# Effects — what each transaction writes

Every transaction except finalization, inverted into one of the constructors of `Effect`.  The
proofs of the invariant case on these and never look at the code of a transaction again.
-/

namespace Mobility
namespace Files

open Lib

/-! ## References -/

/-- No document and no attachment holds the file. -/
def Store.Unreferenced (w : Store) (fileId : Id) : Prop :=
  (∀ d ∈ w.documents, d.storedFileId ≠ fileId) ∧ ∀ a ∈ w.attachments, a.storedFileId ≠ fileId

theorem documentRefers_eq_false {w : Store} {kind : KycKind} {fileId : Id} {excluded : Option Id} :
    w.documentRefers kind fileId excluded = false ↔
      ∀ d ∈ w.documents, d.kind = kind → d.storedFileId = fileId → excluded = some d.submissionId := by
  cases excluded with
  | none => simp [Store.documentRefers]
  | some s =>
      simp only [Store.documentRefers, List.any_eq_false, decide_eq_true_eq, Option.all_some,
        not_and, not_not, Option.some.injEq]
      constructor
      · intro h d hd hkind hfile
        exact (h d hd hkind hfile).symm
      · intro h d hd hkind hfile
        exact (h d hd hkind hfile).symm

theorem attachmentRefers_eq_false {w : Store} {table : AttachmentTable} {fileId : Id} :
    w.attachmentRefers table fileId = false ↔
      ∀ a ∈ w.attachments, a.table = table → a.storedFileId ≠ fileId := by
  simp [Store.attachmentRefers]

/-- What `_file_is_referenced` leaves once it answers no. -/
theorem fileIsReferenced_eq_false {w : Store} {fileId : Id} {driver vehicle : Option Id} :
    w.fileIsReferenced fileId driver vehicle = false ↔
      (∀ d ∈ w.documents, d.storedFileId = fileId →
        (match d.kind with | .driver => driver | .vehicle => vehicle) = some d.submissionId)
      ∧ ∀ a ∈ w.attachments, a.storedFileId ≠ fileId := by
  simp only [Store.fileIsReferenced, Bool.or_eq_false_iff, documentRefers_eq_false,
    attachmentRefers_eq_false]
  constructor
  · rintro ⟨⟨⟨⟨hdriver, hvehicle⟩, hcreative⟩, hphoto⟩, hartifact⟩
    refine ⟨?_, ?_⟩
    · intro d hd hfile
      cases hkind : d.kind with
      | driver => exact hdriver d hd hkind hfile
      | vehicle => exact hvehicle d hd hkind hfile
    · intro a ha
      cases htable : a.table with
      | campaignCreative => exact hcreative a ha htable
      | installationEvidencePhoto => exact hphoto a ha htable
      | reportArtifact => exact hartifact a ha htable
  · rintro ⟨hdocuments, hattachments⟩
    refine ⟨⟨⟨⟨?_, ?_⟩, fun a ha _ => hattachments a ha⟩, fun a ha _ => hattachments a ha⟩,
      fun a ha _ => hattachments a ha⟩
    · intro d hd hkind hfile
      have hexcluded := hdocuments d hd hfile
      rwa [hkind] at hexcluded
    · intro d hd hkind hfile
      have hexcluded := hdocuments d hd hfile
      rwa [hkind] at hexcluded

theorem unreferenced_iff {w : Store} {fileId : Id} :
    w.fileIsReferenced fileId none none = false ↔ w.Unreferenced fileId := by
  rw [fileIsReferenced_eq_false, Store.Unreferenced]
  refine and_congr_left fun _ => ?_
  constructor
  · intro h d hd hfile
    have hnone := h d hd hfile
    cases hkind : d.kind with
    | driver => rw [hkind] at hnone; cases hnone
    | vehicle => rw [hkind] at hnone; cases hnone
  · intro h d hd hfile
    exact absurd hfile (h d hd)

/-- A file that only the retired submission referred to is free once its documents are gone. -/
theorem unreferenced_retirePayload {w : Store} {kind : KycKind} {submissionId fileId : Id}
    (h : w.fileIsReferenced fileId (excludedFor kind .driver submissionId)
      (excludedFor kind .vehicle submissionId) = false) :
    (w.retirePayload kind submissionId).Unreferenced fileId := by
  rcases fileIsReferenced_eq_false.mp h with ⟨hdocuments, hattachments⟩
  refine ⟨?_, hattachments⟩
  intro d hd hfile
  rcases List.mem_filter.mp hd with ⟨hd, hkept⟩
  have hexcluded := hdocuments d hd hfile
  refine (of_decide_eq_true hkept : ¬ (d.kind = kind ∧ d.submissionId = submissionId)) ?_
  cases kind <;> cases hkind : d.kind <;> simp_all [excludedFor]

/-! ## Keys that no file can have -/

/-- The upload intent has no file and can get none any more. -/
def Store.Spent (w : Store) (uploadId : Id) : Prop :=
  (∀ f ∈ w.files, f.uploadIntentId ≠ some uploadId)
    ∧ ∀ u ∈ w.uploads, u.id = uploadId → u.expiresAt ≤ w.clock

/-- No stored file has the key, and no promotion will make one. -/
def Store.Dead (w : Store) : StorageKey → Prop
  | .unconfirmed _ _ => True
  | .managed _ uploadId => w.Spent uploadId
  | .report name => ∀ f ∈ w.files, f.storageKey ≠ .report name

/-! ## Receipts -/

/-- A receipt that names the file whose object it deletes. -/
structure StoredObjectDeletion.Names (d : StoredObjectDeletion) (f : StoredFile) : Prop where
  file : d.storedFileId = some f.id
  key : d.storageKey = f.storageKey
  upload : d.uploadIntentId = f.uploadIntentId
  retired : d.ownerType = .retiredDriverAgreement → d.ownerId = f.id

/-- What `retireDriverAgreement` asks for a file. -/
def StoredFile.retirement (file : StoredFile) : DeletionRequest :=
  { storageKey := file.storageKey
    objectChecksumSha256 := file.checksumSha256
    reason := "agreement_replaced"
    ownerType := .retiredDriverAgreement
    ownerId := file.id
    scope := file.scope }

/-- A new receipt, by the transaction that goes from `w` to `w'`. -/
inductive NewReceipt [DeletionHashing] (w w' : Store) (d : StoredObjectDeletion) : Prop
  | file (f : StoredFile) (hf : f ∈ w.files) (names : d.Names f)
      (notUpload : d.ownerType ≠ .fileUploadIntent)
      (free : d.ownerType ≠ .retiredDriverAgreement → w'.Unreferenced f.id)
      (first : d.ownerType = .retiredDriverAgreement →
        d.requestFingerprint = DeletionHashing.sha256 f.retirement
          ∧ ∀ e ∈ w.deletions, e.requestFingerprint ≠ d.requestFingerprint)
  | upload (uploadId : Id) (owner : d.ownerType = .fileUploadIntent) (ownerId : d.ownerId = uploadId)
      (unlinked : d.storedFileId = none) (upload : d.uploadIntentId = some uploadId)
      (dead : w.Dead d.storageKey) (spent : w.Spent uploadId)

/-- The fields of a receipt that never change. -/
structure SameReceipt (d d' : StoredObjectDeletion) : Prop where
  id : d'.id = d.id
  ownerType : d'.ownerType = d.ownerType
  ownerId : d'.ownerId = d.ownerId
  storageKey : d'.storageKey = d.storageKey
  requestFingerprint : d'.requestFingerprint = d.requestFingerprint

/-- The owner's guard, as `delete_stored_object` leaves it. -/
def Store.MayDelete (w : Store) (d : StoredObjectDeletion) : Prop :=
  d.ownerType = .retiredDriverAgreement → w.Unreferenced d.ownerId

/-- What the hooks of a reference leave: no open receipt names the file, and it is stored. -/
def Store.MayRefer (w : Store) (fileId : Id) : Prop :=
  ¬ w.Fenced fileId ∧ ∃ f ∈ w.files, f.id = fileId

/-- Identifiers of submissions are unique, and a purged submission is terminal and has no
documents. -/
structure RetiredPayloads (submissions : List KycSubmission) (documents : List KycDocument) :
    Prop where
  ids : (submissions.map (fun s => (s.kind, s.id))).Nodup
  terminal : ∀ s ∈ submissions, s.purgedAt.isSome = true → s.status ∈ terminalKycStatuses
  detached : ∀ s ∈ submissions, s.purgedAt.isSome = true →
    ∀ d ∈ documents, ¬ (d.kind = s.kind ∧ d.submissionId = s.id)

/-! ## Effects -/

/-- What a transaction other than finalization leaves of the store `w`. -/
inductive Effect [DeletionHashing] (w : Store) : Store → Prop
  | same : Effect w w
  | tick (now : Int) (later : w.clock ≤ now) : Effect w { w with clock := now }
  | put (key : StorageKey) : Effect w { w with objects := key :: w.objects }
  | upload (intent : FileUploadIntent)
      (key : intent.objectKey = .unconfirmed intent.scope intent.id)
      (fresh : ∀ u ∈ w.uploads, u.id ≠ intent.id)
      (unheld : ∀ d ∈ w.deletions, d.uploadIntentId ≠ some intent.id
        ∧ d.storageKey.uploadId? ≠ some intent.id) :
      Effect w { w with uploads := w.uploads ++ [intent] }
  | confirm (intent : FileUploadIntent) (hintent : intent ∈ w.uploads) (file : StoredFile)
      (unused : ∀ f ∈ w.files, f.uploadIntentId ≠ some intent.id)
      (running : w.clock < intent.expiresAt)
      (fileUpload : file.uploadIntentId = some intent.id) (scope : FileScope)
      (fileKey : file.storageKey = .managed scope intent.id)
      (freshId : ∀ f ∈ w.files, f.id ≠ file.id)
      (freshKey : ∀ f ∈ w.files, f.storageKey ≠ file.storageKey) :
      Effect w { w with
        files := w.files ++ [file]
        uploads := w.uploads.map (fun u =>
          if u.id = intent.id then { u with status := .confirmed } else u)
        objects := file.storageKey :: w.objects }
  | scan (fileId : Id) (verdict : FileScanStatus) : Effect w (scanStoredFile w fileId verdict)
  | artifact (file : StoredFile) (attachment : FileAttachment) (name : String)
      (noUpload : file.uploadIntentId = none) (fileKey : file.storageKey = .report name)
      (stored : .report name ∈ w.objects)
      (freshId : ∀ f ∈ w.files, f.id ≠ file.id)
      (freshKey : ∀ f ∈ w.files, f.storageKey ≠ file.storageKey)
      (unheld : ∀ d ∈ w.deletions, d.storageKey ≠ .report name)
      (holds : attachment.storedFileId = file.id)
      (unfenced : ¬ w.Fenced attachment.storedFileId) :
      Effect w { w with
        files := w.files ++ [file]
        attachments := w.attachments ++ [attachment] }
  | refer (submissions : List KycSubmission) (documents : List KycDocument)
      (attachments : List FileAttachment)
      (newDocuments : ∀ d ∈ documents, d ∈ w.documents ∨ w.MayRefer d.storedFileId)
      (newAttachments : ∀ a ∈ attachments, a ∈ w.attachments ∨ w.MayRefer a.storedFileId)
      (payloads : RetiredPayloads w.submissions w.documents → RetiredPayloads submissions documents) :
      Effect w { w with
        submissions := submissions, documents := documents, attachments := attachments }
  | receipts (new : List StoredObjectDeletion) (submissions : List KycSubmission)
      (documents : List KycDocument) (fewer : ∀ d ∈ documents, d ∈ w.documents)
      (ids : (w.deletions.map (·.id)).Nodup → ((w.deletions ++ new).map (·.id)).Nodup)
      (pending : ∀ d ∈ new, d.state = .pending)
      (good : ∀ d ∈ new, NewReceipt w { w with documents := documents } d)
      (alone : ∀ d ∈ new, d.ownerType = .retiredDriverAgreement → new = [d])
      (payloads : RetiredPayloads w.submissions w.documents → RetiredPayloads submissions documents) :
      Effect w { w with
        deletions := w.deletions ++ new, submissions := submissions, documents := documents }
  | provider (intent : StoredObjectDeletion) (hintent : intent ∈ w.deletions)
      (pending : intent.state = .pending) (may : w.MayDelete intent) (removed : Bool)
      (f : StoredObjectDeletion → StoredObjectDeletion)
      (kept : ∀ d, SameReceipt d (f d) ∧ (f d).storedFileId = d.storedFileId
        ∧ (f d).uploadIntentId = d.uploadIntentId)
      (opened : ∀ d, (f d).state = .pending ∨ (f d).state = .providerDeleted) :
      Effect w ((if removed then w.removeObject intent.storageKey else w).rewriteDeletion intent.id f)
  | died (intent : StoredObjectDeletion) (hintent : intent ∈ w.deletions)
      (pending : intent.state = .pending) (may : w.MayDelete intent) :
      Effect w (w.removeObject intent.storageKey)

section Inversion

variable [DeletionHashing]

/-! ## References -/

omit [DeletionHashing] in
theorem guard_ok {w : Store} {fileId : Id} {u : Unit}
    (h : rejectReferenceToDeletingStoredObject w fileId = .ok u) : w.MayRefer fileId := by
  rcases bind_eq_ok.mp h with ⟨_, hfence, hstored⟩
  rcases Option.isSome_iff_exists.mp (require_eq_ok.mp hstored) with ⟨f, hf⟩
  exact ⟨require_eq_ok.mp hfence, f, mem_of_lookup hf⟩

omit [DeletionHashing] in
theorem addAttachment_ok {w w' : Store} {attachment : FileAttachment}
    (h : w.addAttachment attachment = .ok w') :
    w.MayRefer attachment.storedFileId
      ∧ w' = { w with attachments := w.attachments ++ [attachment] } := by
  rcases bind_eq_ok.mp h with ⟨_, hguard, h⟩
  exact ⟨guard_ok hguard, (pure_eq_ok.mp h).symm⟩

theorem bindCreative_effect {w w' : Store} {creativeId organizationId fileId : Id}
    (h : bindCreative w creativeId organizationId fileId = .ok w') : Effect w w' := by
  rcases bind_eq_ok.mp h with ⟨file, _, h⟩
  rcases bind_eq_ok.mp h with ⟨_, _, h⟩
  rcases bind_eq_ok.mp h with ⟨_, _, h⟩
  rcases ite_eq_ok.mp h with ⟨_, h⟩ | ⟨_, h⟩
  · exact pure_eq_ok.mp h ▸ .same
  · rcases addAttachment_ok h with ⟨hfree, rfl⟩
    refine .refer w.submissions w.documents _ (fun d hd => .inl hd) ?_ id
    intro a ha
    rcases List.mem_append.mp ha with ha | ha
    · exact .inl (List.mem_filter.mp ha).1
    · exact .inr (List.mem_singleton.mp ha ▸ hfree)

theorem attachInstallationPhotos_effect {w w' : Store} {driverUserId submissionId : Id}
    {fileIds : List Id} (h : attachInstallationPhotos w driverUserId submissionId fileIds = .ok w') :
    Effect w w' := by
  rcases bind_eq_ok.mp h with ⟨_, _, h⟩
  rcases bind_eq_ok.mp h with ⟨_, _, h⟩
  have hattached : ∃ attachments, w' = { w with attachments := attachments }
      ∧ ∀ a ∈ attachments, a ∈ w.attachments ∨ w.MayRefer a.storedFileId := by
    refine checkedFold_invariant (fun v => ∃ attachments, v = { w with attachments := attachments }
      ∧ ∀ a ∈ attachments, a ∈ w.attachments ∨ w.MayRefer a.storedFileId) ?_ fileIds h
      ⟨w.attachments, rfl, fun a ha => .inl ha⟩
    rintro v fileId v' ⟨attachments, rfl, hold⟩ hv'
    rcases addAttachment_ok hv' with ⟨hfree, rfl⟩
    refine ⟨_, rfl, ?_⟩
    intro a ha
    rcases List.mem_append.mp ha with ha | ha
    · exact hold a ha
    · exact .inr (List.mem_singleton.mp ha ▸ hfree)
  rcases hattached with ⟨attachments, rfl, hnew⟩
  exact .refer w.submissions w.documents attachments (fun d hd => .inl hd) hnew id

theorem addReportArtifact_effect {w w' : Store}
    {reportId newFileId organizationId requestedByUserId : Id} {name contentType : String}
    {checksum : Digest}
    (h : addReportArtifact w reportId newFileId organizationId requestedByUserId name contentType
      checksum = .ok w') : Effect w w' := by
  rcases bind_eq_ok.mp h with ⟨_, hstored, h⟩
  rcases bind_eq_ok.mp h with ⟨_, hids, h⟩
  rcases bind_eq_ok.mp h with ⟨_, hkeys, h⟩
  rcases bind_eq_ok.mp h with ⟨_, hunheld, h⟩
  rcases addAttachment_ok h with ⟨hfree, rfl⟩
  exact .artifact _ _ name rfl rfl (require_eq_ok.mp hstored) (require_eq_ok.mp hids)
    (require_eq_ok.mp hkeys) (require_eq_ok.mp hunheld) rfl hfree.1

/-! ## Uploads -/

theorem createUpload_effect {w w' : Store} {intent : FileUploadIntent}
    (h : createUpload w intent = .ok w') : Effect w w' := by
  rcases bind_eq_ok.mp h with ⟨_, hshape, h⟩
  rcases bind_eq_ok.mp h with ⟨_, hfresh, h⟩
  rcases bind_eq_ok.mp h with ⟨_, hunheld, h⟩
  rcases bind_eq_ok.mp h with ⟨_, _, h⟩
  rw [← pure_eq_ok.mp h]
  exact .upload intent (require_eq_ok.mp hshape).1 (require_eq_ok.mp hfresh)
    (require_eq_ok.mp hunheld)

theorem confirmUpload_effect {w w' : Store} {uploadId : Id} {scope : FileScope}
    {actorUserId newFileId : Id} {promoted : Except FileError (String × Digest)}
    (h : confirmUpload w uploadId scope actorUserId newFileId promoted = .ok w') :
    Effect w w' := by
  rcases bind_eq_ok.mp h with ⟨intent, hintent, h⟩
  have hmem : intent ∈ w.uploads := List.mem_of_find?_eq_some (demand_eq_ok.mp hintent)
  rcases ite_eq_ok.mp h with ⟨_, h⟩ | ⟨hunused, h⟩
  · exact pure_eq_ok.mp h ▸ .same
  · rcases bind_eq_ok.mp h with ⟨_, hrunning, h⟩
    rcases bind_eq_ok.mp h with ⟨_, _, h⟩
    rcases bind_eq_ok.mp h with ⟨_, hids, h⟩
    rcases bind_eq_ok.mp h with ⟨_, hkeys, h⟩
    have hunused' : ∀ f ∈ w.files, f.uploadIntentId ≠ some intent.id := by
      simpa using hunused
    rw [← pure_eq_ok.mp h]
    exact .confirm intent hmem _ hunused' (require_eq_ok.mp hrunning).2 rfl scope rfl
      (require_eq_ok.mp hids) (require_eq_ok.mp hkeys)

/-! ## Submissions -/

omit [DeletionHashing] in
theorem submission_found {w : Store} {kind : KycKind} {submissionId : Id} {s : KycSubmission}
    (h : w.submission? kind submissionId = some s) :
    s ∈ w.submissions ∧ s.kind = kind ∧ s.id = submissionId :=
  ⟨List.mem_of_find?_eq_some h, by simpa using List.find?_some h⟩

omit [DeletionHashing] in
theorem addDocument_ok {w w' : Store} {kind : KycKind} {submissionId : Id}
    {entry : DocumentType × Id} (h : w.addDocument kind submissionId entry = .ok w') :
    w.MayRefer entry.2
      ∧ (∃ s ∈ w.submissions, s.kind = kind ∧ s.id = submissionId ∧ s.purgedAt = none)
      ∧ ∃ d : KycDocument, d.kind = kind ∧ d.submissionId = submissionId ∧ d.storedFileId = entry.2
        ∧ w' = { w with documents := w.documents ++ [d] } := by
  rcases bind_eq_ok.mp h with ⟨s, hs, h⟩
  rcases bind_eq_ok.mp h with ⟨_, hpurged, h⟩
  rcases bind_eq_ok.mp h with ⟨_, hguard, h⟩
  rcases bind_eq_ok.mp h with ⟨_, _, h⟩
  rcases submission_found (demand_eq_ok.mp hs) with ⟨hmem, hkind, hid⟩
  exact ⟨guard_ok hguard, ⟨s, hmem, hkind, hid, require_eq_ok.mp hpurged⟩, _, rfl, rfl, rfl,
    (pure_eq_ok.mp h).symm⟩

omit [DeletionHashing] in
/-- A document of a submission that is not purged. -/
theorem RetiredPayloads.addDocument {submissions : List KycSubmission} {documents : List KycDocument}
    (h : RetiredPayloads submissions documents) {d : KycDocument} {s : KycSubmission}
    (hs : s ∈ submissions) (hkind : s.kind = d.kind) (hid : s.id = d.submissionId)
    (hkept : s.purgedAt = none) : RetiredPayloads submissions (documents ++ [d]) :=
  { h with
    detached := by
      intro t ht hpurged d' hd' hof
      rcases List.mem_append.mp hd' with hold | hnew
      · exact h.detached t ht hpurged d' hold hof
      · rw [List.mem_singleton.mp hnew] at hof
        have hsame : t = s :=
          eq_of_key_eq h.ids ht hs
            (Prod.ext (hof.1.symm.trans hkind.symm) (hof.2.symm.trans hid.symm))
        rw [hsame, hkept] at hpurged
        cases hpurged }

omit [DeletionHashing] in
/-- A new submission, not purged. -/
theorem RetiredPayloads.addSubmission {submissions : List KycSubmission}
    {documents : List KycDocument} (h : RetiredPayloads submissions documents) {s : KycSubmission}
    (hfresh : ∀ other ∈ submissions, other.kind = s.kind → other.id ≠ s.id)
    (hkept : s.purgedAt = none) : RetiredPayloads (submissions ++ [s]) documents := by
  have hnot : s.purgedAt.isSome ≠ true := by
    rw [hkept]
    decide
  refine ⟨?_, ?_, ?_⟩
  · refine nodup_map_append h.ids ?_
    intro other hother hsame
    exact hfresh other hother (Prod.ext_iff.mp hsame).1 (Prod.ext_iff.mp hsame).2
  · intro t ht hpurged
    rcases List.mem_append.mp ht with hold | hnew
    · exact h.terminal t hold hpurged
    · exact absurd (List.mem_singleton.mp hnew ▸ hpurged) hnot
  · intro t ht hpurged
    rcases List.mem_append.mp ht with hold | hnew
    · exact h.detached t hold hpurged
    · exact absurd (List.mem_singleton.mp hnew ▸ hpurged) hnot

theorem addSubmission_effect {w w' : Store} {submission : KycSubmission} {entries : DocumentFiles}
    (hkept : submission.purgedAt = none) (h : w.addSubmission submission entries = .ok w') :
    Effect w w' := by
  rcases bind_eq_ok.mp h with ⟨_, hfresh, h⟩
  rcases bind_eq_ok.mp h with ⟨_, _, h⟩
  have hadded : ∃ documents,
      w' = { w with submissions := w.submissions ++ [submission], documents := documents }
        ∧ (∀ d ∈ documents, d ∈ w.documents ∨ w.MayRefer d.storedFileId)
        ∧ (RetiredPayloads w.submissions w.documents →
          RetiredPayloads (w.submissions ++ [submission]) documents) := by
    refine checkedFold_invariant (fun v => ∃ documents,
      v = { w with submissions := w.submissions ++ [submission], documents := documents }
        ∧ (∀ d ∈ documents, d ∈ w.documents ∨ w.MayRefer d.storedFileId)
        ∧ (RetiredPayloads w.submissions w.documents →
          RetiredPayloads (w.submissions ++ [submission]) documents)) ?_ entries h
      ⟨w.documents, rfl, fun d hd => .inl hd,
        fun hpayloads => hpayloads.addSubmission (require_eq_ok.mp hfresh) hkept⟩
    rintro v entry v' ⟨documents, rfl, hold, hpayloads⟩ hv'
    rcases addDocument_ok hv' with ⟨hfree, ⟨s, hs, hkind, hid, hopen⟩, d, hdkind, hdid, hfile, rfl⟩
    refine ⟨_, rfl, ?_, ?_⟩
    · intro d' hd'
      rcases List.mem_append.mp hd' with hd' | hd'
      · exact hold d' hd'
      · cases List.mem_singleton.mp hd'
        exact .inr (hfile ▸ hfree)
    · intro hbefore
      exact (hpayloads hbefore).addDocument hs (hkind.trans hdkind.symm) (hid.trans hdid.symm) hopen
  rcases hadded with ⟨documents, rfl, hnew, hpayloads⟩
  exact .refer _ documents w.attachments hnew (fun a ha => .inl ha) hpayloads

theorem submitDriverKyc_effect {w w' : Store} {request : DriverKycRequest}
    {answers : DriverKycAnswers} {submissionId : Id}
    (h : submitDriverKyc w request answers submissionId = .ok w') : Effect w w' := by
  rcases bind_eq_ok.mp h with ⟨_, _, h⟩
  rcases bind_eq_ok.mp h with ⟨_, _, h⟩
  cases hexisting : w.submissionOfRequest .driver request.driverProfileId
      request.clientRequestId with
  | some existing =>
      rw [hexisting] at h
      rcases bind_eq_ok.mp h with ⟨_, _, h⟩
      rcases bind_eq_ok.mp h with ⟨_, _, h⟩
      exact pure_eq_ok.mp h ▸ .same
  | none =>
      rw [hexisting] at h
      rcases bind_eq_ok.mp h with ⟨_, _, h⟩
      rcases bind_eq_ok.mp h with ⟨_, _, h⟩
      rcases ite_eq_ok.mp h with ⟨_, h⟩ | ⟨_, h⟩
      · rcases bind_eq_ok.mp h with ⟨_, _, h⟩
        exact addSubmission_effect rfl h
      · rcases bind_eq_ok.mp h with ⟨_, _, h⟩
        rcases bind_eq_ok.mp h with ⟨_, _, h⟩
        exact addSubmission_effect rfl h

theorem rewrapDriverNin_effect {w w' : Store} {probeId : Id} {rotated : Except FileError Bool}
    {submissionId clientRequestId : Id}
    (h : rewrapDriverNin w probeId rotated submissionId clientRequestId = .ok w') :
    Effect w w' := by
  rcases bind_eq_ok.mp h with ⟨_, _, h⟩
  rcases bind_eq_ok.mp h with ⟨_, _, h⟩
  rcases bind_eq_ok.mp h with ⟨_, _, h⟩
  rcases bind_eq_ok.mp h with ⟨_, _, h⟩
  rcases bind_eq_ok.mp h with ⟨_, _, h⟩
  rcases ite_eq_ok.mp h with ⟨_, h⟩ | ⟨_, h⟩
  · exact addSubmission_effect rfl h
  · exact pure_eq_ok.mp h ▸ .same

theorem submitVehicleEvidence_effect {w w' : Store} {request : VehicleEvidenceRequest}
    {answers : VehicleEvidenceAnswers} {submissionId : Id}
    (h : submitVehicleEvidence w request answers submissionId = .ok w') : Effect w w' := by
  rcases bind_eq_ok.mp h with ⟨_, _, h⟩
  rcases bind_eq_ok.mp h with ⟨_, _, h⟩
  rcases bind_eq_ok.mp h with ⟨entries, _, h⟩
  cases hexisting : w.submissionOfRequest .vehicle request.vehicleId request.clientRequestId with
  | some existing =>
      rw [hexisting] at h
      rcases bind_eq_ok.mp h with ⟨_, _, h⟩
      rcases bind_eq_ok.mp h with ⟨_, _, h⟩
      exact pure_eq_ok.mp h ▸ .same
  | none =>
      rw [hexisting] at h
      rcases bind_eq_ok.mp h with ⟨_, _, h⟩
      cases hcurrent : w.currentSubmission .vehicle request.vehicleId with
      | none =>
          simp only [hcurrent] at h
          exact addSubmission_effect rfl h
      | some current =>
          simp only [hcurrent] at h
          rcases bind_eq_ok.mp h with ⟨_, _, h⟩
          exact addSubmission_effect rfl h

theorem submitVehicleProfile_effect {w w' : Store} {request : VehicleEvidenceRequest}
    {answers : VehicleEvidenceAnswers} {submissionId : Id}
    (h : submitVehicleProfile w request answers submissionId = .ok w') : Effect w w' := by
  rcases bind_eq_ok.mp h with ⟨_, _, h⟩
  rcases bind_eq_ok.mp h with ⟨_, _, h⟩
  cases hexisting : w.submissionOfRequest .vehicle request.vehicleId request.clientRequestId with
  | some existing =>
      rw [hexisting] at h
      rcases bind_eq_ok.mp h with ⟨_, _, h⟩
      rcases bind_eq_ok.mp h with ⟨_, _, h⟩
      exact pure_eq_ok.mp h ▸ .same
  | none =>
      rw [hexisting] at h
      rcases bind_eq_ok.mp h with ⟨_, _, h⟩
      cases hcurrent : w.currentSubmission .vehicle request.vehicleId with
      | none =>
          simp only [hcurrent] at h
          exact addSubmission_effect rfl h
      | some current =>
          simp only [hcurrent] at h
          rcases bind_eq_ok.mp h with ⟨_, _, h⟩
          rcases bind_eq_ok.mp h with ⟨_, _, h⟩
          exact addSubmission_effect rfl h

omit [DeletionHashing] in
/-- A submission that is not purged gets another status. -/
theorem RetiredPayloads.decide {w : Store} (h : RetiredPayloads w.submissions w.documents)
    {kind : KycKind} {submissionId : Id} {s : KycSubmission}
    (hs : w.submission? kind submissionId = some s) (hkept : s.purgedAt = none)
    (decision : KycSubmissionStatus) :
    RetiredPayloads (w.submissions.map (fun s =>
      if s.kind = kind ∧ s.id = submissionId then { s with status := decision } else s))
      w.documents := by
  rcases submission_found hs with ⟨hmem, hkind, hid⟩
  have hback : ∀ t' ∈ w.submissions.map (fun s =>
      if s.kind = kind ∧ s.id = submissionId then { s with status := decision } else s),
      t'.purgedAt.isSome = true → t' ∈ w.submissions := by
    intro t' ht' hpurged
    rcases List.mem_map.mp ht' with ⟨t, ht, rfl⟩
    split_ifs at hpurged ⊢ with hof
    · -- the decided submission is the one that was found, and that is not purged
      have hsame : t = s :=
        eq_of_key_eq h.ids ht hmem (Prod.ext (hof.1.trans hkind.symm) (hof.2.trans hid.symm))
      rw [hsame, hkept] at hpurged
      cases hpurged
    · exact ht
  refine ⟨?_, fun t ht hpurged => h.terminal t (hback t ht hpurged) hpurged,
    fun t ht hpurged => h.detached t (hback t ht hpurged) hpurged⟩
  rw [keys_of_map (fun s : KycSubmission => (s.kind, s.id)) _ _ ?_]
  · exact h.ids
  · intro t
    split_ifs <;> rfl

theorem decideSubmission_effect {w w' : Store} {kind : KycKind} {submissionId subjectUserId : Id}
    {decision : KycSubmissionStatus} {reviewed : Except FileError Unit}
    (h : decideSubmission w kind submissionId subjectUserId decision reviewed = .ok w') :
    Effect w w' := by
  rcases bind_eq_ok.mp h with ⟨s, hs, h⟩
  rcases bind_eq_ok.mp h with ⟨_, hkept, h⟩
  rcases bind_eq_ok.mp h with ⟨_, _, h⟩
  rcases bind_eq_ok.mp h with ⟨_, _, h⟩
  have hsubmissions : w' = { w with submissions := w.submissions.map (fun s =>
      if s.kind = kind ∧ s.id = submissionId then { s with status := decision } else s) } := by
    rcases ite_eq_ok.mp h with ⟨_, h⟩ | ⟨_, h⟩
    · rcases bind_eq_ok.mp h with ⟨_, _, h⟩
      rcases bind_eq_ok.mp h with ⟨_, _, h⟩
      exact (pure_eq_ok.mp h).symm
    · rcases bind_eq_ok.mp h with ⟨_, _, h⟩
      exact (pure_eq_ok.mp h).symm
  rw [hsubmissions]
  exact .refer _ w.documents w.attachments (fun d hd => .inl hd) (fun a ha => .inl ha)
    (fun hpayloads => hpayloads.decide (demand_eq_ok.mp hs) (require_eq_ok.mp hkept) decision)

/-! ## Receipts -/

/-- Either the receipt was there, or it is appended as the request asks. -/
theorem ensureStoredObjectDeletion_ok {w w' : Store} {request : DeletionRequest}
    {storedFileId uploadIntentId : Option Id} {newId : Id} {intent : StoredObjectDeletion}
    (h : ensureStoredObjectDeletion w request storedFileId uploadIntentId newId = .ok (w', intent)) :
    ∃ new : List StoredObjectDeletion, w' = { w with deletions := w.deletions ++ new }
      ∧ ((w.deletions.map (·.id)).Nodup → ((w.deletions ++ new).map (·.id)).Nodup)
      ∧ ∀ d ∈ new, new = [d] ∧ d.state = .pending ∧ d.storedFileId = storedFileId
          ∧ d.uploadIntentId = uploadIntentId ∧ d.storageKey = request.storageKey
          ∧ d.ownerType = request.ownerType ∧ d.ownerId = request.ownerId
          ∧ d.requestFingerprint = DeletionHashing.sha256 request
          ∧ ∀ e ∈ w.deletions, e.requestFingerprint ≠ d.requestFingerprint := by
  unfold ensureStoredObjectDeletion at h
  cases hexisting : w.deletions.find?
      (·.requestFingerprint = DeletionHashing.sha256 request) with
  | some existing =>
      simp only [hexisting] at h
      cases pure_eq_ok.mp h
      exact ⟨[], by simp, by simp, by simp⟩
  | none =>
      simp only [hexisting] at h
      rcases bind_eq_ok.mp h with ⟨_, hfresh, h⟩
      cases pure_eq_ok.mp h
      refine ⟨_, rfl, ?_, ?_⟩
      · intro hids
        exact nodup_map_append hids (require_eq_ok.mp hfresh)
      · intro d hd
        cases List.mem_singleton.mp hd
        exact ⟨rfl, rfl, rfl, rfl, rfl, rfl, rfl, rfl, lookup_eq_none.mp hexisting⟩

/-- The loop of a purge: receipts for files that nothing outside the submission holds. -/
theorem prepareFileDeletions_ok {w w' : Store} {kind : KycKind} {submissionId : Id}
    {reason : String} {newId : Id → Id} {fileIds deletions : List Id}
    (h : prepareFileDeletions kind submissionId reason newId w fileIds = .ok (w', deletions)) :
    ∃ new : List StoredObjectDeletion, w' = { w with deletions := w.deletions ++ new }
      ∧ ((w.deletions.map (·.id)).Nodup → ((w.deletions ++ new).map (·.id)).Nodup)
      ∧ ∀ d ∈ new, d.state = .pending ∧ d.ownerType ≠ .retiredDriverAgreement
          ∧ NewReceipt w (w.retirePayload kind submissionId) d := by
  -- the receipts so far, all for files that were free at the start
  refine checkedFold_invariant (fun prepared => ∃ new : List StoredObjectDeletion,
    prepared.1 = { w with deletions := w.deletions ++ new }
      ∧ ((w.deletions.map (·.id)).Nodup → ((w.deletions ++ new).map (·.id)).Nodup)
      ∧ ∀ d ∈ new, d.state = .pending ∧ d.ownerType ≠ .retiredDriverAgreement
          ∧ NewReceipt w (w.retirePayload kind submissionId) d) ?_ _ h
    ⟨[], by simp, by simp, by simp⟩
  rintro ⟨v, done⟩ fileId ⟨v', done'⟩ ⟨new, hv, hids, hnew⟩ hround
  cases hv
  unfold prepareFileDeletion at hround
  cases hfile : w.file? fileId with
  | none =>
      have hfile' : ({ w with deletions := w.deletions ++ new } : Store).file? fileId = none := hfile
      simp only [hfile'] at hround
      cases pure_eq_ok.mp hround
      exact ⟨new, rfl, hids, hnew⟩
  | some file =>
      have hfile' : ({ w with deletions := w.deletions ++ new } : Store).file? fileId = some file :=
        hfile
      simp only [hfile'] at hround
      rcases ite_eq_ok.mp hround with ⟨_, hround⟩ | ⟨hfree, hround⟩
      · cases pure_eq_ok.mp hround
        exact ⟨new, rfl, hids, hnew⟩
      · rcases bind_eq_ok.mp hround with ⟨⟨v'', intent⟩, hensure, hround⟩
        cases pure_eq_ok.mp hround
        rcases ensureStoredObjectDeletion_ok hensure with ⟨more, rfl, hmoreIds, hmore⟩
        refine ⟨new ++ more, by simp, ?_, ?_⟩
        · intro hids'
          simpa using hmoreIds (hids hids')
        · intro d hd
          rcases List.mem_append.mp hd with hd | hd
          · exact hnew d hd
          · rcases hmore d hd with ⟨_, hstate, hlink, hupload, hkey, howner, _⟩
            rcases mem_of_lookup hfile with ⟨hmem, hid⟩
            -- the loop only adds receipts, so the answer is that of the first store
            have hreferenced : w.fileIsReferenced file.id (excludedFor kind .driver submissionId)
                (excludedFor kind .vehicle submissionId) = false := by
              have hnot := Bool.eq_false_iff.mpr hfree
              rw [hid]
              exact hnot
            have hpurge : d.ownerType ≠ .retiredDriverAgreement := by
              rw [howner]
              cases kind <;> simp [KycKind.ownerType]
            refine ⟨hstate, hpurge, .file file hmem ⟨hlink, hkey, hupload, fun h => absurd h hpurge⟩ ?_ ?_
              (fun h => absurd h hpurge)⟩
            · rw [howner]
              cases kind <;> simp [KycKind.ownerType]
            · intro _
              exact unreferenced_retirePayload hreferenced

omit [DeletionHashing] in
/-- A terminal submission is purged, and loses its documents. -/
theorem RetiredPayloads.retirePayload {w : Store} (h : RetiredPayloads w.submissions w.documents)
    {kind : KycKind} {submissionId : Id} {s : KycSubmission}
    (hs : w.submission? kind submissionId = some s) (hterminal : s.status ∈ terminalKycStatuses) :
    RetiredPayloads (w.retirePayload kind submissionId).submissions
      (w.retirePayload kind submissionId).documents := by
  rcases submission_found hs with ⟨hmem, hkind, hid⟩
  refine ⟨?_, ?_, ?_⟩
  · unfold Store.retirePayload
    dsimp only
    rw [keys_of_map (fun s : KycSubmission => (s.kind, s.id)) _ _ ?_]
    · exact h.ids
    · intro t
      split_ifs <;> rfl
  · intro t' ht' hpurged
    rcases List.mem_map.mp ht' with ⟨t, ht, rfl⟩
    split_ifs at hpurged ⊢ with hof
    · have hsame : t = s :=
        eq_of_key_eq h.ids ht hmem (Prod.ext (hof.1.trans hkind.symm) (hof.2.trans hid.symm))
      exact hsame ▸ hterminal
    · exact h.terminal t ht hpurged
  · intro t' ht' hpurged d hd hof
    rcases List.mem_map.mp ht' with ⟨t, ht, rfl⟩
    rcases List.mem_filter.mp hd with ⟨hd, hkept⟩
    have hkept := of_decide_eq_true hkept
    split_ifs at hpurged hof with hretired
    · exact hkept ⟨hof.1.trans hretired.1, hof.2.trans hretired.2⟩
    · exact h.detached t ht hpurged d hd hof

theorem authorizePurge_effect {w w' : Store} {kind : KycKind} {submissionId : Id} {cutoff : Int}
    {reason : String} {newId : Id → Id} {deletions : List Id}
    (h : authorizePurge w kind submissionId cutoff reason newId = .ok (w', deletions)) :
    Effect w w' := by
  unfold authorizePurge at h
  cases hsubmission : w.submission? kind submissionId with
  | none =>
      simp only [hsubmission] at h
      cases pure_eq_ok.mp h
      exact .same
  | some submission =>
      simp only [hsubmission] at h
      rcases ite_eq_ok.mp h with ⟨_, h⟩ | ⟨hpurgeable, h⟩
      · cases pure_eq_ok.mp h
        exact .same
      · rcases bind_eq_ok.mp h with ⟨⟨v, ids⟩, hprepare, h⟩
        cases pure_eq_ok.mp h
        rcases prepareFileDeletions_ok hprepare with ⟨new, rfl, hids, hnew⟩
        have hid : submission.id = submissionId := (submission_found hsubmission).2.2
        refine .receipts new _ _ ?_ hids (fun d hd => (hnew d hd).1) ?_
          (fun d hd hretired => absurd hretired (hnew d hd).2.1) ?_
        · intro d hd
          exact (List.mem_filter.mp hd).1
        · intro d hd
          cases (hnew d hd).2.2 with
          | file f hf names notUpload free first => exact .file f hf names notUpload free first
          | upload uploadId owner ownerId unlinked upload dead spent =>
              exact .upload uploadId owner ownerId unlinked upload dead spent
        · intro hpayloads
          rw [hid]
          exact hpayloads.retirePayload hsubmission (not_not.mp hpurgeable).1

theorem retireDriverAgreement_effect {w w' : Store} {fileId newId : Id}
    (h : retireDriverAgreement w fileId newId = .ok w') : Effect w w' := by
  rcases bind_eq_ok.mp h with ⟨file, hfile, h⟩
  rcases bind_eq_ok.mp h with ⟨⟨v, intent⟩, hensure, h⟩
  cases pure_eq_ok.mp h
  rcases mem_of_lookup (demand_eq_ok.mp hfile) with ⟨hmem, _⟩
  rcases ensureStoredObjectDeletion_ok hensure with ⟨new, rfl, hids, hnew⟩
  refine .receipts new w.submissions w.documents (fun d hd => hd) hids
    (fun d hd => (hnew d hd).2.1) ?_ (fun d hd _ => (hnew d hd).1) id
  intro d hd
  rcases hnew d hd with ⟨_, _, hlink, hupload, hkey, howner, hownerId, hrequest, hfirst⟩
  refine .file file hmem ⟨hlink, hkey, hupload, fun _ => hownerId⟩ ?_ ?_ (fun _ => ⟨hrequest, hfirst⟩)
  · rw [howner]
    simp
  · intro hretired
    exact absurd howner hretired

/-! ## Provider calls -/

omit [DeletionHashing] in
theorem requireDeletionAuthority_ok {w : Store} {intent : StoredObjectDeletion} {u : Unit}
    (h : requireDeletionAuthority w intent = .ok u) : w.MayDelete intent := by
  intro hretired
  unfold requireDeletionAuthority at h
  simp only [hretired, OwnerType.kycKind, if_true] at h
  exact unreferenced_iff.mp (require_eq_ok.mp h)

theorem deleteStoredObject_effect {w w' : Store} {intentId : Id} {answer : StorageAnswer}
    {raised : Option FileError} (h : deleteStoredObject w intentId answer = .ok (w', raised)) :
    Effect w w' := by
  unfold deleteStoredObject at h
  cases hintent : w.deletion? intentId with
  | none =>
      simp only [hintent] at h
      cases pure_eq_ok.mp h
      exact .same
  | some intent =>
      simp only [hintent] at h
      rcases mem_of_lookup hintent with ⟨hmem, rfl⟩
      rcases ite_eq_ok.mp h with ⟨_, h⟩ | ⟨hopen, h⟩
      · cases pure_eq_ok.mp h
        exact .same
      · rcases bind_eq_ok.mp h with ⟨_, hauthority, h⟩
        have hmay := requireDeletionAuthority_ok hauthority
        have hpending : intent.state = .pending := by
          cases hstate : intent.state <;> simp_all
        -- every answer of the provider is recorded as one attempt
        have hattempt : ∀ (code : Option String) (state : DeletionState),
            state = .pending ∨ state = .providerDeleted →
            Effect w ((if answer.removes then w.removeObject intent.storageKey else w).rewriteDeletion
              intent.id (.attempt code state)) := by
          intro code state hstate
          exact .provider intent hmem hpending hmay answer.removes _
            (fun d => ⟨⟨rfl, rfl, rfl, rfl, rfl⟩, rfl, rfl⟩) (fun _ => hstate)
        cases answer with
        | deleted =>
            cases pure_eq_ok.mp h
            exact hattempt _ _ (.inr rfl)
        | notFound =>
            cases pure_eq_ok.mp h
            exact hattempt _ _ (.inr rfl)
        | unavailable removed =>
            cases pure_eq_ok.mp h
            exact hattempt _ _ (.inl rfl)
        | conflict removed =>
            cases pure_eq_ok.mp h
            exact hattempt _ _ (.inl rfl)
        -- the object may be gone, and nothing was recorded
        | processDied removed =>
            cases pure_eq_ok.mp h
            cases removed with
            | true => exact .died intent hmem hpending hmay
            | false => exact .same

end Inversion

end Files
end Mobility
