import Mobility.Files.Deletions

/-!
# Uploads — how files come to be, are scanned and are attached

Upload intents and their confirmation (`services/stored_files.py`), and the rows outside KYC
that hold a file (`services/campaigns.py`, `services/installation_evidence.py`,
`services/campaign_report_delivery.py`).  What the storage provider and the scanner say is
part of the call.
-/

namespace Mobility
namespace Files

open Lib

/-! ## The reference guard -/

/-- An open receipt names the file. -/
def Store.Fenced (w : Store) (fileId : Id) : Prop :=
  ∃ d ∈ w.deletions, d.state ≠ .completed ∧ d.storedFileId = some fileId

instance (w : Store) (fileId : Id) : Decidable (w.Fenced fileId) :=
  inferInstanceAs (Decidable (∃ _ ∈ _, _))

/-- `reject_reference_to_deleting_stored_object` (also a trigger of every table that refers to
files) and the foreign key of the reference. -/
def rejectReferenceToDeletingStoredObject (w : Store) (fileId : Id) : Except FileError Unit := do
  require (¬ w.Fenced fileId) (.valueError "stored object has an active deletion intent")
  require ((w.file? fileId).isSome = true) (.integrityError "stored_file_id_fkey")

def Store.addAttachment (w : Store) (attachment : FileAttachment) : Except FileError Store := do
  rejectReferenceToDeletingStoredObject w attachment.storedFileId
  return { w with attachments := w.attachments ++ [attachment] }

/-! ## Upload intents -/

/-- `create_upload`: a new intent; its identifier is one that no row, receipts included,
has ever held. -/
def createUpload (w : Store) (intent : FileUploadIntent) : Except FileError Store := do
  require (intent.objectKey = .unconfirmed intent.scope intent.id ∧ intent.status = .pending)
    (.valueError "unconfirmed/{scope.path}/{intent_id}")
  require (∀ u ∈ w.uploads, u.id ≠ intent.id) (.integrityError "pk_file_upload_intents")
  require (∀ d ∈ w.deletions, d.uploadIntentId ≠ some intent.id
      ∧ d.storageKey.uploadId? ≠ some intent.id) (.integrityError "uuid4")
  require (∀ u ∈ w.uploads, ¬ (u.scope = intent.scope ∧ u.uploaderUserId = intent.uploaderUserId
      ∧ u.clientRequestId = intent.clientRequestId))
    (refusal "FILE_UPLOAD_RETRY_CONFLICT" "The upload retry does not match the original request" 409)
  return { w with uploads := w.uploads ++ [intent] }

/-- `_confirm_upload`.  `promoted` is the content type and checksum of the object at the
destination key once it is promoted, or what the provider or the metadata check refused. -/
def confirmUpload (w : Store) (uploadId : Id) (scope : FileScope) (actorUserId newFileId : Id)
    (promoted : Except FileError (String × Digest)) : Except FileError Store := do
  let intent ← demand (w.uploads.find? (fun u => u.id = uploadId ∧ u.scope = scope))
    (refusal "FILE_UPLOAD_NOT_FOUND" "File upload was not found" 404)
  if w.files.any (·.uploadIntentId = some intent.id) then return w
  else
    require (intent.status ≠ .expired ∧ w.clock < intent.expiresAt)
      (refusal "FILE_UPLOAD_EXPIRED" "The upload request has expired" 410)
    let observed ← promoted
    let storedFile : StoredFile :=
      { id := newFileId
        uploadIntentId := some intent.id
        scope := scope
        uploaderUserId := actorUserId
        purpose := intent.purpose
        storageKey := .managed scope intent.id
        contentType := observed.1.toLower
        checksumSha256 := observed.2.toLower }
    require (∀ f ∈ w.files, f.id ≠ newFileId) (.integrityError "pk_stored_files")
    require (∀ f ∈ w.files, f.storageKey ≠ storedFile.storageKey)
      (.integrityError "uq_stored_files_storage_key")
    return { w with
      files := w.files ++ [storedFile]
      uploads := w.uploads.map (fun u =>
        if u.id = intent.id then { u with status := .confirmed } else u)
      objects := storedFile.storageKey :: w.objects }

/-- `scan_stored_file` with the verdict that the scan came to. -/
def scanStoredFile (w : Store) (fileId : Id) (verdict : FileScanStatus) : Store :=
  { w with files := w.files.map (fun f =>
      if f.id = fileId ∧ (f.scanStatus = .pending ∨ f.scanStatus = .error) then
        { f with scanStatus := verdict }
      else f) }

/-! ## Creatives, photos and reports -/

/-- The file a creative is created with, or moved to: `create_campaign_creative` and
`update_campaign_creative`.  A creative that already has the file keeps it. -/
def bindCreative (w : Store) (creativeId organizationId fileId : Id) : Except FileError Store := do
  let file ← demand (w.files.find? (fun f =>
      f.id = fileId ∧ f.scope.organizationId = some organizationId ∧ f.purpose = .creative))
    (refusal "STORED_FILE_NOT_FOUND" "Stored file was not found" 404)
  require (file.scanStatus = .clean)
    (refusal "CREATIVE_FILE_NOT_CLEARED"
      "The stored file must pass malware and content validation before binding" 409)
  require (∀ a ∈ w.attachments, a.table = .campaignCreative → a.storedFileId = file.id →
      a.id = creativeId)
    (refusal "CREATIVE_FILE_ALREADY_BOUND"
      "The stored file is already bound to a different creative definition" 409)
  if ∃ a ∈ w.attachments, a.table = .campaignCreative ∧ a.id = creativeId
      ∧ a.storedFileId = file.id then return w
  else
    let unbound := w.attachments.filter
      (fun a => ¬ (a.table = .campaignCreative ∧ a.id = creativeId))
    { w with attachments := unbound }.addAttachment
      { table := .campaignCreative, id := creativeId, storedFileId := file.id }

/-- The photos of one `submit_installation_evidence`. -/
def attachInstallationPhotos (w : Store) (driverUserId submissionId : Id) (fileIds : List Id) :
    Except FileError Store := do
  require (fileIds.Nodup ∧ ∀ id ∈ fileIds, (w.files.find? (fun f => f.id = id
      ∧ f.scope.subjectUserId = some driverUserId ∧ f.purpose = .installationEvidence
      ∧ f.scanStatus = .clean ∧ f.contentType.startsWith "image/")).isSome = true)
    (refusal "INSTALLATION_EVIDENCE_FILE_INVALID"
      "Every evidence photo must be a clean assignment-driver image" 409)
  require (∀ id ∈ fileIds, ∀ a ∈ w.attachments,
      a.table = .installationEvidencePhoto → a.storedFileId ≠ id)
    (refusal "INSTALLATION_EVIDENCE_FILE_ALREADY_USED"
      "An evidence file is already bound to another immutable submission" 409)
  checkedFold (fun w id => w.addAttachment
    { table := .installationEvidencePhoto, id := submissionId, storedFileId := id }) w fileIds

/-- One artifact of a report that gets ready: its file and the row that holds it.  The key
names the report, so no receipt holds it. -/
def addReportArtifact (w : Store) (reportId newFileId organizationId requestedByUserId : Id)
    (name contentType : String) (checksum : Digest) : Except FileError Store := do
  let storedFile : StoredFile :=
    { id := newFileId
      uploadIntentId := none
      scope := { organizationId := some organizationId, subjectUserId := none }
      uploaderUserId := requestedByUserId
      purpose := .reportExport
      storageKey := .report name
      contentType := contentType
      checksumSha256 := checksum
      scanStatus := .clean }
  require (.report name ∈ w.objects) (.valueError "Report object metadata mismatch")
  require (∀ f ∈ w.files, f.id ≠ newFileId) (.integrityError "pk_stored_files")
  require (∀ f ∈ w.files, f.storageKey ≠ .report name)
    (.integrityError "uq_stored_files_storage_key")
  require (∀ d ∈ w.deletions, d.storageKey ≠ .report name) (.integrityError "uuid4")
  { w with files := w.files ++ [storedFile] }.addAttachment
    { table := .reportArtifact, id := reportId, storedFileId := newFileId }

end Files
end Mobility
