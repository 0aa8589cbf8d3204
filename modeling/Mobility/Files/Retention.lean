import Mobility.Files.Submissions
import Mobility.Lib.Machine

/-!
# Retention — what writes deletion receipts, and the runs of the whole component

The purge of terminal KYC submissions (`services/file_kyc_lifecycle.py`), the expiry of
uploads (`purge_expired_upload_intents`) and the retirement of a single file.  Each of them
commits its receipts before any object is deleted; the deletions and finalizations that follow,
in the same call or in a later recovery, are steps of their own.
-/

namespace Mobility
namespace Files

open Lib

section Receipts

variable [DeletionHashing]

/-! ## The KYC purge -/

/-- The submission whose documents do not count as references from outside. -/
def excludedFor (kind table : KycKind) (submissionId : Id) : Option Id :=
  if kind = table then some submissionId else none

/-- One round of `_prepare_file_deletions`. -/
def prepareFileDeletion (kind : KycKind) (submissionId : Id) (reason : String) (newId : Id → Id)
    (prepared : Store × List Id) (fileId : Id) : Except FileError (Store × List Id) :=
  let (w, deletions) := prepared
  match w.file? fileId with
  | none => return prepared
  | some file =>
      if w.fileIsReferenced fileId (excludedFor kind .driver submissionId)
          (excludedFor kind .vehicle submissionId) then return prepared
      else do
        let (w', intent) ← ensureStoredObjectDeletion w
          { storageKey := file.storageKey
            objectChecksumSha256 := file.checksumSha256
            reason := reason
            ownerType := kind.ownerType
            ownerId := submissionId
            scope := file.scope } (some file.id) file.uploadIntentId (newId fileId)
        return (w', deletions ++ [intent.id])

/-- `_prepare_file_deletions`, in the order of the files' identifiers. -/
def prepareFileDeletions (kind : KycKind) (submissionId : Id) (reason : String) (newId : Id → Id)
    (w : Store) (fileIds : List Id) : Except FileError (Store × List Id) :=
  checkedFold (prepareFileDeletion kind submissionId reason newId) (w, []) (orderBy id fileIds)

/-- The rows `_purge_driver_submission` and `_purge_vehicle_submission` select. -/
def KycSubmission.Purgeable (submission : KycSubmission) (cutoff : Int) : Prop :=
  submission.status ∈ terminalKycStatuses ∧ submission.createdAt < cutoff
    ∧ submission.purgedAt = none

instance (submission : KycSubmission) (cutoff : Int) : Decidable (submission.Purgeable cutoff) :=
  inferInstanceAs (Decidable (_ ∧ _ ∧ _))

/-- Detach the documents and clear the payload. -/
def Store.retirePayload (w : Store) (kind : KycKind) (submissionId : Id) : Store :=
  { w with
    documents := w.documents.filter (fun d => ¬ (d.kind = kind ∧ d.submissionId = submissionId))
    submissions := w.submissions.map (fun s =>
      if s.kind = kind ∧ s.id = submissionId then { s with purgedAt := some w.clock } else s) }

/-- The committed authorization step of a purge, and the receipts it goes on with. -/
def authorizePurge (w : Store) (kind : KycKind) (submissionId : Id) (cutoff : Int)
    (reason : String) (newId : Id → Id) : Except FileError (Store × List Id) :=
  match w.submission? kind submissionId with
  | none => return (w, [])
  | some submission =>
      if ¬ submission.Purgeable cutoff then return (w, [])
      else do
        let fileIds := (w.documentsOf kind submission.id).map (·.storedFileId)
        let (w', deletions) ← prepareFileDeletions kind submission.id reason newId w fileIds
        return (w'.retirePayload kind submission.id, deletions)

/-! ## Expired uploads and retired files -/

/-- The receipts of one expired upload: for the key it was sent to and the key it would have
been promoted to. -/
def authorizeUploadExpiry (w : Store) (uploadId : Id) (newId : Bool → Id) :
    Except FileError Store := do
  let intent ← demand (w.upload? uploadId) (.valueError "no expired upload")
  require (intent.status = .pending ∧ intent.expiresAt ≤ w.clock
      ∧ ∀ d ∈ w.deletions, d.uploadIntentId = some intent.id → d.state = .completed)
    (.valueError "no expired upload")
  let request (key : StorageKey) : DeletionRequest :=
    { storageKey := key
      objectChecksumSha256 := intent.declaredSha256
      reason := "expired_upload_intent"
      ownerType := .fileUploadIntent
      ownerId := intent.id
      scope := intent.scope }
  let (w₁, _) ← ensureStoredObjectDeletion w (request intent.objectKey) none
    (some intent.id) (newId true)
  let (w₂, _) ← ensureStoredObjectDeletion w₁ (request (.managed intent.scope intent.id)) none
    (some intent.id) (newId false)
  return w₂

/-- The receipt of a file retired for itself.  No service writes one; `delete_stored_object`
and `_require_files` know the owner type. -/
def retireDriverAgreement (w : Store) (fileId newId : Id) : Except FileError Store := do
  let file ← demand (w.file? fileId) (.valueError "no such file")
  let (w', _) ← ensureStoredObjectDeletion w
    { storageKey := file.storageKey
      objectChecksumSha256 := file.checksumSha256
      reason := "agreement_replaced"
      ownerType := .retiredDriverAgreement
      ownerId := file.id
      scope := file.scope } (some file.id) file.uploadIntentId newId
  return w'

end Receipts

/-! ## Runs -/

/-- One committed transaction, or one thing the world outside does. -/
inductive Action
  /-- time passes -/
  | tick (now : Int)
  /-- an object is written: an upload, a generated report, a promotion that is not confirmed -/
  | put (key : StorageKey)
  | createUpload (intent : FileUploadIntent)
  | confirmUpload (uploadId : Id) (scope : FileScope) (actorUserId newFileId : Id)
      (promoted : Except FileError (String × Digest))
  | scan (fileId : Id) (verdict : FileScanStatus)
  | bindCreative (creativeId organizationId fileId : Id)
  | attachPhotos (driverUserId submissionId : Id) (fileIds : List Id)
  | addReportArtifact (reportId newFileId organizationId requestedByUserId : Id)
      (name contentType : String) (checksum : Digest)
  | submitDriverKyc (request : DriverKycRequest) (answers : DriverKycAnswers) (submissionId : Id)
  | rewrapDriverNin (probeId : Id) (rotated : Except FileError Bool)
      (submissionId clientRequestId : Id)
  | submitVehicleEvidence (request : VehicleEvidenceRequest) (answers : VehicleEvidenceAnswers)
      (submissionId : Id)
  | submitVehicleProfile (request : VehicleEvidenceRequest) (answers : VehicleEvidenceAnswers)
      (submissionId : Id)
  | decide (kind : KycKind) (submissionId subjectUserId : Id) (decision : KycSubmissionStatus)
      (reviewed : Except FileError Unit)
  | authorizePurge (kind : KycKind) (submissionId : Id) (cutoff : Int) (reason : String)
      (newId : Id → Id)
  | authorizeUploadExpiry (uploadId : Id) (newId : Bool → Id)
  | retireDriverAgreement (fileId newId : Id)
  /-- the provider call of a purge, for a receipt it wrote -/
  | deleteObject (intentId : Id) (answer : StorageAnswer)
  /-- the provider call of `process_stored_object_deletions`, for a receipt it selected -/
  | recoverObject (intentId : Id) (answer : StorageAnswer)
  | finalize (intentId : Id)

def step [DeletionHashing] (w : Store) : Action → Except FileError Store
  | .tick now => do
      require (w.clock ≤ now) (.valueError "clock")
      return { w with clock := now }
  | .put key => return { w with objects := key :: w.objects }
  | .createUpload intent => createUpload w intent
  | .confirmUpload uploadId scope actorUserId newFileId promoted =>
      confirmUpload w uploadId scope actorUserId newFileId promoted
  | .scan fileId verdict => return scanStoredFile w fileId verdict
  | .bindCreative creativeId organizationId fileId => bindCreative w creativeId organizationId fileId
  | .attachPhotos driverUserId submissionId fileIds =>
      attachInstallationPhotos w driverUserId submissionId fileIds
  | .addReportArtifact reportId newFileId organizationId requestedByUserId name contentType
      checksum =>
      addReportArtifact w reportId newFileId organizationId requestedByUserId name contentType
        checksum
  | .submitDriverKyc request answers submissionId => submitDriverKyc w request answers submissionId
  | .rewrapDriverNin probeId rotated submissionId clientRequestId =>
      rewrapDriverNin w probeId rotated submissionId clientRequestId
  | .submitVehicleEvidence request answers submissionId =>
      submitVehicleEvidence w request answers submissionId
  | .submitVehicleProfile request answers submissionId =>
      submitVehicleProfile w request answers submissionId
  | .decide kind submissionId subjectUserId decision reviewed =>
      decideSubmission w kind submissionId subjectUserId decision reviewed
  | .authorizePurge kind submissionId cutoff reason newId =>
      Prod.fst <$> authorizePurge w kind submissionId cutoff reason newId
  | .authorizeUploadExpiry uploadId newId => authorizeUploadExpiry w uploadId newId
  | .retireDriverAgreement fileId newId => retireDriverAgreement w fileId newId
  | .deleteObject intentId answer => Prod.fst <$> deleteStoredObject w intentId answer
  | .recoverObject intentId answer => do
      require ((w.deletion? intentId).any (w.Selectable ·) = true) (.valueError "not selected")
      Prod.fst <$> deleteStoredObject w intentId answer
  | .finalize intentId => Prod.fst <$> finalizeStoredObjectDeletion w intentId

/-- Every interleaving of the transactions, from an empty database. -/
def fileSystem [DeletionHashing] : Machine Store Action FileError :=
  { init := {}, step := step }

end Files
end Mobility
