import Mobility.Basic
import Mobility.Lib.Checked

/-!
# Types — managed files and what refers to them (`models/stored_file.py`, `models/kyc.py`)

The tables that decide whether a stored object may go: upload intents, stored files, deletion
receipts, KYC submissions with their documents, and the other rows that hold a file.  The
driver and the vehicle tables differ by name only, so they are one table tagged by `KycKind`.

* An object is its key; its bytes and its versions are not told apart.
* The receipts' two time stamps follow their state and are dropped, as is the hash of the key.
* SHA-256 of a deletion's document is `DeletionHashing.sha256`; nothing is assumed about it.
-/

namespace Mobility
namespace Files

abbrev Digest := String

/-! ## Refusals -/

/-- What a transaction stops at: an `AppError`, or an exception of the layers below it. -/
inductive FileError
  | app (error : AppError)
  | valueError (message : String)
  | runtimeError (message : String)
  | integrityError (constraint : String)
  deriving DecidableEq, Repr

def refusal (code message : String) (statusCode : Nat) : FileError :=
  .app { code := code, message := message, statusCode := statusCode }

/-! ## Objects and uploads -/

/-- `_FileScope`: the organization or the subject that owns a file. -/
structure FileScope where
  organizationId : Option Id
  subjectUserId : Option Id
  deriving DecidableEq, Repr

/-- The three shapes of an object key: `unconfirmed/{scope.path}/{id}`,
`managed/{scope.path}/{id}` and the keys of generated reports. -/
inductive StorageKey
  | unconfirmed (scope : FileScope) (uploadId : Id)
  | managed (scope : FileScope) (uploadId : Id)
  | report (name : String)
  deriving DecidableEq, Repr

/-- The upload intent a key is named for. -/
def StorageKey.uploadId? : StorageKey → Option Id
  | .unconfirmed _ uploadId | .managed _ uploadId => some uploadId
  | .report _ => none

inductive FilePurpose
  | creative
  | driverKyc
  | vehicleEvidence
  | installationEvidence
  | reportExport
  deriving DecidableEq, Repr

inductive UploadIntentStatus
  | pending
  | confirmed
  | expired
  deriving DecidableEq, Repr

inductive FileScanStatus
  | pending
  | clean
  | infected
  | rejected
  | error
  deriving DecidableEq, Repr

structure FileUploadIntent where
  id : Id
  scope : FileScope
  uploaderUserId : Id
  clientRequestId : Id
  requestFingerprint : Digest
  purpose : FilePurpose
  declaredSha256 : Digest
  objectKey : StorageKey
  expiresAt : Int
  status : UploadIntentStatus := .pending
  deriving DecidableEq, Repr

structure StoredFile where
  id : Id
  uploadIntentId : Option Id
  scope : FileScope
  uploaderUserId : Id
  purpose : FilePurpose
  storageKey : StorageKey
  contentType : String
  checksumSha256 : Digest
  scanStatus : FileScanStatus := .pending
  deriving DecidableEq, Repr

/-! ## KYC submissions -/

/-- Which pair of tables a submission and its documents live in. -/
inductive KycKind
  | driver
  | vehicle
  deriving DecidableEq, Repr

inductive KycSubmissionStatus
  | pendingReview
  | approved
  | rejected
  | expired
  deriving DecidableEq, Repr

/-- `DriverKycDocumentType` and `VehicleEvidenceDocumentType`. -/
inductive DocumentType
  | driverLicense
  | driverPhoto
  | registration
  | insurance
  | vehiclePhoto
  deriving DecidableEq, Repr

def KycKind.required : KycKind → List DocumentType
  | .driver => [.driverLicense, .driverPhoto]
  | .vehicle => [.registration, .insurance, .vehiclePhoto]

def KycKind.purpose : KycKind → FilePurpose
  | .driver => .driverKyc
  | .vehicle => .vehicleEvidence

/-- A submission of one driver profile or of one vehicle, its `parentId`. -/
structure KycSubmission where
  kind : KycKind
  id : Id
  parentId : Id
  version : Nat
  clientRequestId : Id
  status : KycSubmissionStatus
  createdAt : Int
  purgedAt : Option Int := none
  deriving DecidableEq, Repr

structure KycDocument where
  kind : KycKind
  submissionId : Id
  documentType : DocumentType
  storedFileId : Id
  deriving DecidableEq, Repr

/-! ## The other rows that hold a file -/

inductive AttachmentTable
  | campaignCreative
  | installationEvidencePhoto
  | reportArtifact
  deriving DecidableEq, Repr

structure FileAttachment where
  table : AttachmentTable
  id : Id
  storedFileId : Id
  deriving DecidableEq, Repr

/-! ## Deletion receipts -/

inductive OwnerType
  | driverKycSubmission
  | vehicleEvidenceSubmission
  | retiredDriverAgreement
  | fileUploadIntent
  deriving DecidableEq, Repr

/-- The submission table an owner type names. -/
def OwnerType.kycKind : OwnerType → Option KycKind
  | .driverKycSubmission => some .driver
  | .vehicleEvidenceSubmission => some .vehicle
  | .retiredDriverAgreement | .fileUploadIntent => none

def KycKind.ownerType : KycKind → OwnerType
  | .driver => .driverKycSubmission
  | .vehicle => .vehicleEvidenceSubmission

@[simp]
theorem KycKind.kycKind_ownerType (kind : KycKind) : kind.ownerType.kycKind = some kind := by
  cases kind <;> rfl

inductive DeletionState
  | pending
  | providerDeleted
  | completed
  deriving DecidableEq, Repr

/-- The document a deletion request is fingerprinted by. -/
structure DeletionRequest where
  storageKey : StorageKey
  objectChecksumSha256 : Digest
  reason : String
  ownerType : OwnerType
  ownerId : Id
  scope : FileScope
  deriving DecidableEq, Repr

class DeletionHashing where
  sha256 : DeletionRequest → Digest

structure StoredObjectDeletion where
  id : Id
  storedFileId : Option Id
  uploadIntentId : Option Id
  scope : FileScope
  ownerType : OwnerType
  ownerId : Id
  storageKey : StorageKey
  objectChecksumSha256 : Digest
  reason : String
  requestFingerprint : Digest
  state : DeletionState := .pending
  attempts : Nat := 0
  lastErrorCode : Option String := none
  deriving DecidableEq, Repr

/-! ## The store -/

structure Store where
  clock : Int := 0
  uploads : List FileUploadIntent := []
  files : List StoredFile := []
  deletions : List StoredObjectDeletion := []
  submissions : List KycSubmission := []
  documents : List KycDocument := []
  attachments : List FileAttachment := []
  /-- the keys under which the storage provider holds an object -/
  objects : List StorageKey := []
  deriving DecidableEq, Repr

def Store.file? (w : Store) (id : Id) : Option StoredFile :=
  w.files.find? (·.id = id)

def Store.upload? (w : Store) (id : Id) : Option FileUploadIntent :=
  w.uploads.find? (·.id = id)

def Store.deletion? (w : Store) (id : Id) : Option StoredObjectDeletion :=
  w.deletions.find? (·.id = id)

def Store.submission? (w : Store) (kind : KycKind) (id : Id) : Option KycSubmission :=
  w.submissions.find? (fun s => s.kind = kind ∧ s.id = id)

def Store.documentsOf (w : Store) (kind : KycKind) (submissionId : Id) : List KycDocument :=
  w.documents.filter (fun d => d.kind = kind ∧ d.submissionId = submissionId)

end Files
end Mobility
