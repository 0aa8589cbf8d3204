import Mobility.Files.Uploads

/-!
# Submissions — KYC and vehicle evidence (`services/kyc.py`)

Submissions attach files that passed `requireFiles`; a new vehicle submission may take over
documents of an earlier one, and a rewrapped NIN takes over all of them.  What a call reads
outside the tables of files (scope, NIN, bank version, agreement, review outcomes) enters as
the answer of that part of the call.
-/

namespace Mobility
namespace Files

open Lib

abbrev DocumentFiles := List (DocumentType × Id)

/-! ## Guards -/

def requireSubmissionPayload (submission : KycSubmission) : Except FileError Unit :=
  require (submission.purgedAt = none)
    (refusal "KYC_PAYLOAD_PURGED" "Submission payload is no longer available" 410)

/-- `_require_files`. -/
def requireFiles (w : Store) (fileIds : DocumentFiles) (actorUserId : Id) (purpose : FilePurpose) :
    Except FileError Unit := do
  let ids := fileIds.map Prod.snd
  require ids.Nodup
    (refusal "KYC_DOCUMENTS_INVALID" "Each required document must use a distinct managed file" 409)
  let files := w.files.filter (·.id ∈ ids)
  let retired := w.deletions.any (fun d => d.ownerType = .retiredDriverAgreement ∧ d.ownerId ∈ ids)
  require (retired = false ∧ files.length = ids.length
      ∧ ∀ f ∈ files, f.scope.subjectUserId = some actorUserId ∧ f.scope.organizationId = none
          ∧ f.purpose = purpose ∧ f.scanStatus = .clean)
    (refusal "KYC_DOCUMENT_NOT_CLEARED"
      "Every KYC document must be an owned managed file that passed security checks" 409)

/-! ## Documents -/

/-- `_driver_documents`, `_vehicle_documents`. -/
def Store.documentFiles (w : Store) (kind : KycKind) (submissionId : Id) : DocumentFiles :=
  (w.documentsOf kind submissionId).map (fun d => (d.documentType, d.storedFileId))

/-- One flushed document, past the hooks of its table. -/
def Store.addDocument (w : Store) (kind : KycKind) (submissionId : Id)
    (entry : DocumentType × Id) : Except FileError Store := do
  let submission ← demand (w.submission? kind submissionId)
    (.integrityError "documents_submission_id_fkey")
  require (submission.purgedAt = none)
    (.valueError "purged KYC submission cannot accept documents")
  rejectReferenceToDeletingStoredObject w entry.2
  require (∀ d ∈ w.documentsOf kind submissionId, d.documentType ≠ entry.1)
    (.integrityError "uq_documents_submission_type")
  return { w with documents := w.documents ++
    [{ kind := kind, submissionId := submissionId, documentType := entry.1,
       storedFileId := entry.2 }] }

/-- A new submission row with its documents. -/
def Store.addSubmission (w : Store) (submission : KycSubmission) (entries : DocumentFiles) :
    Except FileError Store := do
  require (∀ s ∈ w.submissions, s.kind = submission.kind → s.id ≠ submission.id)
    (.integrityError "pk_submissions")
  require (∀ s ∈ w.submissions, s.kind = submission.kind → s.parentId = submission.parentId →
      s.version ≠ submission.version ∧ s.clientRequestId ≠ submission.clientRequestId)
    (.integrityError "uq_submissions_parent")
  checkedFold (fun w entry => w.addDocument submission.kind submission.id entry)
    { w with submissions := w.submissions ++ [submission] } entries

/-- The submission of a parent with the highest version. -/
def Store.currentSubmission (w : Store) (kind : KycKind) (parentId : Id) : Option KycSubmission :=
  (w.submissions.filter (fun s => s.kind = kind ∧ s.parentId = parentId)).foldl
    (fun best s => match best with
      | none => some s
      | some b => if b.version < s.version then some s else some b) none

def Store.submissionOfRequest (w : Store) (kind : KycKind) (parentId clientRequestId : Id) :
    Option KycSubmission :=
  w.submissions.find? (fun s => s.kind = kind ∧ s.parentId = parentId
    ∧ s.clientRequestId = clientRequestId)

def nextVersion (current : Option KycSubmission) : Nat :=
  (current.map (·.version)).getD 0 + 1

/-- Equality of two documents dictionaries. -/
def SameDocuments (a b : DocumentFiles) : Prop :=
  (∀ e ∈ a, e ∈ b) ∧ ∀ e ∈ b, e ∈ a

instance (a b : DocumentFiles) : Decidable (SameDocuments a b) :=
  inferInstanceAs (Decidable (_ ∧ _))

/-! ## Driver KYC -/

structure DriverKycRequest where
  actorUserId : Id
  driverProfileId : Id
  clientRequestId : Id
  documentFileIds : DocumentFiles
  allowDocumentRenewal : Bool
  deriving DecidableEq, Repr

/-- What `submit_driver_kyc` reads elsewhere. -/
structure DriverKycAnswers where
  /-- NIN, scope and locks -/
  admitted : Except FileError Unit
  /-- the stored NIN, bank version and agreement are those of the request -/
  sameRequest : Bool
  bankVersion : Except FileError Unit
  naturallyExpired : Bool
  consentMissing : Bool
  /-- agreement and encryption of the NIN -/
  protection : Except FileError Unit

def requirePersonCaptureState (current : Option KycSubmission) (allowRenewal : Bool) :
    Except FileError Unit :=
  match current with
  | none => return ⟨⟩
  | some submission => do
      require (allowRenewal = true)
        (refusal "PERSON_PAYEE_RENEWAL_REQUIRED"
          "Use Profile to renew your identity and bank details" 409)
      require (submission.status ∈ terminalKycStatuses)
        (refusal "PERSON_PAYEE_RESUBMISSION_NOT_ALLOWED"
          "Only rejected or expired documents can be replaced" 409)

def submitDriverKyc (w : Store) (request : DriverKycRequest) (answers : DriverKycAnswers)
    (submissionId : Id) : Except FileError Store := do
  answers.admitted
  require ((∀ t ∈ KycKind.driver.required, t ∈ request.documentFileIds.map Prod.fst)
      ∧ ∀ e ∈ request.documentFileIds, e.1 ∈ KycKind.driver.required)
    (refusal "KYC_DOCUMENTS_INVALID" "All required KYC documents are required" 422)
  match w.submissionOfRequest .driver request.driverProfileId request.clientRequestId with
  | some existing => do
      requireSubmissionPayload existing
      require (answers.sameRequest = true
          ∧ SameDocuments (w.documentFiles .driver existing.id) request.documentFileIds)
        (refusal "KYC_RETRY_CONFLICT" "The KYC retry does not match the original request" 409)
      return w
  | none => do
      answers.bankVersion
      requireFiles w request.documentFileIds request.actorUserId .driverKyc
      let current := w.currentSubmission .driver request.driverProfileId
      if request.allowDocumentRenewal = true
          ∧ (answers.naturallyExpired = true ∨ answers.consentMissing = true) then pure ⟨⟩
      else requirePersonCaptureState current request.allowDocumentRenewal
      answers.protection
      w.addSubmission
        { kind := .driver
          id := submissionId
          parentId := request.driverProfileId
          version := nextVersion current
          clientRequestId := request.clientRequestId
          status := .pendingReview
          createdAt := w.clock } request.documentFileIds

/-- `rewrap_driver_nin`: the current submission again, under the next version, with its
documents. -/
def rewrapDriverNin (w : Store) (probeId : Id) (rotated : Except FileError Bool)
    (submissionId clientRequestId : Id) : Except FileError Store := do
  let probe ← demand (w.submission? .driver probeId)
    (refusal "KYC_NOT_FOUND" "KYC submission was not found" 404)
  requireSubmissionPayload probe
  let current ← demand (w.currentSubmission .driver probe.parentId)
    (.runtimeError "KYC encryption chain disappeared")
  requireSubmissionPayload current
  -- false when the ciphertext already has the active key
  let needed ← rotated
  if needed = true then
    w.addSubmission
      { kind := .driver
        id := submissionId
        parentId := probe.parentId
        version := nextVersion (some current)
        clientRequestId := clientRequestId
        status := if current.status = .approved then .pendingReview else current.status
        createdAt := w.clock } (w.documentFiles .driver current.id)
  else return w

/-! ## Vehicle evidence -/

structure VehicleEvidenceRequest where
  actorUserId : Id
  vehicleId : Id
  clientRequestId : Id
  documentFileIds : DocumentFiles
  expectedSubmissionId : Option Id
  deriving DecidableEq, Repr

structure VehicleEvidenceAnswers where
  /-- scope, ownership and locks -/
  admitted : Except FileError Unit
  /-- the current submission is approved and no longer counts as approved -/
  approvalLapsed : Bool
  /-- the documents whose review outcome is rejected, and expired -/
  rejectedTypes : List DocumentType
  expiredTypes : List DocumentType

/-- The dictionary `{**previous, **replacements}`. -/
def mergeDocuments (previous replacements : DocumentFiles) : DocumentFiles :=
  previous.filter (fun e => e.1 ∉ replacements.map Prod.fst) ++ replacements

def requireAllEvidence (entries : DocumentFiles) (message : String) : Except FileError Unit :=
  require (∀ t ∈ KycKind.vehicle.required, t ∈ entries.map Prod.fst)
    (refusal "VEHICLE_EVIDENCE_INVALID" message 422)

def revisionStale : FileError :=
  refusal "VEHICLE_REVISION_STALE" "Vehicle documents changed. Refresh before uploading again" 409

/-- `_resolve_vehicle_renewal_documents`. -/
def resolveVehicleRenewalDocuments (w : Store) (request : VehicleEvidenceRequest) :
    Except FileError DocumentFiles := do
  let entries ← match request.expectedSubmissionId with
    | none => pure request.documentFileIds
    | some expected =>
        match w.submission? .vehicle expected with
        | none => .error revisionStale
        | some previous => do
            require (previous.parentId = request.vehicleId) revisionStale
            if previous.purgedAt.isSome then do
              requireAllEvidence request.documentFileIds "Replace all removed vehicle evidence"
              pure request.documentFileIds
            else pure (mergeDocuments (w.documentFiles .vehicle previous.id) request.documentFileIds)
  requireAllEvidence entries "All vehicle evidence is required"
  return entries

/-- Whether the retry names the version before the stored one. -/
def ExpectedMatches (w : Store) (request : VehicleEvidenceRequest) (existing : KycSubmission) :
    Prop :=
  (existing.version = 1 ∧ request.expectedSubmissionId = none)
    ∨ (request.expectedSubmissionId.bind (w.submission? .vehicle)).any
        (fun previous => previous.parentId = request.vehicleId
          ∧ previous.version + 1 = existing.version) = true

instance (w : Store) (request : VehicleEvidenceRequest) (existing : KycSubmission) :
    Decidable (ExpectedMatches w request existing) :=
  inferInstanceAs (Decidable (_ ∨ _))

/-- The file a dictionary holds for a type. -/
def DocumentFiles.get? (entries : DocumentFiles) (type : DocumentType) : Option Id :=
  (entries.find? (·.1 = type)).map Prod.snd

/-- A resubmission replaces the documents that were rejected or expired. -/
def requireReplacements (w : Store) (request : VehicleEvidenceRequest)
    (answers : VehicleEvidenceAnswers) (current : KycSubmission) : Except FileError Unit := do
  require (request.expectedSubmissionId = some current.id) revisionStale
  require (current.status ∈ terminalKycStatuses
      ∨ (current.status = .approved ∧ answers.approvalLapsed = true))
    (refusal "VEHICLE_RESUBMISSION_NOT_ALLOWED"
      "Only rejected or expired documents can be replaced" 409)
  let previous := w.documentFiles .vehicle current.id
  require ((∀ t ∈ answers.rejectedTypes ++ answers.expiredTypes,
        t ∈ request.documentFileIds.map Prod.fst)
      ∧ ∀ t ∈ answers.expiredTypes,
          DocumentFiles.get? request.documentFileIds t ≠ DocumentFiles.get? previous t)
    (refusal "VEHICLE_REPLACEMENTS_REQUIRED"
      "Replace the documents marked rejected or expired" 422)

def submitVehicleEvidence (w : Store) (request : VehicleEvidenceRequest)
    (answers : VehicleEvidenceAnswers) (submissionId : Id) : Except FileError Store := do
  require (∀ e ∈ request.documentFileIds, e.1 ∈ KycKind.vehicle.required)
    (refusal "VEHICLE_EVIDENCE_INVALID" "Unknown vehicle document" 422)
  answers.admitted
  let entries ← resolveVehicleRenewalDocuments w request
  match w.submissionOfRequest .vehicle request.vehicleId request.clientRequestId with
  | some existing => do
      requireSubmissionPayload existing
      require (SameDocuments (w.documentFiles .vehicle existing.id) entries
          ∧ ExpectedMatches w request existing)
        (refusal "VEHICLE_EVIDENCE_RETRY_CONFLICT"
          "The evidence retry does not match the original request" 409)
      return w
  | none => do
      requireFiles w entries request.actorUserId .vehicleEvidence
      let current := w.currentSubmission .vehicle request.vehicleId
      match current with
      | none => pure ⟨⟩
      | some current => requireReplacements w request answers current
      w.addSubmission
        { kind := .vehicle
          id := submissionId
          parentId := request.vehicleId
          version := nextVersion current
          clientRequestId := request.clientRequestId
          status := .pendingReview
          createdAt := w.clock } entries

/-- The vehicle stage of an application (`services/vehicle_onboarding.py`): the vehicle's next
revision, with documents of its own. -/
def submitVehicleProfile (w : Store) (request : VehicleEvidenceRequest)
    (answers : VehicleEvidenceAnswers) (submissionId : Id) : Except FileError Store := do
  answers.admitted
  requireAllEvidence request.documentFileIds "All vehicle evidence is required"
  match w.submissionOfRequest .vehicle request.vehicleId request.clientRequestId with
  | some existing => do
      requireSubmissionPayload existing
      require (SameDocuments (w.documentFiles .vehicle existing.id) request.documentFileIds)
        (refusal "VEHICLE_SUBMISSION_RETRY_CONFLICT"
          "The vehicle retry does not match the original request" 409)
      return w
  | none => do
      requireFiles w request.documentFileIds request.actorUserId .vehicleEvidence
      let current := w.currentSubmission .vehicle request.vehicleId
      match current with
      | none => pure ⟨⟩
      | some current => do
          require (current.status ≠ .pendingReview)
            (refusal "VEHICLE_REVIEW_PENDING"
              "The current vehicle revision is already pending review" 409)
          let previous := w.documentFiles .vehicle current.id
          require (∀ t ∈ answers.expiredTypes,
              DocumentFiles.get? request.documentFileIds t ≠ DocumentFiles.get? previous t)
            (refusal "VEHICLE_REPLACEMENTS_REQUIRED"
              "Replace the documents marked rejected or expired" 422)
      w.addSubmission
        { kind := .vehicle
          id := submissionId
          parentId := request.vehicleId
          version := nextVersion current
          clientRequestId := request.clientRequestId
          status := .pendingReview
          createdAt := w.clock } request.documentFileIds

/-! ## Decisions -/

/-- A submission's decision: `submission.status = payload.decision.value`.  The driver desk
decides what is pending; the vehicle desk, and its expiry job, also expire an approval. -/
def decideSubmission (w : Store) (kind : KycKind) (submissionId subjectUserId : Id)
    (decision : KycSubmissionStatus) (reviewed : Except FileError Unit) :
    Except FileError Store := do
  let submission ← demand (w.submission? kind submissionId)
    (refusal "KYC_NOT_FOUND" "KYC submission was not found" 404)
  requireSubmissionPayload submission
  require (decision ≠ .pendingReview) (.valueError "decision")
  require (submission.status = .pendingReview
      ∨ (kind = .vehicle ∧ submission.status = .approved ∧ decision = .expired))
    (refusal "ALREADY_DECIDED" "The current revision already has a terminal decision" 409)
  if decision = .approved then
    requireFiles w (w.documentFiles kind submissionId) subjectUserId kind.purpose
  else pure ⟨⟩
  reviewed
  return { w with submissions := w.submissions.map (fun s =>
    if s.kind = kind ∧ s.id = submissionId then { s with status := decision } else s) }

end Files
end Mobility
