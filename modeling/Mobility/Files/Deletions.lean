import Mobility.Files.Types

/-!
# Deletions — receipts, provider deletion, finalization (`services/stored_object_deletions.py`)

A deletion lives through three transactions: one writes its receipt, `deleteStoredObject` has
the provider delete the object, `finalizeStoredObjectDeletion` removes the file's rows.  Each
of them holds row locks on what it reads, so a transaction is one step.
-/

namespace Mobility
namespace Files

open Lib

/-! ## References -/

/-- A document of the table that refers to the file, outside the excluded submission. -/
def Store.documentRefers (w : Store) (kind : KycKind) (fileId : Id) (excluded : Option Id) : Bool :=
  w.documents.any (fun d =>
    d.kind = kind ∧ d.storedFileId = fileId ∧ excluded.all (fun s => d.submissionId ≠ s) = true)

def Store.attachmentRefers (w : Store) (table : AttachmentTable) (fileId : Id) : Bool :=
  w.attachments.any (fun a => a.table = table ∧ a.storedFileId = fileId)

/-- `_file_is_referenced`. -/
def Store.fileIsReferenced (w : Store) (fileId : Id)
    (driverSubmissionId vehicleSubmissionId : Option Id) : Bool :=
  w.documentRefers .driver fileId driverSubmissionId
    || w.documentRefers .vehicle fileId vehicleSubmissionId
    || w.attachmentRefers .campaignCreative fileId
    || w.attachmentRefers .installationEvidencePhoto fileId
    || w.attachmentRefers .reportArtifact fileId

/-! ## Writing a receipt -/

/-- `ensure_stored_object_deletion`: the receipt with the request's fingerprint, written
under the fresh identifier when there is none. -/
def ensureStoredObjectDeletion [DeletionHashing] (w : Store) (request : DeletionRequest)
    (storedFileId uploadIntentId : Option Id) (newId : Id) :
    Except FileError (Store × StoredObjectDeletion) :=
  let requestFingerprint := DeletionHashing.sha256 request
  match w.deletions.find? (·.requestFingerprint = requestFingerprint) with
  | some existing => return (w, existing)
  | none => do
      require (∀ d ∈ w.deletions, d.id ≠ newId) (.integrityError "pk_stored_object_deletions")
      let intent : StoredObjectDeletion :=
        { id := newId
          storedFileId := storedFileId
          uploadIntentId := uploadIntentId
          scope := request.scope
          ownerType := request.ownerType
          ownerId := request.ownerId
          storageKey := request.storageKey
          objectChecksumSha256 := request.objectChecksumSha256.toLower
          reason := request.reason
          requestFingerprint := requestFingerprint }
      return ({ w with deletions := w.deletions ++ [intent] }, intent)

/-! ## Deleting the object -/

/-- What the provider call came to.  A failed call may have removed the object all the same,
and the process may die after the call, before it commits. -/
inductive StorageAnswer
  | deleted
  | notFound
  | unavailable (removed : Bool)
  | conflict (removed : Bool)
  | processDied (removed : Bool)
  deriving DecidableEq, Repr

def StorageAnswer.removes : StorageAnswer → Bool
  | .deleted => true
  | .notFound => false
  | .unavailable removed | .conflict removed | .processDied removed => removed

def Store.removeObject (w : Store) (key : StorageKey) : Store :=
  { w with objects := w.objects.filter (· ≠ key) }

/-- Rewrite the receipt of one identifier. -/
def Store.rewriteDeletion (w : Store) (id : Id)
    (f : StoredObjectDeletion → StoredObjectDeletion) : Store :=
  { w with deletions := w.deletions.map (fun d => if d.id = id then f d else d) }

def StoredObjectDeletion.attempt (code : Option String) (state : DeletionState)
    (d : StoredObjectDeletion) : StoredObjectDeletion :=
  { d with attempts := d.attempts + 1, lastErrorCode := code, state := state }

def storageUnavailable : FileError :=
  refusal "FILE_STORAGE_UNAVAILABLE" "Private file storage is unavailable" 503

/-- The guard of the owner type: retirement must be committed, or the file free of use. -/
def requireDeletionAuthority (w : Store) (intent : StoredObjectDeletion) : Except FileError Unit :=
  match intent.ownerType.kycKind with
  | some kind =>
      require ((w.submission? kind intent.ownerId).any (·.purgedAt.isSome) = true)
        (refusal "KYC_RETENTION_AUTHORITY_REQUIRED"
          "KYC payload retirement must commit before object deletion" 409)
  | none =>
      if intent.ownerType = .retiredDriverAgreement then
        require (w.fileIsReferenced intent.ownerId none none = false)
          (refusal "FILE_RETIREMENT_REFERENCED" "The file is still needed by another record" 409)
      else return ⟨⟩

/-- `delete_stored_object`: the committed store, and what is raised after the commit. -/
def deleteStoredObject (w : Store) (intentId : Id) (answer : StorageAnswer) :
    Except FileError (Store × Option FileError) :=
  match w.deletion? intentId with
  | none => return (w, none)
  | some intent =>
      if intent.state = .providerDeleted ∨ intent.state = .completed then return (w, none)
      else do
        requireDeletionAuthority w intent
        let called := if answer.removes then w.removeObject intent.storageKey else w
        match answer with
        | .deleted | .notFound =>
            return (called.rewriteDeletion intentId (.attempt none .providerDeleted), none)
        | .unavailable _ =>
            return (called.rewriteDeletion intentId
              (.attempt (some "storage_unavailable") .pending), some storageUnavailable)
        | .conflict _ =>
            return (called.rewriteDeletion intentId
              (.attempt (some "storage_object_remains") .pending), some storageUnavailable)
        | .processDied _ => return (called, none)

/-! ## Removing the rows -/

/-- Delete a file's row; its receipts' links are set null. -/
def Store.deleteFile (w : Store) (fileId : Id) : Store :=
  { w with
    files := w.files.filter (·.id ≠ fileId)
    deletions := w.deletions.map (fun d =>
      if d.storedFileId = some fileId then { d with storedFileId := none } else d) }

/-- Delete upload intents: no stored file may hold one, their receipts' links are set null. -/
def Store.deleteUploads (w : Store) (uploadIds : List Id) : Except FileError Store := do
  require (∀ f ∈ w.files, ∀ u ∈ uploadIds, f.uploadIntentId ≠ some u)
    (.integrityError "stored_files_upload_intent_id_fkey")
  require (∀ u ∈ uploadIds, (w.upload? u).isSome = true)
    (.runtimeError "KYC purge could not remove every owned upload intent")
  return { w with
    uploads := w.uploads.filter (·.id ∉ uploadIds)
    deletions := w.deletions.map (fun d =>
      if d.uploadIntentId.any (· ∈ uploadIds) then { d with uploadIntentId := none } else d) }

def StoredObjectDeletion.SiblingOf (intent d : StoredObjectDeletion) : Prop :=
  d.ownerType = intent.ownerType ∧ d.ownerId = intent.ownerId

instance (intent d : StoredObjectDeletion) : Decidable (intent.SiblingOf d) :=
  inferInstanceAs (Decidable (_ ∧ _))

/-- The receipts of the intent's owner. -/
def Store.siblings (w : Store) (intent : StoredObjectDeletion) : List StoredObjectDeletion :=
  w.deletions.filter (intent.SiblingOf ·)

def Store.completeSiblings (w : Store) (intent : StoredObjectDeletion) : Store :=
  { w with deletions := w.deletions.map (fun d =>
      if intent.SiblingOf d then { d with state := .completed } else d) }

def Store.unlinkSiblings (w : Store) (intent : StoredObjectDeletion) : Store :=
  { w with deletions := w.deletions.map (fun d =>
      if intent.SiblingOf d then { d with storedFileId := none, uploadIntentId := none } else d) }

/-- One sibling's file goes, unless something refers to it. -/
def Store.deleteSiblingFile (w : Store) (sibling : StoredObjectDeletion) : Store :=
  match sibling.storedFileId.bind w.file? with
  | none => w
  | some file => if w.fileIsReferenced file.id none none then w else w.deleteFile file.id

def terminalKycStatuses : List KycSubmissionStatus := [.rejected, .expired]

/-- `_finalize_kyc_owner`: all files of a purged submission go at once, when the provider has
deleted every one of their objects. -/
def finalizeKycOwner (w : Store) (kind : KycKind) (intent : StoredObjectDeletion) :
    Except FileError (Store × Bool) :=
  if ∃ sibling ∈ w.siblings intent, sibling.state = .pending then return (w, false)
  else
    match w.submission? kind intent.ownerId with
    | none => return (w, false)
    | some submission =>
        if ¬ (submission.status ∈ terminalKycStatuses ∧ submission.purgedAt.isSome) then
          return (w, false)
        else if w.documentsOf kind submission.id ≠ [] then return (w, false)
        else do
          let uploadIds := (w.siblings intent).filterMap (·.uploadIntentId)
          let filesGone := (w.siblings intent).foldl Store.deleteSiblingFile w
          let uploadsGone ← (filesGone.unlinkSiblings intent).deleteUploads uploadIds
          return (uploadsGone.completeSiblings intent, true)

/-- Delete the upload intent of a removed file, when no other file holds it. -/
def Store.deleteUnusedUpload (w : Store) : Option Id → Except FileError Store
  | none => return w
  | some uploadId =>
      if w.files.any (·.uploadIntentId = some uploadId) ∨ (w.upload? uploadId).isNone then return w
      else w.deleteUploads [uploadId]

/-- `finalize_stored_object_deletion`. -/
def finalizeStoredObjectDeletion (w : Store) (intentId : Id) : Except FileError (Store × Bool) :=
  match w.deletion? intentId with
  | none => return (w, false)
  | some intent =>
      if intent.state = .completed then return (w, true)
      else if intent.state ≠ .providerDeleted then return (w, false)
      else
        match intent.ownerType.kycKind, intent.storedFileId, intent.uploadIntentId with
        | some kind, _, _ => finalizeKycOwner w kind intent
        | none, some fileId, _ =>
            match w.file? fileId with
            | none =>
                return (w.rewriteDeletion intentId (fun d => { d with state := .completed }), true)
            | some file =>
                if w.fileIsReferenced file.id none none then return (w, false)
                else do
                  let uploadGone ← (w.deleteFile file.id).deleteUnusedUpload file.uploadIntentId
                  return (uploadGone.rewriteDeletion intentId
                    (fun d => { d with state := .completed }), true)
        | none, none, some uploadId =>
            if ∃ sibling ∈ w.siblings intent, sibling.state = .pending then return (w, false)
            else
              let expired : Store :=
                { w with uploads := w.uploads.map (fun u =>
                    if u.id = uploadId then { u with status := .expired } else u) }
              return (expired.completeSiblings intent, true)
        | none, none, none =>
            return (w.rewriteDeletion intentId (fun d => { d with state := .completed }), true)

/-- What `process_stored_object_deletions` selects: an open receipt, of a KYC submission only
when the submission is purged. -/
def Store.Selectable (w : Store) (intent : StoredObjectDeletion) : Prop :=
  intent.state ≠ .completed ∧
    intent.ownerType.kycKind.all
      (fun kind => (w.submission? kind intent.ownerId).any (·.purgedAt.isSome)) = true

instance (w : Store) (intent : StoredObjectDeletion) : Decidable (w.Selectable intent) :=
  inferInstanceAs (Decidable (_ ∧ _))

end Files
end Mobility
