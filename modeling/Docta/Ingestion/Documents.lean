/-
Module: Docta.Ingestion.Documents
Purpose: The document service: creating an upload, confirming it in three phases
  around a call to the object store, reading a version, and activating a corpus
  by a readiness check and a conditional update.
Trusted boundary: the digest of a request and Unicode tables are parameters; the
  object store answers anything
Main exports: DocumentService.createUpload, existingConfirmation, loadUpload,
  validateStoredObject, confirm, getVersion, checkActivation, activate
-/
import Docta.Ingestion.Jobs
import Docta.Library.Text

namespace Docta

open Table Fallible

/-! ### Requests and views -/

/-- A value of a request that is hashed. -/
inductive RequestValue where
  | text (value : String)
  | number (value : Nat)
deriving DecidableEq, Repr

structure UploadRequest where
  filename : String
  sizeBytes : Nat
  expectedSha256 : String
  mediaType : String
deriving DecidableEq, Repr

structure UploadRecord where
  documentId : UUID
  versionId : UUID
  storageKey : String
  state : DocumentVersionState
deriving DecidableEq, Repr

structure VersionView where
  documentId : UUID
  versionId : UUID
  state : DocumentVersionState
  failureCode : Option String
  pageCount : Option Nat
  chunkCount : Option Nat
  corpusVersionId : Option UUID
  jobId : Option UUID
  jobState : Option IngestionJobState
deriving DecidableEq, Repr

structure ActivationView where
  courseId : UUID
  activeCorpusVersionId : UUID
  courseVersion : Nat
deriving DecidableEq, Repr

/-- What the object store tells about a stored object. -/
structure StoredObjectMetadata where
  sizeBytes : Nat
  mediaType : Option String
  metadata : List (String × String)
  versionId : Option String
deriving DecidableEq, Repr

/-- Which version of which document of which course. -/
structure VersionPath where
  courseId : UUID
  documentId : UUID
  versionId : UUID
deriving DecidableEq, Repr

namespace DocumentService

/-- The constructor arguments of the service, with the digest of a request and
the Unicode tables of its host language. -/
structure Settings where
  environment : String
  maxDocumentBytes : Nat
  pipelineVersion : String
  digest : List (String × RequestValue) → String
  unicode : Text.UnicodeData

/-! ### Checks -/

/-- The user teaches the course. -/
def teaches (tables : Identity) (userId courseId : UUID) : Bool :=
  tables.memberships.any fun row =>
    row.userId == userId && row.courseId == courseId && row.role == .teacher

/-- `_authorized_teacher_user_id(session, identity, course_id)` -/
def authorizedTeacher (tables : Identity) (who : AuthenticatedIdentity) (courseId : UUID) :
    Except Failure UUID :=
  match tables.users.find? fun user => isSubject who user && teaches tables user.id courseId with
  | some user => .ok user.id
  | none => .error .documentResourceNotFound

/-- `_validated_idempotency_key(value)` -/
def validatedIdempotencyKey : Option String → Except Failure String
  | none => .error .idempotencyKeyMissing
  | some value => do
      failIf (Text.isBlank value = true) .idempotencyKeyMissing
      failIf (255 < (Text.strip value).length) .idempotencyKeyMissing
      return Text.strip value

/-- The part of a path after its last slash. -/
def afterLastSlash (text : List Char) : List Char :=
  (text.reverse.takeWhile (· ≠ '/')).reverse

/-- `_sanitize_filename(filename)` -/
def sanitizeFilename (unicode : Text.UnicodeData) (filename : String) : Except Failure String := do
  let slashed := filename.toList.map fun char => if char = '\\' then '/' else char
  let safe := Text.stripChars ((afterLastSlash slashed).filter unicode.isPrintable)
  failIf (safe = [] ∨ 255 < safe.length ∨ ¬ ".pdf".toList <:+ unicode.lower safe)
    (.uploadValidation "DOCUMENT_INVALID_FILENAME" 422)
  return String.ofList safe

/-- `_document_title(filename)` -/
def documentTitle (filename : String) : String :=
  let title := Text.stripChars (filename.toList.take (filename.length - 4))
  if title = [] then "Untitled document" else String.ofList title

/-- `_validate_stored_object(metadata, record)` -/
def validateStoredObject (settings : Settings) (metadata : StoredObjectMetadata)
    (record : DocumentVersion) : Except Failure Unit := do
  failIf (settings.maxDocumentBytes < metadata.sizeBytes)
    (.uploadValidation "DOCUMENT_TOO_LARGE" 413)
  failIf (metadata.sizeBytes ≠ record.expectedSizeBytes)
    (.uploadValidation "DOCUMENT_SIZE_MISMATCH" 422)
  let mediaType := ((metadata.mediaType.getD "").toList.takeWhile (· ≠ ';'))
  failIf (settings.unicode.lower (Text.stripChars mediaType) ≠ "application/pdf".toList)
    (.uploadValidation "DOCUMENT_INVALID_CONTENT_TYPE" 422)
  let sha256 := ((metadata.metadata.find? fun entry => entry.1 == "sha256").map (·.2)).getD ""
  failIf (settings.unicode.lower sha256.toList ≠ record.expectedSha256.toList)
    (.uploadValidation "DOCUMENT_CHECKSUM_METADATA_MISMATCH" 422)
  failIf (metadata.versionId = none) (.uploadValidation "OBJECT_STORAGE_VERSIONING_REQUIRED" 503)

/-! ### Queries -/

/-- `one_or_none()` -/
def oneOrNone {α : Type} : List α → Except Failure (Option α)
  | [] => .ok none
  | [row] => .ok (some row)
  | _ => .error .resultCount

/-- The versions of a path. -/
def versionsAt (material : Material) (path : VersionPath) : List DocumentVersion :=
  material.documentVersions.filter fun version =>
    version.courseId == path.courseId && version.documentId == path.documentId &&
      version.id == path.versionId

/-- The jobs of a version. -/
def jobsOf (material : Material) (versionId : UUID) : List IngestionJob :=
  material.ingestionJobs.filter (·.documentVersionId == versionId)

/-- The corpora of a version. -/
def corporaOf (material : Material) (versionId : UUID) : List CorpusVersionDocument :=
  material.corpusVersionDocuments.filter (·.documentVersionId == versionId)

/-! ### Methods -/

section Methods

variable (settings : Settings) (tables : Identity)

/-- The hash of an upload request. -/
def uploadHash (filename : String) (request : UploadRequest) : String :=
  settings.digest [("filename", .text filename), ("size_bytes", .number request.sizeBytes),
    ("sha256", .text request.expectedSha256), ("content_type", .text request.mediaType)]

/-- The hash of a confirmation request. -/
def confirmationHash (path : VersionPath) : String :=
  settings.digest [("course_id", .text path.courseId.text),
    ("document_id", .text path.documentId.text), ("version_id", .text path.versionId.text)]

/-- The storage key of a new version. -/
def storageKey (courseId documentId versionId : UUID) : String :=
  settings.environment ++ "/courses/" ++ courseId.text ++ "/documents/" ++ documentId.text ++
    "/versions/" ++ versionId.text ++ "/source.pdf"

/-- The version row `create_upload` inserts. -/
def newVersion (courseId documentId versionId : UUID) (filename key : String)
    (request : UploadRequest) : DocumentVersion where
  id := versionId
  courseId := courseId
  documentId := documentId
  storageKey := storageKey settings courseId documentId versionId
  originalFilename := filename
  expectedSizeBytes := request.sizeBytes
  expectedSha256 := request.expectedSha256
  mediaType := request.mediaType
  state := .awaitingUpload
  pipelineVersion := settings.pipelineVersion
  uploadIdempotencyKey := key
  uploadRequestHash := uploadHash settings filename request

/-- What a version row is shown as after `create_upload`. -/
def uploadRecord (version : DocumentVersion) : UploadRecord where
  documentId := version.documentId
  versionId := version.id
  storageKey := version.storageKey
  state := version.state

/-- The transaction of `create_upload(...)`. -/
def createUpload (who : AuthenticatedIdentity) (courseId : UUID) (request : UploadRequest)
    (key : Option String) (documentId versionId : UUID) (material : Material) :
    Except Failure (UploadRecord × Material) := do
  let key ← validatedIdempotencyKey key
  failIf (settings.maxDocumentBytes < request.sizeBytes)
    (.uploadValidation "DOCUMENT_TOO_LARGE" 413)
  let filename ← sanitizeFilename settings.unicode request.filename
  let userId ← authorizedTeacher tables who courseId
  match material.documentVersions.find? fun version =>
      version.courseId == courseId && version.uploadIdempotencyKey == key with
  | some existing => do
      failIf (existing.uploadRequestHash ≠ uploadHash settings filename request)
        .idempotencyKeyReused
      failIf (existing.state ≠ .awaitingUpload) .uploadNotReady
      return (uploadRecord existing, material)
  | none => do
      let document : Document :=
        { id := documentId, courseId, title := documentTitle filename, createdByUserId := userId }
      let version := newVersion settings courseId documentId versionId filename key request
      let written : Material :=
        { material with
          documents := material.documents ++ [document]
          documentVersions := material.documentVersions ++ [version] }
      let committed ← written.commit
      return (uploadRecord version, committed)

/-- `_existing_confirmation(...)`: the job of an earlier confirmation. -/
def existingConfirmation (who : AuthenticatedIdentity) (path : VersionPath) (key hash : String)
    (material : Material) : Except Failure (Option (UUID × IngestionJobState)) := do
  let _ ← authorizedTeacher tables who path.courseId
  let row ← oneOrNone
    (outerJoin (versionsAt material path) fun version => jobsOf material version.id)
  match row with
  | none => .error .documentResourceNotFound
  | some (version, job) =>
      if version.confirmationIdempotencyKey = none then .ok none
      else do
        failIf (version.confirmationIdempotencyKey ≠ some key ∨
          version.confirmationRequestHash ≠ some hash) .idempotencyKeyReused
        match job with
        | none => .error (.runtime "confirmed document has no ingestion job")
        | some job => .ok (some (job.id, job.state))

/-- `_load_upload(...)` -/
def loadUpload (who : AuthenticatedIdentity) (path : VersionPath) (material : Material) :
    Except Failure DocumentVersion := do
  let _ ← authorizedTeacher tables who path.courseId
  match (versionsAt material path).head? with
  | some version => .ok version
  | none => .error .documentResourceNotFound

/-- The version columns a confirmation assigns. -/
def confirmedVersion (key hash : String) (metadata : StoredObjectMetadata)
    (version : DocumentVersion) : DocumentVersion :=
  { version with
    confirmationIdempotencyKey := some key
    confirmationRequestHash := some hash
    objectSizeBytes := some metadata.sizeBytes
    storageVersionId := metadata.versionId
    state := .queued }

/-- The job row a confirmation inserts. -/
def newJob (version : DocumentVersion) (courseId jobId : UUID) (correlationId : String)
    (now : Time) : IngestionJob where
  id := jobId
  courseId := courseId
  documentVersionId := version.id
  pipelineVersion := version.pipelineVersion
  state := .pending
  correlationId := correlationId
  nextAttemptAt := now

/-- The last transaction of `confirm_upload(...)`, with what the object store
said; `stamp` is the dispatched event's. -/
def confirm (who : AuthenticatedIdentity) (path : VersionPath) (key correlationId : String)
    (metadata : StoredObjectMetadata) (jobId : UUID) (stamp : Stamp) (material : Material) :
    Except Failure Material := do
  let hash := confirmationHash settings path
  let _ ← authorizedTeacher tables who path.courseId
  match (versionsAt material path).head? with
  | none => .error .documentResourceNotFound
  | some version =>
      if version.confirmationIdempotencyKey ≠ none then do
        failIf (version.confirmationIdempotencyKey ≠ some key ∨
          version.confirmationRequestHash ≠ some hash) .idempotencyKeyReused
        match (jobsOf material version.id).head? with
        | none => .error (.runtime "confirmed document has no ingestion job")
        | some _ => .ok material
      else do
        failIf (version.state ≠ .awaitingUpload) .uploadNotReady
        let job := newJob version path.courseId jobId correlationId stamp.now
        let written : Material :=
          { material with
            documentVersions := updateWhere material.documentVersions (·.id == version.id)
              (confirmedVersion key hash metadata)
            ingestionJobs := material.ingestionJobs ++ [job] }
        -- `dispatch` flushes before it inserts the event.
        let flushed ← written.commit
        { flushed with
          outboxEvents := OutboxJobDispatcher.dispatch stamp job flushed.outboxEvents }.commit

/-- `get_version(...)` -/
def getVersion (who : AuthenticatedIdentity) (path : VersionPath) (material : Material) :
    Except Failure VersionView := do
  let _ ← authorizedTeacher tables who path.courseId
  let row ← oneOrNone <|
    outerJoin (outerJoin (versionsAt material path) fun version => corporaOf material version.id)
      fun row => jobsOf material row.1.id
  match row with
  | none => .error .documentResourceNotFound
  | some ((version, corpus), job) =>
      .ok { documentId := version.documentId, versionId := version.id, state := version.state
            failureCode := version.failureCode, pageCount := version.pageCount
            chunkCount := version.chunkCount
            corpusVersionId := corpus.map (·.corpusVersionId)
            jobId := job.map (·.id), jobState := job.map (·.state) }

/-- The reads of `activate_corpus(...)`. -/
def checkActivation (who : AuthenticatedIdentity) (courseId corpusVersionId : UUID)
    (material : Material) : Except Failure Unit := do
  let _ ← authorizedTeacher tables who courseId
  match material.corpusVersions.find? fun corpus =>
      corpus.id == corpusVersionId && corpus.courseId == courseId with
  | none => .error .documentResourceNotFound
  | some corpus => failIf (corpus.state ≠ .ready) .corpusNotReady

/-- The conditional update of `activate_corpus(...)`. -/
def activate (courseId corpusVersionId : UUID) (expectedCourseVersion : Nat)
    (material : Material) : Except Failure (ActivationView × Material) :=
  match material.courses.find? fun course =>
      course.id == courseId && course.version == expectedCourseVersion with
  | none => .error .publicationConflict
  | some course => do
      let written : Material :=
        { material with
          courses := updateWhere material.courses
            (fun course => course.id == courseId && course.version == expectedCourseVersion)
            fun course =>
              { course with
                activeCorpusVersionId := some corpusVersionId
                version := course.version + 1 } }
      let committed ← written.commit
      return ({ courseId, activeCorpusVersionId := corpusVersionId
                courseVersion := course.version + 1 }, committed)

/-- `activate_corpus(...)`: its reads find the tables `checked`, its update the
tables `material`. -/
def activateCorpus (who : AuthenticatedIdentity) (courseId corpusVersionId : UUID)
    (expectedCourseVersion : Nat) (checked material : Material) :
    Except Failure (ActivationView × Material) := do
  checkActivation tables who courseId corpusVersionId checked
  activate courseId corpusVersionId expectedCourseVersion material

end Methods

end DocumentService

end Docta
