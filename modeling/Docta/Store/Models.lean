/-
Module: Docta.Store.Models
Purpose: The rows of the identity and course-material tables, with the
  constraints the schema declares on them, and why an operation is refused.
Trusted boundary: none
Main exports: Failure, Identity, Material, Material.Constraints, Material.commit
-/
import Docta.Contract.Uuid
import Docta.Library.Table
import Docta.Library.Text
import Mathlib.Tactic.MkIffOfInductiveProp

namespace Docta

export Contract (UUID)

open Table

/-- A database timestamp, in microseconds. -/
abbrev Time := Int

/-- `timedelta(seconds=...)`. -/
def seconds (count : Nat) : Time := count * 1000000

/-- How an operation ends when it raises. -/
inductive Failure where
  /-- `APIError(status_code, code, message)` -/
  | api (statusCode : Nat) (code message : String)
  /-- `RAGFailure(code)` -/
  | rag (code : String)
  /-- a `ValidationError` of a model constructed by the application -/
  | validation (error : String)
  /-- an `IntegrityError` of the database -/
  | integrity
  /-- `ValueError(message)` -/
  | value (message : String)
  /-- `RuntimeError(message)` -/
  | runtime (message : String)
  /-- `.one()` or `.one_or_none()` met another number of rows -/
  | resultCount
  | documentResourceNotFound
  | idempotencyKeyMissing
  | idempotencyKeyReused
  | uploadNotReady
  | uploadValidation (code : String) (statusCode : Nat)
  | corpusNotReady
  | publicationConflict
  | invalidJobEnvelope
  | storedObjectNotFound
  | objectStorageUnavailable
deriving DecidableEq, Repr

/-! ### Users and memberships -/

/-- The verified subject of a request. -/
structure AuthenticatedIdentity where
  issuer : String
  subject : String
deriving DecidableEq, Repr

inductive MembershipRole where
  | teacher
  | student
deriving DecidableEq, Repr

structure User where
  id : UUID
  oidcIssuer : String
  oidcSubject : String
deriving DecidableEq, Repr

structure CourseMembership where
  courseId : UUID
  userId : UUID
  role : MembershipRole
deriving DecidableEq, Repr

/-- The tables that say who may do what. -/
structure Identity where
  users : List User
  memberships : List CourseMembership
deriving DecidableEq, Repr

/-- `uq_users_oidc_identity` and the primary keys. -/
@[mk_iff] structure Identity.Constraints (identity : Identity) : Prop where
  userIds : UniqueOn (·.id) identity.users
  oidcIdentities : UniqueOn (fun user => (user.oidcIssuer, user.oidcSubject)) identity.users
  membershipKeys : UniqueOn (fun row => (row.courseId, row.userId)) identity.memberships

/-- The user is the verified subject. -/
def isSubject (who : AuthenticatedIdentity) (user : User) : Bool :=
  user.oidcIssuer == who.issuer && user.oidcSubject == who.subject

/-- The user belongs to the course, in any role. -/
def belongs (tables : Identity) (userId courseId : UUID) : Bool :=
  tables.memberships.any fun row => row.userId == userId && row.courseId == courseId

/-! ### Course material -/

inductive DocumentVersionState where
  | awaitingUpload
  | queued
  | processing
  | indexed
  | failed
  | rejected
  | ocrRequired
deriving DecidableEq, Repr

inductive CorpusVersionState where
  | building
  | ready
  | failed
  | retired
deriving DecidableEq, Repr

inductive IngestionJobState where
  | pending
  | running
  | succeeded
  | failed
deriving DecidableEq, Repr

structure Course where
  id : UUID
  version : Nat
  activeCorpusVersionId : Option UUID
deriving DecidableEq, Repr

structure Document where
  id : UUID
  courseId : UUID
  title : String
  createdByUserId : UUID
deriving DecidableEq, Repr

structure DocumentVersion where
  id : UUID
  courseId : UUID
  documentId : UUID
  storageKey : String
  storageVersionId : Option String := none
  originalFilename : String
  expectedSizeBytes : Nat
  expectedSha256 : String
  mediaType : String
  state : DocumentVersionState
  pipelineVersion : String
  parserVersion : Option String := none
  uploadIdempotencyKey : String
  uploadRequestHash : String
  confirmationIdempotencyKey : Option String := none
  confirmationRequestHash : Option String := none
  objectSizeBytes : Option Nat := none
  objectSha256 : Option String := none
  pageCount : Option Nat := none
  chunkCount : Option Nat := none
  failureCode : Option String := none
deriving DecidableEq, Repr

structure CorpusVersion where
  id : UUID
  courseId : UUID
  state : CorpusVersionState
  pipelineVersion : String
  pageCount : Nat
  chunkCount : Nat
deriving DecidableEq, Repr

structure CorpusVersionDocument where
  corpusVersionId : UUID
  documentVersionId : UUID
  courseId : UUID
deriving DecidableEq, Repr

structure Chunk where
  id : UUID
  courseId : UUID
  corpusVersionId : UUID
  documentVersionId : UUID
  pageStart : Nat
  pageEnd : Nat
  ordinal : Nat
  content : String
  contentHash : String
deriving DecidableEq, Repr

/-- One component of an embedding: a finite number, or `none` for an infinity
or a NaN. -/
abbrev Component := Option Rat

structure ChunkEmbedding where
  chunkId : UUID
  embeddingVersion : String
  courseId : UUID
  corpusVersionId : UUID
  dims : Nat
  embedding : List Component
deriving DecidableEq, Repr

inductive JobType where
  | ingestion
deriving DecidableEq, Repr

structure IngestionJob where
  id : UUID
  courseId : UUID
  documentVersionId : UUID
  jobType : JobType := .ingestion
  pipelineVersion : String
  state : IngestionJobState
  attempt : Nat := 0
  fencingToken : Nat := 0
  correlationId : String
  failureCode : Option String := none
  completedAt : Option Time := none
  leaseExpiresAt : Option Time := none
  nextAttemptAt : Time
deriving DecidableEq, Repr

inductive OutboxKind where
  | ingestion
  | dead
deriving DecidableEq, Repr

structure OutboxEvent where
  id : UUID
  courseId : UUID
  jobId : UUID
  kind : OutboxKind
  availableAt : Time
  createdAt : Time
  publishedAt : Option Time := none
  publishToken : Option UUID := none
  publishLeaseUntil : Option Time := none
deriving DecidableEq, Repr

/-- The tables of courses, documents, corpora, jobs and the outbox. -/
structure Material where
  courses : List Course := []
  documents : List Document := []
  documentVersions : List DocumentVersion := []
  corpusVersions : List CorpusVersion := []
  corpusVersionDocuments : List CorpusVersionDocument := []
  chunks : List Chunk := []
  chunkEmbeddings : List ChunkEmbedding := []
  ingestionJobs : List IngestionJob := []
  outboxEvents : List OutboxEvent := []
deriving DecidableEq, Repr

/-- `^[0-9a-f]{64}$` -/
def isSha256 (text : String) : Bool :=
  text.length == 64 &&
    text.toList.all fun char =>
      (decide ('0' ≤ char) && decide (char ≤ '9')) || (decide ('a' ≤ char) && decide (char ≤ 'f'))

/-- A nullable text column of bounded length. -/
def fits (bound : Nat) (text : Option String) : Bool :=
  text.all (·.length ≤ bound)

/-- The column checks and lengths of a document version. -/
@[mk_iff] structure DocumentVersion.Checks (version : DocumentVersion) : Prop where
  expectedSize : 0 < version.expectedSizeBytes
  expectedSha256 : isSha256 version.expectedSha256 = true
  storageKey : version.storageKey.length ≤ 1024
  storageVersionId : fits 255 version.storageVersionId = true
  originalFilename : version.originalFilename.length ≤ 255
  mediaType : version.mediaType.length ≤ 100
  pipelineVersion : version.pipelineVersion.length ≤ 100
  parserVersion : fits 100 version.parserVersion = true
  uploadIdempotencyKey : version.uploadIdempotencyKey.length ≤ 255
  uploadRequestHash : version.uploadRequestHash.length ≤ 64
  confirmationIdempotencyKey : fits 255 version.confirmationIdempotencyKey = true
  confirmationRequestHash : fits 64 version.confirmationRequestHash = true
  objectSha256 : fits 64 version.objectSha256 = true
  failureCode : fits 64 version.failureCode = true

section

attribute [local instance] Text.decideShort

instance (version : DocumentVersion) : Decidable version.Checks :=
  decidable_of_iff' _ (DocumentVersion.checks_iff version)

end

/-- The column checks and lengths of a chunk. -/
def Chunk.Checks (chunk : Chunk) : Prop :=
  0 < chunk.pageStart ∧ chunk.pageStart ≤ chunk.pageEnd ∧ chunk.contentHash.length ≤ 64

instance (chunk : Chunk) : Decidable chunk.Checks :=
  inferInstanceAs (Decidable (_ ∧ _ ∧ _))

/-- The column checks of an embedding; the vector type holds finite numbers. -/
def ChunkEmbedding.Checks (row : ChunkEmbedding) : Prop :=
  0 < row.dims ∧ row.embedding.length = row.dims ∧
    (∀ value ∈ row.embedding, value.isSome = true) ∧ row.embeddingVersion.length ≤ 200

instance (row : ChunkEmbedding) : Decidable row.Checks :=
  inferInstanceAs (Decidable (_ ∧ _ ∧ _ ∧ _))

/-- The lengths of a job's columns. -/
def IngestionJob.Checks (job : IngestionJob) : Prop :=
  job.pipelineVersion.length ≤ 100 ∧ job.correlationId.length ≤ 100 ∧
    fits 64 job.failureCode = true

instance (job : IngestionJob) : Decidable job.Checks :=
  inferInstanceAs (Decidable (_ ∧ _ ∧ _))

/-- Primary keys, unique constraints, foreign keys and column checks. -/
@[mk_iff] structure Material.Constraints (material : Material) : Prop where
  courseIds : UniqueOn (·.id) material.courses
  documentIds : UniqueOn (·.id) material.documents
  documentCourse : ∀ row ∈ material.documents, ∃ course ∈ material.courses,
    course.id = row.courseId
  documentTitles : ∀ row ∈ material.documents, row.title.length ≤ 255
  versionIds : UniqueOn (·.id) material.documentVersions
  storageKeys : UniqueOn (·.storageKey) material.documentVersions
  uploadKeys : UniqueOn (fun row => (row.courseId, row.uploadIdempotencyKey))
    material.documentVersions
  versionDocument : ∀ row ∈ material.documentVersions, ∃ document ∈ material.documents,
    document.courseId = row.courseId ∧ document.id = row.documentId
  versionChecks : ∀ row ∈ material.documentVersions, row.Checks
  corpusIds : UniqueOn (·.id) material.corpusVersions
  corpusCourse : ∀ row ∈ material.corpusVersions, ∃ course ∈ material.courses,
    course.id = row.courseId
  corpusPipelines : ∀ row ∈ material.corpusVersions, row.pipelineVersion.length ≤ 100
  corpusDocumentKeys : UniqueOn (fun row => (row.corpusVersionId, row.documentVersionId))
    material.corpusVersionDocuments
  corpusDocumentCorpus : ∀ row ∈ material.corpusVersionDocuments,
    ∃ corpus ∈ material.corpusVersions,
      corpus.courseId = row.courseId ∧ corpus.id = row.corpusVersionId
  corpusDocumentVersion : ∀ row ∈ material.corpusVersionDocuments,
    ∃ version ∈ material.documentVersions,
      version.courseId = row.courseId ∧ version.id = row.documentVersionId
  chunkIds : UniqueOn (·.id) material.chunks
  chunkOrdinals : UniqueOn (fun row => (row.corpusVersionId, row.ordinal)) material.chunks
  chunkCorpus : ∀ row ∈ material.chunks, ∃ corpus ∈ material.corpusVersions,
    corpus.courseId = row.courseId ∧ corpus.id = row.corpusVersionId
  chunkVersion : ∀ row ∈ material.chunks, ∃ version ∈ material.documentVersions,
    version.courseId = row.courseId ∧ version.id = row.documentVersionId
  chunkChecks : ∀ row ∈ material.chunks, row.Checks
  embeddingKeys : UniqueOn (fun row => (row.chunkId, row.embeddingVersion))
    material.chunkEmbeddings
  embeddingChunk : ∀ row ∈ material.chunkEmbeddings, ∃ chunk ∈ material.chunks,
    chunk.courseId = row.courseId ∧ chunk.corpusVersionId = row.corpusVersionId ∧
      chunk.id = row.chunkId
  embeddingChecks : ∀ row ∈ material.chunkEmbeddings, row.Checks
  jobIds : UniqueOn (·.id) material.ingestionJobs
  logicalJobs : UniqueOn (fun row => (row.jobType, row.documentVersionId, row.pipelineVersion))
    material.ingestionJobs
  jobChecks : ∀ row ∈ material.ingestionJobs, row.Checks
  jobVersion : ∀ row ∈ material.ingestionJobs, ∃ version ∈ material.documentVersions,
    version.courseId = row.courseId ∧ version.id = row.documentVersionId
  eventIds : UniqueOn (·.id) material.outboxEvents
  eventKinds : UniqueOn (fun row => (row.jobId, row.kind)) material.outboxEvents
  eventJob : ∀ row ∈ material.outboxEvents, ∃ job ∈ material.ingestionJobs,
    job.courseId = row.courseId ∧ job.id = row.jobId
  activeCorpus : ∀ course ∈ material.courses, ∀ corpusId ∈ course.activeCorpusVersionId,
    ∃ corpus ∈ material.corpusVersions, corpus.id = corpusId

instance (identity : Identity) : Decidable identity.Constraints :=
  decidable_of_iff' _ (Identity.constraints_iff identity)

instance (material : Material) : Decidable material.Constraints :=
  decidable_of_iff' _ (Material.constraints_iff material)

/-- The end of a transaction: the written tables are committed when they meet
the constraints, else the database raises and nothing is written. -/
def Material.commit (material : Material) : Except Failure Material :=
  if material.Constraints then .ok material else .error .integrity

@[simp] theorem Material.commit_eq_ok {material committed : Material} :
    material.commit = .ok committed ↔ material.Constraints ∧ material = committed := by
  unfold Material.commit
  by_cases meets : material.Constraints
  · simp [meets]
  · simp [meets]

/-- A commit that raises is an integrity error. -/
theorem Material.commit_eq_error {material : Material} {failure : Failure} :
    material.commit = .error failure ↔ ¬ material.Constraints ∧ failure = .integrity := by
  unfold Material.commit
  by_cases meets : material.Constraints
  · simp [meets]
  · simp [meets, eq_comm]

end Docta
