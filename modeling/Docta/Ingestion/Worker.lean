/-
Module: Docta.Ingestion.Worker
Purpose: The ingestion worker: claiming a job under a fencing token and a lease,
  the work outside any transaction, and persisting its success or failure only
  while the token is the latest and the lease has not run out.
Trusted boundary: the object store, the parser and the embedder answer anything;
  a retry is delayed by any amount; what the vector column keeps of a number is a
  parameter
Main exports: IngestionWorker.claim, IngestionWorker.work,
  IngestionWorker.persistSuccess, IngestionWorker.persistFailure,
  IngestionWorker.acknowledgeable
-/
import Docta.Ingestion.Jobs
import Docta.Library.BinaryFormat

namespace Docta

open Table Fallible

structure ClaimedJob where
  id : UUID
  courseId : UUID
  documentVersionId : UUID
  storageKey : String
  storageVersionId : String
  expectedSizeBytes : Nat
  expectedSha256 : String
  pipelineVersion : String
  fencingToken : Nat
deriving DecidableEq, Repr

structure ParsedChunk where
  page : Nat
  ordinal : Nat
  content : String
  contentHash : String
deriving DecidableEq, Repr

/-- What the parser and `build_chunks` make of a document. -/
structure Extraction where
  pages : Nat
  chunks : List ParsedChunk
  parserVersion : String
deriving DecidableEq, Repr

/-- Everything one run hands to `_persist_success`. -/
structure Output extends Extraction where
  sizeBytes : Nat
  sha256 : String
  embeddings : Option (List (List Component))
deriving DecidableEq, Repr

/-- The states a failed run may leave its version in. -/
inductive FailureState where
  | failed
  | rejected
  | ocrRequired
deriving DecidableEq, Repr

def FailureState.toState : FailureState → DocumentVersionState
  | .failed => .failed
  | .rejected => .rejected
  | .ocrRequired => .ocrRequired

/-- Why a run failed, as `_persist_failure` is told. -/
structure Rejection where
  code : String
  state : FailureState
  transient : Bool := false
deriving DecidableEq, Repr

/-- The bytes of an object, through what the worker computes from them. -/
structure Content where
  size : Nat
  sha256 : String
deriving DecidableEq, Repr

inductive StorageFailure where
  | tooLarge
  | notFound
  | unavailable
  | other
deriving DecidableEq, Repr

inductive EmbeddingFailure where
  | invalid
  | unavailable
  | other
deriving DecidableEq, Repr

/-- What the world answers one run. -/
structure Responses where
  /-- `object_storage.read(...)` -/
  read : Except StorageFailure Content
  /-- `parser.parse` and `build_chunks`; an unclassified exception is `none` -/
  extract : Except (Option (String × FailureState)) Extraction
  /-- whether the deadline has passed before a batch -/
  late : Nat → Bool
  /-- `embedder.embed_documents(batch)` -/
  embedded : Nat → Except EmbeddingFailure (List (List Component))

/-- An embedder, with the dimensions its version encodes, if it does. -/
structure Embedder where
  version : String
  expectedDims : Option Nat
deriving DecidableEq, Repr

namespace IngestionWorker

/-- The constructor arguments of the worker, and the vector column that it writes. -/
structure Settings where
  zone : TimeZone
  leaseSeconds : Nat := 300
  maxAttempts : Nat := 3
  embedder : Option Embedder := none
  /-- the single precision number that the column keeps, or nothing for a number that it
  refuses -/
  column : Rat → Component := BinaryFormat.binary32.nearest

/-- What the vector column keeps of a vector. -/
def Settings.stored (settings : Settings) (vector : List Component) : List Component :=
  vector.map fun component => component.bind settings.column

/-! ### Claiming -/

/-- The job a claim of an exhausted job leaves. -/
def exhausted (now : Time) (job : IngestionJob) : IngestionJob :=
  { job with
    state := .failed
    failureCode := some "INGESTION_ATTEMPTS_EXHAUSTED"
    completedAt := some now
    leaseExpiresAt := none
    fencingToken := job.fencingToken + 1 }

/-- The job a claim leaves. -/
def running (settings : Settings) (now : Time) (job : IngestionJob) : IngestionJob :=
  { job with
    state := .running
    attempt := job.attempt + 1
    fencingToken := job.fencingToken + 1
    leaseExpiresAt := some (now + seconds settings.leaseSeconds) }

/-- The versions a job is about. -/
def concerns (job : IngestionJob) (version : DocumentVersion) : Bool :=
  version.id == job.documentVersionId && version.courseId == job.courseId

/-- The versions a claim moves. -/
def claimable (job : IngestionJob) (version : DocumentVersion) : Bool :=
  concerns job version && (version.state == .queued || version.state == .processing)

/-- The branch of `_claim` for an exhausted job. -/
def exhaust (now : Time) (stamp : Stamp) (job : IngestionJob) (material : Material) :
    Except Failure Material :=
  { material with
    ingestionJobs := updateWhere material.ingestionJobs (·.id == job.id) (exhausted now)
    documentVersions := updateWhere material.documentVersions (concerns job) fun version =>
      { version with state := .failed, failureCode := some "INGESTION_ATTEMPTS_EXHAUSTED" }
    outboxEvents := recordDeadLetter stamp job material.outboxEvents }.commit

/-- The branch of `_claim` that takes the job. -/
def take (settings : Settings) (now : Time) (job : IngestionJob) (material : Material) :
    Except Failure (Option ClaimedJob × Material) := do
  failIf ((material.documentVersions.filter (claimable job)).length ≠ 1)
    (.runtime "document version could not enter PROCESSING")
  let versions := updateWhere material.documentVersions (claimable job) fun version =>
    { version with state := .processing }
  match versions.filter (·.id == job.documentVersionId) with
  | [version] =>
      match version.storageVersionId with
      | none => .error (.runtime "document version has no immutable storage version")
      | some storageVersionId => do
          let written : Material :=
            { material with
              ingestionJobs :=
                updateWhere material.ingestionJobs (·.id == job.id) (running settings now)
              documentVersions := versions }
          let committed ← written.commit
          return (some
            { id := job.id, courseId := job.courseId, documentVersionId := job.documentVersionId
              storageKey := version.storageKey, storageVersionId
              expectedSizeBytes := version.expectedSizeBytes
              expectedSha256 := version.expectedSha256, pipelineVersion := job.pipelineVersion
              fencingToken := job.fencingToken + 1 }, committed)
  | _ => .error .resultCount

/-- The job is held or not yet due. -/
def waits (now : Time) (job : IngestionJob) : Bool :=
  (job.state == .pending && decide (now < job.nextAttemptAt)) ||
    (job.state == .running && job.leaseExpiresAt.any (now < ·))

/-- `_claim(envelope)`: the claimed job, or nothing when the delivery is to be
ignored. -/
def claim (settings : Settings) (envelope : JobEnvelope) (now : Time) (stamp : Stamp)
    (material : Material) : Except Failure (Option ClaimedJob × Material) :=
  match material.ingestionJobs.find? (·.id == envelope.jobId),
      material.outboxEvents.find? (·.id == envelope.eventId) with
  | some job, some event =>
      if event.kind = .ingestion ∧ event.jobId = job.id ∧
          envelopeFor settings.zone event job = envelope then
        if job.state = .succeeded ∨ job.state = .failed then .ok (none, material)
        else if waits now job = true then .ok (none, material)
        else if settings.maxAttempts ≤ job.attempt then do
          let committed ← exhaust now stamp job material
          return (none, committed)
        else take settings now job material
      else .error .invalidJobEnvelope
  | _, _ => .error .invalidJobEnvelope

/-- `_acknowledgeable(job_id)` -/
def acknowledgeable (jobId : UUID) (material : Material) : Bool :=
  (material.ingestionJobs.find? (·.id == jobId)).any fun job => job.state != .running

/-! ### Working -/

/-- The size of an embedding request. -/
def embedBatchSize : Nat := 32

/-- The vectors have the expected dimensions and finite components. -/
def usable (dims : Nat) (vectors : List (List Component)) : Bool :=
  vectors.all fun vector => vector.length == dims && vector.all (·.isSome)

/-- The loop of `_embed`, batch by batch; `fuel` bounds the batches. -/
def embedBatches (responses : Responses) (dims : Nat) :
    Nat → Nat → List ParsedChunk → Except Rejection (List (List Component))
  | _, _, [] => .ok []
  | 0, _, _ :: _ => .ok []
  | fuel + 1, batch, chunk :: chunks => do
      failIf (responses.late batch = true)
        { code := "EMBEDDING_UNAVAILABLE", state := .failed, transient := true }
      let inputs := (chunk :: chunks).take embedBatchSize
      match responses.embedded batch with
      | .error .invalid => .error { code := "EMBEDDING_INVALID", state := .failed }
      | .error .unavailable =>
          .error { code := "EMBEDDING_UNAVAILABLE", state := .failed, transient := true }
      | .error .other => .error { code := "DOCUMENT_PROCESSING_FAILED", state := .failed }
      | .ok vectors => do
          failIf (vectors.length ≠ inputs.length ∨ usable dims vectors = false)
            { code := "EMBEDDING_INVALID", state := .failed }
          let rest ← embedBatches responses dims fuel (batch + 1)
            ((chunk :: chunks).drop embedBatchSize)
          return vectors ++ rest

/-- `_embed(chunks)` -/
def embed (settings : Settings) (responses : Responses) (chunks : List ParsedChunk) :
    Except Rejection (Option (List (List Component))) :=
  match settings.embedder with
  | none => .ok none
  | some embedder =>
      match embedder.expectedDims with
      | none => .error { code := "EMBEDDING_INVALID", state := .failed }
      | some dims => some <$> embedBatches responses dims chunks.length 0 chunks

/-- The part of `process` between claiming and persisting. -/
def work (settings : Settings) (responses : Responses) (claimed : ClaimedJob) :
    Except Rejection Output := do
  let content ←
    match responses.read with
    | .ok content => .ok content
    | .error .tooLarge => .error { code := "DOCUMENT_TOO_LARGE", state := .rejected }
    | .error .notFound => .error { code := "UPLOAD_NOT_FOUND", state := .failed }
    | .error .unavailable =>
        .error { code := "OBJECT_STORAGE_UNAVAILABLE", state := .failed, transient := true }
    | .error .other => .error { code := "DOCUMENT_PROCESSING_FAILED", state := .failed }
  failIf (content.size ≠ claimed.expectedSizeBytes)
    { code := "DOCUMENT_SIZE_MISMATCH", state := .rejected }
  failIf (content.sha256 ≠ claimed.expectedSha256)
    { code := "DOCUMENT_CHECKSUM_MISMATCH", state := .rejected }
  let extraction ←
    match responses.extract with
    | .ok extraction => .ok extraction
    | .error (some (code, state)) => .error { code, state }
    | .error none => .error { code := "DOCUMENT_PROCESSING_FAILED", state := .failed }
  let embeddings ← embed settings responses extraction.chunks
  return { extraction with sizeBytes := content.size, sha256 := content.sha256, embeddings }

/-! ### Persisting -/

/-- The job a worker still holds: running, under its token, lease not run out. -/
def holds (claimed : ClaimedJob) (now : Time) (job : IngestionJob) : Bool :=
  job.id == claimed.id && job.state == .running && job.fencingToken == claimed.fencingToken &&
    job.leaseExpiresAt.any (now < ·)

/-- The versions a run may finish. -/
def finishable (claimed : ClaimedJob) (version : DocumentVersion) : Bool :=
  version.id == claimed.documentVersionId && version.courseId == claimed.courseId &&
    version.state == .processing

/-- The identifiers a successful run draws. -/
structure FreshIds where
  corpusId : UUID
  chunkId : Nat → UUID

/-- The chunk rows of a run: chunk by chunk, each with its drawn identifier. -/
def chunkRows (claimed : ClaimedJob) (fresh : FreshIds) (chunks : List ParsedChunk) : List Chunk :=
  chunks.zipIdx.map fun entry =>
    { id := fresh.chunkId entry.2, courseId := claimed.courseId
      corpusVersionId := fresh.corpusId, documentVersionId := claimed.documentVersionId
      pageStart := entry.1.page, pageEnd := entry.1.page, ordinal := entry.1.ordinal
      content := entry.1.content, contentHash := entry.1.contentHash }

/-- The embedding rows of a run: vector by vector. -/
def embeddingRows (claimed : ClaimedJob) (fresh : FreshIds) (version : String)
    (vectors : List (List Component)) : List ChunkEmbedding :=
  vectors.zipIdx.map fun entry =>
    { chunkId := fresh.chunkId entry.2, embeddingVersion := version
      courseId := claimed.courseId, corpusVersionId := fresh.corpusId
      dims := entry.1.length, embedding := entry.1 }

/-- The corpus row of a run, in the given state. -/
def corpusRow (claimed : ClaimedJob) (output : Output) (corpusId : UUID)
    (state : CorpusVersionState) : CorpusVersion where
  id := corpusId
  courseId := claimed.courseId
  state := state
  pipelineVersion := claimed.pipelineVersion
  pageCount := output.pages
  chunkCount := output.chunks.length

/-- The corpus, its document and its chunks are added and counted. -/
def addCorpus (claimed : ClaimedJob) (output : Output) (fresh : FreshIds) (material : Material) :
    Except Failure Material := do
  let building : Material :=
    { material with
      corpusVersions :=
        material.corpusVersions ++ [corpusRow claimed output fresh.corpusId .building]
      corpusVersionDocuments := material.corpusVersionDocuments ++
        [{ corpusVersionId := fresh.corpusId, documentVersionId := claimed.documentVersionId
           courseId := claimed.courseId }]
      chunks := material.chunks ++ chunkRows claimed fresh output.chunks }
  let flushed ← building.commit
  failIf ((flushed.chunks.filter (·.corpusVersionId == fresh.corpusId)).length ≠
    output.chunks.length) (.runtime "corpus build verification failed")
  return flushed

/-- The embeddings are added and counted, when the worker has an embedder. -/
def addEmbeddings (settings : Settings) (claimed : ClaimedJob) (output : Output)
    (fresh : FreshIds) (material : Material) : Except Failure Material :=
  match output.embeddings, settings.embedder with
  | some vectors, some embedder => do
      failIf (vectors.length ≠ output.chunks.length) (.runtime "embedding count mismatch")
      let written : Material :=
        { material with
          chunkEmbeddings := material.chunkEmbeddings ++
            embeddingRows claimed fresh embedder.version (vectors.map settings.stored) }
      let flushed ← written.commit
      failIf ((flushed.chunkEmbeddings.filter fun row =>
        row.corpusVersionId == fresh.corpusId &&
          row.embeddingVersion == embedder.version).length ≠ output.chunks.length)
        (.runtime "corpus embedding verification failed")
      return flushed
  | _, _ => .ok material

/-- The job a success leaves. -/
def succeeded (completedAt : Time) (job : IngestionJob) : IngestionJob :=
  { job with
    state := .succeeded
    failureCode := none
    completedAt := some completedAt
    leaseExpiresAt := none }

/-- The version a success leaves. -/
def indexed (output : Output) (version : DocumentVersion) : DocumentVersion :=
  { version with
    state := .indexed
    objectSizeBytes := some output.sizeBytes
    objectSha256 := some output.sha256
    pageCount := some output.pages
    chunkCount := some output.chunks.length
    parserVersion := some output.parserVersion
    failureCode := none }

/-- `_persist_success(...)`: `now` is read under the row lock. -/
def persistSuccess (settings : Settings) (claimed : ClaimedJob) (output : Output)
    (fresh : FreshIds) (now completedAt : Time) (material : Material) : Except Failure Material :=
  match material.ingestionJobs.find? (holds claimed now) with
  | none => .error (.runtime "stale ingestion fencing token")
  | some job => do
      let built ← addCorpus claimed output fresh material
      let embedded ← addEmbeddings settings claimed output fresh built
      failIf ((embedded.documentVersions.filter (finishable claimed)).length ≠ 1)
        (.runtime "document version could not enter INDEXED")
      { embedded with
        corpusVersions := updateWhere embedded.corpusVersions (·.id == fresh.corpusId) fun corpus =>
          { corpus with state := .ready }
        documentVersions :=
          updateWhere embedded.documentVersions (finishable claimed) (indexed output)
        ingestionJobs :=
          updateWhere embedded.ingestionJobs (·.id == job.id) (succeeded completedAt) }.commit

/-- The job a failure leaves: waiting for its next attempt, or failed. -/
def failedJob (rejection : Rejection) (retry : Bool) (now nextAttemptAt : Time)
    (job : IngestionJob) : IngestionJob :=
  if retry then
    { job with
      state := .pending, failureCode := some rejection.code, leaseExpiresAt := none
      nextAttemptAt }
  else
    { job with
      state := .failed, failureCode := some rejection.code, leaseExpiresAt := none
      completedAt := some now }

/-- `_persist_failure(...)`: `checked` and `now` are the two clock readings, and
`nextAttemptAt` the second one plus the jittered delay. -/
def persistFailure (settings : Settings) (claimed : ClaimedJob) (rejection : Rejection)
    (checked now nextAttemptAt : Time) (stamp : Stamp) (material : Material) :
    Except Failure Material :=
  match material.ingestionJobs.find? (holds claimed checked) with
  | none => .ok material
  | some job =>
      let retry := rejection.transient && decide (job.attempt < settings.maxAttempts)
      { material with
        ingestionJobs := updateWhere material.ingestionJobs (·.id == job.id)
          (failedJob rejection retry now nextAttemptAt)
        documentVersions := updateWhere material.documentVersions (finishable claimed)
          fun version =>
            { version with
              state := if retry then .queued else rejection.state.toState
              failureCode := some rejection.code }
        outboxEvents :=
          if retry then scheduleRetry job nextAttemptAt material.outboxEvents
          else recordDeadLetter stamp job material.outboxEvents }.commit

end IngestionWorker

end Docta
