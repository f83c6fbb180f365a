/-
Module: Docta.Ingestion.Effects
Purpose: What one transaction of the document service, a relay or a worker can
  do to the material tables, said once: each either adds rows, confirms a
  version with its job and event, moves a job together with its version, touches
  the outbox, or activates a corpus.
Trusted boundary: none
Main exports: DocumentVersion.Advances, IngestionJob.Advances, Coupled,
  IngestionJob.Moves, RunsOf, Write
-/
import Docta.Ingestion.System

namespace Docta

open Table Fallible Transition

/-! ### Rows over time -/

/-- What an upload fixed about a version. -/
def DocumentVersion.uploaded (version : DocumentVersion) : DocumentVersion :=
  { version with
    storageVersionId := none, state := .awaitingUpload, parserVersion := none
    confirmationIdempotencyKey := none, confirmationRequestHash := none
    objectSizeBytes := none, objectSha256 := none, pageCount := none, chunkCount := none
    failureCode := none }

/-- What a confirmation fixed about a job. -/
def IngestionJob.confirmed (job : IngestionJob) : IngestionJob :=
  { job with
    state := .pending, attempt := 0, fencingToken := 0, failureCode := none
    completedAt := none, leaseExpiresAt := none, nextAttemptAt := 0 }

/-- What an insert fixed about an event. -/
def OutboxEvent.inserted (event : OutboxEvent) : OutboxEvent :=
  { event with
    availableAt := 0, publishedAt := none, publishToken := none, publishLeaseUntil := none }

/-- A version keeps what its upload fixed, and once confirmed also its
confirmation and its stored object. -/
structure DocumentVersion.Advances (before after : DocumentVersion) : Prop where
  sameUpload : after.uploaded = before.uploaded
  fenced : before.confirmationIdempotencyKey ≠ none →
    after.confirmationIdempotencyKey = before.confirmationIdempotencyKey ∧
      after.confirmationRequestHash = before.confirmationRequestHash ∧
        after.storageVersionId = before.storageVersionId

/-- A job keeps what its confirmation fixed, its fencing token never falls, and
once finished it never changes. -/
structure IngestionJob.Advances (before after : IngestionJob) : Prop where
  sameJob : after.confirmed = before.confirmed
  token : before.fencingToken ≤ after.fencingToken
  finished : before.state = .succeeded ∨ before.state = .failed → after = before

/-- No event is lost. -/
def KeepsEvents (before after : List OutboxEvent) : Prop :=
  ∀ event ∈ before, ∃ later ∈ after, later.inserted = event.inserted

section Rows

theorem DocumentVersion.Advances.refl (version : DocumentVersion) : version.Advances version :=
  ⟨rfl, fun _ => ⟨rfl, rfl, rfl⟩⟩

theorem DocumentVersion.Advances.trans {first second third : DocumentVersion}
    (one : first.Advances second) (two : second.Advances third) : first.Advances third := by
  refine ⟨two.sameUpload.trans one.sameUpload, fun confirmed => ?_⟩
  obtain ⟨keyOne, hashOne, storedOne⟩ := one.fenced confirmed
  obtain ⟨keyTwo, hashTwo, storedTwo⟩ := two.fenced (keyOne ▸ confirmed)
  exact ⟨keyTwo.trans keyOne, hashTwo.trans hashOne, storedTwo.trans storedOne⟩

/-- A column that the upload fixed never changes. -/
theorem DocumentVersion.column_of_uploaded {α : Type} {before after : DocumentVersion}
    (same : after.uploaded = before.uploaded) (column : DocumentVersion → α)
    (fixed : ∀ version : DocumentVersion, column version.uploaded = column version) :
    column after = column before := by
  rw [← fixed after, same, fixed before]

theorem IngestionJob.Advances.refl (job : IngestionJob) : job.Advances job :=
  ⟨rfl, Nat.le_refl _, fun _ => rfl⟩

theorem IngestionJob.Advances.trans {first second third : IngestionJob}
    (one : first.Advances second) (two : second.Advances third) : first.Advances third := by
  refine ⟨two.sameJob.trans one.sameJob, one.token.trans two.token, fun finished => ?_⟩
  have same := one.finished finished
  subst same
  exact two.finished finished

/-- A column that the confirmation fixed never changes. -/
theorem IngestionJob.column_of_confirmed {α : Type} {before after : IngestionJob}
    (same : after.confirmed = before.confirmed) (column : IngestionJob → α)
    (fixed : ∀ job : IngestionJob, column job.confirmed = column job) :
    column after = column before := by
  rw [← fixed after, same, fixed before]

/-- A column that the insert fixed never changes. -/
theorem OutboxEvent.column_of_inserted {α : Type} {before after : OutboxEvent}
    (same : after.inserted = before.inserted) (column : OutboxEvent → α)
    (fixed : ∀ event : OutboxEvent, column event.inserted = column event) :
    column after = column before := by
  rw [← fixed after, same, fixed before]

theorem KeepsEvents.refl (events : List OutboxEvent) : KeepsEvents events events :=
  fun event known => ⟨event, known, rfl⟩

theorem KeepsEvents.trans {first second third : List OutboxEvent} (one : KeepsEvents first second)
    (two : KeepsEvents second third) : KeepsEvents first third := by
  intro event known
  obtain ⟨middle, middleKnown, sameMiddle⟩ := one event known
  obtain ⟨later, laterKnown, sameLater⟩ := two middle middleKnown
  exact ⟨later, laterKnown, sameLater.trans sameMiddle⟩

/-- An update of dispatch columns loses no event. -/
theorem keepsEvents_updateWhere {events : List OutboxEvent} {condition : OutboxEvent → Bool}
    {assign : OutboxEvent → OutboxEvent}
    (keeps : ∀ event, (assign event).inserted = event.inserted) :
    KeepsEvents events (updateWhere events condition assign) := by
  intro event known
  by_cases matched : condition event = true
  · exact ⟨_, mem_updateWhere_of_matched known matched, keeps event⟩
  · exact ⟨event, mem_updateWhere_of_not known (by simpa using matched), rfl⟩

theorem keepsEvents_insertEvent (event : OutboxEvent) (events : List OutboxEvent) :
    KeepsEvents events (insertEvent event events) := by
  unfold insertEvent
  split
  · exact .refl events
  · exact fun row known => ⟨row, List.mem_append_left _ known, rfl⟩

end Rows

/-! ### Runs -/

section Runs

open IngestionWorker

/-- The corpus a successful run publishes. -/
def Success.corpus (success : Success) : CorpusVersion :=
  corpusRow success.claimed success.output success.fresh.corpusId .ready

/-- The document of that corpus. -/
def Success.link (success : Success) : CorpusVersionDocument where
  corpusVersionId := success.fresh.corpusId
  documentVersionId := success.claimed.documentVersionId
  courseId := success.claimed.courseId

/-- Its chunks. -/
def Success.chunks (success : Success) : List Chunk :=
  chunkRows success.claimed success.fresh success.output.chunks

/-- Its embeddings, when the worker has an embedder. -/
def Success.embeddings (worker : IngestionWorker.Settings) (success : Success) :
    List ChunkEmbedding :=
  match success.output.embeddings, worker.embedder with
  | some vectors, some embedder =>
      embeddingRows success.claimed success.fresh embedder.version (vectors.map worker.stored)
  | _, _ => []

/-- One vector for each chunk exactly when there is an embedder. -/
def Output.Embedded (worker : IngestionWorker.Settings) (output : Output) : Prop :=
  match worker.embedder with
  | some _ => ∃ vectors, output.embeddings = some vectors ∧ vectors.length = output.chunks.length
  | none => output.embeddings = none

end Runs

/-! ### Coupling -/

/-- The states a job and its version are in together. -/
def Coupled : IngestionJobState → DocumentVersionState → Prop
  | .pending, .queued => True
  | .running, .processing => True
  | .succeeded, .indexed => True
  | .failed, .failed => True
  | .failed, .rejected => True
  | .failed, .ocrRequired => True
  | _, _ => False

instance : ∀ job version, Decidable (Coupled job version) := by
  intro job version
  cases job <;> cases version <;> simp only [Coupled] <;> infer_instance

/-- A version that awaits its upload. -/
structure DocumentVersion.Unconfirmed (version : DocumentVersion) : Prop where
  awaiting : version.state = .awaitingUpload
  key : version.confirmationIdempotencyKey = none
  hash : version.confirmationRequestHash = none
  stored : version.storageVersionId = none

/-- A confirmed version with its job. -/
structure DocumentVersion.ConfirmedBy (version : DocumentVersion) (job : IngestionJob) : Prop where
  own : job.documentVersionId = version.id
  course : job.courseId = version.courseId
  pipeline : job.pipelineVersion = version.pipelineVersion
  key : version.confirmationIdempotencyKey ≠ none
  hash : version.confirmationRequestHash ≠ none
  stored : version.storageVersionId ≠ none
  coupled : Coupled job.state version.state

/-! ### Effects -/

/-- A job nobody has finished. -/
def IngestionJob.Unfinished (job : IngestionJob) : Prop :=
  job.state = .pending ∨ job.state = .running

theorem IngestionJob.unfinished_iff (job : IngestionJob) :
    job.Unfinished ↔ ¬ (job.state = .succeeded ∨ job.state = .failed) := by
  unfold IngestionJob.Unfinished
  cases job.state <;> simp

/-- One job going on: what a claim, a success or a failure may do to its row. -/
structure IngestionJob.Moves (maxAttempts : Nat) (before after : IngestionJob) : Prop where
  sameJob : after.confirmed = before.confirmed
  unfinished : before.Unfinished
  attempts : before.attempt ≤ maxAttempts → after.attempt ≤ maxAttempts
  token : before.fencingToken ≤ after.fencingToken
  leased : after.state = .running ↔ after.leaseExpiresAt ≠ none

/-- The successful runs that come with a job's next row: one, its own, when it
succeeded, and none otherwise. -/
inductive RunsOf (worker : IngestionWorker.Settings) (job : IngestionJob) : List Success → Prop where
  | none (unsuccessful : job.state ≠ .succeeded) : RunsOf worker job []
  | one (success : Success) (succeeded : job.state = .succeeded)
      (own : success.claimed.id = job.id)
      (version : success.claimed.documentVersionId = job.documentVersionId)
      (course : success.claimed.courseId = job.courseId)
      (token : success.claimed.fencingToken = job.fencingToken)
      (embedded : success.output.Embedded worker) : RunsOf worker job [success]

/-- Everything one transaction may do to the material tables, with the successful
runs it commits. -/
inductive Write (worker : IngestionWorker.Settings) (material : Material) :
    List Success → Material → Prop where
  | unchanged : Write worker material [] material
  | courseCreated (course : Course) (first : course.version = 0)
      (inactive : course.activeCorpusVersionId = none) :
      Write worker material [] { material with courses := material.courses ++ [course] }
  | uploaded (document : Document) (version : DocumentVersion)
      (unconfirmed : version.Unconfirmed) :
      Write worker material []
        { material with
          documents := material.documents ++ [document]
          documentVersions := material.documentVersions ++ [version] }
  | confirmed (version : DocumentVersion) (known : version ∈ material.documentVersions)
      (unconfirmed : version.confirmationIdempotencyKey = none) (key hash : String)
      (metadata : StoredObjectMetadata) (stored : metadata.versionId ≠ none) (jobId : UUID)
      (correlationId : String) (stamp : Stamp) :
      Write worker material []
        { material with
          documentVersions := updateWhere material.documentVersions (·.id == version.id)
            (DocumentService.confirmedVersion key hash metadata)
          ingestionJobs := material.ingestionJobs ++
            [DocumentService.newJob version version.courseId jobId correlationId stamp.now]
          outboxEvents := OutboxJobDispatcher.dispatch stamp
            (DocumentService.newJob version version.courseId jobId correlationId stamp.now)
            material.outboxEvents }
  | moved (job : IngestionJob) (advance : IngestionJob → IngestionJob)
      (assign : DocumentVersion → DocumentVersion) (events : List OutboxEvent)
      (successes : List Success) (known : job ∈ material.ingestionJobs)
      (moves : job.Moves worker.maxAttempts (advance job))
      (runs : RunsOf worker (advance job) successes)
      (keepsVersion : ∀ version, (assign version).uploaded = version.uploaded ∧
        (assign version).confirmationIdempotencyKey = version.confirmationIdempotencyKey ∧
        (assign version).confirmationRequestHash = version.confirmationRequestHash ∧
        (assign version).storageVersionId = version.storageVersionId)
      (coupled : ∀ version, Coupled (advance job).state (assign version).state)
      (keepsEvents : KeepsEvents material.outboxEvents events) :
      Write worker material successes
        { material with
          documentVersions :=
            updateWhere material.documentVersions (·.id == job.documentVersionId) assign
          corpusVersions := material.corpusVersions ++ successes.map Success.corpus
          corpusVersionDocuments := material.corpusVersionDocuments ++ successes.map Success.link
          chunks := material.chunks ++ successes.flatMap Success.chunks
          chunkEmbeddings := material.chunkEmbeddings ++
            successes.flatMap (Success.embeddings worker)
          ingestionJobs := updateWhere material.ingestionJobs (·.id == job.id) advance
          outboxEvents := events }
  | dispatched (condition : OutboxEvent → Bool) (assign : OutboxEvent → OutboxEvent)
      (keeps : ∀ event, (assign event).inserted = event.inserted) :
      Write worker material []
        { material with outboxEvents := updateWhere material.outboxEvents condition assign }
  | activated (courseId corpusId : UUID) (expectedCourseVersion : Nat)
      (ready : ∃ corpus ∈ material.corpusVersions, corpus.id = corpusId ∧
        corpus.courseId = courseId ∧ corpus.state = .ready) :
      Write worker material []
        { material with
          courses := updateWhere material.courses
            (fun course => course.id == courseId && course.version == expectedCourseVersion)
            fun course =>
              { course with
                activeCorpusVersionId := some corpusId
                version := course.version + 1 } }

end Docta
