/-
Module: Docta.Ingestion.Jobs
Purpose: Durable job dispatch. The outbox is written in the caller's
  transaction; a relay leases an event, appends its envelope to the stream and
  marks it published; reconciliation makes due unfinished work publishable again.
Trusted boundary: the text of a timestamp has at most 100 characters
Main exports: JobEnvelope, JobEnvelope.parse_fields, OutboxJobDispatcher.dispatch,
  scheduleRetry, recordDeadLetter, OutboxRelay.lease, OutboxRelay.markPublished,
  OutboxRelay.reconcile
-/
import Docta.Library.Fallible
import Docta.Store.Models
import Mathlib.Data.List.Lex
import Mathlib.Data.List.Sort

namespace Docta

open Table Fallible

/-! ### Envelopes -/

/-- The time zone timestamps are rendered in. -/
structure TimeZone where
  /-- `datetime.isoformat()` -/
  isoformat : Time → String
  short : ∀ time, (isoformat time).length ≤ 100

/-- The fields of a stream entry. -/
abbrev Fields := List (String × String)

def Fields.get? (fields : Fields) (name : String) : Option String :=
  (fields.find? fun entry => entry.1 == name).map (·.2)

structure JobEnvelope where
  eventId : UUID
  jobId : UUID
  courseId : UUID
  documentVersionId : UUID
  pipelineVersion : String
  correlationId : String
  createdAt : String
deriving DecidableEq, Repr

namespace JobEnvelope

/-- `fields()` -/
def fields (envelope : JobEnvelope) : Fields :=
  [("schema_version", "1"), ("event_id", envelope.eventId.text), ("job_id", envelope.jobId.text),
    ("course_id", envelope.courseId.text),
    ("document_version_id", envelope.documentVersionId.text),
    ("pipeline_version", envelope.pipelineVersion), ("correlation_id", envelope.correlationId),
    ("created_at", envelope.createdAt)]

/-- The names `parse` expects. -/
def names : List String :=
  ["schema_version", "event_id", "job_id", "course_id", "document_version_id",
    "pipeline_version", "correlation_id", "created_at"]

/-- `UUID(value)` -/
def identifier (fields : Fields) (name : String) : Except Failure UUID :=
  match Contract.UUID.ofHex ((fields.get? name).getD "").toList with
  | .ok uuid => .ok uuid
  | .error message => .error (.value message)

/-- `JobEnvelope.parse(fields)` -/
def parse (fields : Fields) : Except Failure JobEnvelope := do
  failIf (¬ (fields.map (·.1) ⊆ names ∧ names ⊆ fields.map (·.1)) ∨
      fields.get? "schema_version" ≠ some "1") (.value "invalid job envelope")
  failIf (∃ entry ∈ fields, 100 < entry.2.length) (.value "oversized job envelope")
  let eventId ← identifier fields "event_id"
  let jobId ← identifier fields "job_id"
  let courseId ← identifier fields "course_id"
  let documentVersionId ← identifier fields "document_version_id"
  return { eventId, jobId, courseId, documentVersionId
           pipelineVersion := (fields.get? "pipeline_version").getD ""
           correlationId := (fields.get? "correlation_id").getD ""
           createdAt := (fields.get? "created_at").getD "" }

/-- A field that holds a printed identifier is read back. -/
theorem identifier_eq_ok {fields : Fields} {name : String} {uuid : UUID}
    (held : fields.get? name = some uuid.text) : identifier fields name = .ok uuid := by
  unfold identifier
  rw [held, Option.getD_some, Contract.UUID.ofHex_text]

/-- Parsing raises nothing but a `ValueError`. -/
theorem parse_error {fields : Fields} {failure : Failure} (failed : parse fields = .error failure) :
    ∃ message, failure = .value message := by
  have each {name : String} {failure : Failure} (failed : identifier fields name = .error failure) :
      ∃ message, failure = .value message := by
    unfold identifier at failed
    split at failed
    · cases failed
    · cases failed
      exact ⟨_, rfl⟩
  simp only [parse, bind_eq_error, failIf_eq_error] at failed
  rcases failed with ⟨_, rfl⟩ | ⟨_, _, ⟨_, rfl⟩ | ⟨_, _, failed | ⟨_, _, failed | ⟨_, _, failed |
    ⟨_, _, failed | ⟨_, _, failed⟩⟩⟩⟩⟩⟩
  · exact ⟨_, rfl⟩
  · exact ⟨_, rfl⟩
  · exact each failed
  · exact each failed
  · exact each failed
  · exact each failed
  · cases failed

/-- Parsing the fields of an envelope whose texts fit returns the envelope. -/
theorem parse_fields {envelope : JobEnvelope}
    (pipelineVersion : envelope.pipelineVersion.length ≤ 100)
    (correlationId : envelope.correlationId.length ≤ 100)
    (createdAt : envelope.createdAt.length ≤ 100) : parse envelope.fields = .ok envelope := by
  have known : ¬ (¬ (envelope.fields.map (·.1) ⊆ names ∧ names ⊆ envelope.fields.map (·.1)) ∨
      Fields.get? envelope.fields "schema_version" ≠ some "1") := by
    rw [not_or, Decidable.not_not, ne_eq, Decidable.not_not]
    exact ⟨⟨List.Subset.refl _, List.Subset.refl _⟩, rfl⟩
  have short : ¬ ∃ entry ∈ envelope.fields, 100 < entry.2.length := by
    intro long
    obtain ⟨entry, member, tooLong⟩ := long
    have one : "1".length = 1 := rfl
    simp only [fields, List.mem_cons, List.not_mem_nil, or_false] at member
    rcases member with rfl | rfl | rfl | rfl | rfl | rfl | rfl | rfl <;>
      simp only [Contract.UUID.length_text] at tooLong <;> omega
  have eventId : identifier envelope.fields "event_id" = .ok envelope.eventId :=
    identifier_eq_ok rfl
  have jobId : identifier envelope.fields "job_id" = .ok envelope.jobId := identifier_eq_ok rfl
  have courseId : identifier envelope.fields "course_id" = .ok envelope.courseId :=
    identifier_eq_ok rfl
  have versionId : identifier envelope.fields "document_version_id" =
      .ok envelope.documentVersionId := identifier_eq_ok rfl
  simp only [parse, failIf, if_neg known, if_neg short, ok_bind, eventId, jobId, courseId,
    versionId]
  rfl

end JobEnvelope

/-- `envelope_for(event, job)` -/
def envelopeFor (zone : TimeZone) (event : OutboxEvent) (job : IngestionJob) : JobEnvelope where
  eventId := event.id
  jobId := job.id
  courseId := job.courseId
  documentVersionId := job.documentVersionId
  pipelineVersion := job.pipelineVersion
  correlationId := job.correlationId
  createdAt := zone.isoformat event.createdAt

/-! ### Dispatch -/

/-- `INSERT ... ON CONFLICT DO NOTHING` on the job and kind of an event. -/
def insertEvent (event : OutboxEvent) (events : List OutboxEvent) : List OutboxEvent :=
  if events.any fun row => row.jobId == event.jobId && row.kind == event.kind then events
  else events ++ [event]

/-- What one insert reads: a fresh identifier and the transaction's time, the
default of `available_at` and `created_at`. -/
structure Stamp where
  id : UUID
  now : Time
deriving DecidableEq, Repr

/-- `OutboxJobDispatcher.dispatch(session, job)` -/
def OutboxJobDispatcher.dispatch (stamp : Stamp) (job : IngestionJob)
    (events : List OutboxEvent) : List OutboxEvent :=
  insertEvent
    { id := stamp.id, courseId := job.courseId, jobId := job.id, kind := .ingestion
      availableAt := stamp.now, createdAt := stamp.now } events

/-- `record_dead_letter(session, job)` -/
def recordDeadLetter (stamp : Stamp) (job : IngestionJob) (events : List OutboxEvent) :
    List OutboxEvent :=
  insertEvent
    { id := stamp.id, courseId := job.courseId, jobId := job.id, kind := .dead
      availableAt := stamp.now, createdAt := stamp.now } events

/-- `schedule_retry(session, job, available_at)` -/
def scheduleRetry (job : IngestionJob) (availableAt : Time) (events : List OutboxEvent) :
    List OutboxEvent :=
  updateWhere events (fun row => row.jobId == job.id && row.kind == .ingestion) fun row =>
    { row with availableAt, publishedAt := none, publishToken := none, publishLeaseUntil := none }

/-! ### Relay -/

/-- The rows `publish_one` selects from. -/
def OutboxEvent.eligible (now : Time) (event : OutboxEvent) : Bool :=
  event.publishedAt.isNone && decide (event.availableAt ≤ now) &&
    event.publishLeaseUntil.all (· ≤ now)

/-- `ORDER BY available_at, id` -/
def dispatchOrder (first second : OutboxEvent × IngestionJob) : Prop :=
  first.1.availableAt < second.1.availableAt ∨
    (first.1.availableAt = second.1.availableAt ∧ first.1.id.digits ≤ second.1.id.digits)

instance : DecidableRel dispatchOrder :=
  fun _ _ => inferInstanceAs (Decidable (_ ∨ (_ ∧ _)))

/-- What a relay hands to the stream. -/
structure Publication where
  token : UUID
  kind : OutboxKind
  envelope : JobEnvelope
  fields : Fields
deriving DecidableEq, Repr

namespace OutboxRelay

/-- The events of `publish_one` with their jobs: eligible, and not locked by
another relay's transaction. -/
def candidates (locked : UUID → Bool) (now : Time) (material : Material) :
    List (OutboxEvent × IngestionJob) :=
  (material.outboxEvents.filter fun event => event.eligible now && !locked event.id).flatMap
    fun event =>
      (material.ingestionJobs.filter fun job => job.id == event.jobId).map fun job => (event, job)

/-- What is published for an event. -/
def publication (zone : TimeZone) (token : UUID) (event : OutboxEvent) (job : IngestionJob) :
    Publication where
  token := token
  kind := event.kind
  envelope := envelopeFor zone event job
  fields :=
    (envelopeFor zone event job).fields ++
      match event.kind with
      | .ingestion => []
      | .dead =>
          [("failure_code",
              match job.failureCode with
              | some code => if code = "" then "DOCUMENT_PROCESSING_FAILED" else code
              | none => "DOCUMENT_PROCESSING_FAILED"),
            ("attempt", toString job.attempt)]

/-- The first transaction of `publish_one`: the first eligible event is leased. -/
def lease (zone : TimeZone) (locked : UUID → Bool) (token : UUID) (now : Time)
    (material : Material) : Except Failure (Option Publication × Material) :=
  match ((candidates locked now material).insertionSort dispatchOrder).head? with
  | none => .ok (none, material)
  | some (event, job) => do
      let committed ← { material with
        outboxEvents := updateWhere material.outboxEvents (·.id == event.id) fun row =>
          { row with publishToken := some token
                     publishLeaseUntil := some (now + seconds 30) } }.commit
      return (some (publication zone token event job), committed)

/-- The second transaction of `publish_one`, after the stream append. -/
def markPublished (eventId token : UUID) (now : Time) (material : Material) :
    Except Failure Material :=
  { material with
    outboxEvents := updateWhere material.outboxEvents
      (fun row => row.id == eventId && row.publishToken == some token) fun row =>
        { row with publishedAt := some now, publishToken := none
                   publishLeaseUntil := none } }.commit

/-- The jobs whose work is due. -/
def due (now : Time) (job : IngestionJob) : Bool :=
  (job.state == .pending && decide (job.nextAttemptAt ≤ now)) ||
    (job.state == .running && job.leaseExpiresAt.any (· ≤ now))

/-- The events `reconcile` updates. -/
def stale (staleSeconds : Nat) (now : Time) (material : Material) (event : OutboxEvent) : Bool :=
  event.kind == .ingestion &&
    (material.ingestionJobs.any fun job => job.id == event.jobId && due now job) &&
    event.publishedAt.any (· ≤ now - seconds staleSeconds)

/-- `reconcile(stale_seconds)` -/
def reconcile (staleSeconds : Nat) (now : Time) (material : Material) : Except Failure Material :=
  { material with
    outboxEvents := updateWhere material.outboxEvents (stale staleSeconds now material) fun row =>
      { row with publishedAt := none, availableAt := now, publishToken := none
                 publishLeaseUntil := none } }.commit

end OutboxRelay

end Docta
