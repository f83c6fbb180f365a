/-
Module: Docta.Ingestion.Envelopes
Purpose: Envelopes round-trip, and mismatches are inert. What a relay encodes is
  read back as it was and recognised by every later claim; an envelope that
  differs from the stored one anywhere is refused before anything is written.
Trusted boundary: none beyond the envelopes'
Main exports: JobEnvelope.Foreign, claim_invalid_iff, receive, JobEnvelope.Mismatched,
  envelopes_round_trip
-/
import Docta.Ingestion.Delivery

namespace Docta

open Table Fallible Transition

/-- The envelope differs, in one of its seven fields, from that of every stored
ingestion event and the job it belongs to. -/
def JobEnvelope.Foreign (zone : TimeZone) (material : Material) (envelope : JobEnvelope) : Prop :=
  ∀ event ∈ material.outboxEvents, ∀ job ∈ material.ingestionJobs, event.kind = .ingestion →
    event.jobId = job.id →
      envelope.eventId ≠ event.id ∨ envelope.jobId ≠ job.id ∨ envelope.courseId ≠ job.courseId ∨
        envelope.documentVersionId ≠ job.documentVersionId ∨
        envelope.pipelineVersion ≠ job.pipelineVersion ∨
        envelope.correlationId ≠ job.correlationId ∨
        envelope.createdAt ≠ zone.isoformat event.createdAt

instance (zone : TimeZone) (material : Material) (envelope : JobEnvelope) :
    Decidable (envelope.Foreign zone material) :=
  inferInstanceAs (Decidable (∀ event ∈ material.outboxEvents, ∀ job ∈ material.ingestionJobs, _))

section Envelopes

open IngestionWorker

variable {deployment : Deployment} {backend : Backend}

theorem envelopeFor_eq_iff {zone : TimeZone} {event : OutboxEvent} {job : IngestionJob}
    {envelope : JobEnvelope} : envelope = envelopeFor zone event job ↔
      envelope.eventId = event.id ∧ envelope.jobId = job.id ∧ envelope.courseId = job.courseId ∧
        envelope.documentVersionId = job.documentVersionId ∧
        envelope.pipelineVersion = job.pipelineVersion ∧
        envelope.correlationId = job.correlationId ∧
        envelope.createdAt = zone.isoformat event.createdAt := by
  cases envelope
  simp [envelopeFor]

/-- An envelope is foreign exactly when it is no stored event's. -/
theorem foreign_iff {zone : TimeZone} {material : Material} {envelope : JobEnvelope} :
    envelope.Foreign zone material ↔ ¬ envelope.Genuine zone material .ingestion := by
  unfold JobEnvelope.Foreign JobEnvelope.Genuine
  simp only [envelopeFor_eq_iff]
  push Not
  constructor
  · intro foreign event known job jobKnown isIngestion own sameEvent sameJob sameCourse sameVersion
      samePipeline sameCorrelation sameTime
    have differs := foreign event known job jobKnown isIngestion own
    simp [sameEvent, sameJob, sameCourse, sameVersion, samePipeline, sameCorrelation,
      sameTime] at differs
  · intro different event known job jobKnown isIngestion own
    have differs := different event known job jobKnown isIngestion own
    by_contra same
    push Not at same
    obtain ⟨sameEvent, sameJob, sameCourse, sameVersion, samePipeline, sameCorrelation, sameTime⟩ :=
      same
    exact differs sameEvent sameJob sameCourse sameVersion samePipeline sameCorrelation sameTime

/-- A job that is taken or failed was not refused for its envelope. -/
theorem take_ne_invalid {worker : IngestionWorker.Settings} {now : Time} {job : IngestionJob}
    {material : Material} : take worker now job material ≠ .error .invalidJobEnvelope := by
  intro refused
  unfold take at refused
  rw [bind_eq_error, failIf_eq_error] at refused
  rcases refused with ⟨_, raised⟩ | ⟨_, _, refused⟩
  · cases raised
  · dsimp only at refused
    split at refused
    · split at refused
      · cases refused
      · rw [bind_eq_error, Material.commit_eq_error] at refused
        rcases refused with ⟨_, raised⟩ | ⟨_, _, raised⟩
        · cases raised
        · cases raised
    · cases refused

theorem exhaust_ne_invalid {now : Time} {stamp : Stamp} {job : IngestionJob} {material : Material} :
    exhaust now stamp job material ≠ .error .invalidJobEnvelope := by
  intro refused
  rw [exhaust, Material.commit_eq_error] at refused
  cases refused.2

/-- A claim refuses an envelope exactly when it is foreign. -/
theorem claim_invalid_iff {worker : IngestionWorker.Settings} {material : Material}
    (constraints : material.Constraints) {envelope : JobEnvelope} {now : Time} {stamp : Stamp} :
    claim worker envelope now stamp material = .error .invalidJobEnvelope ↔
      envelope.Foreign worker.zone material := by
  rw [foreign_iff]
  constructor
  · intro refused genuine
    obtain ⟨event, known, job, jobKnown, isIngestion, own, rfl⟩ := genuine
    have jobFound : material.ingestionJobs.find?
        (·.id == (envelopeFor worker.zone event job).jobId) = some job :=
      find?_id constraints.jobIds jobKnown
    have eventFound : material.outboxEvents.find?
        (·.id == (envelopeFor worker.zone event job).eventId) = some event :=
      find?_id constraints.eventIds known
    have matched : event.kind = .ingestion ∧ event.jobId = job.id ∧
        envelopeFor worker.zone event job = envelopeFor worker.zone event job :=
      ⟨isIngestion, own, rfl⟩
    rw [claim, jobFound, eventFound] at refused
    dsimp only at refused
    rw [if_pos matched] at refused
    split at refused
    · cases refused
    · split at refused
      · cases refused
      · split at refused
        · rw [bind_eq_error] at refused
          rcases refused with refused | ⟨_, _, refused⟩
          · exact exhaust_ne_invalid refused
          · cases refused
        · exact take_ne_invalid refused
  · intro foreign
    unfold claim
    split
    · rename_i job event jobFound eventFound
      refine if_neg fun matched => foreign ⟨event, List.mem_of_find?_eq_some eventFound, job,
        List.mem_of_find?_eq_some jobFound, matched.1, matched.2.1, matched.2.2.symm⟩
    · rfl

/-- An envelope that names a dead letter, or an event of another job, is foreign. -/
theorem foreign_of_event {zone : TimeZone} {material : Material}
    (constraints : material.Constraints) {event : OutboxEvent}
    (known : event ∈ material.outboxEvents) {envelope : JobEnvelope}
    (named : event.id = envelope.eventId)
    (wrong : event.kind = .dead ∨ event.jobId ≠ envelope.jobId) :
    envelope.Foreign zone material := by
  rw [foreign_iff]
  intro genuine
  obtain ⟨source, sourceKnown, job, _, isIngestion, own, rfl⟩ := genuine
  have same := constraints.eventIds.eq_of_key known sourceKnown named
  subst same
  rcases wrong with dead | otherJob
  · rw [dead] at isIngestion
    cases isIngestion
  · exact otherJob own

/-- What a delivery of the given fields claims: `JobEnvelope.parse(fields)`, then
`_claim(envelope)`. -/
def receive (worker : IngestionWorker.Settings) (fields : Fields) (now : Time) (stamp : Stamp)
    (material : Material) : Except Failure (Option ClaimedJob × Material) := do
  let envelope ← JobEnvelope.parse fields
  claim worker envelope now stamp material

/-- The envelope differs from what is stored, or names a dead letter or an event of
another job. -/
def JobEnvelope.Mismatched (zone : TimeZone) (material : Material) (envelope : JobEnvelope) :
    Prop :=
  envelope.Foreign zone material ∨
    ∃ event ∈ material.outboxEvents, event.id = envelope.eventId ∧
      (event.kind = .dead ∨ event.jobId ≠ envelope.jobId)

/-- Job envelopes round-trip, are recognised by every later claim, and when what is
parsed differs from what is stored the delivery is refused and nothing is written. -/
theorem envelopes_round_trip (deployment : Deployment) :
    (∀ event job, job.Checks →
      JobEnvelope.parse (envelopeFor deployment.worker.zone event job).fields =
        .ok (envelopeFor deployment.worker.zone event job)) ∧
      (∀ backend, Reachable Backend.Initial (Backend.Step deployment) backend →
        ∀ event ∈ backend.material.outboxEvents, ∀ job ∈ backend.material.ingestionJobs,
          event.kind = .ingestion → event.jobId = job.id →
          ∀ later, Relation.ReflTransGen (Backend.Step deployment) backend later →
            ∀ now stamp, claim deployment.worker
              (envelopeFor deployment.worker.zone event job) now stamp later.material ≠
                .error .invalidJobEnvelope) ∧
      ∀ backend, Reachable Backend.Initial (Backend.Step deployment) backend →
        ∀ fields,
          (∀ failure, JobEnvelope.parse fields = .error failure →
            (∃ message, failure = .value message) ∧ ∀ now stamp,
              receive deployment.worker fields now stamp backend.material = .error failure) ∧
          ∀ envelope, JobEnvelope.parse fields = .ok envelope →
            envelope.Mismatched deployment.worker.zone backend.material →
              (∀ now stamp, receive deployment.worker fields now stamp backend.material =
                .error .invalidJobEnvelope) ∧
              ∀ next written successes, ¬ DeliveryStep deployment envelope backend.material
                .received next written successes := by
  refine ⟨fun event job checks => ?_, fun backend reachable event known job jobKnown isIngestion
    own later run now stamp refused => ?_, fun backend reachable fields =>
    ⟨fun failure failed => ?_, fun envelope parsed mismatched => ?_⟩⟩
  · exact JobEnvelope.parse_fields checks.1 checks.2.1 (deployment.worker.zone.short _)
  · obtain ⟨soundLater, advances⟩ := materialAdvances_of_run (sound_of_reachable reachable) run
    have genuine : (envelopeFor deployment.worker.zone event job).Genuine deployment.worker.zone
        backend.material .ingestion := ⟨event, known, job, jobKnown, isIngestion, own, rfl⟩
    rw [claim_invalid_iff soundLater.coherent.constraints, foreign_iff] at refused
    exact refused (genuine.advance advances)
  · refine ⟨JobEnvelope.parse_error failed, fun now stamp => ?_⟩
    rw [receive, failed]
    rfl
  · have constraints := (sound_of_reachable reachable).coherent.constraints
    have foreign : envelope.Foreign deployment.worker.zone backend.material := by
      rcases mismatched with foreign | ⟨event, known, named, wrong⟩
      · exact foreign
      · exact foreign_of_event constraints known named wrong
    have refused (now : Time) (stamp : Stamp) : claim deployment.worker envelope now stamp
        backend.material = .error .invalidJobEnvelope :=
      (claim_invalid_iff constraints).mpr foreign
    refine ⟨fun now stamp => ?_, fun next written successes step => ?_⟩
    · rw [receive, parsed, ok_bind, refused]
    · cases step with
      | claim now stamp claimed after ok =>
          rw [refused now stamp] at ok
          cases ok
      | ignore now stamp after ok =>
          rw [refused now stamp] at ok
          cases ok

/-- The first document's envelope with another correlation. -/
def otherCorrelation : JobEnvelope :=
  { samplePublication.envelope with correlationId := "other" }

/-- Fields with a name too few. -/
def missingField : Fields :=
  otherCorrelation.fields.drop 1

/-- An envelope with another correlation than the first document's is refused, and so is
one without all of its fields. -/
theorem envelopes_round_trip_of_sample :
    JobEnvelope.parse samplePublication.envelope.fields = .ok samplePublication.envelope ∧
      receive sampleDeployment.worker otherCorrelation.fields 0 { id := .ofNat 8, now := 0 }
        sampleLeased = .error .invalidJobEnvelope ∧
      receive sampleDeployment.worker missingField 0 { id := .ofNat 8, now := 0 } sampleLeased =
        .error (.value "invalid job envelope") := by
  obtain ⟨trips, _, refused⟩ := envelopes_round_trip sampleDeployment
  have published : sampleJob.Checks := by decide +kernel
  have parsed : JobEnvelope.parse otherCorrelation.fields = .ok otherCorrelation := by
    decide +kernel
  have foreign : otherCorrelation.Foreign sampleZone sampleLeased := by decide +kernel
  have missing : JobEnvelope.parse missingField = .error (.value "invalid job envelope") := by
    decide +kernel
  have differs := (refused samplePublishing reachable_samplePublishing otherCorrelation.fields).2
  have fails := (refused samplePublishing reachable_samplePublishing missingField).1
  exact ⟨trips sampleEvent sampleJob published, (differs _ parsed (.inl foreign)).1 _ _,
    (fails _ missing).2 _ _⟩

end Envelopes

end Docta
