/-
Module: Docta.Ingestion.System
Purpose: The processes around the material tables: teachers' uploads,
  confirmations and activations in their phases, relays, the stream, workers
  with their deliveries, and what may be lost at any moment. Every transaction
  is one step, and any number of everything runs beside each other.
Trusted boundary: the stream hands any of its entries to any worker at any time
Main exports: Backend, Backend.Initial, Deployment, DeliveryStep, Backend.Step
-/
import Docta.Ingestion.Documents
import Docta.Ingestion.Worker
import Docta.Library.Transition

namespace Docta

open Table Fallible Transition

/-! ### Processes -/

/-- An entry of the stream. -/
structure Entry where
  id : Nat
  fields : Fields
deriving DecidableEq, Repr

/-- How far a worker is with a delivery. -/
inductive DeliveryPhase where
  /-- before `_claim` -/
  | received
  /-- the job is claimed, the work under way -/
  | claimed (job : ClaimedJob)
  /-- before `_persist_success` -/
  | worked (job : ClaimedJob) (output : Output)
  /-- before `_persist_failure` -/
  | rejected (job : ClaimedJob) (rejection : Rejection)
  /-- before `_acknowledgeable` -/
  | processed
deriving DecidableEq, Repr

/-- A delivery a worker processes. -/
structure Delivery where
  entryId : Nat
  envelope : JobEnvelope
  phase : DeliveryPhase
deriving DecidableEq, Repr

/-- How far a relay is with a leased event. -/
inductive RelayPhase where
  | leased
  | appended
deriving DecidableEq, Repr

/-- A relay between its two transactions. -/
structure Relay where
  publication : Publication
  phase : RelayPhase
deriving DecidableEq, Repr

/-- How far a confirmation is. -/
inductive ConfirmationPhase where
  /-- `_existing_confirmation` found none -/
  | unconfirmed
  /-- the stored object was inspected and validated -/
  | inspected (metadata : StoredObjectMetadata)
deriving DecidableEq, Repr

/-- A `confirm_upload` call under way. -/
structure Confirmation where
  who : AuthenticatedIdentity
  path : VersionPath
  key : String
  correlationId : String
  phase : ConfirmationPhase
deriving DecidableEq, Repr

/-- An `activate_corpus` call: its course, its corpus, and the version of the
course it expects. -/
structure Activation where
  courseId : UUID
  corpusId : UUID
  expectedCourseVersion : Nat
deriving DecidableEq, Repr

/-- A committed `_persist_success`. -/
structure Success where
  claimed : ClaimedJob
  output : Output
  fresh : IngestionWorker.FreshIds

/-- What was committed so far; no process reads it. -/
structure Records where
  /-- every successful run, in order -/
  successes : List Success := []
  /-- every successful activation, in order -/
  activations : List Activation := []

/-- The material tables, the stream and every running process. -/
structure Backend where
  material : Material := {}
  stream : List Entry := []
  deliveries : List Delivery := []
  relays : List Relay := []
  confirmations : List Confirmation := []
  /-- activations between their readiness check and their update -/
  activations : List Activation := []
  records : Records := {}

/-- Before any process started: courses without a corpus, and no documents. -/
structure Backend.Initial (backend : Backend) : Prop where
  started : ∃ courses, backend = { material := { courses } }
  constraints : backend.material.Constraints
  inactive : ∀ course ∈ backend.material.courses, course.activeCorpusVersionId = none

/-! ### Steps -/

/-- The settings every process of a deployment shares. -/
structure Deployment where
  documents : DocumentService.Settings
  worker : IngestionWorker.Settings
  staleSeconds : Nat

section Steps

variable (deployment : Deployment)

/-- A worker going on with one delivery: its next phase, if it goes on, the
tables, and the successful run it committed, if it did. -/
inductive DeliveryStep (envelope : JobEnvelope) (material : Material) :
    DeliveryPhase → DeliveryPhase → Material → List Success → Prop where
  | claim (now : Time) (stamp : Stamp) (claimed : ClaimedJob) (after : Material)
      (ok : IngestionWorker.claim deployment.worker envelope now stamp material =
        .ok (some claimed, after)) :
      DeliveryStep envelope material .received (.claimed claimed) after []
  /-- The delivery is ignored, or its job has run out of attempts. -/
  | ignore (now : Time) (stamp : Stamp) (after : Material)
      (ok : IngestionWorker.claim deployment.worker envelope now stamp material =
        .ok (none, after)) :
      DeliveryStep envelope material .received .processed after []
  | work (claimed : ClaimedJob) (responses : Responses) (output : Output)
      (ok : IngestionWorker.work deployment.worker responses claimed = .ok output) :
      DeliveryStep envelope material (.claimed claimed) (.worked claimed output) material []
  | reject (claimed : ClaimedJob) (responses : Responses) (rejection : Rejection)
      (failed : IngestionWorker.work deployment.worker responses claimed = .error rejection) :
      DeliveryStep envelope material (.claimed claimed) (.rejected claimed rejection) material []
  | succeed (claimed : ClaimedJob) (output : Output) (fresh : IngestionWorker.FreshIds)
      (now completedAt : Time) (after : Material)
      (ok : IngestionWorker.persistSuccess deployment.worker claimed output fresh now completedAt
        material = .ok after) :
      DeliveryStep envelope material (.worked claimed output) .processed after
        [{ claimed, output, fresh }]
  /-- `_persist_success` raised a `RuntimeError`. -/
  | refuse (claimed : ClaimedJob) (output : Output) (fresh : IngestionWorker.FreshIds)
      (now completedAt : Time) (message : String)
      (failed : IngestionWorker.persistSuccess deployment.worker claimed output fresh now
        completedAt material = .error (.runtime message)) :
      DeliveryStep envelope material (.worked claimed output)
        (.rejected claimed { code := "DOCUMENT_PROCESSING_FAILED", state := .failed }) material []
  | fail (claimed : ClaimedJob) (rejection : Rejection) (checked now nextAttemptAt : Time)
      (stamp : Stamp) (after : Material)
      (ok : IngestionWorker.persistFailure deployment.worker claimed rejection checked now
        nextAttemptAt stamp material = .ok after) :
      DeliveryStep envelope material (.rejected claimed rejection) .processed after []

/-- One step of one process. -/
inductive Backend.Step : Backend → Backend → Prop where
  | createCourse (backend : Backend) (course : Course) (after : Material)
      (first : course.version = 0) (inactive : course.activeCorpusVersionId = none)
      (ok : { backend.material with courses := backend.material.courses ++ [course] }.commit =
        .ok after) :
      Step backend { backend with material := after }
  | createUpload (backend : Backend) (tables : Identity) (who : AuthenticatedIdentity)
      (courseId : UUID) (request : UploadRequest) (key : Option String)
      (documentId versionId : UUID) (record : UploadRecord) (after : Material)
      (ok : DocumentService.createUpload deployment.documents tables who courseId request key
        documentId versionId backend.material = .ok (record, after)) :
      Step backend { backend with material := after }
  /-- `confirm_upload` starts, and finds no earlier confirmation. -/
  | startConfirmation (backend : Backend) (tables : Identity) (who : AuthenticatedIdentity)
      (path : VersionPath) (key : Option String) (validKey correlationId : String)
      (keyOk : DocumentService.validatedIdempotencyKey key = .ok validKey)
      (ok : DocumentService.existingConfirmation tables who path validKey
        (DocumentService.confirmationHash deployment.documents path) backend.material = .ok none) :
      Step backend
        { backend with
          confirmations := backend.confirmations ++
            [{ who, path, key := validKey, correlationId, phase := .unconfirmed }] }
  /-- The upload is loaded, and its stored object inspected and validated. -/
  | inspect (backend : Backend) (tables : Identity) (before after : List Confirmation)
      (confirmation : Confirmation) (record : DocumentVersion) (metadata : StoredObjectMetadata)
      (running : backend.confirmations = before ++ confirmation :: after)
      (unconfirmed : confirmation.phase = .unconfirmed)
      (loaded : DocumentService.loadUpload tables confirmation.who confirmation.path
        backend.material = .ok record)
      (valid : DocumentService.validateStoredObject deployment.documents metadata record = .ok ()) :
      Step backend
        { backend with
          confirmations := before ++ { confirmation with phase := .inspected metadata } :: after }
  /-- The last transaction of `confirm_upload` commits. -/
  | confirm (backend : Backend) (tables : Identity) (before after : List Confirmation)
      (confirmation : Confirmation) (metadata : StoredObjectMetadata) (jobId : UUID)
      (stamp : Stamp) (confirmed : Material)
      (running : backend.confirmations = before ++ confirmation :: after)
      (inspected : confirmation.phase = .inspected metadata)
      (ok : DocumentService.confirm deployment.documents tables confirmation.who confirmation.path
        confirmation.key confirmation.correlationId metadata jobId stamp backend.material =
          .ok confirmed) :
      Step backend { backend with material := confirmed, confirmations := before ++ after }
  /-- `activate_corpus` has read that the corpus is ready. -/
  | startActivation (backend : Backend) (tables : Identity) (who : AuthenticatedIdentity)
      (activation : Activation)
      (ok : DocumentService.checkActivation tables who activation.courseId activation.corpusId
        backend.material = .ok ()) :
      Step backend { backend with activations := backend.activations ++ [activation] }
  /-- `activate_corpus` commits. -/
  | activate (backend : Backend) (before after : List Activation) (activation : Activation)
      (shown : ActivationView) (activated : Material)
      (running : backend.activations = before ++ activation :: after)
      (ok : DocumentService.activate activation.courseId activation.corpusId
        activation.expectedCourseVersion backend.material = .ok (shown, activated)) :
      Step backend
        { backend with
          material := activated
          activations := before ++ after
          records :=
            { backend.records with
              activations := backend.records.activations ++ [activation] } }
  /-- A relay leases an event. -/
  | lease (backend : Backend) (locked : UUID → Bool) (token : UUID) (now : Time)
      (publication : Publication) (after : Material)
      (ok : OutboxRelay.lease deployment.worker.zone locked token now backend.material =
        .ok (some publication, after)) :
      Step backend
        { backend with
          material := after
          relays := backend.relays ++ [{ publication, phase := .leased }] }
  /-- A relay appends an envelope to the stream. -/
  | append (backend : Backend) (before after : List Relay) (publication : Publication)
      (entryId : Nat) (running : backend.relays = before ++ ⟨publication, .leased⟩ :: after)
      (ingestion : publication.kind = .ingestion)
      (newest : ∀ entry ∈ backend.stream, entry.id < entryId) :
      Step backend
        { backend with
          stream := backend.stream ++ [⟨entryId, publication.fields⟩]
          relays := before ++ ⟨publication, .appended⟩ :: after }
  /-- A relay appends a dead letter to the other stream, which nothing reads. -/
  | appendDead (backend : Backend) (before after : List Relay) (publication : Publication)
      (running : backend.relays = before ++ ⟨publication, .leased⟩ :: after)
      (dead : publication.kind = .dead) :
      Step backend { backend with relays := before ++ ⟨publication, .appended⟩ :: after }
  /-- A relay marks its event published. -/
  | markPublished (backend : Backend) (before after : List Relay) (publication : Publication)
      (now : Time) (marked : Material)
      (running : backend.relays = before ++ ⟨publication, .appended⟩ :: after)
      (ok : OutboxRelay.markPublished publication.envelope.eventId publication.token now
        backend.material = .ok marked) :
      Step backend { backend with material := marked, relays := before ++ after }
  | reconcile (backend : Backend) (now : Time) (after : Material)
      (ok : OutboxRelay.reconcile deployment.staleSeconds now backend.material = .ok after) :
      Step backend { backend with material := after }
  /-- A worker reads an entry of the stream. -/
  | consume (backend : Backend) (entry : Entry) (envelope : JobEnvelope)
      (member : entry ∈ backend.stream) (ok : JobEnvelope.parse entry.fields = .ok envelope) :
      Step backend
        { backend with
          deliveries := backend.deliveries ++ [⟨entry.id, envelope, .received⟩] }
  /-- An entry that cannot be parsed is acknowledged. -/
  | discard (backend : Backend) (entry : Entry) (failure : Failure) (member : entry ∈ backend.stream)
      (failed : JobEnvelope.parse entry.fields = .error failure) :
      Step backend { backend with stream := backend.stream.filter (·.id ≠ entry.id) }
  /-- A worker goes on with a delivery. -/
  | deliver (backend : Backend) (before after : List Delivery) (delivery : Delivery)
      (next : DeliveryPhase) (written : Material) (successes : List Success)
      (running : backend.deliveries = before ++ delivery :: after)
      (advance : DeliveryStep deployment delivery.envelope backend.material delivery.phase next
        written successes) :
      Step backend
        { backend with
          material := written
          deliveries := before ++ { delivery with phase := next } :: after
          records :=
            { backend.records with successes := backend.records.successes ++ successes } }
  /-- An envelope that does not match the tables is acknowledged. -/
  | mismatch (backend : Backend) (before after : List Delivery) (delivery : Delivery) (now : Time)
      (stamp : Stamp) (running : backend.deliveries = before ++ delivery :: after)
      (received : delivery.phase = .received)
      (failed : IngestionWorker.claim deployment.worker delivery.envelope now stamp
        backend.material = .error .invalidJobEnvelope) :
      Step backend
        { backend with
          stream := backend.stream.filter (·.id ≠ delivery.entryId)
          deliveries := before ++ after }
  /-- A processed delivery is acknowledged unless its job is running. -/
  | acknowledge (backend : Backend) (before after : List Delivery) (delivery : Delivery)
      (running : backend.deliveries = before ++ delivery :: after)
      (processed : delivery.phase = .processed) :
      Step backend
        { backend with
          stream :=
            if IngestionWorker.acknowledgeable delivery.envelope.jobId backend.material then
              backend.stream.filter (·.id ≠ delivery.entryId)
            else backend.stream
          deliveries := before ++ after }
  /-- Calls raise, processes die, connections break: some of what was running is
  gone, its transactions rolled back. -/
  | crash (backend : Backend) (deliveries : List Delivery) (relays : List Relay)
      (confirmations : List Confirmation) (activations : List Activation)
      (fewerDeliveries : deliveries.Sublist backend.deliveries)
      (fewerRelays : relays.Sublist backend.relays)
      (fewerConfirmations : confirmations.Sublist backend.confirmations)
      (fewerActivations : activations.Sublist backend.activations) :
      Step backend { backend with deliveries, relays, confirmations, activations }
  /-- The stream loses entries, or all of them. -/
  | lose (backend : Backend) (stream : List Entry) (fewer : stream.Sublist backend.stream) :
      Step backend { backend with stream }

end Steps

end Docta
