/-
Module: Docta.Ingestion.Invariants
Purpose: The invariant of the whole backend: the tables are coherent, and what
  every running process carries between two transactions still agrees with them.
Trusted boundary: none
Main exports: Backend.Sound, write_of_step, sound_of_step, sound_of_reachable
-/
import Docta.Ingestion.Transactions

namespace Docta

open Table Fallible Transition

/-! ### The work of a run -/

section Work

open IngestionWorker

/-- Enough batches embed every chunk. -/
theorem length_embedBatches {responses : Responses} {dims : Nat} :
    ∀ {fuel batch : Nat} {chunks : List ParsedChunk} {vectors : List (List Component)},
      chunks.length ≤ fuel → embedBatches responses dims fuel batch chunks = .ok vectors →
        vectors.length = chunks.length := by
  intro fuel
  induction fuel with
  | zero =>
      intro batch chunks vectors enough ok
      have empty : chunks = [] := List.length_eq_zero_iff.mp (Nat.le_zero.mp enough)
      subst empty
      rw [embedBatches] at ok
      cases ok
      rfl
  | succ fuel inductionHypothesis =>
      intro batch chunks vectors enough ok
      cases chunks with
      | nil =>
          rw [embedBatches] at ok
          cases ok
          rfl
      | cons chunk chunks =>
          simp only [embedBatches, bind_eq_ok, failIf_eq_ok] at ok
          obtain ⟨_, _, ok⟩ := ok
          cases answer : responses.embedded batch with
          | error failure =>
              rw [answer] at ok
              cases failure <;> cases ok
          | ok first =>
              rw [answer] at ok
              simp only [bind_eq_ok, failIf_eq_ok, not_or, not_not, pure_eq_ok] at ok
              obtain ⟨_, ⟨firstLength, _⟩, rest, restOk, rfl⟩ := ok
              have fewer : ((chunk :: chunks).drop embedBatchSize).length ≤ fuel := by
                rw [List.length_drop]
                have size : embedBatchSize = 32 := rfl
                simp only [List.length_cons] at enough ⊢
                omega
              rw [List.length_append, firstLength, inductionHypothesis fewer restOk,
                ← List.length_append, List.take_append_drop]

/-- A run that succeeds embedded the chunks it extracted. -/
theorem extracted_of_work {worker : IngestionWorker.Settings} {responses : Responses}
    {claimed : ClaimedJob} {output : Output} (ok : work worker responses claimed = .ok output) :
    responses.extract = .ok output.toExtraction ∧
      embed worker responses output.chunks = .ok output.embeddings := by
  unfold work at ok
  cases read : responses.read with
  | error failure =>
      rw [read] at ok
      cases failure <;> cases ok
  | ok content =>
      cases extract : responses.extract with
      | error failure =>
          rw [read, extract] at ok
          simp only [ok_bind, bind_eq_ok] at ok
          obtain ⟨_, _, _, _, ok⟩ := ok
          cases failure <;> cases ok
      | ok extraction =>
          rw [read, extract] at ok
          simp only [ok_bind, bind_eq_ok, pure_eq_ok] at ok
          obtain ⟨_, _, _, _, embeddings, embedOk, rfl⟩ := ok
          exact ⟨rfl, embedOk⟩

/-- A run that succeeds has one vector for each chunk exactly when there is an
embedder. -/
theorem embedded_of_work {worker : IngestionWorker.Settings} {responses : Responses}
    {claimed : ClaimedJob} {output : Output} (ok : work worker responses claimed = .ok output) :
    output.Embedded worker := by
  have embedOk := (extracted_of_work ok).2
  unfold embed at embedOk
  unfold Output.Embedded
  cases embedder : worker.embedder with
  | none =>
      rw [embedder] at embedOk
      exact (Except.ok.inj embedOk).symm
  | some known =>
      rw [embedder] at embedOk
      cases dims : known.expectedDims with
      | none =>
          simp only [dims] at embedOk
          cases embedOk
      | some expected =>
          simp only [dims, map_eq_ok] at embedOk
          obtain ⟨vectors, vectorsOk, same⟩ := embedOk
          exact ⟨vectors, same.symm, length_embedBatches (Nat.le_refl _) vectorsOk⟩

end Work

/-! ### What processes carry -/

/-- The envelope is that of a stored event of this kind and its job. -/
def JobEnvelope.Genuine (zone : TimeZone) (material : Material) (kind : OutboxKind)
    (envelope : JobEnvelope) : Prop :=
  ∃ event ∈ material.outboxEvents, ∃ job ∈ material.ingestionJobs, event.kind = kind ∧
    event.jobId = job.id ∧ envelope = envelopeFor zone event job

/-- The claim a delivery is worked under. -/
def DeliveryPhase.claim? : DeliveryPhase → Option ClaimedJob
  | .received | .processed => none
  | .claimed job | .worked job _ | .rejected job _ => some job

/-- What a worker carries between two transactions agrees with the tables. -/
structure DeliveryPhase.Sound (worker : IngestionWorker.Settings) (material : Material)
    (phase : DeliveryPhase) : Prop where
  stored : ∀ claimed ∈ phase.claim?, ∃ job ∈ material.ingestionJobs, claimed.On job
  embedded : ∀ claimed output, phase = .worked claimed output → output.Embedded worker

/-- The claims deliveries are worked under. -/
def claims (deliveries : List Delivery) : List ClaimedJob :=
  deliveries.filterMap (·.phase.claim?)

/-- No two workers have the same token of a job. -/
def Apart (deliveries : List Delivery) : Prop :=
  UniqueOn (fun claimed => (claimed.id, claimed.fencingToken)) (claims deliveries)

/-- The invariant of the backend. -/
structure Backend.Sound (deployment : Deployment) (backend : Backend) : Prop where
  coherent : backend.material.Coherent deployment.worker backend.records.successes
  inspected : ∀ confirmation ∈ backend.confirmations, ∀ metadata,
    confirmation.phase = .inspected metadata → metadata.versionId ≠ none
  checked : ∀ activation ∈ backend.activations, ∃ corpus ∈ backend.material.corpusVersions,
    corpus.id = activation.corpusId ∧ corpus.courseId = activation.courseId ∧
      corpus.state = .ready
  deliveries : ∀ delivery ∈ backend.deliveries,
    delivery.phase.Sound deployment.worker backend.material ∧
      delivery.envelope.Genuine deployment.worker.zone backend.material .ingestion
  holders : Apart backend.deliveries
  relays : ∀ relay ∈ backend.relays,
    relay.publication.envelope.Genuine deployment.worker.zone backend.material
        relay.publication.kind ∧
      (relay.publication.kind = .ingestion →
        relay.publication.fields = relay.publication.envelope.fields)
  stream : ∀ entry ∈ backend.stream, ∃ envelope : JobEnvelope,
    envelope.Genuine deployment.worker.zone backend.material .ingestion ∧
      entry.fields = envelope.fields

/-! ### What stays true while others write -/

section Persistence

variable {worker : IngestionWorker.Settings} {zone : TimeZone} {before after : Material}

theorem ClaimedJob.On.advance {claimed : ClaimedJob} {job later : IngestionJob}
    (on : claimed.On job) (advances : job.Advances later) : claimed.On later where
  id := (IngestionJob.column_of_confirmed advances.sameJob (·.id) fun _ => rfl).trans on.id
  version := (IngestionJob.column_of_confirmed advances.sameJob (·.documentVersionId)
    fun _ => rfl).trans on.version
  course := (IngestionJob.column_of_confirmed advances.sameJob (·.courseId)
    fun _ => rfl).trans on.course
  token := on.token.trans advances.token

theorem DeliveryPhase.Sound.advance {phase : DeliveryPhase} (sound : phase.Sound worker before)
    (advances : before.Advances after) : phase.Sound worker after where
  stored claimed isClaim := by
    obtain ⟨job, known, on⟩ := sound.stored claimed isClaim
    obtain ⟨later, laterKnown, advance⟩ := advances.jobs job known
    exact ⟨later, laterKnown, on.advance advance⟩
  embedded := sound.embedded

/-- The envelope of an event reads only columns that never change. -/
theorem envelopeFor_congr {event laterEvent : OutboxEvent} {job laterJob : IngestionJob}
    (sameEvent : laterEvent.inserted = event.inserted)
    (sameJob : laterJob.confirmed = job.confirmed) :
    envelopeFor zone laterEvent laterJob = envelopeFor zone event job := by
  unfold envelopeFor
  rw [OutboxEvent.column_of_inserted sameEvent (·.id) fun _ => rfl,
    OutboxEvent.column_of_inserted sameEvent (·.createdAt) fun _ => rfl,
    IngestionJob.column_of_confirmed sameJob (·.id) fun _ => rfl,
    IngestionJob.column_of_confirmed sameJob (·.courseId) fun _ => rfl,
    IngestionJob.column_of_confirmed sameJob (·.documentVersionId) fun _ => rfl,
    IngestionJob.column_of_confirmed sameJob (·.pipelineVersion) fun _ => rfl,
    IngestionJob.column_of_confirmed sameJob (·.correlationId) fun _ => rfl]

theorem JobEnvelope.Genuine.advance {kind : OutboxKind} {envelope : JobEnvelope}
    (genuine : envelope.Genuine zone before kind) (advances : before.Advances after) :
    envelope.Genuine zone after kind := by
  obtain ⟨event, known, job, jobKnown, isKind, ownJob, rfl⟩ := genuine
  obtain ⟨laterEvent, laterKnown, sameEvent⟩ := advances.events event known
  obtain ⟨laterJob, laterJobKnown, advance⟩ := advances.jobs job jobKnown
  refine ⟨laterEvent, laterKnown, laterJob, laterJobKnown, ?_, ?_, ?_⟩
  · exact (OutboxEvent.column_of_inserted sameEvent (·.kind) fun _ => rfl).trans isKind
  · rw [OutboxEvent.column_of_inserted sameEvent (·.jobId) fun _ => rfl,
      IngestionJob.column_of_confirmed advance.sameJob (·.id) fun _ => rfl]
    exact ownJob
  · exact (envelopeFor_congr sameEvent advance.sameJob).symm

end Persistence

/-! ### One delivery going on -/

section Delivery

variable {deployment : Deployment} {envelope : JobEnvelope} {material written : Material}
  {phase next : DeliveryPhase} {earlier successes : List Success}

/-- A worker going on writes the tables one way, and carries on what agrees with
them. -/
theorem write_of_deliveryStep (coherent : material.Coherent deployment.worker earlier)
    (sound : phase.Sound deployment.worker material)
    (advance : DeliveryStep deployment envelope material phase next written successes) :
    Write deployment.worker material successes written ∧ written.Constraints := by
  cases advance with
  | claim now stamp claimed after ok => exact write_of_claim coherent (claims_of_ok ok)
  | ignore now stamp after ok => exact write_of_claim coherent (claims_of_ok ok)
  | work claimed responses output ok => exact ⟨.unchanged, coherent.constraints⟩
  | reject claimed responses rejection failed => exact ⟨.unchanged, coherent.constraints⟩
  | succeed claimed output fresh now completedAt after ok =>
      exact write_of_persistSuccess coherent (sound.stored claimed rfl)
        (sound.embedded claimed output rfl) ok
  | refuse claimed output fresh now completedAt message failed =>
      exact ⟨.unchanged, coherent.constraints⟩
  | fail claimed rejection checked now nextAttemptAt stamp after ok =>
      exact write_of_persistFailure coherent (sound.stored claimed rfl) ok

/-- How the claim of a delivery changes: it is kept, dropped, or drawn from a job
under a token that job never had. -/
inductive ClaimStep (material written : Material) (phase next : DeliveryPhase) : Prop where
  | kept (same : next.claim? = phase.claim?)
  | dropped (none : next.claim? = none)
  | drawn (claimed : ClaimedJob) (job later : IngestionJob) (before : phase.claim? = none)
      (now : next.claim? = some claimed) (known : job ∈ material.ingestionJobs)
      (laterKnown : later ∈ written.ingestionJobs) (sameJob : job.id = claimed.id)
      (on : claimed.On later) (newer : job.fencingToken < claimed.fencingToken)

theorem claimStep_of_deliveryStep
    (advance : DeliveryStep deployment envelope material phase next written successes) :
    ClaimStep material written phase next := by
  cases advance with
  | claim now stamp claimed after ok =>
      cases claims_of_ok ok with
      | taken job known own unfinished due unspent version storageVersionId constraints =>
          have laterKnown : IngestionWorker.running deployment.worker now job ∈
              (taken deployment.worker now job material).ingestionJobs :=
            mem_updateWhere_of_matched known (by simp)
          exact .drawn _ job _ rfl rfl known laterKnown rfl ⟨rfl, rfl, rfl, Nat.le_refl _⟩
            (Nat.lt_succ_self _)
  | ignore now stamp after ok => exact .dropped rfl
  | work claimed responses output ok => exact .kept rfl
  | reject claimed responses rejection failed => exact .kept rfl
  | succeed claimed output fresh now completedAt after ok => exact .dropped rfl
  | refuse claimed output fresh now completedAt message failed => exact .kept rfl
  | fail claimed rejection checked now nextAttemptAt stamp after ok => exact .dropped rfl

theorem sound_of_deliveryStep (sound : phase.Sound deployment.worker material)
    (advances : material.Advances written)
    (advance : DeliveryStep deployment envelope material phase next written successes) :
    next.Sound deployment.worker written where
  stored claimed isClaim := by
    cases claimStep_of_deliveryStep advance with
    | kept same => exact (sound.advance advances).stored claimed (same ▸ isClaim)
    | dropped none =>
        rw [none] at isClaim
        cases isClaim
    | drawn drawn job later before now known laterKnown sameJob on newer =>
        rw [now] at isClaim
        cases isClaim
        exact ⟨later, laterKnown, on⟩
  embedded claimed output isWorked := by
    cases advance with
    | work claimed' responses output' ok =>
        cases isWorked
        exact embedded_of_work ok
    | _ => cases isWorked

end Delivery

/-! ### Every step keeps the invariant -/

section Preservation

variable {deployment : Deployment} {backend after : Backend}

/-- An object that passed validation names its version. -/
theorem versionId_of_validate {settings : DocumentService.Settings}
    {metadata : StoredObjectMetadata} {record : DocumentVersion}
    (valid : DocumentService.validateStoredObject settings metadata record = .ok ()) :
    metadata.versionId ≠ none := by
  simp only [DocumentService.validateStoredObject, bind_eq_ok, failIf_eq_ok] at valid
  obtain ⟨_, _, _, _, _, _, _, _, versioned⟩ := valid
  exact versioned

/-- Every step is a write of the tables, with the runs it records. -/
theorem write_of_step (sound : backend.Sound deployment) (step : backend.Step deployment after) :
    ∃ successes, Write deployment.worker backend.material successes after.material ∧
      after.material.Constraints ∧
      after.records.successes = backend.records.successes ++ successes := by
  have unchanged : Write deployment.worker backend.material [] backend.material ∧
      backend.material.Constraints ∧
      backend.records.successes = backend.records.successes ++ [] :=
    ⟨.unchanged, sound.coherent.constraints, (List.append_nil _).symm⟩
  have single {written : Material} (write : Write deployment.worker backend.material [] written ∧
      written.Constraints) : Write deployment.worker backend.material [] written ∧
      written.Constraints ∧ backend.records.successes = backend.records.successes ++ [] :=
    ⟨write.1, write.2, (List.append_nil _).symm⟩
  cases step with
  | createCourse course written first inactive ok =>
      rw [Material.commit_eq_ok] at ok
      obtain ⟨constraints, rfl⟩ := ok
      exact ⟨[], single ⟨.courseCreated course first inactive, constraints⟩⟩
  | createUpload tables who courseId request key documentId versionId record written ok =>
      exact ⟨[], single (write_of_createUpload sound.coherent ok)⟩
  | confirm tables earlier later confirmation metadata jobId stamp confirmed running inspected ok =>
      have stored : metadata.versionId ≠ none :=
        sound.inspected confirmation (by rw [running]; simp) metadata inspected
      exact ⟨[], single (write_of_confirm sound.coherent stored ok)⟩
  | activate earlier later activation shown activated running ok =>
      obtain ⟨course, known, idEq, versionEq, _, constraints, rfl⟩ := activate_eq_ok ok
      have ready := sound.checked activation (by rw [running]; simp)
      exact ⟨[], .activated _ _ _ ready, constraints, (List.append_nil _).symm⟩
  | lease locked token now publication written ok =>
      obtain ⟨event, _, job, _, _, _, _, constraints, rfl⟩ := lease_eq_ok ok
      exact ⟨[], single ⟨.dispatched _ _ fun _ => rfl, constraints⟩⟩
  | markPublished earlier later publication now marked running ok =>
      rw [OutboxRelay.markPublished, Material.commit_eq_ok] at ok
      obtain ⟨constraints, rfl⟩ := ok
      exact ⟨[], single ⟨.dispatched _ _ fun _ => rfl, constraints⟩⟩
  | reconcile now written ok =>
      rw [OutboxRelay.reconcile, Material.commit_eq_ok] at ok
      obtain ⟨constraints, rfl⟩ := ok
      exact ⟨[], single ⟨.dispatched _ _ fun _ => rfl, constraints⟩⟩
  | deliver earlier later delivery next written successes running advance =>
      have phaseSound := (sound.deliveries delivery (by rw [running]; simp)).1
      obtain ⟨write, constraints⟩ := write_of_deliveryStep sound.coherent phaseSound advance
      exact ⟨successes, write, constraints, rfl⟩
  | _ => exact ⟨[], unchanged⟩

/-- What processes carry still agrees with the tables after a write. -/
theorem Backend.Sound.written (sound : backend.Sound deployment) {material : Material}
    {successes : List Success} {records : Records}
    (write : Write deployment.worker backend.material successes material)
    (constraints : material.Constraints)
    (recorded : records.successes = backend.records.successes ++ successes) :
    Backend.Sound deployment { backend with material, records } := by
  have advances := advances_of_write sound.coherent.constraints write
  exact
    { coherent := by
        show material.Coherent deployment.worker records.successes
        rw [recorded]
        exact coherent_of_write sound.coherent write constraints
      inspected := sound.inspected
      checked := fun activation carried => by
        obtain ⟨corpus, known, ready⟩ := sound.checked activation carried
        exact ⟨corpus, advances.corpora.subset known, ready⟩
      deliveries := fun delivery carried => by
        obtain ⟨phaseSound, genuine⟩ := sound.deliveries delivery carried
        exact ⟨phaseSound.advance advances, genuine.advance advances⟩
      holders := sound.holders
      relays := fun relay carried => by
        obtain ⟨genuine, sameFields⟩ := sound.relays relay carried
        exact ⟨genuine.advance advances, sameFields⟩
      stream := fun entry carried => by
        obtain ⟨envelope, genuine, sameFields⟩ := sound.stream entry carried
        exact ⟨envelope, genuine.advance advances, sameFields⟩ }

/-- The envelope of a stored event can be parsed back. -/
theorem parse_genuine {zone : TimeZone} {material : Material} (constraints : material.Constraints)
    {kind : OutboxKind} {envelope : JobEnvelope} (genuine : envelope.Genuine zone material kind) :
    JobEnvelope.parse envelope.fields = .ok envelope := by
  obtain ⟨event, _, job, jobKnown, _, _, rfl⟩ := genuine
  obtain ⟨pipelineVersion, correlationId, _⟩ := constraints.jobChecks job jobKnown
  exact JobEnvelope.parse_fields pipelineVersion correlationId (zone.short _)

/-- What a list of processes carries, after one of them went on. -/
theorem forall_mem_replaced {α : Type} {property : α → Prop} {earlier later : List α}
    {item next : α} (holds : ∀ other ∈ earlier ++ item :: later, property other)
    (goesOn : property next) : ∀ other ∈ earlier ++ next :: later, property other := by
  intro other member
  rcases List.mem_append.mp member with inEarlier | inRest
  · exact holds other (List.mem_append_left _ inEarlier)
  · rcases List.mem_cons.mp inRest with rfl | inLater
    · exact goesOn
    · exact holds other (List.mem_append_right _ (List.mem_cons_of_mem _ inLater))

/-- What a list of processes carries, after one of them ended. -/
theorem forall_mem_removed {α : Type} {property : α → Prop} {earlier later : List α} {item : α}
    (holds : ∀ other ∈ earlier ++ item :: later, property other) :
    ∀ other ∈ earlier ++ later, property other :=
  fun other member => holds other
    (((List.sublist_cons_self item later).append_left earlier).subset member)

/-- What a list of processes carries, after one more started. -/
theorem forall_mem_started {α : Type} {property : α → Prop} {items : List α} {item : α}
    (holds : ∀ other ∈ items, property other) (starts : property item) :
    ∀ other ∈ items ++ [item], property other := by
  intro other member
  rcases List.mem_append.mp member with old | new
  · exact holds other old
  · rw [List.mem_singleton.mp new]
    exact starts

theorem apart_of_sublist {deliveries fewer : List Delivery} (apart : Apart deliveries)
    (fewerDeliveries : fewer.Sublist deliveries) : Apart fewer :=
  apart.sublist ((fewerDeliveries.filterMap _).map _)

theorem claims_middle (earlier later : List Delivery) (delivery : Delivery) :
    claims (earlier ++ delivery :: later) =
      claims earlier ++ delivery.phase.claim?.toList ++ claims later := by
  unfold claims
  cases claim : delivery.phase.claim? <;> simp [claim]

/-- A claim is drawn under a token no other worker has. -/
theorem apart_of_claimStep (sound : backend.Sound deployment) {earlier later : List Delivery}
    {delivery : Delivery} {next : DeliveryPhase} {written : Material}
    (running : backend.deliveries = earlier ++ delivery :: later)
    (claimStep : ClaimStep backend.material written delivery.phase next) :
    Apart (earlier ++ { delivery with phase := next } :: later) := by
  have apart := sound.holders
  rw [running] at apart
  unfold Apart at apart ⊢
  rw [claims_middle] at apart ⊢
  cases claimStep with
  | kept same => rwa [same]
  | dropped none =>
      rw [none]
      refine apart.sublist (List.Sublist.map _ ?_)
      simp
  | drawn claimed job row before now known laterKnown sameJob on newer =>
      rw [before, Option.toList_none, List.append_nil] at apart
      rw [now, Option.toList_some, List.append_assoc, List.singleton_append, uniqueOn_middle]
      refine ⟨apart, fun other member sameKey => ?_⟩
      rw [Prod.mk.injEq] at sameKey
      have carried : ∃ other' ∈ backend.deliveries, other ∈ other'.phase.claim? := by
        have inClaims : other ∈ claims backend.deliveries := by
          rw [running, claims_middle, before]
          simpa using member
        obtain ⟨holder, holderKnown, isClaim⟩ := List.mem_filterMap.mp inClaims
        exact ⟨holder, holderKnown, isClaim⟩
      obtain ⟨holder, holderKnown, isClaim⟩ := carried
      obtain ⟨held, heldKnown, heldOn⟩ := (sound.deliveries holder holderKnown).1.stored other isClaim
      have sameRow := sound.coherent.constraints.jobIds.eq_of_key heldKnown known
        (heldOn.id.trans (sameKey.1.trans sameJob.symm))
      have bound := heldOn.token
      rw [sameRow, sameKey.2] at bound
      exact absurd newer (Nat.not_lt.mpr bound)

/-- Every step keeps the invariant. -/
theorem sound_of_step (sound : backend.Sound deployment) (step : backend.Step deployment after) :
    after.Sound deployment := by
  obtain ⟨successes, write, constraints, recorded⟩ := write_of_step sound step
  have advances := advances_of_write sound.coherent.constraints write
  have written := sound.written write constraints recorded
  cases step with
  | startConfirmation tables who path key validKey correlationId keyOk ok =>
      exact { written with inspected := forall_mem_started written.inspected nofun }
  | inspect tables earlier later confirmation record metadata running unconfirmed loaded valid =>
      have carried := written.inspected
      simp only [running] at carried
      refine { written with inspected := forall_mem_replaced carried fun seen isInspected => ?_ }
      cases isInspected
      exact versionId_of_validate valid
  | confirm tables earlier later confirmation metadata jobId stamp confirmed running inspected ok =>
      have carried := written.inspected
      simp only [running] at carried
      exact { written with inspected := forall_mem_removed carried }
  | startActivation tables who activation ok =>
      exact { written with
        checked := forall_mem_started written.checked (checkActivation_eq_ok ok) }
  | activate earlier later activation shown activated running ok =>
      have carried := written.checked
      simp only [running] at carried
      exact { written with checked := forall_mem_removed carried }
  | lease locked token now publication leased ok =>
      obtain ⟨event, known, job, jobKnown, ownJob, _, isPublication, _, _⟩ := lease_eq_ok ok
      refine { written with relays := forall_mem_started written.relays ⟨?_, fun ingestion => ?_⟩ }
      · have genuine : publication.envelope.Genuine deployment.worker.zone backend.material
            publication.kind := by
          rw [isPublication]
          exact ⟨event, known, job, jobKnown, rfl, ownJob.symm, rfl⟩
        exact genuine.advance advances
      · subst isPublication
        have isIngestion : event.kind = .ingestion := ingestion
        simp [OutboxRelay.publication, isIngestion]
  | append earlier later publication entryId running ingestion newest =>
      have carried := written.relays
      simp only [running] at carried
      have leased := carried ⟨publication, .leased⟩ (by simp)
      have genuine := leased.1
      rw [ingestion] at genuine
      exact { written with
        relays := forall_mem_replaced carried leased
        stream := forall_mem_started written.stream
          ⟨publication.envelope, genuine, leased.2 ingestion⟩ }
  | appendDead earlier later publication running dead =>
      have carried := written.relays
      simp only [running] at carried
      exact { written with
        relays := forall_mem_replaced carried (carried ⟨publication, .leased⟩ (by simp)) }
  | markPublished earlier later publication now marked running ok =>
      have carried := written.relays
      simp only [running] at carried
      exact { written with relays := forall_mem_removed carried }
  | consume entry envelope member ok =>
      obtain ⟨source, genuine, sameFields⟩ := written.stream entry member
      have sameEnvelope : source = envelope := by
        rw [sameFields, parse_genuine constraints genuine] at ok
        exact Except.ok.inj ok
      refine { written with
        deliveries := forall_mem_started written.deliveries
          ⟨⟨nofun, nofun⟩, sameEnvelope ▸ genuine⟩
        holders := ?_ }
      have apart := written.holders
      unfold Apart at apart ⊢
      rw [claims_middle]
      have none : claims [] = [] := rfl
      simpa [DeliveryPhase.claim?, none] using apart
  | discard entry failure member failed =>
      exact { written with
        stream := fun other kept => written.stream other (List.mem_of_mem_filter kept) }
  | deliver earlier later delivery next written' successes' running advance =>
      have phaseSound := (sound.deliveries delivery (by rw [running]; simp)).1
      have genuine := (written.deliveries delivery (by rw [running]; simp)).2
      have carried := written.deliveries
      simp only [running] at carried
      exact { written with
        deliveries := forall_mem_replaced carried
          ⟨sound_of_deliveryStep phaseSound advances advance, genuine⟩
        holders := apart_of_claimStep sound running (claimStep_of_deliveryStep advance) }
  | mismatch earlier later delivery now stamp running received failed =>
      have carried := written.deliveries
      simp only [running] at carried
      exact { written with
        deliveries := forall_mem_removed carried
        holders := apart_of_sublist written.holders (by rw [running]; simp)
        stream := fun other kept => written.stream other (List.mem_of_mem_filter kept) }
  | acknowledge earlier later delivery running processed =>
      have carried := written.deliveries
      simp only [running] at carried
      refine { written with
        deliveries := forall_mem_removed carried
        holders := apart_of_sublist written.holders (by rw [running]; simp)
        stream := fun other kept => written.stream other ?_ }
      dsimp only at kept
      split at kept
      · exact List.mem_of_mem_filter kept
      · exact kept
  | crash deliveries relays confirmations activations fewerDeliveries fewerRelays fewerConfirmations
      fewerActivations =>
      exact { written with
        deliveries := fun other kept => written.deliveries other (fewerDeliveries.subset kept)
        holders := apart_of_sublist written.holders fewerDeliveries
        relays := fun other kept => written.relays other (fewerRelays.subset kept)
        inspected := fun other kept => written.inspected other (fewerConfirmations.subset kept)
        checked := fun other kept => written.checked other (fewerActivations.subset kept) }
  | lose stream fewer =>
      exact { written with stream := fun other kept => written.stream other (fewer.subset kept) }
  | _ => exact written

theorem sound_of_initial (initial : backend.Initial) : backend.Sound deployment := by
  obtain ⟨⟨courses, rfl⟩, constraints, inactive⟩ := initial
  exact
    { coherent := coherent_of_courses constraints inactive
      inspected := List.forall_mem_nil _
      checked := List.forall_mem_nil _
      deliveries := List.forall_mem_nil _
      holders := List.nodup_nil
      relays := List.forall_mem_nil _
      stream := List.forall_mem_nil _ }

/-- Every reachable backend is sound. -/
theorem sound_of_reachable
    (reachable : Reachable Backend.Initial (Backend.Step deployment) backend) :
    backend.Sound deployment :=
  reachable.holds (fun _ initial => sound_of_initial initial)
    fun _ _ sound step => sound_of_step sound step

/-- The tables of a backend only advance. -/
theorem materialAdvances_of_run (sound : backend.Sound deployment)
    (run : Relation.ReflTransGen (Backend.Step deployment) backend after) :
    after.Sound deployment ∧ backend.material.Advances after.material := by
  induction run with
  | refl => exact ⟨sound, .refl _⟩
  | tail _ step inductionHypothesis =>
      obtain ⟨soundHere, advances⟩ := inductionHypothesis
      obtain ⟨_, write, _, _⟩ := write_of_step soundHere step
      exact ⟨sound_of_step soundHere step,
        advances.trans (advances_of_write soundHere.coherent.constraints write)⟩

end Preservation

end Docta
