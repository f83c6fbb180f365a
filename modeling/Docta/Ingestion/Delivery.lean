/-
Module: Docta.Ingestion.Delivery
Purpose: No accepted job is lost. In every reachable state an unfinished job has
  its one event; once the clocks have passed, that event can be published, now or
  after one reconciliation, and its delivery is claimed and not ignored.
Trusted boundary: a new event draws an identifier no event has
Main exports: IngestionJob.Due, Recoverable, no_job_lost
-/
import Docta.Ingestion.Fencing

namespace Docta

open Table Fallible Transition

/-! ### Updates that keep the constraints -/

section Constraints

variable {material : Material}

/-- Updates that touch no key and keep every row's own checks keep the
constraints. -/
theorem Material.Constraints.moved (constraints : material.Constraints)
    {condition : DocumentVersion → Bool} {assign : DocumentVersion → DocumentVersion}
    {jobCondition : IngestionJob → Bool} {advance : IngestionJob → IngestionJob}
    {events : List OutboxEvent}
    (versions : ∀ version ∈ material.documentVersions, condition version = true →
      (assign version).uploaded = version.uploaded ∧ (assign version).Checks)
    (jobs : ∀ job ∈ material.ingestionJobs, jobCondition job = true →
      (advance job).confirmed = job.confirmed ∧ (advance job).Checks)
    (eventIds : UniqueOn (·.id) events)
    (eventKinds : UniqueOn (fun row => (row.jobId, row.kind)) events)
    (eventJob : ∀ row ∈ events, ∃ job ∈ material.ingestionJobs,
      job.courseId = row.courseId ∧ job.id = row.jobId) :
    Material.Constraints { material with
      documentVersions := updateWhere material.documentVersions condition assign
      ingestionJobs := updateWhere material.ingestionJobs jobCondition advance
      outboxEvents := events } := by
  -- Every row advances; what refers to a version or a job still finds it.
  have laterVersion : ∀ version ∈ material.documentVersions,
      ∃ later ∈ updateWhere material.documentVersions condition assign,
        later.uploaded = version.uploaded :=
    advance_updateWhere (fun _ => rfl) fun row known matched => (versions row known matched).1
  have laterJob : ∀ job ∈ material.ingestionJobs,
      ∃ later ∈ updateWhere material.ingestionJobs jobCondition advance,
        later.confirmed = job.confirmed :=
    advance_updateWhere (fun _ => rfl) fun row known matched => (jobs row known matched).1
  have versionKept {courseId versionId : UUID}
      (found : ∃ version ∈ material.documentVersions,
        version.courseId = courseId ∧ version.id = versionId) :
      ∃ version ∈ updateWhere material.documentVersions condition assign,
        version.courseId = courseId ∧ version.id = versionId := by
    obtain ⟨version, known, courseEq, idEq⟩ := found
    obtain ⟨later, laterKnown, same⟩ := laterVersion version known
    refine ⟨later, laterKnown, ?_, ?_⟩
    · exact (DocumentVersion.column_of_uploaded same (·.courseId) fun _ => rfl).trans courseEq
    · exact (DocumentVersion.column_of_uploaded same (·.id) fun _ => rfl).trans idEq
  have jobKept {courseId jobId : UUID}
      (found : ∃ job ∈ material.ingestionJobs, job.courseId = courseId ∧ job.id = jobId) :
      ∃ job ∈ updateWhere material.ingestionJobs jobCondition advance,
        job.courseId = courseId ∧ job.id = jobId := by
    obtain ⟨job, known, courseEq, idEq⟩ := found
    obtain ⟨later, laterKnown, same⟩ := laterJob job known
    refine ⟨later, laterKnown, ?_, ?_⟩
    · exact (IngestionJob.column_of_confirmed same (·.courseId) fun _ => rfl).trans courseEq
    · exact (IngestionJob.column_of_confirmed same (·.id) fun _ => rfl).trans idEq
  -- A key of a version or a job is a column no update touches.
  have versionKey {β : Type} [DecidableEq β] (key : DocumentVersion → β)
      (fixed : ∀ version : DocumentVersion, key version.uploaded = key version)
      (unique : UniqueOn key material.documentVersions) :
      UniqueOn key (updateWhere material.documentVersions condition assign) :=
    (uniqueOn_updateWhere fun row known matched =>
      DocumentVersion.column_of_uploaded (versions row known matched).1 key fixed).mpr unique
  have jobKey {β : Type} [DecidableEq β] (key : IngestionJob → β)
      (fixed : ∀ job : IngestionJob, key job.confirmed = key job)
      (unique : UniqueOn key material.ingestionJobs) :
      UniqueOn key (updateWhere material.ingestionJobs jobCondition advance) :=
    (uniqueOn_updateWhere fun row known matched =>
      IngestionJob.column_of_confirmed (jobs row known matched).1 key fixed).mpr unique
  exact { constraints with
    versionIds := versionKey _ (fun _ => rfl) constraints.versionIds
    storageKeys := versionKey _ (fun _ => rfl) constraints.storageKeys
    uploadKeys := versionKey _ (fun _ => rfl) constraints.uploadKeys
    versionDocument := fun row member => by
      rcases mem_updateWhere_cases member with ⟨stays, _⟩ | ⟨source, known, matched, rfl⟩
      · exact constraints.versionDocument row stays
      · have same := (versions source known matched).1
        rw [DocumentVersion.column_of_uploaded same (·.courseId) fun _ => rfl,
          DocumentVersion.column_of_uploaded same (·.documentId) fun _ => rfl]
        exact constraints.versionDocument source known
    versionChecks := fun row member => by
      rcases mem_updateWhere_cases member with ⟨stays, _⟩ | ⟨source, known, matched, rfl⟩
      · exact constraints.versionChecks row stays
      · exact (versions source known matched).2
    corpusDocumentVersion := fun row member =>
      versionKept (constraints.corpusDocumentVersion row member)
    chunkVersion := fun row member => versionKept (constraints.chunkVersion row member)
    jobIds := jobKey _ (fun _ => rfl) constraints.jobIds
    logicalJobs := jobKey _ (fun _ => rfl) constraints.logicalJobs
    jobChecks := fun row member => by
      rcases mem_updateWhere_cases member with ⟨stays, _⟩ | ⟨source, known, matched, rfl⟩
      · exact constraints.jobChecks row stays
      · exact (jobs source known matched).2
    jobVersion := fun row member => by
      rcases mem_updateWhere_cases member with ⟨stays, _⟩ | ⟨source, known, matched, rfl⟩
      · exact versionKept (constraints.jobVersion row stays)
      · have same := (jobs source known matched).1
        rw [IngestionJob.column_of_confirmed same (·.courseId) fun _ => rfl,
          IngestionJob.column_of_confirmed same (·.documentVersionId) fun _ => rfl]
        exact versionKept (constraints.jobVersion source known)
    eventIds := eventIds
    eventKinds := eventKinds
    eventJob := fun row member => jobKept (eventJob row member) }

/-- An update of dispatch columns keeps the constraints. -/
theorem Material.Constraints.dispatched (constraints : material.Constraints)
    {condition : OutboxEvent → Bool} {assign : OutboxEvent → OutboxEvent}
    (keeps : ∀ event, (assign event).inserted = event.inserted) :
    Material.Constraints
      { material with outboxEvents := updateWhere material.outboxEvents condition assign } := by
  have eventKey {β : Type} [DecidableEq β] (key : OutboxEvent → β)
      (fixed : ∀ event : OutboxEvent, key event.inserted = key event)
      (unique : UniqueOn key material.outboxEvents) :
      UniqueOn key (updateWhere material.outboxEvents condition assign) :=
    (uniqueOn_updateWhere fun row _ _ =>
      OutboxEvent.column_of_inserted (keeps row) key fixed).mpr unique
  exact { constraints with
    eventIds := eventKey _ (fun _ => rfl) constraints.eventIds
    eventKinds := eventKey _ (fun _ => rfl) constraints.eventKinds
    eventJob := fun row member => by
      rcases mem_updateWhere_cases member with ⟨stays, _⟩ | ⟨source, known, _, rfl⟩
      · exact constraints.eventJob row stays
      · rw [OutboxEvent.column_of_inserted (keeps source) (·.courseId) fun _ => rfl,
          OutboxEvent.column_of_inserted (keeps source) (·.jobId) fun _ => rfl]
        exact constraints.eventJob source known }

/-- The events after one of a stored job was inserted under a new identifier. -/
theorem Material.Constraints.inserted (constraints : material.Constraints) {event : OutboxEvent}
    (fresh : ∀ row ∈ material.outboxEvents, row.id ≠ event.id)
    (ofJob : ∃ job ∈ material.ingestionJobs, job.courseId = event.courseId ∧
      job.id = event.jobId) :
    UniqueOn (·.id) (insertEvent event material.outboxEvents) ∧
      UniqueOn (fun row => (row.jobId, row.kind)) (insertEvent event material.outboxEvents) ∧
      ∀ row ∈ insertEvent event material.outboxEvents, ∃ job ∈ material.ingestionJobs,
        job.courseId = row.courseId ∧ job.id = row.jobId := by
  unfold insertEvent
  by_cases conflict : (material.outboxEvents.any fun row =>
      row.jobId == event.jobId && row.kind == event.kind) = true
  · rw [if_pos conflict]
    exact ⟨constraints.eventIds, constraints.eventKinds, constraints.eventJob⟩
  · rw [if_neg conflict]
    refine ⟨uniqueOn_append_singleton.mpr ⟨constraints.eventIds, fresh⟩,
      uniqueOn_append_singleton.mpr ⟨constraints.eventKinds, fun row known same => ?_⟩, ?_⟩
    · rw [Prod.mk.injEq] at same
      exact conflict (List.any_eq_true.mpr ⟨row, known, by simp [same.1, same.2]⟩)
    · intro row member
      rcases List.mem_append.mp member with old | new
      · exact constraints.eventJob row old
      · rw [List.mem_singleton.mp new]
        exact ofJob

end Constraints

/-! ### Recovery -/

/-- The work of a job is due: its next attempt, or what is left of its lease. -/
def IngestionJob.Due (now : Time) (job : IngestionJob) : Prop :=
  (job.state = .pending ∧ job.nextAttemptAt ≤ now) ∨
    (job.state = .running ∧ ∃ expires, job.leaseExpiresAt = some expires ∧ expires ≤ now)

/-- The clock has passed an event's own times. -/
structure OutboxEvent.Past (staleSeconds : Nat) (now : Time) (event : OutboxEvent) : Prop where
  available : event.availableAt ≤ now
  lease : ∀ expires ∈ event.publishLeaseUntil, expires ≤ now
  published : ∀ published ∈ event.publishedAt, published ≤ now - seconds staleSeconds

/-- The event can be published: it is eligible, or one reconciliation makes it so. -/
def Publishable (staleSeconds : Nat) (now : Time) (material : Material) (event : OutboxEvent) :
    Prop :=
  event.eligible now = true ∨
    ∃ after, OutboxRelay.reconcile staleSeconds now material = .ok after ∧
      ∃ later ∈ after.outboxEvents, later.inserted = event.inserted ∧
        ∀ time, now ≤ time → later.eligible time = true

/-- What a claim of the job's delivery does: it is taken under the next token, or
failed once its attempts are spent. -/
def Claimable (worker : IngestionWorker.Settings) (now : Time) (stamp : Stamp)
    (material : Material) (event : OutboxEvent) (job : IngestionJob) : Prop :=
  ∃ result after,
    IngestionWorker.claim worker (envelopeFor worker.zone event job) now stamp material =
        .ok (result, after) ∧
      ∃ later ∈ after.ingestionJobs, later.id = job.id ∧
        later.fencingToken = job.fencingToken + 1 ∧
        if job.attempt < worker.maxAttempts then
          later.state = .running ∧ result.map (·.fencingToken) = some later.fencingToken
        else later.state = .failed ∧ result = none

/-- How an unfinished job is recovered, whatever happened to its deliveries. -/
structure Recoverable (deployment : Deployment) (backend : Backend) (job : IngestionJob)
    (event : OutboxEvent) : Prop where
  known : event ∈ backend.material.outboxEvents
  own : event.jobId = job.id ∧ event.kind = .ingestion
  only : ∀ other ∈ backend.material.outboxEvents, other.jobId = job.id → other.kind = .ingestion →
    other = event
  publishable : ∀ now, job.Due now → event.Past deployment.staleSeconds now →
    Publishable deployment.staleSeconds now backend.material event
  /-- its entry is read back -/
  parsed : JobEnvelope.parse (envelopeFor deployment.worker.zone event job).fields =
    .ok (envelopeFor deployment.worker.zone event job)
  /-- every delivery of the event on its way carries this envelope -/
  delivered : ∀ delivery ∈ backend.deliveries, delivery.envelope.eventId = event.id →
    delivery.envelope = envelopeFor deployment.worker.zone event job
  claimable : ∀ now stamp, job.Due now →
    (∀ row ∈ backend.material.outboxEvents, row.id ≠ stamp.id) →
    Claimable deployment.worker now stamp backend.material event job

section Recovery

open IngestionWorker

variable {deployment : Deployment} {backend : Backend}

theorem IngestionJob.Due.unfinished {now : Time} {job : IngestionJob} (due : job.Due now) :
    job.Unfinished :=
  due.imp And.left And.left

theorem IngestionJob.Due.due_eq_true {now : Time} {job : IngestionJob} (due : job.Due now) :
    OutboxRelay.due now job = true := by
  rcases due with ⟨pending, passed⟩ | ⟨running, expires, isExpiry, passed⟩
  · simp [OutboxRelay.due, pending, passed]
  · simp [OutboxRelay.due, running, isExpiry, passed]

/-- A due job is neither held nor early. -/
theorem IngestionJob.Due.waits_eq_false {now : Time} {job : IngestionJob} (due : job.Due now) :
    waits now job = false := by
  rcases due with ⟨pending, passed⟩ | ⟨running, expires, isExpiry, passed⟩
  · simp [waits, pending, passed]
  · simp [waits, running, isExpiry, passed]

/-- A due job's event is eligible, or published so long ago that one
reconciliation makes it eligible from then on. -/
theorem publishable_of_due {staleSeconds : Nat} {material : Material}
    (constraints : material.Constraints) {job : IngestionJob} (known : job ∈ material.ingestionJobs)
    {event : OutboxEvent} (eventKnown : event ∈ material.outboxEvents)
    (own : event.jobId = job.id) (ingestion : event.kind = .ingestion) {now : Time}
    (due : job.Due now) (past : event.Past staleSeconds now) :
    Publishable staleSeconds now material event := by
  cases published : event.publishedAt with
  | none =>
      left
      have leaseOver : event.publishLeaseUntil.all (· ≤ now) = true := by
        cases lease : event.publishLeaseUntil with
        | none => rfl
        | some expires => simpa using past.lease expires lease
      simp [OutboxEvent.eligible, published, past.available, leaseOver]
  | some publishedAt =>
      right
      have dueJob : (material.ingestionJobs.any fun row =>
          row.id == event.jobId && OutboxRelay.due now row) = true :=
        List.any_eq_true.mpr ⟨job, known, by simp [own, due.due_eq_true]⟩
      have stale : OutboxRelay.stale staleSeconds now material event = true := by
        rw [OutboxRelay.stale, dueJob, ingestion, published]
        simpa using past.published publishedAt published
      refine ⟨_, Material.commit_eq_ok.mpr ⟨constraints.dispatched fun _ => rfl, rfl⟩, _,
        mem_updateWhere_of_matched eventKnown stale, rfl, fun time later => ?_⟩
      simp [OutboxEvent.eligible, later]

/-- A row is found under its identifier. -/
theorem find?_id {α : Type} {identifier : α → UUID} {rows : List α} (unique : UniqueOn identifier rows)
    {row : α} (known : row ∈ rows) :
    rows.find? (fun other => identifier other == identifier row) = some row := by
  have found := unique.find?_eq_some known
  simpa only [beq_eq_decide] using found

/-- The version a job is about. -/
theorem Material.Coherent.versionOf {worker : IngestionWorker.Settings} {successes : List Success}
    {material : Material} (coherent : material.Coherent worker successes) {job : IngestionJob}
    (known : job ∈ material.ingestionJobs) :
    ∃ version ∈ material.documentVersions, version.ConfirmedBy job ∧
      material.documentVersions.filter (·.id == job.documentVersionId) = [version] := by
  obtain ⟨version, versionKnown, _, idEq⟩ := coherent.constraints.jobVersion job known
  refine ⟨version, versionKnown, coherent.confirmedBy versionKnown known idEq.symm, ?_⟩
  rw [← coherent.constraints.versionIds.filter_eq versionKnown]
  refine List.filter_congr fun other _ => ?_
  rw [idEq, beq_eq_decide]

/-- A condition that selects the version a job is about selects that version only. -/
theorem Material.Coherent.filter_own {worker : IngestionWorker.Settings} {successes : List Success}
    {material : Material} (coherent : material.Coherent worker successes) {job : IngestionJob}
    (known : job ∈ material.ingestionJobs) {condition : DocumentVersion → Bool}
    (narrow : ∀ version, condition version = true → version.id = job.documentVersionId)
    (selects : ∀ version, version.ConfirmedBy job → condition version = true) :
    material.documentVersions.filter condition =
      material.documentVersions.filter (·.id == job.documentVersionId) := by
  refine List.filter_congr fun version versionKnown => ?_
  by_cases own : job.documentVersionId = version.id
  · rw [selects version (coherent.confirmedBy versionKnown known own), own]
    simp
  · have outside : condition version = false := by
      by_contra selected
      exact own (narrow version (by simpa using selected)).symm
    rw [outside]
    simpa using fun same => own same.symm

/-- An unfinished job can be taken. -/
theorem take_of_unfinished {worker : IngestionWorker.Settings} {successes : List Success}
    {material : Material} (coherent : material.Coherent worker successes) {job : IngestionJob}
    (known : job ∈ material.ingestionJobs) (unfinished : job.Unfinished) (now : Time) :
    ∃ version storageVersionId, take worker now job material =
      .ok (some (claimOn job version storageVersionId), taken worker now job material) := by
  obtain ⟨version, versionKnown, confirmed, only⟩ := coherent.versionOf known
  have selected : claimable job version = true := claimable_of_confirmedBy unfinished confirmed
  have claimed : material.documentVersions.filter (claimable job) = [version] := by
    rw [← only]
    exact coherent.filter_own known (fun _ => id_of_claimable)
      fun _ => claimable_of_confirmedBy unfinished
  have moved : (updateWhere material.documentVersions (claimable job) fun version =>
      { version with state := .processing }).filter (·.id == job.documentVersionId) =
        [{ version with state := .processing }] := by
    refine (filter_updateWhere ?_).trans ?_
    · exact fun _ _ _ => rfl
    · rw [only]
      simp [updateWhere, selected]
  obtain ⟨storageVersionId, stored⟩ := Option.ne_none_iff_exists'.mp confirmed.stored
  have constraints : (taken worker now job material).Constraints :=
    coherent.constraints.moved
      (fun row rowKnown _ =>
        ⟨rfl, { coherent.constraints.versionChecks row rowKnown with }⟩)
      (fun row rowKnown _ => ⟨rfl, coherent.constraints.jobChecks row rowKnown⟩)
      coherent.constraints.eventIds coherent.constraints.eventKinds coherent.constraints.eventJob
  have committed : (taken worker now job material).commit = .ok (taken worker now job material) :=
    Material.commit_eq_ok.mpr ⟨constraints, rfl⟩
  refine ⟨version, storageVersionId, ?_⟩
  unfold taken at committed ⊢
  unfold take
  rw [claimed]
  simp only [failIf, List.length_singleton, ne_eq, not_true_eq_false, if_false, ok_bind, moved,
    stored, committed]
  rfl

/-- An unfinished job can be failed. -/
theorem exhaust_of_unfinished {worker : IngestionWorker.Settings} {successes : List Success}
    {material : Material} (coherent : material.Coherent worker successes) {job : IngestionJob}
    (known : job ∈ material.ingestionJobs) (now : Time) {stamp : Stamp}
    (fresh : ∀ row ∈ material.outboxEvents, row.id ≠ stamp.id) :
    ∃ after, exhaust now stamp job material = .ok after ∧ after.ingestionJobs =
      updateWhere material.ingestionJobs (·.id == job.id) (exhausted now) := by
  have short : fits 64 (some "INGESTION_ATTEMPTS_EXHAUSTED") = true := by decide
  obtain ⟨eventIds, eventKinds, eventJob⟩ := @Material.Constraints.inserted material
    coherent.constraints
    { id := stamp.id, courseId := job.courseId, jobId := job.id, kind := .dead
      availableAt := stamp.now, createdAt := stamp.now }
    fresh ⟨job, known, rfl, rfl⟩
  refine ⟨_, Material.commit_eq_ok.mpr ⟨coherent.constraints.moved ?_ ?_ eventIds eventKinds
    eventJob, rfl⟩, rfl⟩
  · intro row rowKnown _
    exact ⟨rfl, { coherent.constraints.versionChecks row rowKnown with failureCode := short }⟩
  · intro row rowKnown _
    obtain ⟨pipelineVersion, correlationId, _⟩ := coherent.constraints.jobChecks row rowKnown
    exact ⟨rfl, pipelineVersion, correlationId, short⟩

theorem claimable_of_due {worker : IngestionWorker.Settings} {successes : List Success}
    {material : Material} (coherent : material.Coherent worker successes) {job : IngestionJob}
    (known : job ∈ material.ingestionJobs) {event : OutboxEvent}
    (eventKnown : event ∈ material.outboxEvents) (own : event.jobId = job.id)
    (ingestion : event.kind = .ingestion) {now : Time} {stamp : Stamp} (due : job.Due now)
    (fresh : ∀ row ∈ material.outboxEvents, row.id ≠ stamp.id) :
    Claimable worker now stamp material event job := by
  have jobFound : material.ingestionJobs.find?
      (·.id == (envelopeFor worker.zone event job).jobId) = some job :=
    find?_id coherent.constraints.jobIds known
  have eventFound : material.outboxEvents.find?
      (·.id == (envelopeFor worker.zone event job).eventId) = some event :=
    find?_id coherent.constraints.eventIds eventKnown
  have unfinished := job.unfinished_iff.mp due.unfinished
  unfold Claimable claim
  rw [jobFound, eventFound]
  have matched : event.kind = .ingestion ∧ event.jobId = job.id ∧
      envelopeFor worker.zone event job = envelopeFor worker.zone event job :=
    ⟨ingestion, own, rfl⟩
  dsimp only
  rw [if_pos matched, if_neg unfinished, due.waits_eq_false, if_neg Bool.false_ne_true]
  by_cases unspent : job.attempt < worker.maxAttempts
  · obtain ⟨version, storageVersionId, taken⟩ :=
      take_of_unfinished coherent known due.unfinished now
    rw [if_neg (by omega : ¬ worker.maxAttempts ≤ job.attempt)]
    refine ⟨_, _, taken, running worker now job, mem_updateWhere_of_matched known (by simp), rfl,
      rfl, ?_⟩
    rw [if_pos unspent]
    exact ⟨rfl, rfl⟩
  · obtain ⟨after, failed, jobs⟩ := exhaust_of_unfinished coherent known now fresh
    rw [if_pos (by omega : worker.maxAttempts ≤ job.attempt), failed]
    refine ⟨none, after, rfl, exhausted now job, ?_, rfl, rfl, ?_⟩
    · rw [jobs]
      exact mem_updateWhere_of_matched known (by simp)
    · rw [if_neg unspent]
      exact ⟨rfl, rfl⟩

/-- The envelope of a stored event on its way is the one recomputed now. -/
theorem genuine_unique {zone : TimeZone} {material : Material} (constraints : material.Constraints)
    {event : OutboxEvent} (known : event ∈ material.outboxEvents) {job : IngestionJob}
    (jobKnown : job ∈ material.ingestionJobs) (own : event.jobId = job.id) {kind : OutboxKind}
    {envelope : JobEnvelope} (genuine : envelope.Genuine zone material kind)
    (ofEvent : envelope.eventId = event.id) : envelope = envelopeFor zone event job := by
  obtain ⟨source, sourceKnown, sourceJob, sourceJobKnown, _, sourceOwn, rfl⟩ := genuine
  have sameEvent := constraints.eventIds.eq_of_key sourceKnown known ofEvent
  subst sameEvent
  rw [constraints.jobIds.eq_of_key sourceJobKnown jobKnown (sourceOwn.symm.trans own)]

/-- No accepted job is ever lost: in every reachable state a job has its single
event, which is publishable once the job is due and the clocks have passed, and
whose delivery is then claimed. -/
theorem no_job_lost (reachable : Reachable Backend.Initial (Backend.Step deployment) backend)
    {job : IngestionJob} (known : job ∈ backend.material.ingestionJobs) :
    ∃ event, Recoverable deployment backend job event := by
  have sound := sound_of_reachable reachable
  have constraints := sound.coherent.constraints
  obtain ⟨event, eventKnown, own, ingestion⟩ := sound.coherent.dispatched job known
  have genuine : (envelopeFor deployment.worker.zone event job).Genuine deployment.worker.zone
      backend.material .ingestion := ⟨event, eventKnown, job, known, ingestion, own, rfl⟩
  exact ⟨event,
    { known := eventKnown
      own := ⟨own, ingestion⟩
      only := fun other otherKnown otherOwn otherIngestion =>
        constraints.eventKinds.eq_of_key otherKnown eventKnown
          (by rw [otherOwn, own, otherIngestion, ingestion])
      publishable := fun now due past =>
        publishable_of_due constraints known eventKnown own ingestion due past
      parsed := parse_genuine constraints genuine
      delivered := fun delivery carried ofEvent =>
        genuine_unique constraints eventKnown known own (sound.deliveries delivery carried).2 ofEvent
      claimable := fun now stamp due fresh =>
        claimable_of_due sound.coherent known eventKnown own ingestion due fresh }⟩

/-- While the first document waits, its event is recoverable. -/
theorem no_job_lost_of_sample :
    ∃ event, Recoverable sampleDeployment samplePublishing sampleJob event :=
  no_job_lost reachable_samplePublishing (List.mem_singleton_self _)

end Recovery

end Docta
