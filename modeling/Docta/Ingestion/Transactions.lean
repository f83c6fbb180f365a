/-
Module: Docta.Ingestion.Transactions
Purpose: The transactions of the document service, a relay and a worker read
  backwards: what each found when it returned, and which write it made.
Trusted boundary: none
Main exports: Claims, claims_of_ok, holds_iff, write_of_claim, write_of_persistSuccess,
  write_of_persistFailure, write_of_createUpload, write_of_confirm
-/
import Docta.Ingestion.Coherence

namespace Docta

open Table Fallible

/-! ### Claims -/

section Claims

open IngestionWorker

/-- The claim a worker gets on a job, with the stored object of its version. -/
def claimOn (job : IngestionJob) (version : DocumentVersion) (storageVersionId : String) :
    ClaimedJob where
  id := job.id
  courseId := job.courseId
  documentVersionId := job.documentVersionId
  storageKey := version.storageKey
  storageVersionId := storageVersionId
  expectedSizeBytes := version.expectedSizeBytes
  expectedSha256 := version.expectedSha256
  pipelineVersion := job.pipelineVersion
  fencingToken := job.fencingToken + 1

/-- The tables after a job was taken. -/
def taken (settings : Settings) (now : Time) (job : IngestionJob) (material : Material) :
    Material :=
  { material with
    ingestionJobs := updateWhere material.ingestionJobs (·.id == job.id) (running settings now)
    documentVersions := updateWhere material.documentVersions (claimable job) fun version =>
      { version with state := .processing } }

/-- What a claim that returns found, and what it did. -/
inductive Claims (settings : Settings) (envelope : JobEnvelope) (now : Time) (stamp : Stamp)
    (material : Material) : Option ClaimedJob → Material → Prop where
  /-- The job is finished, held, or not yet due. -/
  | ignored (job : IngestionJob) (known : job ∈ material.ingestionJobs)
      (own : job.id = envelope.jobId) (idle : ¬ job.Unfinished ∨ waits now job = true) :
      Claims settings envelope now stamp material none material
  /-- The job has run out of attempts. -/
  | exhausted (job : IngestionJob) (known : job ∈ material.ingestionJobs)
      (own : job.id = envelope.jobId) (unfinished : job.Unfinished) (due : waits now job = false)
      (spent : settings.maxAttempts ≤ job.attempt) (after : Material)
      (ok : exhaust now stamp job material = .ok after) :
      Claims settings envelope now stamp material none after
  /-- The job is taken. -/
  | taken (job : IngestionJob) (known : job ∈ material.ingestionJobs)
      (own : job.id = envelope.jobId) (unfinished : job.Unfinished) (due : waits now job = false)
      (unspent : job.attempt < settings.maxAttempts) (version : DocumentVersion)
      (storageVersionId : String) (constraints : (taken settings now job material).Constraints) :
      Claims settings envelope now stamp material
        (some (claimOn job version storageVersionId)) (taken settings now job material)

/-- Taking a job returns its claim and moves it with its version. -/
theorem take_eq_ok {settings : Settings} {now : Time} {job : IngestionJob} {material after : Material}
    {result : Option ClaimedJob} (ok : take settings now job material = .ok (result, after)) :
    ∃ version storageVersionId, result = some (claimOn job version storageVersionId) ∧
      (taken settings now job material).Constraints ∧ after = taken settings now job material := by
  unfold take at ok
  simp only [bind_eq_ok, failIf_eq_ok] at ok
  obtain ⟨_, _, ok⟩ := ok
  split at ok
  · rename_i version _
    cases stored : version.storageVersionId with
    | none =>
        rw [stored] at ok
        cases ok
    | some storageVersionId =>
        rw [stored] at ok
        simp only [bind_eq_ok, Material.commit_eq_ok, pure_eq_ok] at ok
        obtain ⟨committed, ⟨constraints, rfl⟩, same⟩ := ok
        cases same
        exact ⟨version, storageVersionId, rfl, constraints, rfl⟩
  · cases ok

theorem claims_of_ok {settings : Settings} {envelope : JobEnvelope} {now : Time} {stamp : Stamp}
    {material after : Material} {result : Option ClaimedJob}
    (ok : claim settings envelope now stamp material = .ok (result, after)) :
    Claims settings envelope now stamp material result after := by
  unfold claim at ok
  split at ok
  · rename_i job event jobFound eventFound
    have known := List.mem_of_find?_eq_some jobFound
    have own : job.id = envelope.jobId := by simpa using List.find?_some jobFound
    by_cases matched : event.kind = .ingestion ∧ event.jobId = job.id ∧
        envelopeFor settings.zone event job = envelope
    · rw [if_pos matched] at ok
      by_cases finished : job.state = .succeeded ∨ job.state = .failed
      · rw [if_pos finished] at ok
        cases ok
        exact .ignored job known own (.inl fun unfinished =>
          (job.unfinished_iff.mp unfinished) finished)
      · rw [if_neg finished] at ok
        have unfinished := job.unfinished_iff.mpr finished
        by_cases waiting : waits now job = true
        · rw [if_pos waiting] at ok
          cases ok
          exact .ignored job known own (.inr waiting)
        · rw [if_neg waiting] at ok
          have due : waits now job = false := by simpa using waiting
          by_cases spent : settings.maxAttempts ≤ job.attempt
          · rw [if_pos spent] at ok
            simp only [bind_eq_ok, pure_eq_ok, Prod.mk.injEq] at ok
            obtain ⟨committed, committedOk, rfl, rfl⟩ := ok
            exact .exhausted job known own unfinished due spent committed committedOk
          · rw [if_neg spent] at ok
            obtain ⟨version, storageVersionId, rfl, constraints, rfl⟩ := take_eq_ok ok
            exact .taken job known own unfinished due (by omega) version storageVersionId
              constraints
    · rw [if_neg matched] at ok
      cases ok
  · cases ok

end Claims

/-! ### What a worker writes -/

section Writes

open IngestionWorker

variable {worker : IngestionWorker.Settings} {material after : Material} {earlier : List Success}

/-- A condition that selects the version a job is about updates that version. -/
theorem Material.Coherent.updateWhere_own (coherent : material.Coherent worker earlier)
    {job : IngestionJob} (known : job ∈ material.ingestionJobs)
    {condition : DocumentVersion → Bool} {assign : DocumentVersion → DocumentVersion}
    (narrow : ∀ version, condition version = true → version.id = job.documentVersionId)
    (selects : ∀ version, version.ConfirmedBy job → condition version = true) :
    updateWhere material.documentVersions condition assign =
      updateWhere material.documentVersions (·.id == job.documentVersionId) assign := by
  refine updateWhere_congr fun version versionKnown => ?_
  by_cases own : job.documentVersionId = version.id
  · rw [selects version (coherent.confirmedBy versionKnown known own), own]
    simp
  · have outside : condition version = false := by
      by_contra selected
      exact own (narrow version (by simpa using selected)).symm
    rw [outside]
    simpa using fun same => own same.symm

/-- The version a job is about, under the job's course. -/
theorem concerns_of_confirmedBy {job : IngestionJob} {version : DocumentVersion}
    (confirmed : version.ConfirmedBy job) : concerns job version = true := by
  simp [concerns, confirmed.own, confirmed.course]

theorem id_of_concerns {job : IngestionJob} {version : DocumentVersion}
    (concerned : concerns job version = true) : version.id = job.documentVersionId := by
  rw [concerns, Bool.and_eq_true, beq_iff_eq] at concerned
  exact concerned.1

theorem id_of_claimable {job : IngestionJob} {version : DocumentVersion}
    (moved : claimable job version = true) : version.id = job.documentVersionId := by
  rw [claimable, Bool.and_eq_true] at moved
  exact id_of_concerns moved.1

/-- The version of an unfinished job can be claimed. -/
theorem claimable_of_confirmedBy {job : IngestionJob} (unfinished : job.Unfinished)
    {version : DocumentVersion} (confirmed : version.ConfirmedBy job) :
    claimable job version = true := by
  have coupled := confirmed.coupled
  rw [claimable, concerns_of_confirmedBy confirmed, Bool.true_and]
  rcases unfinished with pending | running
  · rw [pending] at coupled
    cases state : version.state <;> simp_all [Coupled]
  · rw [running] at coupled
    cases state : version.state <;> simp_all [Coupled]

/-- A job that moves on without a successful run. -/
theorem write_of_move {job : IngestionJob} {advance : IngestionJob → IngestionJob}
    {assign : DocumentVersion → DocumentVersion} {events : List OutboxEvent}
    (known : job ∈ material.ingestionJobs) (moves : job.Moves worker.maxAttempts (advance job))
    (unsuccessful : (advance job).state ≠ .succeeded)
    (keepsVersion : ∀ version, (assign version).uploaded = version.uploaded ∧
      (assign version).confirmationIdempotencyKey = version.confirmationIdempotencyKey ∧
      (assign version).confirmationRequestHash = version.confirmationRequestHash ∧
      (assign version).storageVersionId = version.storageVersionId)
    (coupled : ∀ version, Coupled (advance job).state (assign version).state)
    (keepsEvents : KeepsEvents material.outboxEvents events) :
    Write worker material []
      { material with
        documentVersions :=
          updateWhere material.documentVersions (·.id == job.documentVersionId) assign
        ingestionJobs := updateWhere material.ingestionJobs (·.id == job.id) advance
        outboxEvents := events } := by
  have write := Write.moved job advance assign events [] known moves (.none unsuccessful)
    keepsVersion coupled keepsEvents
  simpa using write

/-- A job that is taken is running under the next token. -/
theorem moves_running {job : IngestionJob} (unfinished : job.Unfinished) (now : Time)
    (unspent : job.attempt < worker.maxAttempts) :
    job.Moves worker.maxAttempts (running worker now job) where
  sameJob := rfl
  unfinished := unfinished
  attempts _ := unspent
  token := Nat.le_succ _
  leased := by simp [running]

/-- A job out of attempts fails under the next token. -/
theorem moves_exhausted {job : IngestionJob} (unfinished : job.Unfinished) (now : Time) :
    job.Moves worker.maxAttempts (exhausted now job) where
  sameJob := rfl
  unfinished := unfinished
  attempts attempts := attempts
  token := Nat.le_succ _
  leased := by simp [exhausted]

theorem write_of_exhaust (coherent : material.Coherent worker earlier) {now : Time} {stamp : Stamp}
    {job : IngestionJob} (known : job ∈ material.ingestionJobs) (unfinished : job.Unfinished)
    (ok : exhaust now stamp job material = .ok after) :
    Write worker material [] after ∧ after.Constraints := by
  unfold exhaust at ok
  rw [Material.commit_eq_ok] at ok
  obtain ⟨constraints, rfl⟩ := ok
  refine ⟨?_, constraints⟩
  rw [coherent.updateWhere_own known (fun _ => id_of_concerns) fun _ => concerns_of_confirmedBy]
  exact write_of_move known (moves_exhausted unfinished now) nofun
    (fun version => ⟨rfl, rfl, rfl, rfl⟩) (fun version => trivial)
    (keepsEvents_insertEvent _ _)

theorem write_of_taken (coherent : material.Coherent worker earlier) {now : Time}
    {job : IngestionJob} (known : job ∈ material.ingestionJobs) (unfinished : job.Unfinished)
    (unspent : job.attempt < worker.maxAttempts) :
    Write worker material [] (taken worker now job material) := by
  unfold taken
  rw [coherent.updateWhere_own known (fun _ => id_of_claimable)
    fun _ => claimable_of_confirmedBy unfinished]
  exact write_of_move known (moves_running unfinished now unspent) nofun
    (fun version => ⟨rfl, rfl, rfl, rfl⟩) (fun version => trivial) (.refl _)

theorem write_of_claim (coherent : material.Coherent worker earlier) {envelope : JobEnvelope}
    {now : Time} {stamp : Stamp} {result : Option ClaimedJob}
    (claims : Claims worker envelope now stamp material result after) :
    Write worker material [] after ∧ after.Constraints := by
  cases claims with
  | ignored job known own idle => exact ⟨.unchanged, coherent.constraints⟩
  | exhausted job known own unfinished due spent _ ok =>
      exact write_of_exhaust coherent known unfinished ok
  | taken job known own unfinished due unspent version storageVersionId constraints =>
      exact ⟨write_of_taken coherent known unfinished unspent, constraints⟩

/-! ### Holding a job -/

/-- A claim is one on this job, under one of its tokens so far. -/
structure ClaimedJob.On (claimed : ClaimedJob) (job : IngestionJob) : Prop where
  id : job.id = claimed.id
  version : job.documentVersionId = claimed.documentVersionId
  course : job.courseId = claimed.courseId
  token : claimed.fencingToken ≤ job.fencingToken

/-- The job a worker holds: running under its token, its lease not run out. -/
structure ClaimedJob.Holding (claimed : ClaimedJob) (now : Time) (job : IngestionJob) : Prop where
  id : job.id = claimed.id
  running : job.state = .running
  token : job.fencingToken = claimed.fencingToken
  lease : ∃ expires, job.leaseExpiresAt = some expires ∧ now < expires

theorem holds_iff {claimed : ClaimedJob} {now : Time} {job : IngestionJob} :
    holds claimed now job = true ↔ claimed.Holding now job := by
  constructor
  · intro held
    simp only [holds, Bool.and_eq_true, beq_iff_eq] at held
    obtain ⟨⟨⟨sameId, isRunning⟩, sameToken⟩, unexpired⟩ := held
    refine ⟨sameId, isRunning, sameToken, ?_⟩
    cases expiry : job.leaseExpiresAt with
    | none =>
        rw [expiry] at unexpired
        cases unexpired
    | some expires =>
        rw [expiry] at unexpired
        exact ⟨expires, rfl, by simpa using unexpired⟩
  · intro holding
    obtain ⟨expires, isExpiry, later⟩ := holding.lease
    simp [holds, holding.id, holding.running, holding.token, isExpiry, later]

/-- The job of a claim is the only one a worker can hold under it. -/
theorem ClaimedJob.Holding.on {claimed : ClaimedJob} {now : Time} {job : IngestionJob}
    (holding : claimed.Holding now job) (coherent : material.Coherent worker earlier)
    (known : job ∈ material.ingestionJobs)
    (stored : ∃ row ∈ material.ingestionJobs, claimed.On row) : claimed.On job := by
  obtain ⟨row, rowKnown, on⟩ := stored
  rw [coherent.constraints.jobIds.eq_of_key known rowKnown (holding.id.trans on.id.symm)]
  exact on

/-- The version of a running job can be finished. -/
theorem finishable_of_confirmedBy {claimed : ClaimedJob} {job : IngestionJob}
    (on : claimed.On job) (running : job.state = .running) {version : DocumentVersion}
    (confirmed : version.ConfirmedBy job) : finishable claimed version = true := by
  have coupled := confirmed.coupled
  rw [running] at coupled
  have processing : version.state = .processing := by
    cases state : version.state <;> simp_all [Coupled]
  simp [finishable, ← on.version, ← on.course, confirmed.own, confirmed.course, processing]

theorem id_of_finishable {claimed : ClaimedJob} {job : IngestionJob} (on : claimed.On job)
    {version : DocumentVersion} (finished : finishable claimed version = true) :
    version.id = job.documentVersionId := by
  rw [finishable, Bool.and_eq_true, Bool.and_eq_true, beq_iff_eq] at finished
  exact finished.1.1.trans on.version.symm

/-- Only the version of the job is finished. -/
theorem updateWhere_finishable (coherent : material.Coherent worker earlier)
    {claimed : ClaimedJob} {job : IngestionJob} (known : job ∈ material.ingestionJobs)
    (on : claimed.On job) (running : job.state = .running)
    {assign : DocumentVersion → DocumentVersion} :
    updateWhere material.documentVersions (finishable claimed) assign =
      updateWhere material.documentVersions (·.id == job.documentVersionId) assign :=
  coherent.updateWhere_own known (fun _ => id_of_finishable on)
    fun _ => finishable_of_confirmedBy on running

/-! ### Persisting -/

theorem addCorpus_eq_ok {claimed : ClaimedJob} {output : Output} {fresh : FreshIds}
    (ok : addCorpus claimed output fresh material = .ok after) :
    after.Constraints ∧ after =
      { material with
        corpusVersions :=
          material.corpusVersions ++ [corpusRow claimed output fresh.corpusId .building]
        corpusVersionDocuments := material.corpusVersionDocuments ++
          [Success.link ⟨claimed, output, fresh⟩]
        chunks := material.chunks ++ Success.chunks ⟨claimed, output, fresh⟩ } := by
  unfold addCorpus at ok
  simp only [bind_eq_ok, Material.commit_eq_ok, failIf_eq_ok, pure_eq_ok] at ok
  obtain ⟨flushed, ⟨constraints, rfl⟩, _, _, rfl⟩ := ok
  exact ⟨constraints, rfl⟩

theorem addEmbeddings_eq_ok {claimed : ClaimedJob} {output : Output} {fresh : FreshIds}
    (ok : addEmbeddings worker claimed output fresh material = .ok after) :
    after =
      { material with
        chunkEmbeddings := material.chunkEmbeddings ++
          Success.embeddings worker ⟨claimed, output, fresh⟩ } := by
  unfold addEmbeddings at ok
  unfold Success.embeddings
  cases vectors : output.embeddings with
  | none =>
      rw [vectors] at ok
      cases ok
      simp
  | some vectors =>
      cases embedder : worker.embedder with
      | none =>
          rw [vectors, embedder] at ok
          cases ok
          simp
      | some embedder =>
          rw [vectors, embedder] at ok
          simp only [bind_eq_ok, Material.commit_eq_ok, failIf_eq_ok, pure_eq_ok] at ok
          obtain ⟨_, _, flushed, ⟨_, rfl⟩, _, _, rfl⟩ := ok
          rfl

/-- A success that returns found its job held, and published its corpus. -/
theorem persistSuccess_eq_ok {claimed : ClaimedJob} {output : Output} {fresh : FreshIds}
    {now completedAt : Time}
    (ok : persistSuccess worker claimed output fresh now completedAt material = .ok after) :
    ∃ job ∈ material.ingestionJobs, claimed.Holding now job ∧ after.Constraints ∧ after =
      { material with
        documentVersions :=
          updateWhere material.documentVersions (finishable claimed) (indexed output)
        corpusVersions := material.corpusVersions ++ [Success.corpus ⟨claimed, output, fresh⟩]
        corpusVersionDocuments := material.corpusVersionDocuments ++
          [Success.link ⟨claimed, output, fresh⟩]
        chunks := material.chunks ++ Success.chunks ⟨claimed, output, fresh⟩
        chunkEmbeddings := material.chunkEmbeddings ++
          Success.embeddings worker ⟨claimed, output, fresh⟩
        ingestionJobs :=
          updateWhere material.ingestionJobs (·.id == job.id) (succeeded completedAt) } := by
  unfold persistSuccess at ok
  split at ok
  · cases ok
  · rename_i job found
    simp only [bind_eq_ok, Material.commit_eq_ok, failIf_eq_ok] at ok
    obtain ⟨built, builtOk, embedded, embeddedOk, _, _, constraints, rfl⟩ := ok
    obtain ⟨building, rfl⟩ := addCorpus_eq_ok builtOk
    have published : updateWhere (material.corpusVersions ++
          [corpusRow claimed output fresh.corpusId .building]) (·.id == fresh.corpusId)
          (fun corpus => { corpus with state := .ready }) =
        material.corpusVersions ++ [Success.corpus ⟨claimed, output, fresh⟩] :=
      building.corpusIds.updateWhere_last
    rw [addEmbeddings_eq_ok embeddedOk] at constraints ⊢
    simp only [published] at constraints ⊢
    exact ⟨job, List.mem_of_find?_eq_some found, holds_iff.mp (List.find?_some found),
      constraints, rfl⟩

/-- A job that succeeds keeps its token. -/
theorem moves_succeeded {job : IngestionJob} (running : job.state = .running)
    (completedAt : Time) : job.Moves worker.maxAttempts (succeeded completedAt job) where
  sameJob := rfl
  unfinished := .inr running
  attempts attempts := attempts
  token := Nat.le_refl _
  leased := by simp [succeeded]

theorem write_of_persistSuccess (coherent : material.Coherent worker earlier)
    {claimed : ClaimedJob} {output : Output} {fresh : FreshIds} {now completedAt : Time}
    (stored : ∃ row ∈ material.ingestionJobs, claimed.On row) (embedded : output.Embedded worker)
    (ok : persistSuccess worker claimed output fresh now completedAt material = .ok after) :
    Write worker material [⟨claimed, output, fresh⟩] after ∧ after.Constraints := by
  obtain ⟨job, known, holding, constraints, rfl⟩ := persistSuccess_eq_ok ok
  refine ⟨?_, constraints⟩
  have on := holding.on coherent known stored
  rw [updateWhere_finishable coherent known on holding.running]
  have write := Write.moved job (succeeded completedAt) (indexed output) material.outboxEvents
    [⟨claimed, output, fresh⟩] known (moves_succeeded holding.running completedAt)
    (.one _ rfl on.id.symm on.version.symm on.course.symm holding.token.symm embedded)
    (fun version => ⟨rfl, rfl, rfl, rfl⟩) (fun version => trivial) (.refl _)
  simpa using write

/-- A failed job waits for its next attempt or is finished, under its token. -/
theorem moves_failedJob {job : IngestionJob} (running : job.state = .running)
    (rejection : Rejection) (retry : Bool) (now nextAttemptAt : Time) :
    job.Moves worker.maxAttempts (failedJob rejection retry now nextAttemptAt job) := by
  cases retry with
  | false =>
      exact
        { sameJob := rfl, unfinished := .inr running, attempts := id, token := Nat.le_refl _
          leased := by simp [failedJob] }
  | true =>
      exact
        { sameJob := rfl, unfinished := .inr running, attempts := id, token := Nat.le_refl _
          leased := by simp [failedJob] }

/-- A failure that returns did nothing, or found its job held. -/
theorem persistFailure_eq_ok {claimed : ClaimedJob} {rejection : Rejection}
    {checked now nextAttemptAt : Time} {stamp : Stamp}
    (ok : persistFailure worker claimed rejection checked now nextAttemptAt stamp material =
      .ok after) :
    ((∀ job ∈ material.ingestionJobs, ¬ claimed.Holding checked job) ∧ after = material) ∨
      ∃ job ∈ material.ingestionJobs, claimed.Holding checked job ∧ after.Constraints ∧
        ∃ retry : Bool, after =
          { material with
            ingestionJobs := updateWhere material.ingestionJobs (·.id == job.id)
              (failedJob rejection retry now nextAttemptAt)
            documentVersions := updateWhere material.documentVersions (finishable claimed)
              fun version =>
                { version with
                  state := if retry then .queued else rejection.state.toState
                  failureCode := some rejection.code }
            outboxEvents :=
              if retry then scheduleRetry job nextAttemptAt material.outboxEvents
              else recordDeadLetter stamp job material.outboxEvents } := by
  unfold persistFailure at ok
  split at ok
  · rename_i missing
    cases ok
    refine .inl ⟨fun job known holding => ?_, rfl⟩
    exact absurd (holds_iff.mpr holding) (by simpa using List.find?_eq_none.mp missing job known)
  · rename_i job found
    rw [Material.commit_eq_ok] at ok
    exact .inr ⟨job, List.mem_of_find?_eq_some found, holds_iff.mp (List.find?_some found),
      ok.2 ▸ ok.1, _, ok.2.symm⟩

theorem write_of_persistFailure (coherent : material.Coherent worker earlier)
    {claimed : ClaimedJob} {rejection : Rejection} {checked now nextAttemptAt : Time}
    {stamp : Stamp} (stored : ∃ row ∈ material.ingestionJobs, claimed.On row)
    (ok : persistFailure worker claimed rejection checked now nextAttemptAt stamp material =
      .ok after) : Write worker material [] after ∧ after.Constraints := by
  rcases persistFailure_eq_ok ok with ⟨_, rfl⟩ | ⟨job, known, holding, constraints, retry, rfl⟩
  · exact ⟨.unchanged, coherent.constraints⟩
  · refine ⟨?_, constraints⟩
    have on := holding.on coherent known stored
    rw [updateWhere_finishable coherent known on holding.running]
    have moves : job.Moves worker.maxAttempts (failedJob rejection retry now nextAttemptAt job) :=
      moves_failedJob holding.running rejection retry now nextAttemptAt
    refine write_of_move known moves ?_ (fun version => ⟨rfl, rfl, rfl, rfl⟩) ?_ ?_
    · cases retry <;> nofun
    · intro version
      cases retry with
      | true => trivial
      | false => cases rejection.state <;> trivial
    · cases retry with
      | true => exact keepsEvents_updateWhere fun _ => rfl
      | false => exact keepsEvents_insertEvent _ _

end Writes

/-! ### What the document service and a relay write -/

section Services

variable {worker : IngestionWorker.Settings} {material after : Material} {earlier : List Success}

/-- An upload that is created returned an earlier one, or added a document with its
version. -/
theorem createUpload_eq_ok {settings : DocumentService.Settings} {tables : Identity}
    {who : AuthenticatedIdentity} {courseId : UUID} {request : UploadRequest}
    {key : Option String} {documentId versionId : UUID} {record : UploadRecord}
    (ok : DocumentService.createUpload settings tables who courseId request key documentId
      versionId material = .ok (record, after)) :
    after = material ∨ after.Constraints ∧
      ∃ document version, DocumentVersion.Unconfirmed version ∧ after =
        { material with
          documents := material.documents ++ [document]
          documentVersions := material.documentVersions ++ [version] } := by
  unfold DocumentService.createUpload at ok
  simp only [bind_eq_ok, failIf_eq_ok] at ok
  obtain ⟨key, _, _, _, filename, _, userId, _, ok⟩ := ok
  split at ok
  · simp only [bind_eq_ok, pure_eq_ok, Prod.mk.injEq] at ok
    obtain ⟨_, _, _, _, _, rfl⟩ := ok
    exact .inl rfl
  · simp only [bind_eq_ok, Material.commit_eq_ok, pure_eq_ok, Prod.mk.injEq] at ok
    obtain ⟨_, ⟨constraints, rfl⟩, _, rfl⟩ := ok
    exact .inr ⟨constraints, _, _, ⟨rfl, rfl, rfl, rfl⟩, rfl⟩

theorem write_of_createUpload (coherent : material.Coherent worker earlier)
    {settings : DocumentService.Settings} {tables : Identity} {who : AuthenticatedIdentity}
    {courseId : UUID} {request : UploadRequest} {key : Option String}
    {documentId versionId : UUID} {record : UploadRecord}
    (ok : DocumentService.createUpload settings tables who courseId request key documentId
      versionId material = .ok (record, after)) :
    Write worker material [] after ∧ after.Constraints := by
  rcases createUpload_eq_ok ok with rfl | ⟨constraints, document, version, unconfirmed, rfl⟩
  · exact ⟨.unchanged, coherent.constraints⟩
  · exact ⟨.uploaded document version unconfirmed, constraints⟩

/-- The version found at a path. -/
theorem mem_versionsAt {path : VersionPath} {version : DocumentVersion}
    (found : (DocumentService.versionsAt material path).head? = some version) :
    version ∈ material.documentVersions ∧ version.courseId = path.courseId ∧
      version.documentId = path.documentId ∧ version.id = path.versionId := by
  have member := List.mem_of_mem_head? (Option.mem_def.mpr found)
  obtain ⟨known, selected⟩ := List.mem_filter.mp member
  rw [Bool.and_eq_true, Bool.and_eq_true, beq_iff_eq, beq_iff_eq, beq_iff_eq] at selected
  exact ⟨known, selected.1.1, selected.1.2, selected.2⟩

/-- A confirmation that returns found the version confirmed by the same request,
or confirms it with its job and event. -/
theorem confirm_eq_ok {settings : DocumentService.Settings} {tables : Identity}
    {who : AuthenticatedIdentity} {path : VersionPath} {key correlationId : String}
    {metadata : StoredObjectMetadata} {jobId : UUID} {stamp : Stamp}
    (ok : DocumentService.confirm settings tables who path key correlationId metadata jobId stamp
      material = .ok after) :
    ∃ version ∈ material.documentVersions, version.courseId = path.courseId ∧
      version.documentId = path.documentId ∧ version.id = path.versionId ∧
      ((version.confirmationIdempotencyKey = some key ∧
          version.confirmationRequestHash = some (DocumentService.confirmationHash settings path) ∧
          after = material) ∨
        (version.confirmationIdempotencyKey = none ∧ version.state = .awaitingUpload ∧
          after.Constraints ∧ after =
            { material with
              documentVersions := updateWhere material.documentVersions (·.id == version.id)
                (DocumentService.confirmedVersion key
                  (DocumentService.confirmationHash settings path) metadata)
              ingestionJobs := material.ingestionJobs ++
                [DocumentService.newJob version version.courseId jobId correlationId stamp.now]
              outboxEvents := OutboxJobDispatcher.dispatch stamp
                (DocumentService.newJob version version.courseId jobId correlationId stamp.now)
                material.outboxEvents })) := by
  unfold DocumentService.confirm at ok
  simp only [bind_eq_ok] at ok
  obtain ⟨_, _, ok⟩ := ok
  split at ok
  · cases ok
  · rename_i version found
    obtain ⟨known, courseEq, documentEq, idEq⟩ := mem_versionsAt found
    refine ⟨version, known, courseEq, documentEq, idEq, ?_⟩
    by_cases confirmed : version.confirmationIdempotencyKey = none
    · rw [if_neg (not_not.mpr confirmed)] at ok
      simp only [bind_eq_ok, Material.commit_eq_ok, failIf_eq_ok, not_not] at ok
      obtain ⟨_, awaiting, flushed, ⟨_, rfl⟩, constraints, rfl⟩ := ok
      rw [← courseEq] at constraints ⊢
      exact .inr ⟨confirmed, awaiting, constraints, rfl⟩
    · rw [if_pos confirmed] at ok
      simp only [bind_eq_ok, failIf_eq_ok, not_or, not_not] at ok
      obtain ⟨_, ⟨sameKey, sameHash⟩, ok⟩ := ok
      split at ok
      · cases ok
      · cases ok
        exact .inl ⟨sameKey, sameHash, rfl⟩

theorem write_of_confirm (coherent : material.Coherent worker earlier)
    {settings : DocumentService.Settings} {tables : Identity}
    {who : AuthenticatedIdentity} {path : VersionPath} {key correlationId : String}
    {metadata : StoredObjectMetadata} (stored : metadata.versionId ≠ none) {jobId : UUID}
    {stamp : Stamp}
    (ok : DocumentService.confirm settings tables who path key correlationId metadata jobId stamp
      material = .ok after) :
    Write worker material [] after ∧ after.Constraints := by
  obtain ⟨version, known, _, _, _, outcome⟩ := confirm_eq_ok ok
  rcases outcome with ⟨_, _, rfl⟩ | ⟨unconfirmed, _, constraints, rfl⟩
  · exact ⟨.unchanged, coherent.constraints⟩
  · exact ⟨.confirmed version known unconfirmed key _ metadata stored jobId correlationId stamp,
      constraints⟩

/-- A ready corpus of the course was found. -/
theorem checkActivation_eq_ok {tables : Identity} {who : AuthenticatedIdentity}
    {courseId corpusVersionId : UUID}
    (ok : DocumentService.checkActivation tables who courseId corpusVersionId material = .ok ()) :
    ∃ corpus ∈ material.corpusVersions, corpus.id = corpusVersionId ∧
      corpus.courseId = courseId ∧ corpus.state = .ready := by
  unfold DocumentService.checkActivation at ok
  simp only [bind_eq_ok] at ok
  obtain ⟨_, _, ok⟩ := ok
  split at ok
  · cases ok
  · rename_i corpus found
    simp only [failIf_eq_ok, not_not] at ok
    have matched := List.find?_some found
    rw [Bool.and_eq_true, beq_iff_eq, beq_iff_eq] at matched
    exact ⟨corpus, List.mem_of_find?_eq_some found, matched.1, matched.2, ok⟩

/-- An activation that returns found the course at the expected version. -/
theorem activate_eq_ok {courseId corpusVersionId : UUID} {expectedCourseVersion : Nat}
    {shown : ActivationView}
    (ok : DocumentService.activate courseId corpusVersionId expectedCourseVersion material =
      .ok (shown, after)) :
    ∃ course ∈ material.courses, course.id = courseId ∧ course.version = expectedCourseVersion ∧
      shown = ⟨courseId, corpusVersionId, expectedCourseVersion + 1⟩ ∧ after.Constraints ∧
      after =
        { material with
          courses := updateWhere material.courses
            (fun course => course.id == courseId && course.version == expectedCourseVersion)
            fun course =>
              { course with
                activeCorpusVersionId := some corpusVersionId
                version := course.version + 1 } } := by
  unfold DocumentService.activate at ok
  split at ok
  · cases ok
  · rename_i course found
    simp only [bind_eq_ok, Material.commit_eq_ok, pure_eq_ok, Prod.mk.injEq] at ok
    obtain ⟨_, ⟨constraints, rfl⟩, rfl, rfl⟩ := ok
    have matched := List.find?_some found
    rw [Bool.and_eq_true, beq_iff_eq, beq_iff_eq] at matched
    exact ⟨course, List.mem_of_find?_eq_some found, matched.1, matched.2, by rw [matched.2],
      constraints, rfl⟩

/-- A relay that leases an event has its publication in hand. -/
theorem lease_eq_ok {zone : TimeZone} {locked : UUID → Bool} {token : UUID} {now : Time}
    {publication : Publication}
    (ok : OutboxRelay.lease zone locked token now material = .ok (some publication, after)) :
    ∃ event ∈ material.outboxEvents, ∃ job ∈ material.ingestionJobs, job.id = event.jobId ∧
      event.eligible now = true ∧ publication = OutboxRelay.publication zone token event job ∧
      after.Constraints ∧
      after =
        { material with
          outboxEvents := updateWhere material.outboxEvents (·.id == event.id) fun row =>
            { row with publishToken := some token
                       publishLeaseUntil := some (now + seconds 30) } } := by
  unfold OutboxRelay.lease at ok
  split at ok
  · cases ok
  · rename_i event job first
    simp only [bind_eq_ok, Material.commit_eq_ok, pure_eq_ok, Prod.mk.injEq,
      Option.some.injEq] at ok
    obtain ⟨_, ⟨constraints, rfl⟩, rfl, rfl⟩ := ok
    have sorted := List.mem_of_mem_head? (Option.mem_def.mpr first)
    rw [List.mem_insertionSort] at sorted
    obtain ⟨row, rowMember, inJobs⟩ := List.mem_flatMap.mp sorted
    obtain ⟨found, foundMember, same⟩ := List.mem_map.mp inJobs
    cases same
    obtain ⟨eventKnown, eventSelected⟩ := List.mem_filter.mp rowMember
    obtain ⟨jobKnown, jobSelected⟩ := List.mem_filter.mp foundMember
    rw [Bool.and_eq_true] at eventSelected
    exact ⟨event, eventKnown, job, jobKnown, by simpa using jobSelected, eventSelected.1, rfl,
      constraints, rfl⟩

end Services

end Docta
