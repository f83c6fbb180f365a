/-
Module: Docta.Ingestion.Confirmation
Purpose: An upload's confirmation takes effect exactly once. However calls,
  workers and crashes interleave, a version is confirmed together with its one
  job and that job's one event, keeps its confirmation for good, and leaves four
  internal errors of the services unreachable.
Trusted boundary: none
Main exports: confirmWith, ConfirmedOnce, ConfirmationFence, Unreachable,
  confirmation_exactly_once
-/
import Docta.Ingestion.Delivery

namespace Docta

open Table Fallible Transition

/-! ### Dispatchers that raise -/

/-- What a transaction leaves: its writes, or the tables it found when it raises. -/
def settled (material : Material) : Except Failure Material → Material
  | .ok after => after
  | .error _ => material

namespace DocumentService

/-- `OutboxJobDispatcher.dispatch(session, job)`, with its flush. -/
def outboxDispatch (stamp : Stamp) (job : IngestionJob) (material : Material) :
    Except Failure Material := do
  let flushed ← material.commit
  return { flushed with
    outboxEvents := OutboxJobDispatcher.dispatch stamp job flushed.outboxEvents }

/-- The last transaction of `confirm_upload(...)` with any job dispatcher. -/
def confirmWith (dispatch : IngestionJob → Material → Except Failure Material)
    (settings : Settings) (tables : Identity) (who : AuthenticatedIdentity) (path : VersionPath)
    (key correlationId : String) (metadata : StoredObjectMetadata) (jobId : UUID) (now : Time)
    (material : Material) : Except Failure Material := do
  let hash := confirmationHash settings path
  let _ ← authorizedTeacher tables who path.courseId
  match (versionsAt material path).head? with
  | none => .error .documentResourceNotFound
  | some version =>
      if version.confirmationIdempotencyKey ≠ none then do
        failIf (version.confirmationIdempotencyKey ≠ some key ∨
          version.confirmationRequestHash ≠ some hash) .idempotencyKeyReused
        match (jobsOf material version.id).head? with
        | none => .error (.runtime "confirmed document has no ingestion job")
        | some _ => .ok material
      else do
        failIf (version.state ≠ .awaitingUpload) .uploadNotReady
        let job := newJob version path.courseId jobId correlationId now
        let dispatched ← dispatch job
          { material with
            documentVersions := updateWhere material.documentVersions (·.id == version.id)
              (confirmedVersion key hash metadata)
            ingestionJobs := material.ingestionJobs ++ [job] }
        dispatched.commit

section Dispatch

variable {settings : Settings} {tables : Identity} {who : AuthenticatedIdentity}
  {path : VersionPath} {key correlationId : String} {metadata : StoredObjectMetadata}
  {jobId : UUID} {material : Material}

/-- The service's own dispatcher is the outbox's. -/
theorem confirm_eq_confirmWith (stamp : Stamp) :
    confirm settings tables who path key correlationId metadata jobId stamp material =
      confirmWith (outboxDispatch stamp) settings tables who path key correlationId metadata jobId
        stamp.now material := by
  have flushes (job : IngestionJob) (written : Material) :
      (outboxDispatch stamp job written >>= fun dispatched => dispatched.commit) =
        written.commit >>= fun flushed => Material.commit { flushed with
          outboxEvents := OutboxJobDispatcher.dispatch stamp job flushed.outboxEvents } := by
    unfold outboxDispatch
    cases written.commit with
    | error failure => rfl
    | ok flushed => rfl
  unfold confirm confirmWith
  cases authorizedTeacher tables who path.courseId with
  | error failure => rfl
  | ok userId =>
      refine ok_bind.trans (Eq.trans ?_ ok_bind.symm)
      cases (versionsAt material path).head? with
      | none => rfl
      | some version =>
          by_cases confirmed : version.confirmationIdempotencyKey ≠ none
          · exact (if_pos confirmed).trans (if_pos confirmed).symm
          · refine (if_neg confirmed).trans (Eq.trans ?_ (if_neg confirmed).symm)
            exact bind_congr fun _ => (flushes _ _).symm

/-- A dispatcher that raises leaves version, job and outbox as they were. -/
theorem settled_confirmWith {dispatch : IngestionJob → Material → Except Failure Material}
    {now : Time} (raises : ∀ job written, ∃ failure, dispatch job written = .error failure) :
    settled material (confirmWith dispatch settings tables who path key correlationId metadata jobId
      now material) = material := by
  cases outcome : confirmWith dispatch settings tables who path key correlationId metadata jobId now
      material with
  | error failure => rfl
  | ok after =>
      show after = material
      unfold confirmWith at outcome
      simp only [bind_eq_ok] at outcome
      obtain ⟨_, _, outcome⟩ := outcome
      split at outcome
      · cases outcome
      · split at outcome
        · simp only [bind_eq_ok] at outcome
          obtain ⟨_, _, outcome⟩ := outcome
          split at outcome
          · cases outcome
          · cases outcome
            rfl
        · simp only [bind_eq_ok] at outcome
          obtain ⟨_, _, dispatched, dispatchedOk, _⟩ := outcome
          obtain ⟨failure, raised⟩ := raises _ _
          rw [raised] at dispatchedOk
          cases dispatchedOk

end Dispatch

end DocumentService

/-! ### Taking effect once -/

/-- What the tables say about confirmations. -/
structure ConfirmedOnce (material : Material) : Prop where
  oneUpload : UniqueOn (fun row => (row.courseId, row.uploadIdempotencyKey))
    material.documentVersions
  oneJob : UniqueOn (·.documentVersionId) material.ingestionJobs
  oneEvent : ∀ job ∈ material.ingestionJobs, ∃ event, material.outboxEvents.filter (fun row =>
    row.jobId == job.id && row.kind == .ingestion) = [event]
  /-- job, key and state say the same -/
  together : ∀ version ∈ material.documentVersions,
    ((∃ job ∈ material.ingestionJobs, job.documentVersionId = version.id) ↔
        version.confirmationIdempotencyKey ≠ none) ∧
      (version.confirmationIdempotencyKey ≠ none ↔ version.state ≠ .awaitingUpload) ∧
      (version.confirmationIdempotencyKey ≠ none → version.storageVersionId ≠ none)

/-- How a confirmed version answers further confirmations. -/
structure ConfirmationFence (settings : DocumentService.Settings) (material : Material)
    (version : DocumentVersion) : Prop where
  /-- the same request is answered without a write -/
  repeated : ∀ tables who userId key correlationId metadata jobId stamp,
    DocumentService.authorizedTeacher tables who version.courseId = .ok userId →
    version.confirmationIdempotencyKey = some key →
    version.confirmationRequestHash = some (DocumentService.confirmationHash settings
      ⟨version.courseId, version.documentId, version.id⟩) →
    DocumentService.confirm settings tables who ⟨version.courseId, version.documentId, version.id⟩
      key correlationId metadata jobId stamp material = .ok material
  /-- another key is refused -/
  refused : ∀ tables who userId key correlationId metadata jobId stamp,
    DocumentService.authorizedTeacher tables who version.courseId = .ok userId →
    version.confirmationIdempotencyKey ≠ some key →
    DocumentService.confirm settings tables who ⟨version.courseId, version.documentId, version.id⟩
        key correlationId metadata jobId stamp material = .error .idempotencyKeyReused ∧
      ∀ hash, DocumentService.existingConfirmation tables who
        ⟨version.courseId, version.documentId, version.id⟩ key hash material =
          .error .idempotencyKeyReused

/-- The internal errors no state raises. -/
structure Unreachable (deployment : Deployment) (backend : Backend) : Prop where
  existing : ∀ tables who path key hash,
    DocumentService.existingConfirmation tables who path key hash backend.material ≠
      .error (.runtime "confirmed document has no ingestion job")
  confirming : ∀ tables who path key correlationId metadata jobId stamp,
    DocumentService.confirm deployment.documents tables who path key correlationId metadata jobId
      stamp backend.material ≠ .error (.runtime "confirmed document has no ingestion job")
  claiming : ∀ envelope now stamp message,
    IngestionWorker.claim deployment.worker envelope now stamp backend.material ≠
      .error (.runtime message)
  indexing : ∀ delivery ∈ backend.deliveries, ∀ claimed output, delivery.phase = .worked claimed output →
    ∀ fresh now completedAt,
      IngestionWorker.persistSuccess deployment.worker claimed output fresh now completedAt
        backend.material ≠ .error (.runtime "document version could not enter INDEXED")

section Once

open DocumentService

variable {worker : IngestionWorker.Settings} {material : Material} {successes : List Success}

theorem confirmedOnce_of_coherent (coherent : material.Coherent worker successes) :
    ConfirmedOnce material where
  oneUpload := coherent.constraints.uploadKeys
  oneJob := coherent.oneJob
  oneEvent job known := by
    obtain ⟨event, eventKnown, own, ingestion⟩ := coherent.dispatched job known
    refine ⟨event, ?_⟩
    rw [← coherent.constraints.eventKinds.filter_eq eventKnown]
    refine List.filter_congr fun other _ => ?_
    rw [own, ingestion, Bool.eq_iff_iff]
    simp
  together version known := by
    rcases coherent.versions version known with ⟨awaits, noJob⟩ | ⟨job, jobKnown, confirmed⟩
    · refine ⟨⟨fun found => ?_, fun confirmed => absurd awaits.key confirmed⟩,
        ⟨fun confirmed => absurd awaits.key confirmed, fun moved => absurd awaits.awaiting moved⟩,
        fun confirmed => absurd awaits.key confirmed⟩
      obtain ⟨job, jobKnown, own⟩ := found
      exact absurd own (noJob job jobKnown)
    · have moved : version.state ≠ .awaitingUpload := by
        intro awaiting
        have coupled := confirmed.coupled
        rw [awaiting] at coupled
        cases state : job.state <;> simp [state, Coupled] at coupled
      exact ⟨⟨fun _ => confirmed.key, fun _ => ⟨job, jobKnown, confirmed.own⟩⟩,
        ⟨fun _ => moved, fun _ => confirmed.key⟩, fun _ => confirmed.stored⟩

/-- The version at its own path. -/
theorem versionsAt_eq (constraints : material.Constraints) {version : DocumentVersion}
    (known : version ∈ material.documentVersions) :
    versionsAt material ⟨version.courseId, version.documentId, version.id⟩ = [version] := by
  rw [← constraints.versionIds.filter_eq known]
  refine List.filter_congr fun other otherKnown => ?_
  by_cases same : other.id = version.id
  · rw [constraints.versionIds.eq_of_key otherKnown known same]
    simp
  · simp [same]

/-- The job of a confirmed version. -/
theorem jobsOf_eq (coherent : material.Coherent worker successes) {version : DocumentVersion}
    (known : version ∈ material.documentVersions)
    (confirmed : version.confirmationIdempotencyKey ≠ none) :
    ∃ job, jobsOf material version.id = [job] := by
  obtain ⟨job, jobKnown, own⟩ :=
    ((confirmedOnce_of_coherent coherent).together version known).1.mpr confirmed
  refine ⟨job, ?_⟩
  rw [← coherent.oneJob.filter_eq jobKnown]
  refine List.filter_congr fun other _ => ?_
  rw [own, beq_eq_decide]

theorem confirmationFence_of_coherent (settings : Settings)
    (coherent : material.Coherent worker successes) {version : DocumentVersion}
    (known : version ∈ material.documentVersions)
    (confirmed : version.confirmationIdempotencyKey ≠ none) :
    ConfirmationFence settings material version := by
  obtain ⟨job, jobs⟩ := jobsOf_eq coherent known confirmed
  have found := versionsAt_eq coherent.constraints known
  constructor
  · intro tables who userId key correlationId metadata jobId stamp authorized sameKey sameHash
    unfold confirm
    rw [authorized, found]
    simp only [ok_bind, List.head?_cons, jobs, sameKey, sameHash, failIf]
    simp
  · intro tables who userId key correlationId metadata jobId stamp authorized otherKey
    constructor
    · unfold confirm
      rw [authorized, found]
      simp only [ok_bind, List.head?_cons, if_pos confirmed, failIf, if_pos (Or.inl otherKey)]
      rfl
    · intro hash
      unfold existingConfirmation
      rw [authorized, found]
      simp only [ok_bind, outerJoin, jobs, List.flatMap_cons, List.flatMap_nil, List.map_cons,
        List.map_nil, List.append_nil, oneOrNone, if_neg confirmed, failIf,
        if_pos (Or.inl otherKey)]
      rfl

/-! ### Errors nothing raises -/

theorem authorizedTeacher_eq_error {tables : Identity} {who : AuthenticatedIdentity}
    {courseId : UUID} {failure : Failure}
    (raised : authorizedTeacher tables who courseId = .error failure) :
    failure = .documentResourceNotFound := by
  unfold authorizedTeacher at raised
  split at raised
  · cases raised
  · exact (Except.error.inj raised).symm

theorem oneOrNone_eq_error {α : Type} {rows : List α} {failure : Failure}
    (raised : oneOrNone rows = .error failure) : failure = .resultCount := by
  unfold oneOrNone at raised
  split at raised
  · cases raised
  · cases raised
  · exact (Except.error.inj raised).symm

theorem mem_of_oneOrNone {α : Type} {rows : List α} {row : α}
    (found : oneOrNone rows = .ok (some row)) : row ∈ rows := by
  unfold oneOrNone at found
  split at found
  · cases found
  · cases found
    exact List.mem_singleton_self _
  · cases found

/-- A confirmed version is never found without its job. -/
theorem existingConfirmation_ne_runtime (coherent : material.Coherent worker successes)
    {tables : Identity} {who : AuthenticatedIdentity} {path : VersionPath} {key hash : String} :
    existingConfirmation tables who path key hash material ≠
      .error (.runtime "confirmed document has no ingestion job") := by
  intro raised
  unfold existingConfirmation at raised
  rw [bind_eq_error] at raised
  rcases raised with unauthorized | ⟨_, _, raised⟩
  · cases authorizedTeacher_eq_error unauthorized
  · rw [bind_eq_error] at raised
    rcases raised with several | ⟨row, found, raised⟩
    · cases oneOrNone_eq_error several
    · cases row with
      | none => cases raised
      | some row =>
          obtain ⟨version, job⟩ := row
          dsimp only at raised
          by_cases unconfirmed : version.confirmationIdempotencyKey = none
          · rw [if_pos unconfirmed] at raised
            cases raised
          · rw [if_neg unconfirmed, bind_eq_error, failIf_eq_error] at raised
            rcases raised with ⟨_, reused⟩ | ⟨_, _, raised⟩
            · cases reused
            · cases job with
              | some job => cases raised
              | none =>
                  obtain ⟨source, sourceMember, paired⟩ :=
                    List.mem_flatMap.mp (mem_of_oneOrNone found)
                  have known := (List.mem_filter.mp sourceMember).1
                  split at paired
                  · rename_i noJobs
                    have same := List.mem_singleton.mp paired
                    cases same
                    obtain ⟨job, jobs⟩ := jobsOf_eq coherent known unconfirmed
                    exact absurd (jobs.symm.trans noJobs) (List.cons_ne_nil _ _)
                  · obtain ⟨partner, _, same⟩ := List.mem_map.mp paired
                    cases same

theorem confirm_ne_runtime (coherent : material.Coherent worker successes) {settings : Settings}
    {tables : Identity} {who : AuthenticatedIdentity} {path : VersionPath}
    {key correlationId : String} {metadata : StoredObjectMetadata} {jobId : UUID} {stamp : Stamp} :
    confirm settings tables who path key correlationId metadata jobId stamp material ≠
      .error (.runtime "confirmed document has no ingestion job") := by
  intro raised
  unfold confirm at raised
  rw [bind_eq_error] at raised
  rcases raised with unauthorized | ⟨_, _, raised⟩
  · cases authorizedTeacher_eq_error unauthorized
  · split at raised
    · cases raised
    · rename_i version found
      obtain ⟨known, _⟩ := mem_versionsAt found
      by_cases unconfirmed : version.confirmationIdempotencyKey = none
      · rw [if_neg (not_not.mpr unconfirmed), bind_eq_error, failIf_eq_error] at raised
        rcases raised with ⟨_, notReady⟩ | ⟨_, _, raised⟩
        · cases notReady
        · dsimp only at raised
          rw [bind_eq_error, Material.commit_eq_error] at raised
          rcases raised with ⟨_, integrity⟩ | ⟨_, _, raised⟩
          · cases integrity
          · rw [Material.commit_eq_error] at raised
            cases raised.2
      · rw [if_pos unconfirmed, bind_eq_error, failIf_eq_error] at raised
        rcases raised with ⟨_, reused⟩ | ⟨_, _, raised⟩
        · cases reused
        · obtain ⟨job, jobs⟩ := jobsOf_eq coherent known unconfirmed
          rw [jobs] at raised
          cases raised

/-- A claim raises no internal error: an unfinished job's version can be taken. -/
theorem claim_ne_runtime (coherent : material.Coherent worker successes) {envelope : JobEnvelope}
    {now : Time} {stamp : Stamp} {message : String} :
    IngestionWorker.claim worker envelope now stamp material ≠ .error (.runtime message) := by
  intro raised
  unfold IngestionWorker.claim at raised
  split at raised
  · rename_i job event jobFound _
    have known := List.mem_of_find?_eq_some jobFound
    split at raised
    · split at raised
      · cases raised
      · rename_i finished
        split at raised
        · cases raised
        · split at raised
          · rw [bind_eq_error, IngestionWorker.exhaust, Material.commit_eq_error] at raised
            rcases raised with ⟨_, integrity⟩ | ⟨_, _, raised⟩
            · cases integrity
            · cases raised
          · obtain ⟨version, storageVersionId, taken⟩ :=
              take_of_unfinished coherent known (job.unfinished_iff.mpr finished) now
            rw [taken] at raised
            cases raised
    · cases raised
  · cases raised

theorem addCorpus_ne_runtime {claimed : ClaimedJob} {output : Output}
    {fresh : IngestionWorker.FreshIds} :
    IngestionWorker.addCorpus claimed output fresh material ≠
      .error (.runtime "document version could not enter INDEXED") := by
  intro raised
  unfold IngestionWorker.addCorpus at raised
  dsimp only at raised
  rw [bind_eq_error, Material.commit_eq_error] at raised
  rcases raised with ⟨_, integrity⟩ | ⟨_, _, raised⟩
  · cases integrity
  · rw [bind_eq_error, failIf_eq_error] at raised
    rcases raised with ⟨_, other⟩ | ⟨_, _, raised⟩
    · injection other with message
      exact absurd message (by decide)
    · cases raised

theorem addEmbeddings_ne_runtime {claimed : ClaimedJob} {output : Output}
    {fresh : IngestionWorker.FreshIds} :
    IngestionWorker.addEmbeddings worker claimed output fresh material ≠
      .error (.runtime "document version could not enter INDEXED") := by
  intro raised
  unfold IngestionWorker.addEmbeddings at raised
  split at raised
  · rw [bind_eq_error, failIf_eq_error] at raised
    rcases raised with ⟨_, other⟩ | ⟨_, _, raised⟩
    · injection other with message
      exact absurd message (by decide)
    · dsimp only at raised
      rw [bind_eq_error, Material.commit_eq_error] at raised
      rcases raised with ⟨_, integrity⟩ | ⟨_, _, raised⟩
      · cases integrity
      · rw [bind_eq_error, failIf_eq_error] at raised
        rcases raised with ⟨_, other⟩ | ⟨_, _, raised⟩
        · injection other with message
          exact absurd message (by decide)
        · cases raised
  · cases raised

/-- A run that still holds its job can finish its version. -/
theorem persistSuccess_ne_runtime (coherent : material.Coherent worker successes)
    {claimed : ClaimedJob} {output : Output} {fresh : IngestionWorker.FreshIds}
    {now completedAt : Time} (stored : ∃ row ∈ material.ingestionJobs, claimed.On row) :
    IngestionWorker.persistSuccess worker claimed output fresh now completedAt material ≠
      .error (.runtime "document version could not enter INDEXED") := by
  intro raised
  unfold IngestionWorker.persistSuccess at raised
  split at raised
  · injection raised with raised
    injection raised with message
    exact absurd message (by decide)
  · rename_i job found
    have known := List.mem_of_find?_eq_some found
    have holding := holds_iff.mp (List.find?_some found)
    have on := holding.on coherent known stored
    rw [bind_eq_error] at raised
    rcases raised with corpus | ⟨built, builtOk, raised⟩
    · exact addCorpus_ne_runtime corpus
    · rw [bind_eq_error] at raised
      rcases raised with embeddings | ⟨embedded, embeddedOk, raised⟩
      · exact addEmbeddings_ne_runtime embeddings
      · rw [bind_eq_error, failIf_eq_error] at raised
        rcases raised with ⟨notOne, _⟩ | ⟨_, _, raised⟩
        · rw [addEmbeddings_eq_ok embeddedOk, (addCorpus_eq_ok builtOk).2] at notOne
          obtain ⟨version, _, _, only⟩ := coherent.versionOf known
          refine notOne (congrArg List.length (Eq.trans ?_ only))
          exact coherent.filter_own known (fun _ => id_of_finishable on)
            fun _ => finishable_of_confirmedBy on holding.running
        · rw [Material.commit_eq_error] at raised
          cases raised.2

/-- A confirmation takes effect exactly once, in every state that any interleaving
of uploads, confirmations and ingestion leads to. -/
theorem confirmation_exactly_once {deployment : Deployment} {backend : Backend}
    (reachable : Reachable Backend.Initial (Backend.Step deployment) backend) :
    ConfirmedOnce backend.material ∧
      (∀ version ∈ backend.material.documentVersions, version.confirmationIdempotencyKey ≠ none →
        ConfirmationFence deployment.documents backend.material version ∧
        ∀ after, Relation.ReflTransGen (Backend.Step deployment) backend after →
          ∃ later ∈ after.material.documentVersions, later.id = version.id ∧
            later.confirmationIdempotencyKey = version.confirmationIdempotencyKey ∧
            later.confirmationRequestHash = version.confirmationRequestHash ∧
            later.storageVersionId = version.storageVersionId) ∧
      (∀ dispatch : IngestionJob → Material → Except Failure Material,
        (∀ job written, ∃ failure, dispatch job written = .error failure) →
        ∀ tables who path key correlationId metadata jobId now,
          settled backend.material (confirmWith dispatch deployment.documents tables who path key
            correlationId metadata jobId now backend.material) = backend.material) ∧
      Unreachable deployment backend ∧
      ∀ tables who path key correlationId metadata jobId stamp,
        confirm deployment.documents tables who path key correlationId metadata jobId stamp
            backend.material =
          confirmWith (outboxDispatch stamp) deployment.documents tables who path key correlationId
            metadata jobId stamp.now backend.material := by
  have sound := sound_of_reachable reachable
  have coherent := sound.coherent
  refine ⟨confirmedOnce_of_coherent coherent, fun version known confirmed =>
    ⟨confirmationFence_of_coherent _ coherent known confirmed, fun after run => ?_⟩,
    fun dispatch raises tables who path key correlationId metadata jobId now =>
      settled_confirmWith raises,
    { existing := fun tables who path key hash => existingConfirmation_ne_runtime coherent
      confirming := fun tables who path key correlationId metadata jobId stamp =>
        confirm_ne_runtime coherent
      claiming := fun envelope now stamp message => claim_ne_runtime coherent
      indexing := fun delivery carried claimed output worked fresh now completedAt =>
        persistSuccess_ne_runtime coherent
          ((sound.deliveries delivery carried).1.stored claimed (by rw [worked]; rfl)) },
    fun tables who path key correlationId metadata jobId stamp => confirm_eq_confirmWith stamp⟩
  obtain ⟨later, laterKnown, advances⟩ :=
    (materialAdvances_of_run sound run).2.versions version known
  exact ⟨later, laterKnown,
    DocumentVersion.column_of_uploaded advances.sameUpload (·.id) fun _ => rfl,
    advances.fenced confirmed⟩

/-- The first document's upload is confirmed once. -/
theorem confirmation_exactly_once_of_sample :
    ConfirmedOnce sampleConfirmed ∧ Unreachable sampleDeployment { material := sampleConfirmed } :=
  have once := confirmation_exactly_once reachable_sampleConfirmed
  ⟨once.1, once.2.2.2.1⟩

end Once

end Docta
