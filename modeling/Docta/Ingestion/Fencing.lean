/-
Module: Docta.Ingestion.Fencing
Purpose: Fencing and at-most-once publication. Whatever is delivered twice, late
  or out of order, whoever crashes and whatever the clocks say, a job moves with
  its version, publishes at most one corpus, and is changed only by a claim under
  a new token or by the worker that holds its latest one.
Trusted boundary: none
Main exports: Backend.Published, Backend.Fenced, ingestion_fenced
-/
import Docta.Ingestion.Invariants

namespace Docta

open Table Fallible Transition

/-! ### Publication -/

/-- A document version's corpus: one successful run published it, and it holds
that run's chunks and embeddings and nothing else. -/
structure PublishedBy (worker : IngestionWorker.Settings) (backend : Backend)
    (link : CorpusVersionDocument) (success : Success) : Prop where
  run : success ∈ backend.records.successes
  own : success.claimed.documentVersionId = link.documentVersionId
  only : ∀ other ∈ backend.records.successes,
    other.claimed.documentVersionId = link.documentVersionId → other = success
  corpus : ∃ corpus ∈ backend.material.corpusVersions, corpus.id = link.corpusVersionId ∧
    corpus.courseId = link.courseId ∧ corpus.state = .ready ∧
      corpus.chunkCount = success.output.chunks.length
  chunks : backend.material.chunks.filter (·.corpusVersionId == link.corpusVersionId) =
    IngestionWorker.chunkRows success.claimed success.fresh success.output.chunks
  embeddings : (backend.material.chunkEmbeddings.filter
      (·.corpusVersionId == link.corpusVersionId)).map (·.chunkId) =
    if worker.embedder.isSome then
      (backend.material.chunks.filter (·.corpusVersionId == link.corpusVersionId)).map (·.id)
    else []

/-- What the tables say about publication. -/
structure Backend.Published (worker : IngestionWorker.Settings) (backend : Backend) : Prop where
  coupled : ∀ job ∈ backend.material.ingestionJobs,
    ∃ version ∈ backend.material.documentVersions, version.id = job.documentVersionId ∧
      version.courseId = job.courseId ∧ Coupled job.state version.state
  oneCorpus : ∀ versionId, (DocumentService.corporaOf backend.material versionId).length ≤ 1
  successful : ∀ versionId, DocumentService.corporaOf backend.material versionId ≠ [] ↔
    ∃ job ∈ backend.material.ingestionJobs, job.documentVersionId = versionId ∧
      job.state = .succeeded
  run : ∀ link ∈ backend.material.corpusVersionDocuments,
    ∃ success, PublishedBy worker backend link success
  attempts : ∀ job ∈ backend.material.ingestionJobs, job.attempt ≤ worker.maxAttempts

section Publication

variable {worker : IngestionWorker.Settings} {material : Material} {successes : List Success}

/-- A version's successful run is one. -/
theorem Material.Coherent.success_unique (coherent : material.Coherent worker successes)
    {first second : Success} (inFirst : first ∈ successes) (inSecond : second ∈ successes)
    (same : first.claimed.documentVersionId = second.claimed.documentVersionId) :
    first = second := by
  obtain ⟨job, known, own, version, _⟩ := coherent.jobOfSuccess first inFirst
  obtain ⟨other, otherKnown, otherOwn, otherVersion, _⟩ := coherent.jobOfSuccess second inSecond
  have sameJob := coherent.oneJob.eq_of_key known otherKnown
    (version.trans (same.trans otherVersion.symm))
  refine List.inj_on_of_nodup_map coherent.distinct inFirst inSecond ?_
  rw [← own, ← otherOwn, sameJob]

/-- The corpora of versions are each one version's. -/
theorem Material.Coherent.linkVersions (coherent : material.Coherent worker successes) :
    UniqueOn (·.documentVersionId) material.corpusVersionDocuments := by
  unfold UniqueOn
  rw [coherent.links, List.map_map]
  refine List.Nodup.map_on (fun first inFirst second inSecond same => ?_)
    (List.Nodup.of_map _ coherent.distinct)
  exact coherent.success_unique inFirst inSecond same

/-- Every successful run drew a corpus identifier of its own. -/
theorem Material.Coherent.corpusOwner (coherent : material.Coherent worker successes) :
    UniqueOn (fun success : Success => success.fresh.corpusId) successes := by
  have unique := coherent.constraints.corpusIds
  unfold UniqueOn at unique ⊢
  rwa [coherent.corpora, List.map_map] at unique

theorem Success.corpusId_of_mem_chunks {success : Success} :
    ∀ chunk ∈ success.chunks, chunk.corpusVersionId = success.fresh.corpusId := by
  intro chunk member
  obtain ⟨entry, _, rfl⟩ := List.mem_map.mp member
  rfl

theorem Success.corpusId_of_mem_embeddings {success : Success} :
    ∀ row ∈ success.embeddings worker, row.corpusVersionId = success.fresh.corpusId := by
  intro row member
  unfold Success.embeddings at member
  split at member
  · obtain ⟨entry, _, rfl⟩ := List.mem_map.mp member
    rfl
  · cases member

/-- Rows that are numbered from an identifier source carry its first identifiers. -/
theorem map_zipIdx_snd {α β : Type} (identifier : Nat → β) (items : List α) :
    items.zipIdx.map (fun entry => identifier entry.2) =
      (List.range' 0 items.length).map identifier := by
  rw [← List.zipIdx_map_snd 0 items, List.map_map]
  rfl

/-- A run with an embedder has one embedding for each chunk, and one without has
none. -/
theorem Success.map_chunkId_embeddings {success : Success}
    (embedded : success.output.Embedded worker) :
    (success.embeddings worker).map (·.chunkId) =
      if worker.embedder.isSome then success.chunks.map (·.id) else [] := by
  unfold Output.Embedded at embedded
  unfold Success.embeddings Success.chunks
  cases embedder : worker.embedder with
  | none =>
      rw [embedder] at embedded
      simp [embedded]
  | some known =>
      rw [embedder] at embedded
      obtain ⟨vectors, isSome, sameLength⟩ := embedded
      have ofVectors : (IngestionWorker.embeddingRows success.claimed success.fresh known.version
            (vectors.map worker.stored)).map (·.chunkId) =
          (List.range' 0 vectors.length).map success.fresh.chunkId := by
        rw [IngestionWorker.embeddingRows, List.map_map, ← vectors.length_map worker.stored]
        exact map_zipIdx_snd success.fresh.chunkId (vectors.map worker.stored)
      have ofChunks : (IngestionWorker.chunkRows success.claimed success.fresh
            success.output.chunks).map (·.id) =
          (List.range' 0 success.output.chunks.length).map success.fresh.chunkId := by
        rw [IngestionWorker.chunkRows, List.map_map]
        exact map_zipIdx_snd success.fresh.chunkId success.output.chunks
      simp only [isSome, Option.isSome_some, if_true]
      rw [ofVectors, ofChunks, sameLength]

theorem Material.Coherent.corporaOf_ne_nil (coherent : material.Coherent worker successes)
    (versionId : UUID) : DocumentService.corporaOf material versionId ≠ [] ↔
      ∃ job ∈ material.ingestionJobs, job.documentVersionId = versionId ∧
        job.state = .succeeded := by
  unfold DocumentService.corporaOf
  rw [coherent.links, Ne, List.filter_eq_nil_iff]
  constructor
  · intro some
    push Not at some
    obtain ⟨link, member, ofVersion⟩ := some
    obtain ⟨success, run, rfl⟩ := List.mem_map.mp member
    obtain ⟨job, known, _, version, _, succeeded, _⟩ := coherent.jobOfSuccess success run
    exact ⟨job, known, version.trans (beq_iff_eq.mp ofVersion), succeeded⟩
  · intro found none
    obtain ⟨job, known, version, succeeded⟩ := found
    obtain ⟨success, run, own⟩ := coherent.successOfJob job known succeeded
    obtain ⟨other, otherKnown, otherOwn, otherVersion, _⟩ := coherent.jobOfSuccess success run
    have sameJob := coherent.constraints.jobIds.eq_of_key otherKnown known (otherOwn.trans own)
    refine none success.link (List.mem_map_of_mem run) ?_
    rw [beq_iff_eq]
    exact otherVersion.symm.trans ((congrArg _ sameJob).trans version)

/-- What a successful run published is its own and complete. -/
theorem publishedBy_of_run {deployment : Deployment} {backend : Backend}
    (sound : backend.Sound deployment) {success : Success}
    (run : success ∈ backend.records.successes) :
    PublishedBy deployment.worker backend success.link success := by
  have coherent := sound.coherent
  have chunks : backend.material.chunks.filter (·.corpusVersionId == success.fresh.corpusId) =
      success.chunks := by
    rw [coherent.chunks]
    exact filter_flatMap_of_owner coherent.corpusOwner
      (fun other _ => other.corpusId_of_mem_chunks) run
  have embeddings : backend.material.chunkEmbeddings.filter
      (·.corpusVersionId == success.fresh.corpusId) = success.embeddings deployment.worker := by
    rw [coherent.embeddings]
    exact filter_flatMap_of_owner coherent.corpusOwner
      (fun other _ => other.corpusId_of_mem_embeddings) run
  refine
    { run := run
      own := rfl
      only := fun other otherRun sameVersion => coherent.success_unique otherRun run sameVersion
      corpus := ⟨success.corpus, ?_, rfl, rfl, rfl, rfl⟩
      chunks := chunks
      embeddings := ?_ }
  · rw [coherent.corpora]
    exact List.mem_map_of_mem run
  · show ((backend.material.chunkEmbeddings.filter
        (·.corpusVersionId == success.fresh.corpusId)).map (·.chunkId)) =
      if deployment.worker.embedder.isSome then
        (backend.material.chunks.filter
          (·.corpusVersionId == success.fresh.corpusId)).map (·.id)
      else []
    rw [embeddings, chunks]
    exact Success.map_chunkId_embeddings (coherent.embedded success run)

theorem published_of_sound {deployment : Deployment} {backend : Backend}
    (sound : backend.Sound deployment) : backend.Published deployment.worker where
  coupled job known := by
    obtain ⟨version, versionKnown, courseEq, idEq⟩ :=
      sound.coherent.constraints.jobVersion job known
    have confirmed := sound.coherent.confirmedBy versionKnown known idEq.symm
    exact ⟨version, versionKnown, idEq, courseEq, confirmed.coupled⟩
  oneCorpus versionId := sound.coherent.linkVersions.length_filter_le_one versionId
  successful := sound.coherent.corporaOf_ne_nil
  run link known := by
    rw [sound.coherent.links] at known
    obtain ⟨success, run, rfl⟩ := List.mem_map.mp known
    exact ⟨success, publishedBy_of_run sound run⟩
  attempts := sound.coherent.attempts

end Publication

/-! ### Fencing -/

/-- What one claim does to the jobs: it leaves a job as it is, or raises its
token; and a claimed job is running under the claim's token. -/
structure ClaimFences (before after : Material) (result : Option ClaimedJob) : Prop where
  raises : ∀ job ∈ before.ingestionJobs, job ∈ after.ingestionJobs ∨
    ∃ later ∈ after.ingestionJobs, later.id = job.id ∧ job.fencingToken < later.fencingToken
  claimed : ∀ claim ∈ result, ∃ later ∈ after.ingestionJobs, later.id = claim.id ∧
    later.state = .running ∧ later.fencingToken = claim.fencingToken

/-- Who may change a job: a claim of a delivery, once the job is due and nobody
holds it, or a worker that holds its latest token under an unexpired lease. -/
inductive ChangedBy (delivery : Delivery) (before after : IngestionJob) : Prop where
  | claim (now : Time) (received : delivery.phase = .received)
      (own : delivery.envelope.jobId = before.id) (unfinished : before.Unfinished)
      (due : IngestionWorker.waits now before = false)
      (token : after.fencingToken = before.fencingToken + 1)
  | holder (now : Time) (claimed : ClaimedJob) (carried : claimed ∈ delivery.phase.claim?)
      (holding : claimed.Holding now before) (token : after.fencingToken = before.fencingToken)

/-- How a backend fences its workers. -/
structure Backend.Fenced (deployment : Deployment) (backend : Backend) : Prop where
  /-- no two workers carry the same token of a job -/
  apart : Apart backend.deliveries
  /-- no worker carries a token that was not drawn yet -/
  drawn : ∀ delivery ∈ backend.deliveries, ∀ claimed ∈ delivery.phase.claim?,
    ∃ job ∈ backend.material.ingestionJobs, job.id = claimed.id ∧
      claimed.fencingToken ≤ job.fencingToken
  claims : ∀ envelope now stamp result after,
    IngestionWorker.claim deployment.worker envelope now stamp backend.material =
      .ok (result, after) → ClaimFences backend.material after result
  changes : ∀ after, backend.Step deployment after → ∀ job ∈ backend.material.ingestionJobs,
    ∃ later ∈ after.material.ingestionJobs, later.id = job.id ∧
      (later = job ∨ ∃ delivery ∈ backend.deliveries, ChangedBy delivery job later)
  stale : ∀ claimed now,
    (∀ job ∈ backend.material.ingestionJobs, ¬ claimed.Holding now job) →
      (∀ output fresh completedAt,
        IngestionWorker.persistSuccess deployment.worker claimed output fresh now completedAt
          backend.material = .error (.runtime "stale ingestion fencing token")) ∧
      ∀ rejection later nextAttemptAt stamp,
        IngestionWorker.persistFailure deployment.worker claimed rejection now later nextAttemptAt
          stamp backend.material = .ok backend.material

section Fencing

open IngestionWorker

variable {deployment : Deployment} {backend : Backend}

/-- The rows after one job was updated: each stays, or is that job's next row. -/
theorem Material.Coherent.later_of_updateWhere {worker : IngestionWorker.Settings}
    {successes : List Success} {material : Material} (coherent : material.Coherent worker successes)
    {moved : IngestionJob} (known : moved ∈ material.ingestionJobs)
    {advance : IngestionJob → IngestionJob} {job : IngestionJob}
    (jobKnown : job ∈ material.ingestionJobs) :
    job ∈ updateWhere material.ingestionJobs (·.id == moved.id) advance ∨
      (job = moved ∧
        advance job ∈ updateWhere material.ingestionJobs (·.id == moved.id) advance) := by
  by_cases same : job.id = moved.id
  · have isMoved := coherent.constraints.jobIds.eq_of_key jobKnown known same
    exact .inr ⟨isMoved, mem_updateWhere_of_matched jobKnown (by simpa using same)⟩
  · exact .inl (mem_updateWhere_of_not jobKnown (by simpa using same))

/-- The jobs after a claim that found its job out of attempts. -/
theorem exhaust_eq_ok {now : Time} {stamp : Stamp} {job : IngestionJob} {material after : Material}
    (ok : exhaust now stamp job material = .ok after) : after.ingestionJobs =
      updateWhere material.ingestionJobs (·.id == job.id) (exhausted now) := by
  rw [exhaust, Material.commit_eq_ok] at ok
  rw [← ok.2]

theorem claimFences_of_claims (sound : backend.Sound deployment) {envelope : JobEnvelope}
    {now : Time} {stamp : Stamp} {result : Option ClaimedJob} {after : Material}
    (claims : Claims deployment.worker envelope now stamp backend.material result after) :
    ClaimFences backend.material after result := by
  cases claims with
  | ignored job known own idle => exact ⟨fun job known => .inl known, nofun⟩
  | exhausted moved known own unfinished due spent _ ok =>
      refine ⟨fun job jobKnown => ?_, nofun⟩
      rw [exhaust_eq_ok ok]
      rcases sound.coherent.later_of_updateWhere known jobKnown with stays | ⟨_, moves⟩
      · exact .inl stays
      · exact .inr ⟨_, moves, rfl, Nat.lt_succ_self _⟩
  | taken moved known own unfinished due unspent version storageVersionId constraints =>
      constructor
      · intro job jobKnown
        rcases sound.coherent.later_of_updateWhere known jobKnown with stays | ⟨_, moves⟩
        · exact .inl stays
        · exact .inr ⟨_, moves, rfl, Nat.lt_succ_self _⟩
      · intro claim isClaim
        cases isClaim
        exact ⟨_, mem_updateWhere_of_matched known (by simp), rfl, rfl, rfl⟩

/-- A delivery that goes on changes at most one job, and only as it may. -/
theorem changedBy_of_deliveryStep (sound : backend.Sound deployment) {delivery : Delivery}
    {next : DeliveryPhase} {written : Material} {successes : List Success}
    (advance : DeliveryStep deployment delivery.envelope backend.material delivery.phase next
      written successes) {job : IngestionJob} (jobKnown : job ∈ backend.material.ingestionJobs) :
    ∃ later ∈ written.ingestionJobs, later.id = job.id ∧
      (later = job ∨ ChangedBy delivery job later) := by
  generalize phaseEq : delivery.phase = phase at advance
  have claimed (now : Time) (stamp : Stamp) (result : Option ClaimedJob)
      (received : delivery.phase = .received)
      (ok : claim deployment.worker delivery.envelope now stamp backend.material =
        .ok (result, written)) :
      ∃ later ∈ written.ingestionJobs, later.id = job.id ∧
        (later = job ∨ ChangedBy delivery job later) := by
    cases claims_of_ok ok with
    | ignored moved known own idle => exact ⟨job, jobKnown, rfl, .inl rfl⟩
    | exhausted moved known own unfinished due spent _ ok =>
        rw [exhaust_eq_ok ok]
        rcases sound.coherent.later_of_updateWhere known jobKnown with stays | ⟨rfl, moves⟩
        · exact ⟨job, stays, rfl, .inl rfl⟩
        · exact ⟨_, moves, rfl, .inr (.claim now received own.symm unfinished due rfl)⟩
    | taken moved known own unfinished due unspent version storageVersionId constraints =>
        rcases sound.coherent.later_of_updateWhere known jobKnown with stays | ⟨rfl, moves⟩
        · exact ⟨job, stays, rfl, .inl rfl⟩
        · exact ⟨_, moves, rfl, .inr (.claim now received own.symm unfinished due rfl)⟩
  cases advance with
  | claim now stamp claim after ok => exact claimed now stamp _ phaseEq ok
  | ignore now stamp after ok => exact claimed now stamp _ phaseEq ok
  | work claim responses output ok => exact ⟨job, jobKnown, rfl, .inl rfl⟩
  | reject claim responses rejection failed => exact ⟨job, jobKnown, rfl, .inl rfl⟩
  | succeed claim output fresh now completedAt after ok =>
      obtain ⟨moved, known, holding, _, rfl⟩ := persistSuccess_eq_ok ok
      have carried : claim ∈ delivery.phase.claim? := by
        rw [phaseEq]
        rfl
      rcases sound.coherent.later_of_updateWhere known jobKnown with stays | ⟨rfl, moves⟩
      · exact ⟨job, stays, rfl, .inl rfl⟩
      · exact ⟨_, moves, rfl, .inr (.holder now claim carried holding rfl)⟩
  | refuse claim output fresh now completedAt message failed =>
      exact ⟨job, jobKnown, rfl, .inl rfl⟩
  | fail claim rejection checked now nextAttemptAt stamp after ok =>
      have carried : claim ∈ delivery.phase.claim? := by
        rw [phaseEq]
        rfl
      rcases persistFailure_eq_ok ok with ⟨_, rfl⟩ | ⟨moved, known, holding, _, retry, rfl⟩
      · exact ⟨job, jobKnown, rfl, .inl rfl⟩
      · rcases sound.coherent.later_of_updateWhere known jobKnown with stays | ⟨rfl, moves⟩
        · exact ⟨job, stays, rfl, .inl rfl⟩
        · refine ⟨_, moves, ?_, .inr (.holder checked claim carried holding ?_)⟩
          · cases retry <;> rfl
          · cases retry <;> rfl

theorem changedBy_of_step (sound : backend.Sound deployment) {after : Backend}
    (step : backend.Step deployment after) {job : IngestionJob}
    (known : job ∈ backend.material.ingestionJobs) :
    ∃ later ∈ after.material.ingestionJobs, later.id = job.id ∧
      (later = job ∨ ∃ delivery ∈ backend.deliveries, ChangedBy delivery job later) := by
  have unchanged : ∃ later ∈ backend.material.ingestionJobs, later.id = job.id ∧
      (later = job ∨ ∃ delivery ∈ backend.deliveries, ChangedBy delivery job later) :=
    ⟨job, known, rfl, .inl rfl⟩
  cases step with
  | createCourse course written first inactive ok =>
      rw [Material.commit_eq_ok] at ok
      rw [← ok.2]
      exact unchanged
  | createUpload tables who courseId request key documentId versionId record written ok =>
      rcases createUpload_eq_ok ok with rfl | ⟨_, document, version, _, rfl⟩
      · exact unchanged
      · exact unchanged
  | confirm tables earlier later confirmation metadata jobId stamp confirmed running inspected ok =>
      obtain ⟨version, _, _, _, _, outcome⟩ := confirm_eq_ok ok
      rcases outcome with ⟨_, _, rfl⟩ | ⟨_, _, _, rfl⟩
      · exact unchanged
      · exact ⟨job, List.mem_append_left _ known, rfl, .inl rfl⟩
  | activate earlier later activation shown activated running ok =>
      obtain ⟨course, _, _, _, _, _, rfl⟩ := activate_eq_ok ok
      exact unchanged
  | lease locked token now publication written ok =>
      obtain ⟨event, _, other, _, _, _, _, _, rfl⟩ := lease_eq_ok ok
      exact unchanged
  | markPublished earlier later publication now marked running ok =>
      rw [OutboxRelay.markPublished, Material.commit_eq_ok] at ok
      rw [← ok.2]
      exact unchanged
  | reconcile now written ok =>
      rw [OutboxRelay.reconcile, Material.commit_eq_ok] at ok
      rw [← ok.2]
      exact unchanged
  | deliver earlier later delivery next written successes running advance =>
      obtain ⟨row, rowKnown, sameId, changed⟩ := changedBy_of_deliveryStep sound advance known
      refine ⟨row, rowKnown, sameId, changed.imp_right fun changedBy => ?_⟩
      exact ⟨delivery, by rw [running]; simp, changedBy⟩
  | _ => exact unchanged

/-- A worker without its job changes nothing. -/
theorem stale_changes_nothing {worker : IngestionWorker.Settings} {material : Material}
    {claimed : ClaimedJob} {now : Time}
    (stale : ∀ job ∈ material.ingestionJobs, ¬ claimed.Holding now job) :
    (∀ output fresh completedAt,
        persistSuccess worker claimed output fresh now completedAt material =
          .error (.runtime "stale ingestion fencing token")) ∧
      ∀ rejection later nextAttemptAt stamp,
        persistFailure worker claimed rejection now later nextAttemptAt stamp material =
          .ok material := by
  have missing : material.ingestionJobs.find? (holds claimed now) = none := by
    rw [List.find?_eq_none]
    exact fun job known held => stale job known (holds_iff.mp held)
  refine ⟨fun output fresh completedAt => ?_, fun rejection later nextAttemptAt stamp => ?_⟩
  · rw [persistSuccess, missing]
  · rw [persistFailure, missing]

theorem fenced_of_sound (sound : backend.Sound deployment) : backend.Fenced deployment where
  apart := sound.holders
  drawn delivery carried claimed isClaim := by
    obtain ⟨job, known, on⟩ := (sound.deliveries delivery carried).1.stored claimed isClaim
    exact ⟨job, known, on.id, on.token⟩
  claims envelope now stamp result after ok := claimFences_of_claims sound (claims_of_ok ok)
  changes after step job known := changedBy_of_step sound step known
  stale claimed now := stale_changes_nothing

/-- Fencing and at-most-once publication, in every state that any interleaving
of uploads, relays, workers, crashes and clocks leads to. -/
theorem ingestion_fenced
    (reachable : Reachable Backend.Initial (Backend.Step deployment) backend) :
    backend.Published deployment.worker ∧ backend.Fenced deployment :=
  have sound := sound_of_reachable reachable
  ⟨published_of_sound sound, fenced_of_sound sound⟩

end Fencing

/-! ### A first document -/

section Sample

def sampleZone : TimeZone where
  isoformat := fun _ => "2026-01-01T00:00:00+00:00"
  short := fun _ => by decide

def sampleHost : Text.UnicodeData where
  lower := List.map Char.toLower
  isWord := Char.isAlphanum
  isPrintable := fun char => decide (' ' ≤ char)
  sameIgnoringCase := fun first second => first.toLower == second.toLower

def sampleHash : String := String.ofList (List.replicate 64 'a')

/-- One deployment, with an embedder of one dimension. -/
def sampleDeployment : Deployment where
  documents :=
    { environment := "test", maxDocumentBytes := 100, pipelineVersion := "pipeline"
      digest := fun _ => "digest", unicode := sampleHost }
  worker := { zone := sampleZone, embedder := some { version := "embedder", expectedDims := some 1 } }
  staleSeconds := 300

/-- One teacher of one course. -/
def sampleFaculty : Identity where
  users := [{ id := .ofNat 1, oidcIssuer := "issuer", oidcSubject := "teacher" }]
  memberships := [{ courseId := .ofNat 2, userId := .ofNat 1, role := .teacher }]

def sampleTeacher : AuthenticatedIdentity := { issuer := "issuer", subject := "teacher" }

def sampleCourse : Course where
  id := .ofNat 2
  version := 0
  activeCorpusVersionId := none

def sampleUpload : UploadRequest where
  filename := "stacks.pdf"
  sizeBytes := 10
  expectedSha256 := sampleHash
  mediaType := "application/pdf"

def samplePath : VersionPath where
  courseId := .ofNat 2
  documentId := .ofNat 3
  versionId := .ofNat 4

def sampleObject : StoredObjectMetadata where
  sizeBytes := 10
  mediaType := some "application/pdf"
  metadata := [("sha256", sampleHash)]
  versionId := some "object-1"

/-- The version while it awaits its upload. -/
def sampleAwaiting : DocumentVersion :=
  DocumentService.newVersion sampleDeployment.documents (.ofNat 2) (.ofNat 3) (.ofNat 4)
    "stacks.pdf" "upload" sampleUpload

/-- The document is uploaded. -/
def sampleUploaded : Material where
  courses := [sampleCourse]
  documents :=
    [{ id := .ofNat 3, courseId := .ofNat 2, title := "stacks", createdByUserId := .ofNat 1 }]
  documentVersions := [sampleAwaiting]

def sampleConfirmation (phase : ConfirmationPhase) : Confirmation where
  who := sampleTeacher
  path := samplePath
  key := "confirm"
  correlationId := "request"
  phase := phase

/-- The version once it is confirmed. -/
def sampleStored : DocumentVersion :=
  DocumentService.confirmedVersion "confirm" "digest" sampleObject sampleAwaiting

def sampleJob : IngestionJob :=
  DocumentService.newJob sampleAwaiting (.ofNat 2) (.ofNat 5) "request" 0

def sampleEvent : OutboxEvent where
  id := .ofNat 6
  courseId := .ofNat 2
  jobId := .ofNat 5
  kind := .ingestion
  availableAt := 0
  createdAt := 0

/-- Its upload is confirmed, with a job and its event. -/
def sampleConfirmed : Material :=
  { sampleUploaded with
    documentVersions := [sampleStored], ingestionJobs := [sampleJob]
    outboxEvents := [sampleEvent] }

def samplePublication : Publication :=
  OutboxRelay.publication sampleZone (.ofNat 7) sampleEvent sampleJob

/-- A relay leases the event. -/
def sampleLeased : Material :=
  { sampleConfirmed with
    outboxEvents :=
      [{ sampleEvent with publishToken := some (.ofNat 7), publishLeaseUntil := some (seconds 30) }] }

def sampleRunning : IngestionJob :=
  IngestionWorker.running sampleDeployment.worker 0 sampleJob

/-- A worker claims the job. -/
def sampleTaken : Material :=
  { sampleLeased with
    documentVersions := [{ sampleStored with state := .processing }]
    ingestionJobs := [sampleRunning] }

def sampleClaimed : ClaimedJob :=
  claimOn sampleJob sampleStored "object-1"

/-- What the object store, the parser and the embedder answer. -/
def sampleResponses : Responses where
  read := .ok { size := 10, sha256 := sampleHash }
  extract := .ok
    { pages := 1, parserVersion := "parser"
      chunks := [{ page := 1, ordinal := 0, content := "A stack is last in, first out.", contentHash := "chunk" }] }
  late := fun _ => false
  embedded := fun _ => .ok [[some 1]]

def sampleOutput : Output where
  pages := 1
  parserVersion := "parser"
  chunks := [{ page := 1, ordinal := 0, content := "A stack is last in, first out.", contentHash := "chunk" }]
  sizeBytes := 10
  sha256 := sampleHash
  embeddings := some [[some 1]]

def sampleFresh : IngestionWorker.FreshIds where
  corpusId := .ofNat 9
  chunkId := fun index => .ofNat (10 + index)

def sampleSuccess : Success := ⟨sampleClaimed, sampleOutput, sampleFresh⟩

/-- The run succeeds. -/
def sampleIndexed : Material :=
  { sampleTaken with
    documentVersions :=
      [IngestionWorker.indexed sampleOutput { sampleStored with state := .processing }]
    corpusVersions := [sampleSuccess.corpus]
    corpusVersionDocuments := [sampleSuccess.link]
    chunks := sampleSuccess.chunks
    chunkEmbeddings := sampleSuccess.embeddings sampleDeployment.worker
    ingestionJobs := [IngestionWorker.succeeded 2 sampleRunning] }

/-- While the event is in the stream. -/
def samplePublishing : Backend where
  material := sampleLeased
  stream := [⟨0, samplePublication.fields⟩]
  relays := [⟨samplePublication, .appended⟩]

/-- After the run. -/
def sampleProcessed : Backend where
  material := sampleIndexed
  stream := [⟨0, samplePublication.fields⟩]
  relays := [⟨samplePublication, .appended⟩]
  deliveries := [⟨0, samplePublication.envelope, .processed⟩]
  records := { successes := [sampleSuccess] }

abbrev SampleBackendStep : Backend → Backend → Prop := Backend.Step sampleDeployment

/-- The upload is confirmed. -/
theorem run_sampleConfirmed : Relation.ReflTransGen SampleBackendStep
    { material := { courses := [sampleCourse] } } { material := sampleConfirmed } := by
  have uploaded : SampleBackendStep { material := { courses := [sampleCourse] } }
      { material := sampleUploaded } :=
    .createUpload _ sampleFaculty sampleTeacher (.ofNat 2) sampleUpload (some "upload") (.ofNat 3)
      (.ofNat 4) (DocumentService.uploadRecord sampleAwaiting) _ (by decide +kernel)
  have started : SampleBackendStep { material := sampleUploaded }
      { material := sampleUploaded, confirmations := [sampleConfirmation .unconfirmed] } :=
    .startConfirmation _ sampleFaculty sampleTeacher samplePath (some "confirm") "confirm" "request"
      (by decide +kernel) (by decide +kernel)
  have inspected : SampleBackendStep
      { material := sampleUploaded, confirmations := [sampleConfirmation .unconfirmed] }
      { material := sampleUploaded
        confirmations := [sampleConfirmation (.inspected sampleObject)] } :=
    .inspect _ sampleFaculty [] [] (sampleConfirmation .unconfirmed)
      sampleAwaiting sampleObject rfl rfl (by decide +kernel) (by decide +kernel)
  have confirmed : SampleBackendStep
      { material := sampleUploaded
        confirmations := [sampleConfirmation (.inspected sampleObject)] }
      { material := sampleConfirmed } :=
    .confirm _ sampleFaculty [] [] (sampleConfirmation (.inspected sampleObject)) sampleObject
      (.ofNat 5) { id := .ofNat 6, now := 0 } _ rfl rfl (by decide +kernel)
  exact .tail (.tail (.tail (.single uploaded) started) inspected) confirmed

/-- The event is leased and appended to the stream. -/
theorem run_samplePublishing : Relation.ReflTransGen SampleBackendStep
    { material := sampleConfirmed } samplePublishing := by
  have leased : SampleBackendStep { material := sampleConfirmed }
      { material := sampleLeased, relays := [⟨samplePublication, .leased⟩] } :=
    .lease _ (fun _ => false) (.ofNat 7) 0 samplePublication _ (by decide +kernel)
  have appended : SampleBackendStep
      { material := sampleLeased, relays := [⟨samplePublication, .leased⟩] } samplePublishing :=
    .append _ [] [] samplePublication 0 rfl (by decide +kernel) nofun
  exact .tail (.single leased) appended

/-- The delivery is consumed, claimed, worked and persisted. -/
theorem run_sampleProcessed : Relation.ReflTransGen SampleBackendStep samplePublishing
    sampleProcessed := by
  have consumed : SampleBackendStep samplePublishing
      { samplePublishing with deliveries := [⟨0, samplePublication.envelope, .received⟩] } :=
    .consume _ ⟨0, samplePublication.fields⟩ samplePublication.envelope
      (List.mem_singleton_self _) (by decide +kernel)
  have claimed : SampleBackendStep
      { samplePublishing with deliveries := [⟨0, samplePublication.envelope, .received⟩] }
      { samplePublishing with
        material := sampleTaken
        deliveries := [⟨0, samplePublication.envelope, .claimed sampleClaimed⟩] } :=
    .deliver _ [] [] ⟨0, samplePublication.envelope, .received⟩ _ _ [] rfl
      (.claim 0 { id := .ofNat 8, now := 0 } sampleClaimed _ (by decide +kernel))
  have worked : SampleBackendStep
      { samplePublishing with
        material := sampleTaken
        deliveries := [⟨0, samplePublication.envelope, .claimed sampleClaimed⟩] }
      { samplePublishing with
        material := sampleTaken
        deliveries := [⟨0, samplePublication.envelope, .worked sampleClaimed sampleOutput⟩] } :=
    .deliver _ [] [] ⟨0, samplePublication.envelope, .claimed sampleClaimed⟩ _ _ [] rfl
      (.work sampleClaimed sampleResponses sampleOutput (by decide +kernel))
  have succeeded : SampleBackendStep
      { samplePublishing with
        material := sampleTaken
        deliveries := [⟨0, samplePublication.envelope, .worked sampleClaimed sampleOutput⟩] }
      sampleProcessed :=
    .deliver _ [] [] ⟨0, samplePublication.envelope, .worked sampleClaimed sampleOutput⟩ _ _ _ rfl
      (.succeed sampleClaimed sampleOutput sampleFresh 1 2 _ (by decide +kernel))
  exact .tail (.tail (.tail (.single consumed) claimed) worked) succeeded

theorem initial_sample : Backend.Initial { material := { courses := [sampleCourse] } } where
  started := ⟨_, rfl⟩
  constraints := by decide +kernel
  inactive := by decide +kernel

theorem reachable_sampleConfirmed :
    Reachable Backend.Initial SampleBackendStep { material := sampleConfirmed } :=
  ⟨_, initial_sample, run_sampleConfirmed⟩

theorem reachable_samplePublishing :
    Reachable Backend.Initial SampleBackendStep samplePublishing :=
  reachable_sampleConfirmed.run run_samplePublishing

theorem reachable_sampleProcessed :
    Reachable Backend.Initial SampleBackendStep sampleProcessed :=
  reachable_samplePublishing.run run_sampleProcessed

/-- After the first run its job has succeeded, and its one corpus is fenced. -/
theorem ingestion_fenced_of_sample :
    sampleProcessed.material.ingestionJobs.map (·.state) = [.succeeded] ∧
      sampleProcessed.Published sampleDeployment.worker ∧ sampleProcessed.Fenced sampleDeployment :=
  ⟨by decide +kernel, ingestion_fenced reachable_sampleProcessed⟩

end Sample

end Docta
