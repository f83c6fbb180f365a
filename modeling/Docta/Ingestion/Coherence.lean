/-
Module: Docta.Ingestion.Coherence
Purpose: The invariant of the material tables: a version awaits its upload or is
  confirmed together with exactly one job and its event; job and version move
  together; and the corpora with their documents, chunks and embeddings are
  exactly those of the successful runs.
Trusted boundary: none
Main exports: Material.Coherent, coherent_of_write, Material.Advances,
  advances_of_write
-/
import Docta.Ingestion.Effects

namespace Docta

open Table Fallible Transition

/-! ### What never goes back -/

/-- From one state of the tables to a later one. -/
structure Material.Advances (before after : Material) : Prop where
  versions : ∀ version ∈ before.documentVersions, ∃ later ∈ after.documentVersions,
    version.Advances later
  jobs : ∀ job ∈ before.ingestionJobs, ∃ later ∈ after.ingestionJobs, job.Advances later
  events : KeepsEvents before.outboxEvents after.outboxEvents
  corpora : before.corpusVersions <+: after.corpusVersions
  chunks : before.chunks <+: after.chunks

theorem Material.Advances.refl (material : Material) : material.Advances material :=
  ⟨fun version known => ⟨version, known, .refl version⟩,
    fun job known => ⟨job, known, .refl job⟩, .refl _, List.prefix_rfl, List.prefix_rfl⟩

theorem Material.Advances.trans {first second third : Material} (one : first.Advances second)
    (two : second.Advances third) : first.Advances third := by
  refine ⟨?_, ?_, one.events.trans two.events, one.corpora.trans two.corpora,
    one.chunks.trans two.chunks⟩
  · intro version known
    obtain ⟨middle, middleKnown, toMiddle⟩ := one.versions version known
    obtain ⟨later, laterKnown, toLater⟩ := two.versions middle middleKnown
    exact ⟨later, laterKnown, toMiddle.trans toLater⟩
  · intro job known
    obtain ⟨middle, middleKnown, toMiddle⟩ := one.jobs job known
    obtain ⟨later, laterKnown, toLater⟩ := two.jobs middle middleKnown
    exact ⟨later, laterKnown, toMiddle.trans toLater⟩

/-- An update of one kind of row lets every row advance. -/
theorem advance_updateWhere {α : Type} {relation : α → α → Prop} {rows : List α}
    {condition : α → Bool} {assign : α → α} (reflexive : ∀ row, relation row row)
    (advances : ∀ row ∈ rows, condition row = true → relation row (assign row)) :
    ∀ row ∈ rows, ∃ later ∈ updateWhere rows condition assign, relation row later := by
  intro row known
  by_cases matched : condition row = true
  · exact ⟨_, mem_updateWhere_of_matched known matched, advances row known matched⟩
  · exact ⟨row, mem_updateWhere_of_not known (by simpa using matched), reflexive row⟩

theorem advances_of_write {worker : IngestionWorker.Settings} {before after : Material}
    {successes : List Success} (constraints : before.Constraints)
    (write : Write worker before successes after) : before.Advances after := by
  have same := Material.Advances.refl before
  cases write with
  | unchanged => exact same
  | courseCreated course first inactive => exact { same with }
  | uploaded document version unconfirmed =>
      exact { same with
        versions := fun row known => ⟨row, List.mem_append_left _ known, .refl row⟩ }
  | confirmed version known unconfirmed key hash metadata stored jobId correlationId stamp =>
      refine { same with
        versions := advance_updateWhere .refl fun row rowKnown matched => ?_
        jobs := fun row known => ⟨row, List.mem_append_left _ known, .refl row⟩
        events := keepsEvents_insertEvent _ _ }
      have isVersion := constraints.versionIds.eq_of_key rowKnown known (by simpa using matched)
      subst isVersion
      exact ⟨rfl, fun confirmed => absurd unconfirmed confirmed⟩
  | moved job advance assign events successes known moves runs keepsVersion coupled keepsEvents =>
      refine
        { versions := advance_updateWhere .refl fun row _ _ => ?_
          jobs := advance_updateWhere .refl fun row rowKnown matched => ?_
          events := keepsEvents
          corpora := List.prefix_append _ _
          chunks := List.prefix_append _ _ }
      · exact ⟨(keepsVersion row).1, fun _ => (keepsVersion row).2⟩
      · have isJob := constraints.jobIds.eq_of_key rowKnown known (by simpa using matched)
        subst isJob
        refine ⟨moves.sameJob, moves.token, fun finished => ?_⟩
        rcases moves.unfinished with pending | running
        · rw [pending] at finished
          simp at finished
        · rw [running] at finished
          simp at finished
  | dispatched condition assign keeps =>
      exact { same with events := keepsEvents_updateWhere keeps }
  | activated courseId corpusId expectedCourseVersion ready => exact { same with }

/-! ### The invariant -/

/-- The invariant of the material tables, with the runs that succeeded so far. -/
structure Material.Coherent (worker : IngestionWorker.Settings) (successes : List Success)
    (material : Material) : Prop where
  constraints : material.Constraints
  oneJob : UniqueOn (·.documentVersionId) material.ingestionJobs
  versions : ∀ version ∈ material.documentVersions,
    (version.Unconfirmed ∧
        ∀ job ∈ material.ingestionJobs, job.documentVersionId ≠ version.id) ∨
      ∃ job ∈ material.ingestionJobs, version.ConfirmedBy job
  leased : ∀ job ∈ material.ingestionJobs, job.state = .running ↔ job.leaseExpiresAt ≠ none
  attempts : ∀ job ∈ material.ingestionJobs, job.attempt ≤ worker.maxAttempts
  dispatched : ∀ job ∈ material.ingestionJobs, ∃ event ∈ material.outboxEvents,
    event.jobId = job.id ∧ event.kind = .ingestion
  corpora : material.corpusVersions = successes.map Success.corpus
  links : material.corpusVersionDocuments = successes.map Success.link
  chunks : material.chunks = successes.flatMap Success.chunks
  embeddings : material.chunkEmbeddings = successes.flatMap (Success.embeddings worker)
  successOfJob : ∀ job ∈ material.ingestionJobs, job.state = .succeeded →
    ∃ success ∈ successes, success.claimed.id = job.id
  jobOfSuccess : ∀ success ∈ successes, ∃ job ∈ material.ingestionJobs,
    job.id = success.claimed.id ∧ job.documentVersionId = success.claimed.documentVersionId ∧
      job.courseId = success.claimed.courseId ∧ job.state = .succeeded ∧
        job.fencingToken = success.claimed.fencingToken
  distinct : (successes.map (·.claimed.id)).Nodup
  embedded : ∀ success ∈ successes, success.output.Embedded worker
  active : ∀ course ∈ material.courses, ∀ corpusId ∈ course.activeCorpusVersionId,
    ∃ corpus ∈ material.corpusVersions, corpus.id = corpusId ∧ corpus.courseId = course.id ∧
      corpus.state = .ready

theorem coherent_of_courses {worker : IngestionWorker.Settings} {courses : List Course}
    (constraints : ({ courses } : Material).Constraints)
    (inactive : ∀ course ∈ courses, course.activeCorpusVersionId = none) :
    Material.Coherent worker [] { courses } where
  constraints := constraints
  oneJob := List.nodup_nil
  versions := List.forall_mem_nil _
  leased := List.forall_mem_nil _
  attempts := List.forall_mem_nil _
  dispatched := List.forall_mem_nil _
  corpora := rfl
  links := rfl
  chunks := rfl
  embeddings := rfl
  successOfJob := List.forall_mem_nil _
  jobOfSuccess := List.forall_mem_nil _
  distinct := List.nodup_nil
  embedded := List.forall_mem_nil _
  active course known corpusId isActive := by
    rw [inactive course known] at isActive
    cases isActive

/-! ### Every transaction keeps it -/

section Preservation

variable {worker : IngestionWorker.Settings} {before after : Material}
  {earlier successes : List Success}

/-- The one version a job is about. -/
theorem Material.Coherent.confirmedBy (coherent : before.Coherent worker earlier)
    {version : DocumentVersion} (versionKnown : version ∈ before.documentVersions)
    {job : IngestionJob} (known : job ∈ before.ingestionJobs)
    (own : job.documentVersionId = version.id) : version.ConfirmedBy job := by
  rcases coherent.versions version versionKnown with ⟨_, noJob⟩ | ⟨other, otherKnown, confirmed⟩
  · exact absurd own (noJob job known)
  · have same := coherent.oneJob.eq_of_key otherKnown known (confirmed.own.trans own.symm)
    rw [← same]
    exact confirmed

/-- A version without a confirmation key has no job. -/
theorem Material.Coherent.noJob (coherent : before.Coherent worker earlier)
    {version : DocumentVersion} (known : version ∈ before.documentVersions)
    (unconfirmed : version.confirmationIdempotencyKey = none) :
    version.Unconfirmed ∧ ∀ job ∈ before.ingestionJobs, job.documentVersionId ≠ version.id := by
  rcases coherent.versions version known with noJob | ⟨job, _, confirmed⟩
  · exact noJob
  · exact absurd unconfirmed confirmed.key

theorem oneJob_of_write (coherent : before.Coherent worker earlier)
    (write : Write worker before successes after) :
    UniqueOn (·.documentVersionId) after.ingestionJobs := by
  cases write with
  | confirmed version known unconfirmed key hash metadata stored jobId correlationId stamp =>
      exact uniqueOn_append_singleton.mpr
        ⟨coherent.oneJob, (coherent.noJob known unconfirmed).2⟩
  | moved job advance assign events successes known moves runs keepsVersion coupled keepsEvents =>
      refine (uniqueOn_updateWhere fun row rowKnown matched => ?_).mpr coherent.oneJob
      have isJob := coherent.constraints.jobIds.eq_of_key rowKnown known (by simpa using matched)
      rw [isJob]
      exact IngestionJob.column_of_confirmed moves.sameJob (·.documentVersionId) fun _ => rfl
  | _ => exact coherent.oneJob

/-- The rows of the jobs after one of them moved. -/
theorem Material.Coherent.mem_moved (coherent : before.Coherent worker earlier) {job row : IngestionJob}
    {advance : IngestionJob → IngestionJob} (known : job ∈ before.ingestionJobs)
    (member : row ∈ updateWhere before.ingestionJobs (·.id == job.id) advance) :
    (row ∈ before.ingestionJobs ∧ row.id ≠ job.id) ∨ row = advance job := by
  refine coherent.constraints.jobIds.mem_updateWhere known ?_
  simpa [beq_eq_decide] using member

theorem versions_of_write (coherent : before.Coherent worker earlier)
    (write : Write worker before successes after) (constraints : after.Constraints) :
    ∀ version ∈ after.documentVersions,
      (version.Unconfirmed ∧
          ∀ job ∈ after.ingestionJobs, job.documentVersionId ≠ version.id) ∨
        ∃ job ∈ after.ingestionJobs, version.ConfirmedBy job := by
  cases write with
  | uploaded document version unconfirmed =>
      intro row member
      rcases List.mem_append.mp member with old | new
      · exact coherent.versions row old
      · rw [List.mem_singleton.mp new]
        refine .inl ⟨unconfirmed, fun job known sameVersion => ?_⟩
        obtain ⟨existing, existingKnown, _, idEq⟩ := coherent.constraints.jobVersion job known
        exact (uniqueOn_append_singleton.mp constraints.versionIds).2 existing existingKnown
          (idEq.trans sameVersion)
  | confirmed version known unconfirmed key hash metadata stored jobId correlationId stamp =>
      intro row member
      rcases mem_updateWhere_cases member with ⟨stays, unmatched⟩ | ⟨source, sourceKnown, matched, rfl⟩
      · have different : row.id ≠ version.id := by simpa using unmatched
        rcases coherent.versions row stays with ⟨awaits, noJob⟩ | ⟨job, jobKnown, confirmed⟩
        · refine .inl ⟨awaits, fun job member sameVersion => ?_⟩
          rcases List.mem_append.mp member with old | new
          · exact noJob job old sameVersion
          · rw [List.mem_singleton.mp new] at sameVersion
            exact different sameVersion.symm
        · exact .inr ⟨job, List.mem_append_left _ jobKnown, confirmed⟩
      · have isVersion := coherent.constraints.versionIds.eq_of_key sourceKnown known
          (by simpa using matched)
        subst isVersion
        refine .inr ⟨_, List.mem_append_right _ (List.mem_singleton_self _), ?_⟩
        exact ⟨rfl, rfl, rfl, nofun, nofun, stored, trivial⟩
  | moved job advance assign events successes known moves runs keepsVersion coupled keepsEvents =>
      have sameVersion : (advance job).documentVersionId = job.documentVersionId :=
        IngestionJob.column_of_confirmed moves.sameJob (·.documentVersionId) fun _ => rfl
      intro row member
      rcases mem_updateWhere_cases member with ⟨stays, unmatched⟩ | ⟨source, sourceKnown, matched, rfl⟩
      · have different : row.id ≠ job.documentVersionId := by simpa using unmatched
        rcases coherent.versions row stays with ⟨awaits, noJob⟩ | ⟨other, otherKnown, confirmed⟩
        · refine .inl ⟨awaits, fun moved member own => ?_⟩
          rcases coherent.mem_moved known member with ⟨old, _⟩ | rfl
          · exact noJob moved old own
          · exact different (own.symm.trans sameVersion)
        · refine .inr ⟨other, mem_updateWhere_of_not otherKnown ?_, confirmed⟩
          rw [beq_eq_false_iff_ne]
          intro sameId
          have same := coherent.constraints.jobIds.eq_of_key otherKnown known sameId
          rw [same] at confirmed
          exact different confirmed.own.symm
      · have own : job.documentVersionId = source.id := by
          rw [beq_iff_eq] at matched
          exact matched.symm
        have confirmed := coherent.confirmedBy sourceKnown known own
        obtain ⟨sameUpload, sameKey, sameHash, sameStored⟩ := keepsVersion source
        refine .inr ⟨advance job, mem_updateWhere_of_matched known (by simp), ?_⟩
        refine
          { own := sameVersion.trans (own.trans
              (DocumentVersion.column_of_uploaded sameUpload (·.id) fun _ => rfl).symm)
            course := ?_
            pipeline := ?_
            key := by rw [sameKey]; exact confirmed.key
            hash := by rw [sameHash]; exact confirmed.hash
            stored := by rw [sameStored]; exact confirmed.stored
            coupled := coupled source }
        · rw [IngestionJob.column_of_confirmed moves.sameJob (·.courseId) fun _ => rfl,
            DocumentVersion.column_of_uploaded sameUpload (·.courseId) fun _ => rfl]
          exact confirmed.course
        · rw [IngestionJob.column_of_confirmed moves.sameJob (·.pipelineVersion) fun _ => rfl,
            DocumentVersion.column_of_uploaded sameUpload (·.pipelineVersion) fun _ => rfl]
          exact confirmed.pipeline
  | _ => exact coherent.versions

/-- What holds of every job holds after a transaction, when it holds of new jobs
and is kept by moves. -/
theorem jobs_of_write {property : IngestionJob → Prop} (coherent : before.Coherent worker earlier)
    (write : Write worker before successes after)
    (ofNew : ∀ version courseId jobId correlationId now,
      property (DocumentService.newJob version courseId jobId correlationId now))
    (ofMove : ∀ job next, job.Moves worker.maxAttempts next → property job → property next)
    (holds : ∀ job ∈ before.ingestionJobs, property job) :
    ∀ job ∈ after.ingestionJobs, property job := by
  cases write with
  | confirmed version known unconfirmed key hash metadata stored jobId correlationId stamp =>
      intro job member
      rcases List.mem_append.mp member with old | new
      · exact holds job old
      · rw [List.mem_singleton.mp new]
        exact ofNew version version.courseId jobId correlationId stamp.now
  | moved job advance assign events successes known moves runs keepsVersion coupled keepsEvents =>
      intro row member
      rcases coherent.mem_moved known member with ⟨old, _⟩ | rfl
      · exact holds row old
      · exact ofMove job (advance job) moves (holds job known)
  | _ => exact holds

/-- An inserted event is there, or one of its kind was. -/
theorem exists_of_insertEvent (event : OutboxEvent) (events : List OutboxEvent) :
    ∃ row ∈ insertEvent event events, row.jobId = event.jobId ∧ row.kind = event.kind := by
  unfold insertEvent
  split
  · rename_i found
    obtain ⟨row, known, matched⟩ := List.any_eq_true.mp found
    rw [Bool.and_eq_true, beq_iff_eq, beq_iff_eq] at matched
    exact ⟨row, known, matched⟩
  · exact ⟨event, List.mem_append_right _ (List.mem_singleton_self _), rfl, rfl⟩

theorem dispatched_of_write (coherent : before.Coherent worker earlier)
    (write : Write worker before successes after) :
    ∀ job ∈ after.ingestionJobs, ∃ event ∈ after.outboxEvents,
      event.jobId = job.id ∧ event.kind = .ingestion := by
  have advances := advances_of_write coherent.constraints write
  -- An event that was there is still there, under the same job and kind.
  have kept (jobId : UUID) (found : ∃ event ∈ before.outboxEvents,
      event.jobId = jobId ∧ event.kind = .ingestion) :
      ∃ event ∈ after.outboxEvents, event.jobId = jobId ∧ event.kind = .ingestion := by
    obtain ⟨event, known, sameJob, isIngestion⟩ := found
    obtain ⟨later, laterKnown, same⟩ := advances.events event known
    refine ⟨later, laterKnown, ?_, ?_⟩
    · rw [OutboxEvent.column_of_inserted same (·.jobId) fun _ => rfl]
      exact sameJob
    · rw [OutboxEvent.column_of_inserted same (·.kind) fun _ => rfl]
      exact isIngestion
  have holds := coherent.dispatched
  cases write with
  | confirmed version known unconfirmed key hash metadata stored jobId correlationId stamp =>
      intro job member
      rcases List.mem_append.mp member with old | new
      · exact kept job.id (holds job old)
      · rw [List.mem_singleton.mp new]
        exact exists_of_insertEvent _ _
  | moved job advance assign events successes known moves runs keepsVersion coupled keepsEvents =>
      intro row member
      rcases coherent.mem_moved known member with ⟨old, _⟩ | rfl
      · exact kept row.id (holds row old)
      · rw [IngestionJob.column_of_confirmed moves.sameJob (·.id) fun _ => rfl]
        exact kept job.id (holds job known)
  | dispatched condition assign keeps => exact fun job known => kept job.id (holds job known)
  | _ => exact holds

/-- The corpora with their documents, chunks and embeddings stay those of the
successful runs. -/
theorem published_of_write (coherent : before.Coherent worker earlier)
    (write : Write worker before successes after) :
    after.corpusVersions = (earlier ++ successes).map Success.corpus ∧
      after.corpusVersionDocuments = (earlier ++ successes).map Success.link ∧
      after.chunks = (earlier ++ successes).flatMap Success.chunks ∧
      after.chunkEmbeddings = (earlier ++ successes).flatMap (Success.embeddings worker) := by
  rw [List.map_append, List.map_append, List.flatMap_append, List.flatMap_append,
    ← coherent.corpora, ← coherent.links, ← coherent.chunks, ← coherent.embeddings]
  cases write with
  | moved job advance assign events successes known moves runs keepsVersion coupled keepsEvents =>
      exact ⟨rfl, rfl, rfl, rfl⟩
  | _ => simp

/-- A finished job keeps its row. -/
theorem finished_of_write (coherent : before.Coherent worker earlier)
    (write : Write worker before successes after) {job : IngestionJob}
    (known : job ∈ before.ingestionJobs)
    (finished : job.state = .succeeded ∨ job.state = .failed) : job ∈ after.ingestionJobs := by
  obtain ⟨later, laterKnown, advance⟩ :=
    (advances_of_write coherent.constraints write).jobs job known
  rw [← advance.finished finished]
  exact laterKnown

theorem successOfJob_of_write (coherent : before.Coherent worker earlier)
    (write : Write worker before successes after) :
    ∀ job ∈ after.ingestionJobs, job.state = .succeeded →
      ∃ success ∈ earlier ++ successes, success.claimed.id = job.id := by
  have old (job : IngestionJob) (known : job ∈ before.ingestionJobs)
      (succeeded : job.state = .succeeded) :
      ∃ success ∈ earlier ++ successes, success.claimed.id = job.id := by
    obtain ⟨success, member, own⟩ := coherent.successOfJob job known succeeded
    exact ⟨success, List.mem_append_left _ member, own⟩
  intro job member succeeded
  cases write with
  | confirmed version known unconfirmed key hash metadata stored jobId correlationId stamp =>
      rcases List.mem_append.mp member with stays | new
      · exact old job stays succeeded
      · rw [List.mem_singleton.mp new] at succeeded
        cases succeeded
  | moved moving advance assign events successes known moves runs keepsVersion coupled
      keepsEvents =>
      rcases coherent.mem_moved known member with ⟨stays, _⟩ | rfl
      · exact old job stays succeeded
      · cases runs with
        | none unsuccessful => exact absurd succeeded unsuccessful
        | one success _ own version course token embedded =>
            exact ⟨success, List.mem_append_right _ (List.mem_singleton_self _), own⟩
  | _ => exact old job member succeeded

/-- The runs a transaction commits are of a job that had not finished. -/
theorem runs_of_write (write : Write worker before successes after) :
    successes = [] ∨ ∃ success job next, successes = [success] ∧ job ∈ before.ingestionJobs ∧
      next ∈ after.ingestionJobs ∧ success.claimed.id = job.id ∧
      (job.state = .pending ∨ job.state = .running) ∧ next.id = success.claimed.id ∧
      next.documentVersionId = success.claimed.documentVersionId ∧
      next.courseId = success.claimed.courseId ∧ next.state = .succeeded ∧
      next.fencingToken = success.claimed.fencingToken ∧ success.output.Embedded worker := by
  cases write with
  | moved job advance assign events successes known moves runs keepsVersion coupled keepsEvents =>
      cases runs with
      | none unsuccessful => exact .inl rfl
      | one success succeeded own version course token embedded =>
          have sameId : (advance job).id = job.id :=
            IngestionJob.column_of_confirmed moves.sameJob (·.id) fun _ => rfl
          exact .inr ⟨success, job, advance job, rfl, known,
            mem_updateWhere_of_matched known (by simp), own.trans sameId, moves.unfinished,
            own.symm, version.symm, course.symm, succeeded, token.symm, embedded⟩
  | _ => exact .inl rfl

theorem jobOfSuccess_of_write (coherent : before.Coherent worker earlier)
    (write : Write worker before successes after) :
    ∀ success ∈ earlier ++ successes, ∃ job ∈ after.ingestionJobs,
      job.id = success.claimed.id ∧ job.documentVersionId = success.claimed.documentVersionId ∧
        job.courseId = success.claimed.courseId ∧ job.state = .succeeded ∧
          job.fencingToken = success.claimed.fencingToken := by
  intro success member
  rcases List.mem_append.mp member with old | new
  · obtain ⟨job, known, own, version, course, succeeded, token⟩ :=
      coherent.jobOfSuccess success old
    exact ⟨job, finished_of_write coherent write known (.inl succeeded), own, version, course,
      succeeded, token⟩
  · rcases runs_of_write write with none | ⟨run, job, next, runs, _, nextKnown, _, _, rest⟩
    · rw [none] at new
      cases new
    · rw [runs] at new
      rw [List.mem_singleton.mp new]
      obtain ⟨own, version, course, succeeded, token, _⟩ := rest
      exact ⟨next, nextKnown, own, version, course, succeeded, token⟩

theorem distinct_of_write (coherent : before.Coherent worker earlier)
    (write : Write worker before successes after) :
    ((earlier ++ successes).map (·.claimed.id)).Nodup := by
  rcases runs_of_write write with rfl | ⟨success, job, next, rfl, known, _, own, unfinished, _⟩
  · rw [List.append_nil]
    exact coherent.distinct
  · refine uniqueOn_append_singleton.mpr ⟨coherent.distinct, fun other member sameId => ?_⟩
    obtain ⟨done, doneKnown, doneOwn, _, _, succeeded, _⟩ := coherent.jobOfSuccess other member
    have same := coherent.constraints.jobIds.eq_of_key doneKnown known
      (doneOwn.trans (sameId.trans own))
    rw [same] at succeeded
    rw [succeeded] at unfinished
    simp at unfinished

theorem embedded_of_write (coherent : before.Coherent worker earlier)
    (write : Write worker before successes after) :
    ∀ success ∈ earlier ++ successes, success.output.Embedded worker := by
  intro success member
  rcases List.mem_append.mp member with old | new
  · exact coherent.embedded success old
  · rcases runs_of_write write with none | ⟨run, job, next, runs, rest⟩
    · rw [none] at new
      cases new
    · rw [runs] at new
      rw [List.mem_singleton.mp new]
      exact rest.2.2.2.2.2.2.2.2.2

theorem active_of_write (coherent : before.Coherent worker earlier)
    (write : Write worker before successes after) :
    ∀ course ∈ after.courses, ∀ corpusId ∈ course.activeCorpusVersionId,
      ∃ corpus ∈ after.corpusVersions, corpus.id = corpusId ∧ corpus.courseId = course.id ∧
        corpus.state = .ready := by
  have old (course : Course) (known : course ∈ before.courses) (corpusId : UUID)
      (isActive : corpusId ∈ course.activeCorpusVersionId) :
      ∃ corpus ∈ after.corpusVersions, corpus.id = corpusId ∧ corpus.courseId = course.id ∧
        corpus.state = .ready := by
    obtain ⟨corpus, corpusKnown, ready⟩ := coherent.active course known corpusId isActive
    exact ⟨corpus, (advances_of_write coherent.constraints write).corpora.subset corpusKnown, ready⟩
  intro course member corpusId isActive
  cases write with
  | courseCreated created first inactive =>
      rcases List.mem_append.mp member with stays | new
      · exact old course stays corpusId isActive
      · rw [List.mem_singleton.mp new, inactive] at isActive
        cases isActive
  | activated courseId published expectedCourseVersion ready =>
      rcases mem_updateWhere_cases member with ⟨stays, _⟩ | ⟨source, sourceKnown, matched, rfl⟩
      · exact old course stays corpusId isActive
      · rw [Bool.and_eq_true, beq_iff_eq] at matched
        obtain ⟨corpus, corpusKnown, idEq, courseEq, isReady⟩ := ready
        cases isActive
        exact ⟨corpus, corpusKnown, idEq, courseEq.trans matched.1.symm, isReady⟩
  | _ => exact old course member corpusId isActive

/-- Every transaction keeps the invariant. -/
theorem coherent_of_write (coherent : before.Coherent worker earlier)
    (write : Write worker before successes after) (constraints : after.Constraints) :
    after.Coherent worker (earlier ++ successes) where
  constraints := constraints
  oneJob := oneJob_of_write coherent write
  versions := versions_of_write coherent write constraints
  leased := jobs_of_write coherent write (fun _ _ _ _ _ => by simp [DocumentService.newJob])
    (fun _ _ moves _ => moves.leased) coherent.leased
  attempts := jobs_of_write coherent write (fun _ _ _ _ _ => Nat.zero_le _)
    (fun _ _ moves attempts => moves.attempts attempts) coherent.attempts
  dispatched := dispatched_of_write coherent write
  corpora := (published_of_write coherent write).1
  links := (published_of_write coherent write).2.1
  chunks := (published_of_write coherent write).2.2.1
  embeddings := (published_of_write coherent write).2.2.2
  successOfJob := successOfJob_of_write coherent write
  jobOfSuccess := jobOfSuccess_of_write coherent write
  distinct := distinct_of_write coherent write
  embedded := embedded_of_write coherent write
  active := active_of_write coherent write

end Preservation

end Docta
