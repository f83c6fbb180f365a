/-
Module: Docta.World.Publication
Purpose: Corpus publication is compare-and-swap, and captured once: whatever the
  interleaving of activations, ingestion runs and acceptances, a course changes
  only by a successful activation of the version it expected, its active corpus
  is ready and its own, and a message keeps the corpus its acceptance read.
Trusted boundary: none
Main exports: Swaps, publishes_of_step, Activation.run, result_of_granted,
  captureCorpus_eq_some, Capture.UnderWay, Message.CapturedBy,
  corpus_publication
-/
import Docta.Ingestion.Fencing
import Docta.World.System

namespace Docta

open Table Fallible Transition ConversationService

/-! ### What a step does to the courses -/

/-- The courses after one of them got a new active corpus. -/
def swapped (activation : Activation) (courses : List Course) : List Course :=
  updateWhere courses (·.id == activation.courseId) fun course =>
    { course with
      activeCorpusVersionId := some activation.corpusId
      version := course.version + 1 }

/-- A successful activation: it found the version it expected, raised it by one
and changed nothing but that course. -/
structure Swaps (before after : Backend) (activation : Activation) : Prop where
  running : activation ∈ before.activations
  expected : ∃ course ∈ before.material.courses, course.id = activation.courseId ∧
    course.version = activation.expectedCourseVersion
  material : after.material =
    { before.material with courses := swapped activation before.material.courses }
  logged : after.records.activations = before.records.activations ++ [activation]

/-- Everything else leaves every course as it is. -/
structure KeepsCourses (before after : Backend) : Prop where
  courses : before.material.courses <+: after.material.courses
  logged : after.records.activations = before.records.activations

section Backends

variable {deployment : Deployment} {before after : Backend}

theorem courses_of_claim {settings : IngestionWorker.Settings} {envelope : JobEnvelope} {now : Time}
    {stamp : Stamp} {material written : Material} {result : Option ClaimedJob}
    (ok : IngestionWorker.claim settings envelope now stamp material = .ok (result, written)) :
    written.courses = material.courses := by
  cases claims_of_ok ok with
  | ignored job known own idle => rfl
  | exhausted job known own unfinished due spent written ok =>
      rw [IngestionWorker.exhaust, Material.commit_eq_ok] at ok
      rw [← ok.2]
  | taken job known own unfinished due unspent version storageVersionId constraints => rfl

theorem courses_of_deliveryStep {envelope : JobEnvelope} {material written : Material}
    {phase next : DeliveryPhase} {successes : List Success}
    (advance : DeliveryStep deployment envelope material phase next written successes) :
    written.courses = material.courses := by
  cases advance with
  | claim now stamp claimed written ok => exact courses_of_claim ok
  | ignore now stamp written ok => exact courses_of_claim ok
  | succeed claimed output fresh now completedAt written ok =>
      rcases persistSuccess_eq_ok ok with ⟨_, _, _, _, same⟩
      rw [same]
  | fail claimed rejection checked now nextAttemptAt stamp written ok =>
      rcases persistFailure_eq_ok ok with ⟨_, same⟩ | ⟨_, _, _, _, _, same⟩
      · rw [same]
      · rw [same]
  | _ => rfl

/-- The conditional update selects the one course with the expected version. -/
theorem updateWhere_expected {courses : List Course} (unique : UniqueOn (·.id) courses)
    {activation : Activation} {course : Course} (known : course ∈ courses)
    (own : course.id = activation.courseId)
    (expected : course.version = activation.expectedCourseVersion) :
    updateWhere courses (fun course => course.id == activation.courseId &&
        course.version == activation.expectedCourseVersion)
      (fun course =>
        { course with
          activeCorpusVersionId := some activation.corpusId
          version := course.version + 1 }) = swapped activation courses := by
  refine updateWhere_congr fun row rowKnown => ?_
  by_cases same : row.id = activation.courseId
  · have isCourse := unique.eq_of_key rowKnown known (same.trans own.symm)
    rw [isCourse, own, expected]
    simp
  · simp [same]

/-- Every step of the backend is a successful activation or keeps the courses. -/
theorem publishes_of_step (sound : before.Sound deployment)
    (step : before.Step deployment after) :
    (∃ activation, Swaps before after activation) ∨ KeepsCourses before after := by
  have kept (same : after.material.courses = before.material.courses)
      (logged : after.records.activations = before.records.activations) :
      KeepsCourses before after := ⟨by rw [same], logged⟩
  cases step with
  | createCourse course written first inactive ok =>
      rw [Material.commit_eq_ok] at ok
      rw [← ok.2]
      exact .inr ⟨List.prefix_append _ _, rfl⟩
  | createUpload tables who courseId request key documentId versionId record written ok =>
      rcases createUpload_eq_ok ok with same | ⟨_, _, _, _, same⟩
      · exact .inr (kept (by rw [same]) rfl)
      · exact .inr (kept (by rw [same]) rfl)
  | confirm tables earlier later confirmation metadata jobId stamp confirmed running inspected ok =>
      rcases confirm_eq_ok ok with ⟨_, _, _, _, _, ⟨_, _, same⟩ | ⟨_, _, _, same⟩⟩
      · exact .inr (kept (by rw [same]) rfl)
      · exact .inr (kept (by rw [same]) rfl)
  | activate earlier later activation shown activated running ok =>
      rcases activate_eq_ok ok with ⟨course, known, own, expected, _, _, same⟩
      refine .inl ⟨activation, ?_, ⟨course, known, own, expected⟩, ?_, rfl⟩
      · rw [running]
        exact List.mem_append_right _ List.mem_cons_self
      · rw [same, ← updateWhere_expected sound.coherent.constraints.courseIds known own expected]
  | lease locked token now publication written ok =>
      rcases lease_eq_ok ok with ⟨_, _, _, _, _, _, _, _, same⟩
      exact .inr (kept (by rw [same]) rfl)
  | markPublished earlier later publication now marked running ok =>
      rw [OutboxRelay.markPublished, Material.commit_eq_ok] at ok
      exact .inr (kept (by rw [← ok.2]) rfl)
  | reconcile now written ok =>
      rw [OutboxRelay.reconcile, Material.commit_eq_ok] at ok
      exact .inr (kept (by rw [← ok.2]) rfl)
  | deliver earlier later delivery next written successes running advance =>
      exact .inr (kept (courses_of_deliveryStep advance) rfl)
  | _ => exact .inr (kept rfl rfl)

/-! ### No version is activated twice -/

/-- The course and the version an activation expects of it. -/
def Activation.key (activation : Activation) : UUID × Nat :=
  (activation.courseId, activation.expectedCourseVersion)

/-- The successful activations had different expected versions, all below what
their courses have now. -/
structure Backend.SwapsOnce (backend : Backend) : Prop where
  distinct : (backend.records.activations.map Activation.key).Nodup
  below : ∀ activation ∈ backend.records.activations, ∃ course ∈ backend.material.courses,
    course.id = activation.courseId ∧ activation.expectedCourseVersion < course.version

theorem swapsOnce_of_swaps (unique : UniqueOn (·.id) before.material.courses)
    (once : before.SwapsOnce) {activation : Activation} (swaps : Swaps before after activation) :
    after.SwapsOnce := by
  rcases swaps.expected with ⟨course, known, own, expected⟩
  have courses : after.material.courses = swapped activation before.material.courses := by
    rw [swaps.material]
  refine ⟨?_, ?_⟩
  · rw [swaps.logged, List.map_append, List.map_singleton]
    refine List.Nodup.append once.distinct (List.nodup_singleton _) ?_
    intro key inLog isNew
    rcases List.mem_map.mp inLog with ⟨earlier, earlierKnown, sameKey⟩
    rw [List.mem_singleton.mp isNew, Activation.key, Activation.key, Prod.mk.injEq] at sameKey
    rcases once.below earlier earlierKnown with ⟨other, otherKnown, otherOwn, below⟩
    have same := unique.eq_of_key otherKnown known (otherOwn.trans (sameKey.1.trans own.symm))
    rw [same, expected, sameKey.2] at below
    exact Nat.lt_irrefl _ below
  · intro earlier member
    rw [courses]
    rw [swaps.logged] at member
    rcases List.mem_append.mp member with old | new
    · rcases once.below earlier old with ⟨other, otherKnown, otherOwn, below⟩
      by_cases same : (other.id == activation.courseId) = true
      · exact ⟨_, mem_updateWhere_of_matched otherKnown same, otherOwn, below.trans (Nat.lt_succ_self _)⟩
      · exact ⟨other, mem_updateWhere_of_not otherKnown (Bool.eq_false_iff.mpr same), otherOwn, below⟩
    · rw [List.mem_singleton.mp new]
      refine ⟨_, mem_updateWhere_of_matched known (by simp [own]), own, ?_⟩
      rw [← expected]
      exact Nat.lt_succ_self _

theorem swapsOnce_of_step (sound : before.Sound deployment) (once : before.SwapsOnce)
    (step : before.Step deployment after) : after.SwapsOnce := by
  rcases publishes_of_step sound step with ⟨activation, swaps⟩ | keeps
  · exact swapsOnce_of_swaps sound.coherent.constraints.courseIds once swaps
  · refine ⟨?_, ?_⟩
    · rw [keeps.logged]
      exact once.distinct
    · intro activation member
      rw [keeps.logged] at member
      rcases once.below activation member with ⟨course, known, rest⟩
      exact ⟨course, keeps.courses.subset known, rest⟩

end Backends

/-! ### What an activation has to find -/

/-- The caller teaches the course, the reads find a ready corpus of it, and the
update finds it at the expected version. -/
structure Activation.Granted (activation : Activation) (tables : Identity)
    (who : AuthenticatedIdentity) (checked material : Material) : Prop where
  teacher : ∃ userId, DocumentService.authorizedTeacher tables who activation.courseId = .ok userId
  ready : ∃ corpus ∈ checked.corpusVersions, corpus.id = activation.corpusId ∧
    corpus.courseId = activation.courseId ∧ corpus.state = .ready
  expected : ∃ course ∈ material.courses, course.id = activation.courseId ∧
    course.version = activation.expectedCourseVersion

/-- What an activation returns, or raises. -/
def Activation.result (activation : Activation) (tables : Identity) (who : AuthenticatedIdentity)
    (checked material : Material) : Except Failure (ActivationView × Material) :=
  DocumentService.activateCorpus tables who activation.courseId activation.corpusId
    activation.expectedCourseVersion checked material

/-- The tables after an activation: rolled back when it raises. -/
def Activation.run (activation : Activation) (tables : Identity) (who : AuthenticatedIdentity)
    (checked material : Material) : Material :=
  match activation.result tables who checked material with
  | .ok (_, activated) => activated
  | .error _ => material

section Activations

variable {activation : Activation} {tables : Identity} {who : AuthenticatedIdentity}
  {checked material : Material}

/-- A course may get any corpus there is. -/
theorem Material.Constraints.activated (constraints : material.Constraints)
    (published : ∃ corpus ∈ material.corpusVersions, corpus.id = activation.corpusId) :
    Material.Constraints { material with courses := swapped activation material.courses } := by
  have courseKept {courseId : UUID} (found : ∃ course ∈ material.courses, course.id = courseId) :
      ∃ course ∈ swapped activation material.courses, course.id = courseId := by
    rcases found with ⟨course, known, idEq⟩
    by_cases matched : (course.id == activation.courseId) = true
    · exact ⟨_, mem_updateWhere_of_matched known matched, idEq⟩
    · exact ⟨course, mem_updateWhere_of_not known (Bool.eq_false_iff.mpr matched), idEq⟩
  have unique : UniqueOn (·.id) (swapped activation material.courses) := by
    unfold swapped
    refine (uniqueOn_updateWhere ?_).mpr constraints.courseIds
    exact fun _ _ _ => rfl
  refine
    { constraints with
      courseIds := unique
      documentCourse := fun row known => courseKept (constraints.documentCourse row known)
      corpusCourse := fun row known => courseKept (constraints.corpusCourse row known)
      activeCorpus := ?_ }
  intro course known corpusId active
  rcases mem_updateWhere_cases known with ⟨stays, _⟩ | ⟨source, _, _, assigned⟩
  · exact constraints.activeCorpus course stays corpusId active
  · rw [assigned] at active
    rw [← Option.some.inj active]
    exact published

/-- The update goes through when it finds the expected version. -/
theorem activate_of_expected (constraints : material.Constraints)
    (published : ∃ corpus ∈ material.corpusVersions, corpus.id = activation.corpusId)
    (expected : ∃ course ∈ material.courses, course.id = activation.courseId ∧
      course.version = activation.expectedCourseVersion) :
    ∃ shown, DocumentService.activate activation.courseId activation.corpusId
      activation.expectedCourseVersion material =
        .ok (shown, { material with courses := swapped activation material.courses }) := by
  rcases expected with ⟨course, known, own, version⟩
  have rows := updateWhere_expected constraints.courseIds known own version
  have isFound : (material.courses.find? fun course => course.id == activation.courseId &&
      course.version == activation.expectedCourseVersion).isSome := by
    rw [List.find?_isSome]
    exact ⟨course, known, by simp [own, version]⟩
  rcases Option.isSome_iff_exists.mp isFound with ⟨other, found⟩
  refine ⟨⟨activation.courseId, activation.corpusId, other.version + 1⟩, ?_⟩
  simp only [DocumentService.activate, found, rows, Material.commit,
    if_pos (constraints.activated published)]
  rfl

/-- An activation that finds what it has to raises the version of its course. -/
theorem result_of_granted (earlier : checked.Constraints) (constraints : material.Constraints)
    (kept : checked.corpusVersions ⊆ material.corpusVersions)
    (granted : activation.Granted tables who checked material) :
    ∃ shown, activation.result tables who checked material =
      .ok (shown, { material with courses := swapped activation material.courses }) := by
  rcases granted with ⟨⟨userId, teaches⟩, ⟨corpus, known, idEq, own, ready⟩, expected⟩
  have isChecked : DocumentService.checkActivation tables who activation.courseId
      activation.corpusId checked = .ok () := by
    have isFound : (checked.corpusVersions.find? fun corpus =>
        corpus.id == activation.corpusId && corpus.courseId == activation.courseId).isSome := by
      rw [List.find?_isSome]
      exact ⟨corpus, known, by simp [idEq, own]⟩
    rcases Option.isSome_iff_exists.mp isFound with ⟨other, found⟩
    have matched := List.find?_some found
    rw [Bool.and_eq_true, beq_iff_eq, beq_iff_eq] at matched
    have same := earlier.corpusIds.eq_of_key (List.mem_of_find?_eq_some found) known
      (matched.1.trans idEq.symm)
    simp only [DocumentService.checkActivation, teaches, found, same]
    exact failIf_of_not (not_not.mpr ready)
  rcases activate_of_expected constraints ⟨corpus, kept known, idEq⟩ expected with ⟨shown, activated⟩
  refine ⟨shown, ?_⟩
  rw [Activation.result, DocumentService.activateCorpus, isChecked]
  exact activated

/-- An activation that returns found what it had to. -/
theorem granted_of_result {shown : ActivationView} {written : Material}
    (ok : activation.result tables who checked material = .ok (shown, written)) :
    activation.Granted tables who checked material := by
  simp only [Activation.result, DocumentService.activateCorpus, bind_eq_ok] at ok
  rcases ok with ⟨_, isChecked, activated⟩
  rcases activate_eq_ok activated with ⟨course, known, own, version, _⟩
  have teaches : ∃ userId,
      DocumentService.authorizedTeacher tables who activation.courseId = .ok userId := by
    simp only [DocumentService.checkActivation, bind_eq_ok] at isChecked
    rcases isChecked with ⟨userId, teaches, _⟩
    exact ⟨userId, teaches⟩
  exact ⟨teaches, checkActivation_eq_ok isChecked, ⟨course, known, own, version⟩⟩

end Activations

/-! ### What an acceptance captures -/

/-- The corpus of a course that is active, ready and its own. -/
def Material.Publishes (material : Material) (courseId corpusId : UUID) : Prop :=
  ∃ course ∈ material.courses, course.id = courseId ∧
    course.activeCorpusVersionId = some corpusId ∧
      ∃ corpus ∈ material.corpusVersions, corpus.id = corpusId ∧ corpus.courseId = courseId ∧
        corpus.state = .ready

/-- The corpus query of `accept` finds the one corpus its course publishes. -/
theorem captureCorpus_eq_some {material : Material} (constraints : material.Constraints)
    {courseId corpusId : UUID} :
    captureCorpus material courseId = some corpusId ↔ material.Publishes courseId corpusId := by
  have selects (corpus : CorpusVersion) :
      (corpus.state == .ready && material.courses.any fun course =>
        course.id == courseId && course.activeCorpusVersionId == some corpus.id &&
          course.id == corpus.courseId) = true ↔
        corpus.state = .ready ∧ ∃ course ∈ material.courses, course.id = courseId ∧
          course.activeCorpusVersionId = some corpus.id ∧ course.id = corpus.courseId := by
    simp only [Bool.and_eq_true, beq_iff_eq, List.any_eq_true, and_assoc]
  rw [captureCorpus, Option.map_eq_some_iff]
  constructor
  · intro ⟨corpus, found, same⟩
    have matched := List.find?_some found
    rcases (selects corpus).mp matched with ⟨ready, course, known, own, active, ofCourse⟩
    rw [← same]
    exact ⟨course, known, own, active, corpus, List.mem_of_find?_eq_some found, rfl,
      ofCourse.symm.trans own, ready⟩
  · intro ⟨course, known, own, active, corpus, corpusKnown, idEq, ofCourse, ready⟩
    have selected := (selects corpus).mpr
      ⟨ready, course, known, own, by rw [idEq]; exact active, own.trans ofCourse.symm⟩
    have isFound : (material.corpusVersions.find? fun corpus =>
        corpus.state == .ready && material.courses.any fun course =>
          course.id == courseId && course.activeCorpusVersionId == some corpus.id &&
            course.id == corpus.courseId).isSome := by
      rw [List.find?_isSome]
      exact ⟨corpus, corpusKnown, selected⟩
    rcases Option.isSome_iff_exists.mp isFound with ⟨other, found⟩
    have matched := List.find?_some found
    rcases (selects other).mp matched with
      ⟨_, otherCourse, otherKnown, otherOwn, otherActive, _⟩
    have same := constraints.courseIds.eq_of_key otherKnown known (otherOwn.trans own.symm)
    rw [same, active] at otherActive
    exact ⟨other, found, (Option.some.inj otherActive).symm⟩

section Worlds

variable {deployment : Deployment} {data : ValidatorData}

/-- A moment of the run that led to the world. -/
def World.Earlier (deployment : Deployment) (data : ValidatorData) (moment world : World) : Prop :=
  Reachable World.Initial (World.Step deployment data) moment ∧
    Relation.ReflTransGen (World.Step deployment data) moment world

/-- The world with one more acceptance under way. -/
def World.querying (world : World) (capture : Capture) : World :=
  { world with
    tutor := { world.tutor with captures := world.tutor.captures ++ [capture] } }

/-- A step beside an acceptance that stays under way. -/
structure World.Carries (deployment : Deployment) (data : ValidatorData) (capture : Capture)
    (before after : World) : Prop where
  step : before.Step deployment data after
  earlier : capture ∈ before.tutor.captures
  later : capture ∈ after.tutor.captures

/-- An acceptance under way: it locked its conversation in a reachable state,
found there what its course published, and has been under way ever since. -/
structure Capture.UnderWay (deployment : Deployment) (data : ValidatorData) (capture : Capture)
    (asked world : World) : Prop where
  reachable : Reachable World.Initial (World.Step deployment data) asked
  unlocked : ∀ other ∈ asked.tutor.captures, other.conversationId ≠ capture.conversationId
  queried : asked.Step deployment data (asked.querying capture)
  found : ∀ corpusId, capture.corpusId = some corpusId ↔
    asked.backend.material.Publishes capture.courseId corpusId
  carried : Relation.ReflTransGen (World.Carries deployment data capture)
    (asked.querying capture) world

/-- The step with which an acceptance under way inserts its message and ends. -/
structure Message.InsertedBy (deployment : Deployment) (data : ValidatorData) (message : Message)
    (capture : Capture) (held inserted : World) : Prop where
  step : held.Step deployment data inserted
  ended : ∃ earlier later, held.tutor.captures = earlier ++ capture :: later ∧
    inserted.tutor.captures = earlier ++ later
  committed : ∃ settings who request readings accepted,
    request.conversationId = capture.conversationId ∧ readings.corpusId = capture.corpusId ∧
      ConversationService.accept settings data.unicode held.identity held.backend.material who
        request readings held.tutor.dialogue = .ok (accepted, inserted.tutor.dialogue) ∧
      accepted.created = true ∧ accepted.message.id = message.id
  fresh : ∀ other ∈ held.tutor.dialogue.messages, other.id ≠ message.id

/-- The message has the conversation, the course and the corpus of the acceptance
that inserted it, which found the corpus that was active and ready at its query. -/
def Message.CapturedBy (deployment : Deployment) (data : ValidatorData) (world : World)
    (message : Message) : Prop :=
  ∃ capture asked held inserted, capture.UnderWay deployment data asked held ∧
    message.InsertedBy deployment data capture held inserted ∧
    Relation.ReflTransGen (World.Step deployment data) inserted world ∧
    message.conversationId = capture.conversationId ∧ message.courseId = capture.courseId ∧
    message.corpusVersionId = capture.corpusId

/-- Where every acceptance under way, and every message, has its corpus from. -/
structure World.Captures (deployment : Deployment) (data : ValidatorData) (world : World) :
    Prop where
  captures : ∀ capture ∈ world.tutor.captures, ∃ asked,
    capture.UnderWay deployment data asked world
  messages : ∀ message ∈ world.tutor.dialogue.messages, message.CapturedBy deployment data world

variable {world after : World}

/-- Messages that acceptance fixed alike were captured alike. -/
theorem captured_of_map_accepted {earlier later : List Message} {property : Message → Prop}
    (same : later.map Message.accepted = earlier.map Message.accepted)
    (fixed : ∀ first second : Message, first.accepted = second.accepted → property first →
      property second)
    (holds : ∀ message ∈ earlier, property message) : ∀ message ∈ later, property message := by
  intro message member
  have inBoth : message.accepted ∈ earlier.map Message.accepted := by
    rw [← same]
    exact List.mem_map_of_mem member
  rcases List.mem_map.mp inBoth with ⟨source, known, sameRequest⟩
  exact fixed source message sameRequest (holds source known)

theorem captured_congr {first second : Message} (same : first.accepted = second.accepted)
    (captured : first.CapturedBy deployment data world) :
    second.CapturedBy deployment data world := by
  rcases captured with
    ⟨capture, asked, held, inserted, underWay, insertedBy, run, conversation, course, corpus⟩
  rcases insertedBy with ⟨step, ended, committed, fresh⟩
  have sameId : first.accepted.id = second.accepted.id := congrArg Message.id same
  have sameConversation : first.accepted.conversationId = second.accepted.conversationId :=
    congrArg Message.conversationId same
  have sameCourse : first.accepted.courseId = second.accepted.courseId :=
    congrArg Message.courseId same
  have sameCorpus : first.accepted.corpusVersionId = second.accepted.corpusVersionId :=
    congrArg Message.corpusVersionId same
  change first.id = second.id at sameId
  rw [sameId] at committed fresh
  exact ⟨capture, asked, held, inserted, underWay, ⟨step, ended, committed, fresh⟩, run,
    sameConversation.symm.trans conversation, sameCourse.symm.trans course,
    sameCorpus.symm.trans corpus⟩

theorem Message.CapturedBy.step {message : Message}
    (captured : message.CapturedBy deployment data world)
    (step : world.Step deployment data after) : message.CapturedBy deployment data after := by
  rcases captured with ⟨capture, asked, held, inserted, underWay, insertedBy, run, rest⟩
  exact ⟨capture, asked, held, inserted, underWay, insertedBy, run.tail step, rest⟩

/-- The messages after a step of the tutor. -/
theorem messages_of_tutorStep (sound : world.Sound deployment)
    (captures : world.Captures deployment data) {tutor : Tutor}
    (step : Tutor.Step data world.identity world.backend.material world.tutor tutor) :
    ∀ message ∈ tutor.dialogue.messages,
      message.CapturedBy deployment data { world with tutor } := by
  have worldStep : world.Step deployment data { world with tutor } := .tutor world tutor step
  have kept : ∀ message ∈ world.tutor.dialogue.messages,
      message.CapturedBy deployment data { world with tutor } :=
    fun message member => (captures.messages message member).step worldStep
  cases seen_of_step sound.tutor step with
  | quiet effect =>
      exact captured_of_map_accepted (map_accepted_of_effect effect (by decide))
        (fun _ _ same => captured_congr same) kept
  | completed messageId draft now completedAt validated ok =>
      rcases @effect_of_result _ _ (.complete world.identity world.backend.material messageId draft
        now completedAt) ok with ⟨⟨change, possible, effect⟩, _⟩
      rw [List.mem_singleton.mp possible] at effect
      exact captured_of_map_accepted (map_accepted_of_effect effect (by decide))
        (fun _ _ same => captured_congr same) kept
  | accepted settings who request readings accepted earlier later capture captured taken locked
      read course created ok =>
      rcases accept_created created ok with
        ⟨conversation, key, turn, _, own, inserted, idEq, courseEq, _⟩
      intro message member
      rw [inserted] at member
      rcases List.mem_append.mp member with old | new
      · have effect : Effect world.backend.material world.tutor.dialogue .neither
            (expire readings.expiryClock readings.completedClock (some request.conversationId)
              world.tutor.dialogue) := .expired _ _ _
        exact captured_of_map_accepted (map_accepted_of_effect effect (by decide))
          (fun _ _ same => captured_congr same) kept message old
      · rw [List.mem_singleton.mp new]
        have underWay : ∃ asked, capture.UnderWay deployment data asked world := by
          refine captures.captures capture ?_
          rw [captured]
          exact List.mem_append_right _ List.mem_cons_self
        rcases underWay with ⟨asked, underWay⟩
        refine ⟨capture, asked, world, { world with tutor }, underWay, ?_, .refl,
          own.trans locked, courseEq.symm.trans course, read⟩
        refine ⟨worldStep, ⟨earlier, later, captured, taken⟩, ?_, ?_⟩
        · exact ⟨settings, who, request, readings, accepted, locked, read, ok, created, idEq⟩
        · -- The identifiers stay distinct, so the new one is none of the old ones.
          intro other otherKnown sameId
          have distinct : (tutor.dialogue.messages.map (·.id)).Nodup :=
            (wellFormed_of_step sound.tutor step).orderly.keys.messageIds
          rw [messageIds_of_accept_created created ok, idEq] at distinct
          have isOld : readings.messageId ∈ world.tutor.dialogue.messages.map (·.id) :=
            List.mem_map.mpr ⟨other, otherKnown, sameId⟩
          exact List.disjoint_of_nodup_append distinct isOld (List.mem_singleton_self _)

/-- An acceptance goes on being under way until its step or a crash ends it. -/
theorem Capture.UnderWay.step {capture : Capture} {asked : World}
    (underWay : capture.UnderWay deployment data asked world)
    (step : world.Step deployment data after) (earlier : capture ∈ world.tutor.captures)
    (later : capture ∈ after.tutor.captures) : capture.UnderWay deployment data asked after :=
  { underWay with carried := underWay.carried.tail ⟨step, earlier, later⟩ }

/-- The acceptances under way after a step of the tutor. -/
theorem captures_of_tutorStep {tutor : Tutor}
    (reachable : Reachable World.Initial (World.Step deployment data) world)
    (captures : world.Captures deployment data)
    (step : Tutor.Step data world.identity world.backend.material world.tutor tutor) :
    ∀ capture ∈ tutor.captures, ∃ asked,
      capture.UnderWay deployment data asked { world with tutor } := by
  have worldStep : world.Step deployment data { world with tutor } := .tutor world tutor step
  have goesOn (capture : Capture) (earlier : capture ∈ world.tutor.captures)
      (later : capture ∈ tutor.captures) :
      ∃ asked, capture.UnderWay deployment data asked { world with tutor } := by
    rcases captures.captures capture earlier with ⟨asked, underWay⟩
    exact ⟨asked, underWay.step worldStep earlier later⟩
  intro capture member
  cases step with
  | capture conversation known unlocked =>
      rcases List.mem_append.mp member with old | new
      · exact goesOn capture old member
      · rw [List.mem_singleton.mp new]
        have constraints := (sound_of_world reachable).backend.coherent.constraints
        exact ⟨world, reachable, unlocked, worldStep, fun _ => captureCorpus_eq_some constraints,
          .refl⟩
  | accept settings who request readings accepted dialogue earlier later finished captured locked
      read course created ok =>
      refine goesOn capture ?_ member
      rw [captured]
      exact ((List.sublist_cons_self finished later).append_left earlier).subset member
  | crash fewer posts turns orphans fewerCaptures fewerPosts fewerTurns fewerOrphans =>
      exact goesOn capture (fewerCaptures.subset member) member
  | _ => exact goesOn capture member member

theorem captures_of_world (reachable : Reachable World.Initial (World.Step deployment data) world) :
    world.Captures deployment data := by
  rcases reachable with ⟨origin, initial, run⟩
  induction run with
  | refl =>
      have empty := initial.tutor
      rw [Tutor.Initial] at empty
      refine ⟨?_, ?_⟩
      · rw [empty]
        exact List.forall_mem_nil _
      · rw [empty]
        exact List.forall_mem_nil _
  | @tail before next prior step inductionHypothesis =>
      have reached : Reachable World.Initial (World.Step deployment data) before :=
        ⟨origin, initial, prior⟩
      have kept : before.Captures deployment data := inductionHypothesis
      have goesOn (capture : Capture) (earlier : capture ∈ before.tutor.captures)
          (later : capture ∈ next.tutor.captures) :
          ∃ asked, capture.UnderWay deployment data asked next := by
        rcases kept.captures capture earlier with ⟨asked, underWay⟩
        exact ⟨asked, underWay.step step earlier later⟩
      cases step with
      | enrol identity constraints restricted =>
          exact ⟨fun capture member => goesOn capture member member, fun message member =>
            (kept.messages message member).step (.enrol _ identity constraints restricted)⟩
      | publish backend backendStep =>
          exact ⟨fun capture member => goesOn capture member member, fun message member =>
            (kept.messages message member).step (.publish _ backend backendStep)⟩
      | tutor tutor tutorStep =>
          exact ⟨captures_of_tutorStep reached kept tutorStep,
            messages_of_tutorStep (sound_of_world reached) kept tutorStep⟩

/-- Corpora are never removed. -/
theorem corpora_of_run (sound : world.Sound deployment)
    (run : Relation.ReflTransGen (World.Step deployment data) world after) :
    world.backend.material.corpusVersions <+: after.backend.material.corpusVersions := by
  induction run with
  | refl => exact List.prefix_rfl
  | tail prior step inductionHypothesis =>
      cases step with
      | publish backend step =>
          have soundThen := (worldAdvances_of_run sound prior).1.backend
          rcases write_of_step soundThen step with ⟨_, write, _, _⟩
          exact inductionHypothesis.trans
            (advances_of_write soundThen.coherent.constraints write).corpora
      | _ => exact inductionHypothesis

theorem swapsOnce_of_world
    (reachable : Reachable World.Initial (World.Step deployment data) world) :
    world.backend.SwapsOnce := by
  have both : world.Sound deployment ∧ world.backend.SwapsOnce := by
    refine @Reachable.holds _ _ _
      (fun world => world.Sound deployment ∧ world.backend.SwapsOnce) (fun start initial => ?_)
      (fun before next invariant step => ?_) _ reachable
    · rcases initial.backend.started with ⟨courses, same⟩
      refine ⟨sound_of_worldInitial initial, ?_⟩
      rw [same]
      exact ⟨List.nodup_nil, List.forall_mem_nil _⟩
    · refine ⟨sound_of_worldStep invariant.1 step, ?_⟩
      cases step with
      | publish backend step => exact swapsOnce_of_step invariant.1.backend invariant.2 step
      | _ => exact invariant.2
  exact both.2

end Worlds

/-- Corpus publication is compare-and-swap and captured once, in every reachable
state of the whole system. -/
theorem corpus_publication {deployment : Deployment} {data : ValidatorData} {world : World}
    (reachable : Reachable World.Initial (World.Step deployment data) world) :
    (∀ after, world.Step deployment data after →
      (∃ activation, Swaps world.backend after.backend activation) ∨
        KeepsCourses world.backend after.backend) ∧
    (world.backend.records.activations.map Activation.key).Nodup ∧
    (∀ course ∈ world.backend.material.courses, ∀ corpusId,
      course.activeCorpusVersionId = some corpusId →
        ∃ corpus ∈ world.backend.material.corpusVersions, corpus.id = corpusId ∧
          corpus.courseId = course.id ∧ corpus.state = .ready) ∧
    (∀ message ∈ world.tutor.dialogue.messages, message.CapturedBy deployment data world) ∧
    (∀ later, Relation.ReflTransGen (World.Step deployment data) world later →
      ∀ message ∈ world.tutor.dialogue.messages, ∃ same ∈ later.tutor.dialogue.messages,
        same.id = message.id ∧ same.corpusVersionId = message.corpusVersionId) ∧
    (∀ checked, World.Earlier deployment data checked world → ∀ tables who activation,
      (∀ failure,
        activation.result tables who checked.backend.material world.backend.material =
          .error failure →
        ¬ activation.Granted tables who checked.backend.material world.backend.material ∧
          activation.run tables who checked.backend.material world.backend.material =
            world.backend.material) ∧
      ∀ shown written,
        activation.result tables who checked.backend.material world.backend.material =
          .ok (shown, written) →
        activation.Granted tables who checked.backend.material world.backend.material ∧
          written =
            { world.backend.material with
              courses := swapped activation world.backend.material.courses }) ∧
    ∀ activation failure,
      DocumentService.activate activation.courseId activation.corpusId
        activation.expectedCourseVersion world.backend.material = .error failure →
      ∀ after, world.Step deployment data after →
        ¬ Swaps world.backend after.backend activation := by
  have sound := sound_of_world reachable
  have constraints := sound.backend.coherent.constraints
  refine ⟨?_, (swapsOnce_of_world reachable).distinct, ?_,
    (captures_of_world reachable).messages, ?_, ?_, ?_⟩
  · intro after step
    cases step with
    | publish backend step => exact publishes_of_step sound.backend step
    | _ => exact .inr ⟨List.prefix_rfl, rfl⟩
  · intro course known corpusId active
    exact sound.backend.coherent.active course known corpusId active
  · intro later run message known
    rcases (worldAdvances_of_run sound run).2.messages message known with ⟨same, sameKnown, advances⟩
    exact ⟨same, sameKnown, advances.id_eq, advances.corpusVersionId_eq⟩
  · intro checked earlier tables who activation
    have soundThen := sound_of_world earlier.1
    have kept := (corpora_of_run soundThen earlier.2).subset
    have succeeds (granted : activation.Granted tables who checked.backend.material
        world.backend.material) :=
      result_of_granted soundThen.backend.coherent.constraints constraints kept granted
    refine ⟨?_, ?_⟩
    · intro failure raises
      refine ⟨fun granted => ?_, ?_⟩
      · rcases succeeds granted with ⟨shown, ok⟩
        cases raises.symm.trans ok
      · rw [Activation.run, raises]
    · intro shown written ok
      have granted := granted_of_result ok
      rcases succeeds granted with ⟨_, same⟩
      cases ok.symm.trans same
      exact ⟨granted, rfl⟩
  · -- What an activation under way has read still stands, so only its version refuses it.
    intro activation failure raises after step swaps
    rcases sound.backend.checked activation swaps.running with ⟨corpus, known, idEq, _, _⟩
    rcases activate_of_expected constraints ⟨corpus, known, idEq⟩ swaps.expected with ⟨_, ok⟩
    cases raises.symm.trans ok

/-! ### A first question -/

section Sample

/-- What the backend alone can do, the world can do before anyone asks. -/
theorem reachable_of_backend {deployment : Deployment} {data : ValidatorData} {identity : Identity}
    (constraints : identity.Constraints) {backend : Backend}
    (reachable : Reachable Backend.Initial (Backend.Step deployment) backend) :
    Reachable World.Initial (World.Step deployment data) { identity, backend } := by
  rcases reachable with ⟨origin, initial, run⟩
  refine ⟨{ identity, backend := origin }, ⟨constraints, initial, rfl⟩, ?_⟩
  induction run with
  | refl => exact .refl
  | tail _ step inductionHypothesis => exact inductionHypothesis.tail (.publish _ _ step)

/-- The corpus of the first document is active. -/
def sampleActivated : Material :=
  { sampleIndexed with
    courses := [{ sampleCourse with version := 1, activeCorpusVersionId := some (.ofNat 9) }] }

def sampleActivation : Activation where
  courseId := .ofNat 2
  corpusId := .ofNat 9
  expectedCourseVersion := 0

def sampleBackend : Backend :=
  { sampleProcessed with
    material := sampleActivated
    records := { successes := [sampleSuccess], activations := [sampleActivation] } }

theorem reachable_sampleBackend :
    Reachable Backend.Initial SampleBackendStep sampleBackend := by
  have started : SampleBackendStep sampleProcessed
      { sampleProcessed with activations := [sampleActivation] } :=
    .startActivation _ sampleFaculty sampleTeacher sampleActivation (by decide +kernel)
  have activated : SampleBackendStep { sampleProcessed with activations := [sampleActivation] }
      sampleBackend :=
    .activate _ [] [] sampleActivation ⟨.ofNat 2, .ofNat 9, 1⟩ sampleActivated rfl
      (by decide +kernel)
  exact (reachable_sampleProcessed.tail started).tail activated

/-- Letter case as the ASCII letters have it. -/
def hostData : ValidatorData where
  unicode := sampleHost
  intOfText := fun _ => none

abbrev SampleWorldStep : World → World → Prop := World.Step sampleDeployment hostData

/-- The world of the sample backend, with its tutor. -/
def worldWith (tutor : Tutor) : World where
  identity := sampleFaculty
  backend := sampleBackend
  tutor

theorem reachable_sampleWorld : Reachable World.Initial SampleWorldStep (worldWith {}) :=
  reachable_of_backend (by decide +kernel) reachable_sampleBackend

/-- The teacher opens a conversation. -/
def teacherOpens : Call :=
  .create sampleFaculty sampleActivated sampleTeacher (.ofNat 2) (some "open") (.ofNat 20) 0

/-- The conversation that is open then. -/
def teacherConversation : Conversation where
  id := .ofNat 20
  courseId := .ofNat 2
  ownerUserId := .ofNat 1
  idempotencyKey := "open"
  createdAt := 0

def serviceSettings : ConversationService.Settings where
  modelVersion := "model"
  retrievalVersion := "retrieval"

def firstQuestion : Question where
  conversationId := .ofNat 20
  question := "What is a stack?"
  key := some "ask"
  correlationId := "request"

def firstReadings : Readings where
  expiryClock := fun _ => 1
  completedClock := fun _ => 1
  now := 1
  createdAt := 1
  messageId := .ofNat 21
  corpusId := some (.ofNat 9)

/-- The first question is accepted. -/
def firstAccepted : AcceptedMessage × Dialogue :=
  valueOf (ConversationService.accept serviceSettings sampleHost sampleFaculty sampleActivated
    sampleTeacher firstQuestion firstReadings (teacherOpens.run {})) (by decide +kernel)

theorem firstAccepted_ok :
    ConversationService.accept serviceSettings sampleHost sampleFaculty sampleActivated
      sampleTeacher firstQuestion firstReadings (teacherOpens.run {}) =
        .ok (firstAccepted.1, firstAccepted.2) :=
  show _ = Except.ok firstAccepted from eq_ok_valueOf _

/-- The sample world while an acceptance holds the lock of the conversation. -/
def capturing (dialogue : Dialogue) (ledger : Ledger) (conversation : Conversation) : World :=
  worldWith
    { dialogue, ledger
      captures := [⟨conversation.id, conversation.courseId,
        captureCorpus sampleActivated conversation.courseId⟩] }

section Acceptance

variable {dialogue : Dialogue} {ledger : Ledger} {conversation : Conversation}
  {request : Question} {readings : Readings} {accepted : AcceptedMessage × Dialogue}

theorem step_capturing (known : conversation ∈ dialogue.conversations) :
    SampleWorldStep (worldWith { dialogue, ledger }) (capturing dialogue ledger conversation) :=
  .tutor _ _ (.capture _ conversation known (List.forall_mem_nil _))

theorem step_accepted (locked : request.conversationId = conversation.id)
    (read : readings.corpusId = captureCorpus sampleActivated conversation.courseId)
    (course : accepted.1.message.courseId = conversation.courseId)
    (created : accepted.1.created = true)
    (ok : ConversationService.accept serviceSettings sampleHost sampleFaculty sampleActivated
      sampleTeacher request readings dialogue = .ok accepted) :
    SampleWorldStep (capturing dialogue ledger conversation)
      (worldWith { dialogue := accepted.2, posts := [accepted.1], ledger }) :=
  .tutor _ _ (.accept _ serviceSettings sampleTeacher request readings _ _ [] [] _ rfl locked read
    course created ok)

end Acceptance

/-- The conversation is open, and an acceptance has read the corpus. -/
def openedWorld : World :=
  capturing (teacherOpens.run {}) {} teacherConversation

theorem reachable_openedWorld : Reachable World.Initial SampleWorldStep openedWorld := by
  have opened : SampleWorldStep (worldWith {}) (worldWith { dialogue := teacherOpens.run {} }) :=
    .tutor _ _ (.beside {} teacherOpens ⟨rfl, rfl⟩)
  exact (reachable_sampleWorld.tail opened).tail (step_capturing (by decide +kernel))

theorem step_firstAccepted :
    SampleWorldStep openedWorld
      (worldWith { dialogue := firstAccepted.2, posts := [firstAccepted.1] }) :=
  step_accepted rfl (by decide +kernel) (by decide +kernel) (by decide +kernel) firstAccepted_ok

theorem reachable_firstAccepted :
    Reachable World.Initial SampleWorldStep
      (worldWith { dialogue := firstAccepted.2, posts := [firstAccepted.1] }) :=
  reachable_openedWorld.tail step_firstAccepted

/-- The first question is asked of the corpus that was activated for it, and an
activation that still expects the earlier version is refused. -/
theorem corpus_publication_of_sample :
    firstAccepted.2.messages.map (·.corpusVersionId) = [some (.ofNat 9)] ∧
      (∀ message ∈ firstAccepted.2.messages, message.CapturedBy sampleDeployment hostData
        (worldWith { dialogue := firstAccepted.2, posts := [firstAccepted.1] })) ∧
      sampleActivation.result sampleFaculty sampleTeacher sampleActivated sampleActivated =
        .error .publicationConflict ∧
      sampleActivation.run sampleFaculty sampleTeacher sampleActivated sampleActivated =
        sampleActivated := by
  have publication := corpus_publication reachable_firstAccepted
  have raises : sampleActivation.result sampleFaculty sampleTeacher sampleActivated
      sampleActivated = .error .publicationConflict := by decide +kernel
  refine ⟨by decide +kernel, publication.2.2.2.1, raises, ?_⟩
  have now : World.Earlier sampleDeployment hostData
      (worldWith { dialogue := firstAccepted.2, posts := [firstAccepted.1] })
      (worldWith { dialogue := firstAccepted.2, posts := [firstAccepted.1] }) :=
    ⟨reachable_firstAccepted, .refl⟩
  exact ((publication.2.2.2.2.2.1 _ now sampleFaculty sampleTeacher sampleActivation).1 _ raises).2

end Sample

end Docta
