/-
Module: Docta.Courses.KeyedCreation
Purpose: Creation under a key happens once. A call leaves a course with the membership
  of its teacher and the record of its key, or none of the three; the tables hold what
  committed calls left and nothing else; and nobody is returned what another user created.
Trusted boundary: as in `CourseService`
Main exports: CreationEntry.Whole, CreationLedger.Whole, KeyedCreation, keyed_creation_once
-/
import Docta.Courses.Idempotence

namespace Docta

open Fallible Interleaving Transition CourseService

/-! ### All or none -/

namespace Catalog

/-- No course, no membership and no record of a key. -/
structure NoCourse (rows : Catalog) : Prop where
  courses : rows.courses = []
  memberships : rows.memberships = []
  creations : rows.creations = []

/-- A course, the membership of its teacher and, under a key, its record. -/
structure WholeCourse (rows : Catalog) (key : Option String) (userId : UUID)
    (course : CourseRecord) : Prop where
  courses : rows.courses = [course]
  memberships : rows.memberships = [⟨course.id, userId, .teacher⟩]
  creations : rows.creations = key.toList.map fun key => ⟨userId, key, course.id⟩

variable {first second : Catalog} {key : Option String} {userId : UUID} {course : CourseRecord}

theorem NoCourse.append (one : first.NoCourse) (two : second.NoCourse) :
    (first ++ second).NoCourse where
  courses := by rw [courses_append, one.courses, two.courses, List.append_nil]
  memberships := by rw [memberships_append, one.memberships, two.memberships, List.append_nil]
  creations := by rw [creations_append, one.creations, two.creations, List.append_nil]

theorem noCourse_empty : (∅ : Catalog).NoCourse :=
  ⟨rfl, rfl, rfl⟩

theorem NoCourse.insertCourse (noCourse : first.NoCourse) (userId : UUID) (course : CourseRecord) :
    (first ++ courseRows userId course).WholeCourse none userId course where
  courses := by
    rw [courses_append, noCourse.courses]
    rfl
  memberships := by
    rw [memberships_append, noCourse.memberships]
    rfl
  creations := by
    rw [creations_append, noCourse.creations]
    rfl

theorem WholeCourse.insertCreation (whole : first.WholeCourse none userId course) (key : String) :
    (first ++ creationRow userId key course.id).WholeCourse (some key) userId course where
  courses := by
    rw [courses_append, whole.courses]
    rfl
  memberships := by
    rw [memberships_append, whole.memberships]
    rfl
  creations := by
    rw [creations_append, whole.creations]
    rfl

end Catalog

/-- A call that returned a course has left it whole, or shows the one of its key again. -/
def CreationEntry.Whole : CreationEntry → Prop
  | .course call (.ok view) written => (call.key ≠ none ∧ written.NoCourse) ∨
      ∃ userId course, view = viewOf course ∧ written.WholeCourse call.key userId course
  | .course _ (.error _) written => written = ∅
  | .conversation _ _ written => written.NoCourse

/-- The rows that a `create_course` has written in each phase. -/
def CoursePhase.Whole (call : CourseCall) (written : Catalog) : CoursePhase → Prop
  | .flushed userId course => written.WholeCourse none userId course
  | .done view => (CreationEntry.course call (.ok view) written).Whole
  | _ => written.NoCourse

def Session.Whole (session : Session) : Prop :=
  match session.activity with
  | .createCourse call phase => phase.Whole call session.written
  | .createConversation _ _ => session.written.NoCourse

/-- The tables are the origin with what the calls that ended have left. -/
structure CreationLedger.Whole (origin : Catalog) (ledger : CreationLedger) : Prop where
  committed : ledger.tables =
    ledger.log.foldl (fun tables entry => tables ++ entry.written) origin
  entries : ∀ entry ∈ ledger.log, entry.Whole

section Rules

variable {visible rows written : Catalog} {others : List Session} {origin : Catalog}
  {ledger after : CreationLedger} {session next : Session}

/-- One statement of `create_course` writes a course and its membership together. -/
theorem CourseStatement.whole {call : CourseCall} {phase following : CoursePhase}
    {locks : Option UUID} (whole : phase.Whole call written)
    (statement : CourseStatement visible others call phase following rows locks) :
    following.Whole call (written ++ rows) := by
  cases statement with
  | insertUser id free =>
      have noCourse : written.NoCourse := whole
      exact noCourse.append ⟨rfl, rfl, rfl⟩
  | insertCourse userId id createdAt free =>
      have noCourse : written.NoCourse := whole
      exact noCourse.insertCourse userId _
  | insertCreation userId key course isKey free =>
      have flushed : written.WholeCourse none userId course := whole
      refine .inr ⟨userId, course, rfl, ?_⟩
      rw [isKey]
      exact flushed.insertCreation key
  | unrecorded userId course isKey =>
      have flushed : written.WholeCourse none userId course := whole
      refine .inr ⟨userId, course, rfl, ?_⟩
      rw [Catalog.append_empty, isKey]
      exact flushed
  | repeated userId key course view isKey found ok =>
      rw [Catalog.append_empty]
      refine .inl ⟨?_, whole⟩
      rw [isKey]
      exact Option.some_ne_none key
  | _ =>
      rw [Catalog.append_empty]
      exact whole

/-- A `ConversationService.create` writes no row of a course. -/
theorem ConversationStatement.noCourse {call : ConversationCall}
    {phase following : ConversationPhase}
    (statement : ConversationStatement visible others call phase following rows) :
    rows.NoCourse := by
  cases statement with
  | insert => exact ⟨rfl, rfl, rfl⟩
  | _ => exact Catalog.noCourse_empty

theorem Session.starts_whole (starts : session.Starts) : session.Whole := by
  cases starts with
  | createCourse => exact Catalog.noCourse_empty
  | createConversation => exact Catalog.noCourse_empty

theorem Session.moves_whole (moves : session.Moves ledger others next) (whole : session.Whole) :
    next.Whole := by
  cases moves with
  | createCourse call phase following written rows held locks ok => exact ok.whole whole
  | createConversation call phase following written rows held ok =>
      have noCourse : written.NoCourse := whole
      exact noCourse.append ok.noCourse

/-- An entry at the end of the log. -/
theorem CreationLedger.Whole.append {entry : CreationEntry} (whole : ledger.Whole origin)
    (isWhole : entry.Whole) :
    CreationLedger.Whole origin ⟨ledger.tables ++ entry.written, ledger.log ++ [entry]⟩ where
  committed := by
    rw [List.foldl_append, ← whole.committed]
    rfl
  entries := by
    intro known member
    rcases List.mem_append.mp member with early | late
    · exact whole.entries known early
    · rw [List.mem_singleton.mp late]
      exact isWhole

theorem Session.ends_whole (ends : session.Ends ledger after) (stored : ledger.Whole origin)
    (whole : session.Whole) : after.Whole origin := by
  cases ends with
  | commitCourse call view written held =>
      have isWhole : (CreationEntry.course call (.ok view) written).Whole := whole
      exact stored.append isWhole
  | refuseCourse call failure written held =>
      have isWhole : (CreationEntry.course call (.error failure) ∅).Whole := rfl
      have kept := stored.append isWhole
      rw [CreationEntry.written, Catalog.append_empty] at kept
      exact kept
  | commitConversation call view written held =>
      have isWhole : (CreationEntry.conversation call (.ok view) written).Whole := whole
      exact stored.append isWhole
  | refuseConversation call failure written held =>
      have isWhole : (CreationEntry.conversation call (.error failure) ∅).Whole :=
        Catalog.noCourse_empty
      have kept := stored.append isWhole
      rw [CreationEntry.written, Catalog.append_empty] at kept
      exact kept

/-- Every interleaving keeps courses whole. -/
theorem whole_rules (origin : Catalog) : Rules Session.Starts Session.Moves Session.Ends
    (CreationLedger.Whole origin) (fun _ session => session.Whole) (fun _ _ => True) where
  symmetric := fun _ _ _ => trivial
  start := fun _ _ starts _ => Session.starts_whole starts
  startApart := fun _ _ _ => trivial
  statement := fun _ _ _ _ moves _ whole _ _ => Session.moves_whole moves whole
  statementApart := fun _ _ _ _ _ _ _ _ _ _ _ => trivial
  finish := fun _ _ _ ends stored whole => Session.ends_whole ends stored whole
  finishBeside := fun _ _ _ _ _ _ _ whole _ => whole

end Rules

/-! ### Creation under a key -/

/-- What creation under keys comes to. -/
structure KeyedCreation (origin : Catalog) (ledger : CreationLedger) : Prop where
  /-- the tables hold what the calls that ended have left, and nothing of the others -/
  committed : ledger.tables =
    ledger.log.foldl (fun tables entry => tables ++ entry.written) origin
  /-- an OIDC identity is one user -/
  users : ∀ first ∈ ledger.tables.users, ∀ second ∈ ledger.tables.users,
    first.oidcIssuer = second.oidcIssuer → first.oidcSubject = second.oidcSubject → first = second
  /-- a user has one course under a key -/
  courses : ∀ first ∈ ledger.tables.creations, ∀ second ∈ ledger.tables.creations,
    first.userId = second.userId → first.idempotencyKey = second.idempotencyKey → first = second
  /-- an owner has one conversation of a course under a key -/
  conversations : ∀ first ∈ ledger.tables.conversations, ∀ second ∈ ledger.tables.conversations,
    first.courseId = second.courseId → first.ownerUserId = second.ownerUserId →
      first.idempotencyKey = second.idempotencyKey → first = second
  /-- a course that is recorded under a key is there, with its teacher -/
  recorded : ∀ row ∈ ledger.tables.creations,
    (∃ course ∈ ledger.tables.courses, course.id = row.courseId) ∧
      ⟨row.courseId, row.userId, .teacher⟩ ∈ ledger.tables.memberships
  /-- a call under a key leaves a course, its membership and its record, or none of the three -/
  whole : ∀ call result left key, .course call result left ∈ ledger.log → call.key = some key →
    left.NoCourse ∨ ∃ userId course, ledger.tables.Subject call.who userId ∧
      left.courses = [course] ∧ left.memberships = [⟨course.id, userId, .teacher⟩] ∧
        left.creations = [⟨userId, key, course.id⟩]
  /-- a call that returned under a key has its course recorded for it -/
  returned : ∀ call view left key, .course call (.ok view) left ∈ ledger.log →
    call.key = some key → ∃ userId, ledger.tables.Subject call.who userId ∧
      ⟨userId, key, view.id⟩ ∈ ledger.tables.creations
  /-- the course under the key is returned to a call for its title; a call for another title
  is refused and leaves nothing -/
  answered : ∀ call result left key userId course, .course call result left ∈ ledger.log →
    call.key = some key → ledger.tables.Subject call.who userId →
      course ∈ ledger.tables.courses → ⟨userId, key, course.id⟩ ∈ ledger.tables.creations →
        (call.title = course.title ∧ ∃ view, result = .ok view ∧ view.id = course.id) ∨
          (call.title ≠ course.title ∧ result = .error keyReused ∧ left = ∅)
  /-- a returned course is one that the call left or that is recorded for its caller, and no
  other caller's call has left it -/
  ownCourse : ∀ call view left, .course call (.ok view) left ∈ ledger.log →
    ((∃ course ∈ left.courses, course.id = view.id) ∨ ∃ key userId, call.key = some key ∧
      ledger.tables.Subject call.who userId ∧ ⟨userId, key, view.id⟩ ∈ ledger.tables.creations) ∧
        ∀ other ∈ ledger.log, ∀ course ∈ other.written.courses, course.id = view.id →
          other.who = call.who
  /-- a returned conversation is its caller's -/
  ownConversation : ∀ call view left, .conversation call (.ok view) left ∈ ledger.log →
    ∃ row ∈ ledger.tables.conversations, row.id = view.id ∧ row.courseId = call.courseId ∧
      row.idempotencyKey = call.key ∧ ledger.tables.Subject call.who row.ownerUserId ∧
        ∀ other result left', .conversation other result left' ∈ ledger.log →
          ∀ created ∈ left'.conversations, created.id = view.id → other.who = call.who

section Results

variable {origin : Catalog} {pool : Pool CreationLedger Session} {ledger : CreationLedger}

theorem creation_whole (run : CreationRun origin pool) :
    pool.Sound (CreationLedger.Whole origin) (fun _ session => session.Whole) fun _ _ => True := by
  apply (whole_rules origin).reachable_sound _ run
  rintro _ rfl
  exact ⟨rfl, nofun⟩

/-- A call that ended under a key is answered for the title of the course recorded there. -/
theorem CreationLedger.Sound.answered (sound : ledger.Sound origin) {call : CourseCall}
    {result : Except Failure CourseView} {left : Catalog} {key : String} {userId : UUID}
    {course : CourseRecord} (logged : .course call result left ∈ ledger.log)
    (isKey : call.key = some key) (subject : ledger.tables.Subject call.who userId)
    (stored : course ∈ ledger.tables.courses)
    (recorded : ⟨userId, key, course.id⟩ ∈ ledger.tables.creations) :
    (call.title = course.title ∧ ∃ view, result = .ok view ∧ view.id = course.id) ∨
      (call.title ≠ course.title ∧ result = .error keyReused ∧ left = ∅) := by
  cases result with
  | ok view =>
      obtain ⟨caller, isReturned⟩ := sound.entries _ logged
      have own := isReturned.creation key isKey
      rw [isReturned.subject.unique sound.constraints subject] at own
      have same := sound.constraints.creationKeys.eq_of_key own recorded rfl
      exact .inl ⟨(sound.title_of_recorded logged isKey subject recorded stored).symm, view, rfl,
        congrArg CourseCreation.courseId same⟩
  | error failure =>
      obtain ⟨empty, used, caller, other, refused⟩ := sound.entries _ logged
      have sameKey : used = key := Option.some.inj (refused.isKey.symm.trans isKey)
      have own := refused.creation
      rw [refused.subject.unique sound.constraints subject, sameKey] at own
      have same := sound.constraints.creationKeys.eq_of_key own recorded rfl
      have sameCourse := sound.constraints.courseIds.eq_of_key refused.stored stored
        (congrArg CourseCreation.courseId same)
      refine .inr ⟨fun sameTitle => refused.title ?_, congrArg _ refused.reused, empty⟩
      rw [sameCourse, sameTitle]

/-- The caller of the call that left a course is the one whom it was returned to. -/
theorem CreationLedger.Sound.who_of_course (sound : ledger.Sound origin) {call : CourseCall}
    {view : CourseView} {left : Catalog} (logged : .course call (.ok view) left ∈ ledger.log)
    {other : CreationEntry} (known : other ∈ ledger.log) {course : CourseRecord}
    (isNew : course ∈ other.written.courses) (isView : course.id = view.id) :
    other.who = call.who := by
  obtain ⟨userId, isReturned⟩ := sound.entries _ logged
  have creator := sound.creators other known course isNew _ isReturned.membership isView.symm
  exact creator.injective sound.constraints isReturned.subject

/-- The owner of a returned conversation is the caller of each call that left it. -/
theorem CreationLedger.Sound.who_of_conversation (sound : ledger.Sound origin)
    {call other : ConversationCall} {row created : Conversation}
    {result : Except Failure ConversationView} {left : Catalog}
    (stored : row ∈ ledger.tables.conversations)
    (owner : ledger.tables.Subject call.who row.ownerUserId)
    (logged : .conversation other result left ∈ ledger.log) (isNew : created ∈ left.conversations)
    (same : created.id = row.id) : other.who = call.who := by
  cases result with
  | error failure =>
      obtain ⟨empty, _⟩ := sound.entries _ logged
      rw [empty] at isNew
      cases isNew
  | ok view =>
      have isReturned : ConversationReturned _ _ _ _ := sound.entries _ logged
      have creator := isReturned.owned created isNew
      have kept := isReturned.kept.conversations created isNew
      rw [sound.constraints.conversationIds.eq_of_key kept stored same] at creator
      exact creator.injective sound.constraints owner

/-- What a call under a key left, whole or nothing, is its caller's. -/
theorem CreationLedger.Sound.left_cases (sound : ledger.Sound origin)
    (whole : ledger.Whole origin) {call : CourseCall} {result : Except Failure CourseView}
    {left : Catalog} {key : String} (logged : .course call result left ∈ ledger.log)
    (isKey : call.key = some key) :
    left.NoCourse ∨ ∃ userId course, ledger.tables.Subject call.who userId ∧
      left.courses = [course] ∧ left.memberships = [⟨course.id, userId, .teacher⟩] ∧
        left.creations = [⟨userId, key, course.id⟩] := by
  have isWhole := whole.entries _ logged
  have kept := (sound.entries _ logged).kept
  cases result with
  | error failure =>
      have empty : left = ∅ := isWhole
      rw [empty]
      exact .inl Catalog.noCourse_empty
  | ok view =>
      rcases isWhole with ⟨_, noCourse⟩ | ⟨userId, course, _, isCourse⟩
      · exact .inl noCourse
      · have isNew : course ∈ left.courses := by
          rw [isCourse.courses]
          exact List.mem_singleton.mpr rfl
        have member : ⟨course.id, userId, .teacher⟩ ∈ left.memberships := by
          rw [isCourse.memberships]
          exact List.mem_singleton.mpr rfl
        have creator := sound.creators _ logged course isNew _ (kept.memberships _ member) rfl
        refine .inr ⟨userId, course, creator, isCourse.courses, isCourse.memberships, ?_⟩
        rw [isCourse.creations, isKey]
        rfl

/-- Creation under keys, in every interleaving of the calls with transactions aborted
anywhere. -/
theorem keyed_creation_once (constraints : origin.Constraints) (complete : origin.Complete)
    (run : CreationRun origin pool) : KeyedCreation origin pool.shared := by
  have sound := (creation_sound constraints complete run).state
  have whole := (creation_whole run).state
  have stored := sound.constraints
  refine
    { committed := whole.committed
      users := fun first isFirst second isSecond sameIssuer sameSubject =>
        stored.oidcIdentities.eq_of_key isFirst isSecond (Prod.ext sameIssuer sameSubject)
      courses := fun first isFirst second isSecond sameUser sameKey =>
        stored.creationKeys.eq_of_key isFirst isSecond (Prod.ext sameUser sameKey)
      conversations := fun first isFirst second isSecond sameCourse sameOwner sameKey =>
        stored.conversationCreations.eq_of_key isFirst isSecond
          (Prod.ext sameCourse (Prod.ext sameOwner sameKey))
      recorded := fun row known =>
        ⟨stored.references.creationCourse row known, sound.complete row known⟩
      whole := fun call result left key logged isKey => sound.left_cases whole logged isKey
      returned := fun call view left key logged isKey => ?_
      answered := fun call result left key userId course logged isKey subject isCourse recorded =>
        sound.answered logged isKey subject isCourse recorded
      ownCourse := fun call view left logged => ⟨?_, fun other known course isNew isView =>
        sound.who_of_course logged known isNew isView⟩
      ownConversation := fun call view left logged => ?_ }
  · obtain ⟨userId, isReturned⟩ := sound.entries _ logged
    exact ⟨userId, isReturned.subject, isReturned.creation key isKey⟩
  · rcases whole.entries _ logged with ⟨keyed, _⟩ | ⟨_, course, isView, isCourse⟩
    · obtain ⟨key, isKey⟩ := Option.ne_none_iff_exists'.mp keyed
      obtain ⟨userId, isReturned⟩ := sound.entries _ logged
      exact .inr ⟨key, userId, isKey, isReturned.subject, isReturned.creation key isKey⟩
    · refine .inl ⟨course, ?_, congrArg CourseView.id isView.symm⟩
      rw [isCourse.courses]
      exact List.mem_singleton.mpr rfl
  · have isReturned : ConversationReturned _ _ _ _ := sound.entries _ logged
    obtain ⟨row, isRow, isView, _, asked, isKey, owner⟩ := isReturned.conversation
    exact ⟨row, isRow, isView, asked, isKey, owner,
      fun other result left' known created isNew same =>
        sound.who_of_conversation isRow owner known isNew (same.trans isView.symm)⟩

end Results

/-- The algebra course is left whole, its key refuses geometry, and the conversation about it
is left by nobody but its owner. -/
theorem keyed_creation_once_of_sample :
    (∃ userId course, geometryLedger.tables.Subject algebraTeacher userId ∧
      algebraRows.courses = [course] ∧
        algebraRows.memberships = [⟨course.id, userId, .teacher⟩] ∧
          algebraRows.creations = [⟨userId, "k", course.id⟩]) ∧
      (∀ result left, .course geometryCall result left ∈ geometryLedger.log →
        result = .error keyReused ∧ left = ∅) ∧
      ∀ other result left, .conversation other result left ∈ chatLedger.log →
        ∀ created ∈ left.conversations, created.id = .ofNat 3 → other.who = algebraTeacher := by
  have courses := keyed_creation_once Catalog.constraints_empty Catalog.complete_empty run_geometry
  have chats := keyed_creation_once Catalog.constraints_empty Catalog.complete_empty run_chats
  refine ⟨?_, fun result left logged => ?_, ?_⟩
  · rcases courses.whole algebraCall _ algebraRows "k" List.mem_cons_self rfl with noCourse | whole
    · cases noCourse.courses
    · exact whole
  · have subject : geometryLedger.tables.Subject algebraTeacher (.ofNat 1) :=
      ⟨⟨.ofNat 1, "issuer", "ana"⟩, by decide, rfl, rfl⟩
    rcases courses.answered _ _ _ "k" (.ofNat 1) algebra logged rfl subject (by decide)
      (by decide) with ⟨sameTitle, _⟩ | ⟨_, refused, empty⟩
    · exact absurd sameTitle (by decide)
    · exact ⟨refused, empty⟩
  · have logged : CreationEntry.conversation algebraChat (.ok algebraView) algebraChats ∈
        chatLedger.log := by
      simp only [chatLedger, List.mem_append, List.mem_cons, true_or, or_true]
    obtain ⟨_, _, _, _, _, _, owned⟩ := chats.ownConversation _ _ _ logged
    exact owned

end Docta
