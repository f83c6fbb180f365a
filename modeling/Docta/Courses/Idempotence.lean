/-
Module: Docta.Courses.Idempotence
Purpose: What callers can rely on when they create courses and conversations: a repeated
  key shows the first creation again, one key names one conversation, a new course is
  its creator's alone, and recording a key never conflicts.
Trusted boundary: as in `CourseService`
Main exports: createCourse_idempotent, courses_isolated, createConversation_idempotent,
  insertCreation_free
-/
import Docta.Courses.Creation

namespace Docta

open Fallible Interleaving Table Transition CourseService

/-- The calls that create courses and conversations, from stored tables on. -/
def CreationRun (origin : Catalog) : Pool CreationLedger Session → Prop :=
  Reachable (Pool.Initial (· = ⟨origin, []⟩)) (Pool.Step Session.Starts Session.Moves Session.Ends)

theorem Catalog.constraints_empty : (∅ : Catalog).Constraints where
  unique := List.Pairwise.nil
  references := ⟨nofun, nofun, nofun, nofun, nofun, nofun⟩

theorem Catalog.complete_empty : (∅ : Catalog).Complete :=
  nofun

/-! ### Who is asking -/

section Callers

variable {tables : Catalog} {one two : AuthenticatedIdentity} {userId courseId : UUID}

theorem isSubject_iff {who : AuthenticatedIdentity} {user : User} : isSubject who user = true ↔
    (user.oidcIssuer, user.oidcSubject) = (who.issuer, who.subject) := by
  rw [isSubject, Bool.and_eq_true, beq_iff_eq, beq_iff_eq, Prod.mk.injEq]

/-- A verified subject is one user. -/
theorem Catalog.Subject.unique {first second : UUID} (constraints : tables.Constraints)
    (isFirst : tables.Subject one first) (isSecond : tables.Subject one second) :
    first = second := by
  obtain ⟨user, known, isUser, who⟩ := isFirst
  obtain ⟨other, isOther, isUser', who'⟩ := isSecond
  have same := constraints.oidcIdentities.eq_of_key known isOther
    ((isSubject_iff.mp who).trans (isSubject_iff.mp who').symm)
  rw [← isUser, ← isUser', same]

/-- A user is one verified subject. -/
theorem Catalog.Subject.injective (constraints : tables.Constraints)
    (isOne : tables.Subject one userId) (isTwo : tables.Subject two userId) : one = two := by
  obtain ⟨user, known, isUser, who⟩ := isOne
  obtain ⟨other, isOther, isUser', who'⟩ := isTwo
  have same := constraints.userIds.eq_of_key known isOther (isUser.trans isUser'.symm)
  rw [same] at who
  have pair := (isSubject_iff.mp who).symm.trans (isSubject_iff.mp who')
  rw [Prod.mk.injEq] at pair
  cases one
  cases two
  rw [AuthenticatedIdentity.mk.injEq]
  exact pair

/-- A member of a course is shown the course. -/
theorem memberships_eq_singleton (constraints : tables.Constraints) {role : MembershipRole}
    {course : CourseRecord} (stored : course ∈ tables.courses)
    (member : ⟨course.id, userId, role⟩ ∈ tables.memberships)
    (subject : tables.Subject one userId) :
    memberships tables one course.id = [(course, role)] := by
  have onlyCourse : tables.courses.filter (·.id == course.id) = [course] := by
    rw [← constraints.courseIds.filter_eq stored]
    exact List.filter_congr fun other _ => beq_eq_decide _ _
  have users : ∀ row ∈ tables.memberships, row.courseId = course.id →
      (row.courseId, row.userId) ≠ (course.id, userId) →
        (tables.users.filter fun user => user.id == row.userId && isSubject one user) = [] := by
    intro row known isCourse other
    apply List.filter_eq_nil_iff.mpr
    intro user isUser matched
    rw [Bool.and_eq_true, beq_iff_eq] at matched
    apply other
    rw [isCourse, ← matched.1]
    exact congrArg _ (Catalog.Subject.unique constraints ⟨user, isUser, rfl, matched.2⟩ subject)
  have rest : (tables.memberships.filter (·.courseId == course.id)).flatMap (fun row =>
      (tables.users.filter fun user => user.id == row.userId && isSubject one user).map
        fun _ => (course, row.role)) =
      (tables.users.filter fun user => user.id == userId && isSubject one user).map
        fun _ => (course, role) := by
    apply (constraints.membershipKeys.filter (·.courseId == course.id)).flatMap_eq
      (List.mem_filter.mpr ⟨member, beq_self_eq_true _⟩)
    intro row isRow other
    obtain ⟨known, isCourse⟩ := List.mem_filter.mp isRow
    rw [users row known (beq_iff_eq.mp isCourse) other]
    rfl
  obtain ⟨user, known, isUser, who⟩ := subject
  have onlyUser : (tables.users.filter fun other => other.id == userId && isSubject one other) =
      [user] := by
    rw [← constraints.userIds.filter_eq known]
    apply List.filter_congr
    intro other isOther
    apply Bool.eq_iff_iff.mpr
    rw [Bool.and_eq_true, beq_iff_eq, decide_eq_true_iff, isUser]
    constructor
    · exact fun matched => matched.1
    · intro same
      refine ⟨same, ?_⟩
      rw [constraints.userIds.eq_of_key isOther known (same.trans isUser.symm)]
      exact who
  rw [memberships, onlyCourse, List.flatMap_singleton, rest, onlyUser]
  rfl

/-- Whoever is shown a course is a member of it. -/
theorem subject_of_memberships {course : CourseRecord} {role : MembershipRole}
    (selected : (course, role) ∈ memberships tables one courseId) :
    course.id = courseId ∧ ∃ row ∈ tables.memberships, row.courseId = courseId ∧
      tables.Subject one row.userId := by
  rw [memberships, List.mem_flatMap] at selected
  obtain ⟨known, isCourse, joined⟩ := selected
  rw [List.mem_flatMap] at joined
  obtain ⟨row, isRow, joined⟩ := joined
  obtain ⟨user, isUser, same⟩ := List.mem_map.mp joined
  cases same
  obtain ⟨_, isId⟩ := List.mem_filter.mp isCourse
  obtain ⟨member, ofCourse⟩ := List.mem_filter.mp isRow
  obtain ⟨stored, matched⟩ := List.mem_filter.mp isUser
  rw [Bool.and_eq_true, beq_iff_eq] at matched
  have isCourse := beq_iff_eq.mp isId
  exact ⟨isCourse, row, member, (beq_iff_eq.mp ofCourse).trans isCourse, user, stored, matched⟩

end Callers

/-! ### Results -/

section Results

variable {origin : Catalog} {pool : Pool CreationLedger Session}

theorem creation_sound (constraints : origin.Constraints) (complete : origin.Complete)
    (run : CreationRun origin pool) : pool.Sound (CreationLedger.Sound origin)
      (fun ledger session => session.Sound ledger) Session.Apart := by
  apply (creation_rules origin).reachable_sound _ run
  rintro _ rfl
  exact ⟨constraints, complete, nofun, nofun, List.Pairwise.nil, fun _ => .inl⟩

/-- Two calls of one caller under one key return one course, which the later call did not
create. -/
theorem CreationLedger.Sound.same_course {ledger : CreationLedger} {earlier later : CreationEntry}
    (sound : ledger.Sound origin) (inEarlier : earlier ∈ ledger.log) (inLater : later ∈ ledger.log)
    {first second : CourseCall} {one two : CourseView} {left left' : Catalog}
    (isEarlier : earlier = .course first (.ok one) left)
    (isLater : later = .course second (.ok two) left') (sameCaller : first.who = second.who)
    (sameKey : first.key = second.key) (keyed : first.key ≠ none) :
    two.id = one.id ∧ two.title = one.title ∧ second.title = first.title := by
  obtain ⟨key, isKey⟩ := Option.ne_none_iff_exists'.mp keyed
  rw [isEarlier] at inEarlier
  rw [isLater] at inLater
  obtain ⟨userId, isFirst⟩ := sound.entries _ inEarlier
  obtain ⟨userId', isSecond⟩ := sound.entries _ inLater
  have subject := isSecond.subject
  rw [← sameCaller] at subject
  have isUser := isFirst.subject.unique sound.constraints subject
  have recorded := isSecond.creation key (sameKey.symm.trans isKey)
  rw [← isUser] at recorded
  have same := sound.constraints.creationKeys.eq_of_key (isFirst.creation key isKey) recorded rfl
  have sameId : two.id = one.id := (congrArg CourseCreation.courseId same).symm
  obtain ⟨course, stored, isCourse, title⟩ := isFirst.course
  obtain ⟨course', stored', isCourse', title'⟩ := isSecond.course
  have sameCourse := sound.constraints.courseIds.eq_of_key stored stored'
    (isCourse.trans (sameId.symm.trans isCourse'.symm))
  have sameTitle : second.title = first.title := by
    rw [← title, ← title', sameCourse]
  exact ⟨sameId, by rw [isSecond.title, isFirst.title, sameTitle], sameTitle⟩

/-- The course recorded under the key of a call that returned has the title asked for. -/
theorem CreationLedger.Sound.title_of_recorded {ledger : CreationLedger}
    (sound : ledger.Sound origin) {call : CourseCall} {view : CourseView} {left : Catalog}
    (logged : .course call (.ok view) left ∈ ledger.log) {userId : UUID} {key : String}
    {course : CourseRecord} (isKey : call.key = some key)
    (subject : ledger.tables.Subject call.who userId)
    (recorded : ⟨userId, key, course.id⟩ ∈ ledger.tables.creations)
    (stored : course ∈ ledger.tables.courses) : course.title = call.title := by
  obtain ⟨caller, returned⟩ := sound.entries _ logged
  have own := returned.creation key isKey
  rw [returned.subject.unique sound.constraints subject] at own
  have same := sound.constraints.creationKeys.eq_of_key recorded own rfl
  have sameId : course.id = view.id := congrArg CourseCreation.courseId same
  obtain ⟨created, createdStored, isCreated, title⟩ := returned.course
  rw [← title, sound.constraints.courseIds.eq_of_key stored createdStored
    (sameId.trans isCreated.symm)]

/-- In every interleaving, with transactions aborted anywhere: a key names one course for
its user, and only the first of the calls under it that returned left a course; a course
that was returned has the caller as its teacher, who can read it; a call is refused exactly
when its user has a course of another title under the key, and leaves nothing. -/
theorem createCourse_idempotent (constraints : origin.Constraints) (complete : origin.Complete)
    (run : CreationRun origin pool) :
    (pool.shared.log.Pairwise fun earlier later => ∀ first second one two left left',
      earlier = .course first (.ok one) left → later = .course second (.ok two) left' →
        first.who = second.who → first.key = second.key → first.key ≠ none →
          two.id = one.id ∧ two.title = one.title ∧ second.title = first.title ∧
            left'.courses = []) ∧
      (∀ call view left, .course call (.ok view) left ∈ pool.shared.log →
        view.title = call.title ∧
          (∃ userId, pool.shared.tables.Subject call.who userId ∧
            ⟨view.id, userId, .teacher⟩ ∈ pool.shared.tables.memberships ∧
            ∀ key, call.key = some key → ⟨userId, key, view.id⟩ ∈ pool.shared.tables.creations) ∧
          ∃ shown, getCourse pool.shared.tables call.who view.id = .ok shown ∧
            shown.id = view.id ∧ shown.title = call.title ∧ shown.role = .teacher) ∧
      (∀ call failure left, .course call (.error failure) left ∈ pool.shared.log →
        failure = keyReused ∧ left = ∅ ∧ ∃ userId key course,
          call.key = some key ∧ pool.shared.tables.Subject call.who userId ∧
            ⟨userId, key, course.id⟩ ∈ pool.shared.tables.creations ∧
            course ∈ pool.shared.tables.courses ∧ course.title ≠ call.title) ∧
      ∀ call result left, .course call result left ∈ pool.shared.log →
        ((∃ failure, result = .error failure) ↔ ∃ userId key course,
          call.key = some key ∧ pool.shared.tables.Subject call.who userId ∧
            ⟨userId, key, course.id⟩ ∈ pool.shared.tables.creations ∧
            course ∈ pool.shared.tables.courses ∧ course.title ≠ call.title) := by
  have sound := (creation_sound constraints complete run).state
  refine ⟨?_, fun call view left logged => ?_, fun call failure left logged => ?_,
    fun call result left logged => ?_⟩
  · have listed := List.pairwise_of_forall_mem_list
      (r := fun earlier later => earlier ∈ pool.shared.log ∧ later ∈ pool.shared.log)
      fun earlier known later known' => ⟨known, known'⟩
    refine (sound.fresh.and listed).imp ?_
    rintro earlier later ⟨fresh, inEarlier, inLater⟩
    intro first second one two left left' isEarlier isLater sameCaller sameKey keyed
    obtain ⟨sameId, sameTitle, asked⟩ := sound.same_course inEarlier inLater isEarlier isLater
      sameCaller sameKey keyed
    refine ⟨sameId, sameTitle, asked, List.eq_nil_iff_forall_not_mem.mpr fun course isNew => ?_⟩
    rw [isLater] at fresh inLater
    obtain ⟨_, returned⟩ := sound.entries _ inLater
    exact fresh first one left isEarlier course isNew ((returned.created course isNew).trans sameId)
  · obtain ⟨userId, returned⟩ := sound.entries _ logged
    obtain ⟨course, stored, isCourse, title⟩ := returned.course
    have member := returned.membership
    rw [← isCourse] at member ⊢
    refine ⟨returned.title, ⟨userId, returned.subject, member, fun key isKey => ?_⟩,
      viewOf course, ?_, rfl, title, rfl⟩
    · rw [isCourse]
      exact returned.creation key isKey
    · rw [getCourse, memberships_eq_singleton sound.constraints stored member returned.subject]
      rfl
  · obtain ⟨empty, key, userId, course, refused⟩ := sound.entries _ logged
    exact ⟨refused.reused, empty, userId, key, course, refused.isKey, refused.subject,
      refused.creation, refused.stored, refused.title⟩
  · constructor
    · rintro ⟨failure, rfl⟩
      obtain ⟨_, key, userId, course, refused⟩ := sound.entries _ logged
      exact ⟨userId, key, course, refused.isKey, refused.subject, refused.creation,
        refused.stored, refused.title⟩
    · rintro ⟨userId, key, course, isKey, subject, recorded, stored, otherTitle⟩
      cases result with
      | error failure => exact ⟨failure, rfl⟩
      | ok view => exact absurd (sound.title_of_recorded logged isKey subject recorded stored) otherTitle

/-- Every course is of the origin or was created and returned by a call, and nobody but
its caller is a member of it or can read it. -/
theorem courses_isolated (constraints : origin.Constraints) (complete : origin.Complete)
    (run : CreationRun origin pool) {course : CourseRecord}
    (stored : course ∈ pool.shared.tables.courses) : course ∈ origin.courses ∨
      ∃ call view left, .course call (.ok view) left ∈ pool.shared.log ∧
        course ∈ left.courses ∧ view.id = course.id ∧
        (∀ row ∈ pool.shared.tables.memberships, row.courseId = course.id →
          pool.shared.tables.Subject call.who row.userId) ∧
        ∀ who shown, getCourse pool.shared.tables who course.id = .ok shown → who = call.who := by
  have sound := (creation_sound constraints complete run).state
  rcases sound.provenance course stored with isOrigin | ⟨call, view, left, logged, isNew⟩
  · exact .inl isOrigin
  · have creators := sound.creators _ logged course isNew
    obtain ⟨_, returned⟩ := sound.entries _ logged
    refine .inr ⟨call, view, left, logged, isNew, (returned.created course isNew).symm,
      creators, fun who shown isShown => ?_⟩
    rw [getCourse] at isShown
    split at isShown
    · cases isShown
    · next row role selected =>
        have listed : (row, role) ∈ memberships pool.shared.tables who course.id := by
          rw [selected]
          exact List.mem_singleton.mpr rfl
        obtain ⟨_, member, isMember, isCourse, subject⟩ := subject_of_memberships listed
        exact subject.injective sound.constraints (creators member isMember isCourse)
    · cases isShown

/-- Two calls that returned name one conversation exactly when they are one caller's, for one
course and under one key; a call raises nothing but that the course was not found, and
what it leaves is its caller's. -/
theorem createConversation_idempotent (constraints : origin.Constraints)
    (complete : origin.Complete) (run : CreationRun origin pool) :
    (∀ first second one two left left',
      .conversation first (.ok one) left ∈ pool.shared.log →
        .conversation second (.ok two) left' ∈ pool.shared.log →
          (one.id = two.id ↔ first = second)) ∧
      (∀ call view left, .conversation call (.ok view) left ∈ pool.shared.log →
        view.courseId = call.courseId ∧
          ∀ row ∈ left.conversations, pool.shared.tables.Subject call.who row.ownerUserId) ∧
      ∀ call failure left, .conversation call (.error failure) left ∈ pool.shared.log →
        failure = ConversationService.notFound ∧ left = ∅ := by
  have sound := (creation_sound constraints complete run).state
  refine ⟨fun first second one two left left' inFirst inSecond => ?_,
    fun call view left logged => ?_, fun call failure left logged => ?_⟩
  · have isFirst : ConversationReturned _ _ _ _ := sound.entries _ inFirst
    have isSecond : ConversationReturned _ _ _ _ := sound.entries _ inSecond
    obtain ⟨row, stored, isOne, _, inCourse, hasKey, owner⟩ := isFirst.conversation
    obtain ⟨row', stored', isTwo, _, inCourse', hasKey', owner'⟩ := isSecond.conversation
    constructor
    · intro sameId
      have sameRow := sound.constraints.conversationIds.eq_of_key stored stored'
        (isOne.trans (sameId.trans isTwo.symm))
      rw [sameRow] at inCourse hasKey owner
      cases first
      cases second
      rw [ConversationCall.mk.injEq]
      exact ⟨owner.injective sound.constraints owner', inCourse.symm.trans inCourse',
        hasKey.symm.trans hasKey'⟩
    · rintro rfl
      have sameOwner := owner.unique sound.constraints owner'
      have sameRow := sound.constraints.conversationCreations.eq_of_key stored stored'
        (by rw [inCourse, inCourse', sameOwner, hasKey, hasKey'])
      rw [← isOne, ← isTwo, sameRow]
  · have returned : ConversationReturned _ _ _ _ := sound.entries _ logged
    obtain ⟨row, _, _, isCourse, asked, _⟩ := returned.conversation
    exact ⟨isCourse.symm.trans asked, returned.owned⟩
  · obtain ⟨empty, missing⟩ := sound.entries _ logged
    exact ⟨missing, empty⟩

/-- Recording a key never waits and never conflicts: the row lock of the user already
excludes everyone who could record it. -/
theorem insertCreation_free (constraints : origin.Constraints) (complete : origin.Complete)
    (run : CreationRun origin pool) {earlier later : List Session} {call : CourseCall}
    {userId : UUID} {course : CourseRecord} {written : Catalog} {held : Option UUID} {key : String}
    (active : pool.active =
      earlier ++ ⟨.createCourse call (.flushed userId course), written, held⟩ :: later)
    (isKey : call.key = some key) :
    Free (pool.shared.tables ++ written) (earlier ++ later)
      (creationRow userId key course.id) := by
  have sound := creation_sound constraints complete run
  have own := sound.beside ⟨.createCourse call (.flushed userId course), written, held⟩
    (active ▸ List.perm_middle.mem_iff.mpr List.mem_cons_self)
  have apart := sound.apart
  rw [active, pairwise_middle fun _ _ apart => Session.Apart.symm apart] at apart
  obtain ⟨_, unclaimed, _, _, none, _⟩ := own.phase
  obtain ⟨locks, absent⟩ := unclaimed key isKey
  intro entry isEntry
  obtain rfl : entry = .creation userId key := by
    simpa [creationRow, Catalog.indexKeys, EmptyCollection.emptyCollection] using isEntry
  refine ⟨fun member => ?_, fun other isOther member => ?_⟩
  · rcases Catalog.mem_indexKeys_append.mp member with inTables | inWritten
    · exact absent inTables
    · obtain ⟨row, known, _⟩ := Catalog.creation_mem_indexKeys.mp inWritten
      rw [none] at known
      cases known
  · have beside := sound.beside other
      (active ▸ List.perm_middle.mem_iff.mpr (List.mem_cons_of_mem _ isOther))
    obtain ⟨row, known, isUser, _⟩ := Catalog.creation_mem_indexKeys.mp member
    have locked := beside.committable.locked row known
    rw [isUser] at locked
    exact (apart.2 other isOther).locks userId locks locked

end Results

/-! ### A run -/

/-- A learner who creates the course twice at once, and then a conversation twice. -/
def algebraTeacher : AuthenticatedIdentity where
  issuer := "issuer"
  subject := "ana"

def algebraCall : CourseCall where
  who := algebraTeacher
  title := "Algebra"
  key := some "k"

def algebra : CourseRecord :=
  newCourse (.ofNat 2) "Algebra" 0

def algebraChat : ConversationCall where
  who := algebraTeacher
  courseId := .ofNat 2
  key := "c"

def creating (phase : CoursePhase) (written : Catalog) (held : Option UUID) : Session :=
  ⟨.createCourse algebraCall phase, written, held⟩

def chatting (phase : ConversationPhase) (written : Catalog) : Session :=
  ⟨.createConversation algebraChat phase, written, none⟩

/-- What the first call has written before it records its key. -/
def unrecordedRows : Catalog :=
  ∅ ++ userRow (.ofNat 1) algebraTeacher ++ ∅ ++ ∅ ++ ∅ ++ courseRows (.ofNat 1) algebra

/-- What the first call leaves. -/
def algebraRows : Catalog :=
  unrecordedRows ++ creationRow (.ofNat 1) "k" (.ofNat 2)

def algebraChats : Catalog :=
  ∅ ++ ∅ ++ conversationRow (algebraChat.newConversation (.ofNat 1) (.ofNat 3) 0) ++ ∅

def algebraView : ConversationView where
  id := .ofNat 3
  courseId := .ofNat 2
  createdAt := 0

def algebraLedger : CreationLedger where
  tables := ∅ ++ algebraRows ++ (∅ ++ ∅ ++ ∅ ++ ∅ ++ ∅)
  log :=
    [.course algebraCall (.ok (viewOf algebra)) algebraRows,
      .course algebraCall (.ok (viewOf algebra)) (∅ ++ ∅ ++ ∅ ++ ∅ ++ ∅)]

/-- The second call begins before the first has ended. -/
theorem run_flushed : CreationRun ∅ ⟨⟨∅, []⟩,
    [creating (.flushed (.ofNat 1) algebra) unrecordedRows (some (.ofNat 1)),
      creating .begun ∅ none]⟩ := by
  have idle : CreationRun ∅ ⟨⟨∅, []⟩, []⟩ := .of_start ⟨rfl, rfl⟩
  have begun := (idle.tail (.start _ _ _ (.createCourse algebraTeacher "Algebra" (some "k")
    (some "k") rfl))).tail (.start _ _ _ (.createCourse algebraTeacher "Algebra" (some "k")
    (some "k") rfl))
  have upserted := begun.tail (.statement _ [] [creating .begun ∅ none] _ _
    (.createCourse _ _ _ _ _ _ _ (.insertUser (.ofNat 1) (by unfold Free; decide))))
  have identified := upserted.tail (.statement _ [] [creating .begun ∅ none] _ _
    (.createCourse _ _ _ _ _ _ _ (.proposed (.ofNat 1))))
  have locked := identified.tail (.statement _ [] [creating .begun ∅ none] _ _
    (.createCourse _ _ _ _ _ _ _ (.lockUser (.ofNat 1) rfl (by decide))))
  have unclaimed := locked.tail (.statement _ [] [creating .begun ∅ none] _ _
    (.createCourse _ _ _ _ _ _ _ (.unclaimed (.ofNat 1) "k" rfl (by decide))))
  exact unclaimed.tail (.statement _ [] [creating .begun ∅ none] _ _
    (.createCourse _ _ _ _ _ _ _ (.insertCourse (.ofNat 1) (.ofNat 2) 0 (by unfold Free; decide))))

/-- The second call waits for the first, and is shown its course. -/
theorem run_algebra : CreationRun ∅ ⟨algebraLedger, []⟩ := by
  have recorded := run_flushed.tail (.statement _ [] [creating .begun ∅ none] _ _
    (.createCourse _ _ _ _ _ _ _ (.insertCreation (.ofNat 1) "k" algebra rfl
      (by unfold Free; decide))))
  have committed := recorded.tail (.finish _ _ [] [creating .begun ∅ none] _ (.commitCourse _ _ _ _))
  have conflicted := committed.tail (.statement _ [] [] _ _
    (.createCourse _ _ _ _ _ _ _ (.conflict ⟨.ofNat 1, "issuer", "ana"⟩ (by decide))))
  have found := conflicted.tail (.statement _ [] [] _ _
    (.createCourse _ _ _ _ _ _ _ (.selectUser ⟨.ofNat 1, "issuer", "ana"⟩ (by decide))))
  have relocked := found.tail (.statement _ [] [] _ _
    (.createCourse _ _ _ _ _ _ _ (.lockUser (.ofNat 1) rfl (by decide))))
  have repeated := relocked.tail (.statement _ [] [] _ _
    (.createCourse _ _ _ _ _ _ _ (.repeated (.ofNat 1) "k" algebra (viewOf algebra) rfl
      (by decide) (by rfl))))
  exact repeated.tail (.finish _ _ [] [] _ (.commitCourse _ _ _ _))

/-- Another course under the key of the algebra course. -/
def geometryCall : CourseCall where
  who := algebraTeacher
  title := "Geometry"
  key := some "k"

def geometryLedger : CreationLedger where
  tables := algebraLedger.tables
  log := algebraLedger.log ++ [.course geometryCall (.error keyReused) ∅]

/-- A third call asks for another title under the key, and is refused. -/
theorem run_geometry : CreationRun ∅ ⟨geometryLedger, []⟩ := by
  have begun := run_algebra.tail (.start _ _ _ (.createCourse algebraTeacher "Geometry" (some "k")
    (some "k") rfl))
  have conflicted := begun.tail (.statement _ [] [] _ _
    (.createCourse _ _ _ _ _ _ _ (.conflict ⟨.ofNat 1, "issuer", "ana"⟩ (by decide))))
  have found := conflicted.tail (.statement _ [] [] _ _
    (.createCourse _ _ _ _ _ _ _ (.selectUser ⟨.ofNat 1, "issuer", "ana"⟩ (by decide))))
  have locked := found.tail (.statement _ [] [] _ _
    (.createCourse _ _ _ _ _ _ _ (.lockUser (.ofNat 1) rfl (by decide))))
  have refused := locked.tail (.statement _ [] [] _ _
    (.createCourse _ _ _ _ _ _ _ (.refuse (.ofNat 1) "k" algebra keyReused rfl
      (by decide) (by rfl))))
  exact refused.tail (.finish _ _ [] [] _ (.refuseCourse _ _ _ _))

/-- The same learner asks under another key. -/
def secondChat : ConversationCall where
  who := algebraTeacher
  courseId := .ofNat 2
  key := "d"

def secondChats : Catalog :=
  ∅ ++ ∅ ++ conversationRow (secondChat.newConversation (.ofNat 1) (.ofNat 4) 0) ++ ∅

def secondView : ConversationView where
  id := .ofNat 4
  courseId := .ofNat 2
  createdAt := 0

/-- Someone who is not a member asks. -/
def strangerChat : ConversationCall where
  who := { issuer := "issuer", subject := "bob" }
  courseId := .ofNat 2
  key := "c"

def chatLedger : CreationLedger where
  tables := algebraLedger.tables ++ algebraChats ++ (∅ ++ ∅ ++ ∅ ++ ∅) ++ secondChats
  log := algebraLedger.log ++
    [.conversation algebraChat (.ok algebraView) algebraChats] ++
      [.conversation algebraChat (.ok algebraView) (∅ ++ ∅ ++ ∅ ++ ∅)] ++
        [.conversation secondChat (.ok secondView) secondChats] ++
          [.conversation strangerChat (.error ConversationService.notFound) ∅]

/-- Two conversations are asked for under one key, where the second insert conflicts; then
one under another key, and one by someone who is not a member. -/
theorem run_chats : CreationRun ∅ ⟨chatLedger, []⟩ := by
  have begun := (run_algebra.tail (.start _ _ _ (.createConversation algebraTeacher (.ofNat 2)
    (some "c") "c" rfl))).tail (.start _ _ _ (.createConversation algebraTeacher (.ofNat 2)
    (some "c") "c" rfl))
  have joined := begun.tail (.statement _ [] [chatting .begun ∅] _ _
    (.createConversation _ _ _ _ _ _ (.join (.ofNat 1) rfl)))
  have inserted := joined.tail (.statement _ [] [chatting .begun ∅] _ _
    (.createConversation _ _ _ _ _ _ (.insert (.ofNat 1) (.ofNat 3) 0 (by unfold Free; decide))))
  have selected := inserted.tail (.statement _ [] [chatting .begun ∅] _ _
    (.createConversation _ _ _ _ _ _ (.select (.ofNat 1)
      (algebraChat.newConversation (.ofNat 1) (.ofNat 3) 0) (by decide))))
  have committed := selected.tail (.finish _ _ [] [chatting .begun ∅] _
    (.commitConversation _ _ _ _))
  have rejoined := committed.tail (.statement _ [] [] _ _
    (.createConversation _ _ _ _ _ _ (.join (.ofNat 1) rfl)))
  have conflicted := rejoined.tail (.statement _ [] [] _ _
    (.createConversation _ _ _ _ _ _ (.conflict (.ofNat 1) (by decide))))
  have found := conflicted.tail (.statement _ [] [] _ _
    (.createConversation _ _ _ _ _ _ (.select (.ofNat 1)
      (algebraChat.newConversation (.ofNat 1) (.ofNat 3) 0) (by decide))))
  have repeated := found.tail (.finish _ _ [] [] _ (.commitConversation _ _ _ _))
  have asked := repeated.tail (.start _ _ _ (.createConversation algebraTeacher (.ofNat 2)
    (some "d") "d" rfl))
  have belongs := asked.tail (.statement _ [] [] _ _
    (.createConversation _ _ _ _ _ _ (.join (.ofNat 1) rfl)))
  have added := belongs.tail (.statement _ [] [] _ _
    (.createConversation _ _ _ _ _ _ (.insert (.ofNat 1) (.ofNat 4) 0 (by unfold Free; decide))))
  have shown := added.tail (.statement _ [] [] _ _
    (.createConversation _ _ _ _ _ _ (.select (.ofNat 1)
      (secondChat.newConversation (.ofNat 1) (.ofNat 4) 0) (by decide))))
  have second := shown.tail (.finish _ _ [] [] _ (.commitConversation _ _ _ _))
  have stranger := second.tail (.start _ _ _ (.createConversation strangerChat.who (.ofNat 2)
    (some "c") "c" rfl))
  have refused := stranger.tail (.statement _ [] [] _ _
    (.createConversation _ _ _ _ _ _ (.refuse ConversationService.notFound rfl)))
  exact refused.tail (.finish _ _ [] [] _ (.refuseConversation _ _ _ _))

/-- Both calls for algebra name one course, which only the first one left and its teacher
can read; the call for geometry leaves nothing. -/
theorem createCourse_idempotent_of_sample :
    (geometryLedger.log.Pairwise fun earlier later => ∀ one two left left',
      earlier = .course algebraCall (.ok one) left → later = .course algebraCall (.ok two) left' →
        two.id = one.id ∧ left'.courses = []) ∧
      (∃ shown, getCourse geometryLedger.tables algebraTeacher (.ofNat 2) = .ok shown ∧
        shown.title = "Algebra" ∧ shown.role = .teacher) ∧
      ∀ failure left, .course geometryCall (.error failure) left ∈ geometryLedger.log →
        failure = keyReused ∧ left = ∅ := by
  obtain ⟨names, returned, refused, _⟩ :=
    createCourse_idempotent Catalog.constraints_empty Catalog.complete_empty run_geometry
  obtain ⟨_, _, shown, isShown, _, title, role⟩ :=
    returned algebraCall (viewOf algebra) algebraRows List.mem_cons_self
  refine ⟨names.imp ?_, ⟨shown, isShown, title, role⟩, ?_⟩
  · intro earlier later same one two left left' isEarlier isLater
    obtain ⟨sameId, _, _, empty⟩ := same _ _ one two left left' isEarlier isLater rfl rfl
      (Option.some_ne_none "k")
    exact ⟨sameId, empty⟩
  · intro failure left logged
    obtain ⟨reused, empty, _⟩ := refused _ failure left logged
    exact ⟨reused, empty⟩

/-- The algebra course was left by a logged call, and only its caller can read it. -/
theorem courses_isolated_of_sample : ∃ call view left,
    .course call (.ok view) left ∈ algebraLedger.log ∧ algebra ∈ left.courses ∧
      view.id = .ofNat 2 ∧
      ∀ who shown, getCourse algebraLedger.tables who (.ofNat 2) = .ok shown → who = call.who := by
  have stored : algebra ∈ algebraLedger.tables.courses := by decide
  rcases courses_isolated Catalog.constraints_empty Catalog.complete_empty run_algebra stored with
    isOrigin | ⟨call, view, left, logged, isNew, isView, _, readers⟩
  · cases isOrigin
  · exact ⟨call, view, left, logged, isNew, isView, readers⟩

/-- One key is one conversation, another key another one, and the stranger gets none. -/
theorem createConversation_idempotent_of_sample :
    (∀ one two left left', .conversation algebraChat (.ok one) left ∈ chatLedger.log →
      .conversation algebraChat (.ok two) left' ∈ chatLedger.log → one.id = two.id) ∧
      algebraView.id ≠ secondView.id ∧
      (∀ row ∈ secondChats.conversations, chatLedger.tables.Subject algebraTeacher row.ownerUserId) ∧
      ∀ failure left, .conversation strangerChat (.error failure) left ∈ chatLedger.log →
        failure = ConversationService.notFound ∧ left = ∅ := by
  obtain ⟨names, returned, refused⟩ :=
    createConversation_idempotent Catalog.constraints_empty Catalog.complete_empty run_chats
  have first : CreationEntry.conversation algebraChat (.ok algebraView) algebraChats ∈
      chatLedger.log := by
    simp only [chatLedger, List.mem_append, List.mem_cons, true_or, or_true]
  have second : CreationEntry.conversation secondChat (.ok secondView) secondChats ∈
      chatLedger.log := by
    simp only [chatLedger, List.mem_append, List.mem_cons, true_or, or_true]
  refine ⟨?_, ?_, (returned _ _ _ second).2, refused strangerChat⟩
  · exact fun one two left left' inFirst inSecond => (names _ _ _ _ _ _ inFirst inSecond).mpr rfl
  · intro sameId
    have sameCall := (names _ _ _ _ _ _ first second).mp sameId
    exact absurd sameCall (by decide)

/-- The first call may record its key while the second one waits. -/
theorem insertCreation_free_of_sample : Free (∅ ++ unrecordedRows) [creating .begun ∅ none]
    (creationRow (.ofNat 1) "k" (.ofNat 2)) := by
  have active : (Pool.mk (⟨∅, []⟩ : CreationLedger)
      [creating (.flushed (.ofNat 1) algebra) unrecordedRows (some (.ofNat 1)),
        creating .begun ∅ none]).active =
      [] ++ creating (.flushed (.ofNat 1) algebra) unrecordedRows (some (.ofNat 1)) ::
        [creating .begun ∅ none] := rfl
  exact insertCreation_free Catalog.constraints_empty Catalog.complete_empty run_flushed active rfl

end Docta
