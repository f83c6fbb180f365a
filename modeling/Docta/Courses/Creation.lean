/-
Module: Docta.Courses.Creation
Purpose: Creation under a key is idempotent in every interleaving. A course comes with
  its membership and the record of its key, a repeated call finds the course of the
  first one, and nobody is shown what another user created.
Trusted boundary: as in `CourseService`
Main exports: CreationLedger.Sound, Session.Sound, creation_rules
-/
import Docta.Courses.CourseService

namespace Docta

open Fallible Interleaving Table Transition CourseService

/-! ### Tables put together -/

namespace Catalog

variable {first second third rows tables other : Catalog}

theorem append_def (first second : Catalog) : first ++ second =
    { users := first.users ++ second.users
      memberships := first.memberships ++ second.memberships
      courses := first.courses ++ second.courses
      creations := first.creations ++ second.creations
      conversations := first.conversations ++ second.conversations } := rfl

@[simp] theorem users_append : (first ++ second).users = first.users ++ second.users := rfl

@[simp] theorem memberships_append :
    (first ++ second).memberships = first.memberships ++ second.memberships := rfl

@[simp] theorem courses_append : (first ++ second).courses = first.courses ++ second.courses := rfl

@[simp] theorem creations_append :
    (first ++ second).creations = first.creations ++ second.creations := rfl

@[simp] theorem conversations_append :
    (first ++ second).conversations = first.conversations ++ second.conversations := rfl

theorem append_assoc (first second third : Catalog) :
    first ++ second ++ third = first ++ (second ++ third) := by
  simp only [append_def, List.append_assoc]

theorem append_empty (tables : Catalog) : tables ++ ∅ = tables := by
  rw [append_def]
  simp only [EmptyCollection.emptyCollection, List.append_nil]

theorem empty_append (tables : Catalog) : ∅ ++ tables = tables := by
  rw [append_def]
  simp only [EmptyCollection.emptyCollection, List.nil_append]

theorem indexKeys_empty : (∅ : Catalog).indexKeys = [] := rfl

/-- The entries of tables put together are the entries of both. -/
theorem perm_indexKeys :
    (first ++ second).indexKeys.Perm (first.indexKeys ++ second.indexKeys) := by
  rw [List.perm_iff_count]
  intro key
  simp only [indexKeys, users_append, memberships_append, courses_append, creations_append,
    conversations_append, List.map_append, List.count_append]
  omega

@[simp] theorem mem_indexKeys_append {key : IndexKey} :
    key ∈ (first ++ second).indexKeys ↔ key ∈ first.indexKeys ∨ key ∈ second.indexKeys := by
  rw [perm_indexKeys.mem_iff, List.mem_append]

theorem nodup_indexKeys_append : (first ++ second).indexKeys.Nodup ↔
    first.indexKeys.Nodup ∧ second.indexKeys.Nodup ∧
      ∀ key ∈ first.indexKeys, key ∉ second.indexKeys := by
  rw [perm_indexKeys.nodup_iff, List.nodup_append]
  constructor
  · rintro ⟨unique, unique', apart⟩
    exact ⟨unique, unique', fun key member member' => apart key member key member' rfl⟩
  · rintro ⟨unique, unique', apart⟩
    refine ⟨unique, unique', fun key member key' member' same => ?_⟩
    rw [← same] at member'
    exact apart key member member'

theorem course_mem_indexKeys {id : UUID} :
    .course id ∈ tables.indexKeys ↔ ∃ row ∈ tables.courses, row.id = id := by
  simp [indexKeys]

theorem creation_mem_indexKeys {userId : UUID} {key : String} :
    .creation userId key ∈ tables.indexKeys ↔
      ∃ row ∈ tables.creations, row.userId = userId ∧ row.idempotencyKey = key := by
  simp [indexKeys]

/-! ### Tables that grow -/

/-- Every row is kept. -/
structure Within (first second : Catalog) : Prop where
  users : ∀ row ∈ first.users, row ∈ second.users
  memberships : ∀ row ∈ first.memberships, row ∈ second.memberships
  courses : ∀ row ∈ first.courses, row ∈ second.courses
  creations : ∀ row ∈ first.creations, row ∈ second.creations
  conversations : ∀ row ∈ first.conversations, row ∈ second.conversations

theorem within_append_left (first second : Catalog) : first.Within (first ++ second) where
  users := fun _ => List.mem_append_left _
  memberships := fun _ => List.mem_append_left _
  courses := fun _ => List.mem_append_left _
  creations := fun _ => List.mem_append_left _
  conversations := fun _ => List.mem_append_left _

theorem within_append_right (first second : Catalog) : second.Within (first ++ second) where
  users := fun _ => List.mem_append_right _
  memberships := fun _ => List.mem_append_right _
  courses := fun _ => List.mem_append_right _
  creations := fun _ => List.mem_append_right _
  conversations := fun _ => List.mem_append_right _

theorem Within.trans (one : first.Within second) (two : second.Within third) :
    first.Within third where
  users := fun row member => two.users row (one.users row member)
  memberships := fun row member => two.memberships row (one.memberships row member)
  courses := fun row member => two.courses row (one.courses row member)
  creations := fun row member => two.creations row (one.creations row member)
  conversations := fun row member => two.conversations row (one.conversations row member)

/-- Tables put together are within what both of them are within. -/
theorem append_within (one : first.Within tables) (two : second.Within tables) :
    (first ++ second).Within tables where
  users := fun row member => (List.mem_append.mp member).elim (one.users row) (two.users row)
  memberships := fun row member =>
    (List.mem_append.mp member).elim (one.memberships row) (two.memberships row)
  courses := fun row member => (List.mem_append.mp member).elim (one.courses row) (two.courses row)
  creations := fun row member =>
    (List.mem_append.mp member).elim (one.creations row) (two.creations row)
  conversations := fun row member =>
    (List.mem_append.mp member).elim (one.conversations row) (two.conversations row)

theorem append_within_append (grows : first.Within second) (rows : Catalog) :
    (first ++ rows).Within (second ++ rows) :=
  append_within (grows.trans (within_append_left second rows)) (within_append_right second rows)

theorem empty_within (tables : Catalog) : (∅ : Catalog).Within tables :=
  ⟨nofun, nofun, nofun, nofun, nofun⟩

theorem References.mono (refer : rows.References tables) (grows : tables.Within other) :
    rows.References other where
  membershipCourse := fun row member =>
    (refer.membershipCourse row member).imp fun _ found => ⟨grows.courses _ found.1, found.2⟩
  membershipUser := fun row member =>
    (refer.membershipUser row member).imp fun _ found => ⟨grows.users _ found.1, found.2⟩
  creationCourse := fun row member =>
    (refer.creationCourse row member).imp fun _ found => ⟨grows.courses _ found.1, found.2⟩
  creationUser := fun row member =>
    (refer.creationUser row member).imp fun _ found => ⟨grows.users _ found.1, found.2⟩
  conversationCourse := fun row member =>
    (refer.conversationCourse row member).imp fun _ found => ⟨grows.courses _ found.1, found.2⟩
  conversationOwner := fun row member =>
    (refer.conversationOwner row member).imp fun _ found => ⟨grows.users _ found.1, found.2⟩

/-- Fewer rows refer to less. -/
theorem References.of_within (refer : rows.References tables) (fewer : first.Within rows) :
    first.References tables where
  membershipCourse := fun row member => refer.membershipCourse row (fewer.memberships row member)
  membershipUser := fun row member => refer.membershipUser row (fewer.memberships row member)
  creationCourse := fun row member => refer.creationCourse row (fewer.creations row member)
  creationUser := fun row member => refer.creationUser row (fewer.creations row member)
  conversationCourse := fun row member =>
    refer.conversationCourse row (fewer.conversations row member)
  conversationOwner := fun row member =>
    refer.conversationOwner row (fewer.conversations row member)

theorem References.append (one : first.References tables) (two : second.References tables) :
    (first ++ second).References tables where
  membershipCourse := fun row member =>
    (List.mem_append.mp member).elim (one.membershipCourse row) (two.membershipCourse row)
  membershipUser := fun row member =>
    (List.mem_append.mp member).elim (one.membershipUser row) (two.membershipUser row)
  creationCourse := fun row member =>
    (List.mem_append.mp member).elim (one.creationCourse row) (two.creationCourse row)
  creationUser := fun row member =>
    (List.mem_append.mp member).elim (one.creationUser row) (two.creationUser row)
  conversationCourse := fun row member =>
    (List.mem_append.mp member).elim (one.conversationCourse row) (two.conversationCourse row)
  conversationOwner := fun row member =>
    (List.mem_append.mp member).elim (one.conversationOwner row) (two.conversationOwner row)

/-! ### Constraints -/

/-- Rows with new entries that refer to what is there keep the constraints. -/
theorem Constraints.append (constraints : tables.Constraints) (unique : rows.indexKeys.Nodup)
    (fresh : ∀ key ∈ rows.indexKeys, key ∉ tables.indexKeys)
    (refer : rows.References (tables ++ rows)) : (tables ++ rows).Constraints where
  unique := nodup_indexKeys_append.mpr
    ⟨constraints.unique, unique, fun key member inRows => fresh key inRows member⟩
  references :=
    (constraints.references.mono (within_append_left tables rows)).append refer

/-- What two transactions wrote apart from each other can be committed one after the
other. -/
theorem Constraints.merge (one : (tables ++ first).Constraints)
    (two : (tables ++ second).Constraints)
    (apart : ∀ key ∈ first.indexKeys, key ∉ second.indexKeys) :
    (tables ++ first ++ second).Constraints := by
  obtain ⟨_, unique, fresh⟩ := nodup_indexKeys_append.mp two.unique
  apply one.append unique
  · intro key inSecond member
    rcases mem_indexKeys_append.mp member with inTables | inFirst
    · exact fresh key inTables inSecond
    · exact apart key inFirst inSecond
  · have refer := two.references.of_within (within_append_right tables second)
    exact refer.mono (append_within_append (within_append_left tables first) second)

/-- The rows of a table have one entry each in an index. -/
theorem uniqueOn_of_indexKeys {α β : Type} [DecidableEq β] {list : List α} {key : α → β}
    (entry : β → IndexKey) (unique : tables.indexKeys.Nodup)
    (listed : (list.map fun row => entry (key row)).Sublist tables.indexKeys) :
    UniqueOn key list := by
  have distinct := listed.nodup unique
  rw [← Function.comp_def entry key, ← List.map_map] at distinct
  exact distinct.of_map

section Unique

variable (constraints : tables.Constraints)

include constraints

theorem Constraints.userIds : UniqueOn (·.id) tables.users := by
  apply uniqueOn_of_indexKeys IndexKey.user constraints.unique
  simp only [indexKeys, List.append_assoc]
  exact List.sublist_append_left _ _

theorem Constraints.oidcIdentities :
    UniqueOn (fun row => (row.oidcIssuer, row.oidcSubject)) tables.users := by
  apply uniqueOn_of_indexKeys (fun pair => IndexKey.oidcIdentity pair.1 pair.2) constraints.unique
  simp only [indexKeys, List.append_assoc]
  exact (List.sublist_append_left _ _).trans (List.sublist_append_right _ _)

theorem Constraints.membershipKeys :
    UniqueOn (fun row => (row.courseId, row.userId)) tables.memberships := by
  apply uniqueOn_of_indexKeys (fun pair => IndexKey.membership pair.1 pair.2) constraints.unique
  simp only [indexKeys]
  iterate 4 apply (List.sublist_append_of_sublist_left _)
  exact List.sublist_append_right _ _

theorem Constraints.courseIds : UniqueOn (fun row : CourseRecord => row.id) tables.courses := by
  apply uniqueOn_of_indexKeys IndexKey.course constraints.unique
  simp only [indexKeys]
  iterate 3 apply (List.sublist_append_of_sublist_left _)
  exact List.sublist_append_right _ _

theorem Constraints.creationKeys :
    UniqueOn (fun row => (row.userId, row.idempotencyKey)) tables.creations := by
  apply uniqueOn_of_indexKeys (fun pair => IndexKey.creation pair.1 pair.2) constraints.unique
  simp only [indexKeys]
  iterate 2 apply (List.sublist_append_of_sublist_left _)
  exact List.sublist_append_right _ _

theorem Constraints.conversationIds : UniqueOn (·.id) tables.conversations := by
  apply uniqueOn_of_indexKeys IndexKey.conversation constraints.unique
  simp only [indexKeys]
  apply List.sublist_append_of_sublist_left
  exact List.sublist_append_right _ _

theorem Constraints.conversationCreations : UniqueOn
    (fun row => (row.courseId, row.ownerUserId, row.idempotencyKey)) tables.conversations := by
  apply uniqueOn_of_indexKeys
    (fun key => IndexKey.conversationCreation key.1 key.2.1 key.2.2) constraints.unique
  exact List.sublist_append_right _ _

end Unique

end Catalog

/-! ### What holds of the tables -/

/-- The verified subject is the user. -/
def Catalog.Subject (tables : Catalog) (who : AuthenticatedIdentity) (userId : UUID) : Prop :=
  ∃ user ∈ tables.users, user.id = userId ∧ isSubject who user = true

/-- Whoever created a course under a key is its teacher. -/
def Catalog.Complete (tables : Catalog) : Prop :=
  ∀ row ∈ tables.creations, ⟨row.courseId, row.userId, .teacher⟩ ∈ tables.memberships

/-- What a returned `create_course` says of the tables: its course, under the asked title,
has the caller as its teacher and is recorded under the key, and the course it left, if
it left one, is the returned one. -/
structure CourseReturned (tables : Catalog) (call : CourseCall) (view : CourseView)
    (written : Catalog) (userId : UUID) : Prop where
  title : view.title = call.title
  subject : tables.Subject call.who userId
  membership : ⟨view.id, userId, .teacher⟩ ∈ tables.memberships
  course : ∃ course ∈ tables.courses, course.id = view.id ∧ course.title = call.title
  creation : ∀ key, call.key = some key → ⟨userId, key, view.id⟩ ∈ tables.creations
  kept : written.Within tables
  created : ∀ course ∈ written.courses, course.id = view.id

/-- What a refused `create_course` says of the tables: the caller created a course with
another title under the key. -/
structure CourseRefused (tables : Catalog) (call : CourseCall) (failure : Failure) (key : String)
    (userId : UUID) (course : CourseRecord) : Prop where
  reused : failure = keyReused
  isKey : call.key = some key
  subject : tables.Subject call.who userId
  creation : ⟨userId, key, course.id⟩ ∈ tables.creations
  stored : course ∈ tables.courses
  title : course.title ≠ call.title

/-- What a returned `ConversationService.create` says of the tables: its conversation is
the caller's, in the asked course and under the key. -/
structure ConversationReturned (tables : Catalog) (call : ConversationCall)
    (view : ConversationView) (written : Catalog) : Prop where
  conversation : ∃ row ∈ tables.conversations, row.id = view.id ∧ row.courseId = view.courseId ∧
    row.courseId = call.courseId ∧ row.idempotencyKey = call.key ∧
    tables.Subject call.who row.ownerUserId
  kept : written.Within tables
  owned : ∀ row ∈ written.conversations, tables.Subject call.who row.ownerUserId
  plain : written.courses = []

namespace CreationEntry

def who : CreationEntry → AuthenticatedIdentity
  | .course call _ _ => call.who
  | .conversation call _ _ => call.who

def written : CreationEntry → Catalog
  | .course _ _ written => written
  | .conversation _ _ written => written

/-- What the end of a call says of the tables. -/
def Holds (tables : Catalog) : CreationEntry → Prop
  | .course call (.ok view) written => ∃ userId, CourseReturned tables call view written userId
  | .course call (.error failure) written =>
      written = ∅ ∧ ∃ key userId course, CourseRefused tables call failure key userId course
  | .conversation call (.ok view) written => ConversationReturned tables call view written
  | .conversation _ (.error failure) written =>
      written = ∅ ∧ failure = ConversationService.notFound

end CreationEntry

/-- What holds of the committed tables, from an origin on. -/
structure CreationLedger.Sound (origin : Catalog) (ledger : CreationLedger) : Prop where
  constraints : ledger.tables.Constraints
  complete : ledger.tables.Complete
  entries : ∀ entry ∈ ledger.log, entry.Holds ledger.tables
  /-- the members of a new course are its creator -/
  creators : ∀ entry ∈ ledger.log, ∀ course ∈ entry.written.courses,
    ∀ row ∈ ledger.tables.memberships, row.courseId = course.id →
      ledger.tables.Subject entry.who row.userId
  /-- no call creates a course that another call returned before -/
  fresh : ledger.log.Pairwise fun earlier later => ∀ call view written,
    earlier = .course call (.ok view) written → ∀ course ∈ later.written.courses,
      course.id ≠ view.id
  provenance : ∀ course ∈ ledger.tables.courses, course ∈ origin.courses ∨
    ∃ call view written, .course call (.ok view) written ∈ ledger.log ∧ course ∈ written.courses

/-! ### What holds of a transaction -/

/-- A transaction that wrote at most its user. -/
structure Catalog.OnlyUsers (written : Catalog) : Prop where
  memberships : written.memberships = []
  courses : written.courses = []
  creations : written.creations = []
  conversations : written.conversations = []

/-- The key is the transaction's to use: it has the user's row locked, and no course was
created under the key. -/
def CourseCall.Unclaimed (call : CourseCall) (tables : Catalog) (held : Option UUID)
    (userId : UUID) : Prop :=
  ∀ key, call.key = some key → held = some userId ∧ .creation userId key ∉ tables.indexKeys

/-- What a `create_course` knows in each phase. -/
def CoursePhase.Sound (call : CourseCall) (tables written : Catalog) (held : Option UUID) :
    CoursePhase → Prop
  | .begun => written = ∅
  | .upserted none => written = ∅ ∧ ∃ userId, tables.Subject call.who userId
  | .upserted (some id) => written = userRow id call.who
  | .identified userId => written.OnlyUsers ∧ (tables ++ written).Subject call.who userId
  | .locked userId => written.OnlyUsers ∧ (tables ++ written).Subject call.who userId ∧
      held = some userId
  | .unclaimed userId => written.OnlyUsers ∧ (tables ++ written).Subject call.who userId ∧
      call.Unclaimed tables held userId
  | .flushed userId course => (tables ++ written).Subject call.who userId ∧
      call.Unclaimed tables held userId ∧ written.courses = [course] ∧
      ⟨course.id, userId, .teacher⟩ ∈ written.memberships ∧ written.creations = [] ∧
      course.title = call.title
  | .done view => (CreationEntry.course call (.ok view) written).Holds (tables ++ written)
  | .refused failure => (CreationEntry.course call (.error failure) ∅).Holds tables

/-- What a `ConversationService.create` knows in each phase. -/
def ConversationPhase.Sound (call : ConversationCall) (tables written : Catalog) :
    ConversationPhase → Prop
  | .begun => written = ∅
  | .joined userId => written = ∅ ∧ tables.Subject call.who userId ∧
      ∃ course ∈ tables.courses, course.id = call.courseId
  | .inserted userId => written.courses = [] ∧ tables.Subject call.who userId ∧
      (∀ row ∈ written.conversations, row.ownerUserId = userId) ∧
      ∃ row ∈ (tables ++ written).conversations, call.isCreation userId row = true
  | .done view => (CreationEntry.conversation call (.ok view) written).Holds (tables ++ written)
  | .refused failure => failure = ConversationService.notFound

namespace Activity

def who : Activity → AuthenticatedIdentity
  | .createCourse call _ => call.who
  | .createConversation call _ => call.who

def Sound (tables written : Catalog) (held : Option UUID) : Activity → Prop
  | .createCourse call phase => phase.Sound call tables written held
  | .createConversation call phase => phase.Sound call tables written

end Activity

/-- What a transaction wrote can be committed now. -/
structure Catalog.Committable (tables written : Catalog) (who : AuthenticatedIdentity)
    (held : Option UUID) : Prop where
  constraints : (tables ++ written).Constraints
  complete : (tables ++ written).Complete
  own : ∀ row ∈ written.memberships, (∃ course ∈ written.courses, course.id = row.courseId) ∧
    (tables ++ written).Subject who row.userId
  locked : ∀ row ∈ written.creations, held = some row.userId

structure Session.Sound (ledger : CreationLedger) (session : Session) : Prop where
  committable : ledger.tables.Committable session.written session.activity.who session.userLock
  phase : session.activity.Sound ledger.tables session.written session.userLock

/-- Two transactions wrote different entries and locked different users. -/
structure Session.Apart (first second : Session) : Prop where
  written : ∀ key ∈ first.written.indexKeys, key ∉ second.written.indexKeys
  locks : ∀ userId, first.userLock = some userId → second.userLock ≠ some userId

/-! ### Growing tables -/

section Growing

variable {tables other written rows : Catalog} {who : AuthenticatedIdentity}

theorem Catalog.Subject.mono {userId : UUID} (subject : tables.Subject who userId)
    (grows : tables.Within other) : other.Subject who userId := by
  obtain ⟨user, known, isUser⟩ := subject
  exact ⟨user, grows.users user known, isUser⟩

theorem CourseReturned.mono {call : CourseCall} {view : CourseView} {userId : UUID}
    (returned : CourseReturned tables call view written userId) (grows : tables.Within other) :
    CourseReturned other call view written userId where
  title := returned.title
  subject := returned.subject.mono grows
  membership := grows.memberships _ returned.membership
  course := returned.course.imp fun _ found => ⟨grows.courses _ found.1, found.2⟩
  creation := fun key isKey => grows.creations _ (returned.creation key isKey)
  kept := returned.kept.trans grows
  created := returned.created

theorem CreationEntry.Holds.mono {entry : CreationEntry} (holds : entry.Holds tables)
    (grows : tables.Within other) : entry.Holds other := by
  match entry, holds with
  | .course call (.ok view) written, ⟨userId, returned⟩ => exact ⟨userId, returned.mono grows⟩
  | .course call (.error failure) written, ⟨empty, key, userId, found, refused⟩ =>
      exact ⟨empty, key, userId, found,
        { refused with
          subject := refused.subject.mono grows
          creation := grows.creations _ refused.creation
          stored := grows.courses _ refused.stored }⟩
  | .conversation call (.ok view) written, returned =>
      obtain ⟨row, known, isId, isCourse, asked, isKey, owner⟩ := returned.conversation
      exact
        { conversation := ⟨row, grows.conversations row known, isId, isCourse, asked, isKey,
            owner.mono grows⟩
          kept := returned.kept.trans grows
          owned := fun row member => (returned.owned row member).mono grows
          plain := returned.plain }
  | .conversation _ (.error _) written, refused => exact refused

/-- What a call left is in the tables. -/
theorem CreationEntry.Holds.kept {entry : CreationEntry} (holds : entry.Holds tables) :
    entry.written.Within tables := by
  match entry, holds with
  | .course call (.ok view) written, ⟨_, returned⟩ => exact returned.kept
  | .course call (.error failure) written, ⟨empty, _⟩ =>
      rw [CreationEntry.written, empty]
      exact Catalog.empty_within tables
  | .conversation call (.ok view) written, returned => exact ConversationReturned.kept returned
  | .conversation _ (.error _) written, ⟨empty, _⟩ =>
      rw [CreationEntry.written, empty]
      exact Catalog.empty_within tables

theorem CourseCall.Unclaimed.mono {call : CourseCall} {held : Option UUID} {userId : UUID}
    (unclaimed : call.Unclaimed tables held userId)
    (free : ∀ key, held = some userId → .creation userId key ∉ rows.indexKeys) :
    call.Unclaimed (tables ++ rows) held userId := by
  intro key isKey
  obtain ⟨locks, absent⟩ := unclaimed key isKey
  refine ⟨locks, fun member => ?_⟩
  rcases Catalog.mem_indexKeys_append.mp member with inTables | inRows
  · exact absent inTables
  · exact free key locks inRows

/-- What a transaction knows stays true while others commit, as long as they record no
creation of the user whose row it has locked. -/
theorem Activity.Sound.mono {activity : Activity} {held : Option UUID}
    (sound : activity.Sound tables written held)
    (free : ∀ userId key, held = some userId → .creation userId key ∉ rows.indexKeys) :
    activity.Sound (tables ++ rows) written held := by
  have grows := Catalog.within_append_left tables rows
  have beside := Catalog.append_within_append grows written
  match activity, sound with
  | .createCourse _ .begun, empty => exact empty
  | .createCourse _ (.upserted none), ⟨empty, userId, subject⟩ =>
      exact ⟨empty, userId, subject.mono grows⟩
  | .createCourse _ (.upserted (some _)), isRow => exact isRow
  | .createCourse _ (.identified _), ⟨only, subject⟩ => exact ⟨only, subject.mono beside⟩
  | .createCourse _ (.locked _), ⟨only, subject, locks⟩ =>
      exact ⟨only, subject.mono beside, locks⟩
  | .createCourse _ (.unclaimed userId), ⟨only, subject, unclaimed⟩ =>
      exact ⟨only, subject.mono beside, unclaimed.mono (free userId)⟩
  | .createCourse _ (.flushed userId _), ⟨subject, unclaimed, rest⟩ =>
      exact ⟨subject.mono beside, unclaimed.mono (free userId), rest⟩
  | .createCourse call (.done view), holds =>
      have known : (CreationEntry.course call (.ok view) written).Holds (tables ++ written) := holds
      exact known.mono beside
  | .createCourse call (.refused failure), holds =>
      have known : (CreationEntry.course call (.error failure) ∅).Holds tables := holds
      exact known.mono grows
  | .createConversation _ .begun, empty => exact empty
  | .createConversation _ (.joined _), ⟨empty, subject, course, known, isCourse⟩ =>
      exact ⟨empty, subject.mono grows, course, grows.courses course known, isCourse⟩
  | .createConversation _ (.inserted _), ⟨plain, subject, owned, row, known, isCreation⟩ =>
      exact ⟨plain, subject.mono grows, owned, row, beside.conversations row known, isCreation⟩
  | .createConversation call (.done view), holds =>
      have known : (CreationEntry.conversation call (.ok view) written).Holds
          (tables ++ written) := holds
      exact known.mono beside
  | .createConversation _ (.refused _), isMissing => exact isMissing

/-- Two transactions that are apart can be committed one after the other. -/
theorem Catalog.Committable.mono {first second : Catalog} {one two : AuthenticatedIdentity}
    {held held' : Option UUID} (committable : tables.Committable second two held)
    (beside : tables.Committable first one held')
    (apart : ∀ key ∈ first.indexKeys, key ∉ second.indexKeys) :
    (tables ++ first).Committable second two held where
  constraints := beside.constraints.merge committable.constraints apart
  complete := by
    intro row member
    have grows := Catalog.append_within_append (Catalog.within_append_left tables first) second
    rcases List.mem_append.mp member with early | late
    · exact List.mem_append_left _ (beside.complete row early)
    · exact grows.memberships _ (committable.complete row (List.mem_append_right _ late))
  own := by
    intro row member
    have grows := Catalog.append_within_append (Catalog.within_append_left tables first) second
    obtain ⟨course, subject⟩ := committable.own row member
    exact ⟨course, subject.mono grows⟩
  locked := committable.locked

/-- The commit of one transaction leaves another one sound. -/
theorem Session.Sound.commit {ledger after : CreationLedger} {session other : Session}
    (sound : other.Sound ledger) (own : session.Sound ledger) (apart : session.Apart other)
    (isAfter : after.tables = ledger.tables ++ session.written) : other.Sound after where
  committable := by
    rw [isAfter]
    exact sound.committable.mono own.committable apart.written
  phase := by
    rw [isAfter]
    apply sound.phase.mono
    intro userId key locks member
    obtain ⟨row, known, rfl, _⟩ := Catalog.creation_mem_indexKeys.mp member
    exact apart.locks row.userId (own.committable.locked row known) locks

end Growing

/-! ### Statements -/

section Statements

variable {tables written rows visible : Catalog} {who : AuthenticatedIdentity}
  {held locks : Option UUID} {others : List Session} {call : CourseCall}
  {phase next : CoursePhase}

theorem free_empty (visible : Catalog) (others : List Session) : Free visible others ∅ := by
  intro key member
  rw [Catalog.indexKeys_empty] at member
  cases member

/-- The rows of a statement have entries that nobody else has. -/
theorem CourseStatement.free (statement : CourseStatement visible others call phase next rows locks) :
    Free visible others rows := by
  cases statement with
  | insertUser _ free => exact free
  | insertCourse _ _ _ free => exact free
  | insertCreation _ _ _ _ free => exact free
  | _ => exact free_empty visible others

/-- The user a statement locks is locked by nobody else. -/
theorem CourseStatement.unlocked
    (statement : CourseStatement visible others call phase next rows locks) {userId : UUID}
    (isLock : locks = some userId) : ∀ other ∈ others, other.userLock ≠ some userId := by
  cases statement with
  | lockUser _ _ unlocked =>
      cases isLock
      exact unlocked
  | _ => cases isLock

theorem ConversationStatement.free {call : ConversationCall} {phase next : ConversationPhase}
    (statement : ConversationStatement visible others call phase next rows) :
    Free visible others rows := by
  cases statement with
  | insert _ _ _ free => exact free
  | _ => exact free_empty visible others

theorem ownUser_eq_some {user : User} (found : ownUser tables who = some user) :
    tables.Subject who user.id :=
  ⟨user, List.mem_of_find?_eq_some found, rfl, List.find?_some found⟩

/-- Looking for a course under a key finds its record. -/
theorem previous_eq_some {userId : UUID} {key : String} {course : CourseRecord}
    (found : previous tables userId key = some course) :
    course ∈ tables.courses ∧ ⟨userId, key, course.id⟩ ∈ tables.creations := by
  rw [previous] at found
  refine ⟨List.mem_of_find?_eq_some found, ?_⟩
  have recorded := List.find?_some found
  obtain ⟨row, known, same⟩ := List.any_eq_true.mp recorded
  simp only [Bool.and_eq_true, beq_iff_eq] at same
  obtain ⟨⟨isCourse, isUser⟩, isKey⟩ := same
  rw [← isCourse, ← isUser, ← isKey]
  exact known

/-- Finding none means that none is recorded. -/
theorem absent_of_previous (refer : tables.References tables) {userId : UUID} {key : String}
    (absent : previous tables userId key = none) : .creation userId key ∉ tables.indexKeys := by
  intro member
  obtain ⟨row, known, isUser, isKey⟩ := Catalog.creation_mem_indexKeys.mp member
  obtain ⟨course, stored, isCourse⟩ := refer.creationCourse row known
  apply List.find?_eq_none.mp absent course stored
  rw [List.any_eq_true]
  refine ⟨row, known, ?_⟩
  simp only [Bool.and_eq_true, beq_iff_eq]
  exact ⟨⟨isCourse.symm, isUser⟩, isKey⟩

/-- The teacher of a course is shown as such. -/
theorem roleOf_eq_teacher (constraints : tables.Constraints) {courseId userId : UUID}
    (member : ⟨courseId, userId, .teacher⟩ ∈ tables.memberships) :
    roleOf tables courseId userId = some .teacher := by
  have unique := constraints.membershipKeys.find?_eq_some member
  rw [roleOf]
  have same : (fun row : CourseMembership => row.courseId == courseId && row.userId == userId) =
      fun row => decide ((row.courseId, row.userId) = (courseId, userId)) := by
    funext row
    apply Bool.eq_iff_iff.mpr
    simp only [Bool.and_eq_true, beq_iff_eq, decide_eq_true_iff, Prod.mk.injEq]
  rw [same, unique]
  rfl

/-- A course under a key is shown again, or refused for its title. -/
theorem replay_cases (constraints : tables.Constraints) (complete : tables.Complete)
    {userId : UUID} {key : String} {course : CourseRecord}
    (found : previous tables userId key = some course) (title : String) :
    (course.title = title ∧ replay tables userId title course = .ok (viewOf course)) ∨
      (course.title ≠ title ∧ replay tables userId title course = .error keyReused) := by
  have teaches := roleOf_eq_teacher constraints (complete _ (previous_eq_some found).2)
  rw [replay, teaches, failIf_of_not (not_not.mpr rfl), ok_bind]
  by_cases same : course.title = title
  · rw [failIf_of_not (not_not.mpr same), ok_bind]
    exact .inl ⟨same, rfl⟩
  · rw [failIf, if_pos same]
    exact .inr ⟨same, rfl⟩

/-! ### A statement keeps what holds -/

/-- Rows with entries of their own, that refer to what is there, can be committed with the
rest. -/
theorem Catalog.Committable.insert (committable : tables.Committable written who held)
    (unique : rows.indexKeys.Nodup)
    (fresh : ∀ key ∈ rows.indexKeys, key ∉ (tables ++ written).indexKeys)
    (refer : rows.References (tables ++ written ++ rows))
    (recorded : ∀ row ∈ rows.creations,
      ⟨row.courseId, row.userId, .teacher⟩ ∈ (tables ++ written ++ rows).memberships)
    (own : ∀ row ∈ rows.memberships, (∃ course ∈ rows.courses, course.id = row.courseId) ∧
      (tables ++ written ++ rows).Subject who row.userId)
    (locked : ∀ row ∈ rows.creations, held = some row.userId) :
    tables.Committable (written ++ rows) who held where
  constraints := by
    rw [← Catalog.append_assoc]
    exact committable.constraints.append unique fresh refer
  complete := by
    intro row member
    rw [← Catalog.append_assoc] at member ⊢
    rcases List.mem_append.mp member with early | late
    · exact List.mem_append_left _ (committable.complete row early)
    · exact recorded row late
  own := by
    intro row member
    rw [← Catalog.append_assoc]
    rcases List.mem_append.mp member with early | late
    · obtain ⟨⟨course, known, isCourse⟩, subject⟩ := committable.own row early
      exact ⟨⟨course, List.mem_append_left _ known, isCourse⟩,
        subject.mono (Catalog.within_append_left _ rows)⟩
    · obtain ⟨⟨course, known, isCourse⟩, subject⟩ := own row late
      exact ⟨⟨course, List.mem_append_right _ known, isCourse⟩, subject⟩
  locked := by
    intro row member
    rcases List.mem_append.mp member with early | late
    · exact committable.locked row early
    · exact locked row late

/-- A transaction that recorded no creation can lock whom it likes. -/
theorem Catalog.Committable.relock (committable : tables.Committable written who held)
    (none : written.creations = []) (held' : Option UUID) :
    tables.Committable written who held' := by
  refine { committable with locked := fun row member => ?_ }
  rw [none] at member
  cases member

theorem userRow_onlyUsers (id : UUID) (who : AuthenticatedIdentity) : (userRow id who).OnlyUsers :=
  ⟨rfl, rfl, rfl, rfl⟩

theorem userRow_subject (id : UUID) (who : AuthenticatedIdentity) :
    (tables ++ userRow id who).Subject who id :=
  ⟨_, List.mem_append_right _ List.mem_cons_self, rfl, by simp [isSubject]⟩

theorem empty_onlyUsers : (∅ : Catalog).OnlyUsers :=
  ⟨rfl, rfl, rfl, rfl⟩

/-- A user is the caller wherever the row is looked for. -/
theorem Catalog.Subject.of_user {userId : UUID} {other : Catalog}
    (subject : other.Subject who userId) (constraints : other.Constraints)
    (within : tables.Within other) (stored : ∃ user ∈ tables.users, user.id = userId) :
    tables.Subject who userId := by
  obtain ⟨user, known, isUser, isSubject⟩ := subject
  obtain ⟨row, isRow, sameId⟩ := stored
  have same := constraints.userIds.eq_of_key (within.users row isRow) known (sameId.trans isUser.symm)
  rw [same] at isRow
  exact ⟨user, isRow, isUser, isSubject⟩

/-- A repeated call is shown the course that its user created under the key. -/
theorem holds_of_replay {view : CourseView} {userId : UUID} {key : String} {course : CourseRecord}
    (committable : tables.Committable written call.who held) (only : written.OnlyUsers)
    (subject : (tables ++ written).Subject call.who userId) (isKey : call.key = some key)
    (found : previous (tables ++ written) userId key = some course)
    (ok : replay (tables ++ written) userId call.title course = .ok view) :
    (CreationEntry.course call (.ok view) written).Holds (tables ++ written) := by
  obtain ⟨stored, recorded⟩ := previous_eq_some found
  rcases replay_cases committable.constraints committable.complete found call.title with
    ⟨same, shown⟩ | ⟨_, failed⟩
  · rw [shown] at ok
    cases ok
    refine ⟨userId,
      { title := same
        subject := subject
        membership := committable.complete _ recorded
        course := ⟨course, stored, rfl, same⟩
        creation := fun other isOther => ?_
        kept := Catalog.within_append_right tables written
        created := fun other member => ?_ }⟩
    · rw [isKey] at isOther
      cases isOther
      exact recorded
    · rw [only.courses] at member
      cases member
  · rw [failed] at ok
    cases ok

/-- A call is refused only for a course of its user that has another title. -/
theorem holds_of_refuse {failure : Failure} {userId : UUID} {key : String} {course : CourseRecord}
    (stored : tables.Constraints) (committable : tables.Committable written call.who held)
    (only : written.OnlyUsers) (subject : (tables ++ written).Subject call.who userId)
    (isKey : call.key = some key) (found : previous (tables ++ written) userId key = some course)
    (failed : replay (tables ++ written) userId call.title course = .error failure) :
    (CreationEntry.course call (.error failure) ∅).Holds tables := by
  obtain ⟨isCourse, recorded⟩ := previous_eq_some found
  rw [Catalog.courses_append, only.courses, List.append_nil] at isCourse
  rw [Catalog.creations_append, only.creations, List.append_nil] at recorded
  rcases replay_cases committable.constraints committable.complete found call.title with
    ⟨_, shown⟩ | ⟨other, isReused⟩
  · rw [shown] at failed
    cases failed
  · rw [isReused] at failed
    cases failed
    exact ⟨rfl, key, userId, course,
      { reused := rfl
        isKey := isKey
        subject := subject.of_user committable.constraints
          (Catalog.within_append_left tables written) (stored.references.creationUser _ recorded)
        creation := recorded
        stored := isCourse
        title := other }⟩

/-- A new course and the membership of its teacher can be committed with the rest. -/
theorem Catalog.Committable.insertCourse {userId : UUID} {course : CourseRecord}
    (committable : tables.Committable written who held)
    (subject : (tables ++ written).Subject who userId)
    (free : Free (tables ++ written) others (courseRows userId course)) :
    tables.Committable (written ++ courseRows userId course) who held := by
  have grows := Catalog.within_append_left (tables ++ written) (courseRows userId course)
  have ⟨user, known, isUser, _⟩ := subject
  have isCourse : course ∈ (tables ++ written ++ courseRows userId course).courses :=
    List.mem_append_right _ List.mem_cons_self
  apply committable.insert
  · simp [courseRows, Catalog.indexKeys, EmptyCollection.emptyCollection]
  · exact fun key member => (free key member).1
  · refine ⟨fun row member => ?_, fun row member => ?_, nofun, nofun, nofun, nofun⟩
    · rw [List.mem_singleton.mp member]
      exact ⟨course, isCourse, rfl⟩
    · rw [List.mem_singleton.mp member]
      exact ⟨user, grows.users user known, isUser⟩
  · exact nofun
  · intro row member
    rw [List.mem_singleton.mp member]
    exact ⟨⟨course, List.mem_singleton.mpr rfl, rfl⟩, subject.mono grows⟩
  · exact nofun

/-- The record of a key can be committed with the course that was created under it. -/
theorem Catalog.Committable.insertCreation {userId : UUID} {key : String} {course : CourseRecord}
    (committable : tables.Committable written who held)
    (subject : (tables ++ written).Subject who userId) (stored : course ∈ written.courses)
    (teaches : ⟨course.id, userId, .teacher⟩ ∈ written.memberships) (locks : held = some userId)
    (free : Free (tables ++ written) others (creationRow userId key course.id)) :
    tables.Committable (written ++ creationRow userId key course.id) who held := by
  have grows := Catalog.within_append_left (tables ++ written) (creationRow userId key course.id)
  have beside := Catalog.within_append_right tables written
  obtain ⟨user, known, isUser, _⟩ := subject
  apply committable.insert
  · simp [creationRow, Catalog.indexKeys, EmptyCollection.emptyCollection]
  · exact fun entry member => (free entry member).1
  · refine ⟨nofun, nofun, fun row member => ?_, fun row member => ?_, nofun, nofun⟩
    · rw [List.mem_singleton.mp member]
      exact ⟨course, grows.courses _ (beside.courses course stored), rfl⟩
    · rw [List.mem_singleton.mp member]
      exact ⟨user, grows.users user known, isUser⟩
  · intro row member
    rw [List.mem_singleton.mp member]
    exact grows.memberships _ (beside.memberships _ teaches)
  · exact nofun
  · intro row member
    rw [List.mem_singleton.mp member]
    exact locks

/-- A returned course with what the call left. -/
theorem holds_of_flushed {userId : UUID} {course : CourseRecord}
    (subject : (tables ++ written).Subject call.who userId) (courses : written.courses = [course])
    (teaches : ⟨course.id, userId, .teacher⟩ ∈ written.memberships)
    (title : course.title = call.title)
    (recorded : ∀ key, call.key = some key → ⟨userId, key, course.id⟩ ∈ written.creations) :
    (CreationEntry.course call (.ok (viewOf course)) written).Holds (tables ++ written) := by
  have beside := Catalog.within_append_right tables written
  have stored : course ∈ written.courses := by
    rw [courses]
    exact List.mem_singleton.mpr rfl
  refine ⟨userId,
    { title := title
      subject := subject
      membership := beside.memberships _ teaches
      course := ⟨course, beside.courses course stored, rfl, title⟩
      creation := fun key isKey => beside.creations _ (recorded key isKey)
      kept := beside
      created := fun other member => ?_ }⟩
  rw [courses] at member
  rw [List.mem_singleton.mp member]
  rfl

/-- One statement of `create_course` keeps what holds of the transaction. -/
theorem CourseStatement.sound (stored : tables.Constraints)
    (committable : tables.Committable written call.who held)
    (known : phase.Sound call tables written held)
    (statement : CourseStatement (tables ++ written) others call phase next rows locks) :
    tables.Committable (written ++ rows) call.who (locks.or held) ∧
      next.Sound call tables (written ++ rows) (locks.or held) := by
  cases statement with
  | insertUser id free =>
      have empty : written = ∅ := known
      refine ⟨committable.insert ?_ (fun key member => (free key member).1) ?_ nofun nofun nofun, ?_⟩
      · simp [userRow, Catalog.indexKeys, EmptyCollection.emptyCollection]
      · exact ⟨nofun, nofun, nofun, nofun, nofun, nofun⟩
      · rw [empty, Catalog.empty_append]
        rfl
  | conflict user isUser =>
      rw [Catalog.append_empty]
      rw [show written = ∅ from known, Catalog.append_empty] at isUser
      exact ⟨committable, known, user.id, ownUser_eq_some isUser⟩
  | proposed id =>
      rw [Catalog.append_empty]
      refine ⟨committable, ?_⟩
      rw [show written = userRow id call.who from known]
      exact ⟨userRow_onlyUsers id call.who, userRow_subject id call.who⟩
  | selectUser user found =>
      rw [Catalog.append_empty]
      refine ⟨committable, ?_, ownUser_eq_some found⟩
      rw [known.1]
      exact empty_onlyUsers
  | missingUser absent =>
      obtain ⟨empty, userId, user, stored, _, isUser⟩ := known
      rw [empty, Catalog.append_empty] at absent
      exact absurd isUser (List.find?_eq_none.mp absent user stored)
  | lockUser userId keyed unlocked =>
      rw [Catalog.append_empty]
      exact ⟨committable.relock known.1.creations _, known.1, known.2, rfl⟩
  | unkeyed userId isKey =>
      rw [Catalog.append_empty]
      refine ⟨committable, known.1, known.2, fun key isSome => ?_⟩
      rw [isKey] at isSome
      cases isSome
  | repeated userId key course view isKey found ok =>
      rw [Catalog.append_empty]
      exact ⟨committable, holds_of_replay committable known.1 known.2.1 isKey found ok⟩
  | refuse userId key course failure isKey found failed =>
      rw [Catalog.append_empty]
      exact ⟨committable, holds_of_refuse stored committable known.1 known.2.1 isKey found failed⟩
  | unclaimed userId key isKey absent =>
      rw [Catalog.append_empty]
      refine ⟨committable, known.1, known.2.1, fun other isOther => ⟨known.2.2, fun member => ?_⟩⟩
      rw [isKey] at isOther
      cases isOther
      apply absent_of_previous committable.constraints.references absent
      exact Catalog.mem_indexKeys_append.mpr (.inl member)
  | insertCourse userId id createdAt free =>
      obtain ⟨only, subject, unclaimed⟩ := known
      refine ⟨committable.insertCourse subject free, ?_, unclaimed, ?_, ?_, ?_, rfl⟩
      · rw [← Catalog.append_assoc]
        exact subject.mono (Catalog.within_append_left _ _)
      · rw [Catalog.courses_append, only.courses]
        rfl
      · exact List.mem_append_right _ (List.mem_singleton.mpr rfl)
      · rw [Catalog.creations_append, only.creations]
        rfl
  | insertCreation userId key course isKey free =>
      obtain ⟨subject, unclaimed, courses, teaches, none, title⟩ := known
      have isCourse : course ∈ written.courses := by
        rw [courses]
        exact List.mem_singleton.mpr rfl
      refine ⟨committable.insertCreation subject isCourse teaches (unclaimed key isKey).1 free, ?_⟩
      apply holds_of_flushed _ _ _ title
      · intro other isOther
        rw [isKey] at isOther
        cases isOther
        exact List.mem_append_right _ (List.mem_singleton.mpr rfl)
      · rw [← Catalog.append_assoc]
        exact subject.mono (Catalog.within_append_left _ _)
      · rw [Catalog.courses_append, courses]
        rfl
      · exact List.mem_append_left _ teaches
  | unrecorded userId course isKey =>
      obtain ⟨subject, unclaimed, courses, teaches, none, title⟩ := known
      rw [Catalog.append_empty]
      refine ⟨committable, holds_of_flushed subject courses teaches title fun key isSome => ?_⟩
      rw [isKey] at isSome
      cases isSome

/-- Who belongs to a course is found by name. -/
theorem member_eq_ok {userId courseId : UUID} (refer : tables.References tables)
    (ok : ConversationService.member tables.toIdentity who courseId = .ok userId) :
    tables.Subject who userId ∧ ∃ course ∈ tables.courses, course.id = courseId := by
  rw [ConversationService.member] at ok
  split at ok
  · next user found =>
      cases ok
      have isMember := List.find?_some found
      rw [Bool.and_eq_true] at isMember
      refine ⟨⟨user, List.mem_of_find?_eq_some found, rfl, isMember.1⟩, ?_⟩
      obtain ⟨row, known, same⟩ := List.any_eq_true.mp isMember.2
      obtain ⟨course, stored, isCourse⟩ := refer.membershipCourse row known
      refine ⟨course, stored, isCourse.trans ?_⟩
      simp only [Bool.and_eq_true, beq_iff_eq] at same
      exact same.2
  · cases ok

/-- A new conversation can be committed. -/
theorem Catalog.Committable.insertConversation {call : ConversationCall} {userId id : UUID}
    {createdAt : Time} (committable : tables.Committable written who held)
    (subject : tables.Subject who userId) (asked : ∃ course ∈ tables.courses, course.id = call.courseId)
    (free : Free (tables ++ written) others
      (conversationRow (call.newConversation userId id createdAt))) :
    tables.Committable (written ++ conversationRow (call.newConversation userId id createdAt)) who
      held := by
  have grows := (Catalog.within_append_left tables written).trans
    (Catalog.within_append_left (tables ++ written)
      (conversationRow (call.newConversation userId id createdAt)))
  obtain ⟨user, known, isUser, _⟩ := subject
  obtain ⟨course, stored, isCourse⟩ := asked
  refine committable.insert ?_ (fun key member => (free key member).1) ?_ nofun nofun nofun
  · simp [conversationRow, Catalog.indexKeys, EmptyCollection.emptyCollection]
  · refine ⟨nofun, nofun, nofun, nofun, fun row member => ?_, fun row member => ?_⟩
    · rw [List.mem_singleton.mp member]
      exact ⟨course, grows.courses course stored, isCourse⟩
    · rw [List.mem_singleton.mp member]
      exact ⟨user, grows.users user known, isUser⟩

theorem ConversationCall.isCreation_iff {call : ConversationCall} {userId : UUID}
    {row : Conversation} : call.isCreation userId row = true ↔
      row.courseId = call.courseId ∧ row.ownerUserId = userId ∧ row.idempotencyKey = call.key := by
  simp only [isCreation, Bool.and_eq_true, beq_iff_eq, and_assoc]

/-- At most one conversation was created under a key. -/
theorem filter_isCreation (constraints : tables.Constraints) {call : ConversationCall}
    {userId : UUID} {row : Conversation} (known : row ∈ tables.conversations)
    (isCreation : call.isCreation userId row = true) :
    tables.conversations.filter (call.isCreation userId) = [row] := by
  have unique := constraints.conversationCreations.filter_eq known
  have same : (fun other : Conversation => decide
      ((other.courseId, other.ownerUserId, other.idempotencyKey) =
        (row.courseId, row.ownerUserId, row.idempotencyKey))) = call.isCreation userId := by
    funext other
    obtain ⟨isCourse, isOwner, isKey⟩ := ConversationCall.isCreation_iff.mp isCreation
    apply Bool.eq_iff_iff.mpr
    rw [decide_eq_true_iff, ConversationCall.isCreation_iff, Prod.mk.injEq, Prod.mk.injEq, isCourse,
      isOwner, isKey]
  rw [← same]
  exact unique

/-- One statement of `ConversationService.create` keeps what holds of the transaction. -/
theorem ConversationStatement.sound {call : ConversationCall} {phase next : ConversationPhase}
    (stored : tables.Constraints) (committable : tables.Committable written call.who held)
    (known : phase.Sound call tables written)
    (statement : ConversationStatement (tables ++ written) others call phase next rows) :
    tables.Committable (written ++ rows) call.who held ∧
      next.Sound call tables (written ++ rows) := by
  cases statement with
  | join userId ok =>
      have empty : written = ∅ := known
      rw [empty, Catalog.append_empty] at ok
      rw [Catalog.append_empty]
      exact ⟨committable, empty, member_eq_ok stored.references ok⟩
  | refuse failure failed =>
      rw [Catalog.append_empty]
      refine ⟨committable, ?_⟩
      rw [ConversationService.member] at failed
      split at failed
      · cases failed
      · cases failed
        rfl
  | insert userId id createdAt free =>
      obtain ⟨empty, subject, asked⟩ := known
      refine ⟨committable.insertConversation subject asked free, ?_, subject, ?_, ?_⟩
      · rw [empty]
        rfl
      · rw [empty, Catalog.empty_append]
        intro row member
        rw [List.mem_singleton.mp member]
        rfl
      · refine ⟨call.newConversation userId id createdAt, ?_, ?_⟩
        · exact List.mem_append_right _ (List.mem_append_right _ (List.mem_singleton.mpr rfl))
        · exact ConversationCall.isCreation_iff.mpr ⟨rfl, rfl, rfl⟩
  | conflict userId created =>
      obtain ⟨empty, subject, _⟩ := known
      obtain ⟨row, isRow, isCreation⟩ := List.any_eq_true.mp created
      rw [Catalog.append_empty]
      refine ⟨committable, ?_, subject, ?_, row, isRow, isCreation⟩
      · rw [empty]
        rfl
      · rw [empty]
        exact nofun
  | select userId conversation one =>
      obtain ⟨plain, subject, owned, _⟩ := known
      have found : conversation ∈
          (tables ++ written).conversations.filter (call.isCreation userId) := by
        rw [one]
        exact List.mem_singleton.mpr rfl
      obtain ⟨member, isCreation⟩ := List.mem_filter.mp found
      obtain ⟨isCourse, isOwner, isKey⟩ := ConversationCall.isCreation_iff.mp isCreation
      have grown := subject.mono (Catalog.within_append_left tables written)
      rw [Catalog.append_empty]
      refine ⟨committable, ⟨conversation, member, rfl, rfl, isCourse, isKey, ?_⟩,
        Catalog.within_append_right tables written, fun row isRow => ?_, plain⟩
      · rw [isOwner]
        exact grown
      · rw [owned row isRow]
        exact grown
  | notOne userId other =>
      obtain ⟨_, _, _, row, member, isCreation⟩ := known
      rw [filter_isCreation committable.constraints member isCreation] at other
      exact absurd rfl other

end Statements

/-! ### The rules -/

section Rules

variable {ledger after : CreationLedger} {origin : Catalog} {session next other : Session}
  {others : List Session}

theorem Session.starts_sound (starts : session.Starts) (sound : ledger.Sound origin) :
    session.Sound ledger := by
  have committable : ∀ who, ledger.tables.Committable ∅ who none := fun who =>
    { constraints := by
        rw [Catalog.append_empty]
        exact sound.constraints
      complete := by
        rw [Catalog.append_empty]
        exact sound.complete
      own := nofun
      locked := nofun }
  cases starts with
  | createCourse who title key valid ok => exact ⟨committable who, rfl⟩
  | createConversation who courseId key valid ok => exact ⟨committable who, rfl⟩

theorem Session.starts_apart (starts : session.Starts) (other : Session) : session.Apart other := by
  cases starts with
  | createCourse => exact ⟨nofun, nofun⟩
  | createConversation => exact ⟨nofun, nofun⟩

theorem Session.moves_sound (moves : session.Moves ledger others next)
    (stored : ledger.Sound origin) (sound : session.Sound ledger) : next.Sound ledger := by
  cases moves with
  | createCourse call phase following written rows held locks ok =>
      obtain ⟨committable, known⟩ := ok.sound stored.constraints sound.committable sound.phase
      exact ⟨committable, known⟩
  | createConversation call phase following written rows held ok =>
      obtain ⟨committable, known⟩ := ok.sound stored.constraints sound.committable sound.phase
      exact ⟨committable, known⟩

theorem Free.apart {visible rows written : Catalog} (free : Free visible others rows)
    (known : other ∈ others) (apart : ∀ key ∈ written.indexKeys, key ∉ other.written.indexKeys) :
    ∀ key ∈ (written ++ rows).indexKeys, key ∉ other.written.indexKeys := by
  intro key member
  rcases Catalog.mem_indexKeys_append.mp member with early | late
  · exact apart key early
  · exact (free key late).2 other known

theorem Session.moves_apart (moves : session.Moves ledger others next)
    (apart : ∀ other ∈ others, session.Apart other) : ∀ other ∈ others, next.Apart other := by
  intro other known
  cases moves with
  | createCourse call phase following written rows held locks ok =>
      refine ⟨ok.free.apart known (apart other known).written, fun userId isLock => ?_⟩
      cases isLocks : locks with
      | none =>
          rw [isLocks] at isLock
          exact (apart other known).locks userId isLock
      | some locked =>
          rw [isLocks] at isLock
          cases isLock
          exact ok.unlocked isLocks other known
  | createConversation call phase following written rows held ok =>
      exact ⟨ok.free.apart known (apart other known).written, (apart other known).locks⟩

/-- A commit of a sound transaction keeps what holds of the tables. -/
theorem CreationLedger.Sound.commit {written : Catalog} {held : Option UUID} {entry : CreationEntry}
    (sound : ledger.Sound origin) (committable : ledger.tables.Committable written entry.who held)
    (isWritten : entry.written = written) (holds : entry.Holds (ledger.tables ++ written))
    (returned : ∀ course ∈ written.courses, ∃ call view, entry = .course call (.ok view) written) :
    CreationLedger.Sound origin ⟨ledger.tables ++ written, ledger.log ++ [entry]⟩ := by
  have grows := Catalog.within_append_left ledger.tables written
  obtain ⟨_, _, apart⟩ := Catalog.nodup_indexKeys_append.mp committable.constraints.unique
  -- a course of one side has no members on the other
  have fresh : ∀ course ∈ written.courses, ∀ row ∈ ledger.tables.courses, row.id ≠ course.id :=
    fun course isNew row stored same =>
      apart (.course course.id) (Catalog.course_mem_indexKeys.mpr ⟨row, stored, same⟩)
        (Catalog.course_mem_indexKeys.mpr ⟨course, isNew, rfl⟩)
  refine ⟨committable.constraints, committable.complete, fun known member => ?_,
    fun known member course isNew row isMember isCourse => ?_, ?_, fun course member => ?_⟩
  · rcases List.mem_append.mp member with early | late
    · exact (sound.entries known early).mono grows
    · rw [List.mem_singleton.mp late]
      exact holds
  · rcases List.mem_append.mp member with early | late
    · rcases List.mem_append.mp isMember with stored | isOwn
      · exact (sound.creators known early course isNew row stored isCourse).mono grows
      · obtain ⟨⟨created, isCreated, same⟩, _⟩ := committable.own row isOwn
        have kept := (sound.entries known early).kept.courses course isNew
        exact absurd (isCourse.symm.trans same.symm) (fresh created isCreated course kept)
    · rw [List.mem_singleton.mp late] at isNew ⊢
      rw [isWritten] at isNew
      rcases List.mem_append.mp isMember with stored | isOwn
      · obtain ⟨known, isKnown, same⟩ := sound.constraints.references.membershipCourse row stored
        exact absurd (same.trans isCourse) (fresh course isNew known isKnown)
      · exact (committable.own row isOwn).2
  · rw [List.pairwise_append]
    refine ⟨sound.fresh, List.pairwise_singleton _ _, fun earlier known later isLater => ?_⟩
    rw [List.mem_singleton.mp isLater, isWritten]
    rintro call view left rfl course isNew same
    obtain ⟨_, returned⟩ := sound.entries _ known
    obtain ⟨row, stored, isRow, _⟩ := returned.course
    exact fresh course isNew row stored (isRow.trans same.symm)
  · rcases List.mem_append.mp member with early | late
    · rcases sound.provenance course early with isOrigin | ⟨call, view, left, logged, isNew⟩
      · exact .inl isOrigin
      · exact .inr ⟨call, view, left, List.mem_append_left _ logged, isNew⟩
    · obtain ⟨call, view, isEntry⟩ := returned course late
      refine .inr ⟨call, view, written, List.mem_append_right _ ?_, late⟩
      rw [isEntry]
      exact List.mem_singleton.mpr rfl

/-- A call that raised leaves the tables as they were. -/
theorem CreationLedger.Sound.refuse {entry : CreationEntry} (sound : ledger.Sound origin)
    (empty : entry.written = ∅) (holds : entry.Holds ledger.tables) :
    CreationLedger.Sound origin ⟨ledger.tables, ledger.log ++ [entry]⟩ := by
  have committable : ledger.tables.Committable ∅ entry.who none :=
    { constraints := by
        rw [Catalog.append_empty]
        exact sound.constraints
      complete := by
        rw [Catalog.append_empty]
        exact sound.complete
      own := nofun
      locked := nofun }
  have kept := sound.commit committable empty
    (by
      rw [Catalog.append_empty]
      exact holds)
    nofun
  rw [Catalog.append_empty] at kept
  exact kept

theorem Session.ends_sound (ends : session.Ends ledger after) (stored : ledger.Sound origin)
    (sound : session.Sound ledger) : after.Sound origin := by
  cases ends with
  | commitCourse call view written held =>
      exact stored.commit sound.committable rfl sound.phase fun _ _ => ⟨call, view, rfl⟩
  | refuseCourse call failure written held => exact stored.refuse rfl sound.phase
  | commitConversation call view written held =>
      have returned : ConversationReturned (ledger.tables ++ written) call view written :=
        sound.phase
      refine stored.commit sound.committable rfl returned fun course isNew => ?_
      rw [returned.plain] at isNew
      cases isNew
  | refuseConversation call failure written held => exact stored.refuse rfl ⟨rfl, sound.phase⟩

theorem Session.ends_beside (ends : session.Ends ledger after) (own : session.Sound ledger)
    (sound : other.Sound ledger) (apart : session.Apart other) : other.Sound after := by
  cases ends with
  | commitCourse => exact sound.commit own apart rfl
  | refuseCourse => exact ⟨sound.committable, sound.phase⟩
  | commitConversation => exact sound.commit own apart rfl
  | refuseConversation => exact ⟨sound.committable, sound.phase⟩

theorem Session.Apart.symm (apart : session.Apart other) : other.Apart session where
  written := fun key member member' => apart.written key member' member
  locks := fun userId isLock isLock' => apart.locks userId isLock' isLock

/-- What creating courses and conversations keeps in every interleaving. -/
theorem creation_rules (origin : Catalog) : Rules Session.Starts Session.Moves Session.Ends
    (CreationLedger.Sound origin) (fun ledger session => session.Sound ledger) Session.Apart where
  symmetric := fun _ _ apart => apart.symm
  start := fun _ _ starts stored => Session.starts_sound starts stored
  startApart := fun _ other starts => Session.starts_apart starts other
  statement := fun _ _ _ _ moves stored sound _ _ => Session.moves_sound moves stored sound
  statementApart := fun _ _ _ _ moves _ _ _ apart => Session.moves_apart moves apart
  finish := fun _ _ _ ends stored sound => Session.ends_sound ends stored sound
  finishBeside := fun _ _ _ _ ends _ own sound apart => Session.ends_beside ends own sound apart

end Rules

end Docta
