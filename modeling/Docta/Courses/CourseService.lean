/-
Module: Docta.Courses.CourseService
Purpose: Creating courses and conversations under an idempotency key, statement by
  statement: what each statement of `create_course` and `ConversationService.create`
  reads and writes, which unique indexes and row locks it waits for, and what a
  transaction leaves when it ends.
Trusted boundary: a statement sees what was committed before it and what its own
  transaction wrote; an insert waits for the unfinished transaction that holds its key
Main exports: Catalog, Catalog.Constraints, CourseStatement, ConversationStatement,
  Session, Session.Starts, Session.Moves, Session.Ends
-/
import Docta.Conversation.Service
import Docta.Library.Interleaving

namespace Docta

open Fallible Table

/-! ### Tables -/

/-- A row of `courses`. -/
structure CourseRecord extends Course where
  title : String
  createdAt : Time
deriving DecidableEq, Repr

structure CourseCreation where
  userId : UUID
  idempotencyKey : String
  courseId : UUID
deriving DecidableEq, Repr

/-- The tables that creating courses and conversations reads and writes. -/
structure Catalog extends Identity where
  courses : List CourseRecord
  creations : List CourseCreation
  conversations : List Conversation
deriving DecidableEq

namespace Catalog

instance : EmptyCollection Catalog :=
  ⟨{ users := [], memberships := [], courses := [], creations := [], conversations := [] }⟩

instance : Append Catalog :=
  ⟨fun first second =>
    { users := first.users ++ second.users
      memberships := first.memberships ++ second.memberships
      courses := first.courses ++ second.courses
      creations := first.creations ++ second.creations
      conversations := first.conversations ++ second.conversations }⟩

/-- The entries of the unique indexes. -/
inductive IndexKey where
  | user (id : UUID)
  /-- `uq_users_oidc_identity` -/
  | oidcIdentity (issuer subject : String)
  | membership (courseId userId : UUID)
  | course (id : UUID)
  | creation (userId : UUID) (idempotencyKey : String)
  | conversation (id : UUID)
  /-- `uq_conversations_creation` -/
  | conversationCreation (courseId ownerUserId : UUID) (idempotencyKey : String)
deriving DecidableEq, Repr

/-- The entries that the rows of a table have. -/
def indexKeys (tables : Catalog) : List IndexKey :=
  tables.users.map (fun row => .user row.id) ++
    tables.users.map (fun row => .oidcIdentity row.oidcIssuer row.oidcSubject) ++
    tables.memberships.map (fun row => .membership row.courseId row.userId) ++
    tables.courses.map (fun row => .course row.id) ++
    tables.creations.map (fun row => .creation row.userId row.idempotencyKey) ++
    tables.conversations.map (fun row => .conversation row.id) ++
    tables.conversations.map fun row =>
      .conversationCreation row.courseId row.ownerUserId row.idempotencyKey

/-- What rows refer to is in the tables. -/
structure References (rows tables : Catalog) : Prop where
  membershipCourse : ∀ row ∈ rows.memberships, ∃ course ∈ tables.courses, course.id = row.courseId
  membershipUser : ∀ row ∈ rows.memberships, ∃ user ∈ tables.users, user.id = row.userId
  creationCourse : ∀ row ∈ rows.creations, ∃ course ∈ tables.courses, course.id = row.courseId
  creationUser : ∀ row ∈ rows.creations, ∃ user ∈ tables.users, user.id = row.userId
  conversationCourse : ∀ row ∈ rows.conversations,
    ∃ course ∈ tables.courses, course.id = row.courseId
  conversationOwner : ∀ row ∈ rows.conversations, ∃ user ∈ tables.users, user.id = row.ownerUserId

/-- The unique constraints and the foreign keys. -/
structure Constraints (tables : Catalog) : Prop where
  unique : tables.indexKeys.Nodup
  references : tables.References tables

end Catalog

/-! ### Calls -/

/-- The verified arguments of `create_course`, its key without the blanks around it. -/
structure CourseCall where
  who : AuthenticatedIdentity
  title : String
  key : Option String
deriving DecidableEq, Repr

/-- The verified arguments of `ConversationService.create`. -/
structure ConversationCall where
  who : AuthenticatedIdentity
  courseId : UUID
  key : String
deriving DecidableEq, Repr

/-- `CourseView` -/
structure CourseView where
  id : UUID
  title : String
  role : MembershipRole
  version : Nat
  activeCorpusVersionId : Option UUID
  createdAt : Time
deriving DecidableEq, Repr

/-- How far a `create_course` is. -/
inductive CoursePhase where
  | begun
  /-- the user was inserted, or conflicted with a stored one -/
  | upserted (inserted : Option UUID)
  | identified (userId : UUID)
  /-- the user's row is locked -/
  | locked (userId : UUID)
  /-- no course was created under the key -/
  | unclaimed (userId : UUID)
  /-- the course and its membership are inserted -/
  | flushed (userId : UUID) (course : CourseRecord)
  | done (view : CourseView)
  | refused (failure : Failure)
deriving DecidableEq

/-- How far a `ConversationService.create` is. -/
inductive ConversationPhase where
  | begun
  /-- the caller is a member of the course -/
  | joined (userId : UUID)
  /-- the conversation was inserted, or conflicted with a stored one -/
  | inserted (userId : UUID)
  | done (view : ConversationView)
  | refused (failure : Failure)
deriving DecidableEq

inductive Activity where
  | createCourse (call : CourseCall) (phase : CoursePhase)
  | createConversation (call : ConversationCall) (phase : ConversationPhase)
deriving DecidableEq

/-- A transaction under way: what it does, the rows it wrote, and the user whose row it
has locked. -/
structure Session where
  activity : Activity
  written : Catalog := ∅
  userLock : Option UUID := none
deriving DecidableEq

/-- No row that is visible or that another transaction wrote has an entry of these. -/
def Free (visible : Catalog) (others : List Session) (rows : Catalog) : Prop :=
  ∀ key ∈ rows.indexKeys,
    key ∉ visible.indexKeys ∧ ∀ other ∈ others, key ∉ other.written.indexKeys

namespace CourseService

/-- The check of the key. -/
def validatedKey : Option String → Except Failure (Option String)
  | none => .ok none
  | some text =>
      if (Text.strip text).length = 0 ∨ 255 < (Text.strip text).length then
        .error (.api 400 "idempotency_key_required" "A valid Idempotency-Key is required.")
      else .ok (some (Text.strip text))

/-- `APIError(409, "idempotency_key_reused", ...)` -/
def keyReused : Failure :=
  .api 409 "idempotency_key_reused" "The key belongs to another request."

def ownUser (tables : Catalog) (who : AuthenticatedIdentity) : Option User :=
  tables.users.find? (isSubject who)

/-- The course that was created under the key. -/
def previous (tables : Catalog) (userId : UUID) (key : String) : Option CourseRecord :=
  tables.courses.find? fun course => tables.creations.any fun row =>
    row.courseId == course.id && row.userId == userId && row.idempotencyKey == key

def roleOf (tables : Catalog) (courseId userId : UUID) : Option MembershipRole :=
  (tables.memberships.find? fun row => row.courseId == courseId && row.userId == userId).map (·.role)

/-- What is shown of a course to its teacher. -/
def viewOf (course : CourseRecord) : CourseView where
  id := course.id
  title := course.title
  role := .teacher
  version := course.version
  activeCorpusVersionId := course.activeCorpusVersionId
  createdAt := course.createdAt

/-- `CourseNotFound`, as the route answers it. -/
def courseNotFound : Failure :=
  .api 404 "course_not_found" "The course was not found."

/-- The rows `get_course` selects: the course, and the role of the verified subject. -/
def memberships (tables : Catalog) (who : AuthenticatedIdentity) (courseId : UUID) :
    List (CourseRecord × MembershipRole) :=
  (tables.courses.filter (·.id == courseId)).flatMap fun course =>
    (tables.memberships.filter (·.courseId == course.id)).flatMap fun row =>
      (tables.users.filter fun user => user.id == row.userId && isSubject who user).map
        fun _ => (course, row.role)

/-- `get_course` -/
def getCourse (tables : Catalog) (who : AuthenticatedIdentity) (courseId : UUID) :
    Except Failure CourseView :=
  match memberships tables who courseId with
  | [] => .error courseNotFound
  | [(course, role)] => .ok
      { id := course.id
        title := course.title
        role := role
        version := course.version
        activeCorpusVersionId := course.activeCorpusVersionId
        createdAt := course.createdAt }
  | _ => .error .resultCount

/-- The branch for a course that was created under the key. -/
def replay (tables : Catalog) (userId : UUID) (title : String) (course : CourseRecord) :
    Except Failure CourseView := do
  failIf (roleOf tables course.id userId ≠ some .teacher) courseNotFound
  failIf (course.title ≠ title) keyReused
  return viewOf course

def userRow (id : UUID) (who : AuthenticatedIdentity) : Catalog :=
  { (∅ : Catalog) with users := [{ id, oidcIssuer := who.issuer, oidcSubject := who.subject }] }

def newCourse (id : UUID) (title : String) (createdAt : Time) : CourseRecord where
  id := id
  version := 0
  activeCorpusVersionId := none
  title := title
  createdAt := createdAt

/-- The course and the membership of its teacher. -/
def courseRows (userId : UUID) (course : CourseRecord) : Catalog :=
  { (∅ : Catalog) with
    courses := [course], memberships := [{ courseId := course.id, userId, role := .teacher }] }

def creationRow (userId : UUID) (key : String) (courseId : UUID) : Catalog :=
  { (∅ : Catalog) with creations := [{ userId, idempotencyKey := key, courseId }] }

end CourseService

open CourseService

section Statements

variable (visible : Catalog) (others : List Session)

/-- One statement of `create_course`: the next phase, the rows it inserts, and the user
it locks. -/
inductive CourseStatement (call : CourseCall) :
    CoursePhase → CoursePhase → Catalog → Option UUID → Prop where
  | insertUser (id : UUID) (free : Free visible others (userRow id call.who)) :
      CourseStatement call .begun (.upserted (some id)) (userRow id call.who) none
  /-- `ON CONFLICT DO NOTHING` -/
  | conflict (user : User) (known : ownUser visible call.who = some user) :
      CourseStatement call .begun (.upserted none) ∅ none
  | proposed (id : UUID) : CourseStatement call (.upserted (some id)) (.identified id) ∅ none
  | selectUser (user : User) (found : ownUser visible call.who = some user) :
      CourseStatement call (.upserted none) (.identified user.id) ∅ none
  | missingUser (absent : ownUser visible call.who = none) :
      CourseStatement call (.upserted none)
        (.refused (.runtime "identity persistence invariant failed")) ∅ none
  /-- `SELECT ... FOR UPDATE` waits while another transaction has the row locked. -/
  | lockUser (userId : UUID) (keyed : call.key.isSome = true)
      (unlocked : ∀ other ∈ others, other.userLock ≠ some userId) :
      CourseStatement call (.identified userId) (.locked userId) ∅ (some userId)
  | unkeyed (userId : UUID) (isKey : call.key = none) :
      CourseStatement call (.identified userId) (.unclaimed userId) ∅ none
  | repeated (userId : UUID) (key : String) (course : CourseRecord) (view : CourseView)
      (isKey : call.key = some key) (found : previous visible userId key = some course)
      (ok : replay visible userId call.title course = .ok view) :
      CourseStatement call (.locked userId) (.done view) ∅ none
  | refuse (userId : UUID) (key : String) (course : CourseRecord) (failure : Failure)
      (isKey : call.key = some key) (found : previous visible userId key = some course)
      (failed : replay visible userId call.title course = .error failure) :
      CourseStatement call (.locked userId) (.refused failure) ∅ none
  | unclaimed (userId : UUID) (key : String) (isKey : call.key = some key)
      (absent : previous visible userId key = none) :
      CourseStatement call (.locked userId) (.unclaimed userId) ∅ none
  | insertCourse (userId id : UUID) (createdAt : Time)
      (free : Free visible others (courseRows userId (newCourse id call.title createdAt))) :
      CourseStatement call (.unclaimed userId)
        (.flushed userId (newCourse id call.title createdAt))
        (courseRows userId (newCourse id call.title createdAt)) none
  | insertCreation (userId : UUID) (key : String) (course : CourseRecord)
      (isKey : call.key = some key)
      (free : Free visible others (creationRow userId key course.id)) :
      CourseStatement call (.flushed userId course) (.done (viewOf course))
        (creationRow userId key course.id) none
  | unrecorded (userId : UUID) (course : CourseRecord) (isKey : call.key = none) :
      CourseStatement call (.flushed userId course) (.done (viewOf course)) ∅ none

/-- The conversation that was created under the key. -/
def ConversationCall.isCreation (call : ConversationCall) (userId : UUID) (row : Conversation) :
    Bool :=
  row.courseId == call.courseId && row.ownerUserId == userId && row.idempotencyKey == call.key

def ConversationCall.newConversation (call : ConversationCall) (userId id : UUID)
    (createdAt : Time) : Conversation where
  id := id
  courseId := call.courseId
  ownerUserId := userId
  idempotencyKey := call.key
  createdAt := createdAt

def conversationRow (conversation : Conversation) : Catalog :=
  { (∅ : Catalog) with conversations := [conversation] }

/-- One statement of `ConversationService.create`: the next phase and the rows it
inserts. -/
inductive ConversationStatement (call : ConversationCall) :
    ConversationPhase → ConversationPhase → Catalog → Prop where
  | join (userId : UUID)
      (ok : ConversationService.member visible.toIdentity call.who call.courseId = .ok userId) :
      ConversationStatement call .begun (.joined userId) ∅
  | refuse (failure : Failure)
      (failed : ConversationService.member visible.toIdentity call.who call.courseId =
        .error failure) :
      ConversationStatement call .begun (.refused failure) ∅
  | insert (userId id : UUID) (createdAt : Time)
      (free : Free visible others (conversationRow (call.newConversation userId id createdAt))) :
      ConversationStatement call (.joined userId) (.inserted userId)
        (conversationRow (call.newConversation userId id createdAt))
  /-- `ON CONFLICT DO NOTHING` -/
  | conflict (userId : UUID)
      (known : visible.conversations.any (call.isCreation userId) = true) :
      ConversationStatement call (.joined userId) (.inserted userId) ∅
  | select (userId : UUID) (conversation : Conversation)
      (one : visible.conversations.filter (call.isCreation userId) = [conversation]) :
      ConversationStatement call (.inserted userId)
        (.done { id := conversation.id, courseId := conversation.courseId
                 createdAt := conversation.createdAt }) ∅
  | notOne (userId : UUID)
      (other : (visible.conversations.filter (call.isCreation userId)).length ≠ 1) :
      ConversationStatement call (.inserted userId) (.refused .resultCount) ∅

end Statements

/-! ### Transactions -/

/-- A call that ended, with what it returned or raised and the rows it left. -/
inductive CreationEntry where
  | course (call : CourseCall) (result : Except Failure CourseView) (written : Catalog)
  | conversation (call : ConversationCall) (result : Except Failure ConversationView)
      (written : Catalog)

/-- The committed tables, and the calls that ended; no call reads these. -/
structure CreationLedger where
  tables : Catalog
  log : List CreationEntry := []

namespace Session

/-- A call whose arguments were checked. -/
inductive Starts : Session → Prop where
  | createCourse (who : AuthenticatedIdentity) (title : String) (key valid : Option String)
      (ok : validatedKey key = .ok valid) :
      Starts { activity := .createCourse { who, title, key := valid } .begun }
  | createConversation (who : AuthenticatedIdentity) (courseId : UUID) (key : Option String)
      (valid : String) (ok : ConversationService.idempotencyKey key = .ok valid) :
      Starts { activity := .createConversation { who, courseId, key := valid } .begun }

/-- A statement sees what was committed and what its own transaction wrote. -/
inductive Moves (ledger : CreationLedger) (others : List Session) : Session → Session → Prop where
  | createCourse (call : CourseCall) (phase next : CoursePhase) (written rows : Catalog)
      (held locks : Option UUID)
      (ok : CourseStatement (ledger.tables ++ written) others call phase next rows locks) :
      Moves ledger others ⟨.createCourse call phase, written, held⟩
        ⟨.createCourse call next, written ++ rows, locks.or held⟩
  | createConversation (call : ConversationCall) (phase next : ConversationPhase)
      (written rows : Catalog) (held : Option UUID)
      (ok : ConversationStatement (ledger.tables ++ written) others call phase next rows) :
      Moves ledger others ⟨.createConversation call phase, written, held⟩
        ⟨.createConversation call next, written ++ rows, held⟩

/-- A transaction that is done commits what it wrote; one that raised leaves nothing. -/
inductive Ends (ledger : CreationLedger) : Session → CreationLedger → Prop where
  | commitCourse (call : CourseCall) (view : CourseView) (written : Catalog) (held : Option UUID) :
      Ends ledger ⟨.createCourse call (.done view), written, held⟩
        ⟨ledger.tables ++ written, ledger.log ++ [.course call (.ok view) written]⟩
  | refuseCourse (call : CourseCall) (failure : Failure) (written : Catalog)
      (held : Option UUID) :
      Ends ledger ⟨.createCourse call (.refused failure), written, held⟩
        ⟨ledger.tables, ledger.log ++ [.course call (.error failure) ∅]⟩
  | commitConversation (call : ConversationCall) (view : ConversationView) (written : Catalog)
      (held : Option UUID) :
      Ends ledger ⟨.createConversation call (.done view), written, held⟩
        ⟨ledger.tables ++ written, ledger.log ++ [.conversation call (.ok view) written]⟩
  | refuseConversation (call : ConversationCall) (failure : Failure) (written : Catalog)
      (held : Option UUID) :
      Ends ledger ⟨.createConversation call (.refused failure), written, held⟩
        ⟨ledger.tables, ledger.log ++ [.conversation call (.error failure) ∅]⟩

end Session

end Docta
