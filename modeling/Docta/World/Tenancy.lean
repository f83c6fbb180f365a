/-
Module: Docta.World.Tenancy
Purpose: What one identity sees of the database: its user row and memberships, the
  courses it belongs to with their material, and its own conversations with their
  messages, evidence and citations. Every query that a service makes for the
  identity selects rows it sees, so two databases that agree on these rows answer
  the query alike.
Trusted boundary: none
Main exports: Database, VisibleRows, Database.seenBy, Alike, Alike.owned_eq, Alike.view_eq,
  Alike.continuity_eq, Alike.corpusRows_eq, Alike.jobsOf_eq
-/
import Docta.Conversation.Expiry
import Docta.Ingestion.Documents
import Docta.Rag.Retrieval

namespace Docta

open Table Fallible ConversationService DocumentService

/-! ### What is seen -/

/-- All tables of a database, which meet the constraints of its schema. -/
structure Database where
  identity : Identity
  material : Material
  dialogue : Dialogue
  identityConstraints : identity.Constraints
  materialConstraints : material.Constraints
  dialogueConstraints : dialogue.Constraints identity material

/-- Rows of the tables. -/
structure VisibleRows where
  users : List User
  memberships : List CourseMembership
  courses : List Course
  documents : List Document
  documentVersions : List DocumentVersion
  corpusVersions : List CorpusVersion
  corpusVersionDocuments : List CorpusVersionDocument
  chunks : List Chunk
  ingestionJobs : List IngestionJob
  conversations : List Conversation
  messages : List Message
  retrievedEvidence : List RetrievedEvidence
  citations : List Citation

namespace Database

variable (database : Database) (who : AuthenticatedIdentity)

/-- The rows of the verified subject. -/
def ownUsers : List User := database.identity.users.filter (isSubject who)

def isSelf (userId : UUID) : Bool := ((database.ownUsers who).map (·.id)).contains userId

/-- The subject belongs to the course, in any role. -/
def attends (courseId : UUID) : Bool :=
  database.identity.memberships.any fun row =>
    database.isSelf who row.userId && row.courseId == courseId

/-- The conversations the subject owns, also those of courses it has left. -/
def ownConversations : List Conversation :=
  database.dialogue.conversations.filter fun row => database.isSelf who row.ownerUserId

def isOwnConversation (conversationId : UUID) : Bool :=
  ((database.ownConversations who).map (·.id)).contains conversationId

def ownMessages : List Message :=
  database.dialogue.messages.filter fun row => database.isOwnConversation who row.conversationId

def isOwnMessage (messageId : UUID) : Bool :=
  ((database.ownMessages who).map (·.id)).contains messageId

/-- Everything of the database that is the subject's, or its courses'. -/
def seenBy : VisibleRows where
  users := database.ownUsers who
  memberships := database.identity.memberships.filter fun row => database.isSelf who row.userId
  courses := database.material.courses.filter fun row => database.attends who row.id
  documents := database.material.documents.filter fun row => database.attends who row.courseId
  documentVersions :=
    database.material.documentVersions.filter fun row => database.attends who row.courseId
  corpusVersions :=
    database.material.corpusVersions.filter fun row => database.attends who row.courseId
  corpusVersionDocuments :=
    database.material.corpusVersionDocuments.filter fun row => database.attends who row.courseId
  chunks := database.material.chunks.filter fun row => database.attends who row.courseId
  ingestionJobs :=
    database.material.ingestionJobs.filter fun row => database.attends who row.courseId
  conversations := database.ownConversations who
  messages := database.ownMessages who
  retrievedEvidence :=
    database.dialogue.retrievedEvidence.filter fun row => database.isOwnMessage who row.messageId
  citations :=
    database.dialogue.citations.filter fun row => database.isOwnMessage who row.messageId

/-- The database after the expiry of a conversation's messages. -/
def expire (clock completed : Clock) (conversationId : UUID) : Database :=
  { database with
    dialogue := ConversationService.expire clock completed (some conversationId) database.dialogue
    dialogueConstraints :=
      constraints_expire database.dialogueConstraints clock completed (some conversationId) }

section Expire

variable {database : Database} {who : AuthenticatedIdentity} {clock completed : Clock}
  {conversationId : UUID}

/-- Expiry changes an identity's own messages as it changes all of them. -/
theorem ownMessages_expire : (database.expire clock completed conversationId).ownMessages who =
    updateWhere (database.ownMessages who) (expires clock (some conversationId))
      (Message.expired completed) :=
  filter_updateWhere fun _ _ _ => rfl

theorem isOwnMessage_expire :
    (database.expire clock completed conversationId).isOwnMessage who =
      database.isOwnMessage who := by
  funext messageId
  rw [isOwnMessage, isOwnMessage, ownMessages_expire, map_updateWhere]
  exact fun _ _ _ => rfl

end Expire

end Database

/-! ### The rows that name the subject -/

section Subject

variable {database : Database} {who : AuthenticatedIdentity}

theorem isSelf_of_mem {user : User} (known : user ∈ database.identity.users)
    (subject : isSubject who user = true) : database.isSelf who user.id = true :=
  List.contains_iff_mem.mpr (List.mem_map_of_mem (List.mem_filter.mpr ⟨known, subject⟩))

/-- A membership of the subject. -/
theorem attends_of_belongs {userId courseId : UUID}
    (self : database.isSelf who userId = true)
    (belongsTo : belongs database.identity userId courseId = true) :
    database.attends who courseId = true := by
  obtain ⟨row, enrolled, own⟩ := List.any_eq_true.mp belongsTo
  simp only [Bool.and_eq_true, beq_iff_eq] at own
  refine List.any_eq_true.mpr ⟨row, enrolled, ?_⟩
  rw [own.1, self, own.2, beq_self_eq_true]
  rfl

/-- A member is the subject, and belongs to the course. -/
theorem seen_of_member {userId courseId : UUID}
    (found : member database.identity who courseId = .ok userId) :
    database.isSelf who userId = true ∧ database.attends who courseId = true ∧
      ∃ user ∈ database.identity.users, user.id = userId := by
  unfold member at found
  split at found
  · rename_i user isFound
    cases found
    have known := List.mem_of_find?_eq_some isFound
    have matched := List.find?_some isFound
    rw [Bool.and_eq_true] at matched
    have self := isSelf_of_mem known matched.1
    exact ⟨self, attends_of_belongs self matched.2, user, known, rfl⟩
  · cases found

/-- A teacher of a course belongs to it. -/
theorem attends_of_teacher {userId courseId : UUID}
    (found : authorizedTeacher database.identity who courseId = .ok userId) :
    database.attends who courseId = true := by
  unfold authorizedTeacher at found
  split at found
  · rename_i user isFound
    have matched := List.find?_some isFound
    rw [Bool.and_eq_true] at matched
    have self := isSelf_of_mem (List.mem_of_find?_eq_some isFound) matched.1
    obtain ⟨row, enrolled, own⟩ := List.any_eq_true.mp matched.2
    rw [Bool.and_eq_true] at own
    exact attends_of_belongs self (List.any_eq_true.mpr ⟨row, enrolled, own.1⟩)
  · cases found

/-- An owner is the subject, and belongs to the course. -/
theorem seen_of_isOwner {conversation : Conversation}
    (isOwned : isOwner database.identity who conversation = true) :
    database.isSelf who conversation.ownerUserId = true ∧
      database.attends who conversation.courseId = true := by
  obtain ⟨user, known, matched⟩ := List.any_eq_true.mp isOwned
  simp only [Bool.and_eq_true, beq_iff_eq] at matched
  obtain ⟨⟨isOwnerId, subject⟩, belongsTo⟩ := matched
  have self := isSelf_of_mem known subject
  rw [isOwnerId] at self belongsTo
  exact ⟨self, attends_of_belongs self belongsTo⟩

/-- What `_owned` finds is an own conversation of a course that the subject
belongs to. -/
theorem seen_of_owned {conversationId : UUID} {conversation : Conversation}
    (found : owned database.identity database.dialogue who conversationId = .ok conversation) :
    conversation ∈ database.dialogue.conversations ∧ conversation.id = conversationId ∧
      database.isSelf who conversation.ownerUserId = true ∧
      database.isOwnConversation who conversationId = true ∧
      database.attends who conversation.courseId = true := by
  unfold owned at found
  split at found
  · rename_i row isFound
    cases found
    have known := List.mem_of_find?_eq_some isFound
    have matched := List.find?_some isFound
    rw [Bool.and_eq_true, beq_iff_eq] at matched
    have seen := seen_of_isOwner matched.2
    refine ⟨known, matched.1, seen.1, ?_, seen.2⟩
    rw [← matched.1]
    exact List.contains_iff_mem.mpr (List.mem_map_of_mem (List.mem_filter.mpr ⟨known, seen.1⟩))
  · cases found

theorem isOwnMessage_of_mem {message : Message} (known : message ∈ database.dialogue.messages)
    (own : database.isOwnConversation who message.conversationId = true) :
    database.isOwnMessage who message.id = true :=
  List.contains_iff_mem.mpr (List.mem_map_of_mem (List.mem_filter.mpr ⟨known, own⟩))

end Subject

/-! ### Databases that look alike -/

/-- The databases agree on everything the identity sees; the rows of other courses
and of other users may differ in any way. -/
def Alike (who : AuthenticatedIdentity) (left right : Database) : Prop :=
  left.seenBy who = right.seenBy who

namespace Alike

variable {who : AuthenticatedIdentity} {left right : Database}

theorem symm (alike : Alike who left right) : Alike who right left :=
  Eq.symm alike

/-! ### Whose rows -/

section Rows

variable (alike : Alike who left right)

include alike

theorem ownUsers_eq : left.ownUsers who = right.ownUsers who :=
  congrArg VisibleRows.users alike

theorem isSelf_eq : left.isSelf who = right.isSelf who := by
  funext userId
  rw [Database.isSelf, Database.isSelf, alike.ownUsers_eq]

theorem memberships_eq : (left.identity.memberships.filter fun row => left.isSelf who row.userId) =
    right.identity.memberships.filter fun row => left.isSelf who row.userId := by
  have same := congrArg VisibleRows.memberships alike
  dsimp only [Database.seenBy] at same
  rwa [← alike.isSelf_eq] at same

theorem ownConversations_eq : left.ownConversations who = right.ownConversations who :=
  congrArg VisibleRows.conversations alike

theorem isOwnConversation_eq : left.isOwnConversation who = right.isOwnConversation who := by
  funext conversationId
  rw [Database.isOwnConversation, Database.isOwnConversation, alike.ownConversations_eq]

theorem ownMessages_eq : left.ownMessages who = right.ownMessages who :=
  congrArg VisibleRows.messages alike

theorem isOwnMessage_eq : left.isOwnMessage who = right.isOwnMessage who := by
  funext messageId
  rw [Database.isOwnMessage, Database.isOwnMessage, alike.ownMessages_eq]

/-- The conversations agree on those of the subject. -/
theorem conversations_eq :
    (left.dialogue.conversations.filter fun row => left.isSelf who row.ownerUserId) =
      right.dialogue.conversations.filter fun row => left.isSelf who row.ownerUserId := by
  have same := alike.ownConversations_eq
  unfold Database.ownConversations at same
  rwa [← alike.isSelf_eq] at same

theorem messages_eq :
    (left.dialogue.messages.filter fun row => left.isOwnConversation who row.conversationId) =
      right.dialogue.messages.filter fun row => left.isOwnConversation who row.conversationId := by
  have same := alike.ownMessages_eq
  unfold Database.ownMessages at same
  rwa [← alike.isOwnConversation_eq] at same

theorem retrievedEvidence_eq :
    (left.dialogue.retrievedEvidence.filter fun row => left.isOwnMessage who row.messageId) =
      right.dialogue.retrievedEvidence.filter fun row => left.isOwnMessage who row.messageId := by
  have same := congrArg VisibleRows.retrievedEvidence alike
  dsimp only [Database.seenBy] at same
  rwa [← alike.isOwnMessage_eq] at same

theorem citations_eq :
    (left.dialogue.citations.filter fun row => left.isOwnMessage who row.messageId) =
      right.dialogue.citations.filter fun row => left.isOwnMessage who row.messageId := by
  have same := congrArg VisibleRows.citations alike
  dsimp only [Database.seenBy] at same
  rwa [← alike.isOwnMessage_eq] at same

end Rows

/-! ### Who may do what -/

section Rights

variable (alike : Alike who left right)

include alike

theorem belongs_eq {userId courseId : UUID} (self : left.isSelf who userId = true) :
    belongs left.identity userId courseId = belongs right.identity userId courseId := by
  have seen : ∀ row : CourseMembership, (row.userId == userId && row.courseId == courseId) = true →
      left.isSelf who row.userId = true := by
    intro row matched
    rw [Bool.and_eq_true, beq_iff_eq] at matched
    rw [matched.1]
    exact self
  exact any_eq_of_seen_only alike.memberships_eq seen

theorem teaches_eq {userId courseId : UUID} (self : left.isSelf who userId = true) :
    teaches left.identity userId courseId = teaches right.identity userId courseId := by
  have seen : ∀ row : CourseMembership,
      (row.userId == userId && row.courseId == courseId && row.role == .teacher) = true →
        left.isSelf who row.userId = true := by
    intro row matched
    rw [Bool.and_eq_true, Bool.and_eq_true, beq_iff_eq] at matched
    rw [matched.1.1]
    exact self
  exact any_eq_of_seen_only alike.memberships_eq seen

theorem attends_eq : left.attends who = right.attends who := by
  funext courseId
  unfold Database.attends
  rw [← alike.isSelf_eq]
  have seen : ∀ row : CourseMembership,
      (left.isSelf who row.userId && row.courseId == courseId) = true →
        left.isSelf who row.userId = true :=
    fun row matched => (Bool.and_eq_true _ _ ▸ matched).1
  exact any_eq_of_seen_only alike.memberships_eq seen

theorem member_eq (courseId : UUID) :
    member left.identity who courseId = member right.identity who courseId := by
  unfold member
  have same : (left.identity.users.find? fun user =>
        isSubject who user && belongs left.identity user.id courseId) =
      right.identity.users.find? fun user =>
        isSubject who user && belongs right.identity user.id courseId :=
    find?_eq_of_seen alike.ownUsers_eq (fun _ _ matched => (Bool.and_eq_true _ _ ▸ matched).1)
      (fun _ _ matched => (Bool.and_eq_true _ _ ▸ matched).1) fun user known subject => by
        rw [alike.belongs_eq (isSelf_of_mem known subject)]
  rw [same]

theorem authorizedTeacher_eq (courseId : UUID) :
    authorizedTeacher left.identity who courseId =
      authorizedTeacher right.identity who courseId := by
  unfold authorizedTeacher
  have same : (left.identity.users.find? fun user =>
        isSubject who user && teaches left.identity user.id courseId) =
      right.identity.users.find? fun user =>
        isSubject who user && teaches right.identity user.id courseId :=
    find?_eq_of_seen alike.ownUsers_eq (fun _ _ matched => (Bool.and_eq_true _ _ ▸ matched).1)
      (fun _ _ matched => (Bool.and_eq_true _ _ ▸ matched).1) fun user known subject => by
        rw [alike.teaches_eq (isSelf_of_mem known subject)]
  rw [same]

theorem isOwner_eq (conversation : Conversation) :
    isOwner left.identity who conversation = isOwner right.identity who conversation := by
  unfold isOwner
  have subject : ∀ (tables : Identity) (user : User),
      (user.id == conversation.ownerUserId && isSubject who user &&
        belongs tables user.id conversation.courseId) = true → isSubject who user = true := by
    intro tables user matched
    rw [Bool.and_eq_true, Bool.and_eq_true] at matched
    exact matched.1.2
  exact any_eq_of_seen alike.ownUsers_eq (fun user _ => subject _ user)
    (fun user _ => subject _ user) fun user known isSubject => by
      rw [alike.belongs_eq (isSelf_of_mem known isSubject)]

end Rights

/-! ### Conversations -/

section Dialogue

variable (alike : Alike who left right)

include alike

theorem owned_eq (conversationId : UUID) :
    owned left.identity left.dialogue who conversationId =
      owned right.identity right.dialogue who conversationId := by
  unfold owned
  have same : (left.dialogue.conversations.find? fun conversation =>
        conversation.id == conversationId && isOwner left.identity who conversation) =
      right.dialogue.conversations.find? fun conversation =>
        conversation.id == conversationId && isOwner right.identity who conversation := by
    refine find?_eq_of_seen alike.conversations_eq ?_ ?_ ?_
    · intro row _ matched
      exact (seen_of_isOwner (Bool.and_eq_true _ _ ▸ matched).2).1
    · intro row _ matched
      rw [alike.isSelf_eq]
      exact (seen_of_isOwner (Bool.and_eq_true _ _ ▸ matched).2).1
    · intro row _ _
      rw [alike.isOwner_eq]
  rw [same]

/-- A selection of messages of one own conversation. -/
theorem messages_filter_eq {conversationId : UUID}
    (own : left.isOwnConversation who conversationId = true) {selected : Message → Bool}
    (inside : ∀ row, selected row = true → row.conversationId = conversationId) :
    left.dialogue.messages.filter selected = right.dialogue.messages.filter selected := by
  have seen : ∀ row, selected row = true →
      left.isOwnConversation who row.conversationId = true := by
    intro row matched
    rw [inside row matched]
    exact own
  exact filter_eq_of_seen_only alike.messages_eq seen

theorem messages_find?_eq {conversationId : UUID}
    (own : left.isOwnConversation who conversationId = true) {selected : Message → Bool}
    (inside : ∀ row, selected row = true → row.conversationId = conversationId) :
    left.dialogue.messages.find? selected = right.dialogue.messages.find? selected := by
  rw [← List.head?_filter, ← List.head?_filter, alike.messages_filter_eq own inside]

theorem citedRows_eq {messageId : UUID} (own : left.isOwnMessage who messageId = true) :
    citedRows left.dialogue messageId = citedRows right.dialogue messageId := by
  have cited : (left.dialogue.citations.filter fun row => decide (row.messageId = messageId)) =
      right.dialogue.citations.filter fun row => decide (row.messageId = messageId) := by
    have seen : ∀ row : Citation, decide (row.messageId = messageId) = true →
        left.isOwnMessage who row.messageId = true := by
      intro row matched
      rw [of_decide_eq_true matched]
      exact own
    exact filter_eq_of_seen_only alike.citations_eq seen
  unfold citedRows
  rw [← cited]
  refine List.flatMap_congr fun citation member => ?_
  have ofMessage := of_decide_eq_true (List.mem_filter.mp member).2
  have seen : ∀ row : RetrievedEvidence, decide (row.messageId = citation.messageId ∧
      row.chunkId = citation.chunkId ∧ row.courseId = citation.courseId) = true →
        left.isOwnMessage who row.messageId = true := by
    intro row matched
    rw [(of_decide_eq_true matched).1, ofMessage]
    exact own
  rw [filter_eq_of_seen_only alike.retrievedEvidence_eq seen]

theorem view_eq {message : Message} (own : left.isOwnMessage who message.id = true) :
    view left.dialogue message = view right.dialogue message := by
  unfold view answerView
  rw [alike.citedRows_eq own]

theorem completedBefore_eq {conversationId : UUID}
    (own : left.isOwnConversation who conversationId = true) (bound : Nat) :
    completedBefore left.dialogue conversationId bound =
      completedBefore right.dialogue conversationId bound := by
  unfold completedBefore
  rw [alike.messages_filter_eq own fun row matched => (of_decide_eq_true matched).1]

theorem continuity_eq (unicode : Text.UnicodeData) {conversation : Conversation}
    (own : left.isOwnConversation who conversation.id = true) (question : String) (kind : Kind)
    (intent : Option Intent) (parentMessageId : Option UUID) :
    continuity unicode left.dialogue conversation question kind intent parentMessageId =
      continuity unicode right.dialogue conversation question kind intent parentMessageId := by
  have parents (parentId : UUID) :
      (left.dialogue.messages.find? fun message =>
          message.id == parentId && message.conversationId == conversation.id &&
            message.courseId == conversation.courseId && message.isCompleted) =
        right.dialogue.messages.find? fun message =>
          message.id == parentId && message.conversationId == conversation.id &&
            message.courseId == conversation.courseId && message.isCompleted := by
    refine alike.messages_find?_eq own fun row matched => ?_
    simp only [Bool.and_eq_true, beq_iff_eq] at matched
    exact matched.1.1.2
  unfold continuity followUp
  simp only [parents, alike.completedBefore_eq own]

/-- Expiry leaves alike what was alike. -/
theorem expire (clock completed : Clock) (conversationId : UUID) :
    Alike who (left.expire clock completed conversationId)
      (right.expire clock completed conversationId) := by
  have expired (database : Database) :
      (database.expire clock completed conversationId).seenBy who =
        { database.seenBy who with
          messages := updateWhere (database.seenBy who).messages
            (expires clock (some conversationId)) (Message.expired completed) } := by
    unfold Database.seenBy
    rw [Database.ownMessages_expire, Database.isOwnMessage_expire]
    rfl
  unfold Alike
  rw [expired, expired, alike]

end Dialogue

/-! ### Material -/

section Material

variable (alike : Alike who left right) {courseId : UUID}

include alike

/-- Tables that agree on the rows of attended courses. -/
theorem attended_eq {α : Type} {leftRows rightRows : List α} {course : α → UUID}
    (same : (leftRows.filter fun row => left.attends who (course row)) =
      rightRows.filter fun row => right.attends who (course row)) :
    (leftRows.filter fun row => left.attends who (course row)) =
      rightRows.filter fun row => left.attends who (course row) := by
  rwa [← alike.attends_eq] at same

theorem courses_eq : (left.material.courses.filter fun row => left.attends who row.id) =
    right.material.courses.filter fun row => left.attends who row.id :=
  alike.attended_eq (congrArg VisibleRows.courses alike)

theorem documents_eq : (left.material.documents.filter fun row => left.attends who row.courseId) =
    right.material.documents.filter fun row => left.attends who row.courseId :=
  alike.attended_eq (congrArg VisibleRows.documents alike)

theorem documentVersions_eq :
    (left.material.documentVersions.filter fun row => left.attends who row.courseId) =
      right.material.documentVersions.filter fun row => left.attends who row.courseId :=
  alike.attended_eq (congrArg VisibleRows.documentVersions alike)

theorem corpusVersions_eq :
    (left.material.corpusVersions.filter fun row => left.attends who row.courseId) =
      right.material.corpusVersions.filter fun row => left.attends who row.courseId :=
  alike.attended_eq (congrArg VisibleRows.corpusVersions alike)

theorem corpusVersionDocuments_eq :
    (left.material.corpusVersionDocuments.filter fun row => left.attends who row.courseId) =
      right.material.corpusVersionDocuments.filter fun row => left.attends who row.courseId :=
  alike.attended_eq (congrArg VisibleRows.corpusVersionDocuments alike)

theorem chunks_eq : (left.material.chunks.filter fun row => left.attends who row.courseId) =
    right.material.chunks.filter fun row => left.attends who row.courseId :=
  alike.attended_eq (congrArg VisibleRows.chunks alike)

theorem ingestionJobs_eq :
    (left.material.ingestionJobs.filter fun row => left.attends who row.courseId) =
      right.material.ingestionJobs.filter fun row => left.attends who row.courseId :=
  alike.attended_eq (congrArg VisibleRows.ingestionJobs alike)

/-- The corpus a question captures is of its own course. -/
theorem captureCorpus_eq (attended : left.attends who courseId = true) :
    captureCorpus left.material courseId = captureCorpus right.material courseId := by
  have active (corpus : CorpusVersion) :
      (left.material.courses.any fun course =>
          course.id == courseId && course.activeCorpusVersionId == some corpus.id &&
            course.id == corpus.courseId) =
        right.material.courses.any fun course =>
          course.id == courseId && course.activeCorpusVersionId == some corpus.id &&
            course.id == corpus.courseId := by
    have seen : ∀ course : Course, (course.id == courseId &&
        course.activeCorpusVersionId == some corpus.id && course.id == corpus.courseId) = true →
          left.attends who course.id = true := by
      intro course matched
      simp only [Bool.and_eq_true, beq_iff_eq] at matched
      rw [matched.1.1]
      exact attended
    exact any_eq_of_seen_only alike.courses_eq seen
  have inCourse : ∀ corpus : CorpusVersion,
      (corpus.state == .ready && right.material.courses.any fun course =>
        course.id == courseId && course.activeCorpusVersionId == some corpus.id &&
          course.id == corpus.courseId) = true → left.attends who corpus.courseId = true := by
    intro corpus matched
    rw [Bool.and_eq_true] at matched
    obtain ⟨course, _, here⟩ := List.any_eq_true.mp matched.2
    simp only [Bool.and_eq_true, beq_iff_eq] at here
    rw [← here.2, here.1.1]
    exact attended
  unfold captureCorpus
  simp only [active]
  rw [find?_eq_of_seen alike.corpusVersions_eq (fun row _ => inCourse row)
    (fun row _ => inCourse row) fun _ _ _ => rfl]

/-- The rows a retriever searches are of one course. -/
theorem corpusRows_eq (attended : left.attends who courseId = true) (corpusVersionId : UUID) :
    corpusRows left.material courseId corpusVersionId =
      corpusRows right.material courseId corpusVersionId := by
  have chunks : (left.material.chunks.filter fun chunk =>
        chunk.courseId == courseId && chunk.corpusVersionId == corpusVersionId) =
      right.material.chunks.filter fun chunk =>
        chunk.courseId == courseId && chunk.corpusVersionId == corpusVersionId := by
    have seen : ∀ chunk : Chunk, (chunk.courseId == courseId &&
        chunk.corpusVersionId == corpusVersionId) = true →
          left.attends who chunk.courseId = true := by
      intro chunk matched
      rw [Bool.and_eq_true, beq_iff_eq] at matched
      rw [matched.1]
      exact attended
    exact filter_eq_of_seen_only alike.chunks_eq seen
  unfold corpusRows
  rw [← chunks]
  refine List.flatMap_congr fun chunk member => ?_
  have inCourse : left.attends who chunk.courseId = true := by
    have matched := (List.mem_filter.mp member).2
    rw [Bool.and_eq_true, beq_iff_eq] at matched
    rw [matched.1]
    exact attended
  have versionSeen : ∀ version : DocumentVersion, (version.id == chunk.documentVersionId &&
      version.courseId == chunk.courseId && version.state == .indexed) = true →
        left.attends who version.courseId = true := by
    intro version matched
    simp only [Bool.and_eq_true, beq_iff_eq] at matched
    rw [matched.1.2]
    exact inCourse
  rw [filter_eq_of_seen_only alike.documentVersions_eq versionSeen]
  refine List.flatMap_congr fun version _ => ?_
  have documentSeen : ∀ document : Document, (document.id == version.documentId &&
      document.courseId == chunk.courseId) = true →
        left.attends who document.courseId = true := by
    intro document matched
    rw [Bool.and_eq_true, beq_iff_eq, beq_iff_eq] at matched
    rw [matched.2]
    exact inCourse
  rw [filter_eq_of_seen_only alike.documents_eq documentSeen]

theorem versionsAt_eq {path : VersionPath} (attended : left.attends who path.courseId = true) :
    versionsAt left.material path = versionsAt right.material path := by
  have seen : ∀ version : DocumentVersion, (version.courseId == path.courseId &&
      version.documentId == path.documentId && version.id == path.versionId) = true →
        left.attends who version.courseId = true := by
    intro version matched
    simp only [Bool.and_eq_true, beq_iff_eq] at matched
    rw [matched.1.1]
    exact attended
  exact filter_eq_of_seen_only alike.documentVersions_eq seen

/-- The joins on a version name no course; the foreign keys keep them in the
course of the version. -/
theorem jobsOf_eq {version : DocumentVersion} (known : version ∈ left.material.documentVersions)
    (attended : left.attends who version.courseId = true) :
    jobsOf left.material version.id = jobsOf right.material version.id := by
  have seen (database : Database) (found : version ∈ database.material.documentVersions) :
      ∀ job ∈ database.material.ingestionJobs, (job.documentVersionId == version.id) = true →
        left.attends who job.courseId = true := by
    intro job member matched
    obtain ⟨owner, ownerKnown, sameCourse, isOwner⟩ :=
      database.materialConstraints.jobVersion job member
    have same := database.materialConstraints.versionIds.eq_of_key ownerKnown found
      (isOwner.trans (beq_iff_eq.mp matched))
    rw [← sameCourse, same]
    exact attended
  exact filter_eq_of_seen alike.ingestionJobs_eq (seen left known)
    (seen right ((mem_iff_of_seen alike.documentVersions_eq attended).mp known)) fun _ _ _ => rfl

theorem corporaOf_eq {version : DocumentVersion} (known : version ∈ left.material.documentVersions)
    (attended : left.attends who version.courseId = true) :
    corporaOf left.material version.id = corporaOf right.material version.id := by
  have seen (database : Database) (found : version ∈ database.material.documentVersions) :
      ∀ row ∈ database.material.corpusVersionDocuments,
        (row.documentVersionId == version.id) = true → left.attends who row.courseId = true := by
    intro row member matched
    obtain ⟨owner, ownerKnown, sameCourse, isOwner⟩ :=
      database.materialConstraints.corpusDocumentVersion row member
    have same := database.materialConstraints.versionIds.eq_of_key ownerKnown found
      (isOwner.trans (beq_iff_eq.mp matched))
    rw [← sameCourse, same]
    exact attended
  exact filter_eq_of_seen alike.corpusVersionDocuments_eq (seen left known)
    (seen right ((mem_iff_of_seen alike.documentVersions_eq attended).mp known)) fun _ _ _ => rfl

end Material

/-! ### Retrieval -/

section Retrieval

variable (alike : Alike who left right) {now : Time} {scope : RetrievalScope} {query : String}

include alike

/-- The rows that authorize a retrieval for the subject are its own message, its
own conversation and a corpus of a course it belongs to. -/
theorem authorized_of_authorized (self : left.isSelf who scope.principalUserId = true)
    (authorized : ∃ message ∈ left.dialogue.messages, message.inScope now scope query = true ∧
      (∃ conversation ∈ left.dialogue.conversations,
        conversation.inScope left.identity message scope = true) ∧
      ∃ corpus ∈ left.material.corpusVersions, corpus.inScope message = true) :
    left.attends who scope.courseId = true ∧
      ∃ message ∈ right.dialogue.messages, message.inScope now scope query = true ∧
        (∃ conversation ∈ right.dialogue.conversations,
          conversation.inScope right.identity message scope = true) ∧
        ∃ corpus ∈ right.material.corpusVersions, corpus.inScope message = true := by
  obtain ⟨message, asked, inScope, ⟨conversation, held, isHeld⟩, corpus, published, isPublished⟩ :=
    authorized
  have conversationScope := isHeld
  simp only [Conversation.inScope, Bool.and_eq_true, beq_iff_eq] at conversationScope
  obtain ⟨⟨sameConversation, belongsTo⟩, isPrincipal⟩ := conversationScope
  have ownerSelf : left.isSelf who conversation.ownerUserId = true := by rwa [isPrincipal]
  have ownConversation : left.isOwnConversation who message.conversationId = true := by
    rw [← sameConversation]
    exact List.contains_iff_mem.mpr
      (List.mem_map_of_mem (List.mem_filter.mpr ⟨held, ownerSelf⟩))
  -- The foreign key of the message puts it in the course of its conversation.
  obtain ⟨other, otherHeld, sameCourse, isOther⟩ :=
    left.dialogueConstraints.1.messageConversation message asked
  have same := left.dialogueConstraints.1.conversationIds.eq_of_key otherHeld held
    (isOther.trans sameConversation.symm)
  rw [same] at sameCourse
  have attended : left.attends who message.courseId = true := by
    rw [← sameCourse]
    exact attends_of_belongs ownerSelf belongsTo
  have messageScope := inScope
  simp only [Message.inScope, Bool.and_eq_true, beq_iff_eq] at messageScope
  have corpusScope := isPublished
  simp only [CorpusVersion.inScope, Bool.and_eq_true, beq_iff_eq] at corpusScope
  refine ⟨?_, message, (mem_iff_of_seen alike.messages_eq ownConversation).mp asked, inScope,
    ⟨conversation, (mem_iff_of_seen alike.conversations_eq ownerSelf).mp held, ?_⟩,
    corpus, (mem_iff_of_seen alike.corpusVersions_eq ?_).mp published, isPublished⟩
  · rw [← messageScope.1.1.1.1.1.2]
    exact attended
  · rw [Conversation.inScope, ← alike.belongs_eq ownerSelf]
    exact isHeld
  · rw [corpusScope.1.2]
    exact attended

theorem authorizeRetrieval_eq (self : left.isSelf who scope.principalUserId = true) :
    authorizeRetrieval left.identity left.material left.dialogue now scope query =
      authorizeRetrieval right.identity right.material right.dialogue now scope query := by
  have selfRight : right.isSelf who scope.principalUserId = true := by
    rw [← alike.isSelf_eq]
    exact self
  unfold authorizeRetrieval
  congr 1
  refine propext (not_congr ⟨fun authorized => ?_, fun authorized => ?_⟩)
  · exact (alike.authorized_of_authorized self authorized).2
  · exact (alike.symm.authorized_of_authorized selfRight authorized).2

end Retrieval

end Alike

/-- An authorized retrieval is in a course that the subject belongs to. -/
theorem attends_of_authorized {who : AuthenticatedIdentity} {database : Database} {now : Time}
    {scope : RetrievalScope} {query : String}
    (self : database.isSelf who scope.principalUserId = true)
    (authorized : authorizeRetrieval database.identity database.material database.dialogue now
      scope query = .ok ()) : database.attends who scope.courseId = true := by
  have rows := not_not.mp (failIf_eq_ok.mp authorized)
  have selfAlike : Alike who database database := rfl
  exact (selfAlike.authorized_of_authorized self rows).1

end Docta
