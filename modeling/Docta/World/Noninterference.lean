/-
Module: Docta.World.Noninterference
Purpose: Tenant noninterference. What the services answer an identity depends only
  on what it sees: in two databases that are alike for it, every operation returns
  the same result, up to the identifiers it draws, or raises the same error. What
  it does not see is answered like what does not exist.
Trusted boundary: the text search depends on a chunk's content and the query only
Main exports: Indistinguishable, Concealed, tenant_noninterference
-/
import Docta.Ingestion.Confirmation
import Docta.Library.Lockstep
import Docta.World.Admission
import Docta.World.Antecedents
import Docta.World.Tenancy

namespace Docta

open Table Fallible ConversationService DocumentService

/-! ### Fresh identifiers -/

/-- An identifier under another choice of the one that was drawn. -/
def redrawn (drawn other id : UUID) : UUID := if id = drawn then other else id

def ConversationView.redrawn (drawn other : UUID) (view : ConversationView) : ConversationView :=
  { view with id := Docta.redrawn drawn other view.id }

def AcceptedMessage.redrawn (drawn other : UUID) (accepted : AcceptedMessage) : AcceptedMessage :=
  { accepted with
    message := { accepted.message with id := Docta.redrawn drawn other accepted.message.id } }

def VersionView.redrawn (drawn other : UUID) (view : VersionView) : VersionView :=
  { view with jobId := view.jobId.map (Docta.redrawn drawn other) }

def IngestionJob.redrawn (drawn other : UUID) (job : IngestionJob) : IngestionJob :=
  { job with id := Docta.redrawn drawn other job.id }

@[simp] theorem redrawn_self (drawn other : UUID) : redrawn drawn other drawn = other :=
  if_pos rfl

theorem redrawn_of_ne {drawn other id : UUID} (apart : id ≠ drawn) : redrawn drawn other id = id :=
  if_neg apart

section Drawn

variable {drawn other : UUID}

theorem ConversationView.redrawn_of_drawn {view : ConversationView} (isDrawn : view.id = drawn) :
    view.redrawn drawn other = { view with id := other } := by
  rw [ConversationView.redrawn, isDrawn, redrawn_self]

theorem ConversationView.redrawn_of_ne {view : ConversationView} (apart : view.id ≠ drawn) :
    view.redrawn drawn other = view := by
  rw [ConversationView.redrawn, Docta.redrawn_of_ne apart]

theorem AcceptedMessage.redrawn_of_drawn {accepted : AcceptedMessage}
    (isDrawn : accepted.message.id = drawn) :
    accepted.redrawn drawn other =
      { accepted with message := { accepted.message with id := other } } := by
  rw [AcceptedMessage.redrawn, isDrawn, redrawn_self]

theorem AcceptedMessage.redrawn_of_ne {accepted : AcceptedMessage}
    (apart : accepted.message.id ≠ drawn) : accepted.redrawn drawn other = accepted := by
  rw [AcceptedMessage.redrawn, Docta.redrawn_of_ne apart]

theorem IngestionJob.redrawn_of_ne {job : IngestionJob} (apart : job.id ≠ drawn) :
    job.redrawn drawn other = job := by
  rw [IngestionJob.redrawn, Docta.redrawn_of_ne apart]

end Drawn

/-! ### Answers -/

namespace Database

variable (database : Database) (who : AuthenticatedIdentity)

/-- What `history` answers. -/
def history (conversationId : UUID) (afterSequence limit : Nat) (clock completed : Clock) :
    Except Failure HistoryView :=
  Prod.fst <$> ConversationService.history database.identity database.material who conversationId
    afterSequence limit clock completed database.dialogue

/-- What `read` answers. -/
def read (conversationId messageId : UUID) (clock completed : Clock) : Except Failure MessageView :=
  Prod.fst <$> ConversationService.read database.identity database.material who conversationId
    messageId clock completed database.dialogue

/-- What `create` answers. -/
def create (courseId : UUID) (key : Option String) (freshId : UUID) (createdAt : Time) :
    Except Failure ConversationView :=
  Prod.fst <$> ConversationService.create database.identity database.material who courseId key
    freshId createdAt database.dialogue

/-- The corpus that a question to the conversation captures. -/
def capturedCorpus (conversationId : UUID) : Option UUID :=
  match owned database.identity database.dialogue who conversationId with
  | .ok conversation => captureCorpus database.material conversation.courseId
  | .error _ => none

/-- What `accept` answers; its corpus query finds the same tables. -/
def accept (settings : ConversationService.Settings) (unicode : Text.UnicodeData)
    (request : Question) (readings : Readings) : Except Failure AcceptedMessage :=
  Prod.fst <$> ConversationService.accept settings unicode database.identity database.material who
    request { readings with corpusId := database.capturedCorpus who request.conversationId }
    database.dialogue

/-- What `PostgresRetriever.retrieve` answers. -/
def retrieve (search : TextSearch) (now : Time) (scope : RetrievalScope) (question : String) :
    Except Failure (List Evidence) :=
  PostgresRetriever.retrieve search database.identity database.material database.dialogue now scope
    question

/-- What `get_version` answers. -/
def getVersion (path : VersionPath) : Except Failure VersionView :=
  DocumentService.getVersion database.identity who path database.material

/-- What `confirm_upload` answers, with nothing else between its transactions:
`inspect` is the object store's answer about a storage key. -/
def confirmUpload (settings : DocumentService.Settings) (path : VersionPath) (key : Option String)
    (correlationId : String) (inspect : String → Except Failure StoredObjectMetadata)
    (jobId : UUID) (stamp : Stamp) : Except Failure VersionView := do
  let key ← validatedIdempotencyKey key
  let existing ← existingConfirmation database.identity who path key
    (confirmationHash settings path) database.material
  match existing with
  | some _ => DocumentService.getVersion database.identity who path database.material
  | none => do
      let record ← loadUpload database.identity who path database.material
      let metadata ← inspect record.storageKey
      validateStoredObject settings metadata record
      let confirmed ← confirm settings database.identity who path key correlationId metadata jobId
        stamp database.material
      DocumentService.getVersion database.identity who path confirmed

end Database

/-! ### One database -/

theorem commit_expire (database : Database) (clock completed : Clock) (conversationId : UUID) :
    (ConversationService.expire clock completed (some conversationId) database.dialogue).commit
        database.identity database.material =
      .ok (ConversationService.expire clock completed (some conversationId) database.dialogue) :=
  Dialogue.commit_eq_ok.mpr
    ⟨(database.expire clock completed conversationId).dialogueConstraints, rfl⟩

theorem fresh_expire {database : Database} {clock completed : Clock}
    {conversationId messageId : UUID}
    (fresh : ∀ row ∈ database.dialogue.messages, row.id ≠ messageId) :
    ∀ row ∈ (ConversationService.expire clock completed (some conversationId)
      database.dialogue).messages, row.id ≠ messageId := by
  intro row member
  obtain ⟨source, sourceKnown, same, _⟩ := mem_expire member
  rw [Message.column_eq same (·.id) fun _ => rfl]
  exact fresh source sourceKnown

theorem capturedCorpus_of_owned {database : Database} {who : AuthenticatedIdentity}
    {conversationId : UUID} {conversation : Conversation}
    (isOwned : owned database.identity database.dialogue who conversationId = .ok conversation) :
    database.capturedCorpus who conversationId =
      captureCorpus database.material conversation.courseId := by
  rw [Database.capturedCorpus, isOwned]

/-- The upload that is loaded is of a course the subject belongs to. -/
theorem seen_of_loadUpload {who : AuthenticatedIdentity} {database : Database} {path : VersionPath}
    {record : DocumentVersion}
    (ok : loadUpload database.identity who path database.material = .ok record) :
    record ∈ database.material.documentVersions ∧
      database.attends who record.courseId = true := by
  rw [loadUpload, bind_eq_ok] at ok
  obtain ⟨userId, isTeacher, found⟩ := ok
  split at found
  · rename_i version isVersion
    cases found
    obtain ⟨known, matched⟩ := List.mem_filter.mp (List.mem_of_mem_head? isVersion)
    simp only [Bool.and_eq_true, beq_iff_eq] at matched
    rw [matched.1.1]
    exact ⟨known, attends_of_teacher isTeacher⟩
  · cases found

theorem oneOrNone_map {α β : Type} {image : α → β} (rows : List α) :
    oneOrNone (rows.map image) = Option.map image <$> oneOrNone rows := by
  match rows with
  | [] => rfl
  | [_] => rfl
  | _ :: _ :: _ => rfl

/-- Two readings of a version that find the same rows, up to a job's identifier. -/
theorem getVersion_redrawn {who : AuthenticatedIdentity} {first second : Identity}
    {before after : Material} {path : VersionPath} {drawn other : UUID}
    (teacher : authorizedTeacher first who path.courseId =
      authorizedTeacher second who path.courseId)
    (rows : ∀ userId, authorizedTeacher first who path.courseId = .ok userId →
      versionsAt after path = versionsAt before path ∧
        ∀ version ∈ versionsAt before path,
          corporaOf after version.id = corporaOf before version.id ∧
            jobsOf after version.id =
              (jobsOf before version.id).map (IngestionJob.redrawn drawn other)) :
    VersionView.redrawn drawn other <$> DocumentService.getVersion first who path before =
      DocumentService.getVersion second who path after := by
  unfold DocumentService.getVersion
  rw [← teacher]
  cases authorized : authorizedTeacher first who path.courseId with
  | error failure => rfl
  | ok userId =>
      obtain ⟨versions, joined⟩ := rows userId authorized
      have corpora : outerJoin (versionsAt after path) (fun version => corporaOf after version.id) =
          outerJoin (versionsAt before path) fun version => corporaOf before version.id := by
        rw [versions]
        exact outerJoin_congr fun version member => (joined version member).1
      simp only [ok_bind, corpora]
      rw [outerJoin_congr fun row member => (joined row.1 (fst_mem_of_mem_outerJoin member)).2,
        outerJoin_map, oneOrNone_map]
      cases oneOrNone (outerJoin (outerJoin (versionsAt before path) fun version =>
          corporaOf before version.id) fun row => jobsOf before row.1.id) with
      | error failure => rfl
      | ok row =>
          cases row with
          | none => rfl
          | some row =>
              obtain ⟨⟨version, corpus⟩, job⟩ := row
              cases job with
              | none => rfl
              | some job => rfl

theorem map_redrawn_of_fresh {material : Material} {drawn other versionId : UUID}
    (fresh : ∀ job ∈ material.ingestionJobs, job.id ≠ drawn) :
    (jobsOf material versionId).map (IngestionJob.redrawn drawn other) =
      jobsOf material versionId := by
  refine (List.map_congr_left fun job isJob => ?_).trans (List.map_id _)
  exact IngestionJob.redrawn_of_ne (fresh job (List.mem_filter.mp isJob).1)

/-! ### Conversations -/

namespace Alike

variable {who : AuthenticatedIdentity} {left right : Database}

section Dialogue

variable (alike : Alike who left right)

include alike

theorem history_eq (conversationId : UUID) (afterSequence limit : Nat) (clock completed : Clock) :
    left.history who conversationId afterSequence limit clock completed =
      right.history who conversationId afterSequence limit clock completed := by
  refine Lockstep.map_eq (?_ : Lockstep (fun shown other => shown.1 = other.1) _ _)
    fun _ _ same => same
  unfold ConversationService.history
  refine Lockstep.bind_eq (alike.owned_eq conversationId) fun conversation found => ?_
  obtain ⟨_, _, _, own, _⟩ := seen_of_owned found
  have expired := alike.expire clock completed conversationId
  have listed : (ConversationService.expire clock completed (some conversationId)
        left.dialogue).messages.filter (fun message =>
          decide (message.conversationId = conversationId ∧ afterSequence < message.sequence)) =
      (ConversationService.expire clock completed (some conversationId)
        right.dialogue).messages.filter (fun message =>
          decide (message.conversationId = conversationId ∧ afterSequence < message.sequence)) :=
    expired.messages_filter_eq own fun row matched => (of_decide_eq_true matched).1
  simp only [commit_expire, ← listed]
  refine Lockstep.bind_eq (mapM_congr fun message member => ?_) fun shown _ => .returns rfl
  · have inList := List.mem_of_mem_take (List.mem_of_mem_take member)
    have inConversation := List.mem_filter.mp ((List.mem_insertionSort oldestFirst).mp inList)
    refine expired.view_eq (isOwnMessage_of_mem inConversation.1 ?_)
    rw [(of_decide_eq_true inConversation.2).1]
    exact own

theorem read_eq (conversationId messageId : UUID) (clock completed : Clock) :
    left.read who conversationId messageId clock completed =
      right.read who conversationId messageId clock completed := by
  refine Lockstep.map_eq (?_ : Lockstep (fun shown other => shown.1 = other.1) _ _)
    fun _ _ same => same
  unfold ConversationService.read
  refine Lockstep.bind_eq (alike.owned_eq conversationId) fun conversation isOwned => ?_
  obtain ⟨_, _, _, own, _⟩ := seen_of_owned isOwned
  have expired := alike.expire clock completed conversationId
  have found : ((ConversationService.expire clock completed (some conversationId)
        left.dialogue).messages.find? fun message =>
          message.id == messageId && message.conversationId == conversationId) =
      (ConversationService.expire clock completed (some conversationId)
        right.dialogue).messages.find? fun message =>
          message.id == messageId && message.conversationId == conversationId :=
    expired.messages_find?_eq own fun row matched => by
      rw [Bool.and_eq_true, beq_iff_eq, beq_iff_eq] at matched
      exact matched.2
  simp only [commit_expire, ← found]
  cases isMessage : (ConversationService.expire clock completed (some conversationId)
        left.dialogue).messages.find? fun message =>
          message.id == messageId && message.conversationId == conversationId with
  | none => exact .raises _
  | some message =>
      have inConversation := List.find?_some isMessage
      rw [Bool.and_eq_true, beq_iff_eq, beq_iff_eq] at inConversation
      have ownMessage := isOwnMessage_of_mem (List.mem_of_find?_eq_some isMessage) (by
        rw [inConversation.2]
        exact own : (left.expire clock completed conversationId).isOwnConversation who
          message.conversationId = true)
      exact Lockstep.bind_eq (expired.view_eq ownMessage) fun shown _ => .returns rfl

theorem create_eq (courseId : UUID) (key : Option String) (createdAt : Time) {leftId rightId : UUID}
    (freshLeft : ∀ row ∈ left.dialogue.conversations, row.id ≠ leftId)
    (freshRight : ∀ row ∈ right.dialogue.conversations, row.id ≠ rightId) :
    ConversationView.redrawn leftId rightId <$> left.create who courseId key leftId createdAt =
      right.create who courseId key rightId createdAt := by
  unfold Database.create
  cases valid : idempotencyKey key with
  | error failure =>
      unfold ConversationService.create
      rw [valid]
      rfl
  | ok text =>
      cases isMember : member left.identity who courseId with
      | error failure =>
          unfold ConversationService.create
          rw [valid, ← alike.member_eq courseId, isMember]
          rfl
      | ok userId =>
          obtain ⟨self, attended, user⟩ := seen_of_member isMember
          have isMemberRight := (alike.member_eq courseId).symm.trans isMember
          have earlier : left.dialogue.conversations.find? (isCreation courseId userId text) =
              right.dialogue.conversations.find? (isCreation courseId userId text) := by
            rw [← List.head?_filter, ← List.head?_filter,
              filter_eq_of_seen_only alike.conversations_eq fun row matched => ?_]
            simp only [isCreation, Bool.and_eq_true, beq_iff_eq] at matched
            rw [matched.1.2]
            exact self
          have sameCourse : (∃ course ∈ left.material.courses, course.id = courseId) ↔
              ∃ course ∈ right.material.courses, course.id = courseId := by
            refine exists_congr fun course => and_congr_left fun isCourse => ?_
            rw [← isCourse] at attended
            exact mem_iff_of_seen alike.courses_eq attended
          rw [create_of_member left.dialogueConstraints valid isMember user freshLeft,
            create_of_member right.dialogueConstraints valid isMemberRight
              (seen_of_member isMemberRight).2.2 freshRight, ← earlier]
          cases found : left.dialogue.conversations.find? (isCreation courseId userId text) with
          | some conversation =>
              exact congrArg Except.ok (ConversationView.redrawn_of_ne
                (freshLeft conversation (List.mem_of_find?_eq_some found)))
          | none =>
              by_cases course : ∃ course ∈ left.material.courses, course.id = courseId
              · simp only [if_pos course, if_pos (sameCourse.mp course)]
                exact congrArg Except.ok (ConversationView.redrawn_of_drawn rfl)
              · simp only [if_neg course, if_neg (mt sameCourse.mpr course)]
                rfl

/-- The branch of `accept` for a new key, over tables in which expiry was done. -/
theorem acceptNew_alike (settings : ConversationService.Settings) (unicode : Text.UnicodeData)
    {conversation : Conversation} {request : Question} {key : String} {readings : Readings}
    {rightId : UUID} (known : conversation ∈ left.dialogue.conversations)
    (sameId : conversation.id = request.conversationId)
    (self : left.isSelf who conversation.ownerUserId = true)
    (own : left.isOwnConversation who conversation.id = true)
    (attended : left.attends who conversation.courseId = true)
    (unused : ∀ row ∈ left.dialogue.messages, row.conversationId = conversation.id →
      row.idempotencyKey ≠ key)
    (freshLeft : ∀ row ∈ left.dialogue.messages, row.id ≠ readings.messageId)
    (freshRight : ∀ row ∈ right.dialogue.messages, row.id ≠ rightId)
    (captured : readings.corpusId = captureCorpus left.material conversation.courseId) :
    Lockstep (fun shown other => shown.1.redrawn readings.messageId rightId = other.1)
      (acceptNew settings unicode left.identity left.material conversation request key readings
        left.dialogue)
      (acceptNew settings unicode right.identity right.material conversation request key
        { readings with messageId := rightId } right.dialogue) := by
  have inConversation {message : Message}
      (ofConversation : message.conversationId = conversation.id) :
      message ∈ left.dialogue.messages ↔ message ∈ right.dialogue.messages := by
    refine mem_iff_of_seen alike.messages_eq ?_
    rw [ofConversation]
    exact own
  unfold acceptNew
  refine Lockstep.failIf ?_ fun idle => ?_
  · refine exists_congr fun message => and_congr_left fun isPending => ?_
    exact inConversation (isPending.1.trans sameId.symm)
  refine Lockstep.bind_eq (alike.continuity_eq unicode own _ _ _ _) fun turn continued => ?_
  have continuedRight := (alike.continuity_eq unicode own _ _ _ _).symm.trans continued
  have unusedRight : ∀ row ∈ right.dialogue.messages, row.conversationId = conversation.id →
      row.idempotencyKey ≠ key := fun row member ofConversation =>
    unused row ((inConversation ofConversation).mpr member) ofConversation
  have isIdle : ∀ row ∈ left.dialogue.messages, row.conversationId = conversation.id →
      row.state ≠ .pending := fun row member ofConversation isPending =>
    idle ⟨row, member, ofConversation.trans sameId, isPending⟩
  have isIdleRight : ∀ row ∈ right.dialogue.messages, row.conversationId = conversation.id →
      row.state ≠ .pending := fun row member ofConversation =>
    isIdle row ((inConversation ofConversation).mpr member) ofConversation
  -- The two inserts are admitted for the same reasons.
  have inLeft := constraints_newMessage_iff left.dialogueConstraints left.materialConstraints
    settings readings known freshLeft unused isIdle continued captured
  have inRight := constraints_newMessage_iff right.dialogueConstraints right.materialConstraints
    settings { readings with messageId := rightId }
    ((mem_iff_of_seen alike.conversations_eq self).mp known) freshRight unusedRight isIdleRight
    continuedRight (captured.trans (alike.captureCorpus_eq attended))
  have sameReasons := inLeft.trans (Iff.trans (and_congr (@Message.checks_withId
    (newMessage settings conversation request key turn readings) rightId).symm
    (forall_congr' fun row => ⟨fun free member ofConversation =>
      free ((inConversation ofConversation).mpr member) ofConversation, fun free member
      ofConversation => free ((inConversation ofConversation).mp member) ofConversation⟩))
    inRight.symm)
  unfold Dialogue.commit
  dsimp only
  by_cases admits : (insertMessage left.dialogue conversation
      (newMessage settings conversation request key turn readings)).Constraints left.identity
        left.material
  · rw [if_pos admits, if_pos (sameReasons.mp admits)]
    exact .returns (AcceptedMessage.redrawn_of_drawn rfl)
  · rw [if_neg admits, if_neg (mt sameReasons.mpr admits)]
    exact .raises _

theorem accept_eq (settings : ConversationService.Settings) (unicode : Text.UnicodeData)
    (request : Question) (readings : Readings) {rightId : UUID}
    (freshLeft : ∀ row ∈ left.dialogue.messages, row.id ≠ readings.messageId)
    (freshRight : ∀ row ∈ right.dialogue.messages, row.id ≠ rightId) :
    AcceptedMessage.redrawn readings.messageId rightId <$>
        left.accept who settings unicode request readings =
      right.accept who settings unicode request { readings with messageId := rightId } := by
  unfold Database.accept
  rw [← comp_map]
  refine Lockstep.map_eq (?_ : Lockstep
    (fun shown other => shown.1.redrawn readings.messageId rightId = other.1) _ _)
    fun _ _ same => same
  unfold ConversationService.accept
  refine Lockstep.bind_eq rfl fun key _ => ?_
  refine Lockstep.bind_eq (alike.owned_eq request.conversationId) fun conversation isOwned => ?_
  obtain ⟨known, sameId, self, own, attended⟩ := seen_of_owned isOwned
  have expired := alike.expire readings.expiryClock readings.completedClock request.conversationId
  have found : ((ConversationService.expire readings.expiryClock readings.completedClock
        (some request.conversationId) left.dialogue).messages.find? fun message =>
          message.conversationId == request.conversationId && message.idempotencyKey == key) =
      (ConversationService.expire readings.expiryClock readings.completedClock
        (some request.conversationId) right.dialogue).messages.find? fun message =>
          message.conversationId == request.conversationId && message.idempotencyKey == key :=
    expired.messages_find?_eq own fun row matched => by
      rw [Bool.and_eq_true, beq_iff_eq, beq_iff_eq] at matched
      exact matched.1
  simp only [commit_expire, ← found]
  cases isMessage : (ConversationService.expire readings.expiryClock readings.completedClock
        (some request.conversationId) left.dialogue).messages.find? fun message =>
          message.conversationId == request.conversationId && message.idempotencyKey == key with
  | some existing =>
      have inConversation := List.find?_some isMessage
      rw [Bool.and_eq_true, beq_iff_eq, beq_iff_eq] at inConversation
      have isKnown := List.mem_of_find?_eq_some isMessage
      have ownMessage := isOwnMessage_of_mem isKnown (by
        rw [inConversation.1]
        exact own : (left.expire readings.expiryClock readings.completedClock
          request.conversationId).isOwnConversation who existing.conversationId = true)
      refine Lockstep.failIf Iff.rfl fun _ => ?_
      refine Lockstep.bind_eq (expired.view_eq ownMessage) fun shown isShown => ?_
      refine .returns (AcceptedMessage.redrawn_of_ne ?_)
      rw [(shownAs_of_view isShown).id]
      exact fresh_expire freshLeft existing isKnown
  | none =>
      have isOwnedRight := (alike.owned_eq request.conversationId).symm.trans isOwned
      have sameCorpus : right.capturedCorpus who request.conversationId =
          left.capturedCorpus who request.conversationId := by
        rw [capturedCorpus_of_owned isOwned, capturedCorpus_of_owned isOwnedRight,
          alike.captureCorpus_eq attended]
      rw [sameCorpus]
      refine @acceptNew_alike who _ _ expired settings unicode conversation request key
        { readings with corpusId := left.capturedCorpus who request.conversationId } rightId known
        sameId self ?_ attended ?_ (fresh_expire freshLeft) (fresh_expire freshRight)
        (capturedCorpus_of_owned isOwned)
      · rw [sameId]
        exact own
      · intro row member ofConversation isKey
        refine List.find?_eq_none.mp isMessage row member ?_
        rw [ofConversation, sameId, isKey, beq_self_eq_true, beq_self_eq_true]
        rfl

end Dialogue

/-! ### Material -/

section Material

variable (alike : Alike who left right)

include alike

theorem retrieve_eq (search : TextSearch) (now : Time) {scope : RetrievalScope} (question : String)
    (self : left.isSelf who scope.principalUserId = true) :
    left.retrieve search now scope question = right.retrieve search now scope question := by
  unfold Database.retrieve PostgresRetriever.retrieve
  rw [← alike.authorizeRetrieval_eq self]
  cases authorized : authorizeRetrieval left.identity left.material left.dialogue now scope
      question with
  | error failure => rfl
  | ok =>
      rw [alike.corpusRows_eq (attends_of_authorized self authorized)]

/-- The rows that the joins find with the versions of a path. -/
theorem joined_eq {path : VersionPath} (attended : left.attends who path.courseId = true) :
    ∀ version ∈ versionsAt left.material path,
      corporaOf right.material version.id = corporaOf left.material version.id ∧
        jobsOf right.material version.id = jobsOf left.material version.id := by
  intro version member
  obtain ⟨known, matched⟩ := List.mem_filter.mp member
  simp only [Bool.and_eq_true, beq_iff_eq] at matched
  have inCourse : left.attends who version.courseId = true := by
    rw [matched.1.1]
    exact attended
  exact ⟨(alike.corporaOf_eq known inCourse).symm, (alike.jobsOf_eq known inCourse).symm⟩

/-- A reading of a version whose jobs were there before one was drawn. -/
theorem getVersion_of_fresh {path : VersionPath} {drawn : UUID}
    (fresh : ∀ job ∈ left.material.ingestionJobs, job.id ≠ drawn) (other : UUID) :
    VersionView.redrawn drawn other <$> left.getVersion who path = right.getVersion who path := by
  refine getVersion_redrawn (alike.authorizedTeacher_eq path.courseId) fun userId isTeacher => ?_
  have attended := attends_of_teacher isTeacher
  refine ⟨(alike.versionsAt_eq attended).symm, fun version member => ?_⟩
  obtain ⟨corpora, jobs⟩ := alike.joined_eq attended version member
  exact ⟨corpora, jobs.trans (map_redrawn_of_fresh fresh).symm⟩

theorem getVersion_eq (path : VersionPath) :
    left.getVersion who path = right.getVersion who path := by
  unfold Database.getVersion DocumentService.getVersion
  rw [← alike.authorizedTeacher_eq path.courseId]
  cases isTeacher : authorizedTeacher left.identity who path.courseId with
  | error failure => rfl
  | ok userId =>
      have attended := attends_of_teacher isTeacher
      have joined := alike.joined_eq attended
      have corpora : outerJoin (versionsAt left.material path) (fun version =>
            corporaOf right.material version.id) =
          outerJoin (versionsAt left.material path) fun version =>
            corporaOf left.material version.id :=
        outerJoin_congr fun version member => (joined version member).1
      rw [← alike.versionsAt_eq attended, corpora, outerJoin_congr fun row member =>
        (joined row.1 (fst_mem_of_mem_outerJoin member)).2]

theorem existingConfirmation_eq (path : VersionPath) (key hash : String) :
    existingConfirmation left.identity who path key hash left.material =
      existingConfirmation right.identity who path key hash right.material := by
  unfold existingConfirmation
  rw [← alike.authorizedTeacher_eq path.courseId]
  cases isTeacher : authorizedTeacher left.identity who path.courseId with
  | error failure => rfl
  | ok userId =>
      have attended := attends_of_teacher isTeacher
      rw [← alike.versionsAt_eq attended, outerJoin_congr fun version member =>
        (alike.joined_eq attended version member).2]

theorem loadUpload_eq (path : VersionPath) :
    loadUpload left.identity who path left.material =
      loadUpload right.identity who path right.material := by
  unfold loadUpload
  rw [← alike.authorizedTeacher_eq path.courseId]
  cases isTeacher : authorizedTeacher left.identity who path.courseId with
  | error failure => rfl
  | ok userId => rw [← alike.versionsAt_eq (attends_of_teacher isTeacher)]

section Confirmation

variable {path : VersionPath} {version : DocumentVersion} {key hash correlationId : String}
  {metadata : StoredObjectMetadata} {now : Time} {leftJob rightJob : UUID}

/-- A confirmation is admitted in both databases or in neither. -/
theorem confirmedWith_iff (attended : left.attends who path.courseId = true)
    (atPath : version ∈ versionsAt left.material path)
    (freshLeft : ∀ job ∈ left.material.ingestionJobs, job.id ≠ leftJob)
    (freshRight : ∀ job ∈ right.material.ingestionJobs, job.id ≠ rightJob) :
    (left.material.confirmedWith version key hash metadata
        (newJob version path.courseId leftJob correlationId now)).Constraints ↔
      (right.material.confirmedWith version key hash metadata
        (newJob version path.courseId rightJob correlationId now)).Constraints := by
  obtain ⟨known, matched⟩ := List.mem_filter.mp atPath
  simp only [Bool.and_eq_true, beq_iff_eq] at matched
  have knownRight : version ∈ right.material.documentVersions := by
    rw [alike.versionsAt_eq attended] at atPath
    exact (List.mem_filter.mp atPath).1
  have inLeft := @constraints_confirmedWith_iff left.material version key hash metadata
    (newJob version path.courseId leftJob correlationId now) left.materialConstraints known
    matched.1.1.symm rfl freshLeft
  have inRight := @constraints_confirmedWith_iff right.material version key hash metadata
    (newJob version path.courseId rightJob correlationId now) right.materialConstraints knownRight
    matched.1.1.symm rfl freshRight
  rw [← (alike.joined_eq attended version atPath).2] at inLeft
  exact inLeft.trans inRight.symm

/-- The readings after a confirmation find the same rows, and the job that was drawn. -/
theorem getVersion_confirmedWith (events others : List OutboxEvent)
    (freshLeft : ∀ job ∈ left.material.ingestionJobs, job.id ≠ leftJob) :
    VersionView.redrawn leftJob rightJob <$> DocumentService.getVersion left.identity who path
        { left.material.confirmedWith version key hash metadata
            (newJob version path.courseId leftJob correlationId now) with outboxEvents := events } =
      DocumentService.getVersion right.identity who path
        { right.material.confirmedWith version key hash metadata
            (newJob version path.courseId rightJob correlationId now) with
          outboxEvents := others } := by
  refine getVersion_redrawn (alike.authorizedTeacher_eq path.courseId) fun userId isTeacher => ?_
  have attended := attends_of_teacher isTeacher
  rw [versionsAt_confirmedWith, versionsAt_confirmedWith, ← alike.versionsAt_eq attended]
  refine ⟨rfl, fun later member => ?_⟩
  have source : ∃ row ∈ versionsAt left.material path, later.id = row.id := by
    rcases mem_updateWhere_cases member with ⟨stays, _⟩ | ⟨row, isRow, _, same⟩
    · exact ⟨later, stays, rfl⟩
    · exact ⟨row, isRow, by rw [same]; rfl⟩
  obtain ⟨row, isRow, sameId⟩ := source
  obtain ⟨corpora, jobs⟩ := alike.joined_eq attended row isRow
  rw [← sameId] at corpora jobs
  have drawn : IngestionJob.redrawn leftJob rightJob
        (newJob version path.courseId leftJob correlationId now) =
      newJob version path.courseId rightJob correlationId now := by
    rw [IngestionJob.redrawn, newJob, redrawn_self]
    rfl
  refine ⟨corpora, ?_⟩
  rw [jobsOf_confirmedWith, jobsOf_confirmedWith, jobs, List.map_append,
    map_redrawn_of_fresh freshLeft, apply_ite (List.map _), List.map_singleton, drawn, List.map_nil]
  rfl

/-- The last transaction of `confirm_upload`, with the reading after it. -/
theorem confirm_alike (settings : DocumentService.Settings) {leftEvent rightEvent : UUID}
    (freshLeftJob : ∀ job ∈ left.material.ingestionJobs, job.id ≠ leftJob)
    (freshRightJob : ∀ job ∈ right.material.ingestionJobs, job.id ≠ rightJob)
    (freshLeftEvent : ∀ event ∈ left.material.outboxEvents, event.id ≠ leftEvent)
    (freshRightEvent : ∀ event ∈ right.material.outboxEvents, event.id ≠ rightEvent) :
    Lockstep (fun confirmed other =>
        VersionView.redrawn leftJob rightJob <$>
            DocumentService.getVersion left.identity who path confirmed =
          DocumentService.getVersion right.identity who path other)
      (confirm settings left.identity who path key correlationId metadata leftJob
        ⟨leftEvent, now⟩ left.material)
      (confirm settings right.identity who path key correlationId metadata rightJob
        ⟨rightEvent, now⟩ right.material) := by
  unfold confirm
  refine Lockstep.bind_eq (alike.authorizedTeacher_eq path.courseId) fun userId isTeacher => ?_
  have attended := attends_of_teacher isTeacher
  rw [← alike.versionsAt_eq attended]
  cases found : (versionsAt left.material path).head? with
  | none => exact .raises _
  | some version =>
      have atPath := List.mem_of_mem_head? found
      by_cases confirmed : version.confirmationIdempotencyKey ≠ none
      · -- Another call confirmed the version first.
        simp only [if_pos confirmed]
        refine Lockstep.failIf Iff.rfl fun _ => ?_
        rw [(alike.joined_eq attended version atPath).2]
        cases (jobsOf left.material version.id).head? with
        | none => exact .raises _
        | some job => exact .returns (alike.getVersion_of_fresh freshLeftJob rightJob)
      · simp only [if_neg confirmed]
        refine Lockstep.failIf Iff.rfl fun _ => ?_
        have sameReasons := @confirmedWith_iff who left right alike path version key
          (confirmationHash settings path) correlationId metadata now leftJob rightJob attended
          atPath freshLeftJob freshRightJob
        refine Eq.mp (congrArg₂ (Lockstep _) (dispatched_confirmedWith freshLeftEvent).symm
          (dispatched_confirmedWith freshRightEvent).symm) ?_
        by_cases admits : (left.material.confirmedWith version key (confirmationHash settings path)
            metadata (newJob version path.courseId leftJob correlationId now)).Constraints
        · rw [if_pos admits, if_pos (sameReasons.mp admits)]
          exact .returns (alike.getVersion_confirmedWith _ _ freshLeftJob)
        · rw [if_neg admits, if_neg (mt sameReasons.mpr admits)]
          exact .raises _

end Confirmation

theorem confirmUpload_eq (settings : DocumentService.Settings) (path : VersionPath)
    (key : Option String) (correlationId : String)
    {leftStore rightStore : String → Except Failure StoredObjectMetadata} {now : Time}
    {leftJob rightJob leftEvent rightEvent : UUID}
    (sameStore : ∀ version ∈ left.material.documentVersions,
      left.attends who version.courseId = true →
        leftStore version.storageKey = rightStore version.storageKey)
    (freshLeftJob : ∀ job ∈ left.material.ingestionJobs, job.id ≠ leftJob)
    (freshRightJob : ∀ job ∈ right.material.ingestionJobs, job.id ≠ rightJob)
    (freshLeftEvent : ∀ event ∈ left.material.outboxEvents, event.id ≠ leftEvent)
    (freshRightEvent : ∀ event ∈ right.material.outboxEvents, event.id ≠ rightEvent) :
    VersionView.redrawn leftJob rightJob <$>
        left.confirmUpload who settings path key correlationId leftStore leftJob ⟨leftEvent, now⟩ =
      right.confirmUpload who settings path key correlationId rightStore rightJob
        ⟨rightEvent, now⟩ := by
  refine Lockstep.map_iff.mp ?_
  unfold Database.confirmUpload
  refine Lockstep.bind_eq rfl fun key _ => ?_
  refine Lockstep.bind_eq (alike.existingConfirmation_eq path key _) fun existing _ => ?_
  cases existing with
  | some job => exact Lockstep.map_iff.mpr (alike.getVersion_of_fresh freshLeftJob rightJob)
  | none =>
      refine Lockstep.bind_eq (alike.loadUpload_eq path) fun record isRecord => ?_
      obtain ⟨known, attended⟩ := seen_of_loadUpload isRecord
      refine Lockstep.bind_eq (sameStore record known attended) fun metadata _ => ?_
      refine Lockstep.bind_eq rfl fun _ _ => ?_
      exact Lockstep.bind (alike.confirm_alike settings freshLeftJob freshRightJob freshLeftEvent
        freshRightEvent) fun confirmed other same => Lockstep.map_iff.mpr same

end Material

end Alike

/-! ### Noninterference -/

/-- No operation that `who` performs tells the two databases apart: it returns the
same result or raises the same error in both. Where it draws an identifier, each
database draws its own, and the results are the same but for that. -/
structure Indistinguishable (who : AuthenticatedIdentity) (left right : Database) : Prop where
  history : ∀ conversationId afterSequence limit clock completed,
    left.history who conversationId afterSequence limit clock completed =
      right.history who conversationId afterSequence limit clock completed
  read : ∀ conversationId messageId clock completed,
    left.read who conversationId messageId clock completed =
      right.read who conversationId messageId clock completed
  create : ∀ courseId key createdAt leftId rightId,
    (∀ row ∈ left.dialogue.conversations, row.id ≠ leftId) →
    (∀ row ∈ right.dialogue.conversations, row.id ≠ rightId) →
      ConversationView.redrawn leftId rightId <$> left.create who courseId key leftId createdAt =
        right.create who courseId key rightId createdAt
  accept : ∀ settings unicode request readings rightId,
    (∀ row ∈ left.dialogue.messages, row.id ≠ readings.messageId) →
    (∀ row ∈ right.dialogue.messages, row.id ≠ rightId) →
      AcceptedMessage.redrawn readings.messageId rightId <$>
          left.accept who settings unicode request readings =
        right.accept who settings unicode request { readings with messageId := rightId }
  /-- the scope of a message that the identity asked names it as the principal -/
  retrieve : ∀ search now scope question, left.isSelf who scope.principalUserId = true →
    left.retrieve search now scope question = right.retrieve search now scope question
  getVersion : ∀ path, left.getVersion who path = right.getVersion who path
  /-- the object store answers alike about the versions that the identity sees -/
  confirmUpload : ∀ settings path key correlationId leftStore rightStore now leftJob rightJob
      leftEvent rightEvent,
    (∀ version ∈ left.material.documentVersions, left.attends who version.courseId = true →
      leftStore version.storageKey = rightStore version.storageKey) →
    (∀ job ∈ left.material.ingestionJobs, job.id ≠ leftJob) →
    (∀ job ∈ right.material.ingestionJobs, job.id ≠ rightJob) →
    (∀ event ∈ left.material.outboxEvents, event.id ≠ leftEvent) →
    (∀ event ∈ right.material.outboxEvents, event.id ≠ rightEvent) →
      VersionView.redrawn leftJob rightJob <$>
          left.confirmUpload who settings path key correlationId leftStore leftJob
            ⟨leftEvent, now⟩ =
        right.confirmUpload who settings path key correlationId rightStore rightJob
          ⟨rightEvent, now⟩

/-- What is not the identity's is answered as if it did not exist, whether it does
or not. -/
structure Concealed (who : AuthenticatedIdentity) (database : Database) : Prop where
  /-- no conversation with the identifier is the identity's, in a course of its own -/
  conversation : ∀ conversationId,
    (∀ row ∈ database.dialogue.conversations, row.id = conversationId →
      database.isSelf who row.ownerUserId = false ∨ database.attends who row.courseId = false) →
    (∀ afterSequence limit clock completed,
      database.history who conversationId afterSequence limit clock completed = .error notFound) ∧
    (∀ messageId clock completed,
      database.read who conversationId messageId clock completed = .error notFound) ∧
    ∀ settings unicode request readings, request.conversationId = conversationId →
      database.accept who settings unicode request readings =
        idempotencyKey request.key >>= fun _ => .error notFound
  /-- no message with the identifier is in the conversation -/
  message : ∀ conversationId messageId,
    (∀ row ∈ database.dialogue.messages, row.id = messageId →
      row.conversationId ≠ conversationId) →
    ∀ clock completed,
      database.read who conversationId messageId clock completed = .error notFound
  /-- the identity does not belong to the course -/
  course : ∀ courseId, database.attends who courseId = false → ∀ key freshId createdAt,
    database.create who courseId key freshId createdAt =
      idempotencyKey key >>= fun _ => .error notFound
  /-- no message with the scope's identifier is in a conversation of the identity -/
  evidence : ∀ scope, database.isSelf who scope.principalUserId = true →
    (∀ row ∈ database.dialogue.messages, row.id = scope.messageId →
      database.isOwnConversation who row.conversationId = false) →
    ∀ search now question, database.retrieve search now scope question =
      .error (.rag "RETRIEVAL_SCOPE_INVALID")
  /-- the identity does not teach the course, or the course has no such version -/
  document : ∀ path,
    (∀ userId, database.isSelf who userId = true →
      teaches database.identity userId path.courseId = false) ∨
      versionsAt database.material path = [] →
    database.getVersion who path = .error .documentResourceNotFound ∧
    ∀ settings key correlationId inspect jobId stamp,
      database.confirmUpload who settings path key correlationId inspect jobId stamp =
        validatedIdempotencyKey key >>= fun _ => .error .documentResourceNotFound

section Refusals

variable {who : AuthenticatedIdentity} {database : Database}

theorem owned_eq_error {conversationId : UUID} {failure : Failure}
    (raised : owned database.identity database.dialogue who conversationId = .error failure) :
    failure = notFound := by
  unfold owned at raised
  split at raised
  · cases raised
  · exact (Except.error.inj raised).symm

theorem owned_of_foreign {conversationId : UUID}
    (foreign : ∀ row ∈ database.dialogue.conversations, row.id = conversationId →
      database.isSelf who row.ownerUserId = false ∨ database.attends who row.courseId = false) :
    owned database.identity database.dialogue who conversationId = .error notFound := by
  cases found : owned database.identity database.dialogue who conversationId with
  | ok conversation =>
      obtain ⟨known, sameId, self, _, attended⟩ := seen_of_owned found
      rcases foreign conversation known sameId with notSelf | notAttended
      · cases notSelf.symm.trans self
      · cases notAttended.symm.trans attended
  | error failure => rw [owned_eq_error found]

theorem read_of_absent {conversationId messageId : UUID}
    (absent : ∀ row ∈ database.dialogue.messages, row.id = messageId →
      row.conversationId ≠ conversationId) (clock completed : Clock) :
    database.read who conversationId messageId clock completed = .error notFound := by
  have nothing : ((ConversationService.expire clock completed (some conversationId)
      database.dialogue).messages.find? fun message =>
        message.id == messageId && message.conversationId == conversationId) = none := by
    refine List.find?_eq_none.mpr fun row member matched => ?_
    rw [Bool.and_eq_true, beq_iff_eq, beq_iff_eq] at matched
    obtain ⟨source, sourceKnown, same, _⟩ := mem_expire member
    refine absent source sourceKnown ?_ ?_
    · rw [← Message.column_eq same (·.id) fun _ => rfl]
      exact matched.1
    · rw [← Message.column_eq same (·.conversationId) fun _ => rfl]
      exact matched.2
  unfold Database.read ConversationService.read
  cases found : owned database.identity database.dialogue who conversationId with
  | ok conversation =>
      simp only [ok_bind, nothing]
      rfl
  | error failure =>
      rw [owned_eq_error found]
      rfl

theorem member_of_outside {courseId : UUID} (outside : database.attends who courseId = false) :
    member database.identity who courseId = .error notFound := by
  cases found : member database.identity who courseId with
  | ok userId => cases outside.symm.trans (seen_of_member found).2.1
  | error failure =>
      unfold member at found
      split at found
      · cases found
      · rw [Except.error.inj found]

/-- A scope that names another user's message is refused. -/
theorem authorizeRetrieval_of_foreign {scope : RetrievalScope}
    (self : database.isSelf who scope.principalUserId = true)
    (foreign : ∀ row ∈ database.dialogue.messages, row.id = scope.messageId →
      database.isOwnConversation who row.conversationId = false) (now : Time)
    (question : String) :
    authorizeRetrieval database.identity database.material database.dialogue now scope question =
      .error (.rag "RETRIEVAL_SCOPE_INVALID") := by
  refine if_pos ?_
  rintro ⟨message, known, inScope, ⟨conversation, held, isHeld⟩, _⟩
  simp only [Conversation.inScope, Bool.and_eq_true, beq_iff_eq] at isHeld
  simp only [Message.inScope, Bool.and_eq_true, beq_iff_eq] at inScope
  have own : database.isOwnConversation who message.conversationId = true := by
    rw [← isHeld.1.1]
    refine List.contains_iff_mem.mpr (List.mem_map_of_mem (List.mem_filter.mpr ⟨held, ?_⟩))
    rw [isHeld.2]
    exact self
  cases (foreign message known inScope.1.1.1.1.1.1).symm.trans own

theorem authorizedTeacher_of_outside {courseId userId : UUID}
    (notTeacher : ∀ userId, database.isSelf who userId = true →
      teaches database.identity userId courseId = false) :
    authorizedTeacher database.identity who courseId ≠ .ok userId := by
  intro teacher
  unfold authorizedTeacher at teacher
  split at teacher
  · rename_i user isFound
    have matched := List.find?_some isFound
    rw [Bool.and_eq_true] at matched
    have self := isSelf_of_mem (List.mem_of_find?_eq_some isFound) matched.1
    cases (notTeacher user.id self).symm.trans matched.2
  · cases teacher

/-- The first query of both document operations finds nothing. -/
theorem refused_of_missing {path : VersionPath}
    (missing : (∀ userId, database.isSelf who userId = true →
        teaches database.identity userId path.courseId = false) ∨
      versionsAt database.material path = []) :
    database.getVersion who path = .error .documentResourceNotFound ∧
      ∀ key hash, existingConfirmation database.identity who path key hash database.material =
        .error .documentResourceNotFound := by
  unfold Database.getVersion DocumentService.getVersion existingConfirmation
  cases teacher : authorizedTeacher database.identity who path.courseId with
  | error failure =>
      rw [authorizedTeacher_eq_error teacher]
      exact ⟨rfl, fun _ _ => rfl⟩
  | ok userId =>
      rcases missing with notTeacher | noVersion
      · exact absurd teacher (authorizedTeacher_of_outside notTeacher)
      · rw [noVersion]
        exact ⟨rfl, fun _ _ => rfl⟩

/-- What no database shows an identity. -/
theorem concealed (who : AuthenticatedIdentity) (database : Database) : Concealed who database where
  conversation conversationId foreign := by
    have absent := owned_of_foreign foreign
    refine ⟨fun afterSequence limit clock completed => ?_, fun messageId clock completed => ?_,
      fun settings unicode request readings isRequested => ?_⟩
    · unfold Database.history ConversationService.history
      rw [absent]
      rfl
    · unfold Database.read ConversationService.read
      rw [absent]
      rfl
    · unfold Database.accept ConversationService.accept
      rw [isRequested, absent]
      cases idempotencyKey request.key with
      | ok key => rfl
      | error failure => rfl
  message conversationId messageId absent := read_of_absent absent
  course courseId outside key freshId createdAt := by
    unfold Database.create ConversationService.create
    rw [member_of_outside outside]
    cases idempotencyKey key with
    | ok key => rfl
    | error failure => rfl
  evidence scope self foreign search now question := by
    unfold Database.retrieve PostgresRetriever.retrieve
    rw [authorizeRetrieval_of_foreign self foreign]
    rfl
  document path missing := by
    obtain ⟨noVersion, noConfirmation⟩ := refused_of_missing missing
    refine ⟨noVersion, fun settings key correlationId inspect jobId stamp => ?_⟩
    unfold Database.confirmUpload
    cases validatedIdempotencyKey key with
    | error failure => rfl
    | ok key =>
        rw [ok_bind, noConfirmation]
        rfl

/-- What an identity is answered depends only on what it sees: two databases that
agree on that are indistinguishable for it, and neither shows it anything else. -/
theorem tenant_noninterference {left right : Database} (alike : Alike who left right) :
    Indistinguishable who left right ∧ Concealed who left ∧ Concealed who right where
  left :=
    { history := alike.history_eq
      read := alike.read_eq
      create := fun courseId key createdAt _ _ => alike.create_eq courseId key createdAt
      accept := fun settings unicode request readings _ =>
        alike.accept_eq settings unicode request readings
      retrieve := fun search now _ question => alike.retrieve_eq search now question
      getVersion := alike.getVersion_eq
      confirmUpload := fun settings path key correlationId _ _ _ _ _ _ _ =>
        alike.confirmUpload_eq settings path key correlationId }
  right := ⟨concealed who left, concealed who right⟩

end Refusals

section Sample

/-- The teacher's conversation, with an answer that cites a chunk. -/
def notebookDialogue : Dialogue where
  conversations := [{ teacherConversation with nextSequence := 2 }]
  messages :=
    [completed stackDraft 4 (newMessage serviceSettings teacherConversation firstQuestion "ask"
      { kind := .question, intent := none } firstReadings)]
  retrievedEvidence := [evidenceRow (.ofNat 21) stackEvidence]
  citations :=
    [{ messageId := .ofNat 21, chunkId := .ofNat 10, courseId := .ofNat 2, ordinal := 0
       quote := "last in, first out" }]

/-- A database with nothing but the teacher's rows. -/
def sampleNotebook : Database where
  identity := sampleFaculty
  material := sampleActivated
  dialogue := notebookDialogue
  identityConstraints := by decide +kernel
  materialConstraints := by decide +kernel
  dialogueConstraints := by decide +kernel

/-- The same rows, in a school where a student of the course has a conversation of
their own and teaches another course, which awaits an upload. -/
def sampleSchool : Database where
  identity :=
    { users :=
        { id := .ofNat 31, oidcIssuer := "issuer", oidcSubject := "student" } :: sampleFaculty.users
      memberships := sampleFaculty.memberships ++
        [{ courseId := .ofNat 2, userId := .ofNat 31, role := .student },
          { courseId := .ofNat 32, userId := .ofNat 31, role := .teacher }] }
  material :=
    { sampleActivated with
      courses := { sampleCourse with id := .ofNat 32 } :: sampleActivated.courses
      documents := sampleActivated.documents ++
        [{ id := .ofNat 33, courseId := .ofNat 32, title := "queues"
           createdByUserId := .ofNat 31 }]
      documentVersions :=
        DocumentService.newVersion sampleDeployment.documents (.ofNat 32) (.ofNat 33) (.ofNat 34)
          "queues.pdf" "upload" sampleUpload :: sampleActivated.documentVersions }
  dialogue :=
    { notebookDialogue with
      conversations :=
        { teacherConversation with id := .ofNat 35, ownerUserId := .ofNat 31, nextSequence := 2 } ::
          notebookDialogue.conversations
      messages := notebookDialogue.messages ++
        [newMessage serviceSettings { teacherConversation with id := .ofNat 35 } firstQuestion "ask"
          { kind := .question, intent := none } { firstReadings with messageId := .ofNat 36 }] }
  identityConstraints := by decide +kernel
  materialConstraints := by decide +kernel
  dialogueConstraints := by decide +kernel

/-- The teacher sees the same of both. -/
theorem alike_sample : Alike sampleTeacher sampleNotebook sampleSchool := rfl

/-- The teacher's next question. -/
def sampleNext : Question where
  conversationId := .ofNat 20
  question := "What is a queue?"
  key := some "next"
  correlationId := "request"

/-- The teacher's answer is shown and the next question accepted in both, each under
an identifier of its own; the student's question and the awaiting upload, which are
there, are not found. -/
theorem tenant_noninterference_of_sample :
    (sampleNotebook.read sampleTeacher (.ofNat 20) (.ofNat 21) (fun _ => 5) (fun _ => 5) =
        sampleSchool.read sampleTeacher (.ofNat 20) (.ofNat 21) (fun _ => 5) (fun _ => 5) ∧
      (sampleNotebook.read sampleTeacher (.ofNat 20) (.ofNat 21) (fun _ => 5)
        fun _ => 5).toOption.isSome = true) ∧
    (AcceptedMessage.redrawn (.ofNat 22) (.ofNat 37) <$>
          sampleNotebook.accept sampleTeacher serviceSettings sampleHost sampleNext
            { firstReadings with messageId := .ofNat 22 } =
        sampleSchool.accept sampleTeacher serviceSettings sampleHost sampleNext
          { firstReadings with messageId := .ofNat 37 } ∧
      (sampleNotebook.accept sampleTeacher serviceSettings sampleHost sampleNext
        { firstReadings with messageId := .ofNat 22 }).toOption.isSome = true) ∧
    ((∃ row ∈ sampleSchool.dialogue.messages, row.id = .ofNat 36 ∧ row.conversationId = .ofNat 35) ∧
      sampleSchool.read sampleTeacher (.ofNat 35) (.ofNat 36) (fun _ => 5) (fun _ => 5) =
        .error notFound) ∧
    versionsAt sampleSchool.material ⟨.ofNat 32, .ofNat 33, .ofNat 34⟩ ≠ [] ∧
      sampleSchool.getVersion sampleTeacher ⟨.ofNat 32, .ofNat 33, .ofNat 34⟩ =
        .error .documentResourceNotFound := by
  obtain ⟨same, _, hidden⟩ := tenant_noninterference alike_sample
  have notTaught : ∀ userId ∈ (sampleSchool.ownUsers sampleTeacher).map (·.id),
      teaches sampleSchool.identity userId (.ofNat 32) = false := by decide +kernel
  refine ⟨⟨same.read _ _ _ _, by decide +kernel⟩, ⟨same.accept _ _ _
      { firstReadings with messageId := .ofNat 22 } _ (by decide +kernel) (by decide +kernel),
        by decide +kernel⟩, ⟨by decide +kernel, ?_⟩, by decide +kernel, ?_⟩
  · exact (hidden.conversation (.ofNat 35) (by decide +kernel)).2.1 _ _ _
  · exact (hidden.document _ (.inl fun userId self =>
      notTaught userId (List.contains_iff_mem.mp self))).1

end Sample

end Docta
