/-
Module: Docta.Store.ConversationModels
Purpose: The durable logical messages: conversations, messages with their
  optional validated response, retrieved evidence and citations, and the
  constraints the schema declares on them.
Trusted boundary: none
Main exports: Message, RetrievedEvidence, Citation, Dialogue,
  Dialogue.Constraints, Dialogue.commit
-/
import Docta.Contract.TutorContract
import Docta.Store.Models

namespace Docta

export Contract (Mode Situation ContractVersion Json)

open Table

inductive MessageState where
  | pending
  | completed
  | failed
deriving DecidableEq, Repr

inductive Kind where
  | question
  | followup
  | action
deriving DecidableEq, Repr

inductive Intent where
  | anotherHint
  | explain
  | dontKnow
deriving DecidableEq, Repr

structure Conversation where
  id : UUID
  courseId : UUID
  ownerUserId : UUID
  idempotencyKey : String
  nextSequence : Nat := 1
  createdAt : Time
deriving DecidableEq, Repr

structure Message where
  id : UUID
  courseId : UUID
  conversationId : UUID
  corpusVersionId : Option UUID
  sequence : Nat
  idempotencyKey : String
  question : String
  state : MessageState
  answer : Option String := none
  mode : Option Mode := none
  grounded : Option Bool := none
  failureCode : Option String := none
  correlationId : String
  promptVersion : String
  retrievalConfigVersion : String
  modelVersion : String
  kind : Kind
  intent : Option Intent
  parentMessageId : Option UUID
  retrievalQuery : Option String
  queryVersion : Option String
  intervention : Option Json := none
  contractVersion : Option ContractVersion := none
  situation : Option Situation := none
  helpLevel : Option Int := none
  createdAt : Time
  deadlineAt : Time
  completedAt : Option Time := none

structure RetrievedEvidence where
  messageId : UUID
  chunkId : UUID
  courseId : UUID
  corpusVersionId : UUID
  documentVersionId : UUID
  documentTitle : String
  documentSha256 : String
  pageStart : Nat
  pageEnd : Nat
  fragment : String
  content : String
  contentHash : String
deriving DecidableEq, Repr

structure Citation where
  messageId : UUID
  chunkId : UUID
  courseId : UUID
  ordinal : Nat
  quote : String
deriving DecidableEq, Repr

/-- The conversation tables, rows in insertion order. -/
structure Dialogue where
  conversations : List Conversation := []
  messages : List Message := []
  retrievedEvidence : List RetrievedEvidence := []
  citations : List Citation := []

def Message.isPending (message : Message) : Bool := message.state == .pending

def Message.isCompleted (message : Message) : Bool := message.state == .completed

/-- `btrim(text)`: spaces removed at both ends. -/
def btrim (text : List Char) : List Char :=
  ((text.dropWhile (· == ' ')).reverse.dropWhile (· == ' ')).reverse

/-- Which columns a message of each state has. -/
def Message.PayloadFor (message : Message) : MessageState → Prop
  | .pending =>
      message.answer = none ∧ message.mode = none ∧ message.grounded = none ∧
        message.failureCode = none ∧ message.completedAt = none
  | .failed =>
      message.answer = none ∧ message.mode = none ∧ message.grounded = none ∧
        message.failureCode ≠ none ∧ message.completedAt ≠ none
  | .completed =>
      message.answer ≠ none ∧ message.mode ≠ none ∧ message.grounded ≠ none ∧
        message.failureCode = none ∧ message.completedAt ≠ none

instance (message : Message) : ∀ state, Decidable (message.PayloadFor state)
  | .pending => inferInstanceAs (Decidable (_ ∧ _ ∧ _ ∧ _ ∧ _))
  | .failed => inferInstanceAs (Decidable (_ ∧ _ ∧ _ ∧ _ ∧ _))
  | .completed => inferInstanceAs (Decidable (_ ∧ _ ∧ _ ∧ _ ∧ _))

/-- `ck_messages_terminal_payload`. -/
def Message.TerminalPayload (message : Message) : Prop :=
  message.PayloadFor message.state

instance (message : Message) : Decidable message.TerminalPayload :=
  inferInstanceAs (Decidable (message.PayloadFor message.state))

/-- The column checks and lengths of a message. -/
@[mk_iff] structure Message.Checks (message : Message) : Prop where
  parent : message.kind = .action ↔ message.parentMessageId ≠ none
  question : 1 ≤ (btrim message.question.toList).length ∧
    (btrim message.question.toList).length ≤ 4000
  sequence : 0 < message.sequence
  terminalPayload : message.TerminalPayload
  idempotencyKeyLength : message.idempotencyKey.length ≤ 255
  failureCodeLength : ∀ code ∈ message.failureCode, code.length ≤ 64
  correlationIdLength : message.correlationId.length ≤ 100
  retrievalConfigVersionLength : message.retrievalConfigVersion.length ≤ 100
  modelVersionLength : message.modelVersion.length ≤ 255

instance (message : Message) : Decidable message.Checks :=
  decidable_of_iff' _ (Message.checks_iff message)

/-- The lengths of an evidence row. -/
def RetrievedEvidence.Checks (row : RetrievedEvidence) : Prop :=
  row.documentTitle.length ≤ 255 ∧ row.documentSha256.length ≤ 64 ∧
    row.fragment.length ≤ 100 ∧ row.contentHash.length ≤ 64

instance (row : RetrievedEvidence) : Decidable row.Checks :=
  inferInstanceAs (Decidable (_ ∧ _ ∧ _ ∧ _))

/-- Keys, references among the conversation tables, and column checks. -/
@[mk_iff] structure Dialogue.Keys (dialogue : Dialogue) : Prop where
  conversationIds : UniqueOn (·.id) dialogue.conversations
  conversationCreation : UniqueOn (fun row => (row.courseId, row.ownerUserId, row.idempotencyKey))
    dialogue.conversations
  messageIds : UniqueOn (·.id) dialogue.messages
  messageIdempotency : UniqueOn (fun row => (row.conversationId, row.idempotencyKey))
    dialogue.messages
  messageSequence : UniqueOn (fun row => (row.conversationId, row.sequence)) dialogue.messages
  onePending : UniqueOn (·.conversationId) (dialogue.messages.filter (·.isPending))
  messageConversation : ∀ row ∈ dialogue.messages, ∃ conversation ∈ dialogue.conversations,
    conversation.courseId = row.courseId ∧ conversation.id = row.conversationId
  messageParent : ∀ row ∈ dialogue.messages, ∀ parentId ∈ row.parentMessageId,
    ∃ parent ∈ dialogue.messages,
      parent.conversationId = row.conversationId ∧ parent.id = parentId
  messageChecks : ∀ row ∈ dialogue.messages, row.Checks
  evidenceKeys : UniqueOn (fun row => (row.messageId, row.chunkId)) dialogue.retrievedEvidence
  evidenceMessage : ∀ row ∈ dialogue.retrievedEvidence, ∃ message ∈ dialogue.messages,
    message.courseId = row.courseId ∧ message.corpusVersionId = some row.corpusVersionId ∧
      message.id = row.messageId
  evidenceChecks : ∀ row ∈ dialogue.retrievedEvidence, row.Checks
  citationKeys : UniqueOn (fun row => (row.messageId, row.chunkId)) dialogue.citations
  citationOrdinals : UniqueOn (fun row => (row.messageId, row.ordinal)) dialogue.citations
  citationEvidence : ∀ row ∈ dialogue.citations, ∃ evidence ∈ dialogue.retrievedEvidence,
    evidence.courseId = row.courseId ∧ evidence.messageId = row.messageId ∧
      evidence.chunkId = row.chunkId

/-- References to the identity and material tables. -/
@[mk_iff] structure Dialogue.References (identity : Identity) (material : Material)
    (dialogue : Dialogue) : Prop where
  conversationCourse : ∀ row ∈ dialogue.conversations, ∃ course ∈ material.courses,
    course.id = row.courseId
  conversationOwner : ∀ row ∈ dialogue.conversations, ∃ user ∈ identity.users,
    user.id = row.ownerUserId
  messageCorpus : ∀ row ∈ dialogue.messages, ∀ corpusId ∈ row.corpusVersionId,
    ∃ corpus ∈ material.corpusVersions, corpus.courseId = row.courseId ∧ corpus.id = corpusId
  evidenceChunk : ∀ row ∈ dialogue.retrievedEvidence, ∃ chunk ∈ material.chunks,
    chunk.courseId = row.courseId ∧ chunk.corpusVersionId = row.corpusVersionId ∧
      chunk.id = row.chunkId

instance (dialogue : Dialogue) : Decidable dialogue.Keys :=
  decidable_of_iff' _ (Dialogue.keys_iff dialogue)

instance (identity : Identity) (material : Material) (dialogue : Dialogue) :
    Decidable (dialogue.References identity material) :=
  decidable_of_iff' _ (Dialogue.references_iff identity material dialogue)

/-- Everything the schema declares on the conversation tables. -/
def Dialogue.Constraints (identity : Identity) (material : Material) (dialogue : Dialogue) :
    Prop :=
  dialogue.Keys ∧ dialogue.References identity material

instance (identity : Identity) (material : Material) (dialogue : Dialogue) :
    Decidable (dialogue.Constraints identity material) :=
  inferInstanceAs (Decidable (_ ∧ _))

/-- The end of a transaction on the conversation tables. -/
def Dialogue.commit (identity : Identity) (material : Material) (dialogue : Dialogue) :
    Except Failure Dialogue :=
  if dialogue.Constraints identity material then .ok dialogue else .error .integrity

@[simp] theorem Dialogue.commit_eq_ok {identity : Identity} {material : Material}
    {dialogue committed : Dialogue} :
    dialogue.commit identity material = .ok committed ↔
      dialogue.Constraints identity material ∧ dialogue = committed := by
  unfold Dialogue.commit
  by_cases meets : dialogue.Constraints identity material
  · simp [meets]
  · simp [meets]

end Docta
