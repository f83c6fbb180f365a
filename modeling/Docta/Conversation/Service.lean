/-
Module: Docta.Conversation.Service
Purpose: The conversation service, method by method. Each method is one
  transaction: it returns its result and the tables it commits, or raises and
  leaves the tables as they were. Clock readings, fresh identifiers and Unicode
  tables are arguments.
Trusted boundary: Unicode tables
Main exports: ConversationService.create, accept, history, read, request,
  saveEvidence, complete, fail, expire, view
-/
import Docta.Library.Fallible
import Docta.Library.Text
import Docta.Rag.Draft
import Mathlib.Data.List.Sort

namespace Docta

open Table Fallible

/-! ### Requests and views -/

/-- `CitationView` -/
structure CitationView where
  chunkId : UUID
  documentVersionId : UUID
  documentTitle : String
  documentSha256 : String
  page : Nat
  pageEnd : Nat
  fragment : String
  contentHash : String
  quote : String
deriving DecidableEq, Repr

/-- `AnswerView` -/
structure AnswerView where
  mode : Mode
  answer : String
  grounded : Bool
  citations : List CitationView
  intervention : Option Json

/-- `MessageView` -/
structure MessageView where
  id : UUID
  courseId : UUID
  conversationId : UUID
  corpusVersionId : Option UUID
  sequence : Nat
  question : String
  state : MessageState
  response : Option AnswerView
  failureCode : Option String
  failureMessage : Option String
  createdAt : Time
  completedAt : Option Time
  kind : Kind
  intent : Option Intent
  parentMessageId : Option UUID

/-- `ConversationView` -/
structure ConversationView where
  id : UUID
  courseId : UUID
  createdAt : Time
deriving DecidableEq, Repr

/-- `HistoryView` -/
structure HistoryView extends ConversationView where
  messages : List MessageView
  nextAfterSequence : Option Nat

/-- `AcceptedMessage` -/
structure AcceptedMessage where
  message : MessageView
  created : Bool
  ownerUserId : UUID
  correlationId : String

/-- Readings of `clock_timestamp()`, which is read once for every row. -/
abbrev Clock := UUID → Time

namespace ConversationService

/-- The constructor arguments of the service. -/
structure Settings where
  modelVersion : String
  retrievalVersion : String
  messageTimeoutSeconds : Nat := 90
deriving DecidableEq, Repr

/-- `_not_found()` -/
def notFound : Failure :=
  .api 404 "conversation_not_found" "The conversation was not found."

/-- `idempotency_key(value)` -/
def idempotencyKey (value : Option String) : Except Failure String :=
  match value with
  | some text =>
      if Text.isBlank text ∨ 255 < (Text.strip text).length then
        .error (.api 400 "idempotency_key_required" "An Idempotency-Key is required.")
      else .ok (Text.strip text)
  | none => .error (.api 400 "idempotency_key_required" "An Idempotency-Key is required.")

/-- The phrases `_detect_intent` reads as an admission of not knowing. -/
def dontKnowPhrases : List String :=
  ["no se", "no sé", "no entiendo", "no comprendo", "no tengo idea", "no me sale", "ayuda",
    "estoy bloqueado"]

/-- The phrases `_detect_intent` reads as asking for another hint. -/
def anotherHintPhrases : List String :=
  ["otra pista", "dame una pista", "dame otra pista", "mas pistas", "más pistas", "otra ayuda",
    "siguiente pista"]

/-- The phrases `_detect_intent` reads as asking for an explanation. -/
def explainPhrases : List String :=
  ["explicame", "explícame", "explicamelo", "explícamelo", "explicame eso", "explícame eso",
    "no me queda claro", "puedes explicar", "puedes explicarlo"]

/-- `_detect_intent(text)`: whether a question is a brief follow-up. -/
def detectIntent (unicode : Text.UnicodeData) (text : String) : Kind × Option Intent :=
  let cleaned := (unicode.lower (Text.stripChars text.toList)).filter fun char =>
    unicode.isWord char || Text.isSpace char
  let phrase := " ".intercalate ((Text.words cleaned).map String.ofList)
  if phrase ∈ dontKnowPhrases then (.followup, some .dontKnow)
  else if phrase ∈ anotherHintPhrases then (.followup, some .anotherHint)
  else if phrase ∈ explainPhrases then (.followup, some .explain)
  else (.question, none)

/-! ### Ownership -/

/-- `_member(session, identity, course_id)` -/
def member (tables : Identity) (who : AuthenticatedIdentity) (courseId : UUID) :
    Except Failure UUID :=
  match tables.users.find? fun user => isSubject who user && belongs tables user.id courseId with
  | some user => .ok user.id
  | none => .error notFound

/-- The joins of `_owned`: the conversation's owner is the verified subject and
still belongs to the course. -/
def isOwner (tables : Identity) (who : AuthenticatedIdentity) (conversation : Conversation) :
    Bool :=
  tables.users.any fun user =>
    user.id == conversation.ownerUserId && isSubject who user &&
      belongs tables user.id conversation.courseId

/-- `_owned(session, identity, conversation_id)` -/
def owned (tables : Identity) (dialogue : Dialogue) (who : AuthenticatedIdentity)
    (conversationId : UUID) : Except Failure Conversation :=
  match dialogue.conversations.find? fun conversation =>
      conversation.id == conversationId && isOwner tables who conversation with
  | some conversation => .ok conversation
  | none => .error notFound

/-! ### Views -/

/-- The join of `_view`: the citations of a message with the evidence they cite. -/
def citedRows (dialogue : Dialogue) (messageId : UUID) : List (Citation × RetrievedEvidence) :=
  (dialogue.citations.filter (·.messageId = messageId)).flatMap fun citation =>
    (dialogue.retrievedEvidence.filter fun evidence =>
      evidence.messageId = citation.messageId ∧ evidence.chunkId = citation.chunkId ∧
        evidence.courseId = citation.courseId).map fun evidence => (citation, evidence)

/-- One row of the join, as shown. -/
def citationView (row : Citation × RetrievedEvidence) : CitationView where
  chunkId := row.2.chunkId
  documentVersionId := row.2.documentVersionId
  documentTitle := row.2.documentTitle
  documentSha256 := row.2.documentSha256
  page := row.2.pageStart
  pageEnd := row.2.pageEnd
  fragment := row.2.fragment
  contentHash := row.2.contentHash
  quote := row.1.quote

/-- `ORDER BY citations.ordinal` -/
def byOrdinal (first second : Citation × RetrievedEvidence) : Prop :=
  first.1.ordinal ≤ second.1.ordinal

instance : DecidableRel byOrdinal :=
  fun first second => inferInstanceAs (Decidable (first.1.ordinal ≤ second.1.ordinal))

/-- The response of a completed message; the model of a response needs its
mode, answer and grounded flag. -/
def answerView (dialogue : Dialogue) (message : Message) : Except Failure AnswerView :=
  match message.mode, message.answer, message.grounded with
  | some mode, some answer, some grounded =>
      .ok { mode, answer, grounded
            citations := ((citedRows dialogue message.id).insertionSort byOrdinal).map citationView
            intervention := message.intervention }
  | _, _, _ => .error (.validation "AnswerView")

/-- `_view(session, message)` -/
def view (dialogue : Dialogue) (message : Message) : Except Failure MessageView := do
  let response ←
    if message.state = .completed then some <$> answerView dialogue message else .ok none
  return { id := message.id, courseId := message.courseId
           conversationId := message.conversationId
           corpusVersionId := message.corpusVersionId, sequence := message.sequence
           question := message.question, state := message.state, response
           failureCode := message.failureCode
           failureMessage :=
            if message.failureCode.any (· ≠ "") then
              some "No se pudo completar la respuesta. La pregunta está guardada."
            else none
           createdAt := message.createdAt, completedAt := message.completedAt
           kind := message.kind, intent := message.intent
           parentMessageId := message.parentMessageId }

/-! ### Expiry -/

/-- A pending message whose deadline has passed, in one conversation or in all. -/
def expires (clock : Clock) (conversationId : Option UUID) (message : Message) : Bool :=
  message.isPending && decide (message.deadlineAt ≤ clock message.id) &&
    conversationId.all (message.conversationId == ·)

/-- `_expire(session, conversation_id)`: `completed` is the reading stored. -/
def expire (clock completed : Clock) (conversationId : Option UUID) (dialogue : Dialogue) :
    Dialogue :=
  { dialogue with
    messages := updateWhere dialogue.messages (expires clock conversationId) fun message =>
      { message with
        state := .failed
        failureCode := some "PROCESSING_INTERRUPTED"
        completedAt := some (completed message.id) } }

/-! ### Methods -/

section Methods

variable (settings : Settings) (unicode : Text.UnicodeData) (tables : Identity)
  (material : Material)

/-- `create(identity, course_id, key)` -/
def create (who : AuthenticatedIdentity) (courseId : UUID) (key : Option String)
    (freshId : UUID) (createdAt : Time) (dialogue : Dialogue) :
    Except Failure (ConversationView × Dialogue) := do
  let key ← idempotencyKey key
  let userId ← member tables who courseId
  let isCreation (row : Conversation) : Bool :=
    row.courseId == courseId && row.ownerUserId == userId && row.idempotencyKey == key
  -- `ON CONFLICT DO NOTHING` on the creation key.
  let written : Dialogue :=
    if dialogue.conversations.any isCreation then dialogue
    else
      { dialogue with
        conversations := dialogue.conversations ++
          [{ id := freshId, courseId, ownerUserId := userId, idempotencyKey := key, createdAt }] }
  match written.conversations.find? isCreation with
  | some conversation => do
      let committed ← written.commit tables material
      return ({ id := conversation.id, courseId := conversation.courseId
                createdAt := conversation.createdAt }, committed)
  | none => .error .resultCount

/-- The `READY` active corpus of a course, as one query reads it. -/
def captureCorpus (courseId : UUID) : Option UUID :=
  (material.corpusVersions.find? fun corpus =>
    corpus.state == .ready && material.courses.any fun course =>
      course.id == courseId && course.activeCorpusVersionId == some corpus.id &&
        course.id == corpus.courseId).map (·.id)

/-- `ORDER BY messages.sequence DESC` -/
def newestFirst (first second : Message) : Prop := second.sequence ≤ first.sequence

instance : DecidableRel newestFirst :=
  fun first second => inferInstanceAs (Decidable (second.sequence ≤ first.sequence))

/-- The completed messages of a conversation before a sequence, newest first. -/
def completedBefore (dialogue : Dialogue) (conversationId : UUID) (bound : Nat) : List Message :=
  (dialogue.messages.filter fun message =>
    message.conversationId = conversationId ∧ message.sequence < bound ∧
      message.state = .completed).insertionSort newestFirst

/-- `message.retrieval_query or message.question` -/
def retrievalText (message : Message) : String :=
  match message.retrievalQuery with
  | some query => if query = "" then message.question else query
  | none => message.question

/-- What a turn continues: its kind and intent, the derived query and the
version of that derivation. -/
structure Continuity where
  kind : Kind
  intent : Option Intent
  retrievalQuery : Option String := none
  queryVersion : Option String := none
deriving DecidableEq, Repr

/-- The query a follow-up derives from the last completed message, unless that
message abstained or asked for clarification. -/
def followUp (dialogue : Dialogue) (conversation : Conversation) (intent : Option Intent) :
    Continuity :=
  match (completedBefore dialogue conversation.id conversation.nextSequence).head? with
  | some antecedent =>
      if antecedent.mode = some .abstain ∨ antecedent.mode = some .clarify then
        { kind := .followup, intent }
      else
        { kind := .followup, intent, retrievalQuery := some (retrievalText antecedent)
          queryVersion := some "antecedent-v1" }
  | none => { kind := .followup, intent }

/-- The branches of `accept` on the kind of turn. -/
def continuity (dialogue : Dialogue) (conversation : Conversation) (question : String)
    (kind : Kind) (intent : Option Intent) (parentMessageId : Option UUID) :
    Except Failure Continuity :=
  match kind with
  | .action =>
      match parentMessageId with
      | none =>
          .error (.api 400 "invalid_parent_message" "Action turns require a parent message.")
      | some parentId =>
          match dialogue.messages.find? fun message =>
              message.id == parentId && message.conversationId == conversation.id &&
                message.courseId == conversation.courseId && message.isCompleted with
          | none =>
              .error (.api 400 "invalid_parent_message"
                "Parent message is invalid or not completed.")
          | some parent =>
              .ok { kind := .action, intent, retrievalQuery := some (retrievalText parent)
                    queryVersion := some "antecedent-v1" }
  | .followup => .ok (followUp dialogue conversation intent)
  | .question =>
      match detectIntent unicode question with
      | (.followup, detected) => .ok (followUp dialogue conversation detected)
      | _ => .ok { kind := .question, intent }

/-- The request of one `accept` call. -/
structure Question where
  conversationId : UUID
  question : String
  key : Option String
  correlationId : String
  kind : Kind := .question
  intent : Option Intent := none
  parentMessageId : Option UUID := none
deriving DecidableEq, Repr

/-- What one `accept` call reads from clocks, generators and the corpus query. -/
structure Readings where
  expiryClock : Clock
  completedClock : Clock
  now : Time
  createdAt : Time
  messageId : UUID
  corpusId : Option UUID

/-- The row `accept` inserts. -/
def newMessage (conversation : Conversation) (request : Question) (key : String)
    (turn : Continuity) (readings : Readings) : Message where
  id := readings.messageId
  courseId := conversation.courseId
  conversationId := conversation.id
  corpusVersionId := readings.corpusId
  sequence := conversation.nextSequence
  idempotencyKey := key
  question := request.question
  state := .pending
  correlationId := request.correlationId
  promptVersion := promptVersion
  retrievalConfigVersion := settings.retrievalVersion
  modelVersion := settings.modelVersion
  kind := turn.kind
  intent := turn.intent
  parentMessageId := request.parentMessageId
  retrievalQuery := turn.retrievalQuery
  queryVersion := turn.queryVersion
  createdAt := readings.createdAt
  deadlineAt := readings.now + seconds settings.messageTimeoutSeconds

/-- The tables after `accept` inserted a message. -/
def insertMessage (dialogue : Dialogue) (conversation : Conversation) (message : Message) :
    Dialogue :=
  { dialogue with
    conversations := updateWhere dialogue.conversations (·.id == conversation.id) fun row =>
      { row with nextSequence := conversation.nextSequence + 1 }
    messages := dialogue.messages ++ [message] }

/-- The branch of `accept` for a new key. -/
def acceptNew (conversation : Conversation) (request : Question) (key : String)
    (readings : Readings) (dialogue : Dialogue) : Except Failure (AcceptedMessage × Dialogue) := do
  failIf (∃ message ∈ dialogue.messages,
      message.conversationId = request.conversationId ∧ message.state = .pending)
    (.api 409 "conversation_busy" "A question is already pending.")
  let turn ← continuity unicode dialogue conversation request.question request.kind request.intent
    request.parentMessageId
  let message := newMessage settings conversation request key turn readings
  let committed ← (insertMessage dialogue conversation message).commit tables material
  let shown ← view committed message
  return ({ message := shown, created := true, ownerUserId := conversation.ownerUserId
            correlationId := request.correlationId }, committed)

/-- `accept(...)`, given what its corpus query returned. -/
def accept (who : AuthenticatedIdentity) (request : Question) (readings : Readings)
    (dialogue : Dialogue) : Except Failure (AcceptedMessage × Dialogue) := do
  let key ← idempotencyKey request.key
  let conversation ← owned tables dialogue who request.conversationId
  let expired := expire readings.expiryClock readings.completedClock
    (some request.conversationId) dialogue
  match expired.messages.find? fun message =>
      message.conversationId == request.conversationId && message.idempotencyKey == key with
  | some existing => do
      failIf (existing.question ≠ request.question)
        (.api 409 "idempotency_key_reused"
          "The key has already been used for a different question.")
      let shown ← view expired existing
      let committed ← expired.commit tables material
      return ({ message := shown, created := false, ownerUserId := conversation.ownerUserId
                correlationId := existing.correlationId }, committed)
  | none => acceptNew settings unicode tables material conversation request key readings expired

/-- `ORDER BY messages.sequence` -/
def oldestFirst (first second : Message) : Prop := first.sequence ≤ second.sequence

instance : DecidableRel oldestFirst :=
  fun first second => inferInstanceAs (Decidable (first.sequence ≤ second.sequence))

/-- `history(identity, conversation_id, after_sequence, limit)` -/
def history (who : AuthenticatedIdentity) (conversationId : UUID) (afterSequence limit : Nat)
    (clock completed : Clock) (dialogue : Dialogue) : Except Failure (HistoryView × Dialogue) := do
  let conversation ← owned tables dialogue who conversationId
  let expired := expire clock completed (some conversationId) dialogue
  let messages := ((expired.messages.filter fun message =>
    message.conversationId = conversationId ∧ afterSequence < message.sequence).insertionSort
      oldestFirst).take (limit + 1)
  let shown ← (messages.take limit).mapM (view expired)
  let committed ← expired.commit tables material
  return ({ id := conversation.id, courseId := conversation.courseId
            createdAt := conversation.createdAt, messages := shown
            nextAfterSequence :=
              if limit < messages.length then (messages[limit - 1]?).map (·.sequence)
              else none }, committed)

/-- `read(identity, conversation_id, message_id)` -/
def read (who : AuthenticatedIdentity) (conversationId messageId : UUID)
    (clock completed : Clock) (dialogue : Dialogue) : Except Failure (MessageView × Dialogue) := do
  let _ ← owned tables dialogue who conversationId
  let expired := expire clock completed (some conversationId) dialogue
  match expired.messages.find? fun message =>
      message.id == messageId && message.conversationId == conversationId with
  | some message => do
      let shown ← view expired message
      let committed ← expired.commit tables material
      return (shown, committed)
  | none => .error notFound

/-- The turns of the history that fit in `remaining` characters, newest first. -/
def historyTurns : Nat → List Message → List HistoryTurn
  | _, [] => []
  | remaining, previous :: rest =>
      let answer := previous.answer.getD ""
      let size := previous.question.length + answer.length
      if remaining < size then []
      else
        { question := previous.question, answer, situation := previous.situation
          helpLevel := previous.helpLevel.getD 0 } :: historyTurns (remaining - size) rest

/-- `request(accepted, evidence)` -/
def request (accepted : AcceptedMessage) (evidence : List Evidence) (dialogue : Dialogue) :
    Except Failure TutorRequest :=
  match accepted.message.corpusVersionId with
  | none => .error (.rag "COURSE_CORPUS_NOT_READY")
  | some corpusVersionId =>
      match dialogue.messages.find? fun message => message.id == accepted.message.id with
      | none => .error (.rag "PROCESSING_INTERRUPTED")
      | some stored =>
          .ok { scope :=
                  { courseId := accepted.message.courseId, corpusVersionId
                    principalUserId := accepted.ownerUserId
                    conversationId := accepted.message.conversationId
                    messageId := accepted.message.id
                    correlationId := accepted.correlationId }
                question := accepted.message.question
                evidence
                history := (historyTurns 12000
                  ((completedBefore dialogue accepted.message.conversationId
                    accepted.message.sequence).take 6)).reverse
                turnKind := stored.kind
                turnIntent := stored.intent
                retrievalQuery := stored.retrievalQuery
                needsAntecedent := stored.kind == .followup && stored.retrievalQuery.isNone }

/-- `_pending(session, message_id)`, read at `now` under the row lock. -/
def pending (now : Time) (messageId : UUID) (dialogue : Dialogue) : Except Failure Message :=
  match dialogue.messages.find? fun message =>
      message.id == messageId && message.isPending && decide (now < message.deadlineAt) with
  | some message => .ok message
  | none => .error (.rag "PROCESSING_INTERRUPTED")

/-- The stored chunk of an evidence item with its document, within a scope. -/
def storedChunk? (courseId : UUID) (corpusVersionId : Option UUID) (chunkId : UUID) :
    Option (Chunk × DocumentVersion × Document) := do
  let chunk ← material.chunks.find? fun chunk =>
    chunk.id == chunkId && chunk.courseId == courseId &&
      some chunk.corpusVersionId == corpusVersionId
  let version ← material.documentVersions.find? fun version =>
    version.id == chunk.documentVersionId && version.courseId == chunk.courseId
  let document ← material.documents.find? fun document =>
    document.id == version.documentId && document.courseId == chunk.courseId
  return (chunk, version, document)

/-- The evidence item says exactly what is stored. -/
def Evidence.Matches (item : Evidence) (chunk : Chunk) (version : DocumentVersion)
    (document : Document) : Prop :=
  item.documentVersionId = version.id ∧ item.documentTitle = document.title ∧
    version.objectSha256 = item.documentSha256 ∧ item.content = chunk.content ∧
      item.contentHash = chunk.contentHash ∧ item.pageStart = chunk.pageStart ∧
        item.pageEnd = chunk.pageEnd ∧ item.fragment = "chunk-" ++ toString chunk.ordinal

instance (item : Evidence) (chunk : Chunk) (version : DocumentVersion) (document : Document) :
    Decidable (Evidence.Matches item chunk version document) :=
  inferInstanceAs (Decidable (_ ∧ _ ∧ _ ∧ _ ∧ _ ∧ _ ∧ _ ∧ _))

/-- `RetrievedEvidence(message_id=..., **asdict(item))` -/
def evidenceRow (messageId : UUID) (item : Evidence) : RetrievedEvidence where
  messageId := messageId
  chunkId := item.chunkId
  courseId := item.courseId
  corpusVersionId := item.corpusVersionId
  documentVersionId := item.documentVersionId
  documentTitle := item.documentTitle
  documentSha256 := item.documentSha256.getD ""
  pageStart := item.pageStart
  pageEnd := item.pageEnd
  fragment := item.fragment
  content := item.content
  contentHash := item.contentHash

/-- The checks of `save_evidence` on one item. -/
def checkEvidence (message : Message) (item : Evidence) : Except Failure RetrievedEvidence := do
  failIf (item.courseId ≠ message.courseId ∨ some item.corpusVersionId ≠ message.corpusVersionId)
    (.rag "RETRIEVAL_SCOPE_INVALID")
  match storedChunk? material message.courseId message.corpusVersionId item.chunkId with
  | none => .error (.rag "RETRIEVAL_SCOPE_INVALID")
  | some (chunk, version, document) => do
      failIf (¬ Evidence.Matches item chunk version document) (.rag "RETRIEVAL_SCOPE_INVALID")
      -- The column `document_sha256` is not nullable.
      failIf (item.documentSha256 = none) .integrity
      return evidenceRow message.id item

/-- `save_evidence(accepted, evidence)` -/
def saveEvidence (messageId : UUID) (evidence : List Evidence) (now : Time) (dialogue : Dialogue) :
    Except Failure Dialogue := do
  let message ← pending now messageId dialogue
  failIf (5 < evidence.length ∨ ¬ (evidence.map (·.chunkId)).Nodup)
    (.rag "RETRIEVAL_SCOPE_INVALID")
  let rows ← evidence.mapM (checkEvidence material message)
  { dialogue with retrievedEvidence := dialogue.retrievedEvidence ++ rows }.commit tables material

/-- The citation rows `complete` adds: `enumerate(draft.citations)`. -/
def citationRows (message : Message) (draft : TutorDraft) : List Citation :=
  draft.citations.zipIdx.map fun entry =>
    { messageId := message.id, chunkId := entry.1.chunkId, courseId := message.courseId
      ordinal := entry.2, quote := entry.1.quote }

/-- The message columns `complete` assigns. -/
def completed (draft : TutorDraft) (completedAt : Time) (message : Message) : Message :=
  { message with
    answer := some draft.answer
    mode := some draft.mode
    grounded := some draft.grounded
    intervention :=
      match draft.intervention with
      | some intervention => some intervention.dump
      | none => message.intervention
    contractVersion :=
      match draft.intervention with
      | some intervention => some intervention.version
      | none => message.contractVersion
    situation :=
      match draft.intervention with
      | some intervention => some intervention.situation
      | none => message.situation
    helpLevel :=
      match draft.intervention with
      | some intervention => some (helpLevel intervention)
      | none => message.helpLevel
    state := .completed
    completedAt := some completedAt }

/-- `complete(message_id, draft)`: `now` is read under the row lock. -/
def complete (messageId : UUID) (draft : TutorDraft) (now completedAt : Time)
    (dialogue : Dialogue) : Except Failure Dialogue := do
  let message ← pending now messageId dialogue
  { dialogue with
    messages := updateWhere dialogue.messages (·.id == message.id) (completed draft completedAt)
    citations := dialogue.citations ++ citationRows message draft }.commit tables material

/-- `fail(message_id, code)` -/
def fail (messageId : UUID) (code : String) (completedAt : Time) (dialogue : Dialogue) :
    Except Failure Dialogue :=
  { dialogue with
    messages := updateWhere dialogue.messages
      (fun message => message.id == messageId && message.isPending) fun message =>
        { message with
          state := .failed
          failureCode := some code
          completedAt := some completedAt } }.commit tables material

/-- `expire()` -/
def expireAll (clock completed : Clock) (dialogue : Dialogue) : Except Failure Dialogue :=
  (expire clock completed none dialogue).commit tables material

end Methods

end ConversationService

end Docta
