/-
Module: Docta.Conversation.Expiry
Purpose: Reads never fail on the tables themselves: expiring overdue messages
  keeps every constraint of the schema, and every stored message can be shown.
Trusted boundary: none
Main exports: constraints_expire, exists_view, Message.ShownAs
-/
import Docta.Conversation.StateMachine

namespace Docta

open Table Fallible ConversationService

/-! ### Expiring keeps the constraints -/

section Constraints

variable {dialogue : Dialogue}

/-- The row an expiry leaves. -/
def Message.expired (completed : Clock) (message : Message) : Message :=
  { message with
    state := .failed
    failureCode := some "PROCESSING_INTERRUPTED"
    completedAt := some (completed message.id) }

theorem messages_expire (clock completed : Clock) (conversationId : Option UUID)
    (dialogue : Dialogue) :
    (expire clock completed conversationId dialogue).messages =
      updateWhere dialogue.messages (expires clock conversationId) (Message.expired completed) := rfl

/-- An expired message passes the column checks. -/
theorem checks_expired {message : Message} (checks : message.Checks)
    (isPending : message.state = .pending) (completed : Clock) :
    (message.expired completed).Checks := by
  have payload := checks.terminalPayload
  rw [Message.TerminalPayload, isPending] at payload
  exact
    { parent := checks.parent
      question := checks.question
      sequence := checks.sequence
      terminalPayload := ⟨payload.1, payload.2.1, payload.2.2.1, nofun, nofun⟩
      idempotencyKeyLength := checks.idempotencyKeyLength
      failureCodeLength := by
        intro code isCode
        rw [← Option.some.inj isCode]
        decide
      correlationIdLength := checks.correlationIdLength
      retrievalConfigVersionLength := checks.retrievalConfigVersionLength
      modelVersionLength := checks.modelVersionLength }

/-- A row after an expiry is a row before it, expired or not. -/
theorem mem_expire {clock completed : Clock} {conversationId : Option UUID} {message : Message}
    (member : message ∈ (expire clock completed conversationId dialogue).messages) :
    ∃ source ∈ dialogue.messages, message.accepted = source.accepted ∧
      (message = source ∨ source.state = .pending ∧ message = source.expired completed) := by
  rw [messages_expire] at member
  rcases mem_updateWhere_cases member with ⟨stays, _⟩ | ⟨source, known, matched, same⟩
  · exact ⟨message, stays, rfl, .inl rfl⟩
  · have isPending : source.state = .pending := by
      rw [expires, Bool.and_eq_true, Bool.and_eq_true, Message.isPending, beq_iff_eq] at matched
      exact matched.1.1
    rw [same]
    exact ⟨source, known, rfl, .inr ⟨isPending, rfl⟩⟩

/-- Every row is there after an expiry, as it was accepted. -/
theorem exists_expire (clock completed : Clock) (conversationId : Option UUID) {message : Message}
    (known : message ∈ dialogue.messages) :
    ∃ later ∈ (expire clock completed conversationId dialogue).messages,
      later.accepted = message.accepted := by
  rw [messages_expire]
  by_cases matched : expires clock conversationId message = true
  · exact ⟨_, mem_updateWhere_of_matched known matched, rfl⟩
  · exact ⟨message, mem_updateWhere_of_not known (Bool.eq_false_iff.mpr matched), rfl⟩

/-- Rows accepted alike agree on every column that acceptance fixed. -/
theorem Message.column_eq {α : Type} {first second : Message}
    (same : first.accepted = second.accepted) (column : Message → α)
    (fixed : ∀ message : Message, column message.accepted = column message) :
    column first = column second := by
  rw [← fixed first, same, fixed second]

/-- Expiry keeps the keys, the references and the column checks. -/
theorem keys_expire (keys : dialogue.Keys) (clock completed : Clock)
    (conversationId : Option UUID) : (expire clock completed conversationId dialogue).Keys := by
  have sameKey {β : Type} [DecidableEq β] (key : Message → β)
      (fixed : ∀ message, key (Message.expired completed message) = key message) :
      UniqueOn key (updateWhere dialogue.messages (expires clock conversationId)
        (Message.expired completed)) ↔ UniqueOn key dialogue.messages :=
    uniqueOn_updateWhere fun message _ _ => fixed message
  have kept (row : Message) (known : row ∈ dialogue.messages) :=
    exists_expire clock completed conversationId known
  refine
    { conversationIds := keys.conversationIds
      conversationCreation := keys.conversationCreation
      messageIds := (sameKey (·.id) fun _ => rfl).mpr keys.messageIds
      messageIdempotency := (sameKey (fun row => (row.conversationId, row.idempotencyKey))
        fun _ => rfl).mpr keys.messageIdempotency
      messageSequence := (sameKey (fun row => (row.conversationId, row.sequence))
        fun _ => rfl).mpr keys.messageSequence
      onePending := ?_
      messageConversation := ?_
      messageParent := ?_
      messageChecks := ?_
      evidenceKeys := keys.evidenceKeys
      evidenceMessage := ?_
      evidenceChecks := keys.evidenceChecks
      citationKeys := keys.citationKeys
      citationOrdinals := keys.citationOrdinals
      citationEvidence := keys.citationEvidence }
  · have fewer := @sublist_filter_updateWhere Message dialogue.messages
      (expires clock conversationId) (Message.expired completed) Message.isPending
      fun _ _ _ => rfl
    exact keys.onePending.sublist (fewer.map (·.conversationId))
  · intro row member
    rcases mem_expire member with ⟨source, known, same, _⟩
    rcases keys.messageConversation source known with ⟨conversation, conversationKnown, course, idEq⟩
    refine ⟨conversation, conversationKnown, ?_, ?_⟩
    · rw [course, Message.column_eq same (·.courseId) fun _ => rfl]
    · rw [idEq, Message.column_eq same (·.conversationId) fun _ => rfl]
  · intro row member parentId isParent
    rcases mem_expire member with ⟨source, known, same, _⟩
    rw [Message.column_eq same (·.parentMessageId) fun _ => rfl] at isParent
    rcases keys.messageParent source known parentId isParent with ⟨parent, parentKnown, own, idEq⟩
    rcases kept parent parentKnown with ⟨later, laterKnown, sameParent⟩
    refine ⟨later, laterKnown, ?_, ?_⟩
    · rw [Message.column_eq sameParent (·.conversationId) fun _ => rfl, own,
        Message.column_eq same (·.conversationId) fun _ => rfl]
    · rw [Message.column_eq sameParent (·.id) fun _ => rfl, idEq]
  · intro row member
    rcases mem_expire member with ⟨source, known, _, stays | ⟨isPending, expired⟩⟩
    · rw [stays]
      exact keys.messageChecks source known
    · rw [expired]
      exact checks_expired (keys.messageChecks source known) isPending completed
  · intro row member
    rcases keys.evidenceMessage row member with ⟨message, known, course, corpus, idEq⟩
    rcases kept message known with ⟨later, laterKnown, same⟩
    refine ⟨later, laterKnown, ?_, ?_, ?_⟩
    · rw [Message.column_eq same (·.courseId) fun _ => rfl, course]
    · rw [Message.column_eq same (·.corpusVersionId) fun _ => rfl, corpus]
    · rw [Message.column_eq same (·.id) fun _ => rfl, idEq]

/-- Expiry keeps everything the schema declares. -/
theorem constraints_expire {identity : Identity} {material : Material}
    (constraints : dialogue.Constraints identity material) (clock completed : Clock)
    (conversationId : Option UUID) :
    (expire clock completed conversationId dialogue).Constraints identity material := by
  rcases constraints with ⟨keys, references⟩
  refine ⟨keys_expire keys clock completed conversationId, ?_⟩
  refine { references with messageCorpus := ?_ }
  intro row member corpusId isCorpus
  rcases mem_expire member with ⟨source, known, same, _⟩
  rw [Message.column_eq same (·.corpusVersionId) fun _ => rfl] at isCorpus
  rw [Message.column_eq same (·.courseId) fun _ => rfl]
  exact references.messageCorpus source known corpusId isCorpus

end Constraints

/-! ### Stored messages can be shown -/

/-- The view carries the message's own columns. -/
structure Message.ShownAs (message : Message) (shown : MessageView) : Prop where
  id : shown.id = message.id
  courseId : shown.courseId = message.courseId
  conversationId : shown.conversationId = message.conversationId
  corpusVersionId : shown.corpusVersionId = message.corpusVersionId
  sequence : shown.sequence = message.sequence
  question : shown.question = message.question
  state : shown.state = message.state
  kind : shown.kind = message.kind
  intent : shown.intent = message.intent
  parentMessageId : shown.parentMessageId = message.parentMessageId

theorem shownAs_of_view {dialogue : Dialogue} {message : Message} {shown : MessageView}
    (ok : view dialogue message = .ok shown) : message.ShownAs shown := by
  unfold view at ok
  by_cases isCompleted : message.state = .completed
  · simp only [if_pos isCompleted, bind_eq_ok, map_eq_ok, pure_eq_ok] at ok
    rcases ok with ⟨_, _, same⟩
    rw [← same]
    exact ⟨rfl, rfl, rfl, rfl, rfl, rfl, rfl, rfl, rfl, rfl⟩
  · simp only [if_neg isCompleted, ok_bind, pure_eq_ok] at ok
    rw [← ok]
    exact ⟨rfl, rfl, rfl, rfl, rfl, rfl, rfl, rfl, rfl, rfl⟩

/-- A message that passes the column checks can be shown. -/
theorem exists_view (dialogue : Dialogue) {message : Message} (checks : message.Checks) :
    ∃ shown, view dialogue message = .ok shown := by
  by_cases isCompleted : message.state = .completed
  · have payload := checks.terminalPayload
    rw [Message.TerminalPayload, isCompleted] at payload
    rcases payload with ⟨answer, mode, grounded, _, _⟩
    rcases Option.ne_none_iff_exists'.mp answer with ⟨text, answerEq⟩
    rcases Option.ne_none_iff_exists'.mp mode with ⟨which, modeEq⟩
    rcases Option.ne_none_iff_exists'.mp grounded with ⟨flag, groundedEq⟩
    simp only [view, if_pos isCompleted, answerView, answerEq, modeEq, groundedEq]
    exact ⟨_, rfl⟩
  · simp only [view, if_neg isCompleted]
    exact ⟨_, rfl⟩

end Docta
