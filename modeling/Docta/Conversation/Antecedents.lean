/-
Module: Docta.Conversation.Antecedents
Purpose: What a follow-up or an action continues. The chain of antecedents is
  read off the stored conversation and never changes once the turn is accepted;
  acceptance derives the query along it, and the task passes that query on.
Trusted boundary: none
Main exports: Message.AntecedentOf, Dialogue.Resolves, Message.Linked,
  antecedentOf_iff, linked_of_step, Tutor.Queries, queries_of_step
-/
import Docta.Conversation.Expiry
import Docta.Conversation.Generation
import Docta.Rag.Retrieval

namespace Docta

open Table Fallible Transition ConversationService

/-! ### Chains of antecedents -/

/-- Completed, and neither with an abstention nor with a clarification. -/
structure Message.Answers (message : Message) : Prop where
  completed : message.state = .completed
  notAbstained : message.mode ≠ some .abstain
  notClarified : message.mode ≠ some .clarify

/-- An action continues its parent, a follow-up the last completed message
before it, a question nothing. -/
def Message.Continues (dialogue : Dialogue) (row earlier : Message) : Prop :=
  match row.kind with
  | .question => False
  | .action => row.parentMessageId = some earlier.id
  | .followup =>
      ∀ other ∈ dialogue.messages, other.conversationId = row.conversationId →
        other.sequence < row.sequence → other.state = .completed →
          other.sequence ≤ earlier.sequence

/-- The completed message of its conversation that a turn continues. -/
structure Message.AntecedentOf (earlier : Message) (dialogue : Dialogue) (row : Message) :
    Prop where
  known : earlier ∈ dialogue.messages
  conversation : earlier.conversationId = row.conversationId
  before : earlier.sequence < row.sequence
  completed : earlier.state = .completed
  continues : row.Continues dialogue earlier

/-- The text is the question that a chain of answered antecedents leads to. -/
inductive Dialogue.Resolves (dialogue : Dialogue) : Message → String → Prop where
  | question {row earlier : Message} (antecedent : earlier.AntecedentOf dialogue row)
      (answers : earlier.Answers) (isQuestion : earlier.kind = .question) :
      Resolves dialogue row earlier.question
  | turn {row earlier : Message} {query : String} (antecedent : earlier.AntecedentOf dialogue row)
      (answers : earlier.Answers) (isTurn : earlier.kind ≠ .question)
      (resolves : Resolves dialogue earlier query) : Resolves dialogue row query

/-- The derived query is what the chain leads to; without one there is no
answered antecedent. -/
structure Message.Linked (dialogue : Dialogue) (row : Message) : Prop where
  resolves : ∀ query, row.retrievalQuery = some query → dialogue.Resolves row query
  unanswered : row.retrievalQuery = none → row.kind ≠ .action ∧
    ∀ earlier : Message, earlier.AntecedentOf dialogue row → ¬ earlier.Answers

/-- A chain starts with an answered antecedent. -/
theorem Dialogue.Resolves.exists_antecedent {dialogue : Dialogue} {row : Message} {query : String}
    (resolves : dialogue.Resolves row query) :
    ∃ earlier : Message, earlier.AntecedentOf dialogue row ∧ earlier.Answers := by
  cases resolves with
  | question antecedent answers isQuestion => exact ⟨_, antecedent, answers⟩
  | turn antecedent answers isTurn resolves => exact ⟨_, antecedent, answers⟩

/-- A question continues nothing. -/
theorem Dialogue.Resolves.kind_ne {dialogue : Dialogue} {row : Message} {query : String}
    (resolves : dialogue.Resolves row query) : row.kind ≠ .question := by
  intro isQuestion
  rcases resolves.exists_antecedent with ⟨earlier, antecedent, _⟩
  have continues := antecedent.continues
  rw [Message.Continues, isQuestion] at continues
  exact continues

/-! ### Sequences of a conversation -/

section Order

variable {dialogue : Dialogue} (orderly : dialogue.Orderly)
include orderly

/-- The sequences of a conversation lie below its next one. -/
theorem Dialogue.Orderly.sequence_lt {conversation : Conversation} {row : Message}
    (known : conversation ∈ dialogue.conversations) (rowKnown : row ∈ dialogue.messages)
    (own : row.conversationId = conversation.id) :
    1 ≤ row.sequence ∧ row.sequence < conversation.nextSequence := by
  have numbered : row.sequence ∈
      (dialogue.messages.filter (·.conversationId = conversation.id)).map (·.sequence) :=
    List.mem_map_of_mem (List.mem_filter.mpr ⟨rowKnown, decide_eq_true own⟩)
  rw [orderly.numbered.sequences conversation known, List.mem_range'_1] at numbered
  omega

/-- Every sequence below the next one has its message. -/
theorem Dialogue.Orderly.exists_sequence {conversation : Conversation} {sequence : Nat}
    (known : conversation ∈ dialogue.conversations)
    (bounds : 1 ≤ sequence ∧ sequence < conversation.nextSequence) :
    ∃ row ∈ dialogue.messages, row.conversationId = conversation.id ∧ row.sequence = sequence := by
  have numbered : sequence ∈ List.range' 1 (conversation.nextSequence - 1) := by
    rw [List.mem_range'_1]
    omega
  rw [← orderly.numbered.sequences conversation known] at numbered
  rcases List.mem_map.mp numbered with ⟨row, selected, same⟩
  rcases List.mem_filter.mp selected with ⟨rowKnown, own⟩
  exact ⟨row, rowKnown, of_decide_eq_true own, same⟩

/-- Messages before another one are settled. -/
theorem Dialogue.Orderly.settled {row other : Message} (known : row ∈ dialogue.messages)
    (otherKnown : other ∈ dialogue.messages) (own : other.conversationId = row.conversationId)
    (before : other.sequence < row.sequence) : other.state ≠ .pending := by
  intro isPending
  rcases orderly.keys.messageConversation row known with ⟨conversation, conversationKnown, _, idEq⟩
  have last := orderly.numbered.pendingLast other otherKnown isPending conversation
    conversationKnown (idEq.trans own.symm)
  have bounds := orderly.sequence_lt conversationKnown known idEq.symm
  omega

end Order

/-- A completed row stays. -/
theorem Dialogue.Advances.completed_stays {earlier later : Dialogue}
    (advances : earlier.Advances later) {row : Message} (known : row ∈ earlier.messages)
    (isCompleted : row.state = .completed) : row ∈ later.messages := by
  rcases advances.messages row known with ⟨after, afterKnown, advance⟩
  have same : after = row := advance.fenced (by rw [isCompleted]; nofun)
  exact same ▸ afterKnown

section Advance

variable {earlier later : Dialogue} (orderly : earlier.Orderly) (orderlyLater : later.Orderly)
  (advances : earlier.Advances later)
include orderly orderlyLater advances

/-- What stands before a message stood there when the message was stored. -/
theorem known_before {row after other : Message} (known : row ∈ earlier.messages)
    (advance : row.Advances after) (otherKnown : other ∈ later.messages)
    (own : other.conversationId = after.conversationId) (before : other.sequence < after.sequence) :
    other ∈ earlier.messages := by
  rw [advance.conversationId_eq] at own
  rw [advance.sequence_eq] at before
  rcases orderly.keys.messageConversation row known with ⟨conversation, conversationKnown, _, idEq⟩
  have bounds := orderly.sequence_lt conversationKnown known idEq.symm
  have positive : 0 < other.sequence := (orderlyLater.keys.messageChecks other otherKnown).sequence
  rcases orderly.exists_sequence conversationKnown ⟨positive, before.trans bounds.2⟩ with
    ⟨source, sourceKnown, sourceOwn, sameSequence⟩
  rcases advances.messages source sourceKnown with ⟨moved, movedKnown, movedAdvance⟩
  have sameKey : (moved.conversationId, moved.sequence) = (other.conversationId, other.sequence) := by
    rw [movedAdvance.conversationId_eq, movedAdvance.sequence_eq, sourceOwn, idEq, own, sameSequence]
  have same : moved = other :=
    orderlyLater.keys.messageSequence.eq_of_key movedKnown otherKnown sameKey
  -- A settled row is the row it advanced from.
  have settled := orderly.settled known sourceKnown (sourceOwn.trans idEq)
    (sameSequence ▸ before)
  rw [← same, movedAdvance.fenced settled]
  exact sourceKnown

/-- The antecedent of a stored turn never changes. -/
theorem antecedentOf_iff {row after candidate : Message} (known : row ∈ earlier.messages)
    (advance : row.Advances after) :
    candidate.AntecedentOf later after ↔ candidate.AntecedentOf earlier row := by
  have sameKind : after.kind = row.kind := advance.column (·.kind) fun _ => rfl
  have sameParent : after.parentMessageId = row.parentMessageId :=
    advance.column (·.parentMessageId) fun _ => rfl
  have continues (continuesOther : ∀ other : Message, other.state = .completed →
      other.conversationId = row.conversationId → other.sequence < row.sequence →
        (other ∈ later.messages ↔ other ∈ earlier.messages)) :
      after.Continues later candidate ↔ row.Continues earlier candidate := by
    unfold Message.Continues
    rw [sameKind, sameParent, advance.conversationId_eq, advance.sequence_eq]
    cases row.kind with
    | question => exact Iff.rfl
    | action => exact Iff.rfl
    | followup =>
        constructor
        · intro last other otherKnown own before isCompleted
          exact last other ((continuesOther other isCompleted own before).mpr otherKnown) own before
            isCompleted
        · intro last other otherKnown own before isCompleted
          exact last other ((continuesOther other isCompleted own before).mp otherKnown) own before
            isCompleted
  have sameRows (other : Message) (isCompleted : other.state = .completed)
      (own : other.conversationId = row.conversationId) (before : other.sequence < row.sequence) :
      other ∈ later.messages ↔ other ∈ earlier.messages := by
    refine ⟨fun inLater => ?_, fun inEarlier => ?_⟩
    · refine known_before orderly orderlyLater advances known advance inLater ?_ ?_
      · rw [own, advance.conversationId_eq]
      · rw [advance.sequence_eq]
        exact before
    · exact advances.completed_stays inEarlier isCompleted
  constructor
  · intro antecedent
    have own := antecedent.conversation.trans advance.conversationId_eq
    have before := antecedent.before.trans_eq advance.sequence_eq
    exact
      { known := (sameRows candidate antecedent.completed own before).mp antecedent.known
        conversation := own
        before := before
        completed := antecedent.completed
        continues := (continues sameRows).mp antecedent.continues }
  · intro antecedent
    exact
      { known := (sameRows candidate antecedent.completed antecedent.conversation
          antecedent.before).mpr antecedent.known
        conversation := antecedent.conversation.trans advance.conversationId_eq.symm
        before := antecedent.before.trans_eq advance.sequence_eq.symm
        completed := antecedent.completed
        continues := (continues sameRows).mpr antecedent.continues }

/-- What a chain leads to, it leads to for good. -/
theorem Dialogue.Resolves.mono {row after : Message} {query : String}
    (resolves : earlier.Resolves row query) (known : row ∈ earlier.messages)
    (advance : row.Advances after) : later.Resolves after query := by
  induction resolves generalizing after with
  | question antecedent answers isQuestion =>
      exact .question ((antecedentOf_iff orderly orderlyLater advances known advance).mpr antecedent)
        answers isQuestion
  | turn antecedent answers isTurn resolves inductionHypothesis =>
      exact .turn ((antecedentOf_iff orderly orderlyLater advances known advance).mpr antecedent)
        answers isTurn (inductionHypothesis antecedent.known (.refl _))

theorem Message.Linked.mono {row after : Message} (linked : row.Linked earlier)
    (known : row ∈ earlier.messages) (advance : row.Advances after) : after.Linked later := by
  have sameQuery : after.retrievalQuery = row.retrievalQuery :=
    advance.column (·.retrievalQuery) fun _ => rfl
  have sameKind : after.kind = row.kind := advance.column (·.kind) fun _ => rfl
  refine ⟨fun query isQuery => ?_, fun absent => ?_⟩
  · rw [sameQuery] at isQuery
    exact (linked.resolves query isQuery).mono orderly orderlyLater advances known advance
  · rw [sameQuery] at absent
    rw [sameKind]
    refine ⟨(linked.unanswered absent).1, fun candidate antecedent => ?_⟩
    exact (linked.unanswered absent).2 candidate
      ((antecedentOf_iff orderly orderlyLater advances known advance).mp antecedent)

end Advance

/-! ### Acceptance -/

/-- The last completed message of a conversation. -/
structure Message.LastCompleted (dialogue : Dialogue) (conversation : Conversation)
    (last : Message) : Prop where
  known : last ∈ dialogue.messages
  own : last.conversationId = conversation.id
  before : last.sequence < conversation.nextSequence
  completed : last.state = .completed
  greatest : ∀ other ∈ dialogue.messages, other.conversationId = conversation.id →
    other.sequence < conversation.nextSequence → other.state = .completed →
      other.sequence ≤ last.sequence

instance : IsTrans Message newestFirst := ⟨fun _ _ _ first second => Nat.le_trans second first⟩

instance : Std.Total newestFirst := ⟨fun first second => Nat.le_total second.sequence first.sequence⟩

theorem mem_completedBefore {dialogue : Dialogue} {conversationId : UUID} {bound : Nat}
    {message : Message} :
    message ∈ completedBefore dialogue conversationId bound ↔
      message ∈ dialogue.messages ∧ message.conversationId = conversationId ∧
        message.sequence < bound ∧ message.state = .completed := by
  rw [completedBefore, List.mem_insertionSort, List.mem_filter, decide_eq_true_iff]

/-- The newest of the completed messages, if there is any. -/
theorem completedBefore_head {dialogue : Dialogue} {conversation : Conversation} {last : Message}
    (found : (completedBefore dialogue conversation.id conversation.nextSequence).head? =
      some last) : last.LastCompleted dialogue conversation := by
  rcases mem_completedBefore.mp (List.mem_of_head? found) with ⟨known, own, before, isCompleted⟩
  refine ⟨known, own, before, isCompleted, fun other otherKnown otherOwn otherBefore done => ?_⟩
  have candidate := mem_completedBefore.mpr ⟨otherKnown, otherOwn, otherBefore, done⟩
  have sorted : (completedBefore dialogue conversation.id conversation.nextSequence).Pairwise
      newestFirst := List.pairwise_insertionSort newestFirst _
  rcases List.head?_eq_some_iff.mp found with ⟨rest, order⟩
  rw [order] at candidate sorted
  rcases List.mem_cons.mp candidate with same | inRest
  · rw [same]
  · exact List.rel_of_pairwise_cons sorted inRest

theorem completedBefore_none {dialogue : Dialogue} {conversation : Conversation}
    (absent : (completedBefore dialogue conversation.id conversation.nextSequence).head? = none)
    (last : Message) : ¬ last.LastCompleted dialogue conversation := by
  intro isLast
  have candidate := mem_completedBefore.mpr
    ⟨isLast.known, isLast.own, isLast.before, isLast.completed⟩
  rw [List.head?_eq_none_iff] at absent
  rw [absent] at candidate
  cases candidate

theorem Message.LastCompleted.unique {dialogue : Dialogue} {conversation : Conversation}
    {first second : Message} (keys : dialogue.Keys)
    (isFirst : first.LastCompleted dialogue conversation)
    (isSecond : second.LastCompleted dialogue conversation) : first = second := by
  refine keys.messageSequence.eq_of_key isFirst.known isSecond.known (Prod.ext ?_ ?_)
  · exact isFirst.own.trans isSecond.own.symm
  · exact Nat.le_antisymm
      (isSecond.greatest first isFirst.known isFirst.own isFirst.before isFirst.completed)
      (isFirst.greatest second isSecond.known isSecond.own isSecond.before isSecond.completed)

/-- What acceptance derives for a turn. -/
inductive Continued (dialogue : Dialogue) (conversation : Conversation)
    (request : ConversationService.Question) : Continuity → Prop where
  /-- a question derives nothing -/
  | question (intent : Option Intent) (notAction : request.kind ≠ .action) :
      Continued dialogue conversation request { kind := .question, intent }
  /-- an action derives its query from its completed parent, whatever it answered -/
  | action (intent : Option Intent) (parent : Message) (isAction : request.kind = .action)
      (known : parent ∈ dialogue.messages) (named : request.parentMessageId = some parent.id)
      (own : parent.conversationId = conversation.id) (isCompleted : parent.state = .completed) :
      Continued dialogue conversation request
        { kind := .action, intent, retrievalQuery := some (retrievalText parent)
          queryVersion := some "antecedent-v1" }
  /-- a follow-up derives its query from the last completed message, if it answered -/
  | followup (intent : Option Intent) (notAction : request.kind ≠ .action) (last : Message)
      (isLast : last.LastCompleted dialogue conversation) (answers : last.Answers) :
      Continued dialogue conversation request
        { kind := .followup, intent, retrievalQuery := some (retrievalText last)
          queryVersion := some "antecedent-v1" }
  /-- and else derives none -/
  | ambiguous (intent : Option Intent) (notAction : request.kind ≠ .action)
      (unanswered : ∀ last : Message, last.LastCompleted dialogue conversation → ¬ last.Answers) :
      Continued dialogue conversation request { kind := .followup, intent }

theorem continued_followUp {dialogue : Dialogue} (keys : dialogue.Keys)
    (conversation : Conversation) {request : ConversationService.Question}
    (notAction : request.kind ≠ .action) (intent : Option Intent) :
    Continued dialogue conversation request (followUp dialogue conversation intent) := by
  unfold followUp
  cases found : (completedBefore dialogue conversation.id conversation.nextSequence).head? with
  | none =>
      exact .ambiguous intent notAction fun last isLast =>
        absurd isLast (completedBefore_none found last)
  | some last =>
      have isLast := completedBefore_head found
      by_cases unanswered : last.mode = some .abstain ∨ last.mode = some .clarify
      · simp only [if_pos unanswered]
        refine .ambiguous intent notAction fun other otherLast answers => ?_
        rw [otherLast.unique keys isLast] at answers
        exact unanswered.elim answers.notAbstained answers.notClarified
      · simp only [if_neg unanswered]
        rw [not_or] at unanswered
        exact .followup intent notAction last isLast ⟨isLast.completed, unanswered.1, unanswered.2⟩

theorem continued_of_continuity {unicode : Text.UnicodeData} {dialogue : Dialogue}
    (keys : dialogue.Keys) {conversation : Conversation} {request : ConversationService.Question}
    {turn : Continuity}
    (ok : continuity unicode dialogue conversation request.question request.kind request.intent
      request.parentMessageId = .ok turn) : Continued dialogue conversation request turn := by
  unfold continuity at ok
  cases isKind : request.kind with
  | question =>
      have notAction : request.kind ≠ .action := by rw [isKind]; nofun
      simp only [isKind] at ok
      split at ok
      · cases ok
        exact continued_followUp keys conversation notAction _
      · cases ok
        exact .question _ notAction
  | followup =>
      have notAction : request.kind ≠ .action := by rw [isKind]; nofun
      simp only [isKind] at ok
      cases ok
      exact continued_followUp keys conversation notAction _
  | action =>
      simp only [isKind] at ok
      cases isParent : request.parentMessageId with
      | none =>
          rw [isParent] at ok
          cases ok
      | some parentId =>
          simp only [isParent] at ok
          split at ok
          · cases ok
          · rename_i parent found
            cases ok
            have matched := List.find?_some found
            simp only [Message.isCompleted, Bool.and_eq_true, beq_iff_eq] at matched
            refine .action _ parent isKind (List.mem_of_find?_eq_some found) ?_ matched.1.1.2
              matched.2
            rw [isParent, matched.1.1.1]

/-- What a creating acceptance did: the turn it derived and the row it added. -/
theorem continued_of_accept {settings : Settings} {unicode : Text.UnicodeData} {tables : Identity}
    {material : Material} {who : AuthenticatedIdentity} {request : ConversationService.Question}
    {readings : Readings} {accepted : AcceptedMessage} {before after : Dialogue}
    (keys : before.Keys) (created : accepted.created = true)
    (ok : ConversationService.accept settings unicode tables material who request readings before =
      .ok (accepted, after)) :
    ∃ conversation key turn, conversation ∈ before.conversations ∧
      conversation.id = request.conversationId ∧
      Continued (expire readings.expiryClock readings.completedClock (some request.conversationId)
        before) conversation request turn ∧
      after = insertMessage (expire readings.expiryClock readings.completedClock
          (some request.conversationId) before) conversation
        (newMessage settings conversation request key turn readings) ∧
      accepted.message.id = readings.messageId ∧ accepted.message.question = request.question := by
  simp only [ConversationService.accept, bind_eq_ok] at ok
  rcases ok with ⟨key, _, conversation, found, rest⟩
  split at rest
  · simp only [bind_eq_ok, pure_eq_ok, Prod.mk.injEq] at rest
    rcases rest with ⟨_, _, _, _, _, _, same, _⟩
    rw [← same] at created
    cases created
  · simp only [acceptNew, bind_eq_ok, pure_eq_ok, Dialogue.commit_eq_ok, Prod.mk.injEq] at rest
    rcases rest with ⟨_, _, turn, turnOk, _, ⟨_, rfl⟩, shown, shownOk, rfl, rfl⟩
    have shownAs := shownAs_of_view shownOk
    exact ⟨conversation, key, turn, (owned_eq_ok found).1, (owned_eq_ok found).2,
      continued_of_continuity (keys_expire keys _ _ _) turnOk, rfl, shownAs.id, shownAs.question⟩

/-! ### Where rows come from -/

/-- A row with the identifier of an earlier row advanced from it. -/
theorem Dialogue.Advances.of_id {earlier later : Dialogue} (orderlyLater : later.Orderly)
    (advances : earlier.Advances later) {source message : Message}
    (known : source ∈ earlier.messages) (laterKnown : message ∈ later.messages)
    (sameId : message.id = source.id) : source.Advances message := by
  rcases advances.messages source known with ⟨after, afterKnown, advance⟩
  have same : after = message :=
    orderlyLater.keys.messageIds.eq_of_key afterKnown laterKnown (advance.id_eq.trans sameId.symm)
  rw [← same]
  exact advance

/-- Rows that were accepted alike are the earlier rows, advanced. -/
theorem sources_of_map_accepted {earlier later : Dialogue} (orderlyLater : later.Orderly)
    (advances : earlier.Advances later)
    (same : later.messages.map Message.accepted = earlier.messages.map Message.accepted) :
    ∀ message ∈ later.messages, ∃ source ∈ earlier.messages, source.Advances message := by
  intro message known
  have inBoth : message.accepted ∈ earlier.messages.map Message.accepted := by
    rw [← same]
    exact List.mem_map_of_mem known
  rcases List.mem_map.mp inBoth with ⟨source, sourceKnown, sameRequest⟩
  have sameId : message.id = source.id := Message.column_eq sameRequest.symm (·.id) fun _ => rfl
  exact ⟨source, sourceKnown, advances.of_id orderlyLater sourceKnown known sameId⟩

section Step

variable {data : ValidatorData} {tables : Identity} {material : Material} {before after : Tutor}

/-- After a step every row advanced from an earlier one, unless the step created
one. -/
theorem message_cases (wellFormed : before.WellFormed)
    (step : Tutor.Step data tables material before after) :
    (∀ message ∈ after.dialogue.messages, ∃ source ∈ before.dialogue.messages,
      source.Advances message) ∨
    ∃ settings who request readings accepted,
      ConversationService.accept settings data.unicode tables material who request readings
        before.dialogue = .ok (accepted, after.dialogue) ∧ accepted.created = true := by
  have orderly := orderly_of_tutorStep wellFormed.orderly step
  have advances := advances_of_tutorStep wellFormed.orderly step
  cases seen_of_step wellFormed step with
  | quiet effect =>
      exact .inl (sources_of_map_accepted orderly advances
        (map_accepted_of_effect effect (by decide)))
  | accepted settings who request readings accepted earlier later capture captured taken locked
      read course created ok =>
      exact .inr ⟨settings, who, request, readings, accepted, ok, created⟩
  | completed messageId draft now completedAt validated ok =>
      rcases @effect_of_result _ _ (.complete tables material messageId draft now completedAt) ok with
        ⟨⟨change, possible, effect⟩, _⟩
      rw [List.mem_singleton.mp possible] at effect
      exact .inl (sources_of_map_accepted orderly advances
        (map_accepted_of_effect effect (by decide)))

/-- An acceptance just returned, or was there before. -/
theorem post_cases (step : Tutor.Step data tables material before after) :
    ∀ accepted ∈ after.posts, accepted ∈ before.posts ∨
      ∃ settings who request readings,
        ConversationService.accept settings data.unicode tables material who request readings
          before.dialogue = .ok (accepted, after.dialogue) := by
  intro posted member
  cases step with
  | accept settings who request readings accepted dialogue earlier later capture captured locked
      read course created ok =>
      rcases List.mem_append.mp member with old | new
      · exact .inl old
      · rw [List.mem_singleton.mp new]
        exact .inr ⟨settings, who, request, readings, ok⟩
  | acceptAgain settings who request readings accepted dialogue repeated ok =>
      rcases List.mem_append.mp member with old | new
      · exact .inl old
      · rw [List.mem_singleton.mp new]
        exact .inr ⟨settings, who, request, readings, ok⟩
  | start earlier later accepted given created =>
      rw [given]
      exact .inl ((List.sublist_cons_self accepted later).append_left earlier |>.subset member)
  | startAgain earlier later accepted given repeated =>
      rw [given]
      exact .inl ((List.sublist_cons_self accepted later).append_left earlier |>.subset member)
  | crash captures posts turns orphans fewerCaptures fewerPosts fewerTurns fewerOrphans =>
      exact .inl (fewerPosts.subset member)
  | _ => exact .inl member

/-- A task was there before, was just started, or went on. -/
theorem turn_cases (step : Tutor.Step data tables material before after) :
    ∀ turn ∈ after.turns, turn ∈ before.turns ∨
      (∃ accepted ∈ before.posts, turn = ⟨accepted, .started⟩) ∨
      ∃ phase progress, ⟨turn.accepted, phase⟩ ∈ before.turns ∧
        TurnStep data tables material turn.accepted before.dialogue before.ledger phase progress ∧
        progress.phase = some turn.phase := by
  intro turn member
  cases step with
  | start earlier later accepted posted created =>
      rcases List.mem_append.mp member with old | new
      · exact .inl old
      · refine .inr (.inl ⟨accepted, ?_, List.mem_singleton.mp new⟩)
        rw [posted]
        exact List.mem_append_right _ List.mem_cons_self
  | turn earlier later accepted phase progress running advance =>
      have current : Turn.mk accepted phase ∈ before.turns := by
        rw [running]
        exact List.mem_append_right _ List.mem_cons_self
      rcases List.mem_append.mp member with first | inLater
      · rcases List.mem_append.mp first with inEarlier | new
        · rw [running]
          exact .inl (List.mem_append_left _ inEarlier)
        · rcases Option.map_eq_some_iff.mp (Option.mem_toList.mp new) with ⟨next, isNext, same⟩
          rw [← same]
          exact .inr (.inr ⟨phase, progress, current, advance, isNext⟩)
      · rw [running]
        exact .inl (List.mem_append_right _ (List.mem_cons_of_mem _ inLater))
  | crash captures posts turns orphans fewerCaptures fewerPosts fewerTurns fewerOrphans =>
      exact .inl (fewerTurns.subset member)
  | _ => exact .inl member

/-- The ledger stays, or one task wrote to it. -/
theorem ledger_cases (step : Tutor.Step data tables material before after) :
    after.ledger = before.ledger ∨
      ∃ accepted phase progress, ⟨accepted, phase⟩ ∈ before.turns ∧
        TurnStep data tables material accepted before.dialogue before.ledger phase progress ∧
        after.ledger = progress.ledger := by
  cases step with
  | turn earlier later accepted phase progress running advance =>
      refine .inr ⟨accepted, phase, progress, ?_, advance, rfl⟩
      rw [running]
      exact List.mem_append_right _ List.mem_cons_self
  | _ => exact .inl rfl

end Step

/-! ### The query a task passes on -/

/-- The acceptance shows a stored message's question. -/
def Dialogue.Shown (dialogue : Dialogue) (accepted : AcceptedMessage) : Prop :=
  ∃ row ∈ dialogue.messages, row.id = accepted.message.id ∧
    row.question = accepted.message.question

/-- The query is the one the message is stored with. -/
def Dialogue.Asks (dialogue : Dialogue) (messageId : UUID) (query : String) : Prop :=
  ∃ row ∈ dialogue.messages, row.id = messageId ∧ row.searchText = query

/-- What a suspended task passes on: the stored query, and for a follow-up
without antecedent nothing but the clarification. -/
def Phase.Follows (dialogue : Dialogue) (messageId : UUID) : Phase → Prop
  | .retrieving request =>
      request.scope.messageId = messageId ∧ dialogue.Asks messageId request.query
  | .drafted draft _ => dialogue.Answerable messageId ∨ draft = some clarification.dump
  | _ => True

/-- What every run keeps of queries and of follow-ups without antecedent. -/
structure Tutor.Queries (tutor : Tutor) : Prop where
  nonempty : ∀ row ∈ tutor.dialogue.messages, row.retrievalQuery ≠ some ""
  posted : ∀ accepted ∈ tutor.posts, tutor.dialogue.Shown accepted
  shown : ∀ turn ∈ tutor.turns, tutor.dialogue.Shown turn.accepted
  follows : ∀ turn ∈ tutor.turns, turn.phase.Follows tutor.dialogue turn.messageId
  retrieved : ∀ entry ∈ tutor.ledger.retrievals, tutor.dialogue.Answerable entry.1
  clarified : ∀ entry ∈ tutor.ledger.validations,
    tutor.dialogue.Answerable entry.1 ∨ entry.2 = clarification

theorem queries_of_initial {tutor : Tutor} (initial : tutor.Initial) : tutor.Queries := by
  rw [Tutor.Initial] at initial
  rw [initial]
  exact ⟨List.forall_mem_nil _, List.forall_mem_nil _, List.forall_mem_nil _, List.forall_mem_nil _,
    List.forall_mem_nil _, List.forall_mem_nil _⟩

/-- A stored message's question is not empty. -/
theorem Message.Checks.question_ne {message : Message} (checks : message.Checks) :
    message.question ≠ "" := by
  intro empty
  have stored := checks.question.1
  rw [empty] at stored
  exact absurd stored (by decide)

theorem retrievalText_ne {message : Message} (checks : message.Checks) :
    retrievalText message ≠ "" := by
  unfold retrievalText
  cases message.retrievalQuery with
  | none => exact checks.question_ne
  | some query =>
      by_cases empty : query = ""
      · simp only [if_pos empty]
        exact checks.question_ne
      · simp only [if_neg empty]
        exact empty

/-- Two ways of falling back to the question agree where no query is empty. -/
theorem query_eq_searchText {request : TutorRequest} {row : Message}
    (sameQuery : request.retrievalQuery = row.retrievalQuery)
    (sameQuestion : request.question = row.question) (nonempty : row.retrievalQuery ≠ some "") :
    row.searchText = request.query := by
  unfold Message.searchText TutorRequest.query
  rw [sameQuery, sameQuestion]
  cases isQuery : row.retrievalQuery with
  | none => rfl
  | some query =>
      rw [isQuery] at nonempty
      have notEmpty : query ≠ "" := fun empty => nonempty (congrArg some empty)
      simp only [if_neg notEmpty, Option.getD_some]

/-- The request of a task carries the stored row's query and the shown question. -/
theorem asked_of_request {accepted : AcceptedMessage} {evidence : List Evidence}
    {dialogue : Dialogue} {request : TutorRequest}
    (ok : ConversationService.request accepted evidence dialogue = .ok request) :
    request.scope.messageId = accepted.message.id ∧
      request.question = accepted.message.question ∧
        ∃ row ∈ dialogue.messages, row.id = accepted.message.id ∧
          request.retrievalQuery = row.retrievalQuery := by
  unfold ConversationService.request at ok
  split at ok
  · cases ok
  · split at ok
    · cases ok
    · rename_i stored storedEq
      cases ok
      have matched := List.find?_some storedEq
      exact ⟨rfl, rfl, stored, List.mem_of_find?_eq_some storedEq, beq_iff_eq.mp matched, rfl⟩

/-- The validator lets the canonical clarification pass as it is. -/
theorem validate_clarification {data : ValidatorData} {request : TutorRequest} :
    EvidenceResponseValidator.validate data (some clarification.dump) request =
      .ok clarification :=
  validate_of_ambiguous (modelValidate_clarification _) rfl (by decide +kernel) rfl

section Growth

variable {earlier later : Dialogue} (advances : earlier.Advances later)
include advances

theorem Dialogue.Shown.mono {accepted : AcceptedMessage} (shown : earlier.Shown accepted) :
    later.Shown accepted := by
  rcases shown with ⟨row, known, sameId, sameQuestion⟩
  rcases advances.messages row known with ⟨after, afterKnown, advance⟩
  refine ⟨after, afterKnown, advance.id_eq.trans sameId, ?_⟩
  rw [advance.column (·.question) fun _ => rfl, sameQuestion]

theorem Dialogue.Asks.mono {messageId : UUID} {query : String} (asks : earlier.Asks messageId query) :
    later.Asks messageId query := by
  rcases asks with ⟨row, known, sameId, sameQuery⟩
  rcases advances.messages row known with ⟨after, afterKnown, advance⟩
  refine ⟨after, afterKnown, advance.id_eq.trans sameId, ?_⟩
  rw [advance.column Message.searchText fun _ => rfl, sameQuery]

theorem Phase.Follows.mono {phase : Phase} {messageId : UUID}
    (follows : phase.Follows earlier messageId) : phase.Follows later messageId := by
  cases phase with
  | retrieving request => exact ⟨follows.1, Dialogue.Asks.mono advances follows.2⟩
  | drafted draft request =>
      rcases follows with answerable | isClarification
      · exact .inl (answerable.mono advances)
      · exact .inr isClarification
  | _ => trivial

end Growth

section Step

variable {data : ValidatorData} {tables : Identity} {material : Material} {before after : Tutor}

/-- Any acceptance that returns shows a stored message. -/
theorem shown_of_accept {settings : Settings} {unicode : Text.UnicodeData}
    {who : AuthenticatedIdentity} {request : ConversationService.Question} {readings : Readings}
    {accepted : AcceptedMessage} {earlier later : Dialogue}
    (ok : ConversationService.accept settings unicode tables material who request readings earlier =
      .ok (accepted, later)) : later.Shown accepted := by
  simp only [ConversationService.accept, bind_eq_ok] at ok
  rcases ok with ⟨key, _, conversation, found, rest⟩
  split at rest
  · rename_i existing existingEq
    simp only [bind_eq_ok, pure_eq_ok, Prod.mk.injEq, Dialogue.commit_eq_ok] at rest
    rcases rest with ⟨_, _, shown, shownOk, _, ⟨_, rfl⟩, rfl, rfl⟩
    have shownAs := shownAs_of_view shownOk
    exact ⟨existing, List.mem_of_find?_eq_some existingEq, shownAs.id.symm, shownAs.question.symm⟩
  · simp only [acceptNew, bind_eq_ok, pure_eq_ok, Dialogue.commit_eq_ok, Prod.mk.injEq] at rest
    rcases rest with ⟨_, _, turn, turnOk, _, ⟨_, rfl⟩, shown, shownOk, rfl, rfl⟩
    have shownAs := shownAs_of_view shownOk
    exact ⟨_, List.mem_append_right _ (List.mem_singleton_self _), shownAs.id.symm,
      shownAs.question.symm⟩

/-- The derived query of a new turn is not empty. -/
theorem Continued.retrievalQuery_ne {dialogue : Dialogue} {conversation : Conversation}
    {request : ConversationService.Question} {turn : Continuity}
    (continued : Continued dialogue conversation request turn) (keys : dialogue.Keys) :
    turn.retrievalQuery ≠ some "" := by
  intro empty
  cases continued with
  | question intent notAction => cases empty
  | action intent parent isAction known named own isCompleted =>
      exact retrievalText_ne (keys.messageChecks parent known) (Option.some.inj empty)
  | followup intent notAction last isLast answers =>
      exact retrievalText_ne (keys.messageChecks last isLast.known) (Option.some.inj empty)
  | ambiguous intent notAction unanswered => cases empty

theorem nonempty_of_step (wellFormed : before.WellFormed) (queries : before.Queries)
    (step : Tutor.Step data tables material before after) :
    ∀ row ∈ after.dialogue.messages, row.retrievalQuery ≠ some "" := by
  have old {row : Message} (found : ∃ source ∈ before.dialogue.messages, source.Advances row) :
      row.retrievalQuery ≠ some "" := by
    rcases found with ⟨source, known, advance⟩
    rw [advance.column (·.retrievalQuery) fun _ => rfl]
    exact queries.nonempty source known
  rcases message_cases wellFormed step with same | ⟨settings, who, request, readings, accepted, ok, created⟩
  · exact fun row known => old (same row known)
  · have keys := wellFormed.orderly.keys
    rcases continued_of_accept keys created ok with
      ⟨conversation, key, turn, _, _, continued, inserted, _, _⟩
    rw [inserted]
    intro row known
    rcases List.mem_append.mp known with inExpired | isNew
    · rcases mem_expire inExpired with ⟨source, sourceKnown, sameRequest, _⟩
      rw [Message.column_eq sameRequest (·.retrievalQuery) fun _ => rfl]
      exact queries.nonempty source sourceKnown
    · rw [List.mem_singleton.mp isNew]
      exact continued.retrievalQuery_ne (keys_expire keys _ _ _)

/-- A task going on passes on what it follows. -/
theorem follows_of_turnStep {accepted : AcceptedMessage} {dialogue : Dialogue} {ledger : Ledger}
    {phase : Phase} {progress : Progress} {next : Phase} (keys : dialogue.Keys)
    (nonempty : ∀ row ∈ dialogue.messages, row.retrievalQuery ≠ some "")
    (shown : dialogue.Shown accepted)
    (advance : TurnStep data tables material accepted dialogue ledger phase progress)
    (isNext : progress.phase = some next)
    (justified : phase.Justified dialogue ledger accepted.message.id) :
    next.Follows dialogue accepted.message.id := by
  cases advance with
  | clarify request ok needs =>
      cases isNext
      exact .inr rfl
  | retrieve request ok complete =>
      cases isNext
      rcases asked_of_request ok with ⟨sameScope, sameQuestion, row, known, sameId, sameQuery⟩
      rcases shown with ⟨stored, storedKnown, storedId, storedQuestion⟩
      have same := keys.messageIds.eq_of_key storedKnown known (storedId.trans sameId.symm)
      rw [same] at storedQuestion
      exact ⟨sameScope, row, known, sameId, query_eq_searchText sameQuery
        (sameQuestion.trans storedQuestion.symm) (nonempty row known)⟩
  | abstain request empty =>
      cases isNext
      exact .inl justified.1
  | generated request draft =>
      cases isNext
      exact .inl justified.1
  | retrieved request evidence =>
      cases isNext
      trivial
  | save request evidence now saved ok =>
      cases isNext
      trivial
  | generate request found =>
      cases isNext
      trivial
  | validate request draft validated ok =>
      cases isNext
      trivial
  | interrupt phase code left behind =>
      cases isNext
      trivial
  | complete draft now completedAt completed ok => cases isNext
  | fail code completedAt failed ok => cases isNext

/-- Every step keeps what is said of queries. -/
theorem queries_of_step (wellFormed : before.WellFormed) (queries : before.Queries)
    (step : Tutor.Step data tables material before after) : after.Queries := by
  have advances := advances_of_tutorStep wellFormed.orderly step
  have keys := wellFormed.orderly.keys
  refine
    { nonempty := nonempty_of_step wellFormed queries step
      posted := fun accepted member => ?_
      shown := fun turn member => ?_
      follows := fun turn member => ?_
      retrieved := fun entry member => ?_
      clarified := fun entry member => ?_ }
  · rcases post_cases step accepted member with old | ⟨settings, who, request, readings, ok⟩
    · exact (queries.posted accepted old).mono advances
    · exact shown_of_accept ok
  · rcases turn_cases step turn member with old | ⟨accepted, posted, same⟩ | ⟨phase, _, current, _⟩
    · exact (queries.shown turn old).mono advances
    · rw [same]
      exact (queries.posted accepted posted).mono advances
    · exact Dialogue.Shown.mono advances (queries.shown ⟨turn.accepted, phase⟩ current)
  · rcases turn_cases step turn member with old | ⟨accepted, posted, same⟩ |
      ⟨phase, progress, current, advance, isNext⟩
    · exact (queries.follows turn old).mono advances
    · rw [same]
      trivial
    · exact (follows_of_turnStep keys queries.nonempty (queries.shown _ current) advance isNext
        (wellFormed.justified _ current)).mono advances
  · rcases ledger_cases step with same | ⟨accepted, phase, progress, current, advance, same⟩
    · rw [same] at member
      exact (queries.retrieved entry member).mono advances
    · rw [same] at member
      cases advance with
      | retrieved request evidence =>
          rcases List.mem_append.mp member with old | new
          · exact (queries.retrieved entry old).mono advances
          · rw [List.mem_singleton.mp new]
            exact Dialogue.Answerable.mono (wellFormed.justified _ current) advances
      | _ => exact (queries.retrieved entry member).mono advances
  · have kept (old : entry ∈ before.ledger.validations) :
        after.dialogue.Answerable entry.1 ∨ entry.2 = clarification :=
      (queries.clarified entry old).imp_left fun answerable => answerable.mono advances
    rcases ledger_cases step with same | ⟨accepted, phase, progress, current, advance, same⟩
    · rw [same] at member
      exact kept member
    · rw [same] at member
      cases advance with
      | validate request draft validated ok =>
          rcases List.mem_append.mp member with old | new
          · exact kept old
          · rw [List.mem_singleton.mp new]
            rcases queries.follows _ current with answerable | isClarification
            · exact .inl (answerable.mono advances)
            · rw [isClarification, validate_clarification] at ok
              exact .inr (Except.ok.inj ok).symm
      | _ => exact kept member

end Step

/-! ### Derived queries follow the chain -/

/-- A completed follow-up without antecedent was answered by the clarification. -/
theorem clarified_of_completed {tutor : Tutor} (wellFormed : tutor.WellFormed)
    (queries : tutor.Queries) {row : Message} (known : row ∈ tutor.dialogue.messages)
    (needs : row.NeedsAntecedent) (isCompleted : row.state = .completed) :
    row.mode = some .clarify ∧ tutor.dialogue.citations.filter (·.messageId = row.id) = [] := by
  rcases wellFormed.answered row known isCompleted with ⟨draft, validated, shows, cited⟩
  rcases queries.clarified _ validated with ⟨stored, storedKnown, sameId, complete⟩ | isClarification
  · have same := wellFormed.orderly.keys.messageIds.eq_of_key storedKnown known sameId
    rw [same] at complete
    exact absurd needs complete
  · have isClarification : draft = clarification := isClarification
    rw [isClarification] at shows cited
    exact ⟨shows.mode, cited⟩

section Linked

variable {tutor : Tutor} (wellFormed : tutor.WellFormed) (queries : tutor.Queries)
include wellFormed queries

/-- An answered antecedent whose own query follows the chain passes it on. -/
theorem resolves_of_antecedent {row earlier : Message} (linked : earlier.Linked tutor.dialogue)
    (antecedent : earlier.AntecedentOf tutor.dialogue row) (answers : earlier.Answers) :
    tutor.dialogue.Resolves row (retrievalText earlier) := by
  unfold retrievalText
  cases isQuery : earlier.retrievalQuery with
  | some query =>
      have notEmpty : query ≠ "" := fun empty =>
        queries.nonempty earlier antecedent.known (isQuery.trans (congrArg some empty))
      simp only [if_neg notEmpty]
      have resolves := linked.resolves query isQuery
      exact .turn antecedent answers resolves.kind_ne resolves
  | none =>
      cases isKind : earlier.kind with
      | question => exact .question antecedent answers isKind
      | action => exact absurd isKind (linked.unanswered isQuery).1
      | followup =>
          have clarified := clarified_of_completed wellFormed queries antecedent.known
            ⟨isKind, isQuery⟩ answers.completed
          exact absurd clarified.1 answers.notClarified

end Linked

/-- What an action names answered, wherever the step accepts one. -/
def Tutor.ActsOnAnswers (data : ValidatorData) (tables : Identity) (material : Material)
    (before after : Tutor) : Prop :=
  ∀ settings who (request : ConversationService.Question) readings accepted,
    ConversationService.accept settings data.unicode tables material who request readings
        before.dialogue = .ok (accepted, after.dialogue) →
      accepted.created = true → request.kind = .action →
        ∀ parent ∈ before.dialogue.messages, request.parentMessageId = some parent.id →
          parent.mode ≠ some .abstain ∧ parent.mode ≠ some .clarify

section Step

variable {data : ValidatorData} {tables : Identity} {material : Material} {before after : Tutor}

/-- The last completed message is what a new follow-up continues. -/
theorem lastCompleted_iff {expired : Dialogue} {conversation : Conversation} {row earlier : Message}
    (isFollowup : row.kind = .followup) (own : row.conversationId = conversation.id)
    (next : row.sequence = conversation.nextSequence) :
    earlier.AntecedentOf (insertMessage expired conversation row) row ↔
      earlier.LastCompleted expired conversation := by
  have older {other : Message} (before : other.sequence < conversation.nextSequence) :
      other ∈ (insertMessage expired conversation row).messages ↔ other ∈ expired.messages := by
    refine ⟨fun known => ?_, fun known => List.mem_append_left _ known⟩
    rcases List.mem_append.mp known with old | isNew
    · exact old
    · rw [List.mem_singleton.mp isNew, next] at before
      exact absurd before (Nat.lt_irrefl _)
  constructor
  · intro antecedent
    have before : earlier.sequence < conversation.nextSequence := next ▸ antecedent.before
    have continues := antecedent.continues
    rw [Message.Continues, isFollowup] at continues
    refine ⟨(older before).mp antecedent.known, antecedent.conversation.trans own, before,
      antecedent.completed, fun other otherKnown otherOwn otherBefore done => ?_⟩
    exact continues other ((older otherBefore).mpr otherKnown) (otherOwn.trans own.symm)
      (next ▸ otherBefore) done
  · intro isLast
    refine ⟨(older isLast.before).mpr isLast.known, isLast.own.trans own.symm, next ▸ isLast.before,
      isLast.completed, ?_⟩
    rw [Message.Continues, isFollowup]
    intro other otherKnown otherOwn otherBefore done
    rw [next] at otherBefore
    exact isLast.greatest other ((older otherBefore).mp otherKnown) (otherOwn.trans own) otherBefore
      done

/-- Where actions name answered messages, every step keeps derived queries on
the chain. -/
theorem linked_of_step (wellFormed : before.WellFormed) (queries : before.Queries)
    (linked : ∀ row ∈ before.dialogue.messages, row.Linked before.dialogue)
    (step : Tutor.Step data tables material before after)
    (acts : Tutor.ActsOnAnswers data tables material before after) :
    ∀ row ∈ after.dialogue.messages, row.Linked after.dialogue := by
  have wellFormedAfter := wellFormed_of_step wellFormed step
  have queriesAfter := queries_of_step wellFormed queries step
  have advances := advances_of_tutorStep wellFormed.orderly step
  have old {row : Message} (found : ∃ source ∈ before.dialogue.messages, source.Advances row) :
      row.Linked after.dialogue := by
    rcases found with ⟨source, known, advance⟩
    exact (linked source known).mono wellFormed.orderly wellFormedAfter.orderly advances known advance
  rcases message_cases wellFormed step with same | ⟨settings, who, request, readings, accepted, ok, created⟩
  · exact fun row known => old (same row known)
  · rcases continued_of_accept wellFormed.orderly.keys created ok with
      ⟨conversation, key, turn, conversationKnown, _, continued, inserted, _, _⟩
    have inAfter {row : Message} (known : row ∈ (expire readings.expiryClock readings.completedClock
        (some request.conversationId) before.dialogue).messages) : row ∈ after.dialogue.messages := by
      rw [inserted]
      exact List.mem_append_left _ known
    have oldRow {row : Message} (known : row ∈ (expire readings.expiryClock readings.completedClock
        (some request.conversationId) before.dialogue).messages) : row.Linked after.dialogue := by
      rcases mem_expire known with ⟨source, sourceKnown, sameRequest, _⟩
      have sameId : row.id = source.id := Message.column_eq sameRequest (·.id) fun _ => rfl
      exact old ⟨source, sourceKnown,
        advances.of_id wellFormedAfter.orderly sourceKnown (inAfter known) sameId⟩
    have newRow : (newMessage settings conversation request key turn readings).Linked
        after.dialogue := by
      cases continued with
      | question intent notAction =>
          refine ⟨fun query isQuery => (by cases isQuery), fun _ => ⟨nofun, fun earlier antecedent => ?_⟩⟩
          exact absurd antecedent.continues id
      | ambiguous intent notAction unanswered =>
          refine ⟨fun query isQuery => (by cases isQuery), fun _ => ⟨nofun, fun earlier antecedent => ?_⟩⟩
          rw [inserted] at antecedent
          exact unanswered earlier ((lastCompleted_iff rfl rfl rfl).mp antecedent)
      | followup intent notAction last isLast answers =>
          refine ⟨fun query isQuery => ?_, fun absent => (by cases absent)⟩
          rw [← Option.some.inj isQuery]
          refine resolves_of_antecedent wellFormedAfter queriesAfter (oldRow isLast.known) ?_ answers
          rw [inserted]
          exact (lastCompleted_iff rfl rfl rfl).mpr isLast
      | action intent parent isAction known named own isCompleted =>
          refine ⟨fun query isQuery => ?_, fun absent => (by cases absent)⟩
          rcases mem_expire known with ⟨source, sourceKnown, _, same | ⟨_, expired⟩⟩
          · rw [← same] at sourceKnown
            have bounds := wellFormed.orderly.sequence_lt conversationKnown sourceKnown own
            have modes := acts settings who request readings accepted ok created isAction parent
              sourceKnown named
            rw [← Option.some.inj isQuery]
            exact resolves_of_antecedent wellFormedAfter queriesAfter (oldRow known)
              ⟨inAfter known, own, bounds.2, isCompleted, named⟩ ⟨isCompleted, modes.1, modes.2⟩
          · rw [expired] at isCompleted
            cases isCompleted
    intro row known
    have known := known
    rw [inserted] at known
    rcases List.mem_append.mp known with inExpired | isNew
    · exact oldRow inExpired
    · rw [List.mem_singleton.mp isNew]
      exact newRow

end Step

end Docta
