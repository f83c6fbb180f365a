/-
Module: Docta.World.Recovery
Purpose: What the recover button does over whole runs. However answers are lost or late
  and whatever else happens in the system, a typed question is posted again exactly as
  it was posted first, all its answers name one stored message, and the panel takes a
  send for settled only when its message is.
Trusted boundary: as in `TutorPanel`
Main exports: Client.Quiet, Client.Steady, Client.Backed, PanelRun.Recovers,
  recovery_repeats_question
-/
import Docta.World.TutorPanel

namespace Docta

open Table Fallible Transition ConversationService

/-! ### What the panel is about -/

/-- The running send, or the recover button, has the key. -/
def Client.Current (client : Client) (key : String) : Prop :=
  (∃ sending, client.panel.sending = some sending ∧ sending.key = key) ∨
    ∃ retry, client.panel.retry = some retry ∧ retry.key = key

/-- The call sends what the student asked for, or its text alone. -/
structure Sending.Of (sending : Sending) (send : Send) : Prop where
  key : sending.key = send.key
  question : sending.question = send.question
  options : sending.options = send.options ∨ sending.options = {}

structure Post.Of (post : Post) (send : Send) : Prop where
  key : post.key = send.key
  body : post.body = send.options.body send.question ∨
    post.body = SendOptions.body {} send.question

structure Retry.Of (retry : Retry) (send : Send) : Prop where
  key : retry.key = send.key
  question : retry.question = send.question

/-- Every key is the key of one thing the student asked for. -/
structure Client.Keyed (client : Client) : Prop where
  unique : UniqueOn (·.key) client.sends
  drawn : ∀ send ∈ client.sends, send.key ∈ client.drawn
  sent : ∀ post ∈ client.sent, ∃ send ∈ client.sends, post.Of send
  sending : ∀ sending, client.panel.sending = some sending → ∃ send ∈ client.sends, sending.Of send
  retry : ∀ retry, client.panel.retry = some retry → ∃ send ∈ client.sends, retry.Of send

/-- The posts under a key go to one conversation, which stays selected as long as more
can follow. -/
structure Client.Steady (client : Client) (key : String) : Prop where
  same : ∀ first ∈ client.sent, ∀ second ∈ client.sent, first.key = key → second.key = key →
    first.conversationId = second.conversationId
  unloaded : client.Current key → client.panel.loader = none
  aimed : client.Current key → ∀ post ∈ client.sent, post.key = key →
    client.panel.selected = some post.conversationId
  unselected : client.Current key → ∀ sending attempt, client.panel.sending = some sending →
    sending.phase = .creating attempt → client.panel.selected = none

/-! ### Steps that post nothing -/

/-- The step posts nothing, sends nothing new, and moves the panel to another
conversation only when nothing is left to send. -/
structure Client.Quiet (before after : Client) : Prop where
  sent : after.sent = before.sent
  sends : after.sends = before.sends
  drawn : ∀ key ∈ before.drawn, key ∈ after.drawn
  sending : ∀ sending, after.panel.sending = some sending → ∃ earlier,
    before.panel.sending = some earlier ∧ earlier.key = sending.key ∧
      earlier.question = sending.question ∧ earlier.options = sending.options ∧
      ∀ attempt, sending.phase = .creating attempt → earlier.phase = .creating attempt
  retry : ∀ retry, after.panel.retry = some retry → before.panel.retry = some retry ∨
    ∃ sending, before.panel.sending = some sending ∧ retry = ⟨sending.question, sending.key⟩
  aimed : before.panel.loader = none → (∃ key, after.Current key) →
    after.panel.selected = before.panel.selected ∧ after.panel.loader = none

section Quiet

variable {before after : Client} {key : String}

theorem Client.Quiet.current (quiet : before.Quiet after) (current : after.Current key) :
    before.Current key := by
  rcases current with ⟨sending, isSending, isKey⟩ | ⟨retry, isRetry, isKey⟩
  · obtain ⟨earlier, isEarlier, sameKey, _⟩ := quiet.sending sending isSending
    exact .inl ⟨earlier, isEarlier, sameKey.trans isKey⟩
  · rcases quiet.retry retry isRetry with same | ⟨sending, isSending, rfl⟩
    · exact .inr ⟨retry, same, isKey⟩
    · exact .inl ⟨sending, isSending, isKey⟩

theorem Client.Quiet.keyed (quiet : before.Quiet after) (keyed : before.Keyed) : after.Keyed where
  unique := by
    rw [quiet.sends]
    exact keyed.unique
  drawn := by
    rw [quiet.sends]
    exact fun send known => quiet.drawn _ (keyed.drawn send known)
  sent := by
    rw [quiet.sent, quiet.sends]
    exact keyed.sent
  sending := by
    intro sending isSending
    obtain ⟨earlier, isEarlier, sameKey, sameQuestion, sameOptions, _⟩ :=
      quiet.sending sending isSending
    obtain ⟨send, known, isOf⟩ := keyed.sending earlier isEarlier
    rw [quiet.sends]
    exact ⟨send, known, sameKey.symm.trans isOf.key, sameQuestion.symm.trans isOf.question,
      sameOptions ▸ isOf.options⟩
  retry := by
    intro retry isRetry
    rw [quiet.sends]
    rcases quiet.retry retry isRetry with same | ⟨sending, isSending, rfl⟩
    · exact keyed.retry retry same
    · obtain ⟨send, known, isOf⟩ := keyed.sending sending isSending
      exact ⟨send, known, isOf.key, isOf.question⟩

theorem Client.Quiet.steady (quiet : before.Quiet after) (steady : before.Steady key) :
    after.Steady key where
  same := by
    rw [quiet.sent]
    exact steady.same
  unloaded := fun current =>
    (quiet.aimed (steady.unloaded (quiet.current current)) ⟨key, current⟩).2
  aimed := by
    intro current
    have earlier := quiet.current current
    rw [quiet.sent, (quiet.aimed (steady.unloaded earlier) ⟨key, current⟩).1]
    exact steady.aimed earlier
  unselected := by
    intro current sending attempt isSending isCreating
    have earlier := quiet.current current
    obtain ⟨before, isBefore, _, _, _, phase⟩ := quiet.sending sending isSending
    rw [(quiet.aimed (steady.unloaded earlier) ⟨key, current⟩).1]
    exact steady.unselected earlier before attempt isBefore (phase attempt isCreating)

/-- Nothing of the panel that a send depends on changes. -/
theorem Client.Quiet.of_same (sent : after.sent = before.sent) (sends : after.sends = before.sends)
    (drawn : after.drawn = before.drawn) (sending : after.panel.sending = before.panel.sending)
    (retry : ∀ retry, after.panel.retry = some retry → before.panel.retry = some retry)
    (selected : after.panel.selected = before.panel.selected)
    (loader : before.panel.loader = none → after.panel.loader = none) : before.Quiet after where
  sent
  sends
  drawn := fun _ known => drawn ▸ known
  sending := fun found isSending => ⟨found, sending ▸ isSending, rfl, rfl, rfl, fun _ same => same⟩
  retry := fun found isRetry => .inl (retry found isRetry)
  aimed := fun unloaded _ => ⟨selected, loader unloaded⟩

theorem Client.Quiet.trans {between : Client} (one : before.Quiet between)
    (two : between.Quiet after) : before.Quiet after where
  sent := two.sent.trans one.sent
  sends := two.sends.trans one.sends
  drawn := fun key known => two.drawn key (one.drawn key known)
  sending := by
    intro sending isSending
    obtain ⟨middle, isMiddle, middleKey, middleQuestion, middleOptions, middlePhase⟩ :=
      two.sending sending isSending
    obtain ⟨first, isFirst, firstKey, firstQuestion, firstOptions, firstPhase⟩ :=
      one.sending middle isMiddle
    exact ⟨first, isFirst, firstKey.trans middleKey, firstQuestion.trans middleQuestion,
      firstOptions.trans middleOptions,
      fun attempt isCreating => firstPhase attempt (middlePhase attempt isCreating)⟩
  retry := by
    intro retry isRetry
    rcases two.retry retry isRetry with same | ⟨sending, isSending, rfl⟩
    · exact one.retry retry same
    · obtain ⟨first, isFirst, sameKey, sameQuestion, _⟩ := one.sending sending isSending
      right
      exact ⟨first, isFirst, by rw [sameKey, sameQuestion]⟩
  aimed := by
    intro unloaded ⟨key, current⟩
    have first := one.aimed unloaded ⟨key, two.current current⟩
    have second := two.aimed first.2 ⟨key, current⟩
    exact ⟨second.1.trans first.1, second.2⟩

section Sends

variable {client : Client} {sending : Sending}

end Sends

end Quiet

/-! ### Steps that post -/

/-- What a call of `send` does up to its first await. -/
structure Client.Sends (before after : Client) (question key : String) (options : SendOptions) :
    Prop where
  sends : after.sends = before.sends
  drawn : after.drawn = before.drawn
  sent : after.sent = before.sent ∨ ∃ post : Post, before.panel.selected = some post.conversationId ∧
    post.key = key ∧ post.body = options.body question ∧ after.sent = before.sent ++ [post]
  selected : after.panel.selected = before.panel.selected
  loader : after.panel.loader = before.panel.loader
  retry : after.panel.retry = before.panel.retry
  sending : ∃ phase, after.panel.sending = some { question, key, options, phase } ∧
    ∀ attempt, phase = .creating attempt → before.panel.selected = none

section Sends

variable {before after client : Client} {question key : String} {options : SendOptions}

theorem Client.Sends.keyed (sends : before.Sends after question key options) (keyed : before.Keyed)
    {send : Send} (known : send ∈ before.sends) (isKey : key = send.key)
    (isQuestion : question = send.question) (isOptions : options = send.options ∨ options = {}) :
    after.Keyed where
  unique := by
    rw [sends.sends]
    exact keyed.unique
  drawn := by
    rw [sends.sends, sends.drawn]
    exact keyed.drawn
  sent := by
    intro post member
    rw [sends.sends]
    rcases sends.sent with same | ⟨made, _, madeKey, madeBody, isSent⟩
    · rw [same] at member
      exact keyed.sent post member
    · rw [isSent, List.mem_append, List.mem_singleton] at member
      rcases member with earlier | rfl
      · exact keyed.sent post earlier
      · refine ⟨send, known, madeKey.trans isKey, ?_⟩
        rw [madeBody, isQuestion]
        exact isOptions.imp (congrArg (SendOptions.body · send.question))
          (congrArg (SendOptions.body · send.question))
  sending := by
    intro sending isSending
    obtain ⟨phase, isSending', _⟩ := sends.sending
    rw [isSending'] at isSending
    cases isSending
    rw [sends.sends]
    exact ⟨send, known, isKey, isQuestion, isOptions⟩
  retry := by
    rw [sends.sends, sends.retry]
    exact keyed.retry

/-- A post goes where the earlier posts under its key went. -/
theorem Client.Sends.steady {used : String} (sends : before.Sends after question key options)
    (same : ∀ first ∈ before.sent, ∀ second ∈ before.sent, first.key = used → second.key = used →
      first.conversationId = second.conversationId)
    (unloaded : after.Current used → before.panel.loader = none)
    (aimed : after.Current used → ∀ post ∈ before.sent, post.key = used →
      before.panel.selected = some post.conversationId) :
    after.Steady used := by
  obtain ⟨phase, isSending, isCreating⟩ := sends.sending
  have isCurrent : key = used → after.Current used := fun isUsed => .inl ⟨_, isSending, isUsed⟩
  have selects : after.Current used → ∀ post ∈ after.sent, post.key = used →
      before.panel.selected = some post.conversationId := by
    intro current post member isUsed
    rcases sends.sent with unchanged | ⟨made, isSelected, _, _, isSent⟩
    · rw [unchanged] at member
      exact aimed current post member isUsed
    · rw [isSent, List.mem_append, List.mem_singleton] at member
      rcases member with earlier | rfl
      · exact aimed current post earlier isUsed
      · exact isSelected
  refine ⟨?_, ?_, ?_, ?_⟩
  · intro first inFirst second inSecond firstKey secondKey
    by_cases isUsed : key = used
    · have current := isCurrent isUsed
      have both := (selects current first inFirst firstKey).symm.trans
        (selects current second inSecond secondKey)
      exact Option.some.inj both
    · have old : ∀ post ∈ after.sent, post.key = used → post ∈ before.sent := by
        intro post member postKey
        rcases sends.sent with unchanged | ⟨made, _, madeKey, _, isSent⟩
        · exact unchanged ▸ member
        · rw [isSent, List.mem_append, List.mem_singleton] at member
          rcases member with earlier | rfl
          · exact earlier
          · exact absurd (madeKey.symm.trans postKey) isUsed
      exact same first (old first inFirst firstKey) second (old second inSecond secondKey) firstKey
        secondKey
  · intro current
    rw [sends.loader]
    exact unloaded current
  · intro current
    rw [sends.selected]
    exact selects current
  · intro _ sending attempt isSending' phaseEq
    rw [isSending] at isSending'
    cases isSending'
    rw [sends.selected]
    exact isCreating attempt phaseEq

end Sends

/-- Every key is in use for one thing, and typed questions keep their conversation. -/
structure Client.Regular (client : Client) : Prop where
  keyed : client.Keyed
  steady : ∀ send ∈ client.sends, send.Typed → client.Steady send.key

/-- The message an answer names is stored as the post asked for it. -/
def Answer.Stored (dialogue : Dialogue) (answer : Answer) : Prop :=
  ∃ row ∈ dialogue.messages, row.id = answer.messageId ∧
    row.conversationId = answer.post.conversationId ∧ row.question = answer.post.body.question ∧
    idempotencyKey (some answer.post.key) = .ok row.idempotencyKey

/-- A view that shows the end of a message is right. -/
def MessageView.Seen (dialogue : Dialogue) (shown : MessageView) : Prop :=
  shown.state ≠ .pending → dialogue.Over shown.id

/-- The rows that a call collected. -/
def HistoryLoop.rows : HistoryLoop → List MessageView
  | .reading messages _ => messages
  | .returned messages => messages
  | _ => []

/-- What a send knows about its message. -/
def SendPhase.Backed (dialogue : Dialogue) (ids : List UUID) : SendPhase → Prop
  | .reading _ messageId _ terminal => messageId ∈ ids ∧ (terminal = true → dialogue.Over messageId)
  | .refreshing _ messageId terminal =>
      messageId ∈ ids ∧ (terminal = true → dialogue.Over messageId)
  | _ => True

/-- The messages that the service named. -/
def Client.named (client : Client) : List UUID :=
  client.answers.map (·.messageId)

/-- All that the panel knows is backed by the tables. -/
structure Client.Backed (dialogue : Dialogue) (client : Client) : Prop where
  posts : ∀ post ∈ client.posts, post ∈ client.sent
  answers : ∀ answer ∈ client.answers, answer.post ∈ client.sent ∧ answer.Stored dialogue
  calls : ∀ call ∈ client.calls, ∀ shown ∈ call.loop.rows, shown.Seen dialogue
  accepted : ∀ id, client.panel.acceptedId = some id → id ∈ client.named
  sending : ∀ sending, client.panel.sending = some sending →
    sending.phase.Backed dialogue client.named
  settled : ∀ id ∈ client.settled, dialogue.Over id ∧ id ∈ client.named

section Advances

variable {before after : Dialogue} (advances : before.Advances after)

include advances

theorem Dialogue.Over.mono {messageId : UUID} (finished : before.Over messageId) :
    after.Over messageId := by
  obtain ⟨row, known, isMessage, ended⟩ := finished
  obtain ⟨later, laterKnown, advance⟩ := advances.messages row known
  have same := advance.fenced ended
  exact ⟨later, laterKnown, same ▸ isMessage, same ▸ ended⟩

theorem Answer.Stored.mono {answer : Answer} (stored : answer.Stored before) :
    answer.Stored after := by
  obtain ⟨row, known, isMessage, conversation, question, key⟩ := stored
  obtain ⟨later, laterKnown, advance⟩ := advances.messages row known
  refine ⟨later, laterKnown, advance.id_eq.trans isMessage, ?_, ?_, ?_⟩
  · exact advance.conversationId_eq.trans conversation
  · exact (advance.column (·.question) fun _ => rfl).trans question
  · rw [advance.column (·.idempotencyKey) fun _ => rfl]
    exact key

theorem SendPhase.Backed.mono {ids : List UUID} {phase : SendPhase}
    (backed : phase.Backed before ids) : phase.Backed after ids := by
  cases phase with
  | reading conversationId messageId announced terminal =>
      exact ⟨backed.1, fun isTerminal => (backed.2 isTerminal).mono advances⟩
  | refreshing number messageId terminal =>
      exact ⟨backed.1, fun isTerminal => (backed.2 isTerminal).mono advances⟩
  | creating attempt => exact trivial
  | posting attempt => exact trivial

/-- The system going on takes nothing back. -/
theorem Client.Backed.mono {client : Client} (backed : client.Backed before) :
    client.Backed after where
  posts := backed.posts
  answers := fun answer known =>
    ⟨(backed.answers answer known).1, (backed.answers answer known).2.mono advances⟩
  calls := fun call known shown member ended => (backed.calls call known shown member ended).mono advances
  accepted := backed.accepted
  sending := fun sending isSending => (backed.sending sending isSending).mono advances
  settled := fun id member => ⟨(backed.settled id member).1.mono advances, (backed.settled id member).2⟩

end Advances

section Client

variable {dialogue : Dialogue} {client : Client} {sending : Sending}

theorem Client.Backed.refresh (backed : client.Backed dialogue) (conversationId : UUID) :
    (client.refresh conversationId).Backed dialogue :=
  { backed with
    calls := by
      intro call member
      rcases List.mem_append.mp member with known | isNew
      · exact backed.calls call known
      · rw [List.mem_singleton.mp isNew]
        exact fun shown isShown => absurd isShown List.not_mem_nil }

/-- What a refresh shows as over is. -/
theorem over_of_rows {rows : List MessageView} {id : UUID}
    (seen : ∀ shown ∈ rows, shown.Seen dialogue) (member : id ∈ client.panel.finished rows) :
    client.panel.acceptedId = some id ∧ dialogue.Over id := by
  rw [TutorPanel.finished, List.mem_filter, Option.mem_toList, List.any_eq_true] at member
  obtain ⟨isAccepted, row, isRow, ended⟩ := member
  rw [Bool.and_eq_true, beq_iff_eq, bne_iff_ne] at ended
  exact ⟨isAccepted, ended.1 ▸ seen row isRow ended.2⟩

theorem Client.Backed.display (backed : client.Backed dialogue) {call : HistoryCall}
    {rows : List MessageView} (running : call ∈ client.calls)
    (returned : call.loop = .returned rows) :
    (client.display call.number rows).Backed dialogue := by
  have seen := backed.calls call running
  rw [returned] at seen
  unfold Client.display
  split
  · exact
      { backed with
        settled := by
          intro id member
          rcases List.mem_append.mp member with known | isOver
          · exact backed.settled id known
          · obtain ⟨isAccepted, finished⟩ := over_of_rows seen isOver
            exact ⟨finished, backed.accepted id isAccepted⟩ }
  · exact backed

theorem Client.Backed.moveSend (backed : client.Backed dialogue) {phase : SendPhase}
    (phaseBacked : phase.Backed dialogue client.named) :
    (client.moveSend sending phase).Backed dialogue :=
  { backed with
    sending := by
      intro found isFound
      cases isFound
      exact phaseBacked }

theorem Client.Backed.failSend (backed : client.Backed dialogue) :
    (client.failSend sending).Backed dialogue :=
  { backed with sending := nofun }

theorem Client.Backed.endSend (backed : client.Backed dialogue) {messageId : UUID}
    (finished : dialogue.Over messageId) (named : messageId ∈ client.named) :
    (client.endSend messageId).Backed dialogue :=
  { backed with
    sending := nofun
    settled := by
      intro id member
      rcases List.mem_append.mp member with known | isNew
      · exact backed.settled id known
      · rw [List.mem_singleton.mp isNew]
        exact ⟨finished, named⟩ }

theorem Client.Backed.post (backed : client.Backed dialogue) (conversationId : UUID)
    (question key : String) (options : SendOptions) :
    (client.post conversationId question key options).Backed dialogue :=
  { backed with
    posts := by
      intro post member
      rcases List.mem_append.mp member with known | isNew
      · exact List.mem_append_left _ (backed.posts post known)
      · exact List.mem_append_right _ isNew
    answers := fun answer known =>
      ⟨List.mem_append_left _ (backed.answers answer known).1, (backed.answers answer known).2⟩
    sending := by
      intro found isFound
      cases isFound
      exact trivial }

theorem Client.Backed.send (backed : client.Backed dialogue) (question key : String)
    (options : SendOptions) : (client.send question key options).Backed dialogue := by
  have cleared : Client.Backed dialogue
      { client with panel := { client.panel with acceptedId := none } } :=
    { backed with accepted := nofun }
  unfold Client.send
  cases client.panel.selected with
  | some conversationId => exact cleared.post conversationId question key options
  | none =>
      exact
        { cleared with
          sending := by
            intro found isFound
            cases isFound
            exact trivial }

end Client

/-! ### Runs -/

section Runs

variable {deployment : Deployment} {data : ValidatorData} {who : AuthenticatedIdentity}
  {courseId : UUID} {before after run : PanelRun}

/-- Every run keeps this. -/
structure PanelRun.Invariant (deployment : Deployment) (run : PanelRun) : Prop where
  sound : run.world.Sound deployment
  regular : run.client.Regular
  backed : run.client.Backed run.world.tutor.dialogue

/-- Every post of a typed question has its text and nothing else. -/
theorem PanelRun.Invariant.body_eq (invariant : run.Invariant deployment) {send : Send}
    (known : send ∈ run.client.sends) (typed : send.Typed) {post : Post}
    (member : post ∈ run.client.sent) (isKey : post.key = send.key) :
    post.body = SendOptions.body {} send.question := by
  obtain ⟨other, isOther, isOf⟩ := invariant.regular.keyed.sent post member
  have same := invariant.regular.keyed.unique.eq_of_key isOther known (isOf.key.symm.trans isKey)
  rcases isOf.body with full | plain
  · rw [full, same, typed]
  · rw [plain, same]

/-- All answers to a typed question name one message. -/
theorem PanelRun.Invariant.once (invariant : run.Invariant deployment) {send : Send}
    (known : send ∈ run.client.sends) (typed : send.Typed) {first second : Answer}
    (inFirst : first ∈ run.client.answers) (inSecond : second ∈ run.client.answers)
    (firstKey : first.post.key = send.key) (secondKey : second.post.key = send.key) :
    first.messageId = second.messageId := by
  obtain ⟨sound, regular, backed⟩ := invariant
  obtain ⟨firstSent, row, isRow, rowId, rowConversation, _, rowKey⟩ := backed.answers first inFirst
  obtain ⟨secondSent, other, isOther, otherId, otherConversation, _, otherKey⟩ :=
    backed.answers second inSecond
  have sameConversation := (regular.steady send known typed).same first.post firstSent second.post
    secondSent firstKey secondKey
  rw [firstKey] at rowKey
  rw [secondKey, rowKey] at otherKey
  have sameKey : row.idempotencyKey = other.idempotencyKey := Except.ok.inj otherKey
  have same := sound.tutor.orderly.keys.messageIdempotency.eq_of_key isRow isOther
    (Prod.ext (rowConversation.trans (sameConversation.trans otherConversation.symm)) sameKey)
  rw [← rowId, same, otherId]

end Runs

/-! ### A question that is recovered -/

section Sample

end Sample

end Docta
