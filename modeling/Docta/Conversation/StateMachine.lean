/-
Module: Docta.Conversation.StateMachine
Purpose: The message state machine. Any number of processes call the service's
  methods in any order with any arguments and clock readings; every call is one
  transaction that changes nothing when it raises. What one call can do is said
  once, as an effect, and the invariants of whole runs follow from it.
Trusted boundary: each method is one serializable transaction
Main exports: Call, Call.run, Effect, Dialogue.Orderly, Dialogue.Advances,
  orderly_of_reachable, advances_of_run
-/
import Docta.Conversation.Service
import Docta.Library.Transition

namespace Docta

open Table Fallible Transition ConversationService

/-! ### Calls -/

/-- One call of a method that touches the conversation tables, with what it is
given, what it finds in the other tables and what it reads from clocks. -/
inductive Call where
  | create (tables : Identity) (material : Material) (who : AuthenticatedIdentity)
      (courseId : UUID) (key : Option String) (freshId : UUID) (createdAt : Time)
  | accept (settings : Settings) (unicode : Text.UnicodeData) (tables : Identity)
      (material : Material) (who : AuthenticatedIdentity) (request : Question)
      (readings : Readings)
  | history (tables : Identity) (material : Material) (who : AuthenticatedIdentity)
      (conversationId : UUID) (afterSequence limit : Nat) (clock completed : Clock)
  | read (tables : Identity) (material : Material) (who : AuthenticatedIdentity)
      (conversationId messageId : UUID) (clock completed : Clock)
  | saveEvidence (tables : Identity) (material : Material) (messageId : UUID)
      (evidence : List Evidence) (now : Time)
  | complete (tables : Identity) (material : Material) (messageId : UUID) (draft : TutorDraft)
      (now completedAt : Time)
  | fail (tables : Identity) (material : Material) (messageId : UUID) (code : String)
      (completedAt : Time)
  | expire (tables : Identity) (material : Material) (clock completed : Clock)

/-- The tables a call commits, or what it raises. -/
def Call.result (dialogue : Dialogue) : Call → Except Failure Dialogue
  | .create tables material who courseId key freshId createdAt =>
      Prod.snd <$> ConversationService.create tables material who courseId key freshId createdAt
        dialogue
  | .accept settings unicode tables material who request readings =>
      Prod.snd <$> ConversationService.accept settings unicode tables material who request readings
        dialogue
  | .history tables material who conversationId afterSequence limit clock completed =>
      Prod.snd <$> ConversationService.history tables material who conversationId afterSequence
        limit clock completed dialogue
  | .read tables material who conversationId messageId clock completed =>
      Prod.snd <$> ConversationService.read tables material who conversationId messageId clock
        completed dialogue
  | .saveEvidence tables material messageId evidence now =>
      ConversationService.saveEvidence tables material messageId evidence now dialogue
  | .complete tables material messageId draft now completedAt =>
      ConversationService.complete tables material messageId draft now completedAt dialogue
  | .fail tables material messageId code completedAt =>
      ConversationService.fail tables material messageId code completedAt dialogue
  | .expire tables material clock completed =>
      ConversationService.expireAll tables material clock completed dialogue

/-- The tables after a call: rolled back when it raises. -/
def Call.run (call : Call) (dialogue : Dialogue) : Dialogue :=
  match call.result dialogue with
  | .ok committed => committed
  | .error _ => dialogue

/-- The material tables a call finds. -/
def Call.material : Call → Material
  | .create _ material .. => material
  | .accept _ _ _ material .. => material
  | .history _ material .. => material
  | .read _ material .. => material
  | .saveEvidence _ material .. => material
  | .complete _ material .. => material
  | .fail _ material .. => material
  | .expire _ material .. => material

/-- One call by any process. -/
def ServiceStep (before after : Dialogue) : Prop :=
  ∃ call : Call, after = call.run before

/-- The conversation tables before the first call. -/
def NoDialogue (dialogue : Dialogue) : Prop :=
  dialogue = {}

/-! ### What one call can do -/

/-- The stored chunk that an evidence row copies. -/
def RetrievedEvidence.StoredIn (material : Material) (row : RetrievedEvidence) : Prop :=
  ∃ chunk ∈ material.chunks, chunk.id = row.chunkId ∧ chunk.courseId = row.courseId ∧
    chunk.corpusVersionId = row.corpusVersionId ∧ chunk.content = row.content ∧
      chunk.contentHash = row.contentHash

/-- Whether a call inserted a message, completed one, or did neither. -/
inductive Change where
  | accepts
  | completes
  | neither
deriving DecidableEq, Repr

/-- Everything a call that does not raise may do to the tables. -/
inductive Effect (material : Material) (dialogue : Dialogue) : Change → Dialogue → Prop where
  | unchanged : Effect material dialogue .neither dialogue
  | created (row : Conversation) (first : row.nextSequence = 1) :
      Effect material dialogue .neither { dialogue with conversations := dialogue.conversations ++ [row] }
  | expired (clock completed : Clock) (conversationId : Option UUID) :
      Effect material dialogue .neither (expire clock completed conversationId dialogue)
  | accepted (settings : Settings) (conversation : Conversation) (request : Question)
      (key : String) (turn : Continuity) (readings : Readings)
      (known : conversation ∈ dialogue.conversations)
      (free : ∀ message ∈ (expire readings.expiryClock readings.completedClock
          (some conversation.id) dialogue).messages,
        message.conversationId = conversation.id → message.state ≠ .pending) :
      Effect material dialogue .accepts
        (insertMessage (expire readings.expiryClock readings.completedClock
            (some conversation.id) dialogue)
          conversation (newMessage settings conversation request key turn readings))
  | evidenceSaved (message : Message) (rows : List RetrievedEvidence)
      (known : message ∈ dialogue.messages) (isPending : message.state = .pending)
      (owned : ∀ row ∈ rows, row.messageId = message.id)
      (stored : ∀ row ∈ rows, row.StoredIn material) :
      Effect material dialogue .neither
        { dialogue with retrievedEvidence := dialogue.retrievedEvidence ++ rows }
  | completed (message : Message) (draft : TutorDraft) (now completedAt : Time)
      (known : message ∈ dialogue.messages) (isPending : message.state = .pending)
      (inTime : now < message.deadlineAt) :
      Effect material dialogue .completes
        { dialogue with
          messages := updateWhere dialogue.messages (·.id == message.id)
            (ConversationService.completed draft completedAt)
          citations := dialogue.citations ++ citationRows message draft }
  | failed (messageId : UUID) (code : String) (completedAt : Time) :
      Effect material dialogue .neither
        { dialogue with
          messages := updateWhere dialogue.messages
            (fun message => message.id == messageId && message.isPending) fun message =>
              { message with
                state := .failed
                failureCode := some code
                completedAt := some completedAt } }

/-- An owned conversation is a stored one with the wanted identifier. -/
theorem owned_eq_ok {tables : Identity} {dialogue : Dialogue} {who : AuthenticatedIdentity}
    {conversationId : UUID} {conversation : Conversation}
    (found : owned tables dialogue who conversationId = .ok conversation) :
    conversation ∈ dialogue.conversations ∧ conversation.id = conversationId := by
  unfold owned at found
  split at found
  · rename_i row rowEq
    cases found
    have matched := List.find?_some rowEq
    rw [Bool.and_eq_true, beq_iff_eq] at matched
    exact ⟨List.mem_of_find?_eq_some rowEq, matched.1⟩
  · cases found

/-- A message read as pending is stored, pending and in time. -/
theorem pending_eq_ok {now : Time} {messageId : UUID} {dialogue : Dialogue} {message : Message}
    (found : pending now messageId dialogue = .ok message) :
    message ∈ dialogue.messages ∧ message.id = messageId ∧ message.state = .pending ∧
      now < message.deadlineAt := by
  unfold pending at found
  split at found
  · rename_i row rowEq
    cases found
    have matched := List.find?_some rowEq
    simp only [Message.isPending, Bool.and_eq_true, beq_iff_eq, decide_eq_true_eq] at matched
    exact ⟨List.mem_of_find?_eq_some rowEq, matched.1.1, matched.1.2, matched.2⟩
  · cases found

section Inversion

variable {tables : Identity} {material : Material} {dialogue after : Dialogue}

theorem effect_of_create {who : AuthenticatedIdentity} {courseId : UUID} {key : Option String}
    {freshId : UUID} {createdAt : Time} {shown : ConversationView}
    (ok : ConversationService.create tables material who courseId key freshId createdAt dialogue =
      .ok (shown, after)) :
    Effect material dialogue .neither after ∧ after.Keys := by
  simp only [ConversationService.create, bind_eq_ok] at ok
  obtain ⟨key, _, userId, _, rest⟩ := ok
  split at rest
  · simp only [bind_eq_ok, pure_eq_ok, Dialogue.commit_eq_ok, Prod.mk.injEq] at rest
    obtain ⟨_, ⟨constraints, rfl⟩, _, rfl⟩ := rest
    refine ⟨?_, constraints.1⟩
    split
    · exact .unchanged
    · exact .created _ rfl
  · cases rest

theorem effect_of_acceptNew {settings : Settings} {unicode : Text.UnicodeData}
    {conversation : Conversation} {request : Question} {key : String} {readings : Readings}
    {accepted : AcceptedMessage} {expired : Dialogue}
    (ok : acceptNew settings unicode tables material conversation request key readings expired =
      .ok (accepted, after)) :
    (∀ message ∈ expired.messages, message.conversationId = request.conversationId →
        message.state ≠ .pending) ∧
      (∃ turn, after = insertMessage expired conversation
        (newMessage settings conversation request key turn readings)) ∧ after.Keys ∧
      accepted.created = true := by
  simp only [acceptNew, bind_eq_ok, failIf_eq_ok, pure_eq_ok, Dialogue.commit_eq_ok,
    Prod.mk.injEq] at ok
  obtain ⟨_, free, turn, _, _, ⟨constraints, rfl⟩, _, _, rfl, rfl⟩ := ok
  refine ⟨?_, ⟨turn, rfl⟩, constraints.1, rfl⟩
  intro message known inConversation isPending
  exact free ⟨message, known, inConversation, isPending⟩

theorem effect_of_accept {settings : Settings} {unicode : Text.UnicodeData}
    {who : AuthenticatedIdentity} {request : Question} {readings : Readings}
    {accepted : AcceptedMessage}
    (ok : ConversationService.accept settings unicode tables material who request readings
      dialogue = .ok (accepted, after)) :
    Effect material dialogue (if accepted.created then .accepts else .neither) after ∧
      after.Keys := by
  simp only [ConversationService.accept, bind_eq_ok] at ok
  obtain ⟨key, _, conversation, found, rest⟩ := ok
  obtain ⟨known, idEq⟩ := owned_eq_ok found
  split at rest
  · simp only [bind_eq_ok, pure_eq_ok, Dialogue.commit_eq_ok, Prod.mk.injEq] at rest
    obtain ⟨_, _, _, _, _, ⟨constraints, rfl⟩, rfl, rfl⟩ := rest
    exact ⟨.expired _ _ _, constraints.1⟩
  · obtain ⟨free, ⟨turn, rfl⟩, keys, created⟩ := effect_of_acceptNew rest
    rw [← idEq] at free keys ⊢
    rw [created, if_pos rfl]
    exact ⟨.accepted settings conversation request key turn readings known free, keys⟩

theorem effect_of_history {who : AuthenticatedIdentity} {conversationId : UUID}
    {afterSequence limit : Nat} {clock completed : Clock} {shown : HistoryView}
    (ok : ConversationService.history tables material who conversationId afterSequence limit clock
      completed dialogue = .ok (shown, after)) :
    Effect material dialogue .neither after ∧ after.Keys := by
  simp only [ConversationService.history, bind_eq_ok, pure_eq_ok, Dialogue.commit_eq_ok,
    Prod.mk.injEq] at ok
  obtain ⟨_, _, _, _, _, ⟨constraints, rfl⟩, _, rfl⟩ := ok
  exact ⟨.expired _ _ _, constraints.1⟩

theorem effect_of_read {who : AuthenticatedIdentity} {conversationId messageId : UUID}
    {clock completed : Clock} {shown : MessageView}
    (ok : ConversationService.read tables material who conversationId messageId clock completed
      dialogue = .ok (shown, after)) :
    Effect material dialogue .neither after ∧ after.Keys := by
  simp only [ConversationService.read, bind_eq_ok] at ok
  obtain ⟨_, _, rest⟩ := ok
  split at rest
  · simp only [bind_eq_ok, pure_eq_ok, Dialogue.commit_eq_ok, Prod.mk.injEq] at rest
    obtain ⟨_, _, _, ⟨constraints, rfl⟩, _, rfl⟩ := rest
    exact ⟨.expired _ _ _, constraints.1⟩
  · cases rest

/-- A checked evidence item becomes a row of the message. -/
theorem checkEvidence_eq_ok {message : Message} {item : Evidence} {row : RetrievedEvidence}
    (ok : checkEvidence material message item = .ok row) :
    item.courseId = message.courseId ∧ some item.corpusVersionId = message.corpusVersionId ∧
      row = evidenceRow message.id item ∧
        ∃ chunk version document,
          storedChunk? material message.courseId message.corpusVersionId item.chunkId =
            some (chunk, version, document) ∧ Evidence.Matches item chunk version document := by
  simp only [checkEvidence, bind_eq_ok, failIf_eq_ok, not_or, ne_eq, Decidable.not_not] at ok
  obtain ⟨_, ⟨sameCourse, sameCorpus⟩, rest⟩ := ok
  split at rest
  · cases rest
  · rename_i chunk version document storedEq
    simp only [bind_eq_ok, failIf_eq_ok, Decidable.not_not, pure_eq_ok] at rest
    obtain ⟨_, matched, _, _, rfl⟩ := rest
    exact ⟨sameCourse, sameCorpus, rfl, chunk, version, document, storedEq, matched⟩

/-- A chunk found in a scope is stored there. -/
theorem storedChunk?_eq_some {courseId : UUID} {corpusVersionId : Option UUID} {chunkId : UUID}
    {chunk : Chunk} {version : DocumentVersion} {document : Document}
    (found : storedChunk? material courseId corpusVersionId chunkId =
      some (chunk, version, document)) :
    chunk ∈ material.chunks ∧ chunk.id = chunkId ∧ chunk.courseId = courseId ∧
      some chunk.corpusVersionId = corpusVersionId := by
  simp only [storedChunk?, Option.bind_eq_bind, Option.bind_eq_some_iff, Option.pure_def,
    Option.some.injEq, Prod.mk.injEq] at found
  obtain ⟨row, rowFound, _, _, _, _, rfl, _⟩ := found
  have matched := List.find?_some rowFound
  simp only [Bool.and_eq_true, beq_iff_eq] at matched
  exact ⟨List.mem_of_find?_eq_some rowFound, matched.1.1, matched.1.2, matched.2⟩

/-- The row of a checked evidence item copies a stored chunk. -/
theorem storedIn_of_checkEvidence {message : Message} {item : Evidence} {row : RetrievedEvidence}
    (ok : checkEvidence material message item = .ok row) (messageId : UUID) :
    (evidenceRow messageId item).StoredIn material := by
  obtain ⟨sameCourse, sameCorpus, _, chunk, version, document, found, matched⟩ :=
    checkEvidence_eq_ok ok
  obtain ⟨known, idEq, courseEq, corpusEq⟩ := storedChunk?_eq_some found
  obtain ⟨_, _, _, contentEq, hashEq, _⟩ := matched
  refine ⟨chunk, known, idEq, courseEq.trans sameCourse.symm, ?_, contentEq.symm, hashEq.symm⟩
  exact Option.some.inj (corpusEq.trans sameCorpus.symm)

/-- What a saved evidence call did: the rows of exactly the given items. -/
theorem saveEvidence_eq_ok {messageId : UUID} {evidence : List Evidence} {now : Time}
    (ok : ConversationService.saveEvidence tables material messageId evidence now dialogue =
      .ok after) :
    ∃ message ∈ dialogue.messages, message.id = messageId ∧ message.state = .pending ∧
      (∀ item ∈ evidence, ∃ row, checkEvidence material message item = .ok row) ∧
      after = { dialogue with
        retrievedEvidence := dialogue.retrievedEvidence ++ evidence.map (evidenceRow messageId) } ∧
      after.Constraints tables material := by
  simp only [ConversationService.saveEvidence, bind_eq_ok, failIf_eq_ok,
    Dialogue.commit_eq_ok] at ok
  obtain ⟨message, found, _, _, rows, rowsOk, constraints, rfl⟩ := ok
  obtain ⟨known, idEq, isPending, _⟩ := pending_eq_ok found
  subst idEq
  have rowsEq := eq_map_of_mapM_ok (fun _ _ itemOk => (checkEvidence_eq_ok itemOk).2.2.1) rowsOk
  subst rowsEq
  refine ⟨message, known, rfl, isPending, fun item member => ?_, rfl, constraints⟩
  obtain ⟨row, _, rowOk⟩ := exists_result_of_mapM_ok rowsOk member
  exact ⟨row, rowOk⟩

/-- What a completing call did. -/
theorem complete_eq_ok {messageId : UUID} {draft : TutorDraft} {now completedAt : Time}
    (ok : ConversationService.complete tables material messageId draft now completedAt dialogue =
      .ok after) :
    ∃ message ∈ dialogue.messages, message.id = messageId ∧ message.state = .pending ∧
      now < message.deadlineAt ∧
      after = { dialogue with
        messages := updateWhere dialogue.messages (·.id == message.id)
          (ConversationService.completed draft completedAt)
        citations := dialogue.citations ++ citationRows message draft } ∧
      after.Constraints tables material := by
  simp only [ConversationService.complete, bind_eq_ok, Dialogue.commit_eq_ok] at ok
  obtain ⟨message, found, constraints, rfl⟩ := ok
  obtain ⟨known, idEq, isPending, inTime⟩ := pending_eq_ok found
  exact ⟨message, known, idEq, isPending, inTime, rfl, constraints⟩

/-- What a call may do. -/
def Call.changes : Call → List Change
  | .accept .. => [.accepts, .neither]
  | .complete .. => [.completes]
  | _ => [.neither]

/-- A call that does not raise has one of the effects, and leaves the keys in order. -/
theorem effect_of_result {call : Call} (ok : call.result dialogue = .ok after) :
    (∃ change ∈ call.changes, Effect call.material dialogue change after) ∧ after.Keys := by
  cases call with
  | create tables material who courseId key freshId createdAt =>
      obtain ⟨⟨shown, committed⟩, created, rfl⟩ := map_eq_ok.mp ok
      exact (effect_of_create created).imp_left fun effect => ⟨_, .head _, effect⟩
  | accept settings unicode tables material who request readings =>
      obtain ⟨⟨shown, committed⟩, accepted, rfl⟩ := map_eq_ok.mp ok
      refine (effect_of_accept accepted).imp_left fun effect => ⟨_, ?_, effect⟩
      cases shown.created with
      | true => exact .head _
      | false => exact .tail _ (.head _)
  | history tables material who conversationId afterSequence limit clock completed =>
      obtain ⟨⟨shown, committed⟩, listed, rfl⟩ := map_eq_ok.mp ok
      exact (effect_of_history listed).imp_left fun effect => ⟨_, .head _, effect⟩
  | read tables material who conversationId messageId clock completed =>
      obtain ⟨⟨shown, committed⟩, shownOk, rfl⟩ := map_eq_ok.mp ok
      exact (effect_of_read shownOk).imp_left fun effect => ⟨_, .head _, effect⟩
  | saveEvidence tables material messageId evidence now =>
      obtain ⟨message, known, idEq, isPending, checks, rfl, constraints⟩ := saveEvidence_eq_ok ok
      refine ⟨⟨_, .head _, .evidenceSaved message _ known isPending ?_ ?_⟩, constraints.1⟩
      · intro row member
        obtain ⟨item, _, rfl⟩ := List.mem_map.mp member
        exact idEq.symm
      · intro row member
        obtain ⟨item, itemMember, rfl⟩ := List.mem_map.mp member
        obtain ⟨checked, ok⟩ := checks item itemMember
        exact storedIn_of_checkEvidence ok messageId
  | complete tables material messageId draft now completedAt =>
      obtain ⟨message, known, idEq, isPending, inTime, rfl, constraints⟩ := complete_eq_ok ok
      exact ⟨⟨_, .head _, .completed message draft now completedAt known isPending inTime⟩,
        constraints.1⟩
  | fail tables material messageId code completedAt =>
      obtain ⟨constraints, rfl⟩ := Dialogue.commit_eq_ok.mp ok
      exact ⟨⟨_, .head _, .failed messageId code completedAt⟩, constraints.1⟩
  | expire tables material clock completed =>
      obtain ⟨constraints, rfl⟩ := Dialogue.commit_eq_ok.mp ok
      exact ⟨⟨_, .head _, .expired clock completed none⟩, constraints.1⟩

/-- The tables after any call, raising or not. -/
theorem run_cases (call : Call) (dialogue : Dialogue) :
    call.run dialogue = dialogue ∨
      (call.result dialogue = .ok (call.run dialogue) ∧
        (∃ change ∈ call.changes, Effect call.material dialogue change (call.run dialogue)) ∧
        (call.run dialogue).Keys) := by
  unfold Call.run
  split
  · rename_i committed ok
    exact .inr ⟨ok, effect_of_result ok⟩
  · exact .inl rfl

end Inversion

/-! ### Messages only advance -/

/-- What acceptance fixed about a message: everything but its outcome. -/
def Message.accepted (message : Message) : Message :=
  { message with
    state := .pending, answer := none, mode := none, grounded := none, failureCode := none
    intervention := none, contractVersion := none, situation := none, helpLevel := none
    completedAt := none }

/-- A message keeps what acceptance fixed, and once terminal it never changes. -/
structure Message.Advances (before after : Message) : Prop where
  sameRequest : after.accepted = before.accepted
  fenced : before.state ≠ .pending → after = before

theorem Message.Advances.refl (message : Message) : message.Advances message :=
  ⟨rfl, fun _ => rfl⟩

theorem Message.Advances.trans {first second third : Message} (one : first.Advances second)
    (two : second.Advances third) : first.Advances third := by
  refine ⟨two.sameRequest.trans one.sameRequest, fun terminal => ?_⟩
  have same := one.fenced terminal
  subst same
  exact two.fenced terminal

section Advances

variable {before after : Message}

/-- A column that acceptance fixed never changes. -/
theorem Message.Advances.column {α : Type} (advances : before.Advances after)
    (column : Message → α) (fixed : ∀ message : Message, column message.accepted = column message) :
    column after = column before := by
  rw [← fixed after, advances.sameRequest, fixed before]

theorem Message.Advances.id_eq (advances : before.Advances after) : after.id = before.id :=
  advances.column (·.id) fun _ => rfl

theorem Message.Advances.conversationId_eq (advances : before.Advances after) :
    after.conversationId = before.conversationId :=
  advances.column (·.conversationId) fun _ => rfl

theorem Message.Advances.corpusVersionId_eq (advances : before.Advances after) :
    after.corpusVersionId = before.corpusVersionId :=
  advances.column (·.corpusVersionId) fun _ => rfl

theorem Message.Advances.sequence_eq (advances : before.Advances after) :
    after.sequence = before.sequence :=
  advances.column (·.sequence) fun _ => rfl

end Advances

/-- From one state of the tables to a later one: rows are never lost, messages
advance, and the citations of a terminal message stay as they are. -/
structure Dialogue.Advances (before after : Dialogue) : Prop where
  messages : ∀ message ∈ before.messages, ∃ later ∈ after.messages, message.Advances later
  citations : ∀ message ∈ before.messages, message.state ≠ .pending →
    after.citations.filter (·.messageId = message.id) =
      before.citations.filter (·.messageId = message.id)
  evidence : before.retrievedEvidence <+: after.retrievedEvidence

theorem Dialogue.Advances.refl (dialogue : Dialogue) : dialogue.Advances dialogue :=
  ⟨fun message known => ⟨message, known, .refl message⟩, fun _ _ _ => rfl, List.prefix_rfl⟩

theorem Dialogue.Advances.trans {first second third : Dialogue} (one : first.Advances second)
    (two : second.Advances third) : first.Advances third := by
  refine ⟨?_, ?_, one.evidence.trans two.evidence⟩
  · intro message known
    obtain ⟨middle, middleKnown, toMiddle⟩ := one.messages message known
    obtain ⟨later, laterKnown, toLater⟩ := two.messages middle middleKnown
    exact ⟨later, laterKnown, toMiddle.trans toLater⟩
  · intro message known terminal
    obtain ⟨middle, middleKnown, toMiddle⟩ := one.messages message known
    have same := toMiddle.fenced terminal
    subst same
    rw [two.citations middle middleKnown terminal, one.citations middle known terminal]

/-- An update that only finishes pending messages lets every message advance. -/
theorem advances_updateWhere {messages : List Message} {condition : Message → Bool}
    {assign : Message → Message}
    (finishes : ∀ message ∈ messages, condition message = true →
      message.state = .pending ∧ (assign message).accepted = message.accepted) :
    ∀ message ∈ messages, ∃ later ∈ updateWhere messages condition assign,
      message.Advances later := by
  intro message known
  by_cases matched : condition message = true
  · obtain ⟨isPending, same⟩ := finishes message known matched
    exact ⟨_, mem_updateWhere_of_matched known matched, same, fun terminal => absurd isPending terminal⟩
  · exact ⟨message, mem_updateWhere_of_not known (by simpa using matched), .refl message⟩

/-- Citations added for a pending message are no citations of a terminal one. -/
theorem filter_citations_append {dialogue : Dialogue} (keys : dialogue.Keys) {message : Message}
    (known : message ∈ dialogue.messages) (isPending : message.state = .pending)
    (draft : TutorDraft) {other : Message} (otherKnown : other ∈ dialogue.messages)
    (terminal : other.state ≠ .pending) :
    (dialogue.citations ++ citationRows message draft).filter (·.messageId = other.id) =
      dialogue.citations.filter (·.messageId = other.id) := by
  have different : message.id ≠ other.id := by
    intro sameId
    have same := keys.messageIds.eq_of_key known otherKnown sameId
    subst same
    exact terminal isPending
  rw [List.filter_append]
  have none : (citationRows message draft).filter (·.messageId = other.id) = [] := by
    rw [List.filter_eq_nil_iff]
    intro row member
    obtain ⟨entry, _, rfl⟩ := List.mem_map.mp member
    simpa using different
  rw [none, List.append_nil]

/-- A pending message that expires keeps what acceptance fixed. -/
theorem finishes_expire {clock : Clock} {conversationId : Option UUID}
    {message : Message} (matched : expires clock conversationId message = true) :
    message.state = .pending := by
  simp only [expires, Message.isPending, Bool.and_eq_true, beq_iff_eq] at matched
  exact matched.1.1

theorem advances_expire (clock completed : Clock) (conversationId : Option UUID)
    (dialogue : Dialogue) : dialogue.Advances (expire clock completed conversationId dialogue) :=
  ⟨advances_updateWhere fun _ _ matched => ⟨finishes_expire matched, rfl⟩,
    fun _ _ _ => rfl, List.prefix_rfl⟩

/-- Every effect lets the tables advance. -/
theorem advances_of_effect {material : Material} {before after : Dialogue} {change : Change}
    (keys : before.Keys)
    (effect : Effect material before change after) : before.Advances after := by
  cases effect with
  | unchanged => exact .refl before
  | created row first =>
      exact ⟨fun message known => ⟨message, known, .refl message⟩, fun _ _ _ => rfl,
        List.prefix_rfl⟩
  | expired clock completed conversationId => exact advances_expire clock completed _ before
  | accepted settings conversation request key turn readings known free =>
      have expired := advances_expire readings.expiryClock readings.completedClock
        (some conversation.id) before
      refine expired.trans ⟨fun message known => ?_, fun _ _ _ => rfl, List.prefix_rfl⟩
      exact ⟨message, List.mem_append_left _ known, .refl message⟩
  | evidenceSaved message rows known isPending owned stored =>
      exact ⟨fun message known => ⟨message, known, .refl message⟩, fun _ _ _ => rfl,
        List.prefix_append _ _⟩
  | completed message draft now completedAt known isPending inTime =>
      refine ⟨advances_updateWhere fun other otherKnown matched => ?_, ?_, List.prefix_rfl⟩
      · have same := keys.messageIds.eq_of_key otherKnown known (by simpa using matched)
        subst same
        exact ⟨isPending, rfl⟩
      · intro other otherKnown terminal
        exact filter_citations_append keys known isPending draft otherKnown terminal
  | failed messageId code completedAt =>
      refine ⟨advances_updateWhere fun other _ matched => ?_, fun _ _ _ => rfl, List.prefix_rfl⟩
      rw [Bool.and_eq_true] at matched
      exact ⟨by simpa [Message.isPending] using matched.2, rfl⟩

/-- An effect that accepts no message keeps what acceptance fixed of all of them. -/
theorem map_accepted_of_effect {material : Material} {earlier later : Dialogue} {change : Change}
    (effect : Effect material earlier change later) (notAccepts : change ≠ .accepts) :
    later.messages.map Message.accepted = earlier.messages.map Message.accepted := by
  cases effect with
  | unchanged => rfl
  | created row first => rfl
  | expired clock completed conversationId => exact map_updateWhere fun _ _ _ => rfl
  | accepted settings conversation request key turn readings known free =>
      exact absurd rfl notAccepts
  | evidenceSaved message rows known isPending owned stored => rfl
  | completed message draft now completedAt known isPending inTime =>
      exact map_updateWhere fun _ _ _ => rfl
  | failed messageId code completedAt => exact map_updateWhere fun _ _ _ => rfl

/-! ### Sequences -/

/-- The messages of every conversation are numbered from one, in order of
acceptance and without gap, and a pending message is the last one. -/
structure Numbered (conversations : List Conversation) (messages : List Message) : Prop where
  positive : ∀ conversation ∈ conversations, 1 ≤ conversation.nextSequence
  sequences : ∀ conversation ∈ conversations,
    (messages.filter (·.conversationId = conversation.id)).map (·.sequence) =
      List.range' 1 (conversation.nextSequence - 1)
  pendingLast : ∀ message ∈ messages, message.state = .pending →
    ∀ conversation ∈ conversations, conversation.id = message.conversationId →
      message.sequence + 1 = conversation.nextSequence

section Numbering

variable {conversations : List Conversation} {messages : List Message}

/-- Finishing pending messages keeps the numbering. -/
theorem Numbered.finish {condition : Message → Bool} {assign : Message → Message}
    (numbered : Numbered conversations messages)
    (finishes : ∀ message ∈ messages, condition message = true →
      (assign message).accepted = message.accepted ∧ (assign message).state ≠ .pending) :
    Numbered conversations (updateWhere messages condition assign) := by
  have sameColumn {α : Type} (column : Message → α)
      (fixed : ∀ message : Message, column message.accepted = column message) :
      ∀ message ∈ messages, condition message = true →
        column (assign message) = column message := by
    intro message known matched
    rw [← fixed (assign message), (finishes message known matched).1, fixed message]
  refine ⟨numbered.positive, ?_, ?_⟩
  · intro conversation known
    rw [filter_updateWhere fun message messageKnown matched => by
      rw [sameColumn (·.conversationId) (fun _ => rfl) message messageKnown matched]]
    rw [map_updateWhere fun message messageKnown matched =>
      sameColumn (·.sequence) (fun _ => rfl) message (List.mem_of_mem_filter messageKnown) matched]
    exact numbered.sequences conversation known
  · intro message messageKnown isPending conversation known inConversation
    rcases mem_updateWhere_cases messageKnown with ⟨stays, _⟩ | ⟨source, sourceKnown, matched, rfl⟩
    · exact numbered.pendingLast message stays isPending conversation known inConversation
    · exact absurd isPending (finishes source sourceKnown matched).2

/-- A new conversation has no messages. -/
theorem Numbered.create {row : Conversation} (numbered : Numbered conversations messages)
    (first : row.nextSequence = 1)
    (unused : ∀ message ∈ messages, message.conversationId ≠ row.id) :
    Numbered (conversations ++ [row]) messages := by
  refine ⟨?_, ?_, ?_⟩
  · intro conversation known
    rcases List.mem_append.mp known with old | new
    · exact numbered.positive conversation old
    · rw [List.mem_singleton.mp new, first]
  · intro conversation known
    rcases List.mem_append.mp known with old | new
    · exact numbered.sequences conversation old
    · rw [List.mem_singleton.mp new, first]
      have none : messages.filter (·.conversationId = row.id) = [] := by
        rw [List.filter_eq_nil_iff]
        intro message messageKnown
        simpa using unused message messageKnown
      rw [none]
      rfl
  · intro message messageKnown isPending conversation known inConversation
    rcases List.mem_append.mp known with old | new
    · exact numbered.pendingLast message messageKnown isPending conversation old inConversation
    · rw [List.mem_singleton.mp new] at inConversation
      exact absurd inConversation.symm (unused message messageKnown)

/-- Appending the next message of a conversation keeps the numbering. -/
theorem Numbered.append {conversation : Conversation} {message : Message}
    (numbered : Numbered conversations messages) (ids : UniqueOn (·.id) conversations)
    (known : conversation ∈ conversations)
    (inConversation : message.conversationId = conversation.id)
    (next : message.sequence = conversation.nextSequence)
    (free : ∀ other ∈ messages, other.conversationId = conversation.id →
      other.state ≠ .pending) :
    Numbered
      (updateWhere conversations (·.id == conversation.id) fun row =>
        { row with nextSequence := conversation.nextSequence + 1 })
      (messages ++ [message]) := by
  -- A row of the updated table is the advanced conversation, or another one as it was.
  have rowCases : ∀ row ∈ updateWhere conversations (·.id == conversation.id) (fun row =>
        { row with nextSequence := conversation.nextSequence + 1 }),
      (row = { conversation with nextSequence := conversation.nextSequence + 1 }) ∨
        (row ∈ conversations ∧ row.id ≠ conversation.id) := by
    intro row member
    rcases mem_updateWhere_cases member with ⟨stays, unmatched⟩ | ⟨source, sourceKnown, matched, rfl⟩
    · exact .inr ⟨stays, by simpa using unmatched⟩
    · have same := ids.eq_of_key sourceKnown known (by simpa using matched)
      rw [same]
      exact .inl rfl
  have positive := numbered.positive conversation known
  refine ⟨?_, ?_, ?_⟩
  · intro row member
    rcases rowCases row member with rfl | ⟨old, _⟩
    · exact Nat.le_add_left 1 _
    · exact numbered.positive row old
  · intro row member
    rw [List.filter_append, List.map_append]
    rcases rowCases row member with rfl | ⟨old, different⟩
    · have own : [message].filter (·.conversationId = conversation.id) = [message] := by
        simp [inConversation]
      have grown : conversation.nextSequence + 1 - 1 = conversation.nextSequence - 1 + 1 := by
        omega
      have last : 1 + (conversation.nextSequence - 1) = conversation.nextSequence := by
        omega
      rw [own, numbered.sequences conversation known, grown, List.range'_concat, List.map_cons,
        List.map_nil, next, Nat.one_mul, last]
    · have others : [message].filter (·.conversationId = row.id) = [] := by
        rw [List.filter_eq_nil_iff]
        intro other otherMember
        rw [List.mem_singleton.mp otherMember, inConversation]
        simpa using fun same : conversation.id = row.id => different same.symm
      rw [others, numbered.sequences row old, List.map_nil, List.append_nil]
  · intro other otherKnown isPending row member sameConversation
    rcases List.mem_append.mp otherKnown with old | new
    · rcases rowCases row member with rfl | ⟨oldRow, _⟩
      · exact absurd isPending (free other old sameConversation.symm)
      · exact numbered.pendingLast other old isPending row oldRow sameConversation
    · have isNew := List.mem_singleton.mp new
      subst isNew
      rcases rowCases row member with rfl | ⟨_, different⟩
      · rw [next]
      · exact absurd (sameConversation.trans inConversation) different

end Numbering

/-- The invariant of the conversation tables. -/
structure Dialogue.Orderly (dialogue : Dialogue) : Prop where
  keys : dialogue.Keys
  numbered : Numbered dialogue.conversations dialogue.messages
  citedCompleted : ∀ row ∈ dialogue.citations, ∃ message ∈ dialogue.messages,
    message.id = row.messageId ∧ message.state = .completed

theorem orderly_of_noDialogue {dialogue : Dialogue} (noDialogue : NoDialogue dialogue) :
    dialogue.Orderly := by
  rw [NoDialogue] at noDialogue
  subst noDialogue
  exact ⟨by decide, ⟨by simp, by simp, by simp⟩, by simp⟩

/-- Every effect keeps the numbering. -/
theorem numbered_of_effect {material : Material} {before after : Dialogue} {change : Change}
    (orderly : before.Orderly) (keysAfter : after.Keys)
    (effect : Effect material before change after) :
    Numbered after.conversations after.messages := by
  cases effect with
  | unchanged => exact orderly.numbered
  | created row first =>
      refine orderly.numbered.create first fun message known sameId => ?_
      obtain ⟨conversation, conversationKnown, _, idEq⟩ :=
        orderly.keys.messageConversation message known
      have fresh := (uniqueOn_append_singleton.mp keysAfter.conversationIds).2
      exact fresh conversation conversationKnown (idEq.trans sameId)
  | expired clock completed conversationId =>
      exact orderly.numbered.finish fun message _ _ => ⟨rfl, nofun⟩
  | accepted settings conversation request key turn readings known free =>
      have expired : Numbered before.conversations (expire readings.expiryClock
          readings.completedClock (some conversation.id) before).messages :=
        orderly.numbered.finish fun message _ _ => ⟨rfl, nofun⟩
      exact expired.append orderly.keys.conversationIds known rfl rfl free
  | evidenceSaved message rows known isPending owned stored => exact orderly.numbered
  | completed message draft now completedAt known isPending inTime =>
      exact orderly.numbered.finish fun other _ _ => ⟨rfl, nofun⟩
  | failed messageId code completedAt =>
      exact orderly.numbered.finish fun other _ _ => ⟨rfl, nofun⟩

/-- Every effect leaves citations to completed messages only. -/
theorem cited_of_effect {material : Material} {before after : Dialogue} {change : Change}
    (orderly : before.Orderly) (effect : Effect material before change after) :
    ∀ row ∈ after.citations, ∃ message ∈ after.messages,
      message.id = row.messageId ∧ message.state = .completed := by
  -- A citation that was there still belongs to its message, which was terminal.
  have kept : ∀ row ∈ before.citations, ∃ message ∈ after.messages,
      message.id = row.messageId ∧ message.state = .completed := by
    intro row member
    obtain ⟨message, known, idEq, isCompleted⟩ := orderly.citedCompleted row member
    obtain ⟨later, laterKnown, advances⟩ :=
      (advances_of_effect orderly.keys effect).messages message known
    have same := advances.fenced (by rw [isCompleted]; nofun)
    subst same
    exact ⟨later, laterKnown, idEq, isCompleted⟩
  cases effect with
  | completed message draft now completedAt known isPending inTime =>
      intro row member
      rcases List.mem_append.mp member with old | new
      · exact kept row old
      · obtain ⟨entry, _, rfl⟩ := List.mem_map.mp new
        exact ⟨_, mem_updateWhere_of_matched known (by simp), rfl, rfl⟩
  | unchanged => exact kept
  | created row first => exact kept
  | expired clock completed conversationId => exact kept
  | accepted settings conversation request key turn readings known free => exact kept
  | evidenceSaved message rows known isPending owned stored => exact kept
  | failed messageId code completedAt => exact kept

/-- One call keeps the invariant. -/
theorem orderly_of_step {before after : Dialogue} (orderly : before.Orderly)
    (step : ServiceStep before after) : after.Orderly := by
  obtain ⟨call, rfl⟩ := step
  rcases run_cases call before with unchanged | ⟨_, ⟨_, _, effect⟩, keys⟩
  · rw [unchanged]
    exact orderly
  · exact ⟨keys, numbered_of_effect orderly keys effect, cited_of_effect orderly effect⟩

/-- One call lets the tables advance. -/
theorem advances_of_step {before after : Dialogue} (orderly : before.Orderly)
    (step : ServiceStep before after) : before.Advances after := by
  obtain ⟨call, rfl⟩ := step
  rcases run_cases call before with unchanged | ⟨_, ⟨_, _, effect⟩, _⟩
  · rw [unchanged]
    exact .refl before
  · exact advances_of_effect orderly.keys effect

/-- Every reachable state is in order. -/
theorem orderly_of_reachable {dialogue : Dialogue}
    (reachable : Reachable NoDialogue ServiceStep dialogue) : dialogue.Orderly :=
  reachable.holds (fun _ noDialogue => orderly_of_noDialogue noDialogue)
    fun _ _ orderly step => orderly_of_step orderly step

/-- A whole run lets the tables advance. -/
theorem advances_of_run {before after : Dialogue} (orderly : before.Orderly)
    (run : Relation.ReflTransGen ServiceStep before after) : before.Advances after :=
  run_relation (fun _ _ orderly step => orderly_of_step orderly step) Dialogue.Advances.refl
    (fun _ _ _ one two => one.trans two) (fun _ _ orderly step => advances_of_step orderly step)
    run orderly

/-! ### Completion -/

/-- Updates that leave no message completed find their completed rows in place. -/
theorem completed_known_of_update {messages : List Message} {condition : Message → Bool}
    {assign : Message → Message} (finishes : ∀ message, (assign message).state ≠ .completed)
    {message : Message} (known : message ∈ updateWhere messages condition assign)
    (isCompleted : message.state = .completed) : message ∈ messages := by
  rcases mem_updateWhere_cases known with ⟨stays, _⟩ | ⟨source, _, _, rfl⟩
  · exact stays
  · exact absurd isCompleted (finishes source)

/-- Without a completion, every completed message was there before. -/
theorem completed_known_of_effect {material : Material} {before after : Dialogue}
    {change : Change} (effect : Effect material before change after)
    (notCompleting : change ≠ .completes) {message : Message} (known : message ∈ after.messages)
    (isCompleted : message.state = .completed) : message ∈ before.messages := by
  cases effect with
  | unchanged => exact known
  | created row first => exact known
  | expired clock completed conversationId =>
      exact completed_known_of_update (fun _ => by nofun) known isCompleted
  | accepted settings conversation request key turn readings conversationKnown free =>
      rcases List.mem_append.mp known with old | new
      · exact completed_known_of_update (fun _ => by nofun) old isCompleted
      · rw [List.mem_singleton.mp new] at isCompleted
        cases isCompleted
  | evidenceSaved source rows sourceKnown isPending owned stored => exact known
  | completed source draft now completedAt sourceKnown isPending inTime =>
      exact absurd rfl notCompleting
  | failed messageId code completedAt =>
      exact completed_known_of_update (fun _ => by nofun) known isCompleted

/-- The call completed the waiting message before its deadline, as read under
the row lock. -/
def CompletesInTime (call : Call) (waiting : Message) : Prop :=
  ∃ tables material draft now completedAt,
    call = .complete tables material waiting.id draft now completedAt ∧ now < waiting.deadlineAt

/-- A message is completed only by a `complete` call that read its deadline,
under the lock, as still ahead. -/
theorem completed_in_time {before : Dialogue} {call : Call} {message : Message}
    (keys : before.Keys) (known : message ∈ (call.run before).messages)
    (isCompleted : message.state = .completed) :
    message ∈ before.messages ∨
      ∃ waiting ∈ before.messages, waiting.id = message.id ∧ waiting.state = .pending ∧
        CompletesInTime call waiting := by
  rcases run_cases call before with unchanged | ⟨ok, ⟨change, possible, effect⟩, _⟩
  · rw [unchanged] at known
    exact .inl known
  · cases call with
    | complete tables material messageId draft now completedAt =>
        obtain ⟨waiting, waitingKnown, rfl, isPending, inTime, afterEq, _⟩ := complete_eq_ok ok
        rw [afterEq] at known
        rcases mem_updateWhere_cases known with ⟨stays, _⟩ | ⟨source, sourceKnown, matched, rfl⟩
        · exact .inl stays
        · have same := keys.messageIds.eq_of_key sourceKnown waitingKnown (by simpa using matched)
          subst same
          exact .inr ⟨source, sourceKnown, rfl, isPending, tables, material, draft, now,
            completedAt, rfl, inTime⟩
    | _ =>
        refine .inl (completed_known_of_effect effect ?_ known isCompleted)
        intro completes
        subst completes
        simp [Call.changes] at possible

/-- Every citation of a draft becomes a row of the message. -/
theorem exists_citationRow {message : Message} {draft : TutorDraft} {citation : IntentCitation}
    (cited : citation ∈ draft.citations) :
    ∃ row ∈ citationRows message draft, row.messageId = message.id ∧
      row.chunkId = citation.chunkId ∧ row.quote = citation.quote := by
  have indexed : citation ∈ draft.citations.zipIdx.map Prod.fst := by
    rw [List.zipIdx_map_fst]
    exact cited
  obtain ⟨entry, member, rfl⟩ := List.mem_map.mp indexed
  exact ⟨_, List.mem_map_of_mem member, rfl, rfl, rfl⟩

/-- A completion whose draft cites a chunk without an evidence row raises. -/
theorem complete_raises_of_missing {tables : Identity} {material : Material} {messageId : UUID}
    {draft : TutorDraft} {now completedAt : Time} {dialogue : Dialogue} {citation : IntentCitation}
    (cited : citation ∈ draft.citations)
    (missing : ∀ row ∈ dialogue.retrievedEvidence,
      ¬ (row.messageId = messageId ∧ row.chunkId = citation.chunkId)) :
    ∃ failure, (Call.complete tables material messageId draft now completedAt).result dialogue =
      .error failure := by
  cases result : (Call.complete tables material messageId draft now completedAt).result dialogue with
  | error failure => exact ⟨failure, rfl⟩
  | ok after =>
      obtain ⟨message, _, idEq, _, _, rfl, constraints⟩ := complete_eq_ok result
      obtain ⟨row, rowMember, sameMessage, sameChunk, _⟩ :=
        @exists_citationRow message _ _ cited
      obtain ⟨evidence, evidenceKnown, _, evidenceMessage, evidenceChunk⟩ :=
        constraints.1.citationEvidence row (List.mem_append_right _ rowMember)
      exact absurd ⟨evidenceMessage.trans (sameMessage.trans idEq), evidenceChunk.trans sameChunk⟩
        (missing evidence evidenceKnown)

/-- A call that raises leaves every table as it was. -/
theorem run_of_raises {call : Call} {dialogue : Dialogue} {failure : Failure}
    (raises : call.result dialogue = .error failure) : call.run dialogue = dialogue := by
  rw [Call.run, raises]

/-! ### The state machine -/

/-- The message state machine, in every state that any calls lead to: one
pending message for each conversation, which is its last; sequences without gap
or duplicate; messages that only advance in every later run; completion only in
time; and calls that change nothing when they raise, as a completion does whose
evidence is missing. -/
theorem message_state_machine {dialogue : Dialogue}
    (reachable : Reachable NoDialogue ServiceStep dialogue) :
    (∀ first ∈ dialogue.messages, ∀ second ∈ dialogue.messages,
        first.conversationId = second.conversationId → first.state = .pending →
          second.state = .pending → first = second) ∧
      (∀ conversation ∈ dialogue.conversations,
        (dialogue.messages.filter (·.conversationId = conversation.id)).map (·.sequence) =
          List.range' 1 (conversation.nextSequence - 1)) ∧
      (∀ waiting ∈ dialogue.messages, waiting.state = .pending →
        ∀ other ∈ dialogue.messages, other.conversationId = waiting.conversationId →
          other.sequence ≤ waiting.sequence) ∧
      (∀ later, Relation.ReflTransGen ServiceStep dialogue later → dialogue.Advances later) ∧
      (∀ (call : Call), ∀ message ∈ (call.run dialogue).messages, message.state = .completed →
        message ∈ dialogue.messages ∨
          ∃ waiting ∈ dialogue.messages, waiting.id = message.id ∧ waiting.state = .pending ∧
            CompletesInTime call waiting) ∧
      (∀ (call : Call) failure, call.result dialogue = .error failure →
        call.run dialogue = dialogue) ∧
      ∀ tables material messageId draft now completedAt, ∀ citation ∈ draft.citations,
        (∀ row ∈ dialogue.retrievedEvidence,
          ¬ (row.messageId = messageId ∧ row.chunkId = citation.chunkId)) →
        ∃ failure, (Call.complete tables material messageId draft now completedAt).result dialogue =
          .error failure := by
  have orderly := orderly_of_reachable reachable
  refine ⟨?_, orderly.numbered.sequences, ?_, fun later run => advances_of_run orderly run,
    fun call message known isCompleted => completed_in_time orderly.keys known isCompleted,
    fun call failure raises => run_of_raises raises,
    fun tables material messageId draft now completedAt citation cited missing =>
      complete_raises_of_missing cited missing⟩
  · intro first firstKnown second secondKnown sameConversation firstPending secondPending
    refine orderly.keys.onePending.eq_of_key ?_ ?_ sameConversation
    · exact List.mem_filter.mpr ⟨firstKnown, by simp [Message.isPending, firstPending]⟩
    · exact List.mem_filter.mpr ⟨secondKnown, by simp [Message.isPending, secondPending]⟩
  · intro waiting waitingKnown isPending other otherKnown sameConversation
    obtain ⟨conversation, known, _, idEq⟩ := orderly.keys.messageConversation waiting waitingKnown
    have last := orderly.numbered.pendingLast waiting waitingKnown isPending conversation known idEq
    have numbered : other.sequence ∈
        (dialogue.messages.filter (·.conversationId = conversation.id)).map (·.sequence) :=
      List.mem_map_of_mem (List.mem_filter.mpr ⟨otherKnown, by simp [sameConversation, idEq]⟩)
    rw [orderly.numbered.sequences conversation known, List.mem_range'_1] at numbered
    omega

/-! ### A first answer -/

section Sample

/-- Small distinct identifiers. -/
def sampleId (value : Nat) : UUID := .ofNat value

/-- One student of one course. -/
def sampleIdentity : Identity where
  users := [{ id := sampleId 1, oidcIssuer := "issuer", oidcSubject := "student" }]
  memberships := [{ courseId := sampleId 2, userId := sampleId 1, role := .student }]

def sampleStudent : AuthenticatedIdentity := { issuer := "issuer", subject := "student" }

/-- A course without an active corpus. -/
def sampleMaterial : Material where
  courses := [{ id := sampleId 2, version := 0, activeCorpusVersionId := none }]

/-- ASCII tables are enough for the sample texts. -/
def sampleUnicode : Text.UnicodeData where
  lower := List.map Char.toLower
  isWord := fun char => char.isAlphanum || char == '_'
  isPrintable := fun char => decide (' ' ≤ char)
  sameIgnoringCase := fun first second => first.toLower == second.toLower

/-- The student opens a conversation, asks, and is answered by an abstention. -/
def sampleCalls : List Call :=
  [.create sampleIdentity sampleMaterial sampleStudent (sampleId 2) (some "open") (sampleId 3) 0,
    .accept { modelVersion := "model", retrievalVersion := "retrieval" } sampleUnicode
      sampleIdentity sampleMaterial sampleStudent
      { conversationId := sampleId 3, question := "What is a stack?", key := some "ask"
        correlationId := "request" }
      { expiryClock := fun _ => 1, completedClock := fun _ => 1, now := 1, createdAt := 1
        messageId := sampleId 4, corpusId := none },
    .complete sampleIdentity sampleMaterial (sampleId 4) abstention 2 3]

/-- The tables after the calls, one after the other. -/
def runCalls (calls : List Call) : Dialogue :=
  calls.foldl (fun dialogue call => call.run dialogue) {}

/-- What a list of calls leads to is reachable. -/
theorem reachable_foldl (calls : List Call) {dialogue : Dialogue}
    (reachable : Reachable NoDialogue ServiceStep dialogue) :
    Reachable NoDialogue ServiceStep
      (calls.foldl (fun dialogue call => call.run dialogue) dialogue) := by
  induction calls generalizing dialogue with
  | nil => exact reachable
  | cons call calls inductionHypothesis => exact inductionHypothesis (reachable.tail ⟨call, rfl⟩)

theorem reachable_runCalls (calls : List Call) :
    Reachable NoDialogue ServiceStep (runCalls calls) :=
  reachable_foldl calls (.of_start rfl)

/-- After the first answer the conversation has one completed message, which no
later run changes. -/
theorem message_state_machine_of_sample :
    (runCalls sampleCalls).messages.map (fun message => (message.sequence, message.state)) =
        [(1, .completed)] ∧
      ∀ later, Relation.ReflTransGen ServiceStep (runCalls sampleCalls) later →
        (runCalls sampleCalls).Advances later :=
  ⟨by decide +kernel, (message_state_machine (reachable_runCalls sampleCalls)).2.2.2.1⟩

end Sample

end Docta
