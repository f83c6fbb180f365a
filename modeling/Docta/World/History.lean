/-
Module: Docta.World.History
Purpose: History pagination, both halves: the service's page of a conversation
  and the web client's loop over pages. Between two pages anything may happen:
  messages are accepted, answered, expired, corpora change. The loop still
  collects the conversation, once, in order.
Trusted boundary: none
Main exports: HistoryLoop.receive, HistoryRead.Step, page_of_history,
  holds_of_page, history_complete
-/
import Docta.Conversation.Antecedents
import Docta.Library.Paging
import Docta.World.Antecedents

namespace Docta

open Table Fallible Transition ConversationService

/-! ### The loop -/

/-- Where the client's `history(id)` stands. -/
inductive HistoryLoop where
  /-- before the next page -/
  | reading (messages : List MessageView) (cursor : Nat)
  | returned (messages : List MessageView)
  /-- `throw new DoctaError("invalid_history")` -/
  | invalidHistory
  /-- the page request failed -/
  | failed (failure : Failure)

/-- The loop has ended. -/
def HistoryLoop.Ended (loop : HistoryLoop) : Prop :=
  ∀ messages cursor, loop ≠ .reading messages cursor

/-- What the loop does with a page. -/
def HistoryLoop.receive (messages : List MessageView) (cursor : Nat) (page : HistoryView) :
    HistoryLoop :=
  match page.nextAfterSequence with
  | none => .returned (messages ++ page.messages)
  | some next =>
      if next ≤ cursor then .invalidHistory else .reading (messages ++ page.messages) next

theorem HistoryLoop.receive_next {messages : List MessageView} {cursor next : Nat}
    {page : HistoryView} (isNext : page.nextAfterSequence = some next) (more : cursor < next) :
    HistoryLoop.receive messages cursor page = .reading (messages ++ page.messages) next := by
  rw [HistoryLoop.receive, isNext]
  exact if_neg (Nat.not_le.mpr more)

theorem HistoryLoop.receive_last {messages : List MessageView} {cursor : Nat} {page : HistoryView}
    (isLast : page.nextAfterSequence = none) :
    HistoryLoop.receive messages cursor page = .returned (messages ++ page.messages) := by
  rw [HistoryLoop.receive, isLast]

/-- The world with a client reading one conversation. -/
structure HistoryRead where
  world : World
  loop : HistoryLoop := .reading [] 0
  /-- page requests sent so far; the loop does not read it -/
  pages : Nat := 0

section Steps

variable (deployment : Deployment) (data : ValidatorData) (who : AuthenticatedIdentity)
  (conversationId : UUID) (limit : Nat)

/-- The page a loop asks for, in the world it finds. -/
def HistoryRead.page (world : World) (cursor : Nat) (clock completed : Clock) :
    Except Failure (HistoryView × Dialogue) :=
  ConversationService.history world.identity world.backend.material who conversationId cursor limit
    clock completed world.tutor.dialogue

/-- The world after the service committed a page read. -/
def World.withDialogue (world : World) (dialogue : Dialogue) : World :=
  { world with tutor := { world.tutor with dialogue } }

/-- The world goes on, or the client reads its next page. -/
inductive HistoryRead.Step : HistoryRead → HistoryRead → Prop where
  | world (read : HistoryRead) (after : World) (step : World.Step deployment data read.world after) :
      Step read { read with world := after }
  | page (read : HistoryRead) (messages : List MessageView) (cursor : Nat) (clock completed : Clock)
      (page : HistoryView) (dialogue : Dialogue) (reading : read.loop = .reading messages cursor)
      (ok : HistoryRead.page who conversationId limit read.world cursor clock completed =
        .ok (page, dialogue)) :
      Step read
        { world := read.world.withDialogue dialogue
          loop := .receive messages cursor page
          pages := read.pages + 1 }
  | refused (read : HistoryRead) (messages : List MessageView) (cursor : Nat)
      (clock completed : Clock) (failure : Failure) (reading : read.loop = .reading messages cursor)
      (raises : HistoryRead.page who conversationId limit read.world cursor clock completed =
        .error failure) :
      Step read { read with loop := .failed failure, pages := read.pages + 1 }

end Steps

/-! ### Pages of a conversation -/

/-- The messages of a conversation, as stored. -/
def Dialogue.ofConversation (dialogue : Dialogue) (conversationId : UUID) : List Message :=
  dialogue.messages.filter (·.conversationId = conversationId)

theorem mem_ofConversation {dialogue : Dialogue} {conversationId : UUID} {row : Message} :
    row ∈ dialogue.ofConversation conversationId ↔
      row ∈ dialogue.messages ∧ row.conversationId = conversationId := by
  rw [Dialogue.ofConversation, List.mem_filter, decide_eq_true_iff]

/-- The messages of a conversation are numbered from one. -/
theorem numbered_ofConversation {dialogue : Dialogue} (orderly : dialogue.Orderly)
    (conversationId : UUID) :
    (dialogue.ofConversation conversationId).map (·.sequence) =
      List.range' 1 (dialogue.ofConversation conversationId).length := by
  by_cases found : ∃ conversation ∈ dialogue.conversations, conversation.id = conversationId
  · rcases found with ⟨conversation, known, idEq⟩
    have sequences := orderly.numbered.sequences conversation known
    rw [idEq] at sequences
    have size := congrArg List.length sequences
    rw [List.length_map, List.length_range'] at size
    rw [Dialogue.ofConversation, size, sequences]
  · have none : dialogue.ofConversation conversationId = [] := by
      rw [Dialogue.ofConversation, List.filter_eq_nil_iff]
      intro row known own
      rcases orderly.keys.messageConversation row known with ⟨conversation, known, _, idEq⟩
      exact found ⟨conversation, known, idEq.trans (of_decide_eq_true own)⟩
    rw [none]
    rfl

/-- A conversation only grows. -/
theorem length_ofConversation_le {earlier later : Dialogue} (orderly : earlier.Orderly)
    (orderlyLater : later.Orderly) (advances : earlier.Advances later) (conversationId : UUID) :
    (earlier.ofConversation conversationId).length ≤
      (later.ofConversation conversationId).length := by
  cases size : (earlier.ofConversation conversationId).length with
  | zero => exact Nat.zero_le _
  | succ count =>
      have last : count + 1 ∈ (earlier.ofConversation conversationId).map (·.sequence) := by
        rw [numbered_ofConversation orderly, size, List.mem_range'_1]
        omega
      rcases List.mem_map.mp last with ⟨row, member, sameSequence⟩
      rcases mem_ofConversation.mp member with ⟨known, own⟩
      rcases advances.messages row known with ⟨after, afterKnown, advance⟩
      have numbered : after.sequence ∈ (later.ofConversation conversationId).map (·.sequence) :=
        List.mem_map_of_mem
          (mem_ofConversation.mpr ⟨afterKnown, advance.conversationId_eq.trans own⟩)
      rw [numbered_ofConversation orderlyLater, List.mem_range'_1, advance.sequence_eq,
        sameSequence] at numbered
      omega

section Page

variable {tables : Identity} {material : Material} {who : AuthenticatedIdentity}
  {conversationId : UUID} {cursor limit : Nat} {clock completed : Clock} {dialogue after : Dialogue}
  {page : HistoryView}

/-- The rows a page of the service looks at. -/
theorem seen_of_history (orderly : dialogue.Orderly) :
    ((dialogue.messages.filter fun message =>
        message.conversationId = conversationId ∧ cursor < message.sequence).insertionSort
          oldestFirst).take (limit + 1) =
      Paging.seen (·.sequence) (dialogue.ofConversation conversationId) cursor limit := by
  have rows : (dialogue.messages.filter fun message =>
      decide (message.conversationId = conversationId ∧ cursor < message.sequence)) =
        Paging.after (·.sequence) (dialogue.ofConversation conversationId) cursor := by
    rw [Paging.after, Dialogue.ofConversation, List.filter_filter]
    refine List.filter_congr fun row _ => ?_
    rw [Bool.decide_and, Bool.and_comm]
  rw [rows, Paging.insertionSort_after (numbered_ofConversation orderly conversationId) cursor
    oldestFirst fun _ _ lower => lower]
  rfl

/-- What a page of the service shows: the sequences next to the cursor, each of a
stored message, and the last of them while more follow. -/
theorem page_of_history (positive : 1 ≤ limit) (orderly : after.Orderly)
    (ok : ConversationService.history tables material who conversationId cursor limit clock completed
      dialogue = .ok (page, after)) :
    page.messages.map (·.sequence) = List.range' (cursor + 1)
        (min limit ((after.ofConversation conversationId).length - cursor)) ∧
      page.nextAfterSequence =
        (if limit < (after.ofConversation conversationId).length - cursor then some (cursor + limit)
        else none) ∧
      ∀ shown ∈ page.messages, ∃ row ∈ after.ofConversation conversationId, row.ShownAs shown := by
  simp only [ConversationService.history, bind_eq_ok, pure_eq_ok, Dialogue.commit_eq_ok,
    Prod.mk.injEq] at ok
  rcases ok with ⟨conversation, _, shown, shownOk, _, ⟨_, rfl⟩, rfl, rfl⟩
  rw [seen_of_history orderly] at shownOk
  have numbered := numbered_ofConversation orderly conversationId
  refine ⟨?_, ?_, ?_⟩
  · rw [← Paging.map_kept numbered]
    exact map_eq_map_of_mapM_ok (fun _ _ rowOk => (shownAs_of_view rowOk).sequence) shownOk
  · rw [seen_of_history orderly, ← Paging.next_eq numbered cursor positive]
    rfl
  · intro view member
    rcases exists_item_of_mapM_ok shownOk member with ⟨row, rowMember, rowOk⟩
    refine ⟨row, ?_, shownAs_of_view rowOk⟩
    exact (List.mem_filter.mp (List.mem_of_mem_take (List.mem_of_mem_take rowMember))).1

end Page

/-- A page read leaves a conversation as it is while no deadline has passed. -/
theorem dialogue_of_history {tables : Identity} {material : Material} {who : AuthenticatedIdentity}
    {conversationId : UUID} {cursor limit : Nat} (clock : Clock) {completed : Clock}
    {dialogue : Dialogue} {page : HistoryView × Dialogue}
    (inTime : ∀ row ∈ dialogue.messages, clock row.id < row.deadlineAt)
    (ok : ConversationService.history tables material who conversationId cursor limit clock completed
      dialogue = .ok page) : page.2 = dialogue := by
  simp only [ConversationService.history, bind_eq_ok, pure_eq_ok, Dialogue.commit_eq_ok] at ok
  obtain ⟨_, _, _, _, _, ⟨_, rfl⟩, rfl⟩ := ok
  have unmatched : ∀ row ∈ dialogue.messages,
      expires clock (some conversationId) row = false := by
    intro row known
    rw [expires, decide_eq_false (Int.not_le.mpr (inTime row known)), Bool.and_false, Bool.false_and]
  change expire clock completed (some conversationId) dialogue = dialogue
  rw [expire, updateWhere_eq_self unmatched]

/-- The owner can always read a page. -/
theorem exists_page {deployment : Deployment} {world : World} (sound : world.Sound deployment)
    {who : AuthenticatedIdentity} {conversationId : UUID} {conversation : Conversation}
    (authorized : owned world.identity world.tutor.dialogue who conversationId = .ok conversation)
    (limit cursor : Nat) (clock completed : Clock) :
    ∃ page dialogue,
      HistoryRead.page who conversationId limit world cursor clock completed = .ok (page, dialogue) := by
  have constraints := constraints_expire ⟨sound.tutor.orderly.keys, sound.references⟩ clock completed
    (some conversationId)
  have committed := Dialogue.commit_eq_ok.mpr ⟨constraints, rfl⟩
  have shows : ∀ row ∈ ((((expire clock completed (some conversationId)
      world.tutor.dialogue).messages.filter fun message =>
        message.conversationId = conversationId ∧ cursor < message.sequence).insertionSort
          oldestFirst).take (limit + 1)).take limit,
      ∃ shown, view (expire clock completed (some conversationId) world.tutor.dialogue) row =
        .ok shown := by
    intro row member
    have sorted := List.mem_of_mem_take (List.mem_of_mem_take member)
    have selected := (List.mem_insertionSort oldestFirst).mp sorted
    exact exists_view _ (constraints.1.messageChecks row (List.mem_filter.mp selected).1)
  rcases exists_mapM_ok shows with ⟨shown, shownOk⟩
  simp only [HistoryRead.page, ConversationService.history, authorized, shownOk, committed, ok_bind]
  exact ⟨_, _, rfl⟩

/-! ### What the loop holds -/

/-- The views are the messages of the conversation numbered up to `count`. -/
structure Collects (dialogue : Dialogue) (conversationId : UUID) (messages : List MessageView)
    (count : Nat) : Prop where
  sequences : messages.map (·.sequence) = List.range' 1 count
  stored : ∀ shown ∈ messages, ∃ row ∈ dialogue.ofConversation conversationId,
    row.id = shown.id ∧ row.sequence = shown.sequence

theorem Collects.mono {earlier later : Dialogue} {conversationId : UUID}
    {messages : List MessageView} {count : Nat}
    (collects : Collects earlier conversationId messages count) (advances : earlier.Advances later) :
    Collects later conversationId messages count := by
  refine ⟨collects.sequences, fun shown member => ?_⟩
  rcases collects.stored shown member with ⟨row, rowMember, sameId, sameSequence⟩
  rcases mem_ofConversation.mp rowMember with ⟨known, own⟩
  rcases advances.messages row known with ⟨after, afterKnown, advance⟩
  exact ⟨after, mem_ofConversation.mpr ⟨afterKnown, advance.conversationId_eq.trans own⟩,
    advance.id_eq.trans sameId, advance.sequence_eq.trans sameSequence⟩

section Collected

variable {dialogue : Dialogue} {conversationId : UUID} {messages : List MessageView} {count : Nat}
  (orderly : dialogue.Orderly) (collects : Collects dialogue conversationId messages count)
include orderly collects

/-- No message is collected twice. -/
theorem Collects.nodup : (messages.map (·.id)).Nodup := by
  have distinct : (messages.map (·.sequence)).Nodup := by
    rw [collects.sequences]
    exact List.nodup_range'
  refine List.pairwise_map.mpr
    (List.Pairwise.imp_of_mem (fun {first second} inFirst inSecond apart sameId => apart ?_)
      (List.pairwise_map.mp distinct))
  -- Views with one identifier show one row, so they have one sequence.
  rcases collects.stored first inFirst with ⟨row, rowMember, rowId, rowSequence⟩
  rcases collects.stored second inSecond with ⟨other, otherMember, otherId, otherSequence⟩
  have same := orderly.keys.messageIds.eq_of_key (mem_ofConversation.mp rowMember).1
    (mem_ofConversation.mp otherMember).1 (rowId.trans (sameId.trans otherId.symm))
  rw [← rowSequence, same, otherSequence]

/-- A message numbered up to the count is collected. -/
theorem Collects.mem {row : Message} (member : row ∈ dialogue.ofConversation conversationId)
    (bound : row.sequence ≤ count) : row.id ∈ messages.map (·.id) := by
  have positive : 1 ≤ row.sequence :=
    (orderly.keys.messageChecks row (mem_ofConversation.mp member).1).sequence
  have numbered : row.sequence ∈ messages.map (·.sequence) := by
    rw [collects.sequences, List.mem_range'_1]
    omega
  rcases List.mem_map.mp numbered with ⟨shown, shownMember, sameSequence⟩
  rcases collects.stored shown shownMember with ⟨stored, storedMember, sameId, storedSequence⟩
  have sameKey : (stored.conversationId, stored.sequence) = (row.conversationId, row.sequence) :=
    Prod.ext ((mem_ofConversation.mp storedMember).2.trans (mem_ofConversation.mp member).2.symm)
      (storedSequence.trans sameSequence)
  have same := orderly.keys.messageSequence.eq_of_key (mem_ofConversation.mp storedMember).1
    (mem_ofConversation.mp member).1 sameKey
  rw [← same, sameId]
  exact List.mem_map_of_mem shownMember

end Collected

/-! ### Runs of the loop -/

/-- The number of messages of the conversation. -/
def HistoryRead.count (read : HistoryRead) (conversationId : UUID) : Nat :=
  (read.world.tutor.dialogue.ofConversation conversationId).length

/-- What the loop holds: while reading, full pages up to the cursor with more to
come; in the end everything up to some number that covers the first messages. -/
def HistoryLoop.Holds (dialogue : Dialogue) (conversationId : UUID) (limit first pages : Nat) :
    HistoryLoop → Prop
  | .reading messages cursor =>
      Collects dialogue conversationId messages cursor ∧ cursor = pages * limit ∧
        (pages = 0 ∨ cursor < (dialogue.ofConversation conversationId).length)
  | .returned messages =>
      (pages - 1) * limit ≤ (dialogue.ofConversation conversationId).length ∧
        ∃ count, first ≤ count ∧ Collects dialogue conversationId messages count
  | .invalidHistory => False
  | .failed _ => (pages - 1) * limit ≤ (dialogue.ofConversation conversationId).length

theorem HistoryLoop.Holds.mono {earlier later : Dialogue} (orderly : earlier.Orderly)
    (orderlyLater : later.Orderly) (advances : earlier.Advances later) {conversationId : UUID}
    {limit first pages : Nat} {loop : HistoryLoop}
    (holds : loop.Holds earlier conversationId limit first pages) :
    loop.Holds later conversationId limit first pages := by
  have grows := length_ofConversation_le orderly orderlyLater advances conversationId
  cases loop with
  | reading messages cursor =>
      rcases holds with ⟨collects, size, more⟩
      exact ⟨collects.mono advances, size, more.imp_right fun before => before.trans_le grows⟩
  | returned messages =>
      rcases holds with ⟨bound, count, covers, collects⟩
      exact ⟨bound.trans grows, count, covers, collects.mono advances⟩
  | invalidHistory => exact holds
  | failed failure => exact Nat.le_trans holds grows

section Runs

variable {deployment : Deployment} {data : ValidatorData} {who : AuthenticatedIdentity}
  {conversationId : UUID} {limit : Nat}

/-- A page read is one call beside the turns. -/
theorem worldStep_of_page {world : World} {cursor : Nat} {clock completed : Clock}
    {page : HistoryView} {dialogue : Dialogue}
    (ok : HistoryRead.page who conversationId limit world cursor clock completed =
      .ok (page, dialogue)) :
    World.Step deployment data world (world.withDialogue dialogue) := by
  have step : World.Step deployment data world (world.withDialogue
      ((Call.history world.identity world.backend.material who conversationId cursor limit clock
        completed).run world.tutor.dialogue)) :=
    .tutor world _ (.beside world.tutor _ ⟨rfl, rfl⟩)
  have result : (Call.history world.identity world.backend.material who conversationId cursor limit
      clock completed).result world.tutor.dialogue = .ok dialogue := map_eq_ok.mpr ⟨_, ok, rfl⟩
  rw [Call.run, result] at step
  exact step

/-- The loop takes a page: it goes on behind a full page, or returns with
everything there was. -/
theorem holds_of_page (positive : 1 ≤ limit) {world : World} {first pages cursor : Nat}
    {messages : List MessageView} {clock completed : Clock} {page : HistoryView}
    {dialogue : Dialogue} (orderlyBefore : world.tutor.dialogue.Orderly)
    (orderly : dialogue.Orderly) (advances : world.tutor.dialogue.Advances dialogue)
    (covers : first ≤ (world.tutor.dialogue.ofConversation conversationId).length)
    (holds : (HistoryLoop.reading messages cursor).Holds world.tutor.dialogue conversationId limit
      first pages)
    (ok : HistoryRead.page who conversationId limit world cursor clock completed =
      .ok (page, dialogue)) :
    (HistoryLoop.receive messages cursor page).Holds dialogue conversationId limit first
      (pages + 1) := by
  have grows := length_ofConversation_le orderlyBefore orderly advances conversationId
  rcases holds with ⟨collects, size, more⟩
  rcases page_of_history positive orderly ok with ⟨sequences, next, shown⟩
  have together (count : Nat) (reached : cursor + min limit
      ((dialogue.ofConversation conversationId).length - cursor) = count) :
      Collects dialogue conversationId (messages ++ page.messages) count := by
    refine ⟨?_, fun view member => ?_⟩
    · rw [List.map_append, collects.sequences, sequences, Paging.collected_append, reached]
    · rcases List.mem_append.mp member with old | new
      · exact (collects.mono advances).stored view old
      · rcases shown view new with ⟨row, rowMember, shownAs⟩
        exact ⟨row, rowMember, shownAs.id.symm, shownAs.sequence.symm⟩
  have product : (pages + 1) * limit = pages * limit + limit := Nat.succ_mul pages limit
  unfold HistoryLoop.receive
  rw [next]
  by_cases follow : limit < (dialogue.ofConversation conversationId).length - cursor
  · have forward : ¬ cursor + limit ≤ cursor := by omega
    simp only [if_pos follow, if_neg forward]
    exact ⟨together _ (by omega), by omega, .inr (by omega)⟩
  · simp only [if_neg follow]
    refine ⟨?_, (dialogue.ofConversation conversationId).length, covers.trans grows,
      together _ ?_⟩
    · rw [Nat.add_sub_cancel]
      rcases more with noPage | before
      · rw [noPage, Nat.zero_mul]
        exact Nat.zero_le _
      · omega
    · rcases more with noPage | before
      · rw [noPage, Nat.zero_mul] at size
        omega
      · omega

/-- What every run of the loop keeps. -/
structure HistoryRead.Invariant (deployment : Deployment) (conversationId : UUID)
    (limit first : Nat) (read : HistoryRead) : Prop where
  sound : read.world.Sound deployment
  covers : first ≤ read.count conversationId
  holds : read.loop.Holds read.world.tutor.dialogue conversationId limit first read.pages

theorem invariant_of_historyStep (positive : 1 ≤ limit) {first : Nat} {before after : HistoryRead}
    (invariant : before.Invariant deployment conversationId limit first)
    (step : HistoryRead.Step deployment data who conversationId limit before after) :
    after.Invariant deployment conversationId limit first := by
  rcases invariant with ⟨sound, covers, holds⟩
  cases step with
  | world later step =>
      have soundAfter := sound_of_worldStep sound step
      have advances := dialogue_of_worldStep sound step
      exact ⟨soundAfter, covers.trans (length_ofConversation_le sound.tutor.orderly
        soundAfter.tutor.orderly advances conversationId),
        holds.mono sound.tutor.orderly soundAfter.tutor.orderly advances⟩
  | page messages cursor clock completed page dialogue reading ok =>
      have step : World.Step deployment data before.world (before.world.withDialogue dialogue) :=
        worldStep_of_page ok
      have soundAfter := sound_of_worldStep sound step
      have advances := dialogue_of_worldStep sound step
      rw [reading] at holds
      exact ⟨soundAfter, covers.trans (length_ofConversation_le sound.tutor.orderly
        soundAfter.tutor.orderly advances conversationId),
        holds_of_page positive sound.tutor.orderly soundAfter.tutor.orderly advances covers holds ok⟩
  | refused messages cursor clock completed failure reading raises =>
      rw [reading] at holds
      rcases holds with ⟨collects, size, more⟩
      refine ⟨sound, covers, ?_⟩
      change (before.pages + 1 - 1) * limit ≤
        (before.world.tutor.dialogue.ofConversation conversationId).length
      rw [Nat.add_sub_cancel]
      rcases more with noPage | below
      · rw [noPage, Nat.zero_mul]
        exact Nat.zero_le _
      · omega

/-- The client about to read the first page. -/
def HistoryRead.start (world : World) : HistoryRead := { world }

theorem invariant_of_run (positive : 1 ≤ limit) {world : World} {read : HistoryRead}
    (reachable : Reachable World.Initial (World.Step deployment data) world)
    (run : Relation.ReflTransGen (HistoryRead.Step deployment data who conversationId limit)
      (.start world) read) :
    read.Invariant deployment conversationId limit
      (world.tutor.dialogue.ofConversation conversationId).length := by
  induction run with
  | refl =>
      refine ⟨sound_of_world reachable, Nat.le_refl _, ⟨rfl, List.forall_mem_nil _⟩, ?_, .inl rfl⟩
      exact (Nat.zero_mul limit).symm
  | tail _ step inductionHypothesis =>
      exact invariant_of_historyStep positive inductionHypothesis step

/-- The pages read so far are bounded by the messages there are. -/
theorem pages_le (positive : 1 ≤ limit) {first : Nat} {read : HistoryRead}
    (invariant : read.Invariant deployment conversationId limit first) :
    read.pages ≤ read.count conversationId / limit + 1 := by
  have bound : (read.pages - 1) * limit ≤ read.count conversationId := by
    have holds := invariant.holds
    cases isLoop : read.loop with
    | reading messages cursor =>
        rw [isLoop] at holds
        rcases holds with ⟨_, size, more⟩
        have fewer : (read.pages - 1) * limit ≤ read.pages * limit :=
          Nat.mul_le_mul_right limit (Nat.sub_le _ _)
        rcases more with noPage | before
        · rw [noPage, Nat.zero_sub, Nat.zero_mul]
          exact Nat.zero_le _
        · exact fewer.trans (size ▸ Nat.le_of_lt before)
    | returned messages =>
        rw [isLoop] at holds
        exact holds.1
    | invalidHistory =>
        rw [isLoop] at holds
        exact holds.elim
    | failed failure =>
        rw [isLoop] at holds
        exact holds
  have quotient := (Nat.le_div_iff_mul_le positive).mpr bound
  omega

/-- Beside the loop the world makes a run of its own. -/
theorem worldRun_of_run {before after : HistoryRead}
    (run : Relation.ReflTransGen (HistoryRead.Step deployment data who conversationId limit) before
      after) : Relation.ReflTransGen (World.Step deployment data) before.world after.world := by
  induction run with
  | refl => exact .refl
  | tail _ step inductionHypothesis =>
      cases step with
      | world after step => exact inductionHypothesis.tail step
      | page messages cursor clock completed page dialogue reading ok =>
          exact inductionHypothesis.tail (worldStep_of_page ok)
      | refused messages cursor clock completed failure reading raises => exact inductionHypothesis

/-- A schedule is a run. -/
theorem run_of_schedule {reads : Nat → HistoryRead}
    (steps : ∀ index, HistoryRead.Step deployment data who conversationId limit (reads index)
      (reads (index + 1))) (index : Nat) :
    Relation.ReflTransGen (HistoryRead.Step deployment data who conversationId limit) (reads 0)
      (reads index) := by
  induction index with
  | zero => exact .refl
  | succ index inductionHypothesis => exact inductionHypothesis.tail (steps index)

theorem pages_mono_of_schedule {reads : Nat → HistoryRead}
    (steps : ∀ index, HistoryRead.Step deployment data who conversationId limit (reads index)
      (reads (index + 1))) : Monotone fun index => (reads index).pages := by
  refine monotone_nat_of_le_succ fun index => ?_
  have step := steps index
  generalize reads (index + 1) = later at step ⊢
  cases step with
  | world after step => exact Nat.le_refl _
  | page messages cursor clock completed page dialogue reading ok => exact Nat.le_succ _
  | refused messages cursor clock completed failure reading raises => exact Nat.le_succ _

/-- A client that goes on reading and never ends reads any number of pages. -/
theorem pages_unbounded {reads : Nat → HistoryRead}
    (steps : ∀ index, HistoryRead.Step deployment data who conversationId limit (reads index)
      (reads (index + 1)))
    (goesOn : ∀ index, ∃ later, index ≤ later ∧
      ((reads later).loop.Ended ∨ (reads later).pages < (reads (later + 1)).pages))
    (neverEnds : ∀ index, ¬ (reads index).loop.Ended) (pages : Nat) :
    ∃ index, pages ≤ (reads index).pages := by
  induction pages with
  | zero => exact ⟨0, Nat.zero_le _⟩
  | succ pages inductionHypothesis =>
      rcases inductionHypothesis with ⟨index, read⟩
      rcases goesOn index with ⟨later, isLater, ended | readsOn⟩
      · exact absurd ended (neverEnds later)
      · have kept : (reads index).pages ≤ (reads later).pages :=
          pages_mono_of_schedule steps isLater
        exact ⟨later + 1, by omega⟩

/-- History pagination is complete: whatever happens between two pages, the loop
never raises, what it returns has strictly increasing sequences, no message
twice and every first message exactly once, the owner's pages are always
answered, and with finitely many messages a client that goes on reading ends. -/
theorem history_complete (positive : 1 ≤ limit) {world : World}
    (reachable : Reachable World.Initial (World.Step deployment data) world) :
    (∀ read, Relation.ReflTransGen (HistoryRead.Step deployment data who conversationId limit)
        (.start world) read →
      read.loop ≠ .invalidHistory ∧
      (∀ messages, read.loop = .returned messages →
        (messages.map (·.sequence)).Pairwise (· < ·) ∧ (messages.map (·.id)).Nodup ∧
        ∀ row ∈ world.tutor.dialogue.messages, row.conversationId = conversationId →
          (messages.map (·.id)).count row.id = 1) ∧
      (∀ messages cursor conversation, read.loop = .reading messages cursor →
        owned read.world.identity read.world.tutor.dialogue who conversationId = .ok conversation →
          ∀ clock completed, ∃ page dialogue,
            HistoryRead.page who conversationId limit read.world cursor clock completed =
              .ok (page, dialogue))) ∧
    (∀ reads : Nat → HistoryRead, reads 0 = .start world →
      (∀ index, HistoryRead.Step deployment data who conversationId limit (reads index)
        (reads (index + 1))) →
      (∀ index, ∃ later, index ≤ later ∧
        ((reads later).loop.Ended ∨ (reads later).pages < (reads (later + 1)).pages)) →
      (∃ bound, ∀ index, (reads index).count conversationId ≤ bound) →
        ∃ index, (reads index).loop.Ended) := by
  refine ⟨fun read run => ?_, fun reads isStart steps goesOn bounded => ?_⟩
  · have invariant := invariant_of_run positive reachable run
    have holds := invariant.holds
    have orderly := invariant.sound.tutor.orderly
    refine ⟨fun isInvalid => ?_, fun messages isReturned => ?_,
      fun messages cursor conversation isReading authorized clock completed =>
        exists_page invariant.sound authorized limit cursor clock completed⟩
    · rw [isInvalid] at holds
      exact holds
    · rw [isReturned] at holds
      rcases holds with ⟨_, count, covers, collects⟩
      refine ⟨?_, collects.nodup orderly, fun row known own => ?_⟩
      · rw [collects.sequences]
        exact List.pairwise_lt_range'
      · have startSound := sound_of_world reachable
        have startOrderly := startSound.tutor.orderly
        have advances : world.tutor.dialogue.Advances read.world.tutor.dialogue :=
          (worldAdvances_of_run startSound (worldRun_of_run run)).2
        have numbered : row.sequence ∈
            (world.tutor.dialogue.ofConversation conversationId).map (·.sequence) :=
          List.mem_map_of_mem (mem_ofConversation.mpr ⟨known, own⟩)
        rw [numbered_ofConversation startOrderly, List.mem_range'_1] at numbered
        rcases advances.messages row known with ⟨after, afterKnown, advance⟩
        have collected := collects.mem orderly
          (mem_ofConversation.mpr ⟨afterKnown, advance.conversationId_eq.trans own⟩)
          (by rw [advance.sequence_eq]; omega)
        rw [advance.id_eq] at collected
        exact List.count_eq_one_of_mem (collects.nodup orderly) collected
  · by_contra neverEnds
    rw [not_exists] at neverEnds
    rcases bounded with ⟨bound, bounded⟩
    rcases pages_unbounded steps goesOn neverEnds (bound / limit + 2) with ⟨index, many⟩
    have run := run_of_schedule steps index
    rw [isStart] at run
    have few := pages_le positive (invariant_of_run positive reachable run)
    have quotient : (reads index).count conversationId / limit ≤ bound / limit :=
      Nat.div_le_div_right (bounded index)
    omega

end Runs

/-! ### Two pages of one message -/

section Sample

/-- The client reads its next page. -/
theorem step_page {read : HistoryRead} {messages : List MessageView} {cursor : Nat}
    {clock : Clock} {page : HistoryView × Dialogue} (reading : read.loop = .reading messages cursor)
    (ok : HistoryRead.page sampleTeacher (.ofNat 20) 1 read.world cursor clock clock = .ok page) :
    HistoryRead.Step sampleDeployment hostData sampleTeacher (.ofNat 20) 1 read
      { world := read.world.withDialogue page.2
        loop := .receive messages cursor page.1
        pages := read.pages + 1 } :=
  .page read messages cursor clock clock page.1 page.2 reading ok

/-- The first page, before the follow-up has ended. -/
def firstPage : HistoryView × Dialogue :=
  valueOf (HistoryRead.page sampleTeacher (.ofNat 20) 1 helpWorld 0 (fun _ => 5) fun _ => 5)
    (by decide +kernel)

theorem firstPage_ok :
    HistoryRead.page sampleTeacher (.ofNat 20) 1 helpWorld 0 (fun _ => 5) (fun _ => 5) =
      .ok firstPage :=
  eq_ok_valueOf _

/-- Between two pages the follow-up fails, and the teacher asks something else. -/
def againQuestion : ConversationService.Question where
  conversationId := .ofNat 20
  question := "What is a queue?"
  key := some "again"
  correlationId := "again"

def againReadings : Readings where
  expiryClock := fun _ => 6
  completedClock := fun _ => 6
  now := 6
  createdAt := 6
  messageId := .ofNat 23
  corpusId := some (.ofNat 9)

def helpFailed : Dialogue :=
  valueOf (ConversationService.fail sampleFaculty sampleActivated helpAccepted.1.message.id
    "MODEL_UNAVAILABLE" 6 helpAccepted.2) (by decide +kernel)

def againAccepted : AcceptedMessage × Dialogue :=
  valueOf (ConversationService.accept serviceSettings sampleHost sampleFaculty sampleActivated
    sampleTeacher againQuestion againReadings helpFailed) (by decide +kernel)

theorem againAccepted_ok :
    ConversationService.accept serviceSettings sampleHost sampleFaculty sampleActivated
      sampleTeacher againQuestion againReadings helpFailed = .ok againAccepted :=
  eq_ok_valueOf _

/-- The world in which the third message was accepted. -/
def againWorld : World :=
  worldWith { dialogue := againAccepted.2, posts := [againAccepted.1], ledger := firstLedger }

theorem againAccepted_spec :
    helpAccepted.1.created = true ∧
      { teacherConversation with nextSequence := 3 } ∈ helpFailed.conversations ∧
      againAccepted.1.message.courseId = .ofNat 2 ∧ againAccepted.1.created = true := by
  decide +kernel

theorem run_againWorld : Relation.ReflTransGen SampleWorldStep helpWorld againWorld := by
  obtain ⟨isNew, known, course, created⟩ := againAccepted_spec
  have read : againReadings.corpusId = captureCorpus sampleActivated (.ofNat 2) := by decide +kernel
  have started : Relation.ReflTransGen SampleWorldStep helpWorld
      (worldWith (turnOf helpAccepted.1 helpAccepted.2 firstLedger .started)) :=
    .single (step_started isNew)
  have failing := started.tail (step_turn (.interrupt _ "MODEL_UNAVAILABLE" [] (.inl rfl)))
  have failed := failing.tail
    (step_ended (.fail _ 6 helpFailed (eq_ok_valueOf _)))
  exact (failed.tail (step_capturing known)).tail
    (step_accepted rfl read course created againAccepted_ok)

/-- The second page, after the third message was accepted. -/
def secondPage : HistoryView × Dialogue :=
  valueOf (HistoryRead.page sampleTeacher (.ofNat 20) 1 againWorld 1 (fun _ => 7) fun _ => 7)
    (by decide +kernel)

theorem secondPage_ok :
    HistoryRead.page sampleTeacher (.ofNat 20) 1 againWorld 1 (fun _ => 7) (fun _ => 7) =
      .ok secondPage :=
  eq_ok_valueOf _

/-- The third page, which is the last. -/
def lastPage : HistoryView × Dialogue :=
  valueOf (HistoryRead.page sampleTeacher (.ofNat 20) 1 againWorld 2 (fun _ => 7) fun _ => 7)
    (by decide +kernel)

theorem lastPage_ok :
    HistoryRead.page sampleTeacher (.ofNat 20) 1 againWorld 2 (fun _ => 7) (fun _ => 7) =
      .ok lastPage :=
  eq_ok_valueOf _

/-- What the loop returns after all three pages. -/
def pagedMessages : List MessageView :=
  firstPage.1.messages ++ secondPage.1.messages ++ lastPage.1.messages

theorem pages_spec :
    ((∀ row ∈ helpAccepted.2.messages, 5 < row.deadlineAt) ∧
      ∀ row ∈ againAccepted.2.messages, 7 < row.deadlineAt) ∧
    (firstPage.1.nextAfterSequence = some 1 ∧ secondPage.1.nextAfterSequence = some 2 ∧
      lastPage.1.nextAfterSequence = none) ∧
    helpAccepted.2.messages.map (·.id) = [.ofNat 21, .ofNat 22] ∧
    pagedMessages.map (·.id) = [.ofNat 21, .ofNat 22, .ofNat 23] := by decide +kernel

/-- The loop after all three pages. -/
def pagedRead : HistoryRead where
  world := againWorld
  loop := .returned pagedMessages
  pages := 3

/-- The third message is accepted between the first page and the second. -/
theorem run_pagedRead :
    Relation.ReflTransGen
      (HistoryRead.Step sampleDeployment hostData sampleTeacher (.ofNat 20) 1)
      (.start helpWorld) pagedRead := by
  obtain ⟨⟨inTime, stillInTime⟩, ⟨isFirst, isSecond, isLast⟩, _⟩ := pages_spec
  let reading (world : World) : HistoryRead :=
    { world, loop := .reading firstPage.1.messages 1, pages := 1 }
  have first : HistoryRead.Step sampleDeployment hostData sampleTeacher (.ofNat 20) 1
      (.start helpWorld) (reading helpWorld) := by
    have unchanged : firstPage.2 = helpWorld.tutor.dialogue :=
      dialogue_of_history (fun _ => 5) inTime firstPage_ok
    have page := @step_page (.start helpWorld) _ _ _ _ rfl firstPage_ok
    rw [unchanged, HistoryLoop.receive_next isFirst Nat.zero_lt_one] at page
    exact page
  have goesOn : Relation.ReflTransGen
      (HistoryRead.Step sampleDeployment hostData sampleTeacher (.ofNat 20) 1)
      (reading helpWorld) (reading againWorld) := by
    refine Relation.ReflTransGen.lift reading (fun before after step => ?_) _ _ run_againWorld
    exact HistoryRead.Step.world (reading before) after step
  have second : HistoryRead.Step sampleDeployment hostData sampleTeacher (.ofNat 20) 1
      (reading againWorld)
      { world := againWorld
        loop := .reading (firstPage.1.messages ++ secondPage.1.messages) 2, pages := 2 } := by
    have unchanged : secondPage.2 = againWorld.tutor.dialogue :=
      dialogue_of_history (fun _ => 7) stillInTime secondPage_ok
    have page := @step_page (reading againWorld) _ _ _ _ rfl secondPage_ok
    rw [unchanged, HistoryLoop.receive_next isSecond Nat.one_lt_two] at page
    exact page
  have third : HistoryRead.Step sampleDeployment hostData sampleTeacher (.ofNat 20) 1
      { world := againWorld
        loop := .reading (firstPage.1.messages ++ secondPage.1.messages) 2, pages := 2 }
      pagedRead := by
    have unchanged : lastPage.2 = againWorld.tutor.dialogue :=
      dialogue_of_history (fun _ => 7) stillInTime lastPage_ok
    have page := @step_page
      { world := againWorld
        loop := .reading (firstPage.1.messages ++ secondPage.1.messages) 2, pages := 2 }
      _ _ _ _ rfl lastPage_ok
    rw [unchanged, HistoryLoop.receive_last isLast] at page
    exact page
  exact (((Relation.ReflTransGen.single first).trans goesOn).tail second).tail third

/-- The loop returns each of both first messages once, and after them the message
that was accepted while it was reading. -/
theorem history_complete_of_sample :
    helpWorld.tutor.dialogue.messages.map (·.id) = [.ofNat 21, .ofNat 22] ∧
      pagedRead.loop = .returned pagedMessages ∧
      pagedMessages.map (·.id) = [.ofNat 21, .ofNat 22, .ofNat 23] ∧
      (pagedMessages.map (·.sequence)).Pairwise (· < ·) ∧
      ∀ row ∈ helpWorld.tutor.dialogue.messages, row.conversationId = .ofNat 20 →
        (pagedMessages.map (·.id)).count row.id = 1 := by
  obtain ⟨_, _, before, returned⟩ := pages_spec
  obtain ⟨increasing, _, once⟩ := ((history_complete (Nat.le_refl 1) reachable_helpWorld).1
    pagedRead run_pagedRead).2.1 pagedMessages rfl
  exact ⟨before, rfl, returned, increasing, once⟩

end Sample

end Docta
