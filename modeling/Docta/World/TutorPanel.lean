/-
Module: Docta.World.TutorPanel
Purpose: The tutor panel of the web client, beside the system it talks to: the
  student's questions and actions, the recover button, the reads of the history
  that the panel keeps making, and the requests and answers under way.
Trusted boundary: one event at a time reaches a panel that is rendered; a key is
  drawn once; a request is served once or lost, late or not
Main exports: TutorPanel, Client.send, Client.display, ClientStep, PanelRun,
  PanelRun.Step
-/
import Docta.World.Acceptance
import Docta.World.History

namespace Docta

open Table Fallible Transition ConversationService

/-! ### The panel -/

/-- The `options` of `send`. -/
structure SendOptions where
  kind : Option Kind := none
  intent : Option Intent := none
  parentMessageId : Option UUID := none
deriving DecidableEq, Repr

/-- The body of a request: what is not given is left out, and the service fills it in. -/
def SendOptions.body (options : SendOptions) (question : String) : QuestionRequest where
  question
  kind := options.kind.getD .question
  intent := options.intent
  parentMessageId := options.parentMessageId

/-- The label an action is sent with, and its options; `view_source` sends nothing. -/
def actionOptions (action : Contract.Action) (parentMessageId : UUID) : Option (String × SendOptions) :=
  match action with
  | .viewSource => none
  | .anotherHint =>
      some ("Otra pista", { kind := some .action, intent := some .anotherHint, parentMessageId })
  | .explain =>
      some ("Explícame eso", { kind := some .action, intent := some .explain, parentMessageId })

/-- Where a call of `send` is suspended. -/
inductive SendPhase where
  /-- in `createConversation` -/
  | creating (attempt : Nat)
  /-- in `fetch` -/
  | posting (attempt : Nat)
  /-- in `readEvents`: whether the acceptance was announced, and whether the end was -/
  | reading (conversationId messageId : UUID) (announced terminal : Bool)
  /-- in its last `refresh` -/
  | refreshing (number : Nat) (messageId : UUID) (terminal : Bool)
deriving DecidableEq, Repr

/-- A running call of `send`. -/
structure Sending where
  question : String
  key : String
  options : SendOptions
  phase : SendPhase
deriving DecidableEq, Repr

/-- What the recover button sends. -/
structure Retry where
  question : String
  key : String
deriving DecidableEq, Repr

/-- What the panel is `loading`. -/
inductive Loader where
  /-- the conversations, at first -/
  | listing
  /-- the history of the one it opens with -/
  | opening
  /-- the history of the one that was selected -/
  | selecting (number : Nat) (conversationId : UUID)
  /-- a new conversation -/
  | creating (attempt : Nat)
deriving DecidableEq, Repr

/-- The state and the references of the component; `busy` and `loading` are the calls
that set them. -/
structure TutorPanel where
  selected : Option UUID := none
  messages : List MessageView := []
  loader : Option Loader := some .listing
  sending : Option Sending := none
  retry : Option Retry := none
  creationKey : String
  acceptedId : Option UUID := none
  historyRequest : Nat := 0

/-- A message that is shown is pending. -/
def TutorPanel.pending (panel : TutorPanel) : Bool :=
  panel.messages.any (·.state == .pending)

/-- Nothing is sent, and nothing shown is pending. -/
def TutorPanel.Idle (panel : TutorPanel) : Prop :=
  panel.sending = none ∧ panel.pending = false

/-- The controls that the conversation, the composer and the new button need. -/
def TutorPanel.Free (panel : TutorPanel) : Prop :=
  panel.Idle ∧ panel.loader = none ∧ panel.retry = none

/-- The message accepted last, if the rows show that it is not pending any more. -/
def TutorPanel.finished (panel : TutorPanel) (rows : List MessageView) : List UUID :=
  panel.acceptedId.toList.filter fun id =>
    rows.any fun row => row.id == id && row.state != .pending

/-! ### Requests -/

/-- A request for a conversation. -/
structure Creation where
  attempt : Nat
  key : String
deriving DecidableEq, Repr

/-- A request with a turn. -/
structure Post where
  attempt : Nat
  conversationId : UUID
  key : String
  body : QuestionRequest
deriving DecidableEq, Repr

/-- The service's answer to a post: the stream of a message. -/
structure Answer where
  post : Post
  messageId : UUID
deriving DecidableEq, Repr

/-- A running call of `history`. -/
structure HistoryCall where
  number : Nat
  conversationId : UUID
  loop : HistoryLoop := .reading [] 0

/-- What the student asked for. -/
structure Send where
  question : String
  key : String
  options : SendOptions := {}
deriving DecidableEq, Repr

/-- A question that was typed. -/
def Send.Typed (send : Send) : Prop :=
  send.options = {}

/-- The panel with its requests. -/
structure Client where
  panel : TutorPanel
  /-- requests under way -/
  creations : List Creation := []
  posts : List Post := []
  /-- answers of the service -/
  created : List (Nat × UUID) := []
  answers : List Answer := []
  calls : List HistoryCall := []
  /-- requests sent so far -/
  attempts : Nat := 0
  /-- the keys drawn so far -/
  drawn : List String
  /-- what the student asked for, what was posted and what the panel took for settled; the
  panel reads none of it -/
  sends : List Send := []
  sent : List Post := []
  settled : List UUID := []

namespace Client

/-- The request of `createConversation`. -/
def requestConversation (client : Client) : Client :=
  { client with
    panel := { client.panel with historyRequest := client.panel.historyRequest + 1 }
    creations := client.creations ++ [⟨client.attempts, client.panel.creationKey⟩]
    attempts := client.attempts + 1 }

/-- The rest of `createConversation`, with the conversation in hand. -/
def openCreated (client : Client) (conversationId : UUID) (fresh : String) : Client :=
  { client with
    panel :=
      { client.panel with creationKey := fresh, selected := some conversationId, messages := [] }
    drawn := client.drawn ++ [fresh] }

/-- The post of `send`. -/
def post (client : Client) (conversationId : UUID) (question key : String)
    (options : SendOptions) : Client :=
  { client with
    panel :=
      { client.panel with
        sending := some { question, key, options, phase := .posting client.attempts } }
    posts := client.posts ++ [⟨client.attempts, conversationId, key, options.body question⟩]
    sent := client.sent ++ [⟨client.attempts, conversationId, key, options.body question⟩]
    attempts := client.attempts + 1 }

/-- `send(question, key, options)`, up to its first await. -/
def send (client : Client) (question key : String) (options : SendOptions) : Client :=
  let cleared : Client := { client with panel := { client.panel with acceptedId := none } }
  match client.panel.selected with
  | some conversationId => cleared.post conversationId question key options
  | none =>
      let requested := cleared.requestConversation
      { requested with
        panel :=
          { requested.panel with
            sending := some { question, key, options, phase := .creating client.attempts } } }

/-- A new key, drawn for what the student asks for. -/
def record (client : Client) (send : Send) : Client :=
  { client with drawn := client.drawn ++ [send.key], sends := client.sends ++ [send] }

/-- A send under a new key. -/
def sendNew (client : Client) (question key : String) (options : SendOptions) : Client :=
  (client.record ⟨question, key, options⟩).send question key options

/-- The start of `refresh(id)`. -/
def refresh (client : Client) (conversationId : UUID) : Client :=
  { client with
    panel := { client.panel with historyRequest := client.panel.historyRequest + 1 }
    calls := client.calls ++ [{ number := client.panel.historyRequest + 1, conversationId }] }

/-- The rest of `refresh(id)`, with the rows in hand. -/
def display (client : Client) (number : Nat) (rows : List MessageView) : Client :=
  if number = client.panel.historyRequest then
    { client with
      panel :=
        { client.panel with
          messages := rows
          retry := if client.panel.finished rows = [] then client.panel.retry else none }
      settled := client.settled ++ client.panel.finished rows }
  else client

/-- The `catch` of `send`. -/
def failSend (client : Client) (sending : Sending) : Client :=
  { client with
    panel :=
      { client.panel with sending := none, retry := some ⟨sending.question, sending.key⟩ } }

/-- The end of a `send` that nothing interrupted. -/
def endSend (client : Client) (messageId : UUID) : Client :=
  { client with
    panel := { client.panel with sending := none, retry := none }
    settled := client.settled ++ [messageId] }

/-- A call of `send` at another await. -/
def moveSend (client : Client) (sending : Sending) (phase : SendPhase) : Client :=
  { client with panel := { client.panel with sending := some { sending with phase } } }

end Client

/-- A message is stored and not pending any more. -/
def Dialogue.Over (dialogue : Dialogue) (messageId : UUID) : Prop :=
  ∃ row ∈ dialogue.messages, row.id = messageId ∧ row.state ≠ .pending

/-- What happens in the panel, or to its requests on the way. -/
inductive ClientStep (dialogue : Dialogue) : Client → Client → Prop where
  /-- The list of the conversations came, with the one to open, or failed. -/
  | listed (client : Client) (conversationId : Option UUID)
      (loading : client.panel.loader = some .listing) :
      ClientStep dialogue client
        { client with
          panel :=
            { client.panel with
              selected := conversationId, loader := conversationId.map fun _ => .opening }
          calls := client.calls ++ conversationId.toList.map fun id =>
            { number := 0, conversationId := id } }
  /-- The history of the first conversation came. -/
  | opened (client : Client) (call : HistoryCall) (rows : List MessageView)
      (loading : client.panel.loader = some .opening) (running : call ∈ client.calls)
      (returned : call.loop = .returned rows) :
      ClientStep dialogue client
        { client with panel := { client.panel with messages := rows, loader := none } }
  /-- `selectConversation(id)` -/
  | select (client : Client) (conversationId : UUID) (free : client.panel.Free) :
      ClientStep dialogue client
        ({ client with
          panel :=
            { client.panel with
              retry := none, acceptedId := none
              loader := some (.selecting (client.panel.historyRequest + 1) conversationId) } }
          |>.refresh conversationId)
  /-- The history of the selected conversation came. -/
  | selected (client : Client) (call : HistoryCall) (rows : List MessageView)
      (loading : client.panel.loader = some (.selecting call.number call.conversationId))
      (running : call ∈ client.calls) (returned : call.loop = .returned rows) :
      ClientStep dialogue client
        (let shown := client.display call.number rows
        { shown with
          panel := { shown.panel with selected := some call.conversationId, loader := none } })
  /-- `newConversation()` -/
  | newConversation (client : Client) (free : client.panel.Free) :
      ClientStep dialogue client
        (let requested := client.requestConversation
        { requested with
          panel := { requested.panel with loader := some (.creating client.attempts) } })
  /-- The new conversation came. -/
  | conversationOpened (client : Client) (attempt : Nat) (conversationId : UUID) (fresh : String)
      (loading : client.panel.loader = some (.creating attempt))
      (answered : (attempt, conversationId) ∈ client.created) (unused : fresh ∉ client.drawn) :
      ClientStep dialogue client
        (let created := client.openCreated conversationId fresh
        { created with panel := { created.panel with loader := none } })
  /-- What was loading failed. -/
  | loadFailed (client : Client) :
      ClientStep dialogue client { client with panel := { client.panel with loader := none } }
  /-- A question is typed. -/
  | ask (client : Client) (question key : String) (free : client.panel.Free)
      (typed : question ≠ "") (unused : key ∉ client.drawn) :
      ClientStep dialogue client (client.sendNew question key {})
  /-- An action of a message is chosen. -/
  | act (client : Client) (action : Contract.Action) (messageId : UUID) (label key : String)
      (options : SendOptions) (idle : client.panel.Idle) (unused : key ∉ client.drawn)
      (isAction : actionOptions action messageId = some (label, options)) :
      ClientStep dialogue client (client.sendNew label key options)
  /-- The recover button is pressed. -/
  | recover (client : Client) (retry : Retry) (offered : client.panel.retry = some retry)
      (enabled : client.panel.sending = none) :
      ClientStep dialogue client (client.send retry.question retry.key {})
  /-- The conversation of a send came; the turn is posted to it. -/
  | created (client : Client) (sending : Sending) (attempt : Nat) (conversationId : UUID)
      (fresh : String) (isSending : client.panel.sending = some sending)
      (phase : sending.phase = .creating attempt)
      (answered : (attempt, conversationId) ∈ client.created) (unused : fresh ∉ client.drawn) :
      ClientStep dialogue client
        ((client.openCreated conversationId fresh).post conversationId sending.question sending.key
          sending.options)
  /-- The response of a post came. -/
  | answered (client : Client) (sending : Sending) (answer : Answer)
      (isSending : client.panel.sending = some sending)
      (phase : sending.phase = .posting answer.post.attempt) (known : answer ∈ client.answers) :
      ClientStep dialogue client
        (client.moveSend sending
          (.reading answer.post.conversationId answer.messageId false false))
  /-- The event `message.accepted` came. -/
  | announced (client : Client) (sending : Sending) (conversationId messageId : UUID)
      (isSending : client.panel.sending = some sending)
      (phase : sending.phase = .reading conversationId messageId false false) :
      ClientStep dialogue client
        (let moved := client.moveSend sending (.reading conversationId messageId true false)
        { moved with panel := { moved.panel with acceptedId := some messageId } }
          |>.refresh conversationId)
  /-- The last event came; the service had read the message before. -/
  | ended (client : Client) (sending : Sending) (conversationId messageId : UUID)
      (isSending : client.panel.sending = some sending)
      (phase : sending.phase = .reading conversationId messageId true false)
      (finished : dialogue.Over messageId) :
      ClientStep dialogue client
        (client.moveSend sending (.reading conversationId messageId true true))
  /-- The stream ended, early or not. -/
  | closed (client : Client) (sending : Sending) (conversationId messageId : UUID)
      (announced terminal : Bool) (isSending : client.panel.sending = some sending)
      (phase : sending.phase = .reading conversationId messageId announced terminal) :
      ClientStep dialogue client
        ((client.refresh conversationId).moveSend sending
          (.refreshing (client.panel.historyRequest + 1) messageId terminal))
  /-- The last refresh of a send came. -/
  | refreshed (client : Client) (sending : Sending) (call : HistoryCall) (rows : List MessageView)
      (messageId : UUID) (terminal : Bool) (isSending : client.panel.sending = some sending)
      (phase : sending.phase = .refreshing call.number messageId terminal)
      (running : call ∈ client.calls) (returned : call.loop = .returned rows) :
      ClientStep dialogue client
        (let shown := client.display call.number rows
        if terminal then shown.endSend messageId else shown.failSend sending)
  /-- A send failed at any of its awaits. -/
  | failed (client : Client) (sending : Sending) (isSending : client.panel.sending = some sending) :
      ClientStep dialogue client (client.failSend sending)
  /-- The timer asks for the history while a message is pending. -/
  | poll (client : Client) (conversationId : UUID) (isPending : client.panel.pending = true)
      (isSelected : client.panel.selected = some conversationId) :
      ClientStep dialogue client (client.refresh conversationId)
  /-- The rows of a refresh that nobody waits for came. -/
  | polled (client : Client) (call : HistoryCall) (rows : List MessageView)
      (running : call ∈ client.calls) (returned : call.loop = .returned rows) :
      ClientStep dialogue client (client.display call.number rows)
  /-- Requests are lost on their way, or refused. -/
  | lost (client : Client) (creations : List Creation) (posts : List Post) (calls : List HistoryCall)
      (fewerCreations : creations.Sublist client.creations)
      (fewerPosts : posts.Sublist client.posts) (fewerCalls : calls.Sublist client.calls) :
      ClientStep dialogue client { client with creations, posts, calls }

/-! ### The panel and the system -/

structure PanelRun where
  world : World
  client : Client

/-- The panel is mounted. -/
def PanelRun.start (world : World) (key : String) : PanelRun where
  world
  client := { panel := { creationKey := key }, drawn := [key] }

/-- The panel is mounted beside a system that is under way. -/
def PanelRun.Initial (deployment : Deployment) (data : ValidatorData) (run : PanelRun) : Prop :=
  ∃ world key, Reachable World.Initial (World.Step deployment data) world ∧
    run = .start world key

/-- The step accepts the request, and hands the acceptance to the runtime. -/
structure World.Serves (data : ValidatorData) (who : AuthenticatedIdentity) (before after : World)
    (request : Question) (accepted : AcceptedMessage) : Prop where
  accepts : ∃ settings readings,
    ConversationService.accept settings data.unicode before.identity before.backend.material who
      request readings before.tutor.dialogue = .ok (accepted, after.tutor.dialogue)
  hands : after.tutor.posts = before.tutor.posts ++ [accepted]

/-- The panel of a student with the course open, and everything else in the system. -/
inductive PanelRun.Step (deployment : Deployment) (data : ValidatorData)
    (who : AuthenticatedIdentity) (courseId : UUID) : PanelRun → PanelRun → Prop where
  | world (run : PanelRun) (after : World) (step : World.Step deployment data run.world after) :
      Step deployment data who courseId run { run with world := after }
  | client (run : PanelRun) (after : Client)
      (step : ClientStep run.world.tutor.dialogue run.client after) :
      Step deployment data who courseId run { run with client := after }
  /-- The service creates the conversation, or finds it by its key. -/
  | createConversation (run : PanelRun) (earlier later : List Creation) (creation : Creation)
      (freshId : UUID) (createdAt : Time) (shown : ConversationView) (dialogue : Dialogue)
      (requested : run.client.creations = earlier ++ creation :: later)
      (ok : ConversationService.create run.world.identity run.world.backend.material who courseId
        (some creation.key) freshId createdAt run.world.tutor.dialogue = .ok (shown, dialogue)) :
      Step deployment data who courseId run
        { world := run.world.withDialogue dialogue
          client :=
            { run.client with
              creations := earlier ++ later
              created := run.client.created ++ [(creation.attempt, shown.id)] } }
  /-- The service accepts a turn, or finds it by its key. -/
  | askQuestion (run : PanelRun) (after : World) (earlier later : List Post) (post : Post)
      (request : Question) (correlationId : String) (accepted : AcceptedMessage)
      (requested : run.client.posts = earlier ++ post :: later)
      (valid : Docta.askQuestion post.conversationId post.body (some post.key) correlationId =
        .ok request)
      (step : World.Step deployment data run.world after)
      (serves : run.world.Serves data who after request accepted) :
      Step deployment data who courseId run
        { world := after
          client :=
            { run.client with
              posts := earlier ++ later
              answers := run.client.answers ++ [⟨post, accepted.message.id⟩] } }
  /-- The service answers a page of a history. -/
  | page (run : PanelRun) (earlier later : List HistoryCall) (call : HistoryCall)
      (messages : List MessageView) (cursor : Nat) (clock completed : Clock) (page : HistoryView)
      (dialogue : Dialogue) (requested : run.client.calls = earlier ++ call :: later)
      (reading : call.loop = .reading messages cursor)
      (ok : HistoryRead.page who call.conversationId 100 run.world cursor clock completed =
        .ok (page, dialogue)) :
      Step deployment data who courseId run
        { world := run.world.withDialogue dialogue
          client :=
            { run.client with
              calls := earlier ++ { call with loop := .receive messages cursor page } :: later } }

end Docta
