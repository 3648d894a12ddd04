import TrackFlow.Chat.Panel
import TrackFlow.LTS.Machine

/-!
# One chat session and its client

The generation manager, as one session sees it, and a client that connects to the session, reads
its snapshot, handles the events that are published, and disconnects at any time.  The socket
subscribes to the session's events before it reads anything, so what is published while it reads
is queued behind the snapshot.

* `serve` : the session; a request, or a step of the task of the active generation.
* `chat` : the machine; the session and the stages of the client's socket.
* `Told` : a client that has received a number of tokens is told what a step stores.
* `Converges` : the condition on a step.
-/

namespace TrackFlow

namespace Chat

/-! ## The session -/

/-- The messages of a session, its entry in `_active`, and the generation ids drawn so far. -/
structure ChatSession where
  messages : List ChatMessage
  active : Option ActiveGeneration
  drawn : List String
  deriving DecidableEq, Repr

/-- What happens to the session. -/
inductive SessionLabel
  | start (question generationId : String)
  | interrupt
  /-- The socket refuses a request, and says so on the session's topic. -/
  | reject (detail : String)
  | run (step : RunStep)
  deriving DecidableEq, Repr

/-- The session behind a label, and what is published. -/
def serve (sessionId ownerUserId : String) (s : ChatSession) :
    SessionLabel → Option (ChatSession × List ChatEvent)
  | .start question generationId =>
    if s.active = none ∧ generationId ∉ s.drawn then
      some ({ s with
        active := some (.new generationId sessionId ownerUserId question)
        drawn := generationId :: s.drawn }, [])
    else none
  | .interrupt => do
    let g ← s.active
    some ({ s with active := some { g with cancel := true } }, [])
  | .reject detail => some (s, [.generationFailed none detail])
  | .run step => do
    let g ← s.active
    let e ← g.advance s.messages step
    some ({ s with
      messages := e.messages
      active := if e.generation.phase = .ended then none else some e.generation }, e.events)

/-- `active_snapshot`. -/
def activeSnapshot (ownerUserId : String) (active : Option ActiveGeneration) :
    Option ActiveSnapshot :=
  (active.filter fun g => g.ownerUserId = ownerUserId).map fun g =>
    ⟨g.generationId, g.partialAnswer, g.tokenSequence⟩

/-- `session_snapshot` returns the first messages, by their sequence. -/
def snapshotLimit : ℕ := 1000

/-- The messages of `session_snapshot`. -/
def sessionSnapshot (messages : List ChatMessage) : List ChatMessage := messages.take snapshotLimit

/-! ## The client -/

/-- How far the socket of the client is, with the messages it has read and the events that are
queued.  `lost` remembers that, since the messages were read, a step stored or dropped something
that a client is not told by what is queued. -/
inductive Connection
  | offline
  | subscribed (queue : List ChatEvent)
  | read (messages : List ChatMessage) (queue : List ChatEvent) (lost : Bool)
  /-- `active_snapshot` returned nothing, and the messages are read again. -/
  | refreshing (queue : List ChatEvent)
  /-- The snapshot was sent; the frames have not been handled yet. -/
  | connected (frames : List ChatSocketEvent)
  deriving DecidableEq, Repr

/-- What is published reaches the queue of the subscription, or the socket. -/
def Connection.publish (events : List ChatEvent) : Connection → Connection
  | offline => offline
  | subscribed queue => subscribed (queue ++ events)
  | read messages queue lost => read messages (queue ++ events) lost
  | refreshing queue => refreshing (queue ++ events)
  | connected frames => connected (frames ++ events.map .published)

/-- The turn may still store its answer. -/
def Open : Phase → Bool
  | .answering _ | .answered _ | .completing _ | .cancelled => true
  | _ => false

/-- A client that has received `tokens` tokens of the turn is told what the step stores: it has a
draft that the turn's last event turns into the stored row, or it has no draft and none is
stored. -/
def Told (g : ActiveGeneration) (tokens : ℕ) : RunStep → Prop
  | .prepareTurn outcome _ => outcome ≠ .raisesCommitted
  | .raiseError => tokens = 0
  | .completeTurn outcome _ =>
    if outcome = .raises then tokens = 0 else outcome = .returns ∧ 0 < tokens
  | .persistInterrupted outcome _ =>
    if Python.blank g.partialAnswer.toList = true ∨ outcome = .raises then tokens = 0
    else outcome = .returns ∧ tokens = g.tokenParts.length
  | _ => True

instance (g : ActiveGeneration) (tokens : ℕ) : (step : RunStep) → Decidable (Told g tokens step)
  | .prepareTurn outcome _ => inferInstanceAs (Decidable (outcome ≠ .raisesCommitted))
  | .raiseError => inferInstanceAs (Decidable (tokens = 0))
  | .completeTurn outcome _ => inferInstanceAs (Decidable
      (if outcome = .raises then tokens = 0 else outcome = .returns ∧ 0 < tokens))
  | .persistInterrupted outcome _ => inferInstanceAs (Decidable
      (if Python.blank g.partialAnswer.toList = true ∨ outcome = .raises then tokens = 0
      else outcome = .returns ∧ tokens = g.tokenParts.length))
  | .publish | .token _ | .answer _ | .raiseCancelled | .checkCancel | .finish =>
    inferInstanceAs (Decidable True)

/-- The tokens of a generation that are queued. -/
def queuedTokens (generationId : String) (queue : List ChatEvent) : ℕ :=
  (queue.filter (ChatEvent.isTokenOf generationId)).length

/-- The queue holds tokens of the active turn only, and this turn may still store its answer. -/
def Current (active : Option ActiveGeneration) (queue : List ChatEvent) : Prop :=
  ∀ event ∈ queue, event.isToken = true →
    ∃ g ∈ active, event.isTokenOf g.generationId = true ∧ Open g.phase = true

instance (active : Option ActiveGeneration) (queue : List ChatEvent) :
    Decidable (Current active queue) := by
  cases active <;> unfold Current <;> infer_instance

/-- A label is about to happen while the client has read the messages only. -/
def Connection.observe (active : Option ActiveGeneration) (l : SessionLabel) :
    Connection → Connection
  | read messages queue lost =>
    match active, l with
    | some g, .run step =>
      read messages queue (lost || !decide (Told g (queuedTokens g.generationId queue) step))
    | _, _ => read messages queue lost
  | connection => connection

/-- The session, the socket of its client, and the panel. -/
structure ChatState extends ChatSession where
  connection : Connection
  panel : Panel

/-- A session with its messages, and a client that is not connected. -/
def ChatState.initial (messages : List ChatMessage) : ChatState where
  messages := messages
  active := none
  drawn := []
  connection := .offline
  panel := .empty

/-- What happens to the session or to its client. -/
inductive ChatLabel
  | server (l : SessionLabel)
  | subscribe
  | readMessages
  | readActive
  | readAgain
  /-- The panel handles the next frame. -/
  | handle
  | disconnect
  deriving DecidableEq, Repr

/-- The session, and the stages of `chat_socket`. -/
def chat (sessionId ownerUserId : String) : Machine ChatState ChatLabel where
  next s
    | .server l => do
      let (session, events) ← serve sessionId ownerUserId s.toChatSession l
      some { s with
        toChatSession := session
        connection := (s.connection.observe s.active l).publish events }
    | .subscribe =>
      match s.connection with
      | .offline => some { s with connection := .subscribed [] }
      | _ => none
    | .readMessages =>
      match s.connection with
      | .subscribed queue =>
        some { s with
          connection :=
            .read (sessionSnapshot s.messages) queue (!decide (Current s.active queue)) }
      | _ => none
    | .readActive =>
      match s.connection with
      | .read messages queue _ =>
        match activeSnapshot ownerUserId s.active with
        | none => some { s with connection := .refreshing queue }
        | some active =>
          some { s with
            connection := .connected
              (.sessionSnapshot messages (some active) :: queue.map .published) }
      | _ => none
    | .readAgain =>
      match s.connection with
      | .refreshing queue =>
        some { s with
          connection := .connected
            (.sessionSnapshot (sessionSnapshot s.messages) none :: queue.map .published) }
      | _ => none
    | .handle =>
      match s.connection with
      | .connected (frame :: frames) =>
        some { s with
          connection := .connected frames
          panel := s.panel.handleSocketEvent frame }
      | _ => none
    | .disconnect =>
      match s.connection with
      | .offline => none
      | _ => some { s with connection := .offline }

/-! ## The condition -/

/-- The messages that were read end with a question, and no question has been stored since. -/
def Asked (snapshot messages : List ChatMessage) : Prop :=
  (∃ m ∈ snapshot.getLast?, m.role = .user) ∧
    ∀ m ∈ messages.drop snapshot.length, m.role ≠ .user

instance (snapshot messages : List ChatMessage) : Decidable (Asked snapshot messages) := by
  unfold Asked
  infer_instance

/-- The event reports a stored answer. -/
def ChatEvent.reports (generationId : String) : ChatEvent → Bool
  | generationCompleted g _ _ _ => g = generationId
  | generationInterrupted g (some _) => g = generationId
  | _ => false

/-- The turn may still store an answer, or its stored answer is reported behind the snapshot. -/
def Reported (g : ActiveGeneration) (queue : List ChatEvent) : Prop :=
  match g.phase with
  | .completed _ _ _ => True
  | .interrupted messageId => messageId ≠ none
  | .ending => ∃ event ∈ queue, event.reports g.generationId = true
  | phase => Open phase = true

instance (g : ActiveGeneration) (queue : List ChatEvent) : Decidable (Reported g queue) := by
  unfold Reported
  split <;> infer_instance

/-- A snapshot of the messages `snapshot` and of the tokens of the active generation fits what is
queued. -/
def Resumes (g : ActiveGeneration) (snapshot messages : List ChatMessage)
    (queue : List ChatEvent) : Prop :=
  (∀ event ∈ queue, event.isToken = true → event.isTokenOf g.generationId = true) ∧
    Asked snapshot messages ∧ Reported g queue

instance (g : ActiveGeneration) (snapshot messages : List ChatMessage) (queue : List ChatEvent) :
    Decidable (Resumes g snapshot messages queue) := by
  unfold Resumes
  infer_instance

/-- **The condition on a step.**  A connected client is told what a step stores; and what a
client reads when it connects fits what is queued. -/
def Converges (s : ChatState) : ChatLabel → Prop
  | .server (.run step) =>
    match s.connection with
    | .connected _ => ∀ g ∈ s.active, Told g g.tokenParts.length step
    | _ => True
  | .readActive =>
    match s.connection with
    | .read messages queue lost =>
      ∀ g ∈ s.active,
        if g.tokenParts = [] then lost = false else Resumes g messages s.messages queue
    | _ => True
  | .readAgain =>
    match s.connection with
    | .refreshing queue => Current s.active queue
    | _ => True
  | _ => True

instance (s : ChatState) (l : ChatLabel) : Decidable (Converges s l) := by
  unfold Converges
  repeat' split
  all_goals infer_instance

end Chat

end TrackFlow
