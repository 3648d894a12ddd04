import TrackFlow.Python.Text
import Mathlib.Data.Fintype.EquivFin

/-!
# The turn of one chat generation

`_run` of the chat's generation manager, from `_prepare_turn` to its `finally` clause, with the
database calls it makes and the events it publishes.

* `ChatMessage`, `ChatEvent` : the rows of a session and the events of its topic.
* `Phase` : the point the task has reached; `RunStep` : what happens to it next.
* `ActiveGeneration.advance` : one step of the task.
* `ActiveGeneration.Lifecycle` : what a generation has published, by the point it has reached.
* `ActiveGeneration.Lifecycle.advance` : a step keeps it, unless the partial answer of an
  interrupted turn cannot be stored.
-/

namespace TrackFlow

namespace Chat

/-- The roles of `chat_messages`. -/
inductive ChatRole
  | user
  | assistant
  deriving DecidableEq, Repr

/-- A row of `chat_messages`. -/
structure ChatMessage where
  messageId : String
  role : ChatRole
  content : String
  sequence : ℕ
  interrupted : Bool
  deriving DecidableEq, Repr

/-- `AgentRunResult`, as far as a turn reads it. -/
structure AgentRunResult where
  answer : Option String
  routeTaken : String
  deriving DecidableEq, Repr

/-- The events of a session's topic.  A failure that is not about a generation carries none. -/
inductive ChatEvent
  | userMessage (generationId : String) (message : ChatMessage)
  | tokenChunk (generationId token : String) (sequence : ℕ)
  | generationCompleted (generationId messageId routeTaken answer : String)
  | generationInterrupted (generationId : String) (messageId : Option String)
  | generationFailed (generationId : Option String) (detail : String)
  deriving DecidableEq, Repr

namespace ChatEvent

/-- The `generation_id` of an event. -/
def generationId : ChatEvent → Option String
  | userMessage g _ => some g
  | tokenChunk g _ _ => some g
  | generationCompleted g _ _ _ => some g
  | generationInterrupted g _ => some g
  | generationFailed g _ => g

/-- The event that opens a turn. -/
def opens : ChatEvent → Bool
  | userMessage _ _ => true
  | _ => false

/-- The events that end a turn. -/
def terminal : ChatEvent → Bool
  | generationCompleted _ _ _ _ => true
  | generationInterrupted _ _ => true
  | generationFailed _ _ => true
  | _ => false

/-- The `sequence` of a token. -/
def tokenSequence : ChatEvent → Option ℕ
  | tokenChunk _ _ n => some n
  | _ => none

end ChatEvent

/-! ## The rows of a session -/

/-- `next_sequence` of `append_message_for_user`. -/
def nextSequence (messages : List ChatMessage) : ℕ :=
  (messages.map ChatMessage.sequence).foldr max 0 + 1

/-- The row `append_message_for_user` adds. -/
def newMessage (messages : List ChatMessage) (messageId : String) (role : ChatRole)
    (content : String) (interrupted : Bool) : ChatMessage where
  messageId := messageId
  role := role
  content := content
  sequence := nextSequence messages
  interrupted := interrupted

/-- A drawn key is the key of no row. -/
def Fresh (messageId : String) (messages : List ChatMessage) : Prop :=
  ∀ m ∈ messages, m.messageId ≠ messageId

instance (messageId : String) (messages : List ChatMessage) :
    Decidable (Fresh messageId messages) := by
  unfold Fresh
  infer_instance

/-- What a call that writes to the database does: it returns, it raises and nothing is stored, or
it raises after its commit. -/
inductive Outcome
  | returns
  | raises
  | raisesCommitted
  deriving DecidableEq, Repr

/-- The rows after a call that adds one. -/
def Outcome.store (messages : List ChatMessage) (message : ChatMessage) :
    Outcome → List ChatMessage
  | raises => messages
  | _ => messages ++ [message]

/-! ## The task -/

/-- The point `_run` has reached, with the values it holds there. -/
inductive Phase
  /-- `_prepare_turn` is under way. -/
  | preparing
  /-- The turn is prepared, and `user_message` is published next. -/
  | prepared (message : ChatMessage)
  /-- `run_agent` is under way; a token may be recorded and not yet published. -/
  | answering (pending : Option (String × ℕ))
  /-- `run_agent` has returned. -/
  | answered (result : AgentRunResult)
  /-- `_complete_turn` is under way. -/
  | completing (result : AgentRunResult)
  /-- The answer is stored, and `generation_completed` is published next. -/
  | completed (messageId routeTaken answer : String)
  /-- The handler of `GenerationCancelled`: `_persist_interrupted` is under way. -/
  | cancelled
  /-- The partial answer is stored, and `generation_interrupted` is published next. -/
  | interrupted (messageId : Option String)
  /-- The handler of `Exception`: `generation_failed` is published next. -/
  | failed
  /-- The `finally` clause. -/
  | ending
  | ended
  deriving DecidableEq, Repr

/-- `ActiveGeneration`, with the arguments and the position of its task. -/
structure ActiveGeneration where
  generationId : String
  sessionId : String
  ownerUserId : String
  question : String
  cancel : Bool
  tokenParts : List String
  tokenSequence : ℕ
  phase : Phase
  deriving DecidableEq, Repr

/-- What `start` creates. -/
def ActiveGeneration.new (generationId sessionId ownerUserId question : String) :
    ActiveGeneration where
  generationId := generationId
  sessionId := sessionId
  ownerUserId := ownerUserId
  question := question
  cancel := false
  tokenParts := []
  tokenSequence := 0
  phase := .preparing

/-- What happens to the task next. -/
inductive RunStep
  | prepareTurn (outcome : Outcome) (messageId : String)
  /-- The task publishes the event it holds. -/
  | publish
  /-- `run_agent` calls `publish_token`. -/
  | token (delta : String)
  | answer (result : AgentRunResult)
  /-- A poll of the cancellation inside `run_agent` raises `GenerationCancelled`. -/
  | raiseCancelled
  | raiseError
  /-- The test of `cancel` behind `run_agent`. -/
  | checkCancel
  | completeTurn (outcome : Outcome) (messageId : String)
  | persistInterrupted (outcome : Outcome) (messageId : String)
  /-- The `finally` clause takes the generation off the active ones. -/
  | finish
  deriving DecidableEq, Repr

/-- The detail of a failed turn. -/
def unavailable : String := "The assistant is temporarily unavailable."

/-- The state after a step, and what the step publishes. -/
structure Effect where
  generation : ActiveGeneration
  messages : List ChatMessage
  events : List ChatEvent := []

namespace ActiveGeneration

/-- The partial answer. -/
def partialAnswer (g : ActiveGeneration) : String := String.join g.tokenParts

/-- The task moves on. -/
def goto (g : ActiveGeneration) (phase : Phase) : ActiveGeneration := { g with phase := phase }

/-- `publish_token` records a delta. -/
def record (g : ActiveGeneration) (delta : String) : ActiveGeneration :=
  { g with
    tokenParts := g.tokenParts ++ [delta]
    tokenSequence := g.tokenSequence + 1
    phase := .answering (some (delta, g.tokenSequence + 1)) }

/-- The phase behind a call that writes: an exception goes to the handler `caught`. -/
def after (outcome : Outcome) (returned caught : Phase) : Phase :=
  if outcome = .returns then returned else caught

/-- One step of `_run`; `none` if the task is not at a point where the step can happen. -/
def advance (g : ActiveGeneration) (messages : List ChatMessage) (step : RunStep) :
    Option Effect :=
  match g.phase, step with
  | .preparing, .prepareTurn outcome messageId =>
    let message := newMessage messages messageId .user g.question false
    if Fresh messageId messages then
      some { generation := g.goto (after outcome (.prepared message) .failed)
             messages := outcome.store messages message }
    else none
  | .prepared message, .publish =>
    some { generation := g.goto (.answering none)
           messages := messages
           events := [.userMessage g.generationId message] }
  | .answering none, .token delta =>
    if g.cancel then some { generation := g.goto .cancelled, messages := messages }
    -- a delta is emitted only if it is not empty
    else if delta = "" then none
    else some { generation := g.record delta, messages := messages }
  | .answering (some (token, sequence)), .publish =>
    some { generation := g.goto (.answering none)
           messages := messages
           events := [.tokenChunk g.generationId token sequence] }
  | .answering none, .answer result =>
    some { generation := g.goto (.answered result), messages := messages }
  | .answering none, .raiseCancelled =>
    if g.cancel then some { generation := g.goto .cancelled, messages := messages } else none
  | .answering none, .raiseError =>
    some { generation := g.goto .failed, messages := messages }
  | .answered result, .checkCancel =>
    some { generation := g.goto (if g.cancel then .cancelled else .completing result)
           messages := messages }
  | .completing result, .completeTurn outcome messageId =>
    match result.answer with
    | none => if outcome = .raises then some ⟨g.goto .failed, messages, []⟩ else none
    | some answer =>
      -- `not result.answer` raises for the empty answer as well
      if answer = "" ∧ outcome ≠ .raises then none
      else if Fresh messageId messages then
        some { generation :=
                g.goto (after outcome (.completed messageId result.routeTaken answer) .failed)
               messages :=
                outcome.store messages (newMessage messages messageId .assistant answer false) }
      else none
  | .completed messageId routeTaken answer, .publish =>
    some { generation := g.goto .ending
           messages := messages
           events := [.generationCompleted g.generationId messageId routeTaken answer] }
  | .cancelled, .persistInterrupted outcome messageId =>
    if Python.blank g.partialAnswer.toList then
      -- no row; an exception leaves the handler, and the task ends with no event
      some { generation := g.goto (after outcome (.interrupted none) .ending)
             messages := messages }
    else if Fresh messageId messages then
      some { generation := g.goto (after outcome (.interrupted (some messageId)) .ending)
             messages := outcome.store messages
              (newMessage messages messageId .assistant g.partialAnswer true) }
    else none
  | .interrupted messageId, .publish =>
    some { generation := g.goto .ending
           messages := messages
           events := [.generationInterrupted g.generationId messageId] }
  | .failed, .publish =>
    some { generation := g.goto .ending
           messages := messages
           events := [.generationFailed (some g.generationId) unavailable] }
  | .ending, .finish => some { generation := g.goto .ended, messages := messages }
  | _, _ => none

/-! ## What a step can do -/

/-- The steps of `advance`, one constructor for each branch. -/
inductive Advanced (g : ActiveGeneration) (messages : List ChatMessage) :
    RunStep → Effect → Prop
  | prepareTurn {outcome : Outcome} {messageId : String} (phase : g.phase = .preparing)
      (fresh : Fresh messageId messages) :
      Advanced g messages (.prepareTurn outcome messageId)
        ⟨g.goto (after outcome
            (.prepared (newMessage messages messageId .user g.question false)) .failed),
          outcome.store messages (newMessage messages messageId .user g.question false), []⟩
  | publishUser {message : ChatMessage} (phase : g.phase = .prepared message) :
      Advanced g messages .publish
        ⟨g.goto (.answering none), messages, [.userMessage g.generationId message]⟩
  | token {delta : String} (phase : g.phase = .answering none) (cancel : g.cancel = false)
      (nonempty : delta ≠ "") : Advanced g messages (.token delta) ⟨g.record delta, messages, []⟩
  | publishToken {token : String} {sequence : ℕ}
      (phase : g.phase = .answering (some (token, sequence))) :
      Advanced g messages .publish
        ⟨g.goto (.answering none), messages, [.tokenChunk g.generationId token sequence]⟩
  | answer {result : AgentRunResult} (phase : g.phase = .answering none) :
      Advanced g messages (.answer result) ⟨g.goto (.answered result), messages, []⟩
  | cancel {step : RunStep}
      (phase : g.phase = .answering none ∨ ∃ result, g.phase = .answered result)
      (cancel : g.cancel = true) : Advanced g messages step ⟨g.goto .cancelled, messages, []⟩
  | raiseError (phase : g.phase = .answering none) :
      Advanced g messages .raiseError ⟨g.goto .failed, messages, []⟩
  | checkCancel {result : AgentRunResult} (phase : g.phase = .answered result)
      (cancel : g.cancel = false) :
      Advanced g messages .checkCancel ⟨g.goto (.completing result), messages, []⟩
  | completeRaises {result : AgentRunResult} {messageId : String}
      (phase : g.phase = .completing result) :
      Advanced g messages (.completeTurn .raises messageId) ⟨g.goto .failed, messages, []⟩
  | complete {result : AgentRunResult} {outcome : Outcome} {messageId answer : String}
      (phase : g.phase = .completing result) (commits : outcome ≠ .raises)
      (result_answer : result.answer = some answer) (nonempty : answer ≠ "")
      (fresh : Fresh messageId messages) :
      Advanced g messages (.completeTurn outcome messageId)
        ⟨g.goto (after outcome (.completed messageId result.routeTaken answer) .failed),
          messages ++ [newMessage messages messageId .assistant answer false], []⟩
  | publishCompleted {messageId routeTaken answer : String}
      (phase : g.phase = .completed messageId routeTaken answer) :
      Advanced g messages .publish
        ⟨g.goto .ending, messages,
          [.generationCompleted g.generationId messageId routeTaken answer]⟩
  | interruptBlank {outcome : Outcome} {messageId : String} (phase : g.phase = .cancelled)
      (blank : Python.blank g.partialAnswer.toList = true) :
      Advanced g messages (.persistInterrupted outcome messageId)
        ⟨g.goto (after outcome (.interrupted none) .ending), messages, []⟩
  | interrupt {outcome : Outcome} {messageId : String} (phase : g.phase = .cancelled)
      (blank : Python.blank g.partialAnswer.toList = false) (fresh : Fresh messageId messages) :
      Advanced g messages (.persistInterrupted outcome messageId)
        ⟨g.goto (after outcome (.interrupted (some messageId)) .ending),
          outcome.store messages (newMessage messages messageId .assistant g.partialAnswer true),
          []⟩
  | publishInterrupted {messageId : Option String} (phase : g.phase = .interrupted messageId) :
      Advanced g messages .publish
        ⟨g.goto .ending, messages, [.generationInterrupted g.generationId messageId]⟩
  | publishFailed (phase : g.phase = .failed) :
      Advanced g messages .publish
        ⟨g.goto .ending, messages, [.generationFailed (some g.generationId) unavailable]⟩
  | finish (phase : g.phase = .ending) :
      Advanced g messages .finish ⟨g.goto .ended, messages, []⟩

theorem Advanced.of_advance {g : ActiveGeneration} {messages : List ChatMessage} {step : RunStep}
    {e : Effect} (h : g.advance messages step = some e) : Advanced g messages step e := by
  unfold advance at h
  split at h
  case h_1 hphase =>
    split_ifs at h with hfresh
    cases h
    exact .prepareTurn hphase hfresh
  case h_2 hphase => cases h; exact .publishUser hphase
  case h_3 hphase =>
    split_ifs at h with hcancel hdelta
    · cases h; exact .cancel (.inl hphase) hcancel
    · cases h; exact .token hphase (by simpa using hcancel) hdelta
  case h_4 hphase => cases h; exact .publishToken hphase
  case h_5 hphase => cases h; exact .answer hphase
  case h_6 hphase =>
    split_ifs at h with hcancel
    cases h
    exact .cancel (.inl hphase) hcancel
  case h_7 hphase => cases h; exact .raiseError hphase
  case h_8 result hphase =>
    cases hcancel : g.cancel with
    | true => rw [hcancel] at h; cases h; exact .cancel (.inr ⟨result, hphase⟩) hcancel
    | false => rw [hcancel] at h; cases h; exact .checkCancel hphase hcancel
  case h_9 result outcome messageId hphase =>
    cases hanswer : result.answer with
    | none =>
      simp only [hanswer] at h
      split_ifs at h with hraises
      cases h
      exact hraises ▸ .completeRaises hphase
    | some answer =>
      simp only [hanswer] at h
      split_ifs at h with hempty hfresh
      cases h
      by_cases hraises : outcome = .raises
      · subst hraises
        exact .completeRaises hphase
      · have hstore : ∀ message, outcome.store messages message = messages ++ [message] := by
          intro message
          cases outcome with
          | raises => exact (hraises rfl).elim
          | returns => rfl
          | raisesCommitted => rfl
        rw [hstore]
        exact .complete hphase hraises hanswer (fun he => hempty ⟨he, hraises⟩) hfresh
  case h_10 hphase => cases h; exact .publishCompleted hphase
  case h_11 hphase =>
    split_ifs at h with hblank hfresh
    · cases h; exact .interruptBlank hphase hblank
    · cases h; exact .interrupt hphase (by simpa using hblank) hfresh
  case h_12 hphase => cases h; exact .publishInterrupted hphase
  case h_13 hphase => cases h; exact .publishFailed hphase
  case h_14 hphase => cases h; exact .finish hphase
  case h_15 => cases h

/-! ## What a generation has published -/

/-- The token events of `parts`, numbered from `n + 1` on. -/
def chunks (generationId : String) : ℕ → List String → List ChatEvent
  | _, [] => []
  | n, part :: parts => .tokenChunk generationId part (n + 1) :: chunks generationId (n + 1) parts

theorem chunks_append (generationId part : String) (n : ℕ) (parts : List String) :
    chunks generationId n (parts ++ [part]) =
      chunks generationId n parts ++ [.tokenChunk generationId part (n + parts.length + 1)] := by
  induction parts generalizing n with
  | nil => rfl
  | cons p parts ih =>
    rw [List.cons_append, chunks, chunks, ih, List.cons_append, List.length_cons]
    congr 4
    omega

/-- The sequences of the tokens are `n + 1` and those that follow. -/
theorem filterMap_tokenSequence_chunks (generationId : String) (n : ℕ) (parts : List String) :
    (chunks generationId n parts).filterMap ChatEvent.tokenSequence =
      List.range' (n + 1) parts.length := by
  induction parts generalizing n with
  | nil => rfl
  | cons p parts ih =>
    rw [chunks, List.filterMap_cons, ih, List.length_cons, List.range'_succ]
    rfl

theorem terminal_of_mem_chunks {generationId : String} {n : ℕ} {parts : List String}
    {event : ChatEvent} (h : event ∈ chunks generationId n parts) : event.terminal = false := by
  induction parts generalizing n with
  | nil => cases h
  | cons p parts ih =>
    rcases List.mem_cons.1 h with rfl | h
    · rfl
    · exact ih h

/-- The opening event and the tokens `parts`. -/
def Opened (g : ActiveGeneration) (parts : List String) (events : List ChatEvent) : Prop :=
  ∃ message, events = .userMessage g.generationId message :: chunks g.generationId 0 parts

/-- What a generation has published, by the point its task has reached. -/
def Published (g : ActiveGeneration) (events : List ChatEvent) : Phase → Prop
  | .preparing | .prepared _ => g.tokenParts = [] ∧ events = []
  | .answering (some (token, sequence)) =>
    ∃ parts, g.tokenParts = parts ++ [token] ∧ sequence = parts.length + 1 ∧ Opened g parts events
  | .answering none | .answered _ | .completing _ | .completed _ _ _ | .cancelled
  | .interrupted _ => Opened g g.tokenParts events
  -- the failure of `_prepare_turn` is published with no opening event before it
  | .failed => g.tokenParts = [] ∧ events = [] ∨ Opened g g.tokenParts events
  | .ending | .ended =>
    ∃ before event, events = before ++ [event] ∧ event.terminal = true ∧
      (before = [] ∨ Opened g g.tokenParts before)

/-- The invariant of one generation and its events. -/
structure Lifecycle (g : ActiveGeneration) (events : List ChatEvent) : Prop where
  sequence : g.tokenSequence = g.tokenParts.length
  published : Published g events g.phase

theorem Lifecycle.new (generationId sessionId ownerUserId question : String) :
    Lifecycle (.new generationId sessionId ownerUserId question) [] where
  sequence := rfl
  published := ⟨rfl, rfl⟩

/-- A request to interrupt changes nothing of it. -/
theorem Lifecycle.interrupt {g : ActiveGeneration} {events : List ChatEvent}
    (h : Lifecycle g events) : Lifecycle { g with cancel := true } events := ⟨h.1, h.2⟩

/-- The phase behind a call that writes. -/
theorem published_after {g : ActiveGeneration} {events : List ChatEvent} {outcome : Outcome}
    {returned caught : Phase} (hr : Published g events returned) (hc : Published g events caught) :
    Published g events (after outcome returned caught) := by
  unfold after
  split_ifs
  · exact hr
  · exact hc

/-- The step is not the exception of `_persist_interrupted`. -/
def Persists : RunStep → Prop
  | .persistInterrupted outcome _ => outcome = .returns
  | _ => True

instance (step : RunStep) : Decidable (Persists step) := by
  cases step <;> unfold Persists <;> infer_instance

/-- **One step.**  A step keeps the invariant, unless it is the exception of
`_persist_interrupted`. -/
theorem Lifecycle.advance {g : ActiveGeneration} {messages : List ChatMessage} {step : RunStep}
    {e : Effect} {events : List ChatEvent} (h : Lifecycle g events) (hstep : Persists step)
    (ha : g.advance messages step = some e) : Lifecycle e.generation (events ++ e.events) := by
  obtain ⟨hsequence, hpublished⟩ := h
  cases Advanced.of_advance ha with
  | prepareTurn hphase =>
    rw [hphase] at hpublished
    refine ⟨hsequence, ?_⟩
    rw [List.append_nil]
    exact published_after (g := g) hpublished (.inl hpublished)
  | @publishUser message hphase =>
    rw [hphase] at hpublished
    obtain ⟨hparts, rfl⟩ := hpublished
    refine ⟨hsequence, message, ?_⟩
    show [ChatEvent.userMessage _ _] = _ :: chunks _ 0 g.tokenParts
    rw [hparts]
    rfl
  | token hphase =>
    rw [hphase] at hpublished
    refine ⟨?_, g.tokenParts, rfl, congrArg (· + 1) hsequence, ?_⟩
    · show g.tokenSequence + 1 = (g.tokenParts ++ [_]).length
      rw [hsequence, List.length_append, List.length_singleton]
    · rw [List.append_nil]
      exact hpublished
  | publishToken hphase =>
    rw [hphase] at hpublished
    obtain ⟨parts, hparts, rfl, message, rfl⟩ := hpublished
    refine ⟨hsequence, message, ?_⟩
    show _ = _ :: chunks g.generationId 0 g.tokenParts
    rw [hparts, chunks_append, List.cons_append, Nat.zero_add]
    rfl
  | answer hphase =>
    rw [hphase] at hpublished
    exact ⟨hsequence, by rw [List.append_nil]; exact hpublished⟩
  | cancel hphase =>
    refine ⟨hsequence, ?_⟩
    rw [List.append_nil]
    rcases hphase with hphase | ⟨result, hphase⟩ <;> rw [hphase] at hpublished <;>
      exact hpublished
  | raiseError hphase =>
    rw [hphase] at hpublished
    exact ⟨hsequence, by rw [List.append_nil]; exact .inr hpublished⟩
  | checkCancel hphase =>
    rw [hphase] at hpublished
    exact ⟨hsequence, by rw [List.append_nil]; exact hpublished⟩
  | completeRaises hphase =>
    rw [hphase] at hpublished
    exact ⟨hsequence, by rw [List.append_nil]; exact .inr hpublished⟩
  | complete hphase =>
    rw [hphase] at hpublished
    refine ⟨hsequence, ?_⟩
    rw [List.append_nil]
    exact published_after (g := g) hpublished (.inr hpublished)
  | publishCompleted hphase =>
    rw [hphase] at hpublished
    exact ⟨hsequence, events, _, rfl, rfl, .inr hpublished⟩
  | interruptBlank hphase =>
    rw [hphase] at hpublished
    cases hstep
    exact ⟨hsequence, by rw [List.append_nil]; exact hpublished⟩
  | interrupt hphase =>
    rw [hphase] at hpublished
    cases hstep
    exact ⟨hsequence, by rw [List.append_nil]; exact hpublished⟩
  | publishInterrupted hphase =>
    rw [hphase] at hpublished
    exact ⟨hsequence, events, _, rfl, rfl, .inr hpublished⟩
  | publishFailed hphase =>
    rw [hphase] at hpublished
    exact ⟨hsequence, events, _, rfl, rfl, hpublished.imp (fun h => h.2) id⟩
  | finish hphase =>
    rw [hphase] at hpublished
    exact ⟨hsequence, by rw [List.append_nil]; exact hpublished⟩

/-! ## The published events -/

section

variable {g : ActiveGeneration} {parts : List String} {events : List ChatEvent}

theorem Opened.filter_terminal (h : Opened g parts events) :
    events.filter ChatEvent.terminal = [] := by
  obtain ⟨message, rfl⟩ := h
  refine List.filter_eq_nil_iff.2 fun event hevent => ?_
  rcases List.mem_cons.1 hevent with rfl | hevent
  · exact Bool.false_ne_true
  · rw [terminal_of_mem_chunks hevent]
    exact Bool.false_ne_true

theorem Opened.filterMap_tokenSequence (h : Opened g parts events) :
    events.filterMap ChatEvent.tokenSequence = List.range' 1 parts.length := by
  obtain ⟨message, rfl⟩ := h
  exact filterMap_tokenSequence_chunks g.generationId 0 parts

theorem tokenSequence_of_terminal {event : ChatEvent} (h : event.terminal = true) :
    event.tokenSequence = none := by
  cases event <;> first | rfl | cases h

/-- The task is in its `finally` clause or behind it. -/
def Over : Phase → Prop
  | .ending | .ended => True
  | _ => False

theorem over_iff {phase : Phase} : Over phase ↔ phase = .ending ∨ phase = .ended := by
  cases phase <;> simp [Over]

/-- What a task that is not over has published. -/
theorem Lifecycle.of_not_over (h : Lifecycle g events) (hover : ¬ Over g.phase) :
    events = [] ∨ ∃ parts, Opened g parts events := by
  obtain ⟨-, hpublished⟩ := h
  cases hphase : g.phase with
  | preparing => rw [hphase] at hpublished; exact .inl hpublished.2
  | prepared => rw [hphase] at hpublished; exact .inl hpublished.2
  | answering pending =>
    rw [hphase] at hpublished
    rcases pending with _ | ⟨token, sequence⟩
    · exact .inr ⟨_, hpublished⟩
    · obtain ⟨parts, -, -, hopened⟩ := hpublished
      exact .inr ⟨parts, hopened⟩
  | failed => rw [hphase] at hpublished; exact hpublished.imp (fun h => h.2) fun h => ⟨_, h⟩
  | ending => exact (hover (over_iff.2 (.inl hphase))).elim
  | ended => exact (hover (over_iff.2 (.inr hphase))).elim
  | answered => rw [hphase] at hpublished; exact .inr ⟨_, hpublished⟩
  | completing => rw [hphase] at hpublished; exact .inr ⟨_, hpublished⟩
  | completed => rw [hphase] at hpublished; exact .inr ⟨_, hpublished⟩
  | cancelled => rw [hphase] at hpublished; exact .inr ⟨_, hpublished⟩
  | interrupted => rw [hphase] at hpublished; exact .inr ⟨_, hpublished⟩

/-- What a task that is over has published. -/
theorem Lifecycle.of_over (h : Lifecycle g events) (hover : Over g.phase) :
    ∃ before event, events = before ++ [event] ∧ event.terminal = true ∧
      (before = [] ∨ Opened g g.tokenParts before) := by
  obtain ⟨-, hpublished⟩ := h
  rcases over_iff.1 hover with hphase | hphase <;> rw [hphase] at hpublished <;> exact hpublished

/-- A generation has published one terminal event if its task is over, and none before. -/
theorem Lifecycle.filter_terminal (h : Lifecycle g events) :
    (Over g.phase → ∃ event, events.filter ChatEvent.terminal = [event]) ∧
      (¬ Over g.phase → events.filter ChatEvent.terminal = []) := by
  refine ⟨fun hover => ?_, fun hover => ?_⟩
  · obtain ⟨before, event, rfl, hterminal, hbefore⟩ := h.of_over hover
    have hnone : before.filter ChatEvent.terminal = [] := by
      rcases hbefore with rfl | hopened
      · rfl
      · exact hopened.filter_terminal
    refine ⟨event, ?_⟩
    rw [List.filter_append, hnone, List.filter_cons_of_pos hterminal]
    rfl
  · rcases h.of_not_over hover with rfl | ⟨parts, hopened⟩
    · rfl
    · exact hopened.filter_terminal

/-- The tokens of a generation carry the sequences `1..k`. -/
theorem Lifecycle.filterMap_tokenSequence (h : Lifecycle g events) :
    ∃ k, events.filterMap ChatEvent.tokenSequence = List.range' 1 k := by
  by_cases hover : Over g.phase
  · obtain ⟨before, event, rfl, hterminal, hbefore⟩ := h.of_over hover
    rw [List.filterMap_append, List.filterMap_cons, tokenSequence_of_terminal hterminal]
    rcases hbefore with rfl | hopened
    · exact ⟨0, rfl⟩
    · exact ⟨_, by rw [hopened.filterMap_tokenSequence]; exact List.append_nil _⟩
  · rcases h.of_not_over hover with rfl | ⟨parts, hopened⟩
    · exact ⟨0, rfl⟩
    · exact ⟨_, hopened.filterMap_tokenSequence⟩

end

/-! ## The way to the end -/

section

variable {g : ActiveGeneration} {messages : List ChatMessage} {step : RunStep} {e : Effect}

/-- How far the task is from its end. -/
def rank : Phase → ℕ
  | .ended => 0
  | .ending => 1
  | .failed | .completed _ _ _ | .interrupted _ => 2
  | .cancelled => 3
  | .completing _ => 4
  | .answered _ => 5
  | .answering none => 6
  | .answering (some _) | .prepared _ => 7
  | .preparing => 8

theorem rank_after_lt {outcome : Outcome} {returned caught : Phase} {n : ℕ}
    (hr : rank returned < n) (hc : rank caught < n) : rank (after outcome returned caught) < n := by
  unfold after
  split_ifs
  · exact hr
  · exact hc

/-- Every step but a token brings the task nearer to its end. -/
theorem rank_lt_of_advance (h : g.advance messages step = some e)
    (hstep : ∀ delta, step ≠ .token delta) : rank e.generation.phase < rank g.phase := by
  cases Advanced.of_advance h with
  | token => exact (hstep _ rfl).elim
  | prepareTurn hphase =>
    rw [hphase]
    exact rank_after_lt (Nat.lt_succ_self 7) (by decide)
  | complete hphase =>
    rw [hphase]
    exact rank_after_lt (n := 4) (show 2 < 4 by decide) (by decide)
  | interruptBlank hphase =>
    rw [hphase]
    exact rank_after_lt (show 2 < 3 by decide) (by decide)
  | interrupt hphase =>
    rw [hphase]
    exact rank_after_lt (n := 3) (show 2 < 3 by decide) (by decide)
  | cancel hphase =>
    show 3 < rank g.phase
    rcases hphase with hphase | ⟨result, hphase⟩
    · rw [hphase]
      decide
    · rw [hphase]
      exact show 3 < 5 by decide
  | publishUser hphase | publishToken hphase | answer hphase | raiseError hphase
  | checkCancel hphase | completeRaises hphase | publishCompleted hphase
  | publishInterrupted hphase | publishFailed hphase | finish hphase =>
    rw [hphase]
    simp [rank, goto]

theorem exists_fresh (messages : List ChatMessage) : ∃ messageId, Fresh messageId messages := by
  obtain ⟨messageId, h⟩ :=
    Infinite.exists_notMem_finset (messages.map ChatMessage.messageId).toFinset
  refine ⟨messageId, fun m hm he => h ?_⟩
  rw [List.mem_toFinset, ← he]
  exact List.mem_map_of_mem hm

/-- A task that has not ended can always go on, whatever the database holds and with no token. -/
theorem exists_advance (h : g.phase ≠ .ended) :
    ∃ step e, (∀ delta, step ≠ .token delta) ∧ Persists step ∧
      g.advance messages step = some e := by
  obtain ⟨messageId, hfresh⟩ := exists_fresh messages
  cases hphase : g.phase with
  | preparing =>
    exact ⟨.prepareTurn .returns messageId, _, nofun, trivial, by
      unfold advance; rw [hphase]; exact if_pos hfresh⟩
  | prepared => exact ⟨.publish, _, nofun, trivial, by unfold advance; rw [hphase]⟩
  | answering pending =>
    rcases pending with _ | ⟨token, sequence⟩
    · exact ⟨.raiseError, _, nofun, trivial, by unfold advance; rw [hphase]⟩
    · exact ⟨.publish, _, nofun, trivial, by unfold advance; rw [hphase]⟩
  | answered => exact ⟨.checkCancel, _, nofun, trivial, by unfold advance; rw [hphase]⟩
  | completing result =>
    refine ⟨.completeTurn .raises messageId, ⟨g.goto .failed, messages, []⟩, nofun, trivial, ?_⟩
    unfold advance
    rw [hphase]
    cases hanswer : result.answer with
    | none => simp [hanswer]
    | some answer => simp [hanswer, hfresh, after, Outcome.store]
  | completed => exact ⟨.publish, _, nofun, trivial, by unfold advance; rw [hphase]⟩
  | cancelled =>
    by_cases hblank : Python.blank g.partialAnswer.toList
    · exact ⟨.persistInterrupted .returns messageId, _, nofun, rfl, by
        unfold advance; rw [hphase]; exact if_pos hblank⟩
    · exact ⟨.persistInterrupted .returns messageId, _, nofun, rfl, by
        unfold advance; rw [hphase]; exact (if_neg hblank).trans (if_pos hfresh)⟩
  | interrupted => exact ⟨.publish, _, nofun, trivial, by unfold advance; rw [hphase]⟩
  | failed => exact ⟨.publish, _, nofun, trivial, by unfold advance; rw [hphase]⟩
  | ending => exact ⟨.finish, _, nofun, trivial, by unfold advance; rw [hphase]⟩
  | ended => exact (h hphase).elim

/-- A task that is over stays over. -/
theorem over_of_advance (h : g.advance messages step = some e) (hover : Over g.phase) :
    Over e.generation.phase := by
  cases Advanced.of_advance h with
  | finish => trivial
  | cancel hphase =>
    rcases hphase with hphase | ⟨result, hphase⟩ <;> rw [hphase] at hover <;> cases hover
  | prepareTurn hphase | token hphase | answer hphase | raiseError hphase | checkCancel hphase
  | completeRaises hphase | complete hphase | interruptBlank hphase | interrupt hphase
  | publishUser hphase | publishToken hphase | publishCompleted hphase
  | publishInterrupted hphase | publishFailed hphase =>
    rw [hphase] at hover
    exact hover.elim

/-- A task that is over publishes nothing. -/
theorem events_of_over (h : g.advance messages step = some e) (hover : Over g.phase) :
    e.events = [] := by
  cases Advanced.of_advance h with
  | finish | cancel | prepareTurn | token | answer | raiseError | checkCancel | completeRaises
  | complete | interruptBlank | interrupt => rfl
  | publishUser hphase | publishToken hphase | publishCompleted hphase
  | publishInterrupted hphase | publishFailed hphase =>
    rw [hphase] at hover
    exact hover.elim

end

end ActiveGeneration

end Chat

end TrackFlow
