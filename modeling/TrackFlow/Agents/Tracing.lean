import TrackFlow.Agents.MemorySession
import TrackFlow.Python.Raise

/-!
# The trace of a run

What follows the return of `run_agent` in its two callers: `AgentService.answer` behind the HTTP
endpoint, and `ChatGenerationManager._run` with `_complete_turn` behind the chat.  Both hand the
run to `persist_run`, at the end of several steps that can raise.  The outcome of every step is an
input (`HttpSteps`, `ChatSteps`).

* `serve` : the endpoint; tasks that were scheduled run after a response, not after an exception.
* `HttpSteps.Reaches`, `ChatSteps.Reaches` : no step raises before the trace is handed over.
* `run_traced_once_iff` : **exactly the runs that get there are traced, and once.**
* `failed_run_not_traced` : a run that failed, and the trace that is missing.
-/

namespace TrackFlow

namespace Agents

/-- `AgentRunResult.status`. -/
inductive RunStatus
  | ok
  | error
  | rejected
  deriving DecidableEq, Repr

/-- A guardrail event of a run. -/
structure GuardrailEvent where
  layer : String
  ruleId : String
  category : String
  outcome : String
  durationMs : ℕ
  deriving DecidableEq, Repr

/-- `AgentRunResult`. -/
structure AgentRunResult where
  traceId : String
  status : RunStatus
  routeTaken : String
  answer : Option String
  guardrailEvents : List GuardrailEvent
  deriving DecidableEq, Repr

/-- What `persist_run` is called with. -/
structure Trace where
  result : AgentRunResult
  env : String
  inputSummary : Option String
  outputSummary : Option String
  deriving DecidableEq, Repr

/-- The settings of the two callers. -/
structure AgentSettings where
  appEnv : String
  agentsStoreContent : Bool

/-- The exceptions of the two callers. -/
inductive Raised
  | memory (error : MemoryError)
  | agent (statusCode : ℕ) (detail : String)
  | runtime (detail : String)
  | generationCancelled
  | other (name : String)
  deriving DecidableEq, Repr

/-- The last event of a generation. -/
inductive TerminalEvent
  | completed (messageId routeTaken : String) (answer : Option String)
  | interrupted (messageId : Option String)
  | failed (detail : String)
  deriving DecidableEq, Repr

/-- What a caller leaves behind, also when it raises: the traces handed to `persist_run`, those
scheduled with `BackgroundTasks`, and the events it published. -/
structure Sink where
  persisted : List Trace := []
  tasks : List Trace := []
  published : List TerminalEvent := []

/-- A caller. -/
abbrev Handler := ExceptT Raised (StateM Sink)

/-- `persist_run` never raises. -/
def persistRun (trace : Trace) : Handler Unit :=
  modify fun sink => { sink with persisted := sink.persisted ++ [trace] }

/-- `background_tasks.add_task(persist_run, ...)`. -/
def addTask (trace : Trace) : Handler Unit :=
  modify fun sink => { sink with tasks := sink.tasks ++ [trace] }

/-- `bus.publish` of a terminal event. -/
def publish (event : TerminalEvent) : Handler Unit :=
  modify fun sink => { sink with published := sink.published ++ [event] }

/-- A text that Python takes to be true. -/
def truthy (text : Option String) : Option String := text.filter (· ≠ "")

/-- `text[:_SUMMARY_MAX_CHARS]`. -/
def preview (text : String) : String := String.ofList (text.toList.take 200)

/-- The event that a rejected memory candidate leaves. -/
def AgentRunResult.reject (result : AgentRunResult) (reason : Option String) : AgentRunResult :=
  match truthy reason with
  | none => result
  | some reason =>
    { result with
      guardrailEvents := result.guardrailEvents ++ [⟨"memory", reason, "content", "blocked", 0⟩] }

/-- The trace of a run: content only when it is stored and no guardrail has fired. -/
def AgentRunResult.trace (settings : AgentSettings) (question : String) (result : AgentRunResult) :
    Trace :=
  if settings.agentsStoreContent = true ∧ result.guardrailEvents = [] then
    ⟨result, settings.appEnv, some (preview question), (truthy result.answer).map preview⟩
  else ⟨result, settings.appEnv, none, none⟩

/-! ## The HTTP endpoint -/

/-- `AgentQueryRequest`. -/
structure AgentQueryRequest where
  question : String
  memoryDecision : Option DecisionCall

/-- What the steps of `AgentService.answer` do. -/
structure HttpSteps where
  decide : DecisionCall → Except Raised Decision
  createProposal : Except Raised (Option String)
  pendingResponse : Except Raised (Option Proposal)
  /-- The chat session of the conversation, if it has one. -/
  chatSession : Bool
  appendMessage : Except Raised Unit
  commit : Except Raised Unit
  /-- The identifier of the conversation is read again after a commit. -/
  conversationId : Except Raised String

/-- `AgentQueryResponse`. -/
structure AgentQueryResponse where
  answer : String
  traceId : String
  conversationId : String
  routeTaken : String
  memoryProposal : Option Proposal

section

variable (settings : AgentSettings)

/-- The memory decision of a request, if it has one. -/
def decisionStep (payload : AgentQueryRequest) (steps : HttpSteps) : Except Raised Unit :=
  match payload.memoryDecision with
  | none => .ok ()
  | some decision => (steps.decide decision).map fun _ => ()

/-- The memory proposal of a run, if it went well. -/
def proposalStep (createProposal : Except Raised (Option String)) (result : AgentRunResult) :
    Except Raised AgentRunResult :=
  if result.status = .ok then createProposal.map result.reject else .ok result

/-- The memory steps of `AgentService.answer`, inside its `try`. -/
def memorySteps (payload : AgentQueryRequest) (steps : HttpSteps) (result : AgentRunResult) :
    Except Raised (AgentRunResult × Option Proposal) := do
  decisionStep payload steps
  let result ← proposalStep steps.createProposal result
  let pending ← steps.pendingResponse
  return (result, pending)

/-- The message of the assistant, in a conversation that is a chat session. -/
def saveStep (steps : HttpSteps) : Except Raised Unit :=
  if steps.chatSession = true then steps.appendMessage.bind fun _ => steps.commit else .ok ()

/-- `AgentMemoryError` becomes `AgentError`. -/
def Raised.translate : Raised → Raised
  | .memory error => .agent error.statusCode error.detail
  | raised => raised

/-- `AgentService.answer` from the return of `run_agent` on. -/
def answer (payload : AgentQueryRequest) (steps : HttpSteps) (result : AgentRunResult) :
    Handler AgentQueryResponse := do
  let (result, pending) ← liftExcept ((memorySteps payload steps result).mapError Raised.translate)
  match (truthy result.answer).filter fun _ => result.status ≠ .error with
  | some text =>
    liftExcept (saveStep steps)
    addTask (result.trace settings payload.question)
    let conversationId ← liftExcept steps.conversationId
    return ⟨text, result.traceId, conversationId, result.routeTaken, pending⟩
  | none =>
    persistRun (result.trace settings payload.question)
    throw (.agent 502 "The agent is temporarily unavailable.")

/-- The traces of a request: what was handed over while it was answered, and the tasks that run
after a response. -/
def serve {α : Type} (handler : Handler α) : List Trace :=
  match handler.run {} with
  | (.ok _, sink) => sink.persisted ++ sink.tasks
  | (.error _, sink) => sink.persisted

/-! ## The chat -/

/-- What the steps of `_complete_turn` and `_run` do. -/
structure ChatSteps where
  /-- `active.cancel.is_set()` after `run_agent`. -/
  cancelled : Bool
  /-- Whether `get_session_for_user` finds the chat session. -/
  chatSession : Except Raised Bool
  /-- Whether `get_conversation` finds the conversation. -/
  conversation : Except Raised Bool
  createProposal : Except Raised (Option String)
  /-- The identifier of the message that was appended, if the session still exists. -/
  appendMessage : Except Raised (Option String)
  commit : Except Raised Unit
  persistInterrupted : Except Raised (Option String)

/-- The memory step of `_complete_turn`; an error of the memory service is only logged. -/
def caughtProposalStep (steps : ChatSteps) (result : AgentRunResult) (conversation : Bool) :
    Except Raised AgentRunResult :=
  if conversation = true then
    match proposalStep steps.createProposal result with
    | .error (.memory _) => .ok result
    | outcome => outcome
  else .ok result

/-- `raise RuntimeError("chat completion unavailable")` when there is no value. -/
def available {α : Type} : Option α → Except Raised α
  | none => .error (.runtime "chat completion unavailable")
  | some a => .ok a

/-- The steps of `_complete_turn` before the trace is handed over. -/
def turnSteps (steps : ChatSteps) (result : AgentRunResult) :
    Except Raised (String × AgentRunResult) := do
  let found ← steps.chatSession
  let _ ← available (if found = true then truthy result.answer else none)
  let conversation ← steps.conversation
  let result ← caughtProposalStep steps result conversation
  let message ← steps.appendMessage
  let messageId ← available message
  steps.commit
  return (messageId, result)

/-- `_complete_turn`. -/
def completeTurn (question : String) (steps : ChatSteps) (result : AgentRunResult) :
    Handler (String × AgentRunResult) := do
  let (messageId, result) ← liftExcept (turnSteps steps result)
  persistRun (result.trace settings question)
  return (messageId, result)

/-- The exception handlers of `_run`. -/
def handleRaised (steps : ChatSteps) : Raised → Handler Unit
  | .generationCancelled => do
    let messageId ← liftExcept steps.persistInterrupted
    publish (.interrupted messageId)
  | _ => publish (.failed "The assistant is temporarily unavailable.")

/-- `ChatGenerationManager._run` from the return of `run_agent` on. -/
def runGeneration (question : String) (steps : ChatSteps) (result : AgentRunResult) :
    Handler Unit :=
  tryCatch
    (if steps.cancelled = true then throw .generationCancelled
      else do
        let (messageId, result) ← completeTurn settings question steps result
        publish (.completed messageId result.routeTaken result.answer))
    (handleRaised steps)

end

/-! ## What is traced -/

/-- Exactly one of the traces is that of the run. -/
def TracedOnce (result : AgentRunResult) (traces : List Trace) : Prop :=
  (traces.filter fun t => t.result.traceId = result.traceId).length = 1

/-- The steps of `answer` that come before the trace is handed over, and those between the task
and the response, do not raise. -/
structure HttpSteps.Reaches (payload : AgentQueryRequest) (steps : HttpSteps)
    (result : AgentRunResult) : Prop where
  decide : ∀ decision, payload.memoryDecision = some decision →
    (steps.decide decision).isOk = true
  createProposal : result.status = .ok → steps.createProposal.isOk = true
  pendingResponse : steps.pendingResponse.isOk = true
  saved : truthy result.answer ≠ none → result.status ≠ .error → steps.chatSession = true →
    steps.appendMessage.isOk = true ∧ steps.commit.isOk = true
  responds : truthy result.answer ≠ none → result.status ≠ .error →
    steps.conversationId.isOk = true

/-- The generation was not cancelled, the run has an answer, the session and the message exist,
and no step of `_complete_turn` raises; an error of the memory service is caught. -/
structure ChatSteps.Reaches (steps : ChatSteps) (result : AgentRunResult) : Prop where
  uncancelled : steps.cancelled = false
  answered : truthy result.answer ≠ none
  chatSession : steps.chatSession = .ok true
  conversation : steps.conversation.isOk = true
  createProposal : steps.conversation = .ok true → result.status = .ok →
    steps.createProposal.isOk = true ∨ ∃ error, steps.createProposal = .error (.memory error)
  appended : ∃ messageId, steps.appendMessage = .ok (some messageId)
  commit : steps.commit.isOk = true

section

variable {settings : AgentSettings} {question : String} {result : AgentRunResult}

@[simp] theorem traceId_reject (result : AgentRunResult) (reason : Option String) :
    (result.reject reason).traceId = result.traceId := by
  unfold AgentRunResult.reject
  split <;> rfl

@[simp] theorem traceId_trace (settings : AgentSettings) (question : String)
    (result : AgentRunResult) :
    (result.trace settings question).result.traceId = result.traceId := by
  unfold AgentRunResult.trace
  split_ifs <;> rfl

@[simp] theorem status_reject (result : AgentRunResult) (reason : Option String) :
    (result.reject reason).status = result.status := by
  unfold AgentRunResult.reject
  split <;> rfl

@[simp] theorem answer_reject (result : AgentRunResult) (reason : Option String) :
    (result.reject reason).answer = result.answer := by
  unfold AgentRunResult.reject
  split <;> rfl

theorem tracedOnce_nil : ¬TracedOnce result [] := by
  simp [TracedOnce]

theorem tracedOnce_singleton {result' : AgentRunResult} (h : result'.traceId = result.traceId) :
    TracedOnce result [result'.trace settings question] := by
  simp [TracedOnce, h]

section

variable {α β : Type} (sink : Sink)

theorem run_liftExcept_bind (x : Except Raised α) (f : α → Handler β) :
    (liftExcept x >>= f).run sink =
      match x with
      | .ok a => (f a).run sink
      | .error raised => (.error raised, sink) := by
  cases x <;> rfl

theorem run_tryCatch (x : Handler α) (handle : Raised → Handler α) :
    (tryCatch x handle).run sink =
      match x.run sink with
      | (.ok a, sink) => (.ok a, sink)
      | (.error raised, sink) => (handle raised).run sink := by
  rcases h : x.run sink with ⟨a | raised, sink'⟩
  · have hx : x sink = (.error a, sink') := h
    simp [tryCatch, tryCatchThe, MonadExceptOf.tryCatch, ExceptT.tryCatch, ExceptT.run,
      ExceptT.mk, bind, StateT.bind, hx]
  · have hx : x sink = (.ok raised, sink') := h
    simp [tryCatch, tryCatchThe, MonadExceptOf.tryCatch, ExceptT.tryCatch, ExceptT.run,
      ExceptT.mk, bind, StateT.bind, hx]
    rfl

theorem run_throw (raised : Raised) : (throw raised : Handler α).run sink = (.error raised, sink) :=
  rfl

theorem run_addTask_bind (trace : Trace) (f : Unit → Handler β) :
    (addTask trace >>= f).run sink =
      (f ()).run { sink with tasks := sink.tasks ++ [trace] } := rfl

end

theorem isOk_iff {α : Type} {x : Except Raised α} : x.isOk = true ↔ ∃ a, x = .ok a := by
  cases x <;> simp [Except.isOk, Except.toBool]

theorem isOk_bind_iff {α β : Type} {x : Except Raised α} {f : α → Except Raised β} :
    (x >>= f).isOk = true ↔ ∃ a, x = .ok a ∧ (f a).isOk = true := by
  cases x <;> simp [bind, Except.bind, Except.isOk, Except.toBool]

theorem isOk_map_iff {α β : Type} {x : Except Raised α} {f : α → β} :
    (x.map f).isOk = true ↔ x.isOk = true := by
  cases x <;> rfl

theorem isOk_decisionStep_iff {payload : AgentQueryRequest} {steps : HttpSteps} :
    (decisionStep payload steps).isOk = true ↔
      ∀ decision, payload.memoryDecision = some decision →
        (steps.decide decision).isOk = true := by
  unfold decisionStep
  split
  · rename_i hnone
    simp [hnone, Except.isOk, Except.toBool]
  · rename_i decision hsome
    rw [isOk_map_iff, hsome]
    exact ⟨fun h d hd => by cases hd; exact h, fun h => h decision rfl⟩

theorem isOk_proposalStep_iff {createProposal : Except Raised (Option String)} :
    (proposalStep createProposal result).isOk = true ↔
      (result.status = .ok → createProposal.isOk = true) := by
  unfold proposalStep
  split_ifs with hok
  · rw [isOk_map_iff]
    exact ⟨fun h _ => h, fun h => h hok⟩
  · exact ⟨fun _ h => (hok h).elim, fun _ => rfl⟩

/-- The memory step changes the events of the run and nothing else. -/
theorem proposalStep_eq_ok {createProposal : Except Raised (Option String)}
    {result' : AgentRunResult} (h : proposalStep createProposal result = .ok result') :
    ∃ reason, result' = result.reject reason := by
  unfold proposalStep at h
  split_ifs at h
  · cases hc : createProposal with
    | error raised =>
      rw [hc] at h
      cases h
    | ok reason =>
      rw [hc] at h
      cases h
      exact ⟨reason, rfl⟩
  · cases h
    exact ⟨none, rfl⟩

theorem isOk_memorySteps_iff {payload : AgentQueryRequest} {steps : HttpSteps} :
    (memorySteps payload steps result).isOk = true ↔
      (decisionStep payload steps).isOk = true ∧
      (proposalStep steps.createProposal result).isOk = true ∧
      steps.pendingResponse.isOk = true := by
  unfold memorySteps
  cases decisionStep payload steps with
  | error raised => simp [bind, Except.bind, Except.isOk, Except.toBool]
  | ok u =>
    cases proposalStep steps.createProposal result with
    | error raised => simp [bind, Except.bind, Except.isOk, Except.toBool]
    | ok result' =>
      cases steps.pendingResponse <;>
        simp [bind, Except.bind, pure, Except.pure, Except.isOk, Except.toBool]

theorem memorySteps_eq_ok {payload : AgentQueryRequest} {steps : HttpSteps}
    {out : AgentRunResult × Option Proposal} (h : memorySteps payload steps result = .ok out) :
    ∃ reason, out.1 = result.reject reason := by
  unfold memorySteps at h
  cases hd : decisionStep payload steps with
  | error raised =>
    rw [hd] at h
    cases h
  | ok u =>
    cases hp : proposalStep steps.createProposal result with
    | error raised =>
      rw [hd, hp] at h
      cases h
    | ok result' =>
      cases hr : steps.pendingResponse with
      | error raised =>
        rw [hd, hp, hr] at h
        cases h
      | ok pending =>
        rw [hd, hp, hr] at h
        cases h
        exact proposalStep_eq_ok hp

theorem isOk_saveStep_iff {steps : HttpSteps} :
    (saveStep steps).isOk = true ↔
      (steps.chatSession = true → steps.appendMessage.isOk = true ∧ steps.commit.isOk = true) := by
  unfold saveStep
  split_ifs with hsession
  · cases steps.appendMessage <;> simp [Except.bind, Except.isOk, Except.toBool, hsession]
  · exact ⟨fun _ h => (hsession h).elim, fun _ => rfl⟩

/-- **The endpoint.**  A run is traced once, or its trace is lost. -/
theorem answer_tracedOnce_iff (payload : AgentQueryRequest) (steps : HttpSteps) :
    TracedOnce result (serve (answer settings payload steps result)) ↔
      steps.Reaches payload result := by
  have hreaches : steps.Reaches payload result ↔
      (memorySteps payload steps result).isOk = true ∧
        (truthy result.answer ≠ none → result.status ≠ .error →
          (saveStep steps).isOk = true ∧ steps.conversationId.isOk = true) := by
    rw [isOk_memorySteps_iff, isOk_decisionStep_iff, isOk_proposalStep_iff, isOk_saveStep_iff]
    exact ⟨fun ⟨hd, hc, hp, hs, hr⟩ => ⟨⟨hd, hc, hp⟩, fun ha he => ⟨hs ha he, hr ha he⟩⟩,
      fun ⟨⟨hd, hc, hp⟩, h⟩ => ⟨hd, hc, hp, fun ha he => (h ha he).1, fun ha he => (h ha he).2⟩⟩
  rw [hreaches]
  unfold serve answer
  rw [run_liftExcept_bind]
  cases hm : memorySteps payload steps result with
  | error raised =>
    -- nothing is handed over before the memory steps are done
    exact ⟨fun h => (tracedOnce_nil h).elim, fun h => by cases h.1⟩
  | ok out =>
    obtain ⟨reason, hout⟩ := memorySteps_eq_ok hm
    obtain ⟨result', pending⟩ := out
    replace hout : result' = result.reject reason := hout
    have hid : result'.traceId = result.traceId := by rw [hout, traceId_reject]
    have hstatus : result'.status = result.status := by rw [hout, status_reject]
    have hanswer : result'.answer = result.answer := by rw [hout, answer_reject]
    simp only [Except.mapError, hanswer, hstatus]
    by_cases hanswered : truthy result.answer ≠ none ∧ result.status ≠ .error
    · obtain ⟨text, htext⟩ := Option.ne_none_iff_exists'.1 hanswered.1
      have hfilter : (truthy result.answer).filter (fun _ => result.status ≠ .error) =
          some text := by
        rw [htext, Option.filter_some, if_pos (by simpa using hanswered.2)]
      rw [hfilter]
      dsimp only
      rw [run_liftExcept_bind]
      cases hsave : saveStep steps with
      | error raised =>
        refine ⟨fun h => (tracedOnce_nil h).elim, fun h => ?_⟩
        cases (h.2 hanswered.1 hanswered.2).1
      | ok u =>
        rw [run_addTask_bind, run_liftExcept_bind]
        cases hconversation : steps.conversationId with
        | error raised =>
          refine ⟨fun h => (tracedOnce_nil h).elim, fun h => ?_⟩
          cases (h.2 hanswered.1 hanswered.2).2
        | ok conversationId =>
          exact ⟨fun _ => ⟨rfl, fun _ _ => ⟨rfl, rfl⟩⟩, fun _ => tracedOnce_singleton hid⟩
    · have hfilter : (truthy result.answer).filter (fun _ => result.status ≠ .error) = none := by
        refine Option.filter_eq_none_iff.2 fun text htext => ?_
        simp only [decide_eq_true_eq, not_not]
        by_contra herror
        exact hanswered ⟨by simp [htext], herror⟩
      rw [hfilter]
      exact ⟨fun _ => ⟨rfl, fun ha he => (hanswered ⟨ha, he⟩).elim⟩,
        fun _ => tracedOnce_singleton hid⟩

theorem isOk_caughtProposalStep_iff {steps : ChatSteps} {conversation : Bool} :
    (caughtProposalStep steps result conversation).isOk = true ↔
      (conversation = true → result.status = .ok →
        steps.createProposal.isOk = true ∨
          ∃ error, steps.createProposal = .error (.memory error)) := by
  unfold caughtProposalStep proposalStep
  by_cases hconversation : conversation = true
  · by_cases hok : result.status = .ok
    · rw [if_pos hconversation, if_pos hok]
      cases hc : steps.createProposal with
      | ok reason => simp [Except.map, Except.isOk, Except.toBool]
      | error raised =>
        cases raised <;> simp [Except.map, Except.isOk, Except.toBool, hconversation, hok]
    · rw [if_pos hconversation, if_neg hok]
      exact ⟨fun _ _ h => (hok h).elim, fun _ => rfl⟩
  · rw [if_neg hconversation]
    exact ⟨fun _ h => (hconversation h).elim, fun _ => rfl⟩

theorem caughtProposalStep_eq_ok {steps : ChatSteps} {conversation : Bool}
    {result' : AgentRunResult} (h : caughtProposalStep steps result conversation = .ok result') :
    ∃ reason, result' = result.reject reason := by
  unfold caughtProposalStep at h
  split_ifs at h
  · split at h
    · cases h
      exact ⟨none, rfl⟩
    · exact proposalStep_eq_ok h
  · cases h
    exact ⟨none, rfl⟩

theorem isOk_available_iff {α : Type} {a : Option α} :
    (available a).isOk = true ↔ a ≠ none := by
  cases a <;> simp [available, Except.isOk, Except.toBool]

/-- What `_complete_turn` needs before it hands the trace over. -/
theorem isOk_turnSteps_iff {steps : ChatSteps} (hcancelled : steps.cancelled = false) :
    (turnSteps steps result).isOk = true ↔ steps.Reaches result := by
  unfold turnSteps
  simp only [isOk_bind_iff]
  constructor
  · rintro ⟨found, hsession, text, htext, conversation, hconversation, result', hresult, message,
      hmessage, messageId, hid, u, hcommit, -⟩
    have hfound : found = true ∧ truthy result.answer ≠ none := by
      have hsome := isOk_available_iff.1 (isOk_iff.2 ⟨text, htext⟩)
      split_ifs at hsome with hf
      · exact ⟨hf, hsome⟩
      · exact (hsome rfl).elim
    have hproposal := isOk_caughtProposalStep_iff.1 (isOk_iff.2 ⟨result', hresult⟩)
    have happended := isOk_available_iff.1 (isOk_iff.2 ⟨messageId, hid⟩)
    obtain ⟨messageId', rfl⟩ := Option.ne_none_iff_exists'.1 happended
    refine ⟨hcancelled, hfound.2, hfound.1 ▸ hsession, isOk_iff.2 ⟨_, hconversation⟩,
      fun hc => hproposal ?_, ⟨_, hmessage⟩, isOk_iff.2 ⟨_, hcommit⟩⟩
    cases hconversation.symm.trans hc
    rfl
  · intro h
    obtain ⟨text, htext⟩ := Option.ne_none_iff_exists'.1 h.answered
    obtain ⟨conversation, hconversation⟩ := isOk_iff.1 h.conversation
    obtain ⟨messageId, hmessage⟩ := h.appended
    obtain ⟨u, hcommit⟩ := isOk_iff.1 h.commit
    have hproposal : (caughtProposalStep steps result conversation).isOk = true :=
      isOk_caughtProposalStep_iff.2 fun hc => h.createProposal (hc ▸ hconversation)
    obtain ⟨result', hresult⟩ := isOk_iff.1 hproposal
    refine ⟨true, h.chatSession, text, ?_, conversation, hconversation, result', hresult, _,
      hmessage, messageId, rfl, u, hcommit, rfl⟩
    rw [if_pos rfl, htext]
    rfl

theorem turnSteps_eq_ok {steps : ChatSteps} {out : String × AgentRunResult}
    (h : turnSteps steps result = .ok out) : out.2.traceId = result.traceId := by
  unfold turnSteps at h
  simp only [except_bind_eq_ok] at h
  obtain ⟨_, -, _, -, conversation, -, result', hresult, _, -, _, -, _, -, hout⟩ := h
  obtain ⟨reason, rfl⟩ := caughtProposalStep_eq_ok hresult
  cases hout
  exact traceId_reject result reason

/-- Nothing is handed over after an exception. -/
theorem serve_handleRaised (steps : ChatSteps) (raised : Raised) :
    serve (handleRaised steps raised) = [] := by
  cases raised with
  | generationCancelled =>
    unfold serve handleRaised
    rw [run_liftExcept_bind]
    cases steps.persistInterrupted <;> rfl
  | _ => rfl

/-- **The chat.**  A run is traced once, or its trace is lost. -/
theorem runGeneration_tracedOnce_iff (steps : ChatSteps) :
    TracedOnce result (serve (runGeneration settings question steps result)) ↔
      steps.Reaches result := by
  -- a body that raises before it writes anything leaves the trace to the handlers
  have hlost (raised : Raised) {body : Handler Unit} (hbody : body.run {} = (.error raised, {})) :
      serve (tryCatch body (handleRaised steps)) = [] := by
    rw [← serve_handleRaised steps raised]
    unfold serve
    rw [run_tryCatch, hbody]
  unfold runGeneration
  by_cases hcancelled : steps.cancelled = true
  · rw [if_pos hcancelled, hlost _ (run_throw _ _)]
    refine ⟨fun h => (tracedOnce_nil h).elim, fun h => ?_⟩
    cases hcancelled.symm.trans h.uncancelled
  · rw [if_neg hcancelled, ← isOk_turnSteps_iff (Bool.eq_false_iff.2 hcancelled)]
    cases hsteps : turnSteps steps result with
    | error raised =>
      rw [hlost raised]
      · exact ⟨fun h => (tracedOnce_nil h).elim, fun h => by cases h⟩
      · unfold completeTurn
        rw [hsteps]
        rfl
    | ok out =>
      have hid := turnSteps_eq_ok hsteps
      refine ⟨fun _ => rfl, fun _ => ?_⟩
      unfold serve completeTurn
      rw [run_tryCatch, hsteps]
      exact tracedOnce_singleton hid

/-- **Exactly the runs that get to the end of the steps are traced, and once**, on both paths,
whatever `run_agent` returned and whatever the later steps do. -/
theorem run_traced_once_iff (settings : AgentSettings) (result : AgentRunResult) :
    (∀ payload (steps : HttpSteps),
      TracedOnce result (serve (answer settings payload steps result)) ↔
        steps.Reaches payload result) ∧
    ∀ question (steps : ChatSteps),
      TracedOnce result (serve (runGeneration settings question steps result)) ↔
        steps.Reaches result :=
  ⟨fun payload steps => answer_tracedOnce_iff payload steps,
    fun _ steps => runGeneration_tracedOnce_iff steps⟩

end

/-- A run whose retrieval failed: it has no answer. -/
def failedRun : AgentRunResult := ⟨"trace", .error, "rag", none, []⟩

/-- A run with an answer. -/
def answeredRun : AgentRunResult := ⟨"trace", .ok, "rag", some "The warehouse opens at 8.", []⟩

/-- Nothing goes wrong after the run. -/
def smoothTurn : ChatSteps where
  cancelled := false
  chatSession := .ok true
  conversation := .ok true
  createProposal := .ok none
  appendMessage := .ok (some "message")
  commit := .ok ()
  persistInterrupted := .ok none

/-- The memory decision of the request comes too late. -/
def lateDecision : HttpSteps where
  decide _ := .error (.memory ⟨409, "Memory proposal is no longer pending."⟩)
  createProposal := .ok none
  pendingResponse := .ok none
  chatSession := false
  appendMessage := .ok ()
  commit := .ok ()
  conversationId := .ok "conversation"

/-- **A run that failed is lost.**  The chat does not trace a run without an answer, although every
later step succeeds; the endpoint does not trace an answered run whose memory decision is
refused. -/
theorem failed_run_not_traced :
    ¬TracedOnce failedRun (serve (runGeneration ⟨"test", false⟩ "When?" smoothTurn failedRun)) ∧
    ¬TracedOnce answeredRun (serve (answer ⟨"test", false⟩ ⟨"When?", some (approvalOf "a")⟩
      lateDecision answeredRun)) := by
  constructor
  · intro h
    exact ((runGeneration_tracedOnce_iff smoothTurn).1 h).answered rfl
  · intro h
    have hdecide := ((answer_tracedOnce_iff _ lateDecision).1 h).decide (approvalOf "a") rfl
    cases hdecide

end Agents

end TrackFlow
