import TrackFlow.LTS.StateGraph
import TrackFlow.Agents.InputGuardrail
import TrackFlow.Agents.Nodes

/-!
# The agent graph

`run_agent`: the nodes of the graph, the edges between them, and the result of a run.  What the
providers bring is an input, and the effects of a run are the calls of the providers and the tokens
that the client is sent.

* `Providers` : the routing model, the knowledge base, the ticket tool and the generation model.
* `Node.visit`, `Node.next` : the nodes and the edges; `agentGraph` : the graph.
* `runAgent` : a run; an exception that leaves a node is `none`.
-/

namespace TrackFlow

namespace Agents

open Python

/-! ## The state -/

/-- A block of evidence; a key that is not there is empty. -/
structure Evidence where
  sourceDocument : String
  heading : String
  text : String
  jurisdiction : String
  subjectKey : String
  carrierName : String
  deriving DecidableEq, Repr

/-- What a run is started with. -/
structure AgentInput where
  question : String
  jurisdiction : Option String
  routePreference : RoutePreference
  memoryEvidence : List Evidence

/-- The value of `route` in the state. -/
inductive RouteField
  | unset
  | reject
  | routed (route : Route)
  deriving DecidableEq, Repr

/-- A record of the ticket tool. -/
structure ToolCall where
  toolName : String
  status : String
  durationMs : ℕ
  errorType : Option String
  deriving DecidableEq, Repr

/-- A step with its number. -/
structure NumberedStep where
  sequence : ℕ
  step : NodeStep
  deriving DecidableEq

/-- `AgentState`, without what a run is started with. -/
structure AgentState (κ : Type*) where
  route : RouteField
  ticketId : Option ℤ
  retrieved : Option (List Evidence)
  memoryCandidate : Option κ
  toolContext : List Evidence
  toolCalls : List ToolCall
  answer : Option String
  authoritativeStatus : Option String
  guardrailEvents : List GuardrailEvent
  error : Option String
  steps : List NumberedStep

/-- `initial`. -/
def AgentState.initial {κ : Type*} : AgentState κ where
  route := .unset
  ticketId := none
  retrieved := none
  memoryCandidate := none
  toolContext := []
  toolCalls := []
  answer := none
  authoritativeStatus := none
  guardrailEvents := []
  error := none
  steps := []

/-- The state with one more step. -/
def AgentState.addStep {κ : Type*} (s : AgentState κ) (step : NodeStep) : AgentState κ :=
  { s with steps := s.steps ++ [⟨s.steps.length + 1, step⟩] }

section

variable {κ : Type*} {s : AgentState κ} {step : NodeStep}

@[simp] theorem addStep_route : (s.addStep step).route = s.route := rfl

@[simp] theorem addStep_retrieved : (s.addStep step).retrieved = s.retrieved := rfl

@[simp] theorem addStep_toolContext : (s.addStep step).toolContext = s.toolContext := rfl

@[simp] theorem addStep_answer : (s.addStep step).answer = s.answer := rfl

@[simp] theorem addStep_authoritativeStatus :
    (s.addStep step).authoritativeStatus = s.authoritativeStatus := rfl

@[simp] theorem addStep_error : (s.addStep step).error = s.error := rfl

end

/-! ## Providers -/

/-- A point that the vector store finds. -/
structure ScoredPoint where
  score : Option ℚ
  payload : Evidence

/-- `TicketStatus`. -/
structure TicketStatus where
  ticketId : ℤ
  status : String
  category : String
  createdAt : String
  updatedAt : String
  deriving DecidableEq, Repr

/-- `TicketLookupResult.outcome`. -/
inductive LookupOutcome
  | ok
  | notFound
  | timeout
  | error
  deriving DecidableEq, Repr

/-- The value of an outcome. -/
def LookupOutcome.value : LookupOutcome → String
  | .ok => "ok"
  | .notFound => "not_found"
  | .timeout => "timeout"
  | .error => "error"

/-- `TicketLookupResult`. -/
structure TicketLookup where
  outcome : LookupOutcome
  ticket : Option TicketStatus
  durationMs : ℕ
  deriving DecidableEq, Repr

/-- How a generation ends that is not stopped by the guardrail. -/
inductive GenerationEnd (κ : Type*)
  | answered (answer : String) (candidate : Option κ) (usage : Option ModelUsage)
  /-- `GenerationCancelled`, as the turn was cancelled. -/
  | cancelled
  | failed (reported : Option ModelUsage)

/-- A generation: the deltas that are streamed, and how it ends. -/
structure Generation (κ : Type*) where
  deltas : List (List Char)
  ending : GenerationEnd κ

/-- What the providers bring in a run; each is called at most once. -/
structure Providers (κ : Type*) where
  /-- There is a key for the routing model. -/
  apiKey : Bool
  /-- The ticket id that `_TICKET_RE` finds in the question. -/
  ticketInQuestion : Option ℤ
  routing : RouteAnswer
  /-- `cfg.min_score`. -/
  minScore : ℚ
  /-- What the vector store finds; `none` is an exception. -/
  points : Option (List ScoredPoint)
  lookup : ℤ → TicketLookup
  generate : List Evidence → Generation κ
  /-- There is a `token_callback`. -/
  streaming : Bool
  /-- How long a check took, by its rule. -/
  elapsed : String → ℕ

/-- An effect of a run. -/
inductive Effect
  | routingModel (question : String)
  | retrieve (question jurisdiction : String)
  | lookup (ticketId : ℤ)
  | generate (context : List Evidence)
  /-- A call of `token_callback`. -/
  | token (text : List Char)
  deriving DecidableEq, Repr

/-! ## Nodes -/

/-- The nodes of the graph. -/
inductive Node
  | receiveQuestion
  | guardrailInput
  | route
  | retrieve
  | ticketTool
  | generate
  | noContext
  | guardrailOutput
  | memorySelfeval
  deriving DecidableEq, Repr

section

variable {κ : Type*} (t : Normalizer) (w : Providers κ) (input : AgentInput) (s : AgentState κ)

/-- What a node brings. -/
abbrev Visit (κ : Type*) := Option (AgentState κ) × List Effect

/-- `receive_question`. -/
def receiveQuestion : Visit κ :=
  if blank input.question.toList then
    (some ({ s with route := .reject, error := some "empty_question" }.addStep
      (.quiet "receive_question" .error (some "empty question"))), [])
  else (some (s.addStep (.quiet "receive_question" .ok none)), [])

/-- `guardrail_input_node`. -/
def guardrailInputNode : Visit κ :=
  let decision := validateInput t w.elapsed input.question input.jurisdiction
  let step := NodeStep.quiet "guardrail_input" .ok
  if decision.action ≠ .allow then
    (some ({ s with
      route := .reject
      answer := decision.answer
      guardrailEvents := s.guardrailEvents ++ decision.event.toList }.addStep
        (step (some ("outcome=" ++ decision.action.value)))), [])
  else (some (s.addStep (step (some "outcome=allowed"))), [])

/-- `route_node`; the routing model is asked if there is a key and no preference. -/
def routeStateNode : Visit κ :=
  let (decision, traced) :=
    routeNode input.routePreference w.apiKey w.ticketInQuestion w.routing
  let effects :=
    if input.routePreference = .auto ∧ w.apiKey = true then [Effect.routingModel input.question]
    else []
  (some ({ s with route := .routed decision.route, ticketId := decision.ticketId }.addStep
    traced.1), effects)

/-- The jurisdictions that have policies. -/
def jurisdictions : List String := ["US", "ES"]

/-- `retrieve` of the pipeline. -/
def retrieveChunks (minScore : ℚ) (jurisdiction : String) (points : List ScoredPoint) :
    List Evidence :=
  let hits := points.filter fun point => point.score.any fun score => decide (minScore ≤ score)
  (hits.map ScoredPoint.payload).filter fun payload =>
    decide (payload.jurisdiction ∈ [jurisdiction, "GLOBAL"])

/-- `retrieve_node`. -/
def retrieveNode : Visit κ :=
  match input.jurisdiction.filter fun jurisdiction => decide (jurisdiction ∈ jurisdictions) with
  | none =>
    (some ({ s with
      route := .reject
      answer := some jurisdictionRequired
      guardrailEvents := s.guardrailEvents ++
        [GuardrailEvent.mk "retrieval" "jurisdiction_missing" "security" "clarification"
          0] }.addStep (.quiet "retrieve" .error (some "jurisdiction missing"))), [])
  | some jurisdiction =>
    let effects := [Effect.retrieve input.question jurisdiction]
    match w.points.map (retrieveChunks w.minScore jurisdiction) with
    | none =>
      (some ({ s with retrieved := some [], error := some "retrieval_failed" }.addStep
        (.quiet "retrieve" .error (some "retrieval failed"))), effects)
    | some chunks =>
      let safeChunks := chunks.filter fun chunk => evidenceIsSafe t chunk.text
      let events :=
        if safeChunks.length ≠ chunks.length then
          [GuardrailEvent.mk "evidence" "retrieved_instruction" "security" "blocked"
            (w.elapsed "retrieved_instruction")]
        else []
      (some ({ s with
        retrieved := some safeChunks
        guardrailEvents := s.guardrailEvents ++ events }.addStep
          (.quiet "retrieve" .ok (some ("chunks=" ++ toString safeChunks.length)))), effects)

/-- A block of the ticket tool. -/
def ticketBlock (source text : String) : Evidence := ⟨source, "status", text, "", "", ""⟩

/-- `text` of the ticket tool. -/
def ticketText (ticketId : ℤ) (result : TicketLookup) : String :=
  match result.outcome, result.ticket with
  | .ok, some ticket =>
    "Ticket " ++ toString ticket.ticketId ++ ": status=" ++ ticket.status ++ ", category=" ++
      ticket.category ++ ", opened " ++ ticket.createdAt ++ ", last updated " ++
      ticket.updatedAt ++ "."
  | .notFound, _ =>
    "Ticket " ++ toString ticketId ++ " was not found in the incident system."
  | _, _ =>
    "The current status of ticket " ++ toString ticketId ++
      " could not be confirmed right now. " ++
      "Tell the user you couldn't confirm it and to try again shortly."

/-- `call_status`, `step_status` and `notes` of the ticket tool. -/
def ticketOutcome (result : TicketLookup) : String × StepStatus × String :=
  match result.outcome, result.ticket with
  | .ok, some ticket => ("ok", .ok, "status=" ++ ticket.status)
  | .notFound, _ => ("ok", .ok, "not_found")
  | .timeout, _ => ("timeout", .error, "timeout")
  | outcome, _ => ("error", .error, outcome.value)

/-- The block that stands for a ticket that was not asked for. -/
def missingId : Evidence := ticketBlock "ticket" "No ticket id was provided."

/-- The block that stands for an answer of the tool that is no evidence. -/
def blockedEvidence : Evidence := ticketBlock "ticket" "Tool evidence was blocked."

/-- `ticket_tool_node`. -/
def ticketToolNode : Visit κ :=
  match s.ticketId.filter fun id => validateTicketArgument (some id) with
  | none =>
    (some ({ s with
      toolContext := s.toolContext ++ [missingId]
      toolCalls := s.toolCalls ++
        [ToolCall.mk "ticket_status" "error" 0 (some "missing_id")] }.addStep
          (.quiet "ticket_tool" .error (some "missing ticket id"))), [])
  | some ticketId =>
    let result := w.lookup ticketId
    let text := ticketText ticketId result
    let (callStatus, stepStatus, notes) := ticketOutcome result
    let errorType := if callStatus = "ok" then none else some result.outcome.value
    if evidenceIsSafe t text then
      (some ({ s with
        toolContext := s.toolContext ++ [ticketBlock ("ticket-" ++ toString ticketId) text]
        toolCalls := s.toolCalls ++
          [ToolCall.mk "ticket_status" callStatus result.durationMs errorType]
        authoritativeStatus := result.ticket.map TicketStatus.status }.addStep
          (.quiet "ticket_tool" stepStatus (some notes))), [.lookup ticketId])
    else
      (some ({ s with
        toolContext := s.toolContext ++ [blockedEvidence]
        toolCalls := s.toolCalls ++
          [ToolCall.mk "ticket_status" "denied" result.durationMs errorType]
        guardrailEvents := s.guardrailEvents ++
          [GuardrailEvent.mk "evidence" "tool_instruction" "security" "blocked"
            result.durationMs] }.addStep
              (.quiet "ticket_tool" .error (some "unsafe tool evidence"))), [.lookup ticketId])

/-- The evidence of the turn itself. -/
def AgentState.current : List Evidence := s.retrieved.getD [] ++ s.toolContext

/-- `" ".join(…).casefold()` of the texts of the evidence. -/
def currentText (current : List Evidence) : List Char :=
  casefold t.toTables (List.intercalate [' '] (current.map fun block => block.text.toList))

/-- A memory that is usable beside the evidence. -/
def isUsable (current : List Evidence) (memory : Evidence) : Bool :=
  let carrierName := casefold t.toTables memory.carrierName.toList
  let conflict :=
    (memory.subjectKey ≠ "" ∧ memory.subjectKey ∈ current.map Evidence.subjectKey) ∨
      (carrierName ≠ [] ∧ carrierName <:+: currentText t current)
  !decide conflict && evidenceIsSafe t memory.text

/-- `usable_memory`. -/
def usableMemory : List Evidence × List GuardrailEvent :=
  let usable := input.memoryEvidence.filter (isUsable t s.current)
  (usable,
    if usable.length ≠ input.memoryEvidence.length then
      [⟨"memory", "memory_authority_omitted", "content", "blocked", 0⟩]
    else [])

/-- What the output rules are told of a run. -/
def outputContext (hasGroundedEvidence : Bool) : OutputContext where
  jurisdiction := input.jurisdiction
  authoritativeStatus := s.authoritativeStatus
  hasGroundedEvidence := hasGroundedEvidence

/-- The event of an answer that is blocked. -/
def outputEvent (ruleId : String) : GuardrailEvent :=
  ⟨"output", ruleId, "content", "blocked", w.elapsed ruleId⟩

/-- `generate_node` and `no_context_node`, which differ in the context, the name and the notes. -/
def generationNode (nodeName notes : String) (context : List Evidence)
    (events : List GuardrailEvent) : Visit κ :=
  let generation := w.generate context
  let streamed : Streamed :=
    if w.streaming then
      guardedStream t.toTables (outputContext input s (!context.isEmpty)) [] generation.deltas
    else ⟨none, []⟩
  let tokens := streamed.emitted.map Effect.token
  match streamed.blocked with
  | some ruleId =>
    (some ({ s with
      answer := some outputFallback
      route := .reject
      guardrailEvents := s.guardrailEvents ++ [outputEvent w ruleId] }.addStep
        (.quiet "generate" .ok (some "stream blocked"))),
      .generate context :: tokens ++ [.token outputFallback.toList])
  | none =>
    let effects := .generate context :: tokens
    match generation.ending with
    | .cancelled => (none, effects)
    | .failed _ =>
      (some ({ s with error := some "generation_failed" }.addStep
        (.quiet nodeName .error (some "generation failed"))), effects)
    | .answered answer candidate usage =>
      (some ({ s with
        answer := some answer
        memoryCandidate := candidate
        guardrailEvents := s.guardrailEvents ++ events }.addStep
          ⟨nodeName, .ok, some notes, usageFields usage⟩), effects)

/-- `generate_node`. -/
def generateStateNode : Visit κ :=
  let (memory, events) := usableMemory t input s
  generationNode t w input s "generate" "grounded answer" (s.current ++ memory) events

/-- `no_context_node`. -/
def noContextNode : Visit κ :=
  let (memory, events) := usableMemory t input s
  generationNode t w input s "no_context" "no current context" memory events

/-- `guardrail_output_node`. -/
def guardrailOutputNode : Visit κ :=
  let memory := (usableMemory t input s).1
  let context := outputContext input s (!(s.current ++ memory).isEmpty)
  match validateOutput t.toTables context (s.answer.getD "").toList with
  | some ruleId =>
    (some ({ s with
      answer := some outputFallback
      route := .reject
      guardrailEvents := s.guardrailEvents ++ [outputEvent w ruleId] }.addStep
        (.quiet "guardrail_output" .ok (some "outcome=blocked"))), [])
  | none => (some (s.addStep (.quiet "guardrail_output" .ok (some "outcome=allowed"))), [])

/-- `memory_selfeval_node`. -/
def memorySelfevalNode : Visit κ :=
  let outcome := if s.memoryCandidate.isSome then "candidate" else "none"
  (some (s.addStep (.quiet "memory_selfeval" .ok (some ("outcome=" ++ outcome)))), [])

/-- A node of the graph. -/
def Node.visit (n : Node) : Visit κ :=
  match n with
  | .receiveQuestion => Agents.receiveQuestion input s
  | .guardrailInput => guardrailInputNode t w input s
  | .route => routeStateNode w input s
  | .retrieve => retrieveNode t w input s
  | .ticketTool => ticketToolNode t w s
  | .generate => generateStateNode t w input s
  | .noContext => noContextNode t w input s
  | .guardrailOutput => guardrailOutputNode t w input s
  | .memorySelfeval => memorySelfevalNode s

/-- The edges of the graph. -/
def Node.next (n : Node) : Option Node :=
  match n with
  | .receiveQuestion => if s.route = .reject then none else some .guardrailInput
  | .guardrailInput => if s.route = .reject then none else some .route
  | .route => if s.route = .routed .ticket then some .ticketTool else some .retrieve
  | .retrieve =>
    if s.route = .reject then none
    else if s.error.any (· ≠ "") then none
    else if s.route = .routed .both then some .ticketTool
    else if s.retrieved.getD [] ≠ [] then some .generate else some .noContext
  | .ticketTool => some .generate
  | .generate => some .guardrailOutput
  | .noContext => some .guardrailOutput
  | .guardrailOutput => if s.route = .reject then none else some .memorySelfeval
  | .memorySelfeval => none

/-- How many nodes can follow. -/
def Node.rank : Node → ℕ
  | .receiveQuestion => 7
  | .guardrailInput => 6
  | .route => 5
  | .retrieve => 4
  | .ticketTool => 3
  | .generate => 2
  | .noContext => 2
  | .guardrailOutput => 1
  | .memorySelfeval => 0

/-- The edges lead to nodes behind which fewer can follow. -/
theorem Node.rank_lt {n m : Node} {s : AgentState κ} (h : n.next s = some m) : m.rank < n.rank := by
  cases n with
  | ticketTool | generate | noContext =>
    cases h
    decide
  | memorySelfeval => cases h
  | receiveQuestion | guardrailInput | route | retrieve | guardrailOutput =>
    simp only [Node.next] at h
    split_ifs at h <;> cases h <;> decide

/-- `build_graph`. -/
def agentGraph : StateGraph Node (AgentState κ) Effect where
  visit n s := n.visit t w input s
  next n s := n.next s
  rank := Node.rank
  rank_lt := Node.rank_lt

/-- The names of the steps that a run took. -/
def AgentState.stepNames : List String := s.steps.map fun numbered => numbered.step.nodeName

/-- `_route_taken`. -/
def routeTaken (reject : Bool) : String :=
  let ranTool := "ticket_tool" ∈ s.stepNames
  let ranRag := "retrieve" ∈ s.stepNames
  if reject then "reject"
  else if ranTool ∧ ranRag then "both"
  else if ranTool then "ticket"
  else if "no_context" ∈ s.stepNames then "rag:no_context"
  else "rag"

/-- `AgentRunResult`, with what the trace and the memory are written from. -/
structure GraphResult (κ : Type*) extends AgentRunResult where
  steps : List NumberedStep
  toolCalls : List ToolCall
  memoryCandidate : Option κ

/-- The result of a final state. -/
def AgentState.result (traceId : String) : GraphResult κ :=
  let reject := decide (s.route = .reject)
  { traceId := traceId
    status := if reject then .rejected else if s.error.any (· ≠ "") then .error else .ok
    routeTaken := routeTaken s reject
    answer := s.answer
    guardrailEvents := s.guardrailEvents
    steps := s.steps
    toolCalls := s.toolCalls
    memoryCandidate := s.memoryCandidate }

/-- `run_agent`; `none` if an exception leaves it. -/
def runAgent (traceId : String) : Option (GraphResult κ) × List Effect :=
  let run := (agentGraph t w input).invoke .receiveQuestion .initial
  (run.1.map fun final => final.result traceId, run.2)

end

end Agents

end TrackFlow
