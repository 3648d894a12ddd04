import TrackFlow.Agents.Pricing

/-!
# The nodes of the agent graph that call a provider

`routing.py` and the nodes `route`, `generate` and `no_context` of `graph.py`, each with the
provider calls that it makes.

* `routeQuestion` : the decision of the router.
* `routeNode`, `generateNode` : the steps.
* `tells_routeNode`, `tells_generateNode` : **each tells of all its calls, or of none.**
-/

namespace TrackFlow

namespace Agents

/-- Where a question is routed. -/
inductive Route
  | rag
  | ticket
  | both
  deriving DecidableEq, Repr

/-- The value of a route. -/
def Route.value : Route → String
  | .rag => "rag"
  | .ticket => "ticket"
  | .both => "both"

/-- `route_preference`. -/
inductive RoutePreference
  | auto
  | knowledge
  | ticket
  deriving DecidableEq, Repr

/-- `RouteDecision`. -/
structure RouteDecision where
  route : Route
  ticketId : Option ℤ
  usage : Option ModelUsage
  deriving DecidableEq

/-- What the call of the routing model brings. -/
inductive RouteAnswer
  /-- A response, parsed if it is a `_RouteModel`, with its usage. -/
  | answered (parsed : Option (Route × Option ℤ)) (usage : Option ModelUsage)
  /-- An exception. -/
  | raised

/-- `_heuristic`; `found` is the id that `_TICKET_RE` finds in the question. -/
def heuristic (found : Option ℤ) : RouteDecision :=
  match found with
  | some ticketId => ⟨.ticket, some ticketId, none⟩
  | none => ⟨.rag, none, none⟩

/-- `route_question`, with the calls that it makes. -/
def routeQuestion (preference : RoutePreference) (apiKey : Bool) (found : Option ℤ)
    (answer : RouteAnswer) : RouteDecision × StepCalls :=
  match preference with
  | .knowledge => (⟨.rag, none, none⟩, ⟨[], false⟩)
  | .ticket =>
    match (heuristic found).ticketId with
    | some ticketId => (⟨.ticket, some ticketId, none⟩, ⟨[], false⟩)
    | none => (⟨.rag, none, none⟩, ⟨[], false⟩)
  | .auto =>
    if apiKey = false then (heuristic found, ⟨[], false⟩)
    else
      match answer with
      | .raised => (heuristic found, ⟨[none], true⟩)
      | .answered parsed usage =>
        let route := (parsed.map Prod.fst).getD .rag
        let ticketId := parsed.bind Prod.snd
        if route = .ticket ∨ route = .both then
          match ticketId.or (heuristic found).ticketId with
          -- the decision is built anew, without the usage
          | none => (⟨.rag, none, none⟩, ⟨[usage], true⟩)
          | some ticketId => (⟨route, some ticketId, usage⟩, ⟨[usage], false⟩)
        else (⟨route, ticketId, usage⟩, ⟨[usage], false⟩)

/-- `route_node`. -/
def routeNode (preference : RoutePreference) (apiKey : Bool) (found : Option ℤ)
    (answer : RouteAnswer) : RouteDecision × TracedStep :=
  let (decision, calls) := routeQuestion preference apiKey found answer
  (decision, ⟨"route", .ok, some ("route=" ++ decision.route.value), usageFields decision.usage⟩,
    calls)

/-- What `generate_answer` brings to a node. -/
inductive GenerateAnswer
  /-- A `GenerationResult`, with its usage. -/
  | generated (usage : Option ModelUsage)
  /-- `GenerationCancelled` because the streamed answer was blocked. -/
  | blocked (reported : Option ModelUsage)
  /-- `GenerationCancelled` because the turn was cancelled. -/
  | cancelled
  /-- Any other exception; the call may have reported usage with an answer that was refused. -/
  | failed (reported : Option ModelUsage)

/-- `generate_node` and `no_context_node`; `none` if the exception leaves the node.  The step of a
blocked stream has one name in both. -/
def generateNode (nodeName notes : String) : GenerateAnswer → Option TracedStep
  | .generated usage =>
    some (⟨nodeName, .ok, some notes, usageFields usage⟩, ⟨[usage], false⟩)
  | .blocked reported => some (.quiet "generate" .ok (some "stream blocked"), ⟨[reported], true⟩)
  | .cancelled => none
  | .failed reported =>
    some (.quiet nodeName .error (some "generation failed"), ⟨[reported], true⟩)

section

variable {preference : RoutePreference} {apiKey : Bool} {found : Option ℤ} {answer : RouteAnswer}

/-- The decision carries the usage of the call, unless the call is dropped. -/
theorem usage_of_routeQuestion :
    usageFields (routeQuestion preference apiKey found answer).1.usage =
      (routeQuestion preference apiKey found answer).2.usage := by
  have hheuristic (dropped : Bool) (calls : List (Option ModelUsage))
      (h : calls = [] ∨ dropped = true) :
      usageFields (heuristic found).usage = StepCalls.usage ⟨calls, dropped⟩ := by
    have hnone : (heuristic found).usage = none := by cases found <;> rfl
    rw [hnone]
    rcases h with rfl | rfl
    · cases dropped <;> rfl
    · rfl
  cases preference with
  | knowledge => rfl
  | ticket =>
    unfold routeQuestion
    dsimp only
    split <;> rfl
  | auto =>
    unfold routeQuestion
    dsimp only
    split_ifs with hkey
    · exact hheuristic _ _ (.inl rfl)
    cases answer with
    | raised => exact hheuristic _ _ (.inr rfl)
    | answered parsed usage =>
      dsimp only
      split_ifs with hroute
      · cases parsed.bind Prod.snd |>.or (heuristic found).ticketId with
        | none => rfl
        | some ticketId => exact usage_of_single_call usage
      · exact usage_of_single_call usage

/-- **The route step tells of all its calls, or of none.** -/
theorem tells_routeNode : (routeNode preference apiKey found answer).2.Tells :=
  usage_of_routeQuestion

/-- **A generation step tells of all its calls, or of none.** -/
theorem tells_generateNode {nodeName notes : String} {answer : GenerateAnswer}
    {traced : TracedStep} (h : generateNode nodeName notes answer = some traced) :
    traced.Tells := by
  cases answer with
  | generated usage =>
    cases h
    exact usage_of_single_call usage
  | blocked reported =>
    cases h
    rfl
  | cancelled => cases h
  | failed reported =>
    cases h
    rfl

end

end Agents

end TrackFlow
