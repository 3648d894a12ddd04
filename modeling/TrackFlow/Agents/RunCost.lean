import TrackFlow.Agents.Nodes
import TrackFlow.Rfp.IntakeGraph

/-!
# The cost of a run

A recorded run is a sequence of nodes of the agent graph, of the intake, of the generation or of the
approval, whose steps `persist_run` adds up.  A step tells of the calls of its node unless the node
ends on a path that drops them.

* `NodeRun` : a node with everything that happens in it.
* `recordedTrace` : the trace of a run.
* `persisted_eq_combineUsage_iff` : **when the totals of a run are those of all its calls.**
* `exists_nodes_of_runIntake`, `exists_nodes_of_generation` : the traces of intakes and of
  generations are such traces.
-/

namespace TrackFlow

namespace Agents

open Rfp

/-- How a redraft in the approval ends. -/
inductive ReviseEnd
  | capReached
  /-- `RagPipelineError`; the call may have reported usage before it was found to be empty. -/
  | generationError (reported : Option ModelUsage)
  | redrafted (usage : Option ModelUsage)

/-- `revise`. -/
def reviseNode : ReviseEnd → TracedStep
  | .capReached => (.quiet "revise" .ok (some "cap_reached"), ⟨[], false⟩)
  | .generationError reported => (.quiet "revise" .error none, ⟨[reported], true⟩)
  | .redrafted usage =>
    (⟨"revise", .ok, some "redrafted", usageFields usage⟩, ⟨[usage], false⟩)

/-- A node of a graph, with what happens in it. -/
inductive NodeRun
  /-- A node that calls no provider. -/
  | quiet (nodeName : String) (status : StepStatus) (notes : Option String)
  | route (preference : RoutePreference) (apiKey : Bool) (found : Option ℤ) (answer : RouteAnswer)
  | generate (answer : GenerateAnswer)
  | noContext (answer : GenerateAnswer)
  | classify (answer : Answer ClassificationResult)
  | extract (answer : Answer MetadataResult)
  | workers (answer : Department → Answer (List String)) (departments : List Department)
  | departmentSection (maxIterations : ℕ) (attempt : ℕ → Attempt) (row : DepartmentSection)
  | revise (outcome : ReviseEnd)

/-- The step of a node; `none` if an exception leaves it. -/
def NodeRun.traced : NodeRun → Option TracedStep
  | .quiet nodeName status notes => some (.quiet nodeName status notes, ⟨[], false⟩)
  | .route preference apiKey found answer => some (routeNode preference apiKey found answer).2
  | .generate answer => generateNode "generate" "grounded answer" answer
  | .noContext answer => generateNode "no_context" "no current context" answer
  | .classify answer => some (classifyNode answer).2
  | .extract answer => some (extractNode answer).2
  | .workers answer departments => some (workersNode answer departments).2
  | .departmentSection maxIterations attempt row =>
    (generateOne maxIterations attempt row).map Prod.snd
  | .revise outcome => some (reviseNode outcome)

/-- The trace of a run; a run that an exception leaves is not recorded. -/
def recordedTrace (nodes : List NodeRun) : Option (List TracedStep) := nodes.mapM NodeRun.traced

/-- The totals that `persist_run` stores for a trace. -/
def persisted (trace : List TracedStep) : Option ℕ × Option ℚ :=
  runTotals (trace.map fun traced => traced.1.usage)

/-- The provider calls of a trace. -/
def providerCalls (trace : List TracedStep) : List (Option ModelUsage) :=
  trace.flatMap fun traced => traced.2.calls

section

variable {nodes : List NodeRun} {trace : List TracedStep}

theorem tells_reviseNode (outcome : ReviseEnd) : (reviseNode outcome).Tells := by
  cases outcome with
  | capReached => rfl
  | generationError reported => rfl
  | redrafted usage => exact usage_of_single_call usage

/-- Every node tells of all its calls, or of none. -/
theorem NodeRun.tells {node : NodeRun} {traced : TracedStep} (h : node.traced = some traced) :
    traced.Tells := by
  cases node with
  | quiet nodeName status notes =>
    cases h
    exact tells_quiet _ _ _ _
  | route preference apiKey found answer =>
    cases h
    exact tells_routeNode
  | generate answer => exact tells_generateNode h
  | noContext answer => exact tells_generateNode h
  | classify answer =>
    cases h
    exact tells_singleCallNode _ _ _
  | extract answer =>
    cases h
    exact tells_singleCallNode _ _ _
  | workers answer departments =>
    cases h
    exact tells_workersNode _ _
  | departmentSection maxIterations attempt row =>
    obtain ⟨⟨row', step, calls⟩, hone, rfl⟩ := Option.map_eq_some_iff.1 h
    exact usage_of_generateOne hone
  | revise outcome =>
    cases h
    exact tells_reviseNode outcome

/-- Every step of a recorded run tells of all its calls, or of none. -/
theorem tells_recordedTrace (h : recordedTrace nodes = some trace) :
    ∀ traced ∈ trace, traced.Tells := by
  induction nodes generalizing trace with
  | nil =>
    cases h
    exact fun _ hmem => absurd hmem List.not_mem_nil
  | cons node nodes ih =>
    unfold recordedTrace at h
    rw [List.mapM_cons] at h
    obtain ⟨traced, hnode, h⟩ := Option.bind_eq_some_iff.1 h
    obtain ⟨rest, hrest, h⟩ := Option.bind_eq_some_iff.1 h
    cases h
    intro x hx
    rcases List.mem_cons.1 hx with rfl | hx
    · exact NodeRun.tells hnode
    · exact ih hrest x hx

/-- **When the totals of a run are those of all its calls.**  The persisted tokens and cost of a
recorded run are those of all its provider calls if and only if no usage of weight is dropped, and
an unpriced call leaves no step with a cost of its own. -/
theorem persisted_eq_combineUsage_iff (h : recordedTrace nodes = some trace) :
    persisted trace = combineUsage (providerCalls trace) ↔ Accounted (trace.map Prod.snd) := by
  have husage : (trace.map fun traced => traced.1.usage) =
      (trace.map Prod.snd).map StepCalls.usage := by
    rw [List.map_map]
    exact List.map_congr_left (tells_recordedTrace h)
  have hcalls : providerCalls trace = (trace.map Prod.snd).flatMap StepCalls.calls :=
    (List.flatMap_map Prod.snd StepCalls.calls trace).symm
  unfold persisted
  rw [husage, hcalls]
  exact runTotals_eq_combineUsage_iff _

/-- The trace of an intake is the trace of a run. -/
theorem exists_nodes_of_runIntake (answers : IntakeAnswers) :
    ∃ nodes, recordedTrace nodes = some (runIntake answers).2 := by
  unfold runIntake
  dsimp only
  split
  · exact ⟨[.classify answers.classify], rfl⟩
  split_ifs
  · exact ⟨[.classify answers.classify], rfl⟩
  split
  · exact ⟨[.classify answers.classify, .extract answers.extract], rfl⟩
  rename_i metadata _
  set departments := planDepartments metadata.servicesRequested
  split
  · exact ⟨[.classify answers.classify, .extract answers.extract,
      .quiet "orchestrate" .ok (some ("departments=" ++ toString departments.length)),
      .workers answers.aspects departments], rfl⟩
  · exact ⟨[.classify answers.classify, .extract answers.extract,
      .quiet "orchestrate" .ok (some ("departments=" ++ toString departments.length)),
      .workers answers.aspects departments, .quiet "synthesize" .ok none], rfl⟩

/-- The steps of a generation are the trace of a run. -/
theorem exists_nodes_of_generation (maxIterations : ℕ)
    (sections : List (DepartmentSection × (ℕ → Attempt)))
    (h : sections.mapM (fun s => (generateOne maxIterations s.2 s.1).map Prod.snd) = some trace) :
    ∃ nodes, recordedTrace nodes = some trace := by
  refine ⟨sections.map fun s => .departmentSection maxIterations s.2 s.1, ?_⟩
  unfold recordedTrace
  rw [List.mapM_map]
  exact h

end

/-! ### Runs that are counted in part -/

/-- The usage of 100 and 20 tokens of a model. -/
def usageOf (model : String) : Option ModelUsage :=
  buildUsage ⟨some 100, some 20, some 120, some 0⟩ model

/-- A question that is routed by a priced model. -/
def routedQuestion : List NodeRun :=
  [.quiet "receive_question" .ok none,
    .route .auto true none (.answered (some (.rag, none)) (usageOf "gpt-4o-mini"))]

/-- The totals of a routed question are those of its calls. -/
theorem accounted_routedQuestion : ∃ trace, recordedTrace routedQuestion = some trace ∧
    persisted trace = combineUsage (providerCalls trace) ∧ Accounted (trace.map Prod.snd) := by
  refine ⟨_, rfl, ?_, ?_⟩
  · decide +kernel
  · exact (@persisted_eq_combineUsage_iff routedQuestion _ rfl).1 (by decide +kernel)

/-- A question that is routed by a priced model and answered by an unpriced one. -/
def answeredQuestion : List NodeRun :=
  routedQuestion ++ [.generate (.generated (usageOf "deepseek-chat"))]

/-- A section whose first draft does not pass and whose second draft fails. -/
def failedRedraft : List NodeRun :=
  [.departmentSection 2
    (fun iteration =>
      if iteration = 1 then .drafted "draft" (usageOf "deepseek-chat") ⟨false, []⟩
      else .pipelineError none)
    ⟨"t", .warehouse, [], none, none, 0, .pending, 0⟩]

/-- The persisted cost of an answered question is that of its routing, although the answer is
unpriced; and the tokens of a first draft are lost when its redraft fails. -/
theorem cost_is_partial :
    (∃ trace, recordedTrace answeredQuestion = some trace ∧
      persisted trace = (some 240, some (27 / 1000000)) ∧
      combineUsage (providerCalls trace) = (some 240, none)) ∧
    ∃ trace, recordedTrace failedRedraft = some trace ∧
      persisted trace = (none, none) ∧ combineUsage (providerCalls trace) = (some 120, none) := by
  refine ⟨⟨_, rfl, ?_, ?_⟩, ⟨_, rfl, ?_, ?_⟩⟩
  · decide +kernel
  · decide +kernel
  · decide +kernel
  · decide +kernel

end Agents

end TrackFlow
