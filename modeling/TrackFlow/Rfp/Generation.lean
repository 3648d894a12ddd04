import TrackFlow.Agents.Pricing
import TrackFlow.Rfp.Models

/-!
# The generation of a section

`_generate_one`: a section is drafted until the evaluators pass it or the iterations are used up.
What the generator and the evaluators do in each iteration is an input.

* `generateLoop` : the loop.
* `generateOne` : the section, the trace step, and the provider calls behind it.
* `recorded_of_generateOne` : a section that comes back has a draft or a recorded error.
* `usage_of_generateOne` : what the step tells of the calls.
-/

namespace TrackFlow

namespace Rfp

open Agents

/-- The columns `evaluation_results`: `{"error": true}`, or the results of an iteration. -/
inductive EvaluationResults
  | error
  | evaluated (evaluation : Evaluation) (iterations : ℕ)
  deriving DecidableEq, Repr

/-- `RfpDepartmentSection`. -/
structure DepartmentSection where
  ticketId : String
  departmentId : Department
  keyAspects : List String
  draftContent : Option String
  evaluationResults : Option EvaluationResults
  iterationCount : ℕ
  approvalStatus : ApprovalStatus
  updatedAt : ℕ
  deriving DecidableEq, Repr

/-- The draft of the section or its generation error is recorded. -/
def DepartmentSection.Recorded (row : DepartmentSection) : Prop :=
  row.draftContent.isSome ∨ row.evaluationResults = some .error

instance (row : DepartmentSection) : Decidable row.Recorded := inferInstanceAs (Decidable (_ ∨ _))

/-- What happens in one iteration. -/
inductive Attempt
  /-- A draft, the usage of its call, and what the evaluators say. -/
  | drafted (draft : String) (usage : Option ModelUsage) (evaluation : Evaluation)
  /-- `RagPipelineError`; the call may have reported usage before it was found to be empty. -/
  | pipelineError (reported : Option ModelUsage)
  /-- Any other exception. -/
  | crashed

/-- The variables of the loop. -/
structure GenerateState where
  row : DepartmentSection
  draft : String
  passed : Bool
  iteration : ℕ
  usages : List (Option ModelUsage)

/-- How the loop ends. -/
inductive GenerateEnd
  | finished (s : GenerateState)
  /-- The return in the handler, with all calls that were made. -/
  | failed (row : DepartmentSection) (iteration : ℕ) (calls : List (Option ModelUsage))
  | crashed

/-- The loop over the iterations. -/
def generateLoop (attempt : ℕ → Attempt) : ℕ → GenerateState → GenerateEnd
  | 0, s => .finished s
  | n + 1, s =>
    let iteration := s.iteration + 1
    match attempt iteration with
    | .crashed => .crashed
    | .pipelineError reported => .failed s.row iteration (s.usages ++ [reported])
    | .drafted draft usage evaluation =>
      let s' : GenerateState :=
        { row := { s.row with evaluationResults := some (.evaluated evaluation iteration) }
          draft
          passed := evaluation.passed
          iteration
          usages := s.usages ++ [usage] }
      if evaluation.passed then .finished s' else generateLoop attempt n s'

/-- The value of a department. -/
def Department.value : Department → String
  | .warehouse => "warehouse"
  | .lastmile => "lastmile"
  | .reverse => "reverse"

/-- `_generate_one`, with the provider calls that it made; `none` if an exception leaves it. -/
def generateOne (maxIterations : ℕ) (attempt : ℕ → Attempt) (row : DepartmentSection) :
    Option (DepartmentSection × NodeStep × StepCalls) :=
  let node := "generate:" ++ row.departmentId.value
  match generateLoop attempt (max 1 maxIterations) ⟨row, "", false, 0, []⟩ with
  | .crashed => none
  | .failed row' iteration calls =>
    some ({ row' with
      draftContent := none
      evaluationResults := some .error
      iterationCount := iteration }, .quiet node .error none, ⟨calls, true⟩)
  | .finished s =>
    let usage := combineUsage s.usages
    some ({ s.row with draftContent := some s.draft, iterationCount := s.iteration },
      ⟨node, .ok, some (if s.passed then "passed" else "needs_human"), ⟨usage.1, usage.2⟩⟩,
      ⟨s.usages, false⟩)

section

variable {maxIterations : ℕ} {attempt : ℕ → Attempt} {row row' : DepartmentSection}
  {step : NodeStep} {calls : StepCalls}

/-- A section that comes back has a draft or a recorded error. -/
theorem recorded_of_generateOne (h : generateOne maxIterations attempt row =
    some (row', step, calls)) : row'.Recorded := by
  unfold generateOne at h
  split at h
  · cases h
  · cases h
    exact .inr rfl
  · cases h
    exact .inl rfl

/-- The step tells of all its calls, or of none. -/
theorem usage_of_generateOne (h : generateOne maxIterations attempt row =
    some (row', step, calls)) : step.usage = calls.usage := by
  unfold generateOne at h
  split at h
  · cases h
  · cases h
    rfl
  · cases h
    rfl

variable (attempt) in
/-- The loop leaves the identity of the section alone. -/
theorem row_of_generateLoop (n : ℕ) (s : GenerateState) :
    match generateLoop attempt n s with
    | .finished s' => s'.row.ticketId = s.row.ticketId ∧ s'.row.departmentId = s.row.departmentId
    | .failed row' _ _ => row'.ticketId = s.row.ticketId ∧ row'.departmentId = s.row.departmentId
    | .crashed => True := by
  induction n generalizing s with
  | zero => exact ⟨rfl, rfl⟩
  | succ n ih =>
    rw [generateLoop]
    cases attempt (s.iteration + 1) with
    | crashed => trivial
    | pipelineError reported => exact ⟨rfl, rfl⟩
    | drafted draft usage evaluation =>
      dsimp only
      split_ifs with hpassed
      · exact ⟨rfl, rfl⟩
      · exact ih _

/-- A section that comes back is the section of the same department. -/
theorem key_of_generateOne (h : generateOne maxIterations attempt row = some (row', step, calls)) :
    row'.ticketId = row.ticketId ∧ row'.departmentId = row.departmentId := by
  have hloop := row_of_generateLoop attempt (max 1 maxIterations) ⟨row, "", false, 0, []⟩
  unfold generateOne at h
  split at h
  · cases h
  · rename_i heq
    rw [heq] at hloop
    cases h
    exact hloop
  · rename_i heq
    rw [heq] at hloop
    cases h
    exact hloop

end

end Rfp

end TrackFlow
