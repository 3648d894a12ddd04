import Mathlib.Data.List.Basic
import Mathlib.Logic.Function.Basic

/-!
# Proposals

The rows of the proposal tables, and the approval graph of one department: `review` waits for a
decision, `approve` and `reject` end the thread, `revise` drafts the section again and goes back to
`review`.

* `Section`, `FinalDocument` : the rows.
* `Section.flush` : a commit writes the columns that changed since the row was loaded.
* `Checkpoint` : what the checkpointer keeps of a thread.
* `runNode` : one node of the graph.
-/

namespace TrackFlow

namespace Rfp

/-! ## The tables -/

/-- `TICKET_STATUS_VALUES`. -/
inductive TicketStatus
  | analyzing | waitingForApproval | drafting | underEvaluation | done | discarded
  deriving DecidableEq, Repr

/-- `DEPARTMENT_VALUES`. -/
inductive Department
  | warehouse | lastmile | reverse
  deriving DecidableEq, Repr

/-- `APPROVAL_STATUS_VALUES`. -/
inductive ApprovalStatus
  | pending | approved | rejected | changesRequested
  deriving DecidableEq, Repr

/-- `CURRENCY_VALUES`. -/
inductive Currency
  | usd | eur
  deriving DecidableEq, Repr

/-- What the evaluators say about a draft. -/
structure Evaluation where
  passed : Bool
  issues : List String
  deriving DecidableEq, Repr

/-- `RfpDepartmentSection`: the section of one department. -/
structure Section where
  draftContent : Option String
  evaluationResults : Option Evaluation
  iterationCount : ℕ
  approvalStatus : ApprovalStatus
  approver : Option String
  deriving DecidableEq, Repr

/-- The text of a section, `draft_content or ""`. -/
def Section.text (row : Section) : String := row.draftContent.getD ""

/-- `RfpFinalDocument`. -/
structure FinalDocument (δ : Type) where
  sections : List (δ × String)
  currency : Currency
  deriving DecidableEq, Repr

/-- The row after a commit of `changed`, which was read as `loaded`: a column is written if its
value differs from the one that was loaded. -/
def Section.flush (loaded changed row : Section) : Section where
  draftContent :=
    if changed.draftContent = loaded.draftContent then row.draftContent else changed.draftContent
  evaluationResults :=
    if changed.evaluationResults = loaded.evaluationResults then row.evaluationResults
    else changed.evaluationResults
  iterationCount :=
    if changed.iterationCount = loaded.iterationCount then row.iterationCount
    else changed.iterationCount
  approvalStatus :=
    if changed.approvalStatus = loaded.approvalStatus then row.approvalStatus
    else changed.approvalStatus
  approver := if changed.approver = loaded.approver then row.approver else changed.approver

/-- A commit of a row that nobody else has written since writes all of it. -/
theorem Section.flush_self (loaded changed : Section) : flush loaded changed loaded = changed := by
  cases changed
  simp only [flush, Section.mk.injEq, ite_eq_right_iff]
  exact ⟨Eq.symm, Eq.symm, Eq.symm, Eq.symm, Eq.symm⟩

/-! ## The approval graph -/

/-- `VALID_ACTIONS`. -/
inductive Action
  | approve | reject | requestChanges
  deriving DecidableEq, Repr

/-- How a thread ends. -/
inductive Outcome
  | approved | rejected | changesExhausted | generationError
  deriving DecidableEq, Repr

/-- The nodes of the graph. -/
inductive Node
  | review | approve | reject | revise
  deriving DecidableEq, Repr

/-- `ApprovalState`. -/
structure ApprovalState where
  draft : String
  iterations : ℕ
  maxIterations : ℕ
  feedback : List String
  evaluation : Option Evaluation
  decision : Option Action
  outcome : Option Outcome
  deriving DecidableEq, Repr

/-- What a thread has stored last; `next` is the node that runs next. -/
structure Checkpoint where
  id : ℕ
  values : ApprovalState
  next : Option Node
  deriving DecidableEq, Repr

/-- `_initial_state`. -/
def initialState (maxIterations : ℕ) (row : Section) : ApprovalState where
  draft := row.text
  iterations := if row.iterationCount = 0 then 1 else row.iterationCount
  maxIterations := maxIterations
  feedback := []
  evaluation := none
  decision := none
  outcome := none

/-- `invoke` with an input writes the input over what the thread has stored. -/
def writeInput (thread : Option Checkpoint) (input : ApprovalState) : ApprovalState :=
  match thread with
  | none => input
  | some stored =>
    { input with
      evaluation := stored.values.evaluation
      decision := stored.values.decision
      outcome := stored.values.outcome }

/-- `route_after_review`. -/
def routeAfterReview : Action → Node
  | .approve => .approve
  | .reject => .reject
  | .requestChanges => .revise

/-- The node `revise`; `redraft` is what the generator returned, with its evaluation. -/
def revise (redraft : Option (String × Evaluation)) (values : ApprovalState) : ApprovalState :=
  if values.maxIterations ≤ values.iterations then
    { values with outcome := some .changesExhausted }
  else
    match redraft with
    | none => { values with outcome := some .generationError }
    | some (draft, evaluation) =>
      { values with
        draft
        iterations := values.iterations + 1
        feedback := evaluation.issues
        evaluation := some evaluation }

/-- `after_revise`. -/
def afterRevise (values : ApprovalState) : Option Node :=
  if values.outcome.isSome then none else some .review

/-- One node: the values it leaves and the node after it. -/
def runNode (action : Action) (redraft : Option (String × Evaluation)) (values : ApprovalState) :
    Node → ApprovalState × Option Node
  | .review => ({ values with decision := some action }, some (routeAfterReview action))
  | .approve => ({ values with outcome := some .approved }, none)
  | .reject => ({ values with outcome := some .rejected }, none)
  | .revise => (revise redraft values, afterRevise (revise redraft values))

/-- The status of a section whose thread has ended. -/
def Outcome.status : Outcome → ApprovalStatus
  | .approved => .approved
  | .rejected => .rejected
  | .changesExhausted => .changesRequested
  | .generationError => .changesRequested

/-- What `submit_decision` writes into the section after the thread has moved. -/
def recordDecision (actor : String) (row : Section) (values : ApprovalState) (next : Option Node) :
    Section :=
  if next.isSome then
    { row with
      approvalStatus := .pending
      draftContent := some values.draft
      iterationCount := values.iterations
      evaluationResults := values.evaluation <|> row.evaluationResults }
  else
    match values.outcome with
    | some .approved => { row with approvalStatus := .approved, approver := some actor }
    | some .rejected => { row with approvalStatus := .rejected }
    | _ => { row with approvalStatus := .changesRequested }

section

variable {action : Action} {redraft : Option (String × Evaluation)} {values : ApprovalState}

theorem Outcome.status_ne_pending (outcome : Outcome) : outcome.status ≠ .pending := by
  cases outcome <;> decide

/-- A node that ends the thread has an outcome and keeps the draft; one that does not end it
leaves no outcome, and leads to a further node or, after a new draft, to a pause. -/
theorem runNode_cases (action : Action) (redraft : Option (String × Evaluation)) (node : Node)
    (houtcome : values.outcome = none) :
    (∃ outcome, (runNode action redraft values node).2 = none ∧
      (runNode action redraft values node).1.outcome = some outcome ∧
      (runNode action redraft values node).1.draft = values.draft) ∨
    (node ≠ .review ∧ (runNode action redraft values node).2 = some .review ∧
      (runNode action redraft values node).1.outcome = none) ∨
    (∃ further, node = .review ∧ further ≠ .review ∧
      (runNode action redraft values node).2 = some further ∧
      (runNode action redraft values node).1.outcome = none ∧
      (runNode action redraft values node).1.draft = values.draft) := by
  cases node with
  | review =>
    refine .inr (.inr ⟨routeAfterReview action, rfl, ?_, rfl, houtcome, rfl⟩)
    cases action <;> decide
  | approve => exact .inl ⟨.approved, rfl, rfl, rfl⟩
  | reject => exact .inl ⟨.rejected, rfl, rfl, rfl⟩
  | revise =>
    by_cases hcap : values.maxIterations ≤ values.iterations
    · exact .inl ⟨.changesExhausted, by simp [runNode, revise, afterRevise, hcap],
        by simp [runNode, revise, hcap], by simp [runNode, revise, hcap]⟩
    · cases redraft with
      | none =>
        exact .inl ⟨.generationError, by simp [runNode, revise, afterRevise, hcap],
          by simp [runNode, revise, hcap], by simp [runNode, revise, hcap]⟩
      | some redrafted =>
        refine .inr (.inl ⟨by decide, ?_, ?_⟩)
        · simp [runNode, revise, afterRevise, hcap, houtcome]
        · simp [runNode, revise, hcap, houtcome]

/-- The section of an ended thread: its status is the outcome, its text is kept. -/
theorem recordDecision_ended (actor : String) (row : Section) {outcome : Outcome}
    (h : values.outcome = some outcome) :
    (recordDecision actor row values none).approvalStatus = outcome.status ∧
      (recordDecision actor row values none).draftContent = row.draftContent := by
  cases outcome <;> simp [recordDecision, h, Outcome.status]

end

end Rfp

end TrackFlow
