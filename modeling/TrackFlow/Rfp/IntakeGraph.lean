import TrackFlow.Rfp.Generation

/-!
# The intake graph

`run_intake`: the document is classified, its metadata are extracted, the departments are planned
from the requested services, and a worker asks each department for its key aspects.  A node whose
model is unavailable, or answers with something unexpected, ends the graph with an error.

* `classifyNode`, `extractNode`, `workersNode` : the nodes that call a provider.
* `planDepartments` : the departments of the requested services, each once.
* `runIntake` : the outcome, with the trace.
-/

namespace TrackFlow

namespace Rfp

open Agents

/-- What a structured provider call brings. -/
inductive Answer (α : Type)
  /-- The expected result, with the usage of the call. -/
  | parsed (value : α) (usage : Option ModelUsage)
  /-- `RfpAgentError`; the call may have reported usage with a result that could not be parsed. -/
  | failed (detail : String) (reported : Option ModelUsage)

/-- `ClassificationResult`. -/
structure ClassificationResult where
  isRfp : Bool
  reason : String
  deriving DecidableEq, Repr

/-- `ServiceTag`. -/
inductive ServiceTag
  | warehousing
  | lastmile
  | returns
  deriving DecidableEq, Repr

/-- Countries of a client. -/
inductive Country
  | US
  | ES
  deriving DecidableEq, Repr

/-- `MetadataResult`; the services are listed once each. -/
structure MetadataResult where
  clientName : Option String
  clientCountry : Option Country
  servicesRequested : List ServiceTag
  monthlyVolume : Option ℕ
  deadlineDays : Option ℕ
  budgetRange : Option String
  deriving DecidableEq, Repr

/-- `CURRENCY_BY_COUNTRY`, through `currency_for`. -/
def currencyFor : Option Country → Option Currency
  | none => none
  | some .US => some .usd
  | some .ES => some .eur

/-- `_DEPARTMENT_BY_SERVICE`. -/
def departmentByService : ServiceTag → Department
  | .warehousing => .warehouse
  | .lastmile => .lastmile
  | .returns => .reverse

/-- `plan_departments`. -/
def planDepartments (servicesRequested : List ServiceTag) : List Department :=
  servicesRequested.foldl (fun departments service =>
    if departmentByService service ∈ departments then departments
    else departments ++ [departmentByService service]) []

/-- The departments are planned once each. -/
theorem nodup_planDepartments (services : List ServiceTag) : (planDepartments services).Nodup := by
  have hfold (services : List ServiceTag) (acc : List Department) (h : acc.Nodup) :
      (services.foldl (fun departments service =>
        if departmentByService service ∈ departments then departments
        else departments ++ [departmentByService service]) acc).Nodup := by
    induction services generalizing acc with
    | nil => exact h
    | cons service services ih =>
      rw [List.foldl_cons]
      refine ih _ ?_
      split_ifs with hmem
      · exact h
      · exact List.nodup_append.2 ⟨h, List.nodup_singleton _, by
          rintro a ha b hb rfl
          exact hmem (List.mem_singleton.1 hb ▸ ha)⟩
  exact hfold services [] List.nodup_nil

/-- A node that calls a provider once. -/
def singleCallNode {α : Type} (nodeName : String) (notes : α → Option String) :
    Answer α → Except String α × TracedStep
  | .parsed value usage =>
    (.ok value, ⟨nodeName, .ok, notes value, usageFields usage⟩, ⟨[usage], false⟩)
  | .failed detail reported =>
    (.error detail, .quiet nodeName .error none, ⟨[reported], true⟩)

/-- `classify_node`. -/
def classifyNode : Answer ClassificationResult → Except String ClassificationResult × TracedStep :=
  singleCallNode "classify" fun result => some (if result.isRfp then "rfp" else "not_rfp")

/-- `extract_node`. -/
def extractNode : Answer MetadataResult → Except String MetadataResult × TracedStep :=
  singleCallNode "extract_metadata" fun _ => none

/-- The loop of `workers_node`: the aspects and usages so far, or the error with all calls. -/
def workersLoop (answer : Department → Answer (List String)) :
    List Department → List (Department × List String) → List (Option ModelUsage) →
      Except (String × List (Option ModelUsage))
        (List (Department × List String) × List (Option ModelUsage))
  | [], aspects, usages => .ok (aspects, usages)
  | department :: departments, aspects, usages =>
    match answer department with
    | .parsed value usage =>
      workersLoop answer departments (aspects ++ [(department, value)]) (usages ++ [usage])
    | .failed detail reported => .error (detail, usages ++ [reported])

/-- `workers_node`. -/
def workersNode (answer : Department → Answer (List String)) (departments : List Department) :
    Except String (List (Department × List String)) × TracedStep :=
  match workersLoop answer departments [] [] with
  | .ok (aspects, usages) =>
    let usage := combineUsage usages
    (.ok aspects, ⟨"workers", .ok, some ("workers=" ++ toString aspects.length),
      ⟨usage.1, usage.2⟩⟩, ⟨usages, false⟩)
  | .error (detail, calls) => (.error detail, .quiet "workers" .error none, ⟨calls, true⟩)

/-- What the models answer during an intake. -/
structure IntakeAnswers where
  classify : Answer ClassificationResult
  extract : Answer MetadataResult
  aspects : Department → Answer (List String)

/-- `IntakeOutcome.status`, with what is applied to the ticket. -/
inductive IntakeResult
  | discarded (reason : String)
  | error (detail : String)
  | routed (metadata : MetadataResult) (departmentAspects : List (Department × List String))
  deriving DecidableEq, Repr

/-- The departments of an outcome. -/
def IntakeResult.departments : IntakeResult → List Department
  | .routed metadata _ => planDepartments metadata.servicesRequested
  | _ => []

/-- `run_intake`: the outcome and the trace. -/
def runIntake (answers : IntakeAnswers) : IntakeResult × List TracedStep :=
  let classified := classifyNode answers.classify
  match classified.1 with
  | .error detail => (.error detail, [classified.2])
  | .ok classification =>
    if classification.isRfp = false then (.discarded classification.reason, [classified.2])
    else
      let extracted := extractNode answers.extract
      match extracted.1 with
      | .error detail => (.error detail, [classified.2, extracted.2])
      | .ok metadata =>
        let departments := planDepartments metadata.servicesRequested
        let orchestrated : TracedStep := (.quiet "orchestrate" .ok
          (some ("departments=" ++ toString departments.length)), ⟨[], false⟩)
        let worked := workersNode answers.aspects departments
        match worked.1 with
        | .error detail => (.error detail, [classified.2, extracted.2, orchestrated, worked.2])
        | .ok aspects =>
          (.routed metadata aspects, [classified.2, extracted.2, orchestrated, worked.2,
            (.quiet "synthesize" .ok none, ⟨[], false⟩)])

/-! ### What the steps tell -/

theorem tells_singleCallNode {α : Type} (nodeName : String) (notes : α → Option String)
    (answer : Answer α) : (singleCallNode nodeName notes answer).2.Tells := by
  cases answer with
  | parsed value usage => exact usage_of_single_call usage
  | failed detail reported => rfl

theorem tells_workersNode (answer : Department → Answer (List String))
    (departments : List Department) : (workersNode answer departments).2.Tells := by
  unfold workersNode
  split <;> rfl

end Rfp

end TrackFlow
