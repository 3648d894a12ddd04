import TrackFlow.Inventory.Models
import Mathlib.Data.List.Sort

/-!
# The pipeline queue tables

The rows of `pipeline_runs` and `pipeline_run_attempts` with the columns that the functions of
`pipelines/business_performance/queue.py` read or write, and the pure helpers of that module:
the target weeks of a run, the retry backoff, the attempt evidence.

A date is its midnight in UTC, so an ISO Monday is a multiple of `week`.
-/

namespace TrackFlow

namespace Queue

/-- `PIPELINE_NAME`. -/
def pipelineName : String := "business_performance"

/-- `PIPELINE_VERSION`. -/
def pipelineVersion : String := "engagement-6-phase-5"

/-- `DEFAULT_RECOMPUTE_WEEKS`. -/
def defaultRecomputeWeeks : ℕ := 3

/-- `DEFAULT_LEASE_SECONDS`. -/
def defaultLeaseSeconds : ℕ := 900

/-- `DEFAULT_MAX_ATTEMPTS`. -/
def defaultMaxAttempts : ℕ := 5

/-- `DEFAULT_BACKOFF_SECONDS`. -/
def defaultBackoffSeconds : ℕ := 60

/-- Who asked for a run. -/
inductive TriggerType
  | scheduled
  | manual
  | cli
  deriving DecidableEq, Repr

/-- `pipeline_runs.status`. -/
inductive RunStatus
  | requested
  | running
  | retryable
  | succeeded
  | failed
  deriving DecidableEq, Repr

/-- Why a run did not succeed. -/
inductive ErrorCode
  | extractFailed
  | validateFailed
  | loadFailed
  | dbUnavailable
  | lockUnavailable
  | staleAbandoned
  | maxAttemptsExceeded
  | orchestrationFailed
  | internalFailed
  deriving DecidableEq, Repr

/-- `_SAFE_ERROR_SUMMARIES`. -/
def ErrorCode.safeSummary : ErrorCode → String
  | .extractFailed => "Source extraction failed"
  | .validateFailed => "Source validation failed"
  | .loadFailed => "Report publication failed"
  | .dbUnavailable => "Reporting database unavailable"
  | .lockUnavailable => "Reporting pipeline is already locked"
  | .staleAbandoned => "Worker lease expired"
  | .maxAttemptsExceeded => "Maximum attempts exceeded"
  | .orchestrationFailed => "Orchestration service unavailable"
  | .internalFailed => "Internal reporting execution failed"

/-- The stage an attempt ended in; only the first three are stages of a run. -/
inductive Stage
  | extract
  | transform
  | load
  | orchestration
  deriving DecidableEq, Repr

/-- `pipeline_run_attempts.retry_outcome`. -/
inductive RetryOutcome
  | retried
  | exhausted
  | failed
  | leaseLost
  | succeeded
  deriving DecidableEq, Repr

/-- `pipeline_runs`. -/
structure PipelineRun where
  id : UUID
  pipelineName : String
  pipelineVersion : Option String
  triggerType : TriggerType
  requestedWeekStart : Option ℕ
  targetWeeks : Option (List ℕ)
  requestedAt : ℕ
  startedAt : Option ℕ
  finishedAt : Option ℕ
  status : RunStatus
  attempt : ℕ
  nextAttemptAt : Option ℕ
  claimToken : Option UUID
  heartbeatAt : Option ℕ
  leaseExpiresAt : Option ℕ
  currentStage : Option Stage
  stageStartedAt : Option ℕ
  rowsExtracted : Option ℕ
  rowsTransformed : Option ℕ
  rowsLoaded : Option ℕ
  sourceWatermark : Option ℕ
  errorCode : Option ErrorCode
  errorSummary : Option String
  deriving DecidableEq, Repr

/-- The run is over. -/
def PipelineRun.Terminal (r : PipelineRun) : Prop := r.status = .succeeded ∨ r.status = .failed

instance (r : PipelineRun) : Decidable r.Terminal := inferInstanceAs (Decidable (_ ∨ _))

/-- `pipeline_run_attempts`. -/
structure PipelineRunAttempt where
  runId : UUID
  attempt : ℕ
  stage : Stage
  startedAt : ℕ
  endedAt : ℕ
  durationMs : ℕ
  sourceCutoffAt : Option ℕ
  rowsScanned : Option ℕ
  rollupRowsWritten : Option ℕ
  errorCode : Option ErrorCode
  errorType : Option String
  retryOutcome : RetryOutcome
  pipelineVersion : Option String
  buildSha : Option String
  deriving DecidableEq, Repr

/-- The unique key `(run_id, attempt)`. -/
def PipelineRunAttempt.key (a : PipelineRunAttempt) : UUID × ℕ := (a.runId, a.attempt)

/-- What a worker remembers of the run it has claimed. -/
structure RunClaim where
  runId : UUID
  claimToken : UUID
  triggerType : TriggerType
  requestedWeekStart : Option ℕ
  targetWeeks : List ℕ
  attempt : ℕ
  deriving DecidableEq, Repr

/-- Row counts of a successful attempt. -/
structure RunMetrics where
  rowsExtracted : ℕ
  rowsTransformed : ℕ
  rowsLoaded : ℕ
  sourceWatermark : Option ℕ := none
  sourceCutoffAt : Option ℕ := none
  rowsScanned : Option ℕ := none
  rollupRowsWritten : Option ℕ := none
  deriving DecidableEq, Repr

/-- `WHERE id = :id AND claim_token = :token AND status = 'running'`. -/
def RunClaim.owns (c : RunClaim) (r : PipelineRun) : Bool :=
  decide (r.id = c.runId) && decide (r.claimToken = some c.claimToken) &&
    decide (r.status = .running)

/-- The claim's token is the current token of its run, and the run is running. -/
def RunClaim.Owned (runs : Table PipelineRun.id) (c : RunClaim) : Prop :=
  ∃ r ∈ runs.rows, c.owns r = true

instance (runs : Table PipelineRun.id) (c : RunClaim) : Decidable (c.Owned runs) :=
  inferInstanceAs (Decidable (∃ r ∈ runs.rows, _))

theorem RunClaim.owns_iff {c : RunClaim} {r : PipelineRun} :
    c.owns r = true ↔ r.id = c.runId ∧ r.claimToken = some c.claimToken ∧ r.status = .running := by
  simp [RunClaim.owns, and_assoc]

/-- At most one run per pipeline is running. -/
def SingleActive (runs : Table PipelineRun.id) : Prop :=
  ∀ r ∈ runs.rows, ∀ r' ∈ runs.rows, r.pipelineName = r'.pipelineName →
    r.status = .running → r'.status = .running → r = r'

instance (runs : Table PipelineRun.id) : Decidable (SingleActive runs) :=
  inferInstanceAs (Decidable (∀ r ∈ runs.rows, _))

/-! ## Target weeks -/

/-- Why a run has no target weeks. -/
inductive WeekError
  /-- `TransformError`. -/
  | transform (message : String)
  /-- `QueueValidationError`. -/
  | validation (message : String)
  deriving DecidableEq, Repr

/-- `iso_week_start`: the Monday of the ISO week of an instant. -/
def isoWeekStart (timestamp : ℕ) : ℕ := floorTo week timestamp

/-- `_target_week`: only Mondays are target weeks. -/
def targetWeek (value : ℕ) : Except WeekError ℕ :=
  if week ∣ value then .ok value else .error (.transform "target weeks must start on Monday")

/-- `recomputable_weeks`: the weeks that start at or after the reset, in order. -/
def recomputableWeeks (targetWeeks : List ℕ) (lastResetAt : Option ℕ) :
    Except WeekError (List ℕ) := do
  let valid ← targetWeeks.mapM targetWeek
  let weeks := valid.dedup.insertionSort (· ≤ ·)
  match lastResetAt with
  | none => return weeks
  | some boundary => return weeks.filter fun w => decide (boundary ≤ w)

/-- `validate_requested_week`. -/
def validateRequestedWeek (requestedWeek : ℕ) (lastResetAt : Option ℕ) : Except WeekError ℕ := do
  let w ← targetWeek requestedWeek
  match lastResetAt with
  | none => return w
  | some _ =>
    let weeks ← recomputableWeeks [w] lastResetAt
    if w ∈ weeks then return w
    else .error (.transform "week precedes last ledger reset")

/-- `_target_weeks`: the requested week, or the last `recomputeWeeks` weeks. -/
def targetWeeks (requestedWeekStart : Option ℕ) (now : ℕ) (lastResetAt : Option ℕ)
    (recomputeWeeks : ℕ) : Except WeekError (List ℕ) :=
  match requestedWeekStart with
  | some w =>
    match validateRequestedWeek w lastResetAt with
    | .ok w => .ok [w]
    | .error (.transform m) => .error (.validation m)
    | .error e => .error e
  | none =>
    recomputableWeeks
      ((List.range recomputeWeeks).reverse.map fun offset => isoWeekStart now - offset * week)
      lastResetAt

/-- A requested week is accepted if and only if it is a Monday at or after the last reset. -/
theorem validateRequestedWeek_eq_ok_iff {w w' : ℕ} {lastResetAt : Option ℕ} :
    validateRequestedWeek w lastResetAt = .ok w' ↔
      w' = w ∧ week ∣ w ∧ ∀ b, lastResetAt = some b → b ≤ w := by
  have hrec (b : ℕ) (h : week ∣ w) :
      recomputableWeeks [w] (some b) = .ok ([w].filter fun w => decide (b ≤ w)) := by
    simp [recomputableWeeks, targetWeek, h, bind, Except.bind, pure, Except.pure]
  unfold validateRequestedWeek
  by_cases h : week ∣ w
  · cases lastResetAt with
    | none => simp [targetWeek, h, bind, Except.bind, pure, Except.pure, eq_comm]
    | some b =>
      by_cases hb : b ≤ w <;>
        simp [targetWeek, h, hrec b h, hb, bind, Except.bind, pure, Except.pure, eq_comm]
  · simp [targetWeek, h, bind, Except.bind]

/-! ## Attempt evidence -/

/-- `_backoff`: doubling with every attempt. -/
def backoff (attempt baseSeconds : ℕ) : ℕ := baseSeconds * 2 ^ (attempt - 1) * second

/-- The arguments of `_record_attempt` besides the claim. -/
structure Evidence where
  endedAt : ℕ
  retryOutcome : RetryOutcome
  stage : Option Stage := none
  errorCode : Option ErrorCode := none
  errorType : Option String := none
  metrics : Option RunMetrics := none
  buildSha : Option String := none
  deriving DecidableEq, Repr

/-- The row that `_record_attempt` selects for the run `r`; `MAX_ATTEMPTS_EXCEEDED` is no
originating code. -/
def attemptRow (r : PipelineRun) (attempt : ℕ) (e : Evidence) : PipelineRunAttempt where
  runId := r.id
  attempt := attempt
  stage := (e.stage.or r.currentStage).getD .orchestration
  startedAt := r.startedAt.getD e.endedAt
  endedAt := e.endedAt
  -- the cast of milliseconds to bigint rounds
  durationMs := (e.endedAt - r.startedAt.getD e.endedAt + 500) / 1000
  sourceCutoffAt := e.metrics.bind (·.sourceCutoffAt)
  rowsScanned := e.metrics.map fun m => m.rowsScanned.getD m.rowsExtracted
  rollupRowsWritten := e.metrics.map fun m => m.rollupRowsWritten.getD m.rowsLoaded
  errorCode := if e.errorCode = some .maxAttemptsExceeded then none else e.errorCode
  errorType := e.errorType
  retryOutcome := e.retryOutcome
  pipelineVersion := r.pipelineVersion
  buildSha := e.buildSha

end Queue

end TrackFlow
