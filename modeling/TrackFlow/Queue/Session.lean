import TrackFlow.Sql.RowLock
import TrackFlow.Queue.Models

/-!
# The statements of the queue operations

`claim_next`, `recover_stale_runs`, the operations of a claimed run (`heartbeat`,
`record_stage`, `finalize_success`, `release_retryable`, `finalize_failure`) and a publication
(`verify_claim_for_publication` and whatever is published after it) as a row-lock protocol.  A
worker is a session that runs one operation after another, for any claim and at any time, so a
worker that stalls is one whose next step comes late.

* The operations of a claimed run are one `UPDATE ... WHERE id AND claim_token AND running`
  and, when it found its row, the insertion of attempt evidence: a `Transition`.
* `uq_pipeline_runs_single_active` is a row of its own: the `UPDATE` that makes a run `running`
  locks the slot of its pipeline, and raises `IntegrityError` if a running row is committed.
* The published data `β` is arbitrary, and so is what a verified publication writes to it.

Every statement can fail, which rolls the transaction back.
-/

namespace TrackFlow

namespace Queue

open RowLock

/-- The rows a session locks: a run, or the unique index entry of a pipeline's running row. -/
inductive RowKey
  | run (id : UUID)
  | slot (pipelineName : String)
  deriving DecidableEq

/-- An `UPDATE pipeline_runs SET ... WHERE id = :id AND ...`.  One that can make a run
`running` names the pipeline whose `slot` it takes. -/
structure RunUpdate where
  /-- The rest of the `WHERE` clause. -/
  cond : PipelineRun → Bool
  /-- The `SET` clause. -/
  set : PipelineRun → PipelineRun
  /-- The pipeline that may get a new running row. -/
  slot : Option String := none
  id_set : ∀ r, (set r).id = r.id
  pipelineName_set : ∀ r, (set r).pipelineName = r.pipelineName
  running_set : ∀ r, cond r = true → (set r).status = .running →
    r.status = .running ∨ slot = some r.pipelineName

/-- What the update makes of a row with the right id. -/
def RunUpdate.apply (u : RunUpdate) (r : PipelineRun) : PipelineRun :=
  if u.cond r then u.set r else r

@[simp] theorem RunUpdate.id_apply (u : RunUpdate) (r : PipelineRun) : (u.apply r).id = r.id := by
  unfold RunUpdate.apply
  split_ifs
  · exact u.id_set r
  · rfl

@[simp] theorem RunUpdate.pipelineName_apply (u : RunUpdate) (r : PipelineRun) :
    (u.apply r).pipelineName = r.pipelineName := by
  unfold RunUpdate.apply
  split_ifs
  · exact u.pipelineName_set r
  · rfl

theorem RunUpdate.running_apply {u : RunUpdate} {r : PipelineRun}
    (h : (u.apply r).status = .running) : r.status = .running ∨ u.slot = some r.pipelineName := by
  unfold RunUpdate.apply at h
  split_ifs at h with hc
  · exact u.running_set r hc h
  · exact .inl h

/-- The queue tables, `source_ledger_state.last_reset_at`, and the published data. -/
structure Db (β : Type*) where
  runs : Table PipelineRun.id
  attempts : Table PipelineRunAttempt.key
  lastResetAt : Option ℕ
  published : β

/-- A row write. -/
inductive RowWrite (β : Type*)
  | updateRun (id : UUID) (u : RunUpdate)
  | insertAttempt (a : PipelineRunAttempt)
  | publish (write : β → β)

/-- The rows that must be locked for a write. -/
def RowWrite.guard {β : Type*} : RowWrite β → List RowKey
  | .updateRun id u => .run id :: u.slot.toList.map .slot
  | .insertAttempt a => [.run a.runId]
  | .publish _ => []

/-- The database after a row write; evidence of an attempt that has some is not replaced. -/
def RowWrite.install {β : Type*} (db : Db β) : RowWrite β → Db β
  | .updateRun id u =>
    { db with
      runs := db.runs.update (fun r => if r.id = id then u.apply r else r) fun r => by
        split_ifs <;> simp }
  | .insertAttempt a => { db with attempts := (db.attempts.insert a).getD db.attempts }
  | .publish write => { db with published := write db.published }

/-! ## Operations -/

/-- The arguments of `claim_next`, and the token it draws. -/
structure ClaimRequest where
  now : ℕ
  token : UUID
  version : String := pipelineVersion
  leaseSeconds : ℕ := defaultLeaseSeconds
  recomputeWeeks : ℕ := defaultRecomputeWeeks
  buildSha : Option String := none

/-- The arguments of `recover_stale_runs`. -/
structure SweepRequest where
  now : ℕ
  maxAttempts : ℕ := defaultMaxAttempts
  backoffSeconds : ℕ := defaultBackoffSeconds
  buildSha : Option String := none

/-- An operation of a claimed run: what it sets in the run that the claim owns, and the
evidence it records when it found that run. -/
structure Transition where
  claim : RunClaim
  set : PipelineRun → PipelineRun
  id_set : ∀ r, (set r).id = r.id
  pipelineName_set : ∀ r, (set r).pipelineName = r.pipelineName
  evidence : Option Evidence := none

/-- The fenced `UPDATE` of an operation. -/
def Transition.update (t : Transition) : RunUpdate where
  cond := t.claim.owns
  set := t.set
  id_set := t.id_set
  pipelineName_set := t.pipelineName_set
  running_set _ h _ := .inl (RunClaim.owns_iff.1 h).2.2

/-- `heartbeat`. -/
def heartbeat (claim : RunClaim) (now : ℕ) (leaseSeconds : ℕ := defaultLeaseSeconds) :
    Transition where
  claim := claim
  set r := { r with
    heartbeatAt := some now
    leaseExpiresAt := some (now + leaseSeconds * second) }
  id_set _ := rfl
  pipelineName_set _ := rfl

/-- `record_stage`; only the stages of a run are accepted. -/
def recordStage (claim : RunClaim) (stage : Stage) (now : ℕ) : Except WeekError Transition :=
  if stage = .orchestration then .error (.validation "unknown reporting stage")
  else .ok
    { claim := claim
      set r := { r with currentStage := some stage, stageStartedAt := some now }
      id_set _ := rfl
      pipelineName_set _ := rfl }

/-- `finalize_success`. -/
def finalizeSuccess (claim : RunClaim) (metrics : RunMetrics) (now : ℕ)
    (buildSha : Option String := none) : Transition where
  claim := claim
  set r := { r with
    status := .succeeded
    finishedAt := some now
    rowsExtracted := some metrics.rowsExtracted
    rowsTransformed := some metrics.rowsTransformed
    rowsLoaded := some metrics.rowsLoaded
    sourceWatermark := metrics.sourceWatermark
    claimToken := none, heartbeatAt := none, leaseExpiresAt := none
    errorCode := none, errorSummary := none }
  id_set _ := rfl
  pipelineName_set _ := rfl
  evidence := some
    { endedAt := now, retryOutcome := .succeeded, metrics := some metrics, buildSha := buildSha }

/-- The `SET` clause that gives a run up at `now`: failed when it has used its attempts,
to be retried after a backoff otherwise. -/
def giveUp (now attempt maxAttempts backoffSeconds : ℕ) (code : ErrorCode) (r : PipelineRun) :
    PipelineRun :=
  let exhausted : Bool := decide (maxAttempts ≤ attempt)
  let finalCode := if exhausted then .maxAttemptsExceeded else code
  { r with
    status := if exhausted then .failed else .retryable
    finishedAt := if exhausted then some now else none
    nextAttemptAt := if exhausted then none else some (now + backoff attempt backoffSeconds)
    claimToken := none, heartbeatAt := none, leaseExpiresAt := none
    errorCode := some finalCode
    errorSummary := some finalCode.safeSummary }

/-- `release_retryable`. -/
def releaseRetryable (claim : RunClaim) (code : ErrorCode) (now : ℕ)
    (maxAttempts : ℕ := defaultMaxAttempts) (backoffSeconds : ℕ := defaultBackoffSeconds)
    (stage : Option Stage := none) (errorType buildSha : Option String := none) : Transition where
  claim := claim
  set := giveUp now claim.attempt maxAttempts backoffSeconds code
  id_set _ := rfl
  pipelineName_set _ := rfl
  evidence := some
    { endedAt := now
      retryOutcome := if maxAttempts ≤ claim.attempt then .exhausted else .retried
      stage := stage, errorCode := some code, errorType := errorType, buildSha := buildSha }

/-- The `SET` clause of a failure. -/
def fail (now : ℕ) (code : ErrorCode) (r : PipelineRun) : PipelineRun :=
  { r with
    status := .failed
    finishedAt := some now
    claimToken := none, heartbeatAt := none, leaseExpiresAt := none
    errorCode := some code
    errorSummary := some code.safeSummary }

/-- `finalize_failure`. -/
def finalizeFailure (claim : RunClaim) (code : ErrorCode) (now : ℕ)
    (stage : Option Stage := none) (errorType buildSha : Option String := none) : Transition where
  claim := claim
  set := fail now code
  id_set _ := rfl
  pipelineName_set _ := rfl
  evidence := some
    { endedAt := now, retryOutcome := .failed
      stage := stage, errorCode := some code, errorType := errorType, buildSha := buildSha }

/-- An operation a worker calls. -/
inductive Op
  | claimNext (q : ClaimRequest)
  | transition (t : Transition)
  | publish (claim : RunClaim)
  | recoverStaleRuns (q : SweepRequest)

/-- What an operation returns. -/
inductive Result
  | claim (claim : Option RunClaim)
  | owned (b : Bool)
  | recovered (n : ℕ)
  | published
  | raised

/-- What the environment decides about a statement. -/
inductive Choice (β : Type*)
  /-- The worker calls an operation. -/
  | call (op : Op)
  /-- The statement succeeds. -/
  | ok
  /-- The statement succeeds and takes the run `id`. -/
  | pick (id : UUID)
  /-- The publication writes this. -/
  | body (write : β → β)
  /-- The statement fails, or the publication raises. -/
  | fail

/-- Where a `claim_next` call stands. -/
inductive ClaimPc
  | start
  | picked (id : UUID)
  | claimed (row : PipelineRun)
  | resolving (row : PipelineRun) (lastResetAt : Option ℕ)
  | rejected (row : PipelineRun)
  | finishing (result : Option RunClaim)

/-- Where an operation of a claimed run stands. -/
inductive TransitionPc
  | start
  | updated (e : Evidence)
  | finishing (owned : Bool)

/-- Where a publication stands. -/
inductive PublishPc
  | start
  | verified
  | finishing

/-- Where a `recover_stale_runs` call stands. -/
inductive SweepPc
  | start
  | sweeping (rows : List PipelineRun) (recovered : ℕ)
  | recording (row : PipelineRun) (rows : List PipelineRun) (recovered : ℕ)

/-- The local state of a session. -/
inductive Loc
  | idle (last : Option Result)
  | claiming (q : ClaimRequest) (pc : ClaimPc)
  | transitioning (t : Transition) (pc : TransitionPc)
  | publishing (claim : RunClaim) (pc : PublishPc)
  | sweeping (q : SweepRequest) (pc : SweepPc)

/-- The operation that starts. -/
def Op.start : Op → Loc
  | .claimNext q => .claiming q .start
  | .transition t => .transitioning t .start
  | .publish claim => .publishing claim .start
  | .recoverStaleRuns q => .sweeping q .start

/-- The claim that the session's operation was called with. -/
def Loc.presents : Loc → Option RunClaim
  | .transitioning t _ => some t.claim
  | .publishing claim _ => some claim
  | _ => none

/-! ## Statements -/

variable {β : Type*}

/-- `_record_attempt`: `INSERT ... SELECT ... FROM pipeline_runs WHERE id = :run_id`.  `none` is
the violated check `attempt > 0`. -/
def recordAttempt (v : Db β) (runId : UUID) (attempt : ℕ) (e : Evidence) :
    Option (List (RowWrite β)) :=
  match v.runs.lookup runId with
  | none => some []
  | some r => if attempt = 0 then none else some [.insertAttempt (attemptRow r attempt e)]

/-- The outcome of `_record_attempt`. -/
def recordOutcome (writes : Option (List (RowWrite β))) (next : Loc) :
    Outcome RowKey (RowWrite β) Loc :=
  match writes with
  | some ws => .proceed [] ws next
  | none => .rollback (.idle (some .raised))

/-- A run that `claim_next` may take. -/
def ClaimRequest.eligible (q : ClaimRequest) (r : PipelineRun) : Bool :=
  decide (r.pipelineName = pipelineName) &&
    (decide (r.status = .requested) ||
      decide (r.status = .retryable) && r.nextAttemptAt.any fun t => decide (t ≤ q.now))

/-- The `UPDATE` of `claim_next`; the sub-select finds runs of this pipeline only. -/
def ClaimRequest.update (q : ClaimRequest) : RunUpdate where
  cond r := decide (r.pipelineName = pipelineName)
  set r := { r with
    status := .running
    startedAt := some q.now
    finishedAt := none
    attempt := r.attempt + 1
    pipelineVersion := some q.version
    claimToken := some q.token
    heartbeatAt := some q.now
    leaseExpiresAt := some (q.now + q.leaseSeconds * second)
    nextAttemptAt := none
    errorCode := none, errorSummary := none }
  slot := some pipelineName
  id_set _ := rfl
  pipelineName_set _ := rfl
  running_set r h _ := .inr (by simpa [eq_comm] using h)

/-- `UPDATE pipeline_runs SET target_weeks = :weeks`. -/
def setTargetWeeks (weeks : List ℕ) : RunUpdate where
  cond _ := true
  set r := { r with targetWeeks := some weeks }
  id_set _ := rfl
  pipelineName_set _ := rfl
  running_set _ _ h := .inl h

/-- The claim that `claim_next` has made of a row. -/
def ClaimRequest.claim (q : ClaimRequest) (row : PipelineRun) (weeks : List ℕ) : RunClaim where
  runId := row.id
  claimToken := q.token
  triggerType := row.triggerType
  requestedWeekStart := row.requestedWeekStart
  targetWeeks := weeks
  attempt := row.attempt

/-- `claim_next` after its request was found to have no target weeks. -/
def ClaimRequest.reject (q : ClaimRequest) (row : PipelineRun) : Transition where
  claim := q.claim row []
  set := fail q.now .validateFailed
  id_set _ := rfl
  pipelineName_set _ := rfl
  evidence := some
    { endedAt := q.now, retryOutcome := .failed, stage := some .orchestration
      errorCode := some .validateFailed, errorType := some "QueueValidationError"
      buildSha := q.buildSha }

/-- The writes of a fenced `UPDATE`: none if it finds no row. -/
def Transition.writes (t : Transition) (v : Db β) : List (RowWrite β) :=
  if t.claim.Owned v.runs then [.updateRun t.claim.runId t.update] else []

/-- The statements of `claim_next`. -/
def claimExec (q : ClaimRequest) (busy : RowKey → Bool) (v : Db β) :
    ClaimPc → Choice β → Option (Outcome RowKey (RowWrite β) Loc)
  -- SELECT ... ORDER BY requested_at LIMIT 1 FOR UPDATE SKIP LOCKED
  | .start, .pick id =>
    match v.runs.lookup id with
    | none => none
    | some row =>
      if q.eligible row && !busy (.run id) &&
          v.runs.rows.all (fun r =>
            !q.eligible r || busy (.run r.id) || decide (row.requestedAt ≤ r.requestedAt)) then
        some (.proceed [.run id] [] (.claiming q (.picked id)))
      else none
  | .start, .ok =>
    if v.runs.rows.any fun r => q.eligible r && !busy (.run r.id) then none
    else some (.proceed [] [] (.claiming q (.finishing none)))
  | .picked id, .ok =>
    match v.runs.lookup id with
    | none => none
    | some row =>
      -- uq_pipeline_runs_single_active; the IntegrityError is caught
      if v.runs.rows.any fun r =>
          decide (r.pipelineName = row.pipelineName) && decide (r.status = .running) then
        some (.rollback (.idle (some (.claim none))))
      else
        some (.proceed [.slot pipelineName] [.updateRun id q.update]
          (.claiming q (.claimed (q.update.apply row))))
  | .claimed row, .ok =>
    some (.proceed [] [] (.claiming q (.resolving row v.lastResetAt)))
  | .resolving row lastResetAt, .ok =>
    match targetWeeks row.requestedWeekStart q.now lastResetAt q.recomputeWeeks with
    | .ok weeks =>
      some (.proceed [] [.updateRun row.id (setTargetWeeks weeks)]
        (.claiming q (.finishing (some (q.claim row weeks)))))
    | .error (.validation _) =>
      some (.proceed [] ((q.reject row).writes v) (.claiming q (.rejected row)))
    | .error (.transform _) => some (.rollback (.idle (some .raised)))
  | .rejected row, .ok =>
    match (q.reject row).evidence with
    | none => none
    | some e =>
      some (recordOutcome (recordAttempt v row.id row.attempt e) (.claiming q (.finishing none)))
  | .finishing result, .ok => some (.commit (.idle (some (.claim result))))
  | _, _ => none

/-- The statements of an operation of a claimed run. -/
def transitionExec (t : Transition) (v : Db β) :
    TransitionPc → Choice β → Option (Outcome RowKey (RowWrite β) Loc)
  | .start, .ok =>
    if t.claim.Owned v.runs then
      some (.proceed [.run t.claim.runId] (t.writes v)
        (.transitioning t (match t.evidence with
          | some e => .updated e
          | none => .finishing true)))
    else some (.proceed [] [] (.transitioning t (.finishing false)))
  | .updated e, .ok =>
    some (recordOutcome (recordAttempt v t.claim.runId t.claim.attempt e)
      (.transitioning t (.finishing true)))
  | .finishing owned, .ok => some (.commit (.idle (some (.owned owned))))
  | _, _ => none

/-- The statements of a publication: `verify_claim_for_publication`, the body, `COMMIT`. -/
def publishExec (claim : RunClaim) (v : Db β) :
    PublishPc → Choice β → Option (Outcome RowKey (RowWrite β) Loc)
  | .start, .ok =>
    if claim.Owned v.runs then
      some (.proceed [.run claim.runId] [] (.publishing claim .verified))
    -- LeaseLostError
    else some (.rollback (.idle (some .raised)))
  | .verified, .body write =>
    some (.proceed [] [.publish write] (.publishing claim .finishing))
  | .finishing, .ok => some (.commit (.idle (some .published)))
  | _, _ => none

/-- A run whose lease has expired. -/
def SweepRequest.stale (q : SweepRequest) (r : PipelineRun) : Bool :=
  decide (r.pipelineName = pipelineName) && decide (r.status = .running) &&
    r.leaseExpiresAt.any fun t => decide (t < q.now)

/-- The `UPDATE` of `recover_stale_runs` for a row it has locked. -/
def SweepRequest.update (q : SweepRequest) (row : PipelineRun) : RunUpdate where
  cond r := decide (r.status = .running)
  set := giveUp q.now row.attempt q.maxAttempts q.backoffSeconds .staleAbandoned
  id_set _ := rfl
  pipelineName_set _ := rfl
  running_set _ h _ := .inl (by simpa using h)

/-- The evidence of `recover_stale_runs` for a row it has locked. -/
def SweepRequest.evidence (q : SweepRequest) (row : PipelineRun) : Evidence :=
  { endedAt := q.now, retryOutcome := .leaseLost, stage := row.currentStage
    errorCode := some .staleAbandoned, buildSha := q.buildSha }

/-- The statements of `recover_stale_runs`. -/
def sweepExec (q : SweepRequest) (busy : RowKey → Bool) (v : Db β) :
    SweepPc → Choice β → Option (Outcome RowKey (RowWrite β) Loc)
  -- SELECT ... FOR UPDATE SKIP LOCKED
  | .start, .ok =>
    let rows := v.runs.rows.filter fun r => q.stale r && !busy (.run r.id)
    some (.proceed (rows.map fun r => .run r.id) [] (.sweeping q (.sweeping rows 0)))
  | .sweeping [] n, .ok => some (.commit (.idle (some (.recovered n))))
  | .sweeping (row :: rows) n, .ok =>
    some (.proceed [] [.updateRun row.id (q.update row)]
      (.sweeping q (.recording row rows n)))
  | .recording row rows n, .ok =>
    -- a running row without a token is not a UUID
    if row.claimToken.isNone then some (.rollback (.idle (some .raised)))
    else
      some (recordOutcome (recordAttempt v row.id row.attempt (q.evidence row))
        (.sweeping q (.sweeping rows (n + 1))))
  | _, _ => none

/-- The next statement of a session. -/
def exec (a : Loc) (c : Choice β) (busy : RowKey → Bool) (v : Db β) :
    Option (Outcome RowKey (RowWrite β) Loc) :=
  match a, c with
  | .idle _, .call op => some (.proceed [] [] op.start)
  | .idle _, _ => none
  | _, .fail => some (.rollback (.idle (some .raised)))
  | .claiming q pc, c => claimExec q busy v pc c
  | .transitioning t pc, c => transitionExec t v pc c
  | .publishing claim pc, c => publishExec claim v pc c
  | .sweeping q pc, c => sweepExec q busy v pc c

/-- The queue as a row-lock protocol. -/
def protocol (β : Type*) : Protocol (Db β) RowKey (RowWrite β) (Choice β) Loc where
  install := RowWrite.install
  exec := exec

end Queue

end TrackFlow
