import TrackFlow.Queue.Books

/-!
# Requests for pipeline runs

`enqueue_scheduled`, `enqueue_manual` and `enqueue_cli`, statement by statement, next to the
operations of the workers.  A session runs one call after another, of either kind.

* `Requests` adds the columns of `pipeline_runs` that only a request writes.
* `uq_pipeline_runs_pending_manual` has an entry for every queued manual request without a nonce.
  An `INSERT` holds the entry it makes, an `UPDATE` the entry it takes away, and a second `INSERT`
  waits for either; once it has found a committed entry, nothing is held.
* `ON CONFLICT ... DO NOTHING` and the `SELECT` after it are two statements: each sees what is
  committed when it runs.
-/

namespace TrackFlow

namespace Queue

open RowLock

/-- The columns of `pipeline_runs` that a request writes and no worker reads. -/
structure RunRequest where
  id : UUID
  requestedBy : String
  scheduledBusinessDate : Option ℕ
  scheduledFor : Option ℕ
  cacheNonce : Option UUID
  deriving DecidableEq, Repr

/-- The queue and who asked for its runs. -/
structure Requests (β : Type*) where
  queue : Db β
  requests : Table RunRequest.id

/-- What a session locks: a row, or an entry of a unique index of this pipeline's runs. -/
inductive EntryKey
  | row (k : RowKey)
  /-- `uq_pipeline_runs_pending_manual`. -/
  | pendingManual (week : ℕ)
  /-- `uq_pipeline_runs_scheduled_date`. -/
  | scheduledDate (date : ℕ)
  /-- `uq_pipeline_runs_scheduled_for`. -/
  | scheduledFor (instant : ℕ)
  deriving DecidableEq

/-- A row write. -/
inductive RequestWrite (β : Type*)
  | queue (w : RowWrite β)
  | insertRun (run : PipelineRun) (columns : RunRequest)

/-- The database after a row write. -/
def RequestWrite.install {β : Type*} (db : Requests β) : RequestWrite β → Requests β
  | .queue w => { db with queue := w.install db.queue }
  | .insertRun run columns =>
    { queue := { db.queue with runs := (db.queue.runs.insert run).getD db.queue.runs }
      requests := db.requests.upsert columns }

/-- `COALESCE(requested_week_start, DATE '0001-01-01')`. -/
def weekEntry (requestedWeekStart : Option ℕ) : ℕ := requestedWeekStart.getD 0

namespace Requests

variable {β : Type*} (v : Requests β)

/-- `cache_nonce`. -/
def cacheNonce (id : UUID) : Option UUID := (v.requests.lookup id).bind (·.cacheNonce)

/-- The predicate of `uq_pipeline_runs_pending_manual`, for this pipeline. -/
def pendingManual (r : PipelineRun) : Bool :=
  decide (r.pipelineName = pipelineName) && decide (r.status = .requested) &&
    decide (r.triggerType = .manual) && (v.cacheNonce r.id).isNone

/-- The queued manual requests for a week: `requested_week_start IS NOT DISTINCT FROM :week`. -/
def queuedFor (requestedWeekStart : Option ℕ) : List PipelineRun :=
  v.queue.runs.rows.filter fun r =>
    v.pendingManual r && decide (r.requestedWeekStart = requestedWeekStart)

/-- The index has an entry for a week. -/
def hasEntry (week : ℕ) : Bool :=
  v.queue.runs.rows.any fun r =>
    v.pendingManual r && decide (weekEntry r.requestedWeekStart = week)

/-- A scheduled request has the same business date or the same slot. -/
def hasSlot (businessDate scheduledFor : Option ℕ) : Bool :=
  v.queue.runs.rows.any fun r =>
    decide (r.pipelineName = pipelineName) && decide (r.triggerType = .scheduled) &&
      (v.requests.lookup r.id).any fun c =>
        businessDate.isSome && decide (c.scheduledBusinessDate = businessDate) ||
          scheduledFor.isSome && decide (c.scheduledFor = scheduledFor)

/-- The index entry that a write takes away. -/
def leaves : RowWrite β → List EntryKey
  | .updateRun id u =>
    match v.queue.runs.lookup id with
    | none => []
    | some r =>
      if v.pendingManual r && !v.pendingManual (u.apply r) then
        [.pendingManual (weekEntry r.requestedWeekStart)]
      else []
  | _ => []

end Requests

/-! ## Calls -/

/-- The arguments of `enqueue_scheduled`. -/
structure ScheduledRequest where
  businessDate : Option ℕ
  scheduledFor : Option ℕ
  now : ℕ

/-- The arguments of `enqueue_manual`, and the nonce it draws when the refresh is forced. -/
structure ManualRequest where
  requestedBy : String
  requestedWeekStart : Option ℕ := none
  nonce : Option UUID := none
  now : ℕ
  deriving DecidableEq

/-- The arguments of `enqueue_cli`. -/
structure CliRequest where
  requestedWeekStart : Option ℕ := none
  now : ℕ

/-- A call that asks for a run. -/
inductive Request
  | scheduled (q : ScheduledRequest)
  | manual (q : ManualRequest)
  | cli (q : CliRequest)

/-- How a request ends. -/
inductive Answer
  /-- The id of a run is returned. -/
  | run (id : UUID)
  /-- `None`: the slot has its run. -/
  | coalesced
  /-- `QueueValidationError`. -/
  | invalid (error : WeekError)
  /-- `NoResultFound`. -/
  | noResultFound
  /-- `MultipleResultsFound`. -/
  | multipleResultsFound
  /-- A statement fails. -/
  | raised
  deriving DecidableEq

/-- The row of a new request; its id is drawn by the server. -/
def newRun (id : UUID) (trigger : TriggerType) (requestedWeekStart : Option ℕ) (now : ℕ) :
    PipelineRun where
  id := id
  pipelineName := pipelineName
  pipelineVersion := none
  triggerType := trigger
  requestedWeekStart := requestedWeekStart
  targetWeeks := none
  requestedAt := now
  startedAt := none
  finishedAt := none
  status := .requested
  attempt := 0
  nextAttemptAt := none
  claimToken := none
  heartbeatAt := none
  leaseExpiresAt := none
  currentStage := none
  stageStartedAt := none
  rowsExtracted := none
  rowsTransformed := none
  rowsLoaded := none
  sourceWatermark := none
  errorCode := none
  errorSummary := none

/-- What `str.strip` strips. -/
def isSpace (c : Char) : Bool :=
  let n := c.toNat
  decide (9 ≤ n ∧ n ≤ 13 ∨ 28 ≤ n ∧ n ≤ 32 ∨ n = 0x85 ∨ n = 0xa0 ∨ n = 0x1680 ∨
    0x2000 ≤ n ∧ n ≤ 0x200a ∨ n = 0x2028 ∨ n = 0x2029 ∨ n = 0x202f ∨ n = 0x205f ∨ n = 0x3000)

/-- `_monday`. -/
def mondayOrNone : Option ℕ → Except WeekError Unit
  | none => .ok ()
  | some w =>
    if week ∣ w then .ok ()
    else .error (.validation "requested_week_start must be an ISO Monday")

/-- What `enqueue_manual` checks before it inserts. -/
def ManualRequest.validated (q : ManualRequest) (lastResetAt : Option ℕ) :
    Except WeekError Unit :=
  if q.requestedBy.toList.all isSpace then .error (.validation "requested_by is required")
  else
    match mondayOrNone q.requestedWeekStart with
    | .error e => .error e
    | .ok _ =>
      match q.requestedWeekStart with
      | none => .ok ()
      | some w =>
        match validateRequestedWeek w lastResetAt with
        | .ok _ => .ok ()
        | .error (.transform m) => .error (.validation m)
        | .error e => .error e

/-- Where an `enqueue_manual` call stands. -/
inductive ManualPc
  | start
  | inserting
  /-- The `INSERT` has found a conflict. -/
  | selecting

/-- The local state of a session. -/
inductive RequestLoc
  | worker (a : Loc)
  | scheduled (q : ScheduledRequest)
  | manual (q : ManualRequest) (pc : ManualPc)
  | cli (q : CliRequest)
  | finishing (q : Request) (answer : Answer)
  | returned (q : Request) (answer : Answer)

/-- The call that starts. -/
def Request.start : Request → RequestLoc
  | .scheduled q => .scheduled q
  | .manual q => .manual q .start
  | .cli q => .cli q

/-- What the environment decides about a statement. -/
inductive RequestChoice (β : Type*)
  /-- A statement of a worker, or the call of one. -/
  | worker (c : Choice β)
  /-- A request is called. -/
  | request (q : Request)
  /-- The statement succeeds. -/
  | ok
  /-- The `INSERT` is given this id. -/
  | insert (id : UUID)
  /-- The statement fails. -/
  | fail

/-! ## Statements -/

variable {β : Type*}

/-- A statement of a worker; an `UPDATE` holds the index entries it takes away. -/
def Requests.lift (v : Requests β) :
    Outcome RowKey (RowWrite β) Loc → Outcome EntryKey (RequestWrite β) RequestLoc
  | .proceed ks ws a => .proceed (ks.map .row ++ ws.flatMap v.leaves) (ws.map .queue) (.worker a)
  | .commit a => .commit (.worker a)
  | .rollback a => .rollback (.worker a)

/-- The `INSERT` of a row that conflicts with nothing but, perhaps, an existing id. -/
def Requests.insertRun (v : Requests β) (q : Request) (entries : List EntryKey) (run : PipelineRun)
    (columns : RunRequest) : Outcome EntryKey (RequestWrite β) RequestLoc :=
  if run.id ∈ v.queue.runs.rows.map (·.id) then .rollback (.returned q .raised)
  else .proceed (.row (.run run.id) :: entries) [.insertRun run columns]
    (.finishing q (.run run.id))

/-- The statements of `enqueue_manual`. -/
def manualExec (q : ManualRequest) (busy : EntryKey → Bool) (v : Requests β) :
    ManualPc → RequestChoice β → Option (Outcome EntryKey (RequestWrite β) RequestLoc)
  | .start, .ok =>
    match q.validated v.queue.lastResetAt with
    | .error e => some (.rollback (.returned (.manual q) (.invalid e)))
    | .ok _ => some (.proceed [] [] (.manual q .inserting))
  | .inserting, .insert id =>
    let run := newRun id .manual q.requestedWeekStart q.now
    let columns : RunRequest := ⟨id, q.requestedBy, none, none, q.nonce⟩
    let entry := weekEntry q.requestedWeekStart
    if q.nonce.isSome then some (v.insertRun (.manual q) [] run columns)
    -- an open transaction makes or takes away the entry
    else if busy (.pendingManual entry) then none
    else if v.hasEntry entry then some (.proceed [] [] (.manual q .selecting))
    else some (v.insertRun (.manual q) [.pendingManual entry] run columns)
  | .selecting, .ok =>
    match v.queuedFor q.requestedWeekStart with
    | [] => some (.rollback (.returned (.manual q) .noResultFound))
    | [r] => some (.proceed [] [] (.finishing (.manual q) (.run r.id)))
    | _ => some (.rollback (.returned (.manual q) .multipleResultsFound))
  | _, .fail => some (.rollback (.returned (.manual q) .raised))
  | _, _ => none

/-- The statement of `enqueue_scheduled`. -/
def scheduledExec (q : ScheduledRequest) (busy : EntryKey → Bool) (v : Requests β) :
    RequestChoice β → Option (Outcome EntryKey (RequestWrite β) RequestLoc)
  | .insert id =>
    let entries := q.businessDate.toList.map .scheduledDate ++
      q.scheduledFor.toList.map .scheduledFor
    if q.businessDate.isNone && q.scheduledFor.isNone then
      some (.rollback (.returned (.scheduled q)
        (.invalid (.validation "scheduled request requires a date or cadence slot"))))
    else if entries.any busy then none
    -- ON CONFLICT DO NOTHING
    else if v.hasSlot q.businessDate q.scheduledFor ||
        decide (id ∈ v.queue.runs.rows.map (·.id)) then
      some (.proceed [] [] (.finishing (.scheduled q) .coalesced))
    else some (v.insertRun (.scheduled q) entries (newRun id .scheduled none q.now)
      ⟨id, "system", q.businessDate, q.scheduledFor, none⟩)
  | .fail => some (.rollback (.returned (.scheduled q) .raised))
  | _ => none

/-- The statement of `enqueue_cli`. -/
def cliExec (q : CliRequest) (v : Requests β) :
    RequestChoice β → Option (Outcome EntryKey (RequestWrite β) RequestLoc)
  | .insert id =>
    match mondayOrNone q.requestedWeekStart with
    | .error e => some (.rollback (.returned (.cli q) (.invalid e)))
    | .ok _ => some (v.insertRun (.cli q) [] (newRun id .cli q.requestedWeekStart q.now)
        ⟨id, "cli", none, none, none⟩)
  | .fail => some (.rollback (.returned (.cli q) .raised))
  | _ => none

/-- The next statement of a session. -/
def requestExec (a : RequestLoc) (c : RequestChoice β) (busy : EntryKey → Bool) (v : Requests β) :
    Option (Outcome EntryKey (RequestWrite β) RequestLoc) :=
  match a, c with
  | .worker (.idle _), .request q => some (.proceed [] [] q.start)
  | .returned _ _, .request q => some (.proceed [] [] q.start)
  | .returned _ _, .worker (.call op) => some (.proceed [] [] (.worker op.start))
  | .returned _ _, _ => none
  | .worker a, .worker c => (exec a c (fun k => busy (.row k)) v.queue).map v.lift
  | .worker _, _ => none
  | .manual q pc, c => manualExec q busy v pc c
  | .scheduled q, c => scheduledExec q busy v c
  | .cli q, c => cliExec q v c
  | .finishing q answer, .ok => some (.commit (.returned q answer))
  | .finishing q _, .fail => some (.rollback (.returned q .raised))
  | .finishing _ _, _ => none

/-- The queue and its requests as a row-lock protocol. -/
def requests (β : Type*) : Protocol (Requests β) EntryKey (RequestWrite β) (RequestChoice β)
    RequestLoc where
  install := RequestWrite.install
  exec := requestExec

end Queue

end TrackFlow
