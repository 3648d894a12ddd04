import TrackFlow.Reporting.Models
import TrackFlow.Sql.Transaction

/-!
# Hourly rollups, reconciliation and activation

The functions of `pipelines/business_performance/rollups.py`.  `date_trunc` and the casts to
`date` work in UTC, the time zone of the sessions; a date is its midnight.

`activateReconciledRollups` is one transaction on one snapshot (`REPEATABLE READ`): it verifies
the claim, upserts the computed hourly rows, compares the rollups with the ledger, rewrites the
weekly rows of the weeks the comparison covers, and advances `rollup_state`.  Each of its
statements may also fail for reasons of its own (`Faults`).
-/

namespace TrackFlow

namespace Reporting

/-- `ROLLUP_PIPELINE_VERSION`. -/
def rollupPipelineVersion : String := "engagement-6-phase-6.3"

/-- `TRAILING_RECOMPUTE_HOURS`. -/
def trailingRecomputeHours : ℕ := 72

/-- What the functions raise. -/
inductive RollupError
  /-- `RollupValidationError`. -/
  | validation (message reason : String)
  /-- `LeaseLostError`. -/
  | leaseLost (message : String)
  /-- A constraint of the database is violated. -/
  | integrity
  /-- A statement fails for another reason. -/
  | database
  deriving DecidableEq, Repr

/-- `RollupWindow`. -/
structure RollupWindow where
  start : ℕ
  endAt : ℕ
  sourceCutoffAt : ℕ
  rowsScanned : ℕ
  deriving DecidableEq, Repr

/-- `HourlyRollupRow`: a computed row, not yet checked against the table. -/
structure HourlyRollupRow where
  bucketStart : ℕ
  warehouse : Warehouse
  clientId : UUID
  counts : Metric → ℤ

/-- `_floor_hour`. -/
def floorHour (value : ℕ) : ℕ := floorTo hour value

/-- `_ceil_hour`. -/
def ceilHour (value : ℕ) : ℕ := ceilTo hour value

/-- `_week_floor`. -/
def weekFloor (value : ℕ) : ℕ := floorTo week value

/-! ## The window of a run -/

/-- The instants of all source rows. -/
def sourceTimes (db : Ledger) : List ℕ :=
  db.stockEntries.map (·.createdAt) ++ db.stockExits.map (·.createdAt) ++
    db.stockoutEvents.map (·.occurredAt) ++ db.inventoryDiscrepancies.map (·.detectedAt)

/-- `_source_floor`. -/
def sourceFloor (db : Ledger) : Option ℕ := (sourceTimes db).min?

/-- `_count_source_rows`. -/
def countSourceRows (db : Ledger) (start endAt : ℕ) : ℕ :=
  (sourceTimes db).countP fun t => decide (start ≤ t) && decide (t < endAt)

/-- The hours a run is to recompute, before the last reset is taken into account. -/
def recomputedBounds (db : Database) (requestedWeekStart : Option ℕ) (cutoff : ℕ) : ℕ × ℕ :=
  match requestedWeekStart with
  | some w => (w, min (w + 7 * day) cutoff)
  | none =>
    let trailingStart := cutoff - trailingRecomputeHours * hour
    match db.reporting.rollupState.1.lastCutoffAt with
    | some lastCutoff => (min (floorHour lastCutoff) trailingStart, cutoff)
    | none =>
      match sourceFloor db.ledger with
      | some earliest => (floorHour earliest, cutoff)
      | none => (trailingStart, cutoff)

/-- The bounds of a window, before the check that it is not empty. -/
def windowBounds (db : Database) (requestedWeekStart : Option ℕ) (cutoff : ℕ) : ℕ × ℕ :=
  let bounds := recomputedBounds db requestedWeekStart cutoff
  match db.reporting.lastResetAt with
  | some lastReset => (max bounds.1 (floorHour lastReset), bounds.2)
  | none => bounds

/-- `capture_rollup_window`. -/
def captureRollupWindow (db : Database) (claim : Queue.RunClaim) (now : ℕ) :
    Except RollupError RollupWindow :=
  let cutoff := floorHour now
  let bounds := windowBounds db claim.requestedWeekStart cutoff
  if bounds.2 ≤ bounds.1 then
    .error (.validation "rollup window contains no completed UTC hour" "empty_rollup_window")
  else .ok ⟨bounds.1, bounds.2, cutoff, countSourceRows db.ledger bounds.1 bounds.2⟩

/-! ## Hourly rows -/

/-- `SELECT DISTINCT warehouse, client_id FROM skus`. -/
def dimensions (db : Ledger) : List Dimension :=
  distinct (fun s : SKU => (s.warehouse, s.clientId)) db.skus.rows

/-- `compute_hourly_rollups`: one row for every hour of the window and every dimension. -/
def computeHourlyRollups (db : Ledger) (window : RollupWindow) : List HourlyRollupRow :=
  (steps hour window.start window.endAt).flatMap fun b =>
    (dimensions db).map fun d =>
      { bucketStart := b
        warehouse := d.1
        clientId := d.2
        counts := fun m => (cellTotal hour SourceEvent.time SourceEvent.dim (·.amount m)
          (sourceEvents db) window.start window.endAt b d : ℕ) }

/-- One row of the payload of the hourly upsert, if the table can hold it. -/
def payloadRow (window : RollupWindow) (pipelineVersion : String) (row : HourlyRollupRow) :
    Option HourlyActivityRollup :=
  if h : hour ∣ row.bucketStart then
    -- ck_hourly_rollups_counts
    if metrics.all fun m => decide (0 ≤ row.counts m) then
      some
        { bucketStart := row.bucketStart
          warehouse := row.warehouse
          clientId := row.clientId
          counts := fun m => (row.counts m).toNat
          sourceCutoffAt := window.sourceCutoffAt
          pipelineVersion := pipelineVersion
          bucket_hour := h }
    else none
  else none

/-- The client exists. -/
def clientExists (db : Ledger) (clientId : UUID) : Bool :=
  db.clients.any fun c => decide (c.id = clientId)

/-- `_UPSERT`: a client that does not exist, a row that violates a constraint, or a key that
occurs twice aborts the statement. -/
def upsertHourly (db : Ledger) (hourly : Table HourlyActivityRollup.key) (window : RollupWindow)
    (rows : List HourlyRollupRow) (pipelineVersion : String) :
    Except RollupError (Table HourlyActivityRollup.key) :=
  match rows.mapM (payloadRow window pipelineVersion) with
  | none => .error .integrity
  | some payload =>
    if payload.all fun r => clientExists db r.clientId then
      if h : KeysDistinct HourlyActivityRollup.key payload then .ok (hourly.upsertAll payload h)
      else .error .integrity
    else .error .integrity

/-! ## Reconciliation -/

/-- In what a cell differs. -/
inductive Difference
  | metric (m : Metric)
  | discrepancyRateDenominator
  deriving DecidableEq, Repr

/-- `ReconciliationMismatch`. -/
structure ReconciliationMismatch where
  weekStart : ℕ
  warehouse : Warehouse
  clientId : UUID
  metrics : List Difference
  deriving DecidableEq, Repr

/-- `ReconciliationResult`. -/
structure ReconciliationResult where
  checkedDimensions : ℕ
  mismatches : List ReconciliationMismatch
  deriving DecidableEq, Repr

/-- `ReconciliationResult.exact`. -/
def ReconciliationResult.exact (r : ReconciliationResult) : Bool := r.mismatches.isEmpty

/-- The weekly aggregate of the ledger between two instants. -/
def expectedTotal (db : Ledger) (start endAt w : ℕ) (d : Dimension) (m : Metric) : ℕ :=
  cellTotal week SourceEvent.time SourceEvent.dim (·.amount m) (sourceEvents db) start endAt w d

/-- The weekly aggregate of rollups between two instants. -/
def actualTotal (rows : List HourlyActivityRollup) (start endAt w : ℕ) (d : Dimension)
    (m : Metric) : ℕ :=
  cellTotal week HourlyActivityRollup.bucketStart HourlyActivityRollup.dim (·.counts m) rows
    start endAt w d

/-- The weekly cells that occur on either side. -/
def reconciliationKeys (db : Ledger) (rows : List HourlyActivityRollup) (start endAt : ℕ) :
    List (ℕ × Dimension) :=
  let inside (t : ℕ) : Bool := decide (start ≤ t) && decide (t < endAt)
  (((sourceEvents db).filter fun v => inside v.time).map (fun v => (weekFloor v.time, v.dim)) ++
    (rows.filter fun r => inside r.bucketStart).map
      fun r => (weekFloor r.bucketStart, r.dim)).dedup

/-- In what the two sides of a cell differ. -/
def differing (expected actual : Metric → ℕ) : List Difference :=
  (metrics.filter fun m => decide (expected m ≠ actual m)).map .metric ++
    if actual .dispatchOrderCount < actual .discrepancyCount then [.discrepancyRateDenominator]
    else []

/-- `_reconciliation_result`. -/
def reconciliationResult (db : Ledger) (rows : List HourlyActivityRollup) (start cutoff : ℕ) :
    ReconciliationResult :=
  let keys := reconciliationKeys db rows start cutoff
  { checkedDimensions := keys.length
    mismatches := keys.filterMap fun k =>
      match differing (expectedTotal db start cutoff k.1 k.2)
          (actualTotal rows start cutoff k.1 k.2) with
      | [] => none
      | ds => some ⟨k.1, k.2.1, k.2.2, ds⟩ }

/-- `_PRUNED_THROUGH`. -/
def prunedThrough (db : Ledger) : Option ℕ :=
  (db.stockLedgerCheckpoints.rows.map (·.checkpointAt)).max?

/-- `_reconciliation_bounds`. -/
def reconciliationBounds (db : Ledger) (rows : List HourlyActivityRollup) (cutoff : ℕ) :
    Except RollupError (ℕ × ℕ) :=
  let buckets := (rows.filter fun r => decide (r.sourceCutoffAt ≤ cutoff)).map (·.bucketStart)
  match buckets.min?, buckets.max? with
  | some firstBucket, some lastBucket =>
    let start :=
      match prunedThrough db with
      | some pruned => max (floorHour firstBucket) (ceilHour pruned)
      | none => floorHour firstBucket
    let endAt := min (floorHour lastBucket + hour) (floorHour cutoff)
    if endAt ≤ start then
      .error (.validation "reconciliation window contains no verifiable UTC hour"
        "no_verifiable_window")
    else .ok (start, endAt)
  | _, _ => .error (.validation "no hourly rollups are available for activation" "no_rollups")

/-! ## Weekly rows -/

/-- The weeks that an activation rewrites: `first_week` and `current_week`. -/
def activatedWeeks (start reconcileEnd cutoff : ℕ) : ℕ × ℕ :=
  let floored := weekFloor start
  let firstWeek := if floored < start then floored + 7 * day else floored
  (firstWeek, min (weekFloor cutoff) (weekFloor reconcileEnd))

/-- The rollups that the weekly upsert reads. -/
def onTime (cutoff : ℕ) (rows : List HourlyActivityRollup) : List HourlyActivityRollup :=
  rows.filter fun r => decide (r.sourceCutoffAt ≤ cutoff)

/-- The groups of the weekly upsert. -/
def weeklyGroups (rows : List HourlyActivityRollup) (firstWeek currentWeek : ℕ) :
    List (ℕ × Dimension) :=
  distinct (fun r : HourlyActivityRollup => (weekFloor r.bucketStart, r.dim))
    (rows.filter fun r =>
      decide (firstWeek ≤ r.bucketStart) && decide (r.bucketStart < currentWeek))

/-- The rows that `_WEEKLY_UPSERT_FROM_HOURLY` selects, if the table can hold them. -/
def weeklyRows (rows : List HourlyActivityRollup) (firstWeek currentWeek : ℕ) :
    Option (List WeeklyPerformance) :=
  (weeklyGroups rows firstWeek currentWeek).mapM fun k =>
    weeklyRow k.2 k.1 (actualTotal rows firstWeek currentWeek k.1 k.2)

/-- `_WEEKLY_UPSERT_FROM_HOURLY`, and the number of rows it writes. -/
def upsertWeekly (db : Ledger) (weekly : Table WeeklyPerformance.key)
    (rows : List HourlyActivityRollup) (firstWeek currentWeek cutoff : ℕ) :
    Except RollupError (ℕ × Table WeeklyPerformance.key) :=
  match weeklyRows (onTime cutoff rows) firstWeek currentWeek with
  | none => .error .integrity
  | some payload =>
    if payload.all fun w => clientExists db w.clientId then
      if h : KeysDistinct WeeklyPerformance.key payload then
        .ok (payload.length, weekly.upsertAll payload h)
      else .error .integrity
    else .error .integrity

/-! ## Activation -/

/-- `ActivationResult`. -/
structure ActivationResult where
  hourlyRowsWritten : ℕ
  weeklyRowsWritten : ℕ
  reconciliation : ReconciliationResult

/-- The statements of an activation. -/
inductive Statement
  | setTimeout
  | verifyClaim
  | upsertHourly
  | recordPublication
  | readBounds
  | reconcile
  | deleteWeekly
  | upsertWeekly
  | activate
  | commit
  deriving DecidableEq

/-- The statements that fail for a reason of their own, and what they raise. -/
abbrev Faults := Statement → Option RollupError

/-- The `rollup_state` after `UPDATE ... SET pipeline_version, last_cutoff_at,
last_published_at`. -/
def RollupState.published (s : RollupState) (pipelineVersion : String) (cutoff now : ℕ) :
    RollupState :=
  { s with
    pipelineVersion := some pipelineVersion
    lastCutoffAt := some (max (s.lastCutoffAt.getD cutoff) cutoff)
    lastPublishedAt := some now }

/-- The `rollup_state` after the last `UPDATE` of an activation. -/
def RollupState.activated (s : RollupState) (pipelineVersion : String) (cutoff now : ℕ) :
    RollupState :=
  { s with
    lastReconciledAt := some now
    activePipelineVersion := some pipelineVersion
    activeCutoffAt := some cutoff
    activePublishedAt := some now }

/-- Write `rollup_state`, which has a check constraint. -/
def setRollupState (t : Tables) (s : RollupState) : Except RollupError Tables :=
  if h : s.ActiveSnapshot then .ok { t with rollupState := ⟨s, h⟩ } else .error .integrity

/-- `verify_claim_for_publication`. -/
def verifyClaim (runs : Table Queue.PipelineRun.id) (claim : Queue.RunClaim) (t : Tables) :
    Except RollupError (Unit × Tables) :=
  if claim.Owned runs then .ok ((), t)
  else .error (.leaseLost "pipeline run lease is no longer owned")

/-- The hourly upsert, when there is something to upsert, and the update of `rollup_state` that
goes with it. -/
def publish (db : Ledger) (window : RollupWindow) (rows : List HourlyRollupRow)
    (pipelineVersion : String) (cutoff now : ℕ) (faults : Faults) : Tx RollupError Tables ℕ := do
  if rows ≠ [] then
    Tx.statement (faults .upsertHourly) fun t =>
      (upsertHourly db t.hourly window rows pipelineVersion).map fun hourly =>
        ((), { t with hourly := hourly })
  Tx.statement (faults .recordPublication) fun t =>
    (setRollupState t (t.rollupState.1.published pipelineVersion cutoff now)).map fun t => ((), t)
  return rows.length

/-- An activation publishes the computed rows that it is given. -/
def publishCandidate (db : Ledger) (window : RollupWindow) (rows : Option (List HourlyRollupRow))
    (pipelineVersion : String) (cutoff now : ℕ) (faults : Faults) : Tx RollupError Tables ℕ :=
  match rows with
  | none => return 0
  | some rows => publish db window rows pipelineVersion cutoff now faults

/-- The comparison with the ledger: its bounds and its result, which must be exact. -/
def reconcile (db : Ledger) (cutoff : ℕ) (faults : Faults) :
    Tx RollupError Tables ((ℕ × ℕ) × ReconciliationResult) := do
  let bounds ← Tx.statement (faults .readBounds) fun t =>
    (reconciliationBounds db t.hourly.rows cutoff).map fun bounds => (bounds, t)
  let reconciliation ← Tx.statement (faults .reconcile) fun t =>
    .ok (reconciliationResult db t.hourly.rows bounds.1 bounds.2, t)
  if reconciliation.exact then return (bounds, reconciliation)
  else Tx.raise (.validation "rollup reconciliation failed" "reconciliation_mismatch")

/-- The weekly rows of some weeks are deleted and selected anew from the rollups. -/
def republish (db : Ledger) (weeks : ℕ × ℕ) (cutoff : ℕ) (faults : Faults) :
    Tx RollupError Tables ℕ := do
  Tx.statement (faults .deleteWeekly) fun t =>
    .ok ((), { t with
      weekly := t.weekly.deleteWhere fun w =>
        decide (weeks.1 ≤ w.weekStart) && decide (w.weekStart < weeks.2) })
  if weeks.1 < weeks.2 then
    Tx.statement (faults .upsertWeekly) fun t =>
      (upsertWeekly db t.weekly t.hourly.rows weeks.1 weeks.2 cutoff).map fun r =>
        (r.1, { t with weekly := r.2 })
  else return 0

/-- The last update of `rollup_state`, which must find the row as the publication left it. -/
def recordActivation (pipelineVersion : String) (cutoff now : ℕ) (faults : Faults) :
    Tx RollupError Tables Unit :=
  Tx.statement (faults .activate) fun t =>
    if t.rollupState.1.pipelineVersion = some pipelineVersion ∧
        t.rollupState.1.lastCutoffAt.any (fun l => decide (cutoff ≤ l)) = true then
      (setRollupState t (t.rollupState.1.activated pipelineVersion cutoff now)).map fun t =>
        ((), t)
    else .error (.validation "rollup activation state changed" "activation_state_changed")

/-- The body of `activate_reconciled_rollups`. -/
def activation (db : Ledger) (runs : Table Queue.PipelineRun.id) (claim : Queue.RunClaim)
    (window : RollupWindow) (rows : Option (List HourlyRollupRow)) (pipelineVersion : String)
    (now : ℕ) (faults : Faults) : Tx RollupError Tables ActivationResult := do
  let cutoff := floorHour window.sourceCutoffAt
  Tx.statement (faults .setTimeout) fun t => .ok ((), t)
  Tx.statement (faults .verifyClaim) (verifyClaim runs claim)
  let hourlyRows ← publishCandidate db window rows pipelineVersion cutoff now faults
  let r ← reconcile db cutoff faults
  let weeklyRows ← republish db (activatedWeeks r.1.1 r.1.2 cutoff) cutoff faults
  recordActivation pipelineVersion cutoff now faults
  return ⟨hourlyRows, weeklyRows, r.2⟩

/-- `activate_reconciled_rollups`. -/
def activateReconciledRollups (db : Database) (claim : Queue.RunClaim) (window : RollupWindow)
    (rows : Option (List HourlyRollupRow)) (now : ℕ)
    (pipelineVersion : String := rollupPipelineVersion) (faults : Faults := fun _ => none) :
    Except RollupError ActivationResult × Database :=
  let result := Tx.transact (faults .commit)
    (activation db.ledger db.runs claim window rows pipelineVersion now faults) db.reporting
  (result.1, { db with reporting := result.2 })

/-- `publish_hourly_rollups`: the shadow mode, which does not touch the weekly rows. -/
def publishHourlyRollups (db : Database) (claim : Queue.RunClaim) (window : RollupWindow)
    (rows : List HourlyRollupRow) (now : ℕ) (pipelineVersion : String := rollupPipelineVersion)
    (faults : Faults := fun _ => none) : Except RollupError ℕ × Database :=
  let result := Tx.transact (faults .commit)
    (do
      Tx.statement (faults .setTimeout) fun t => .ok ((), t)
      Tx.statement (faults .verifyClaim) (verifyClaim db.runs claim)
      publish db.ledger window rows pipelineVersion window.sourceCutoffAt now faults)
    db.reporting
  (result.1, { db with reporting := result.2 })

end Reporting

end TrackFlow
