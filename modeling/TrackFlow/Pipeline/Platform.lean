import TrackFlow.Inventory.Prune
import TrackFlow.Inventory.Seed
import TrackFlow.LTS.Machine
import TrackFlow.Pipeline.Executor

/-!
# The platform, one transaction at a time

Service calls, queue transactions, runs of the rollup pipeline, prunes and guarded resets of the
ledger, in any order.  A run, a prune and a reset are several transactions, and anything may
commit between two of them.

A run is in flight from its extract stage on.  There is at most one: a worker that lost its
claim cannot load, and no claim is owned while another run is running.

`Sane` collects the foreign keys that every transaction keeps.
-/

namespace TrackFlow

namespace Pipeline

open Reporting

/-- A run between two stages. -/
structure Flight where
  claim : Queue.RunClaim
  window : RollupWindow
  /-- The ledger that the transform stage has read. -/
  source : Option Ledger

/-- A run that went through: its window, and the ledger its rows were computed from. -/
structure LoadedRun where
  window : RollupWindow
  source : Ledger

/-- A prune between two batches. -/
structure PruneJob where
  cutoff : ℕ
  /-- The steps left. -/
  steps : List PruneStep

/-- The next transaction of a reset. -/
inductive ResetStage
  | truncate
  | seed
  | backfill
  deriving DecidableEq, Repr

/-- A reset that has captured its boundary and enqueued its checkpoint run. -/
structure ResetJob where
  boundary : ℕ
  checkpointRun : UUID
  stage : ResetStage

/-- The database, the jobs in progress, and the history of the proofs: the runs that went
through, the source rows that prunes have deleted, and the movements that a reset has truncated
before a weekly row reflected them. -/
structure Platform where
  db : Database
  /-- `reporting.incomplete_weeks`, without the reasons. -/
  incompleteWeeks : List ℕ
  flight : Option Flight
  prune : Option PruneJob
  reset : Option ResetJob
  loaded : List LoadedRun
  deleted : List SourceEvent
  unreported : List SourceEvent

/-- One transaction. -/
inductive Event
  | service (op : LedgerOp)
  /-- Whatever the queue does to its runs. -/
  | queue (runs : Table Queue.PipelineRun.id)
  | extract (claim : Queue.RunClaim) (now : Clock)
  | transform (now : Clock)
  | load (now : Clock) (cutover : Bool) (faults : Faults)
  /-- A prune starts: verification and checkpoint. -/
  | pruneStart (now : Clock) (retentionDays : ℕ)
  /-- The next batch of the prune, of at most `size` rows. -/
  | pruneBatch (size : ℕ)
  /-- `reset_ledger` starts: the boundary is captured. -/
  | resetStart (now : Clock) (checkpointRun : UUID)
  | resetTruncate
  | resetSeed (ids : SeedIds) (userUuid : String)
  | resetBackfill (isoformat : ℕ → String) (draws : ℕ → SKU → BackfillDay) (userUuid : String)
      (now : Clock) (days : ℕ)
  /-- The prune, or the reset, stops. -/
  | pruneStop
  | resetStop

/-! ## Reset -/

/-- `TRUNCATE ... RESTART IDENTITY`. -/
def truncateSources (db : Ledger) : Ledger :=
  { db with
    stockEntries := [], stockExits := [], stockoutEvents := [], inventoryDiscrepancies := []
    stockBalances := .empty, stockLedgerCheckpoints := .empty }

/-- The database after `_reset_source_tables`. -/
def resetSourceTables (db : Database) (resetAt : ℕ) : Database :=
  { db with
    ledger := truncateSources db.ledger
    reporting := { db.reporting with lastResetAt := some resetAt } }

/-- `reset_incomplete_weeks` after a successful checkpoint. -/
def resetIncompleteWeeks (resetAt : ℕ) : List ℕ := [Queue.isoWeekStart resetAt]

/-- The movements of a ledger, as the aggregates see them. -/
def movementEvents (db : Ledger) : List SourceEvent :=
  db.stockEntries.filterMap (inboundEvent db.skus) ++
    db.stockExits.filterMap (outboundEvent db.skus)

/-- The week and dimension of a source row have a weekly row, and it shows what the ledger has. -/
def reflected (db : Database) (v : SourceEvent) : Bool :=
  let total (m : Metric) :=
    sourceTotal db.ledger m (weekFloor v.time) (weekFloor v.time + week) v.dim
  db.reporting.weekly.rows.any fun w =>
    decide (w.key = (reportWarehouse v.warehouse, v.clientId, weekFloor v.time)) &&
      decide (w.inboundUnitsCount = total .inboundUnits) &&
      decide (w.outboundOrdersCount = total .dispatchOrderCount) &&
      decide (w.stockoutEventsCount = total .stockoutCount) &&
      decide (w.discrepancyEventsCount = total .discrepancyCount)

/-- `run_reporting_checkpoint` finds its run succeeded. -/
def checkpointSucceeded (runs : Table Queue.PipelineRun.id) (runId : UUID) : Bool :=
  runs.rows.any fun r =>
    decide (r.id = runId) && decide (r.status = .succeeded) && r.finishedAt.isSome

namespace Platform

/-! ## Transactions -/

/-- The ledger of the rows that are in `db` and not in `db'`. -/
def removed (db db' : Ledger) : Ledger :=
  { db with
    stockEntries := db.stockEntries.filter fun e => decide (e ∉ db'.stockEntries)
    stockExits := db.stockExits.filter fun x => decide (x ∉ db'.stockExits)
    stockoutEvents := db.stockoutEvents.filter fun v => decide (v ∉ db'.stockoutEvents)
    inventoryDiscrepancies :=
      db.inventoryDiscrepancies.filter fun d => decide (d ∉ db'.inventoryDiscrepancies) }

/-- The platform with another ledger. -/
def setLedger (s : Platform) (ledger : Ledger) : Platform :=
  { s with db := { s.db with ledger := ledger } }

/-- The extract stage of a run; a requested week is a date, the midnight it starts at. -/
def extract (s : Platform) (claim : Queue.RunClaim) (now : Clock) : Option Platform :=
  if claim.requestedWeekStart.all fun w => decide (day ∣ w) then
    match beginStage s.db claim .extract now.instant with
    | .error _ => none
    | .ok db =>
      match captureRollupWindow db claim now.instant with
      | .error _ => some { s with db := db, flight := none }
      | .ok window => some { s with db := db, flight := some ⟨claim, window, none⟩ }
  else none

/-- The transform stage. -/
def transform (s : Platform) (now : Clock) : Option Platform :=
  match s.flight with
  | some ⟨claim, window, none⟩ =>
    match beginStage s.db claim .transform now.instant with
    | .error _ => some { s with flight := none }
    | .ok db => some { s with db := db, flight := some ⟨claim, window, some db.ledger⟩ }
  | _ => none

/-- The load stage. -/
def load (s : Platform) (now : Clock) (cutover : Bool) (faults : Faults) : Option Platform :=
  match s.flight with
  | some ⟨claim, window, some source⟩ =>
    match beginStage s.db claim .load now.instant with
    | .error _ => some { s with flight := none }
    | .ok db =>
      match loadStage db claim window (computeHourlyRollups source window) now.instant cutover
          faults with
      | (.error _, db) => some { s with db := db, flight := none }
      | (.ok _, db) => some
          { s with db := db, flight := none, loaded := ⟨window, source⟩ :: s.loaded }
  | _ => none

/-- A prune starts. -/
def pruneStart (s : Platform) (now : Clock) (retentionDays : ℕ) : Option Platform :=
  match retentionCutoff now.instant retentionDays with
  | .error _ => none
  | .ok cutoff =>
    match s.db.ledger.beginPrune cutoff with
    | .error _ => none
    | .ok ledger => some { s.setLedger ledger with prune := some ⟨cutoff, pruneSteps⟩ }

/-- The next batch of a prune; when a foreign key refuses it, the prune fails. -/
def pruneBatch (s : Platform) (size : ℕ) : Option Platform :=
  match s.prune with
  | none => none
  | some ⟨_, []⟩ => some { s with prune := none }
  | some ⟨cutoff, step :: steps⟩ =>
    match s.db.ledger.deleteBatch cutoff size step with
    | none => some { s with prune := none }
    | some (ledger, n) => some
        { s.setLedger ledger with
          prune := some ⟨cutoff, if n = 0 then steps else step :: steps⟩
          deleted := s.deleted ++ sourceEvents (removed s.db.ledger ledger) }

/-- The truncation of a reset, once its checkpoint has succeeded. -/
def resetTruncate (s : Platform) : Option Platform :=
  match s.reset with
  | some ⟨boundary, runId, .truncate⟩ =>
    if checkpointSucceeded s.db.runs runId then
      some { s with
        db := resetSourceTables s.db boundary
        incompleteWeeks := resetIncompleteWeeks boundary ++ s.incompleteWeeks
        reset := some ⟨boundary, runId, .seed⟩
        unreported := s.unreported ++
          (movementEvents s.db.ledger).filter fun v => !reflected s.db v }
    else none
  | _ => none

/-- The seed of a reset; when it raises, so does the reset. -/
def resetSeed (s : Platform) (ids : SeedIds) (userUuid : String) : Option Platform :=
  match s.reset with
  | some ⟨boundary, runId, .seed⟩ =>
    match s.db.ledger.seedInventory ids userUuid with
    | .error _ => some { s with reset := none }
    | .ok ledger => some { s.setLedger ledger with reset := some ⟨boundary, runId, .backfill⟩ }
  | _ => none

/-- The backfill of a reset. -/
def resetBackfill (s : Platform) (isoformat : ℕ → String) (draws : ℕ → SKU → BackfillDay)
    (userUuid : String) (now : Clock) (days : ℕ) : Option Platform :=
  match s.reset with
  | some ⟨_, _, .backfill⟩ =>
    match s.db.ledger.backfillHistory isoformat draws userUuid now.instant days with
    | .error _ => some { s with reset := none }
    | .ok ledger => some { s.setLedger ledger with reset := none }
  | _ => none

/-- The state after a transaction. -/
def next (s : Platform) : Event → Option Platform
  | .service op =>
    match op.perform s.db.ledger with
    | .error _ => none
    | .ok ledger => some (s.setLedger ledger)
  | .queue runs => some { s with db := { s.db with runs := runs } }
  | .extract claim now => s.extract claim now
  | .transform now => s.transform now
  | .load now cutover faults => s.load now cutover faults
  | .pruneStart now retentionDays => s.pruneStart now retentionDays
  | .pruneBatch size => s.pruneBatch size
  | .resetStart now checkpointRun =>
    some { s with reset := some ⟨now.instant, checkpointRun, .truncate⟩ }
  | .resetTruncate => s.resetTruncate
  | .resetSeed ids userUuid => s.resetSeed ids userUuid
  | .resetBackfill isoformat draws userUuid now days =>
    s.resetBackfill isoformat draws userUuid now days
  | .pruneStop => some { s with prune := none }
  | .resetStop => some { s with reset := none }

/-- The machine of the platform. -/
def machine : Machine Platform Event := ⟨next⟩

/-- A ledger that nothing has been rolled up from. -/
def start (ledger : Ledger) (runs : Table Queue.PipelineRun.id) (lastResetAt : Option ℕ) :
    Platform where
  db :=
    { ledger := ledger
      reporting := { Tables.empty with lastResetAt := lastResetAt }
      runs := runs }
  incompleteWeeks := []
  flight := none
  prune := none
  reset := none
  loaded := []
  deleted := []
  unreported := []

/-! ## What one transaction does -/

/-- What a transaction may do to the ledger. -/
inductive LedgerStep (db db' : Ledger) : Prop
  | same (h : db' = db)
  | service (op : LedgerOp) (h : op.perform db = .ok db')
  | checkpoint (cutoff : ℕ) (h : db.beginPrune cutoff = .ok db')
  | batch (cutoff size n : ℕ) (step : PruneStep)
      (h : db.deleteBatch cutoff size step = some (db', n))
  | truncate (h : db' = truncateSources db)
  | seed (ids : SeedIds) (userUuid : String) (h : db.seedInventory ids userUuid = .ok db')
  | backfill (isoformat : ℕ → String) (draws : ℕ → SKU → BackfillDay) (userUuid : String)
      (now days : ℕ) (h : db.backfillHistory isoformat draws userUuid now days = .ok db')

/-- What a reset leaves behind: the incomplete weeks, and the movements lost. -/
def marks (s : Platform) : List ℕ × List SourceEvent := (s.incompleteWeeks, s.unreported)

/-- What a transaction may do to the reporting tables. -/
inductive ReportingStep (s : Platform) (e : Event) (s' : Platform) : Prop
  | same (hr : s'.db.reporting = s.db.reporting) (hl : s'.loaded = s.loaded)
      (hm : s'.marks = s.marks)
  | load (now : Clock) (cutover : Bool) (faults : Faults) (he : e = .load now cutover faults)
      (claim : Queue.RunClaim) (window : RollupWindow) (source : Ledger) (db : Database)
      (hf : s.flight = some ⟨claim, window, some source⟩) (hled : db.ledger = s.db.ledger)
      (hrep : db.reporting = s.db.reporting)
      (h : hour ∣ window.sourceCutoffAt →
        Loaded db s'.db claim window (computeHourlyRollups source window))
      (hl : s'.loaded = ⟨window, source⟩ :: s.loaded) (hnone : s'.flight = none)
      (hm : s'.marks = s.marks)
  | reset (boundary : ℕ) (he : e = .resetTruncate)
      (hr : s'.db.reporting = { s.db.reporting with lastResetAt := some boundary })
      (hl : s'.loaded = s.loaded)

/-- What a transaction may do to the run in flight. -/
inductive FlightStep (s s' : Platform) : Prop
  | same (h : s'.flight = s.flight)
  | none (h : s'.flight = none)
  | extract (claim : Queue.RunClaim) (now : Clock) (window : RollupWindow)
      (hw : ∀ w, claim.requestedWeekStart = some w → day ∣ w)
      (hc : captureRollupWindow s.db claim now.instant = .ok window)
      (h : s'.flight = some ⟨claim, window, .none⟩)
  | transform (claim : Queue.RunClaim) (window : RollupWindow)
      (hf : s.flight = some ⟨claim, window, .none⟩)
      (h : s'.flight = some ⟨claim, window, some s.db.ledger⟩)

section Steps

variable {s s' : Platform} {e : Event}

theorem extract_eq_some {claim : Queue.RunClaim} {now : Clock} (h : s.extract claim now = some s') :
    ∃ db, s' = { s with db := db, flight := s'.flight } ∧ db.ledger = s.db.ledger ∧
      db.reporting = s.db.reporting ∧
      (∀ w, claim.requestedWeekStart = some w → day ∣ w) ∧
      ((∃ window, captureRollupWindow s.db claim now.instant = .ok window ∧
        s'.flight = some ⟨claim, window, none⟩) ∨ s'.flight = none) := by
  unfold extract at h
  split_ifs at h with hw
  split at h
  · cases h
  rename_i db hb
  obtain ⟨-, -, hled, hrep⟩ := beginStage_eq_ok hb
  have hday : ∀ w, claim.requestedWeekStart = some w → day ∣ w := fun w h' => by
    simpa [h'] using hw
  have hcapture : captureRollupWindow db claim now.instant =
      captureRollupWindow s.db claim now.instant := captureRollupWindow_congr hled hrep
  split at h
  · cases h
    exact ⟨db, rfl, hled, hrep, hday, .inr rfl⟩
  · rename_i window hwin
    cases h
    exact ⟨db, rfl, hled, hrep, hday, .inl ⟨window, hcapture ▸ hwin, rfl⟩⟩

theorem transform_eq_some {now : Clock} (h : s.transform now = some s') :
    ∃ claim window db, s.flight = some ⟨claim, window, none⟩ ∧
      s' = { s with db := db, flight := s'.flight } ∧ db.ledger = s.db.ledger ∧
      db.reporting = s.db.reporting ∧
      (s'.flight = some ⟨claim, window, some s.db.ledger⟩ ∨ s'.flight = none) := by
  unfold transform at h
  split at h
  · rename_i claim window hf
    split at h
    · cases h
      exact ⟨claim, window, s.db, hf, rfl, rfl, rfl, .inr rfl⟩
    · rename_i db hb
      obtain ⟨-, -, hled, hrep⟩ := beginStage_eq_ok hb
      cases h
      exact ⟨claim, window, db, hf, rfl, hled, hrep, .inl (by rw [hled])⟩
  · cases h

/-- A load goes through, or leaves the ledger and the reporting tables alone. -/
theorem load_eq_some {now : Clock} {cutover : Bool} {faults : Faults}
    (h : s.load now cutover faults = some s') :
    ∃ claim window source db, s.flight = some ⟨claim, window, some source⟩ ∧
      db.ledger = s.db.ledger ∧ db.reporting = s.db.reporting ∧ s'.flight = none ∧
      ((s' = { s with db := s'.db, flight := none } ∧ s'.db.ledger = s.db.ledger ∧
          s'.db.reporting = s.db.reporting) ∨
        ((∃ metrics, loadStage db claim window (computeHourlyRollups source window) now.instant
            cutover faults = (.ok metrics, s'.db)) ∧
          s' = { s with
            db := s'.db, flight := none, loaded := ⟨window, source⟩ :: s.loaded })) := by
  unfold load at h
  split at h
  · rename_i claim window source hf
    split at h
    · cases h
      exact ⟨claim, window, source, s.db, hf, rfl, rfl, rfl, .inl ⟨rfl, rfl, rfl⟩⟩
    · rename_i db hb
      obtain ⟨-, -, hled, hrep⟩ := beginStage_eq_ok hb
      split at h
      · rename_i e db' hl
        cases h
        obtain rfl := loadStage_of_error hl
        exact ⟨claim, window, source, db', hf, hled, hrep, rfl, .inl ⟨rfl, hled, hrep⟩⟩
      · rename_i metrics db' hl
        cases h
        exact ⟨claim, window, source, db, hf, hled, hrep, rfl, .inr ⟨⟨metrics, hl⟩, rfl⟩⟩
  · cases h

/-- **What one transaction does.**  Every transaction takes one of the steps of the ledger, of
the reporting tables and of the run in flight. -/
theorem step_of_next (h : s.next e = some s') :
    LedgerStep s.db.ledger s'.db.ledger ∧ ReportingStep s e s' ∧ FlightStep s s' := by
  cases e with
  | service op =>
    simp only [next] at h
    split at h
    · cases h
    · rename_i ledger hp
      cases h
      exact ⟨.service op hp, .same rfl rfl rfl, .same rfl⟩
  | queue runs =>
    cases h
    exact ⟨.same rfl, .same rfl rfl rfl, .same rfl⟩
  | extract claim now =>
    obtain ⟨db, hs, hled, hrep, hw, hf⟩ := extract_eq_some h
    refine ⟨.same (by rw [hs]; exact hled),
      .same (by rw [hs]; exact hrep) (by rw [hs]) (by rw [hs]; rfl), ?_⟩
    rcases hf with ⟨window, hc, hf⟩ | hf
    · exact .extract claim now window hw hc hf
    · exact .none hf
  | transform now =>
    obtain ⟨claim, window, db, hf, hs, hled, hrep, hf'⟩ := transform_eq_some h
    refine ⟨.same (by rw [hs]; exact hled),
      .same (by rw [hs]; exact hrep) (by rw [hs]) (by rw [hs]; rfl), ?_⟩
    rcases hf' with hf' | hf'
    · exact .transform claim window hf hf'
    · exact .none hf'
  | load now cutover faults =>
    obtain ⟨claim, window, source, db, hf, hled, hrep, hnone, hload⟩ := load_eq_some h
    rcases hload with ⟨hs, hled', hrep'⟩ | ⟨⟨metrics, hl⟩, hs⟩
    · exact ⟨.same hled', .same hrep' (by rw [hs]) (by rw [hs]; rfl), .none hnone⟩
    · have hledger : s'.db.ledger = db.ledger := by
        have hstage := congrArg (fun r => r.2.ledger) hl
        exact hstage.symm.trans ledger_loadStage
      refine ⟨.same (hledger.trans hled), ?_, .none hnone⟩
      exact .load now cutover faults rfl claim window source db hf hled hrep
        (fun hc => loadStage_eq_ok hc hl) (by rw [hs]) hnone (by rw [hs]; rfl)
  | pruneStart now retentionDays =>
    simp only [next, pruneStart] at h
    split at h
    · cases h
    split at h
    · cases h
    · rename_i cutoff _ _ ledger hb
      cases h
      exact ⟨.checkpoint cutoff hb, .same rfl rfl rfl, .same rfl⟩
  | pruneBatch size =>
    simp only [next, pruneBatch] at h
    split at h
    · cases h
    · cases h
      exact ⟨.same rfl, .same rfl rfl rfl, .same rfl⟩
    · rename_i cutoff step steps _
      split at h
      · cases h
        exact ⟨.same rfl, .same rfl rfl rfl, .same rfl⟩
      · rename_i ledger n hd
        cases h
        exact ⟨.batch cutoff size n step hd, .same rfl rfl rfl, .same rfl⟩
  | resetStart now checkpointRun =>
    cases h
    exact ⟨.same rfl, .same rfl rfl rfl, .same rfl⟩
  | resetTruncate =>
    simp only [next, resetTruncate] at h
    split at h
    · rename_i boundary runId _
      split_ifs at h
      cases h
      exact ⟨.truncate rfl, .reset boundary rfl rfl rfl, .same rfl⟩
    · cases h
  | resetSeed ids userUuid =>
    simp only [next, resetSeed] at h
    split at h
    · split at h
      · cases h
        exact ⟨.same rfl, .same rfl rfl rfl, .same rfl⟩
      · rename_i ledger hs
        cases h
        exact ⟨.seed ids userUuid hs, .same rfl rfl rfl, .same rfl⟩
    · cases h
  | resetBackfill isoformat draws userUuid now days =>
    simp only [next, resetBackfill] at h
    split at h
    · split at h
      · cases h
        exact ⟨.same rfl, .same rfl rfl rfl, .same rfl⟩
      · rename_i ledger hs
        cases h
        exact ⟨.backfill isoformat draws userUuid now.instant days hs, .same rfl rfl rfl, .same rfl⟩
    · cases h
  | pruneStop =>
    cases h
    exact ⟨.same rfl, .same rfl rfl rfl, .same rfl⟩
  | resetStop =>
    cases h
    exact ⟨.same rfl, .same rfl rfl rfl, .same rfl⟩

end Steps

/-! ## Foreign keys -/

/-- `rollup_state.last_cutoff_at`. -/
def lastCutoff (s : Platform) : Option ℕ := s.db.reporting.rollupState.1.lastCutoffAt

/-- The foreign keys that every transaction keeps. -/
structure Sane (s : Platform) : Prop where
  wellFormed : WellFormed s.db.ledger
  clients : ClientsExist s.db.ledger
  /-- Rollups are of the dimensions of the ledger. -/
  rollups : ∀ r ∈ s.db.reporting.hourly.rows, r.dim ∈ dimensions s.db.ledger
  window : ∀ f, s.flight = some f → WholeHours f.window
  source : ∀ f source, s.flight = some f → f.source = some source →
    WellFormed source ∧ SkusKept source s.db.ledger ∧
      ∀ r ∈ s.db.reporting.hourly.rows, r.dim ∈ dimensions source
  /-- An active snapshot has a last cutoff. -/
  state : s.lastCutoff = none → s.db.reporting.rollupState.1.activeCutoffAt = none

section Foreign

variable {s s' : Platform} {e : Event} {db db' : Ledger}

/-- No transaction breaks the keys of the ledger, or removes a SKU. -/
theorem LedgerStep.keeps (h : LedgerStep db db') (hwf : WellFormed db) (hc : ClientsExist db) :
    WellFormed db' ∧ ClientsExist db' ∧ SkusKept db db' := by
  cases h with
  | same h =>
    cases h
    exact ⟨hwf, hc, SkusKept.of_eq rfl⟩
  | service op h => exact ⟨hwf.perform h, hc.perform h, (LedgerOp.perform_eq_ok h).skus⟩
  | checkpoint cutoff h =>
    obtain ⟨w, -, -, rfl⟩ := Ledger.beginPrune_eq_ok h
    exact ⟨{ hwf with }, hc, SkusKept.of_eq rfl⟩
  | batch cutoff size n step h =>
    have hd := Ledger.deleteBatch_eq_some hwf h
    refine ⟨hd.wellFormed hwf, ?_, SkusKept.of_eq hd.skus⟩
    intro sku hs
    rw [hd.clients]
    exact hc sku (hd.skus ▸ hs)
  | truncate h =>
    cases h
    exact ⟨by constructor <;> simp [truncateSources], hc, SkusKept.of_eq rfl⟩
  | seed ids userUuid h =>
    have hr := Reseeded.seedInventory h
    exact ⟨hr.wellFormed hwf, hr.clientsExist hc, hr.skus⟩
  | backfill isoformat draws userUuid now days h =>
    have hr := Reseeded.backfillHistory h
    exact ⟨hr.wellFormed hwf, hr.clientsExist hc, hr.skus⟩

theorem Sane.start {ledger : Ledger} (hwf : WellFormed ledger) (hc : ClientsExist ledger)
    (runs : Table Queue.PipelineRun.id) (lastResetAt : Option ℕ) :
    Sane (start ledger runs lastResetAt) where
  wellFormed := hwf
  clients := hc
  rollups := by simp [Platform.start, Tables.empty]
  window := by simp [Platform.start]
  source := by simp [Platform.start]
  state := fun _ => rfl

/-- A captured window of a claim for a date has whole hours. -/
theorem wholeHours_of_day {db : Database} {claim : Queue.RunClaim} {now : ℕ} {window : RollupWindow}
    (hw : ∀ w, claim.requestedWeekStart = some w → day ∣ w)
    (hc : captureRollupWindow db claim now = .ok window) : WholeHours window :=
  wholeHours_of_capture hc fun w h => dvd_trans (by decide) (hw w h)

/-- The windows in flight have whole hours, whatever happens. -/
theorem wholeHours_next (hs : ∀ f, s.flight = some f → WholeHours f.window)
    (h : s.next e = some s') : ∀ f, s'.flight = some f → WholeHours f.window := by
  intro f hf
  cases (step_of_next h).2.2 with
  | same h' => exact hs f (h' ▸ hf)
  | none h' => simp [h'] at hf
  | extract claim now window hw hc h' =>
    obtain rfl : f = _ := Option.some.inj (hf.symm.trans h')
    exact wholeHours_of_day hw hc
  | transform claim window hf' h' =>
    obtain rfl : f = _ := Option.some.inj (hf.symm.trans h')
    have hwhole := hs _ hf'
    exact hwhole

/-- **The foreign keys hold in every reachable state.** -/
theorem Sane.next (hs : Sane s) (h : s.next e = some s') : Sane s' := by
  obtain ⟨hl, hr, hf⟩ := step_of_next h
  obtain ⟨hwf, hc, hk⟩ := hl.keeps hs.wellFormed hs.clients
  refine ⟨hwf, hc, ?_, wholeHours_next hs.window h, ?_, ?_⟩
  · intro r hm
    cases hr with
    | same hr _ _ => exact dimensions_subset hk (hs.rollups r (hr ▸ hm))
    | reset boundary _ hr _ =>
      exact dimensions_subset hk (hs.rollups r (by rw [hr] at hm; exact hm))
    | load _ _ _ _ claim window source db hfl hled hrep hload _ _ _ =>
      have hw := hs.window _ hfl
      have hov := Overlaid.of_candidate hw.start_dvd hw.endAt_dvd (hload hw.cutoff_dvd).hourly
      by_cases hin : InGrid source window r
      · exact dimensions_subset hk (dimensions_subset (hs.source _ source hfl rfl).2.1 hin.2.2)
      · have hold := (hov.outside r hin).1 hm
        rw [hrep] at hold
        exact dimensions_subset hk (hs.rollups r hold)
  · intro f source hf' hsrc
    cases hf with
    | same h' =>
      obtain ⟨h₁, h₂, h₃⟩ := hs.source f source (h' ▸ hf') hsrc
      refine ⟨h₁, h₂.trans hk, ?_⟩
      cases hr with
      | same hr _ _ => exact fun r hm => h₃ r (hr ▸ hm)
      | reset boundary _ hr _ => exact fun r hm => h₃ r (by rw [hr] at hm; exact hm)
      | load _ _ _ _ _ _ _ _ _ _ _ _ _ hnone _ => simp [hnone] at hf'
    | none h' => simp [h'] at hf'
    | extract claim now window _ _ h' =>
      obtain rfl : f = _ := Option.some.inj (hf'.symm.trans h')
      cases hsrc
    | transform claim window _ h' =>
      obtain rfl : f = _ := Option.some.inj (hf'.symm.trans h')
      cases hsrc
      refine ⟨hs.wellFormed, hk, fun r hm => ?_⟩
      cases hr with
      | same hr _ _ => exact hs.rollups r (hr ▸ hm)
      | reset boundary _ hr _ => exact hs.rollups r (by rw [hr] at hm; exact hm)
      | load _ _ _ _ _ _ _ _ _ _ _ _ _ hnone _ => simp [hnone] at h'

  · intro hnone
    cases hr with
    | same hr _ _ =>
      rw [lastCutoff, hr] at hnone
      rw [hr]
      exact hs.state hnone
    | reset boundary _ hr _ =>
      rw [lastCutoff, hr] at hnone
      rw [hr]
      exact hs.state hnone
    | load _ _ _ _ claim window source db hfl _ _ hload _ _ _ =>
      have hlast := (hload (hs.window _ hfl).cutoff_dvd).lastCutoffAt
      rw [lastCutoff, hlast] at hnone
      cases hnone

theorem Sane.run {G : Platform → Event → Prop} {s₀ : Platform} (h₀ : Sane s₀)
    (h : machine.Run G s₀ s) : Sane s :=
  h.invariant Sane h₀ fun _ _ _ hs _ hn => hs.next hn

end Foreign

end Platform

end Pipeline

end TrackFlow
