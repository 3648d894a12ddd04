import TrackFlow.Decimal.Division
import TrackFlow.Inventory.Models
import TrackFlow.Queue.Models
import TrackFlow.Sql.Rollup

/-!
# The reporting tables

The hourly rollups, the weekly rows and the singleton `rollup_state` of
`central_api/domains/reporting/models.py`, with their check constraints as fields: a row that
violates one cannot be built.  The sources of the rollups, four tables of the ledger, are read
as one list of `SourceEvent`s, each with the amount it adds to every metric.

`bigint` columns are natural numbers; the `integer` columns of the weekly table are bounded.  The
rate is what the division of `numeric` yields.
-/

namespace TrackFlow

namespace Reporting

/-- The eight counters of a rollup. -/
inductive Metric
  | inboundMovementCount
  | inboundUnits
  | dispatchOrderCount
  | dispatchUnits
  | lossMovementCount
  | lossUnits
  | stockoutCount
  | discrepancyCount
  deriving DecidableEq, Repr

/-- `_METRICS`. -/
def metrics : List Metric :=
  [.inboundMovementCount, .inboundUnits, .dispatchOrderCount, .dispatchUnits, .lossMovementCount,
    .lossUnits, .stockoutCount, .discrepancyCount]

@[simp] theorem mem_metrics (m : Metric) : m ∈ metrics := by
  cases m <;> decide

/-- A warehouse and a client. -/
abbrev Dimension := Warehouse × UUID

/-! ## Sources -/

/-- A source row as the aggregates see it. -/
structure SourceEvent where
  time : ℕ
  warehouse : Warehouse
  clientId : UUID
  amount : Metric → ℕ

/-- The dimension of a source row. -/
def SourceEvent.dim (v : SourceEvent) : Dimension := (v.warehouse, v.clientId)

/-- `stock_entries JOIN skus`. -/
def inboundEvent (skus : Table SKU.id) (e : StockEntry) : Option SourceEvent :=
  (skus.lookup e.skuId).map fun sku =>
    { time := e.createdAt
      warehouse := e.warehouse
      clientId := sku.clientId
      amount := fun
        | .inboundMovementCount => 1
        | .inboundUnits => e.quantity
        | _ => 0 }

/-- `stock_exits JOIN skus`. -/
def outboundEvent (skus : Table SKU.id) (x : StockExit) : Option SourceEvent :=
  (skus.lookup x.skuId).map fun sku =>
    { time := x.createdAt
      warehouse := x.warehouse
      clientId := sku.clientId
      amount := fun m =>
        match x.exitType, m with
        | .dispatch, .dispatchOrderCount => 1
        | .dispatch, .dispatchUnits => x.quantity
        | .loss, .lossMovementCount => 1
        | .loss, .lossUnits => x.quantity
        | _, _ => 0 }

/-- A row of `stockout_events`. -/
def stockoutEvent (v : StockoutEvent) : SourceEvent where
  time := v.occurredAt
  warehouse := v.warehouse
  clientId := v.clientId
  amount
    | .stockoutCount => 1
    | _ => 0

/-- A row of `inventory_discrepancies`. -/
def discrepancyEvent (d : InventoryDiscrepancy) : SourceEvent where
  time := d.detectedAt
  warehouse := d.warehouse
  clientId := d.clientId
  amount
    | .discrepancyCount => 1
    | _ => 0

/-- The rows that the source aggregates read. -/
def sourceEvents (db : Ledger) : List SourceEvent :=
  db.stockEntries.filterMap (inboundEvent db.skus) ++
    db.stockExits.filterMap (outboundEvent db.skus) ++
    db.stockoutEvents.map stockoutEvent ++
    db.inventoryDiscrepancies.map discrepancyEvent

/-- The raw aggregate: a metric of one dimension between two instants, taken from the ledger. -/
def sourceTotal (db : Ledger) (m : Metric) (s e : ℕ) (d : Dimension) : ℕ :=
  spanTotal SourceEvent.time SourceEvent.dim (·.amount m) (sourceEvents db) s e d

/-! ## Tables -/

/-- `hourly_activity_rollups`. -/
structure HourlyActivityRollup where
  bucketStart : ℕ
  warehouse : Warehouse
  clientId : UUID
  counts : Metric → ℕ
  sourceCutoffAt : ℕ
  pipelineVersion : String
  /-- `ck_hourly_rollups_bucket_hour`. -/
  bucket_hour : hour ∣ bucketStart

/-- The dimension of a rollup. -/
def HourlyActivityRollup.dim (r : HourlyActivityRollup) : Dimension := (r.warehouse, r.clientId)

/-- The primary key. -/
def HourlyActivityRollup.key (r : HourlyActivityRollup) : ℕ × Dimension := (r.bucketStart, r.dim)

/-- A metric of one dimension between two instants, taken from rollups. -/
def hourlyTotal (rows : List HourlyActivityRollup) (m : Metric) (s e : ℕ) (d : Dimension) : ℕ :=
  spanTotal HourlyActivityRollup.bucketStart HourlyActivityRollup.dim (·.counts m) rows s e d

/-- The warehouse names of the weekly table. -/
inductive ReportWarehouse
  | losAngeles
  | zaragoza
  deriving DecidableEq, Repr

/-- `CASE warehouse WHEN 'LA' THEN 'los_angeles' ELSE 'zaragoza' END`. -/
def reportWarehouse : Warehouse → ReportWarehouse
  | .LA => .losAngeles
  | .ZGZ => .zaragoza

theorem reportWarehouse_injective : Function.Injective reportWarehouse := by
  intro w w' h
  cases w <;> cases w' <;> first | rfl | cases h

/-- The least number that an `integer` column cannot hold. -/
def integerBound : ℕ := 2 ^ 31

/-- `weekly_warehouse_client_performance`. -/
structure WeeklyPerformance where
  warehouse : ReportWarehouse
  clientId : UUID
  weekStart : ℕ
  inboundUnitsCount : ℕ
  outboundOrdersCount : ℕ
  stockoutEventsCount : ℕ
  discrepancyEventsCount : ℕ
  discrepancyRate : ℚ
  fits : inboundUnitsCount < integerBound ∧ outboundOrdersCount < integerBound ∧
    stockoutEventsCount < integerBound ∧ discrepancyEventsCount < integerBound
  /-- `ck_wwcp_rate`. -/
  rate : 0 ≤ discrepancyRate ∧ discrepancyRate ≤ 1
  /-- `ck_wwcp_week_is_monday`. -/
  monday : week ∣ weekStart

/-- The unique key `(warehouse, client_id, week_start)`. -/
def WeeklyPerformance.key (w : WeeklyPerformance) : ReportWarehouse × UUID × ℕ :=
  (w.warehouse, w.clientId, w.weekStart)

/-- `CASE WHEN dispatches = 0 THEN 0 ELSE discrepancies / dispatches END`. -/
def discrepancyRate (discrepancies dispatches : ℕ) : ℚ :=
  if dispatches = 0 then 0 else Decimal.numericDiv discrepancies dispatches

/-- The weekly row of some totals, if the table can hold it. -/
def weeklyRow (d : Dimension) (weekStart : ℕ) (total : Metric → ℕ) : Option WeeklyPerformance :=
  if h : (total .inboundUnits < integerBound ∧ total .dispatchOrderCount < integerBound ∧
      total .stockoutCount < integerBound ∧ total .discrepancyCount < integerBound) ∧
      (0 ≤ discrepancyRate (total .discrepancyCount) (total .dispatchOrderCount) ∧
        discrepancyRate (total .discrepancyCount) (total .dispatchOrderCount) ≤ 1) ∧
      week ∣ weekStart then
    some
      { warehouse := reportWarehouse d.1
        clientId := d.2
        weekStart := weekStart
        inboundUnitsCount := total .inboundUnits
        outboundOrdersCount := total .dispatchOrderCount
        stockoutEventsCount := total .stockoutCount
        discrepancyEventsCount := total .discrepancyCount
        discrepancyRate := discrepancyRate (total .discrepancyCount) (total .dispatchOrderCount)
        fits := h.1, rate := h.2.1, monday := h.2.2 }
  else none

/-- `rollup_state`. -/
structure RollupState where
  pipelineVersion : Option String := none
  lastCutoffAt : Option ℕ := none
  lastPublishedAt : Option ℕ := none
  lastReconciledAt : Option ℕ := none
  activePipelineVersion : Option String := none
  activeCutoffAt : Option ℕ := none
  activePublishedAt : Option ℕ := none
  deriving DecidableEq, Repr

/-- `ck_rollup_state_active_snapshot`; a comparison with `NULL` does not violate it. -/
def RollupState.ActiveSnapshot (s : RollupState) : Prop :=
  (s.activePipelineVersion = none ∧ s.activeCutoffAt = none ∧ s.activePublishedAt = none) ∨
    (s.activePipelineVersion.isSome ∧ s.activeCutoffAt.isSome ∧ s.activePublishedAt.isSome ∧
      s.lastReconciledAt.isSome ∧
      ∀ a, s.activeCutoffAt = some a → ∀ l, s.lastCutoffAt = some l → a ≤ l)

instance (s : RollupState) : Decidable s.ActiveSnapshot := by
  unfold RollupState.ActiveSnapshot
  infer_instance

/-- The reporting tables. -/
@[ext] structure Tables where
  hourly : Table HourlyActivityRollup.key
  weekly : Table WeeklyPerformance.key
  rollupState : {s : RollupState // s.ActiveSnapshot}
  lastResetAt : Option ℕ

/-- Reporting tables without rows. -/
def Tables.empty : Tables := ⟨.empty, .empty, ⟨{}, by decide⟩, none⟩

end Reporting

/-- The tables of the platform that the pipeline works on. -/
structure Database where
  ledger : Ledger
  reporting : Reporting.Tables
  runs : Table Queue.PipelineRun.id

end TrackFlow
