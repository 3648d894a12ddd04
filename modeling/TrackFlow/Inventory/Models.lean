import TrackFlow.Sql.Table
import TrackFlow.Time.Grid

/-!
# The inventory tables

The rows of `central_api/domains/inventory/models.py` and the tables they live in.  Movement
and event tables are lists of rows in insertion order; `skus` has the primary key `id`, and
`stock_balances` and `stock_ledger_checkpoints` have the primary key `(sku_id, warehouse)`.

Instants are microseconds since 0001-01-01T00:00Z, the least timezone-aware `datetime`; that
day is a Monday, so hours, days and ISO weeks are exact multiples.
-/

namespace TrackFlow

/-- One second in microseconds. -/
abbrev second : ℕ := 1000000

/-- One hour in microseconds. -/
abbrev hour : ℕ := 3600 * second

/-- One day in microseconds. -/
abbrev day : ℕ := 24 * hour

/-- One week in microseconds. -/
abbrev week : ℕ := 7 * day

/-- `BEGINNING_OF_TIME`, 1970-01-01T00:00Z: "predates any possible movement". -/
def beginningOfTime : ℕ := 719162 * day

/-- A reading of the system clock (`utc_now`), which never lies before the Unix epoch. -/
structure Clock where
  /-- The instant read. -/
  instant : ℕ
  /-- System time starts at the Unix epoch. -/
  epoch_le : beginningOfTime ≤ instant

/-- The reading `t` microseconds after the epoch. -/
def Clock.afterEpoch (t : ℕ) : Clock := ⟨beginningOfTime + t, Nat.le_add_right _ _⟩

abbrev UUID := BitVec 128

instance : LawfulBEq UUID := inferInstance

/-- Physical locations. -/
inductive Warehouse
  | LA
  | ZGZ
  deriving DecidableEq, Repr

/-- Reasons stock may leave a warehouse. -/
inductive ExitType
  | dispatch
  | loss
  deriving DecidableEq, Repr

/-- SKU categories. -/
inductive Category
  | fashion
  | electronics
  | cosmetics
  deriving DecidableEq, Repr

/-- Who reported a discrepancy. -/
inductive DiscrepancySource
  | manual
  | feed
  deriving DecidableEq, Repr

/-- `clients`. -/
structure Client where
  id : UUID
  displayName : String
  deriving DecidableEq, Repr

/-- `skus`: a client SKU at one warehouse. -/
structure SKU where
  id : ℕ
  name : String
  sku : String
  clientId : UUID
  minStockThreshold : ℕ
  category : Category
  warehouse : Warehouse
  deriving DecidableEq, Repr

/-- The key of a balance: a SKU id and a warehouse. -/
abbrev Place := ℕ × Warehouse

/-- `stock_entries`: a goods receipt. -/
structure StockEntry where
  id : ℕ
  skuId : ℕ
  quantity : ℕ
  reference : String
  warehouse : Warehouse
  createdAt : ℕ
  userUuid : String
  deriving DecidableEq, Repr

/-- `stock_exits`: a dispatch or a confirmed loss. -/
structure StockExit where
  id : ℕ
  skuId : ℕ
  quantity : ℕ
  exitType : ExitType
  trackingNumber : Option String
  warehouse : Warehouse
  createdAt : ℕ
  userUuid : String
  deriving DecidableEq, Repr

/-- `stockout_events`: one downward crossing of a minimum-stock threshold. -/
structure StockoutEvent where
  id : ℕ
  skuId : ℕ
  warehouse : Warehouse
  clientId : UUID
  thresholdAtEvent : ℕ
  stockAfter : ℤ
  stockExitId : ℕ
  occurredAt : ℕ
  deriving DecidableEq, Repr

/-- `inventory_discrepancies`: at most one discrepancy per dispatch. -/
structure InventoryDiscrepancy where
  id : ℕ
  stockExitId : ℕ
  skuId : ℕ
  warehouse : Warehouse
  clientId : UUID
  quantityDelta : ℤ
  source : DiscrepancySource
  detectedAt : ℕ
  createdByUserUuid : Option String
  deriving DecidableEq, Repr

/-- `stock_balances`. -/
structure StockBalance where
  skuId : ℕ
  warehouse : Warehouse
  quantity : ℤ
  deriving DecidableEq, Repr

/-- `stock_ledger_checkpoints`. -/
structure StockLedgerCheckpoint where
  skuId : ℕ
  warehouse : Warehouse
  quantity : ℤ
  checkpointAt : ℕ
  deriving DecidableEq, Repr

abbrev SKU.place (r : SKU) : Place := (r.id, r.warehouse)
abbrev StockEntry.place (r : StockEntry) : Place := (r.skuId, r.warehouse)
abbrev StockExit.place (r : StockExit) : Place := (r.skuId, r.warehouse)
abbrev StockBalance.place (r : StockBalance) : Place := (r.skuId, r.warehouse)
abbrev StockLedgerCheckpoint.place (r : StockLedgerCheckpoint) : Place := (r.skuId, r.warehouse)

/-- Entries minus exits of a place, among the given movements with an instant that satisfies `p`. -/
def netQuantity (entries : List StockEntry) (exits : List StockExit) (p : ℕ → Bool)
    (k : Place) : ℤ :=
  sumWhere (fun e : StockEntry => decide (e.place = k) && p e.createdAt)
      (fun e => (e.quantity : ℤ)) entries -
    sumWhere (fun x : StockExit => decide (x.place = k) && p x.createdAt)
      (fun x => (x.quantity : ℤ)) exits

theorem netQuantity_append (es es' : List StockEntry) (xs xs' : List StockExit) (p : ℕ → Bool)
    (k : Place) :
    netQuantity (es ++ es') (xs ++ xs') p k = netQuantity es xs p k + netQuantity es' xs' p k := by
  simp only [netQuantity, sumWhere_append]
  ring

/-- The inventory tables. -/
structure Ledger where
  clients : List Client
  skus : Table SKU.id
  stockEntries : List StockEntry
  stockExits : List StockExit
  stockoutEvents : List StockoutEvent
  inventoryDiscrepancies : List InventoryDiscrepancy
  stockBalances : Table StockBalance.place
  stockLedgerCheckpoints : Table StockLedgerCheckpoint.place

namespace Ledger

/-- A database without rows. -/
def empty : Ledger := ⟨[], .empty, [], [], [], [], .empty, .empty⟩

variable (db : Ledger)

/-- The value `current_stock` reads: the stored balance, 0 when there is no row. -/
def storedBalance (k : Place) : ℤ := ((db.stockBalances.lookup k).map (·.quantity)).getD 0

/-- Entries minus exits of a place among the movements that satisfy `p`. -/
def netMovement (p : ℕ → Bool) (k : Place) : ℤ := netQuantity db.stockEntries db.stockExits p k

/-- Committed entries minus committed exits of a place. -/
abbrev ledgerBalance (k : Place) : ℤ := db.netMovement (fun _ => true) k

/-! ### Row writes -/

/-- The database after an `INSERT` into `stock_entries`. -/
def addEntry (e : StockEntry) : Ledger := { db with stockEntries := db.stockEntries ++ [e] }

/-- The database after an `INSERT` into `stock_exits`. -/
def addExit (x : StockExit) : Ledger := { db with stockExits := db.stockExits ++ [x] }

/-- The database after an `INSERT` into `stockout_events`. -/
def addStockoutEvent (v : StockoutEvent) : Ledger :=
  { db with stockoutEvents := db.stockoutEvents ++ [v] }

/-- The database after an `INSERT` into `inventory_discrepancies`. -/
def addDiscrepancy (d : InventoryDiscrepancy) : Ledger :=
  { db with inventoryDiscrepancies := db.inventoryDiscrepancies ++ [d] }

/-- The database after writing one row of `stock_balances`. -/
def setBalance (b : StockBalance) : Ledger :=
  { db with stockBalances := db.stockBalances.upsert b }

variable {db}

@[simp] theorem storedBalance_addEntry (e : StockEntry) (k : Place) :
    (db.addEntry e).storedBalance k = db.storedBalance k := rfl

@[simp] theorem storedBalance_addExit (x : StockExit) (k : Place) :
    (db.addExit x).storedBalance k = db.storedBalance k := rfl

@[simp] theorem storedBalance_addStockoutEvent (v : StockoutEvent) (k : Place) :
    (db.addStockoutEvent v).storedBalance k = db.storedBalance k := rfl

@[simp] theorem storedBalance_setBalance (b : StockBalance) (k : Place) :
    (db.setBalance b).storedBalance k = if b.place = k then b.quantity else db.storedBalance k := by
  unfold storedBalance setBalance
  split_ifs with h
  · subst h; simp
  · rw [Table.lookup_upsert_of_ne (Ne.symm h)]

@[simp] theorem netMovement_setBalance (b : StockBalance) (p : ℕ → Bool) (k : Place) :
    (db.setBalance b).netMovement p k = db.netMovement p k := rfl

@[simp] theorem netMovement_addStockoutEvent (v : StockoutEvent) (p : ℕ → Bool) (k : Place) :
    (db.addStockoutEvent v).netMovement p k = db.netMovement p k := rfl

@[simp] theorem netMovement_addEntry (e : StockEntry) (p : ℕ → Bool) (k : Place) :
    (db.addEntry e).netMovement p k =
      db.netMovement p k + if e.place = k ∧ p e.createdAt = true then (e.quantity : ℤ) else 0 := by
  simp [netMovement, netQuantity, addEntry]
  ring

@[simp] theorem netMovement_addExit (x : StockExit) (p : ℕ → Bool) (k : Place) :
    (db.addExit x).netMovement p k =
      db.netMovement p k - if x.place = k ∧ p x.createdAt = true then (x.quantity : ℤ) else 0 := by
  simp [netMovement, netQuantity, addExit]
  ring

end Ledger

end TrackFlow
