import TrackFlow.Sql.RowLock
import TrackFlow.Inventory.Balances

/-!
# The statements of movements and of the balance rebuild

`record_inbound`, `record_outbound`, `rebuild_stock_balances` and `reconcile_stock_balances` as
a row-lock protocol: one local state per SQL statement that may come next.

* A movement locks its SKU row first (`SELECT ... FOR UPDATE`).  The balance upsert is a Core
  statement, so it runs before the ORM flushes the movement row.  The `COMMIT` is followed by a
  `refresh`, whose failure is reported as 503 although the movement is committed.
* The rebuild takes no SKU lock.  Its one `INSERT ... SELECT ... ON CONFLICT DO UPDATE` derives
  all quantities from the snapshot at its start and then visits the rows one after another;
  each row is locked, after waiting if need be, and set to the quantity of the snapshot.

Every statement can fail, which rolls the transaction back.
-/

namespace TrackFlow

namespace Inventory

open RowLock

/-- The rows a session locks. -/
inductive RowKey
  | sku (skuId : ℕ)
  | balance (k : Place)
  deriving DecidableEq

/-- A row write. -/
inductive RowWrite
  | balance (b : StockBalance)
  | entry (e : StockEntry)
  | exit (x : StockExit)
  | stockout (v : StockoutEvent)

/-- The database after a row write. -/
def RowWrite.install (db : Ledger) : RowWrite → Ledger
  | .balance b => db.setBalance b
  | .entry e => db.addEntry e
  | .exit x => db.addExit x
  | .stockout v => db.addStockoutEvent v

/-- The place a row write belongs to. -/
def RowWrite.place : RowWrite → Place
  | .balance b => b.place
  | .entry e => e.place
  | .exit x => x.place
  | .stockout v => (v.skuId, v.warehouse)

/-- What the environment decides about a statement. -/
inductive Choice
  /-- It succeeds; the clock reads `now`, and a sequence gives `id`. -/
  | ok (now : Clock) (id : ℕ)
  /-- The rebuild goes on with the row of `sku`. -/
  | row (sku : SKU)
  /-- It fails (lost connection, timeout, deadlock). -/
  | fail

/-- Where a `record_inbound` call stands. -/
inductive InboundPc
  | start
  | selected (sku : Option SKU)
  | balanced (now : Clock)
  | flushed (entry : StockEntry)
  | committed (entry : StockEntry)
  | finished (result : Except InventoryError StockEntry) (didCommit : Bool)

/-- Where a `record_outbound` call stands. -/
inductive OutboundPc
  | start
  | selected (sku : Option SKU)
  | stockRead (sku : SKU) (available : ℤ)
  | balanced (sku : SKU) (available : ℤ) (now : Clock)
  | flushed (sku : SKU) (available : ℤ) (stockExit : StockExit)
  | evented (stockExit : StockExit)
  | committed (stockExit : StockExit)
  | finished (result : Except InventoryError StockExit) (didCommit : Bool)

/-- Where a balance reconciliation (from `verify`) or a rebuild (from `rebuild`) stands. -/
inductive MaintenancePc
  | verify
  | compare (watermark : ℕ)
  | rebuild
  | derive (watermark : ℕ)
  | upserting (watermark : ℕ) (snapshot : Ledger) (todo : List SKU)
  | finished (didCommit : Bool)

/-- The transaction of the call has committed. -/
def InboundPc.didCommit : InboundPc → Bool
  | .committed _ => true
  | .finished _ b => b
  | _ => false

/-- The transaction of the call has committed. -/
def OutboundPc.didCommit : OutboundPc → Bool
  | .committed _ => true
  | .finished _ b => b
  | _ => false

/-- The transaction of the worker has committed. -/
def MaintenancePc.didCommit : MaintenancePc → Bool
  | .finished b => b
  | _ => false

/-- The local state of a session. -/
inductive Loc
  | inbound (payload : StockEntryCreate) (userUuid : String) (pc : InboundPc)
  | outbound (payload : StockExitCreate) (userUuid : String) (pc : OutboundPc)
  | maintenance (pc : MaintenancePc)

/-- The session's transaction has committed. -/
def Loc.didCommit : Loc → Bool
  | .inbound _ _ pc => pc.didCommit
  | .outbound _ _ pc => pc.didCommit
  | .maintenance pc => pc.didCommit

/-- The statement `get_sku_for_update`: the row is locked if there is one. -/
def selectSkuForUpdate {α : Type} (db : Ledger) (skuId : ℕ) (next : Option SKU → α) :
    Outcome RowKey RowWrite α :=
  match db.getSku skuId with
  | none => .proceed [] [] (next none)
  | some sku => .proceed [.sku skuId] [] (next (some sku))

/-- The statement `apply_balance_delta`. -/
def applyBalanceDelta {α : Type} (db : Ledger) (skuId : ℕ) (warehouse : Warehouse) (delta : ℤ)
    (next failed : α) : Outcome RowKey RowWrite α :=
  match db.balanceAfterDelta skuId warehouse delta with
  | none => .rollback failed
  | some b => .proceed [.balance (skuId, warehouse)] [.balance b] next

/-- The statements of `record_inbound`. -/
def inboundExec (payload : StockEntryCreate) (userUuid : String) (db : Ledger) :
    InboundPc → Choice → Option (Outcome RowKey RowWrite InboundPc)
  | .start, .ok _ _ => some (selectSkuForUpdate db payload.skuId .selected)
  | .selected sku, .ok now _ =>
    match Ledger.validateSkuWarehouse sku payload.warehouse with
    | .error e => some (.rollback (.finished (.error e) false))
    | .ok _ => some (applyBalanceDelta db payload.skuId payload.warehouse payload.quantity
        (.balanced now) (.finished (.error persistenceFailure) false))
  | .balanced now, .ok _ id =>
    let entry := Ledger.newEntry payload userUuid now id
    some (.proceed [] [.entry entry] (.flushed entry))
  | .flushed entry, .ok _ _ => some (.commit (.committed entry))
  | .committed entry, .ok _ _ => some (.rollback (.finished (.ok entry) true))
  | .committed _, .fail => some (.rollback (.finished (.error persistenceFailure) true))
  | .finished _ _, _ => none
  | _, .fail => some (.rollback (.finished (.error persistenceFailure) false))
  | _, .row _ => none

/-- The statements of `record_outbound`. -/
def outboundExec (payload : StockExitCreate) (userUuid : String) (db : Ledger) :
    OutboundPc → Choice → Option (Outcome RowKey RowWrite OutboundPc)
  | .start, .ok _ _ => some (selectSkuForUpdate db payload.skuId .selected)
  | .selected sku, .ok _ _ =>
    match Ledger.validateExitSku payload sku with
    | .error e => some (.rollback (.finished (.error e) false))
    | .ok sku => some (.proceed [] []
        (.stockRead sku (db.currentStock payload.skuId payload.warehouse)))
  | .stockRead sku available, .ok now _ =>
    if (payload.quantity : ℤ) > available then
      some (.rollback (.finished (.error (Ledger.insufficientStock payload sku available)) false))
    else some (applyBalanceDelta db payload.skuId payload.warehouse (-payload.quantity)
      (.balanced sku available now) (.finished (.error persistenceFailure) false))
  | .balanced sku available now, .ok _ id =>
    let stockExit := Ledger.newExit payload userUuid now id
    some (.proceed [] [.exit stockExit] (.flushed sku available stockExit))
  | .flushed sku available stockExit, .ok _ id =>
    match Ledger.stockoutDue sku stockExit available id with
    | none => some (.commit (.committed stockExit))
    | some event => some (.proceed [] [.stockout event] (.evented stockExit))
  | .evented stockExit, .ok _ _ => some (.commit (.committed stockExit))
  | .committed stockExit, .ok _ _ => some (.rollback (.finished (.ok stockExit) true))
  | .committed _, .fail => some (.rollback (.finished (.error persistenceFailure) true))
  | .finished _ _, _ => none
  | _, .fail => some (.rollback (.finished (.error persistenceFailure) false))
  | _, .row _ => none

/-- The statements of `reconcile_stock_balances` and `rebuild_stock_balances`, with the caller's
`COMMIT`. -/
def maintenanceExec (db : Ledger) :
    MaintenancePc → Choice → Option (Outcome RowKey RowWrite MaintenancePc)
  | .verify, .ok _ _ =>
    match db.watermarkParam with
    | .error _ => some (.rollback (.finished false))
    | .ok watermark => some (.proceed [] [] (.compare watermark))
  | .compare watermark, .ok _ _ =>
    if db.balanceDrift watermark = [] then some (.commit (.finished true))
    else some (.proceed [] [] .rebuild)
  | .rebuild, .ok _ _ =>
    match db.watermarkParam with
    | .error _ => some (.rollback (.finished false))
    | .ok watermark => some (.proceed [] [] (.derive watermark))
  | .derive watermark, .ok _ _ => some (.proceed [] [] (.upserting watermark db db.skus.rows))
  | .upserting watermark snapshot todo, .row sku =>
    -- the quantity is that of the snapshot, whatever has been committed since
    if sku ∈ todo then
      let b := snapshot.rebuiltBalance watermark sku
      if fitsInteger b.quantity then
        some (.proceed [.balance b.place] [.balance b]
          (.upserting watermark snapshot (todo.erase sku)))
      else some (.rollback (.finished false))
    else none
  | .upserting _ _ [], .ok _ _ => some (.commit (.finished true))
  | .finished _, _ => none
  | _, .fail => some (.rollback (.finished false))
  | _, _ => none

/-- The statement a session executes. -/
def exec (loc : Loc) (c : Choice) (db : Ledger) : Option (Outcome RowKey RowWrite Loc) :=
  match loc with
  | .inbound payload userUuid pc =>
    (inboundExec payload userUuid db pc c).map (Outcome.map (.inbound payload userUuid))
  | .outbound payload userUuid pc =>
    (outboundExec payload userUuid db pc c).map (Outcome.map (.outbound payload userUuid))
  | .maintenance pc => (maintenanceExec db pc c).map (Outcome.map .maintenance)

/-- The protocol of the inventory sessions. -/
def protocol : Protocol Ledger RowKey RowWrite Choice Loc where
  install := RowWrite.install
  exec loc c _ db := exec loc c db

/-! ### Where a program commits -/

theorem inboundExec_commit {payload : StockEntryCreate} {userUuid : String} {db : Ledger}
    {pc pc' : InboundPc} {c : Choice}
    (he : inboundExec payload userUuid db pc c = some (.commit pc')) : ∃ e, pc = .flushed e := by
  cases pc with
  | flushed e => exact ⟨e, rfl⟩
  | start =>
    cases c <;> simp only [inboundExec, selectSkuForUpdate, Option.some.injEq, reduceCtorEq] at he
    split at he <;> cases he
  | selected sku =>
    cases c <;> simp only [inboundExec, Option.some.injEq, reduceCtorEq] at he
    split at he <;> simp only [applyBalanceDelta, Option.some.injEq, reduceCtorEq] at he
    split at he <;> cases he
  | _ => cases c <;> simp only [inboundExec, Option.some.injEq, reduceCtorEq] at he

/-- An exit commits after its flush when no stockout event is due, or after the event. -/
theorem outboundExec_commit {payload : StockExitCreate} {userUuid : String} {db : Ledger}
    {pc pc' : OutboundPc} {c : Choice}
    (he : outboundExec payload userUuid db pc c = some (.commit pc')) :
    (∃ sku available x id, pc = .flushed sku available x ∧
      Ledger.stockoutDue sku x available id = none) ∨ ∃ x, pc = .evented x := by
  cases pc with
  | flushed sku available x =>
    cases c <;> simp only [outboundExec, Option.some.injEq, reduceCtorEq] at he
    split at he
    · exact .inl ⟨sku, available, x, _, rfl, ‹_›⟩
    · cases he
  | evented x => exact .inr ⟨x, rfl⟩
  | start =>
    cases c <;> simp only [outboundExec, selectSkuForUpdate, Option.some.injEq, reduceCtorEq] at he
    split at he <;> cases he
  | selected sku =>
    cases c <;> simp only [outboundExec, Option.some.injEq, reduceCtorEq] at he
    split at he <;> cases he
  | stockRead sku available =>
    cases c <;> simp only [outboundExec, Option.some.injEq, reduceCtorEq] at he
    split_ifs at he
    · cases he
    · simp only [applyBalanceDelta, Option.some.injEq] at he
      split at he <;> cases he
  | _ => cases c <;> simp only [outboundExec, Option.some.injEq, reduceCtorEq] at he

/-- The worker commits when it has found no drift, or has visited every row. -/
theorem maintenanceExec_commit {db : Ledger} {pc pc' : MaintenancePc} {c : Choice}
    (he : maintenanceExec db pc c = some (.commit pc')) :
    (∃ w, pc = .compare w ∧ db.balanceDrift w = []) ∨
      ∃ w snapshot, pc = .upserting w snapshot [] := by
  cases pc with
  | compare w =>
    cases c <;> simp only [maintenanceExec, Option.some.injEq, reduceCtorEq] at he
    split_ifs at he with h
    · exact .inl ⟨w, rfl, h⟩
    · cases he
  | upserting w snapshot todo =>
    cases c with
    | ok now id =>
      cases todo <;> simp only [maintenanceExec, reduceCtorEq] at he
      exact .inr ⟨w, snapshot, rfl⟩
    | row sku =>
      simp only [maintenanceExec, Option.ite_none_right_eq_some] at he
      obtain ⟨-, he⟩ := he
      split_ifs at he <;> cases he
    | fail => simp only [maintenanceExec, Option.some.injEq, reduceCtorEq] at he
  | verify =>
    cases c <;> simp only [maintenanceExec, Option.some.injEq, reduceCtorEq] at he
    split at he <;> cases he
  | rebuild =>
    cases c <;> simp only [maintenanceExec, Option.some.injEq, reduceCtorEq] at he
    split at he <;> cases he
  | _ => cases c <;> simp only [maintenanceExec, Option.some.injEq, reduceCtorEq] at he

/-! ### What row writes leave unchanged -/

variable {db : Ledger} {ws : List RowWrite}

theorem skus_install (db : Ledger) (w : RowWrite) : (w.install db).skus = db.skus := by
  cases w <;> rfl

theorem stockLedgerCheckpoints_install (db : Ledger) (w : RowWrite) :
    (w.install db).stockLedgerCheckpoints = db.stockLedgerCheckpoints := by
  cases w <;> rfl

theorem storedBalance_install_of_ne {w : RowWrite} {k : Place} (h : w.place ≠ k) :
    (w.install db).storedBalance k = db.storedBalance k := by
  cases w with
  | balance b => simpa [RowWrite.install, RowWrite.place] using fun hk => (h hk).elim
  | entry e => rfl
  | exit x => rfl
  | stockout v => rfl

theorem netMovement_install_of_ne {w : RowWrite} {k : Place} (p : ℕ → Bool) (h : w.place ≠ k) :
    (w.install db).netMovement p k = db.netMovement p k := by
  cases w with
  | balance b => rfl
  | entry e => simp [RowWrite.install, show e.place ≠ k from h]
  | exit x => simp [RowWrite.install, show x.place ≠ k from h]
  | stockout v => rfl

@[simp] theorem installAll_nil (db : Ledger) : protocol.installAll db [] = db := rfl

@[simp] theorem installAll_cons (db : Ledger) (w : RowWrite) (ws : List RowWrite) :
    protocol.installAll db (w :: ws) = protocol.installAll (w.install db) ws := rfl

@[simp] theorem skus_installAll : (protocol.installAll db ws).skus = db.skus := by
  induction ws generalizing db with
  | nil => rfl
  | cons w ws ih => rw [installAll_cons, ih, skus_install]

@[simp] theorem stockLedgerCheckpoints_installAll :
    (protocol.installAll db ws).stockLedgerCheckpoints = db.stockLedgerCheckpoints := by
  induction ws generalizing db with
  | nil => rfl
  | cons w ws ih => rw [installAll_cons, ih, stockLedgerCheckpoints_install]

@[simp] theorem getSku_installAll (skuId : ℕ) :
    (protocol.installAll db ws).getSku skuId = db.getSku skuId := by
  simp only [Ledger.getSku, skus_installAll]

theorem storedBalance_installAll {k : Place} (h : ∀ w ∈ ws, w.place ≠ k) :
    (protocol.installAll db ws).storedBalance k = db.storedBalance k := by
  induction ws generalizing db with
  | nil => rfl
  | cons w ws ih =>
    rw [installAll_cons, ih fun w' hw' => h w' (List.mem_cons_of_mem _ hw'),
      storedBalance_install_of_ne (h w List.mem_cons_self)]

theorem netMovement_installAll {k : Place} (p : ℕ → Bool) (h : ∀ w ∈ ws, w.place ≠ k) :
    (protocol.installAll db ws).netMovement p k = db.netMovement p k := by
  induction ws generalizing db with
  | nil => rfl
  | cons w ws ih =>
    rw [installAll_cons, ih fun w' hw' => h w' (List.mem_cons_of_mem _ hw'),
      netMovement_install_of_ne p (h w List.mem_cons_self)]

end Inventory

end TrackFlow
