import TrackFlow.Inventory.Models

/-!
# The inventory service, one call at a time

The operations of `InventoryService` as functions from the committed database to an error or
the next database: what a call does when nothing else runs.  `TrackFlow.Inventory.Session`
splits the movement calls into their statements, and `TrackFlow.Inventory.Movements` shows that
every interleaving of those statements commits exactly these functions.

A call reads the clock (`utc_now`) and takes a row id from a sequence; both are arguments.  A
failing statement is not a case here: the session layer covers it.
-/

namespace TrackFlow

/-- Metadata of a rejected dispatch. -/
structure DispatchRejection where
  warehouse : Warehouse
  reasonCode : String
  quantity : Option ℕ
  deriving DecidableEq, Repr

/-- `InventoryError`. -/
structure InventoryError where
  statusCode : ℕ
  detail : String
  rejectEvent : Option DispatchRejection := none
  deriving DecidableEq, Repr

/-- The error of `_persistence_failure`: any `SQLAlchemyError` the service does not name. -/
def persistenceFailure : InventoryError := ⟨503, "Inventory service temporarily unavailable", none⟩

/-- The column type `INTEGER` can hold the value. -/
def fitsInteger (q : ℤ) : Bool := decide (-2147483648 ≤ q) && decide (q ≤ 2147483647)

/-- `StockEntryCreate`; the schema refuses a quantity that is not positive. -/
structure StockEntryCreate where
  skuId : ℕ
  quantity : ℕ
  reference : String
  warehouse : Warehouse
  quantity_pos : 0 < quantity

/-- `StockExitCreate`; the schema also ties the tracking number to the exit type. -/
structure StockExitCreate where
  skuId : ℕ
  quantity : ℕ
  exitType : ExitType
  trackingNumber : Option String
  warehouse : Warehouse
  quantity_pos : 0 < quantity
  tracking_rule : exitType = .dispatch ↔ trackingNumber.isSome

/-- `InventoryDiscrepancyCreate`. -/
structure InventoryDiscrepancyCreate where
  stockExitId : ℕ
  quantityDelta : ℤ
  quantityDelta_ne : quantityDelta ≠ 0

/-! What the payloads of the examples satisfy. -/

theorem three_units_pos : 0 < 3 := by decide

theorem four_units_pos : 0 < 4 := by decide

theorem five_units_pos : 0 < 5 := by decide

theorem nine_units_pos : 0 < 9 := by decide

theorem one_unit_less_ne : (-1 : ℤ) ≠ 0 := by decide

theorem dispatch_tracked (code : String) :
    ExitType.dispatch = .dispatch ↔ (some code).isSome := by
  simp

/-- `SKUCreate`. -/
structure SKUCreate where
  name : String
  sku : String
  clientId : UUID
  category : Category
  warehouse : Warehouse
  minStockThreshold : ℕ

/-- `SKUUpdate`. -/
structure SKUUpdate where
  minStockThreshold : Option ℕ
  clientId : Option UUID
  one_field : minStockThreshold.isSome ∨ clientId.isSome

namespace Ledger

variable (db : Ledger)

/-! ### Repository queries -/

/-- `get_sku_for_update`: the row it returns (the lock is taken in the session layer). -/
def getSku (skuId : ℕ) : Option SKU := db.skus.lookup skuId

/-- `get_client`. -/
def getClient (clientId : UUID) : Option Client :=
  db.clients.find? fun c => decide (c.id = clientId)

/-- `get_exit`. -/
def getExit (stockExitId : ℕ) : Option StockExit :=
  db.stockExits.find? fun x => decide (x.id = stockExitId)

/-- `discrepancy_exists`. -/
def discrepancyExists (stockExitId : ℕ) : Bool :=
  db.inventoryDiscrepancies.any fun d => decide (d.stockExitId = stockExitId)

/-- `current_stock`. -/
abbrev currentStock (skuId : ℕ) (warehouse : Warehouse) : ℤ := db.storedBalance (skuId, warehouse)

/-- The row `apply_balance_delta` writes; `none` when a value does not fit its column. -/
def balanceAfterDelta (skuId : ℕ) (warehouse : Warehouse) (delta : ℤ) : Option StockBalance :=
  let quantity := db.storedBalance (skuId, warehouse) + delta
  if fitsInteger delta && fitsInteger quantity then some ⟨skuId, warehouse, quantity⟩ else none

/-! ### Movements -/

/-- `_validate_sku_warehouse`. -/
def validateSkuWarehouse (sku : Option SKU) (warehouse : Warehouse) : Except InventoryError SKU :=
  match sku with
  | none => .error ⟨404, "SKU not found", none⟩
  | some sku =>
    if sku.warehouse ≠ warehouse then
      .error ⟨400, "Movement warehouse must match SKU warehouse", none⟩
    else .ok sku

/-- The row `record_inbound` inserts. -/
def newEntry (payload : StockEntryCreate) (userUuid : String) (now : Clock) (id : ℕ) : StockEntry :=
  ⟨id, payload.skuId, payload.quantity, payload.reference, payload.warehouse, now.instant, userUuid⟩

/-- `record_inbound`. -/
def recordInbound (payload : StockEntryCreate) (userUuid : String) (now : Clock) (id : ℕ) :
    Except InventoryError (Ledger × StockEntry) := do
  let _ ← validateSkuWarehouse (db.getSku payload.skuId) payload.warehouse
  match db.balanceAfterDelta payload.skuId payload.warehouse payload.quantity with
  | none => .error persistenceFailure
  | some balance =>
    let entry := newEntry payload userUuid now id
    .ok ((db.setBalance balance).addEntry entry, entry)

/-- `_dispatch_rejection`. -/
def dispatchRejection (payload : StockExitCreate) (reasonCode : String) :
    Option DispatchRejection :=
  if payload.exitType ≠ .dispatch then none
  else some ⟨payload.warehouse, reasonCode, some payload.quantity⟩

/-- The checks of `record_outbound` on the locked SKU row. -/
def validateExitSku (payload : StockExitCreate) (sku : Option SKU) : Except InventoryError SKU :=
  match sku with
  | none => .error ⟨404, "SKU not found", dispatchRejection payload "SKU_NOT_FOUND"⟩
  | some sku =>
    if sku.warehouse ≠ payload.warehouse then
      .error ⟨400, "Movement warehouse must match SKU warehouse",
        dispatchRejection payload "WAREHOUSE_MISMATCH"⟩
    else .ok sku

/-- The refusal of an exit larger than the stock. -/
def insufficientStock (payload : StockExitCreate) (sku : SKU) (available : ℤ) : InventoryError :=
  ⟨400, "Insufficient stock for SKU '" ++ sku.sku ++ "'. Available: " ++ toString available ++
      ", requested: " ++ toString payload.quantity ++ ".",
    dispatchRejection payload "INSUFFICIENT_STOCK"⟩

/-- The row `record_outbound` inserts into `stock_exits`. -/
def newExit (payload : StockExitCreate) (userUuid : String) (now : Clock) (id : ℕ) : StockExit :=
  ⟨id, payload.skuId, payload.quantity, payload.exitType, payload.trackingNumber,
    payload.warehouse, now.instant, userUuid⟩

/-- The stockout condition: the exit takes the stock from above the threshold to it or below. -/
def crossesThreshold (threshold : ℕ) (available after : ℤ) : Bool :=
  decide (0 < threshold) && decide (available > threshold) && decide ((threshold : ℤ) ≥ after)

/-- The row `record_outbound` inserts into `stockout_events`. -/
def newStockout (sku : SKU) (exit : StockExit) (after : ℤ) (eventId : ℕ) : StockoutEvent :=
  ⟨eventId, exit.skuId, exit.warehouse, sku.clientId, sku.minStockThreshold, after, exit.id,
    exit.createdAt⟩

/-- The stockout event of an exit, when one is due. -/
def stockoutDue (sku : SKU) (exit : StockExit) (available : ℤ) (eventId : ℕ) :
    Option StockoutEvent :=
  let after := available - exit.quantity
  if crossesThreshold sku.minStockThreshold available after then
    some (newStockout sku exit after eventId)
  else none

/-- The database after the stockout event of an exit, when one is due. -/
def addDueStockout (event : Option StockoutEvent) : Ledger :=
  match event with
  | none => db
  | some v => db.addStockoutEvent v

/-- `record_outbound`. -/
def recordOutbound (payload : StockExitCreate) (userUuid : String) (now : Clock) (id eventId : ℕ) :
    Except InventoryError (Ledger × StockExit) := do
  let sku ← validateExitSku payload (db.getSku payload.skuId)
  let available := db.currentStock payload.skuId payload.warehouse
  if (payload.quantity : ℤ) > available then
    .error (insufficientStock payload sku available)
  else
    match db.balanceAfterDelta payload.skuId payload.warehouse (-payload.quantity) with
    | none => .error persistenceFailure
    | some balance =>
      let exit := newExit payload userUuid now id
      .ok (((db.setBalance balance).addExit exit).addDueStockout
        (stockoutDue sku exit available eventId), exit)

/-! ### Discrepancies, SKUs and clients -/

/-- `record_discrepancy`. -/
def recordDiscrepancy (payload : InventoryDiscrepancyCreate) (userUuid : Option String)
    (source : DiscrepancySource) (now : Clock) (id : ℕ) :
    Except InventoryError (Ledger × InventoryDiscrepancy) :=
  match db.getExit payload.stockExitId with
  | none => .error ⟨404, "Stock exit not found", none⟩
  | some stockExit =>
    if stockExit.exitType ≠ .dispatch then
      .error ⟨422, "Discrepancy requires a dispatch stock exit", none⟩
    else if db.discrepancyExists payload.stockExitId then
      .error ⟨409, "DISCREPANCY_EXISTS", none⟩
    else
      match db.getSku stockExit.skuId with
      | none => .error ⟨422, "Stock exit SKU ownership is invalid", none⟩
      | some sku =>
        if sku.warehouse ≠ stockExit.warehouse then
          .error ⟨422, "Stock exit SKU ownership is invalid", none⟩
        else if fitsInteger payload.quantityDelta = false then .error persistenceFailure
        else
          let discrepancy : InventoryDiscrepancy :=
            ⟨id, payload.stockExitId, stockExit.skuId, stockExit.warehouse, sku.clientId,
              payload.quantityDelta, source, now.instant, userUuid⟩
          .ok (db.addDiscrepancy discrepancy, discrepancy)

/-- `create_sku`. -/
def createSku (payload : SKUCreate) (id : ℕ) : Except InventoryError (Ledger × SKU) :=
  if (db.getClient payload.clientId).isNone then .error ⟨422, "Client not found", none⟩
  else if fitsInteger payload.minStockThreshold = false then .error persistenceFailure
  else if db.skus.rows.any fun s =>
      decide (s.sku = payload.sku ∧ s.warehouse = payload.warehouse) then
    .error ⟨409, "SKU '" ++ payload.sku ++ "' already exists in warehouse '" ++
      (match payload.warehouse with | .LA => "LA" | .ZGZ => "ZGZ") ++ "'", none⟩
  else
    let sku : SKU := ⟨id, payload.name, payload.sku, payload.clientId, payload.minStockThreshold,
      payload.category, payload.warehouse⟩
    match db.skus.insert sku with
    | none => .error persistenceFailure
    | some skus => .ok ({ db with skus := skus }, sku)

/-- The table `skus` after the threshold of one row has changed. -/
def setThreshold (skuId threshold : ℕ) : Ledger :=
  { db with
    skus := db.skus.update
      (fun s => if s.id = skuId then { s with minStockThreshold := threshold } else s)
      (fun s => by split_ifs <;> rfl) }

/-- `update_sku`. -/
def updateSku (skuId : ℕ) (payload : SKUUpdate) : Except InventoryError Ledger :=
  match db.getSku skuId with
  | none => .error ⟨404, "SKU not found", none⟩
  | some sku =>
    if payload.clientId.any fun c => decide (c ≠ sku.clientId) then
      .error ⟨409, "CLIENT_ID_IMMUTABLE", none⟩
    else
      match payload.minStockThreshold with
      | none => .ok db
      | some threshold =>
        if fitsInteger threshold = false then .error persistenceFailure
        else .ok (db.setThreshold skuId threshold)

/-- `create_client`. -/
def createClient (displayName role : String) (id : UUID) :
    Except InventoryError (Ledger × Client) :=
  if role ≠ "admin" then .error ⟨403, "Administrator role required", none⟩
  -- the primary key
  else if id ∈ db.clients.map (·.id) then .error persistenceFailure
  else if db.clients.any fun c => decide (c.displayName = displayName) then
    .error ⟨409, "CLIENT_NAME_EXISTS", none⟩
  else .ok ({ db with clients := db.clients ++ [⟨id, displayName⟩] }, ⟨id, displayName⟩)

variable {db}

/-! ### What a successful call did -/

theorem except_map_eq_ok_iff {ε α β : Type*} {e : Except ε α} {f : α → β} {b : β} :
    e.map f = .ok b ↔ ∃ a, e = .ok a ∧ f a = b := by
  cases e <;> simp [Except.map]

theorem toOption_eq_some_iff {ε α : Type*} {e : Except ε α} {a : α} :
    e.toOption = some a ↔ e = .ok a := by
  cases e <;> simp [Except.toOption]

theorem getSku_eq_some {skuId : ℕ} {sku : SKU} (h : db.getSku skuId = some sku) :
    sku ∈ db.skus.rows ∧ sku.id = skuId :=
  Table.lookup_eq_some_iff.1 h

theorem getExit_eq_some {stockExitId : ℕ} {x : StockExit} (h : db.getExit stockExitId = some x) :
    x ∈ db.stockExits ∧ x.id = stockExitId :=
  ⟨List.mem_of_find?_eq_some h, by simpa using List.find?_some h⟩

theorem balanceAfterDelta_eq_some {skuId : ℕ} {warehouse : Warehouse} {delta : ℤ} {b : StockBalance}
    (h : db.balanceAfterDelta skuId warehouse delta = some b) :
    b = ⟨skuId, warehouse, db.storedBalance (skuId, warehouse) + delta⟩ ∧
      fitsInteger delta = true ∧ fitsInteger b.quantity = true := by
  simp only [balanceAfterDelta] at h
  split_ifs at h with hf
  · cases h
    simpa using hf

theorem validateSkuWarehouse_eq_ok {o : Option SKU} {warehouse : Warehouse} {sku : SKU}
    (h : validateSkuWarehouse o warehouse = .ok sku) :
    o = some sku ∧ sku.warehouse = warehouse := by
  unfold validateSkuWarehouse at h
  split at h
  · cases h
  · split_ifs at h with hw
    cases h
    exact ⟨rfl, not_not.1 hw⟩

theorem validateExitSku_eq_ok {payload : StockExitCreate} {o : Option SKU} {sku : SKU}
    (h : validateExitSku payload o = .ok sku) :
    o = some sku ∧ sku.warehouse = payload.warehouse := by
  unfold validateExitSku at h
  split at h
  · cases h
  · split_ifs at h with hw
    cases h
    exact ⟨rfl, not_not.1 hw⟩

theorem stockoutDue_eq_some {sku : SKU} {x : StockExit} {available : ℤ} {eventId : ℕ}
    {v : StockoutEvent} (h : stockoutDue sku x available eventId = some v) :
    crossesThreshold sku.minStockThreshold available (available - x.quantity) = true ∧
      v = newStockout sku x (available - x.quantity) eventId := by
  simp only [stockoutDue] at h
  split_ifs at h with hc
  exact ⟨hc, (Option.some.inj h).symm⟩

section

variable (event : Option StockoutEvent)

@[simp] theorem stockEntries_addDueStockout :
    (db.addDueStockout event).stockEntries = db.stockEntries := by cases event <;> rfl

@[simp] theorem stockExits_addDueStockout :
    (db.addDueStockout event).stockExits = db.stockExits := by cases event <;> rfl

@[simp] theorem inventoryDiscrepancies_addDueStockout :
    (db.addDueStockout event).inventoryDiscrepancies = db.inventoryDiscrepancies := by
  cases event <;> rfl

@[simp] theorem clients_addDueStockout : (db.addDueStockout event).clients = db.clients := by
  cases event <;> rfl

@[simp] theorem skus_addDueStockout : (db.addDueStockout event).skus = db.skus := by
  cases event <;> rfl

@[simp] theorem stockLedgerCheckpoints_addDueStockout :
    (db.addDueStockout event).stockLedgerCheckpoints = db.stockLedgerCheckpoints := by
  cases event <;> rfl

@[simp] theorem storedBalance_addDueStockout (k : Place) :
    (db.addDueStockout event).storedBalance k = db.storedBalance k := by cases event <;> rfl

end

/-- A successful receipt: the balance moves up by the quantity, and the entry is recorded. -/
theorem recordInbound_eq_ok {payload : StockEntryCreate} {userUuid : String} {now : Clock} {id : ℕ}
    {db' : Ledger} {e : StockEntry} (h : db.recordInbound payload userUuid now id = .ok (db', e)) :
    ∃ sku, db.getSku payload.skuId = some sku ∧ sku.warehouse = payload.warehouse ∧
      e = newEntry payload userUuid now id ∧
      db.balanceAfterDelta payload.skuId payload.warehouse payload.quantity =
        some ⟨payload.skuId, payload.warehouse,
          db.currentStock payload.skuId payload.warehouse + payload.quantity⟩ ∧
      db' = (db.setBalance ⟨payload.skuId, payload.warehouse,
        db.currentStock payload.skuId payload.warehouse + payload.quantity⟩).addEntry e := by
  unfold recordInbound at h
  cases hv : validateSkuWarehouse (db.getSku payload.skuId) payload.warehouse with
  | error err => rw [hv] at h; cases h
  | ok sku =>
    obtain ⟨hs, hw⟩ := validateSkuWarehouse_eq_ok hv
    rw [hv] at h
    cases hb : db.balanceAfterDelta payload.skuId payload.warehouse payload.quantity with
    | none => simp [hb, bind, Except.bind] at h
    | some b =>
      simp only [hb, bind, Except.bind, Except.ok.injEq, Prod.mk.injEq] at h
      obtain ⟨rfl, rfl⟩ := h
      obtain ⟨rfl, -⟩ := balanceAfterDelta_eq_some hb
      exact ⟨sku, hs, hw, rfl, rfl, rfl⟩

/-- A successful exit: it fits the stock, the balance moves down by the quantity, and the exit
is recorded, with the stockout event when one is due. -/
theorem recordOutbound_eq_ok {payload : StockExitCreate} {userUuid : String} {now : Clock}
    {id eventId : ℕ} {db' : Ledger} {x : StockExit}
    (h : db.recordOutbound payload userUuid now id eventId = .ok (db', x)) :
    ∃ sku, db.getSku payload.skuId = some sku ∧ sku.warehouse = payload.warehouse ∧
      x = newExit payload userUuid now id ∧
      (payload.quantity : ℤ) ≤ db.currentStock payload.skuId payload.warehouse ∧
      db' = ((db.setBalance ⟨payload.skuId, payload.warehouse,
        db.currentStock payload.skuId payload.warehouse - payload.quantity⟩).addExit
        x).addDueStockout
          (stockoutDue sku x (db.currentStock payload.skuId payload.warehouse) eventId) := by
  unfold recordOutbound at h
  cases hv : validateExitSku payload (db.getSku payload.skuId) with
  | error err => rw [hv] at h; cases h
  | ok sku =>
    obtain ⟨hs, hw⟩ := validateExitSku_eq_ok hv
    rw [hv] at h
    simp only [bind, Except.bind] at h
    split_ifs at h with hq
    cases hb : db.balanceAfterDelta payload.skuId payload.warehouse (-payload.quantity) with
    | none => simp [hb] at h
    | some b =>
      simp only [hb, Except.ok.injEq, Prod.mk.injEq] at h
      obtain ⟨rfl, rfl⟩ := h
      obtain ⟨rfl, -⟩ := balanceAfterDelta_eq_some hb
      exact ⟨sku, hs, hw, rfl, not_lt.1 hq, rfl⟩

end Ledger

end TrackFlow
