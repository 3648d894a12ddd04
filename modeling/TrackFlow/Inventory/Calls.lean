import TrackFlow.Inventory.Operations
import TrackFlow.Sql.Statements

/-!
# The inventory service, statement by statement

`record_inbound`, `record_outbound`, `record_discrepancy` and `update_sku` of `InventoryService` as
programs of statements on one connection.  A row that is added to the session is inserted when the
session flushes: before an explicit `flush`, and before `COMMIT`.  The balance upsert is a Core
statement, so it runs before the movement row is inserted.

* `Request.program` : the statements of a call, with its handlers.
* `Request.Accepted` : the call's own checks, and those of the tables, pass.
* `program_does_of_accepted`, `program_does_of_refused` : the trace of a call.
* `raises_unchanged_iff` : **when a call that raises has written nothing**.
-/

namespace TrackFlow

/-- `SKURead`. -/
structure SKURead where
  id : ℕ
  name : String
  sku : String
  clientId : UUID
  clientName : String
  category : Category
  warehouse : Warehouse
  minStockThreshold : ℕ
  currentStock : ℤ
  deriving DecidableEq, Repr

namespace InventoryService

open Ledger Tx

/-- What the service raises. -/
inductive Raised
  | inventory (e : InventoryError)
  | sqlalchemy (e : SqlError)
  | runtime (message : String)
  deriving DecidableEq, Repr

/-- A program of statements on the inventory tables. -/
abbrev Program (α : Type) := Tx Raised (Connection SqlError Ledger) α

/-! ### The statements of the repository -/

/-- `get_sku_for_update`. -/
def getSkuForUpdate (skuId : ℕ) : Program (Option SKU) :=
  select .sqlalchemy fun db => db.getSku skuId

/-- `current_stock`. -/
def currentStock (skuId : ℕ) (warehouse : Warehouse) : Program ℤ :=
  select .sqlalchemy fun db => db.currentStock skuId warehouse

/-- `get_client`. -/
def getClient (clientId : UUID) : Program (Option Client) :=
  select .sqlalchemy fun db => db.getClient clientId

/-- `get_exit`. -/
def getExit (stockExitId : ℕ) : Program (Option StockExit) :=
  select .sqlalchemy fun db => db.getExit stockExitId

/-- `discrepancy_exists`. -/
def discrepancyExists (stockExitId : ℕ) : Program Bool :=
  select .sqlalchemy fun db => db.discrepancyExists stockExitId

/-- `session.refresh`: the row is read again. -/
def refresh : Program Unit := select .sqlalchemy fun _ => ()

/-- `apply_balance_delta`. -/
def applyBalanceDelta (skuId : ℕ) (warehouse : Warehouse) (delta : ℤ) : Program Unit :=
  query .sqlalchemy fun db =>
    match db.balanceAfterDelta skuId warehouse delta with
    | none => .error .other
    | some balance => .ok ((), db.setBalance balance)

/-- `INSERT` of a row whose id is unique. -/
def insertRow (used : Ledger → List ℕ) (id : ℕ) (add : Ledger → Ledger) : Program Unit :=
  query .sqlalchemy fun db =>
    if id ∈ used db then .error (.integrity none) else .ok ((), add db)

/-- The flush of a new row of `stock_entries`. -/
def insertEntry (e : StockEntry) : Program Unit :=
  insertRow (fun db => db.stockEntries.map (·.id)) e.id (·.addEntry e)

/-- The flush of a new row of `stock_exits`. -/
def insertExit (x : StockExit) : Program Unit :=
  insertRow (fun db => db.stockExits.map (·.id)) x.id (·.addExit x)

/-- The flush of a new row of `stockout_events`. -/
def insertStockoutEvent (v : StockoutEvent) : Program Unit :=
  insertRow (fun db => db.stockoutEvents.map (·.id)) v.id (·.addStockoutEvent v)

/-- The flush of a new row of `inventory_discrepancies`; the delta has to fit its column. -/
def insertDiscrepancy (d : InventoryDiscrepancy) : Program Unit :=
  query .sqlalchemy fun db =>
    if fitsInteger d.quantityDelta = false then .error .other
    else if d.id ∈ db.inventoryDiscrepancies.map (·.id) then .error (.integrity none)
    else .ok ((), db.addDiscrepancy d)

/-- The flush of a SKU whose threshold has changed. -/
def updateThreshold (skuId threshold : ℕ) : Program Unit :=
  query .sqlalchemy fun db =>
    if fitsInteger threshold = false then .error .other
    else .ok ((), db.setThreshold skuId threshold)

/-! ### The calls -/

/-- The body of `record_inbound`. -/
def recordInbound (payload : StockEntryCreate) (userUuid : String) (now : Clock) (id : ℕ) :
    Program StockEntry := do
  let sku ← getSkuForUpdate payload.skuId
  match validateSkuWarehouse sku payload.warehouse with
  | .error e => raise (.inventory e)
  | .ok _ =>
    let entry := newEntry payload userUuid now id
    applyBalanceDelta payload.skuId payload.warehouse payload.quantity
    insertEntry entry
    commit .sqlalchemy
    refresh
    return entry

/-- The body of `record_outbound`. -/
def recordOutbound (payload : StockExitCreate) (userUuid : String) (now : Clock)
    (id eventId : ℕ) : Program StockExit := do
  let sku ← getSkuForUpdate payload.skuId
  match validateExitSku payload sku with
  | .error e => raise (.inventory e)
  | .ok sku =>
    let available ← currentStock payload.skuId payload.warehouse
    if (payload.quantity : ℤ) > available then
      raise (.inventory (insufficientStock payload sku available))
    else
      let stockExit := newExit payload userUuid now id
      applyBalanceDelta payload.skuId payload.warehouse (-payload.quantity)
      insertExit stockExit
      match stockoutDue sku stockExit available eventId with
      | none => pure ()
      | some event => insertStockoutEvent event
      commit .sqlalchemy
      refresh
      return stockExit

/-- The body of `record_discrepancy`. -/
def recordDiscrepancy (payload : InventoryDiscrepancyCreate) (userUuid : Option String)
    (source : DiscrepancySource) (now : Clock) (id : ℕ) : Program InventoryDiscrepancy := do
  match ← getExit payload.stockExitId with
  | none => raise (.inventory ⟨404, "Stock exit not found", none⟩)
  | some stockExit =>
    if stockExit.exitType ≠ .dispatch then
      raise (.inventory ⟨422, "Discrepancy requires a dispatch stock exit", none⟩)
    else if ← discrepancyExists payload.stockExitId then
      raise (.inventory ⟨409, "DISCREPANCY_EXISTS", none⟩)
    else
      match validateSkuWarehouse (← getSkuForUpdate stockExit.skuId) stockExit.warehouse with
      | .error _ => raise (.inventory ⟨422, "Stock exit SKU ownership is invalid", none⟩)
      | .ok sku =>
        let discrepancy : InventoryDiscrepancy :=
          ⟨id, payload.stockExitId, stockExit.skuId, stockExit.warehouse, sku.clientId,
            payload.quantityDelta, source, now.instant, userUuid⟩
        insertDiscrepancy discrepancy
        commit .sqlalchemy
        refresh
        return discrepancy

/-- The body of `update_sku`; a threshold that is the stored one makes nothing dirty. -/
def updateSku (skuId : ℕ) (payload : SKUUpdate) : Program SKURead := do
  match ← getSkuForUpdate skuId with
  | none => raise (.inventory ⟨404, "SKU not found", none⟩)
  | some sku =>
    if payload.clientId.any fun c => decide (c ≠ sku.clientId) then
      raise (.inventory ⟨409, "CLIENT_ID_IMMUTABLE", none⟩)
    else
      let threshold := payload.minStockThreshold.getD sku.minStockThreshold
      if threshold ≠ sku.minStockThreshold then updateThreshold skuId threshold
      commit .sqlalchemy
      refresh
      match ← getClient sku.clientId with
      | none => raise (.runtime "Persisted SKU client is missing")
      | some client =>
        let stock ← currentStock skuId sku.warehouse
        return ⟨skuId, sku.name, sku.sku, sku.clientId, client.displayName, sku.category,
          sku.warehouse, threshold, stock⟩

/-- The handlers of `record_inbound`, `record_outbound` and `update_sku`. -/
def onRaise : Raised → Raised
  | .sqlalchemy _ => .inventory persistenceFailure
  | e => e

/-- The handlers of `record_discrepancy`. -/
def onDiscrepancyRaise : Raised → Raised
  | .sqlalchemy (.integrity name) =>
    if name = some "uq_inventory_discrepancies_stock_exit_id" then
      .inventory ⟨409, "DISCREPANCY_EXISTS", none⟩
    else .inventory persistenceFailure
  | e => onRaise e

/-- A call, with the clock reading and the ids that it gets. -/
inductive Request
  | recordInbound (payload : StockEntryCreate) (userUuid : String) (now : Clock) (id : ℕ)
  | recordOutbound (payload : StockExitCreate) (userUuid : String) (now : Clock) (id eventId : ℕ)
  | recordDiscrepancy (payload : InventoryDiscrepancyCreate) (userUuid : Option String)
      (source : DiscrepancySource) (now : Clock) (id : ℕ)
  | updateSku (skuId : ℕ) (payload : SKUUpdate)

/-- What a call returns. -/
inductive Response
  | entry (e : StockEntry)
  | exit (x : StockExit)
  | discrepancy (d : InventoryDiscrepancy)
  | sku (s : SKURead)
  deriving DecidableEq, Repr

namespace Request

/-- The call without its handlers. -/
def body : Request → Program Response
  | .recordInbound payload userUuid now id =>
    return .entry (← InventoryService.recordInbound payload userUuid now id)
  | .recordOutbound payload userUuid now id eventId =>
    return .exit (← InventoryService.recordOutbound payload userUuid now id eventId)
  | .recordDiscrepancy payload userUuid source now id =>
    return .discrepancy (← InventoryService.recordDiscrepancy payload userUuid source now id)
  | .updateSku skuId payload => return .sku (← InventoryService.updateSku skuId payload)

/-- The handlers of the call. -/
def handler : Request → Raised → Raised
  | .recordDiscrepancy .. => onDiscrepancyRaise
  | _ => onRaise

/-- The call.  What it does not catch closes the session, which rolls back as well. -/
def program (request : Request) : Program Response := rescue request.handler request.body

/-- What the call answers, and what is committed then. -/
def call (request : Request) (db : Ledger) (fault : Option (ℕ × SqlError)) :
    Except Raised Response × Ledger :=
  let (answer, c) := request.program.run (.start db fault)
  (answer, c.committed)

/-! ### What a call would commit -/

/-- The checks of the call and of the tables pass. -/
def Accepted (db : Ledger) : Request → Prop
  | .recordInbound payload _ _ id =>
    (∃ sku, db.getSku payload.skuId = some sku ∧ sku.warehouse = payload.warehouse) ∧
      (db.balanceAfterDelta payload.skuId payload.warehouse payload.quantity).isSome ∧
      id ∉ db.stockEntries.map (·.id)
  | .recordOutbound payload userUuid now id eventId =>
    (∃ sku, db.getSku payload.skuId = some sku ∧ sku.warehouse = payload.warehouse ∧
      ∀ v, stockoutDue sku (newExit payload userUuid now id)
          (db.currentStock payload.skuId payload.warehouse) eventId = some v →
        eventId ∉ db.stockoutEvents.map (·.id)) ∧
      payload.quantity ≤ db.currentStock payload.skuId payload.warehouse ∧
      (db.balanceAfterDelta payload.skuId payload.warehouse (-payload.quantity)).isSome ∧
      id ∉ db.stockExits.map (·.id)
  | .recordDiscrepancy payload _ _ _ id =>
    (∃ x, db.getExit payload.stockExitId = some x ∧ x.exitType = .dispatch ∧
      ∃ sku, db.getSku x.skuId = some sku ∧ sku.warehouse = x.warehouse) ∧
      db.discrepancyExists payload.stockExitId = false ∧
      fitsInteger payload.quantityDelta = true ∧ id ∉ db.inventoryDiscrepancies.map (·.id)
  | .updateSku skuId payload =>
    ∃ sku, db.getSku skuId = some sku ∧ (∀ c, payload.clientId = some c → c = sku.clientId) ∧
      ∀ n, payload.minStockThreshold = some n → n ≠ sku.minStockThreshold → fitsInteger n = true

/-- What the call commits. -/
def commits (db : Ledger) : Request → Ledger
  | .recordInbound payload userUuid now id =>
    (db.setBalance ⟨payload.skuId, payload.warehouse,
      db.currentStock payload.skuId payload.warehouse + payload.quantity⟩).addEntry
        (newEntry payload userUuid now id)
  | .recordOutbound payload userUuid now id eventId =>
    match db.getSku payload.skuId with
    | none => db
    | some sku =>
      ((db.setBalance ⟨payload.skuId, payload.warehouse,
        db.currentStock payload.skuId payload.warehouse + -payload.quantity⟩).addExit
          (newExit payload userUuid now id)).addDueStockout (stockoutDue sku
            (newExit payload userUuid now id) (db.currentStock payload.skuId payload.warehouse)
            eventId)
  | .recordDiscrepancy payload userUuid source now id =>
    match db.getExit payload.stockExitId with
    | none => db
    | some x =>
      match db.getSku x.skuId with
      | none => db
      | some sku => db.addDiscrepancy ⟨id, payload.stockExitId, x.skuId, x.warehouse, sku.clientId,
          payload.quantityDelta, source, now.instant, userUuid⟩
  | .updateSku skuId payload =>
    match db.getSku skuId with
    | none => db
    | some sku =>
      let threshold := payload.minStockThreshold.getD sku.minStockThreshold
      if threshold ≠ sku.minStockThreshold then db.setThreshold skuId threshold else db

/-- How many statements come before `COMMIT`. -/
def before (db : Ledger) : Request → ℕ
  | .recordInbound .. => 3
  | .recordOutbound payload userUuid now id eventId =>
    match db.getSku payload.skuId with
    | none => 1
    | some sku =>
      match stockoutDue sku (newExit payload userUuid now id)
        (db.currentStock payload.skuId payload.warehouse) eventId with
      | none => 4
      | some _ => 5
  | .recordDiscrepancy .. => 4
  | .updateSku skuId payload =>
    match db.getSku skuId with
    | none => 1
    | some sku =>
      if payload.minStockThreshold.getD sku.minStockThreshold ≠ sku.minStockThreshold then 2 else 1

/-- How many statements follow `COMMIT`. -/
def behind : Request → ℕ
  | .updateSku .. => 3
  | _ => 1

/-- The client that `update_sku` looks for behind `COMMIT` is missing. -/
def ClientMissing (db : Ledger) : Request → Prop
  | .updateSku skuId _ => ∃ sku, db.getSku skuId = some sku ∧ db.getClient sku.clientId = none
  | _ => False

/-- The call changes something: all but an `update_sku` to the threshold that is stored. -/
def Changes (db : Ledger) : Request → Prop
  | .updateSku skuId payload => ∃ sku n, db.getSku skuId = some sku ∧
      payload.minStockThreshold = some n ∧ n ≠ sku.minStockThreshold
  | _ => True

end Request

/-! ### The trace of a call -/

section Traces

variable {db : Ledger}

variable {α : Type} {f : Unit → Program α} {t : List (Option Ledger)} {r : Except Raised α}
  {skuId : ℕ} {warehouse : Warehouse} {delta : ℤ} {used : Ledger → List ℕ} {id : ℕ}
  {add : Ledger → Ledger}

theorem runs_insertRow (hid : id ∉ used db) (h : Runs .sqlalchemy (f ()) (add db) t r) :
    Runs .sqlalchemy (insertRow used id add >>= f) db (none :: t) r :=
  .query_bind (if_neg hid) h

theorem refuses_insertRow (hid : id ∈ used db) :
    Refuses .sqlalchemy (insertRow used id add >>= f) db := .query_bind_error (if_pos hid)

theorem runs_applyBalanceDelta (hb : (db.balanceAfterDelta skuId warehouse delta).isSome)
    (h : Runs .sqlalchemy (f ()) (db.setBalance ⟨skuId, warehouse,
      db.currentStock skuId warehouse + delta⟩) t r) :
    Runs .sqlalchemy (applyBalanceDelta skuId warehouse delta >>= f) db (none :: t) r := by
  obtain ⟨b, hb⟩ := Option.isSome_iff_exists.1 hb
  obtain ⟨rfl, -, -⟩ := balanceAfterDelta_eq_some hb
  exact .query_bind (by rw [hb]) h

theorem refuses_applyBalanceDelta
    (h : (db.balanceAfterDelta skuId warehouse delta).isSome → Refuses .sqlalchemy (f ())
      (db.setBalance ⟨skuId, warehouse, db.currentStock skuId warehouse + delta⟩)) :
    Refuses .sqlalchemy (applyBalanceDelta skuId warehouse delta >>= f) db := by
  cases hb : db.balanceAfterDelta skuId warehouse delta with
  | none => exact .query_bind_error (e := .other) (by rw [hb])
  | some b =>
    obtain ⟨n, e, hn⟩ := h (Option.isSome_of_eq_some hb)
    exact ⟨n + 1, e, runs_applyBalanceDelta (Option.isSome_of_eq_some hb) hn⟩

theorem runs_recordInbound {payload : StockEntryCreate} {userUuid : String} {now : Clock}
    (h : (Request.recordInbound payload userUuid now id).Accepted db) :
    Runs .sqlalchemy (recordInbound payload userUuid now id) db [none, none, none,
      some ((Request.recordInbound payload userUuid now id).commits db), none]
      (.ok (newEntry payload userUuid now id)) := by
  obtain ⟨⟨sku, hsku, hw⟩, hb, hid⟩ := h
  refine .select_bind ?_
  simp only [hsku, validateSkuWarehouse, hw, ne_eq, not_true_eq_false, if_false]
  exact runs_applyBalanceDelta hb (runs_insertRow hid (.commit_bind (.select_bind (.pure _ _))))

theorem refuses_recordInbound {payload : StockEntryCreate} {userUuid : String} {now : Clock}
    (h : ¬(Request.recordInbound payload userUuid now id).Accepted db) :
    Refuses .sqlalchemy (recordInbound payload userUuid now id) db := by
  refine .select_bind ?_
  cases hv : validateSkuWarehouse (db.getSku payload.skuId) payload.warehouse with
  | error e => exact .raise _ _
  | ok sku =>
    refine refuses_applyBalanceDelta fun hb => refuses_insertRow ?_
    by_contra hid
    exact h ⟨⟨sku, validateSkuWarehouse_eq_ok hv⟩, hb, hid⟩

theorem runs_recordOutbound {payload : StockExitCreate} {userUuid : String} {now : Clock}
    {eventId : ℕ} (h : (Request.recordOutbound payload userUuid now id eventId).Accepted db) :
    Runs .sqlalchemy (recordOutbound payload userUuid now id eventId) db
      (List.replicate ((Request.recordOutbound payload userUuid now id eventId).before db) none ++
        [some ((Request.recordOutbound payload userUuid now id eventId).commits db), none])
      (.ok (newExit payload userUuid now id)) := by
  obtain ⟨⟨sku, hsku, hw, hevent⟩, hq, hb, hid⟩ := h
  simp only [Request.before, Request.commits, hsku]
  cases hdue : stockoutDue sku (newExit payload userUuid now id)
      (db.currentStock payload.skuId payload.warehouse) eventId with
  | none =>
    refine .select_bind ?_
    simp only [hsku, validateExitSku, hw, ne_eq, not_true_eq_false, if_false]
    refine .select_bind ?_
    simp only [gt_iff_lt, not_lt.2 hq, if_false, hdue]
    exact runs_applyBalanceDelta hb (runs_insertRow hid (.commit_bind (.select_bind (.pure _ _))))
  | some event =>
    have heventId : event.id = eventId := by
      obtain ⟨-, rfl⟩ := stockoutDue_eq_some hdue
      rfl
    have hfresh : event.id ∉ db.stockoutEvents.map (·.id) := heventId ▸ hevent event hdue
    refine .select_bind ?_
    simp only [hsku, validateExitSku, hw, ne_eq, not_true_eq_false, if_false]
    refine .select_bind ?_
    simp only [gt_iff_lt, not_lt.2 hq, if_false, hdue]
    exact runs_applyBalanceDelta hb (runs_insertRow hid
      (runs_insertRow hfresh (.commit_bind (.select_bind (.pure _ _)))))

theorem refuses_recordOutbound {payload : StockExitCreate} {userUuid : String} {now : Clock}
    {eventId : ℕ} (h : ¬(Request.recordOutbound payload userUuid now id eventId).Accepted db) :
    Refuses .sqlalchemy (recordOutbound payload userUuid now id eventId) db := by
  refine .select_bind ?_
  cases hv : validateExitSku payload (db.getSku payload.skuId) with
  | error e => exact .raise _ _
  | ok sku =>
    obtain ⟨hsku, hw⟩ := validateExitSku_eq_ok hv
    refine .select_bind ?_
    simp only [gt_iff_lt]
    split_ifs with hq
    · exact .raise _ _
    refine refuses_applyBalanceDelta fun hb => ?_
    by_cases hid : id ∈ db.stockExits.map (·.id)
    · exact refuses_insertRow hid
    -- only the id of the event is left to be refused
    have hevent : ¬∀ v, stockoutDue sku (newExit payload userUuid now id)
        (db.currentStock payload.skuId payload.warehouse) eventId = some v →
          eventId ∉ db.stockoutEvents.map (·.id) :=
      fun hv => h ⟨⟨sku, hsku, hw, hv⟩, not_lt.1 hq, hb, hid⟩
    push Not at hevent
    obtain ⟨event, hdue, hused⟩ := hevent
    obtain ⟨n, e, hn⟩ : Refuses .sqlalchemy (insertStockoutEvent event >>= fun _ =>
        (do commit .sqlalchemy; refresh; return newExit payload userUuid now id : Program _))
        ((db.setBalance ⟨payload.skuId, payload.warehouse,
          db.currentStock payload.skuId payload.warehouse + -payload.quantity⟩).addExit
            (newExit payload userUuid now id)) := by
      refine refuses_insertRow ?_
      obtain ⟨-, rfl⟩ := stockoutDue_eq_some hdue
      exact hused
    refine ⟨n + 1, e, runs_insertRow hid ?_⟩
    simp only [hdue]
    exact hn

theorem runs_recordDiscrepancy {payload : InventoryDiscrepancyCreate} {userUuid : Option String}
    {source : DiscrepancySource} {now : Clock}
    (h : (Request.recordDiscrepancy payload userUuid source now id).Accepted db) :
    ∃ d, Runs .sqlalchemy (recordDiscrepancy payload userUuid source now id) db [none, none, none,
      none, some ((Request.recordDiscrepancy payload userUuid source now id).commits db), none]
      (.ok d) := by
  obtain ⟨⟨x, hx, htype, sku, hsku, hw⟩, hnew, hfits, hid⟩ := h
  simp only [Request.commits, hx, hsku]
  refine ⟨⟨id, payload.stockExitId, x.skuId, x.warehouse, sku.clientId, payload.quantityDelta,
    source, now.instant, userUuid⟩, .select_bind ?_⟩
  simp only [hx, htype, ne_eq, not_true_eq_false, if_false]
  refine .select_bind ?_
  simp only [hnew, Bool.false_eq_true, if_false]
  refine .select_bind ?_
  simp only [hsku, validateSkuWarehouse, hw, ne_eq, not_true_eq_false, if_false]
  refine .query_bind (b := ()) ?_ (.commit_bind (.select_bind (.pure _ _)))
  simp [hfits, hid]

theorem refuses_recordDiscrepancy {payload : InventoryDiscrepancyCreate} {userUuid : Option String}
    {source : DiscrepancySource} {now : Clock}
    (h : ¬(Request.recordDiscrepancy payload userUuid source now id).Accepted db) :
    Refuses .sqlalchemy (recordDiscrepancy payload userUuid source now id) db := by
  refine .select_bind ?_
  cases hx : db.getExit payload.stockExitId with
  | none => exact .raise _ _
  | some x =>
    dsimp only
    split_ifs with htype
    · exact .raise _ _
    refine .select_bind ?_
    split_ifs with hnew
    · exact .raise _ _
    refine .select_bind ?_
    cases hv : validateSkuWarehouse (db.getSku x.skuId) x.warehouse with
    | error e => exact .raise _ _
    | ok sku =>
      by_cases hfits : fitsInteger payload.quantityDelta = false
      · exact .query_bind_error (if_pos hfits)
      refine .query_bind_error (e := .integrity none) ?_
      have hid : id ∈ db.inventoryDiscrepancies.map (·.id) := by
        by_contra hid
        exact h ⟨⟨x, hx, not_not.1 htype, sku, validateSkuWarehouse_eq_ok hv⟩,
          Bool.eq_false_iff.2 hnew, Bool.eq_true_of_not_eq_false hfits, hid⟩
      rw [if_neg hfits, if_pos hid]

/-- How `update_sku` ends behind its reads. -/
theorem runs_updateSku {payload : SKUUpdate} (h : (Request.updateSku skuId payload).Accepted db) :
    ∃ m r, Runs .sqlalchemy (updateSku skuId payload) db
      (List.replicate ((Request.updateSku skuId payload).before db) none ++
        some ((Request.updateSku skuId payload).commits db) :: List.replicate m none) r ∧
      ((∃ e, r = .error e) ↔ (Request.updateSku skuId payload).ClientMissing db) ∧
      (m = 3 ∨ ∃ e, r = .error e) := by
  obtain ⟨sku, hsku, hc, hn⟩ := h
  have himmutable : (payload.clientId.any fun c => decide (c ≠ sku.clientId)) = false := by
    cases hp : payload.clientId with
    | none => rfl
    | some c => simpa using hc c hp
  have hmissing : (Request.updateSku skuId payload).ClientMissing db ↔
      db.getClient sku.clientId = none := by simp [Request.ClientMissing, hsku]
  rw [hmissing]
  -- what the call does behind `COMMIT`, on any table in which the clients are those of `db`
  have hbehind (db' : Ledger) (hdb' : db'.getClient sku.clientId = db.getClient sku.clientId)
      (threshold : ℕ) : ∃ m r, Runs .sqlalchemy (do
        commit .sqlalchemy
        refresh
        match ← getClient sku.clientId with
        | none => raise (.runtime "Persisted SKU client is missing")
        | some client =>
          let stock ← currentStock skuId sku.warehouse
          return ⟨skuId, sku.name, sku.sku, sku.clientId, client.displayName, sku.category,
            sku.warehouse, threshold, stock⟩ : Program SKURead) db'
          (some db' :: List.replicate m none) r ∧
        ((∃ e, r = .error e) ↔ db.getClient sku.clientId = none) ∧ (m = 3 ∨ ∃ e, r = .error e) := by
    cases hclient : db.getClient sku.clientId with
    | none =>
      refine ⟨2, .error (.runtime "Persisted SKU client is missing"),
        .commit_bind (.select_bind (.select_bind ?_)), by simp, .inr ⟨_, rfl⟩⟩
      simp only [hdb', hclient]
      exact .raise _ _
    | some client =>
      refine ⟨3, .ok ⟨skuId, sku.name, sku.sku, sku.clientId, client.displayName, sku.category,
        sku.warehouse, threshold, db'.currentStock skuId sku.warehouse⟩,
        .commit_bind (.select_bind (.select_bind ?_)), by simp, .inl rfl⟩
      simp only [hdb', hclient]
      exact .select_bind (.pure _ _)
  simp only [Request.before, Request.commits, hsku]
  by_cases hchange : payload.minStockThreshold.getD sku.minStockThreshold = sku.minStockThreshold
  · obtain ⟨m, r, hr, hiff, hm⟩ := hbehind db rfl
      (payload.minStockThreshold.getD sku.minStockThreshold)
    refine ⟨m, r, ?_, hiff, hm⟩
    simp only [hchange, ne_eq, not_true_eq_false, if_false]
    refine .select_bind ?_
    simp only [hsku, himmutable, Bool.false_eq_true, if_false, hchange, ne_eq, not_true_eq_false]
    rw [hchange] at hr
    exact hr
  · obtain ⟨m, r, hr, hiff, hm⟩ := hbehind (db.setThreshold skuId
      (payload.minStockThreshold.getD sku.minStockThreshold)) rfl
      (payload.minStockThreshold.getD sku.minStockThreshold)
    refine ⟨m, r, ?_, hiff, hm⟩
    simp only [ne_eq, hchange, not_false_eq_true, if_true]
    refine .select_bind ?_
    simp only [hsku, himmutable, Bool.false_eq_true, if_false, hchange, ne_eq, not_false_eq_true,
      if_true]
    have hfits : fitsInteger ((payload.minStockThreshold.getD sku.minStockThreshold : ℕ) : ℤ) =
        true := by
      cases hp : payload.minStockThreshold with
      | none => simp [hp] at hchange
      | some n =>
        rw [hp] at hchange
        exact hn n hp hchange
    exact .query_bind (b := ()) (by simp [hfits]) hr

theorem refuses_updateSku {payload : SKUUpdate}
    (h : ¬(Request.updateSku skuId payload).Accepted db) :
    Refuses .sqlalchemy (updateSku skuId payload) db := by
  refine .select_bind ?_
  cases hsku : db.getSku skuId with
  | none => exact .raise _ _
  | some sku =>
    dsimp only
    split_ifs with himmutable hchange
    · exact .raise _ _
    all_goals
      have hc : ∀ c, payload.clientId = some c → c = sku.clientId := by
        intro c hp
        simpa [hp] using himmutable
    · refine .query_bind_error (e := .other) ?_
      have hfits : ¬fitsInteger ((payload.minStockThreshold.getD sku.minStockThreshold : ℕ) : ℤ) =
          true := by
        intro hfits
        refine h ⟨sku, hsku, hc, fun n hp _ => ?_⟩
        rwa [hp] at hfits
      rw [if_pos (Bool.eq_false_iff.2 hfits)]
    · refine absurd ⟨sku, hsku, hc, fun n hp hne => ?_⟩ h
      rw [hp] at hchange
      exact absurd hne hchange

end Traces

/-! ### Raises that have written -/

namespace Request

variable {db : Ledger} {request : Request}

theorem refuses_body (h : ¬request.Accepted db) : Refuses .sqlalchemy request.body db := by
  cases request with
  | recordInbound payload userUuid now id => exact (refuses_recordInbound h).bind_pure _
  | recordOutbound payload userUuid now id eventId => exact (refuses_recordOutbound h).bind_pure _
  | recordDiscrepancy payload userUuid source now id =>
    exact (refuses_recordDiscrepancy h).bind_pure _
  | updateSku skuId payload => exact (refuses_updateSku h).bind_pure _

/-- The trace of an accepted call. -/
theorem runs_body (h : request.Accepted db) :
    ∃ m r, Runs .sqlalchemy request.body db (List.replicate (request.before db) none ++
        some (request.commits db) :: List.replicate m none) r ∧
      ((∃ e, r = .error e) ↔ request.ClientMissing db) ∧
      (m = request.behind ∨ ∃ e, r = .error e) := by
  cases request with
  | recordInbound payload userUuid now id =>
    exact ⟨1, _, (runs_recordInbound h).bind_pure _, by simp [Except.map, ClientMissing], .inl rfl⟩
  | recordOutbound payload userUuid now id eventId =>
    exact ⟨1, _, (runs_recordOutbound h).bind_pure _, by simp [Except.map, ClientMissing], .inl rfl⟩
  | recordDiscrepancy payload userUuid source now id =>
    obtain ⟨d, hd⟩ := runs_recordDiscrepancy h
    exact ⟨1, _, hd.bind_pure _, by simp [Except.map, ClientMissing], .inl rfl⟩
  | updateSku skuId payload =>
    obtain ⟨m, r, hr, hiff, hm⟩ := runs_updateSku h
    have hmap : (∃ e, r.map Response.sku = .error e) ↔ ∃ e, r = .error e := by
      cases r <;> simp [Except.map]
    exact ⟨m, _, hr.bind_pure _, hmap.trans hiff, hm.imp_right hmap.2⟩

theorem commits_ne_iff (h : request.Accepted db) :
    request.commits db ≠ db ↔ request.Changes db := by
  have hne {α : Type} (xs : List α) (x : α) : xs ++ [x] ≠ xs := by simp
  cases request with
  | recordInbound payload userUuid now id =>
    exact iff_of_true (fun hdb => hne _ _ (congrArg Ledger.stockEntries hdb)) trivial
  | recordOutbound payload userUuid now id eventId =>
    obtain ⟨⟨sku, hsku, -, -⟩, -⟩ := h
    refine iff_of_true (fun hdb => ?_) trivial
    have hexits := congrArg Ledger.stockExits hdb
    simp only [commits, hsku, stockExits_addDueStockout] at hexits
    exact hne _ _ hexits
  | recordDiscrepancy payload userUuid source now id =>
    obtain ⟨⟨x, hx, -, sku, hsku, -⟩, -⟩ := h
    refine iff_of_true (fun hdb => ?_) trivial
    have hdiscrepancies := congrArg Ledger.inventoryDiscrepancies hdb
    simp only [commits, hx, hsku] at hdiscrepancies
    exact hne _ _ hdiscrepancies
  | updateSku skuId payload =>
    obtain ⟨sku, hsku, -, -⟩ := h
    have hchanges : (Request.updateSku skuId payload).Changes db ↔
        payload.minStockThreshold.getD sku.minStockThreshold ≠ sku.minStockThreshold := by
      simp only [Changes, hsku, Option.some.injEq, exists_and_left, exists_eq_left']
      cases payload.minStockThreshold <;> simp
    rw [hchanges]
    simp only [commits, hsku]
    split_ifs with hchange
    · refine iff_of_true (fun hdb => hchange ?_) hchange
      -- the stored row tells the new threshold from the old one
      have hget := congrArg (fun db => db.getSku skuId) hdb
      simp only [getSku_setThreshold, hsku, Option.map_some, (getSku_eq_some hsku).2, if_true,
        Option.some.injEq] at hget
      exact congrArg SKU.minStockThreshold hget
    · exact iff_of_false (fun hdb => hdb rfl) hchange

/-- **When a call that raises has written nothing.**  Unless the call is accepted, changes
something, and a statement behind its `COMMIT` fails or misses the client. -/
theorem raises_unchanged_iff (db : Ledger) (request : Request) (fault : Option (ℕ × SqlError)) :
    ((∃ e, (request.call db fault).1 = .error e) → (request.call db fault).2 = db) ↔
      ¬(request.Accepted db ∧ request.Changes db ∧
        FailsBehind (request.before db) request.behind (request.ClientMissing db) fault) := by
  by_cases h : request.Accepted db
  · obtain ⟨m, r, hr, hiff, hm⟩ := runs_body h
    have hbehind : FailsBehind (request.before db) m (∃ e, r = .error e) fault ↔
        FailsBehind (request.before db) request.behind (request.ClientMissing db) fault := by
      rcases fault with _ | ⟨k, e⟩
      · exact hiff
      · simp only [FailsBehind, ← hiff]
        rcases hm with rfl | hbroken
        · rfl
        · simp [hbroken]
    refine (hr.raises_unchanged_iff fault).trans (not_congr ?_)
    rw [commits_ne_iff h, hbehind]
    exact (and_iff_right h).symm
  · exact iff_of_true (fun _ => (refuses_body h).committed_eq fault) fun hc => h hc.1

end Request

end InventoryService

end TrackFlow
