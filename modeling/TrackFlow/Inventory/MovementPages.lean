import TrackFlow.Inventory.Reseed
import TrackFlow.Sql.Page
import Mathlib.Data.Prod.Lex

/-!
# The timeline of movements

`list_movements` is the union of both movement tables, joined with the SKU and its client, newest
first.  The total is counted on the bare tables.

* `Ledger.listMovements` : one page and the total.
* `Joins` : every movement has its SKU, every SKU its client; `joins_of_run` : so it is after any
  calls, prunes, seeds and backfills.
* `movements_joined` : then the joins neither lose nor repeat a movement.
* `movement_pages_partition` : **the pages are a partition of the movements.**
-/

namespace TrackFlow

open Page

/-- `movement_type`. -/
inductive MovementType
  | inbound
  | outbound
  deriving DecidableEq, Repr

/-- The place of `'inbound'` and `'outbound'` in the order of texts. -/
def MovementType.rank : MovementType → ℕ
  | .inbound => 0
  | .outbound => 1

/-- A row of the union. -/
structure Movement where
  id : ℕ
  movementType : MovementType
  skuId : ℕ
  quantity : ℕ
  reference : Option String
  exitType : Option ExitType
  trackingNumber : Option String
  warehouse : Warehouse
  createdAt : ℕ
  userUuid : String
  deriving DecidableEq, Repr

/-- The projection of `stock_entries`. -/
def StockEntry.movement (e : StockEntry) : Movement :=
  ⟨e.id, .inbound, e.skuId, e.quantity, some e.reference, none, none, e.warehouse, e.createdAt,
    e.userUuid⟩

/-- The projection of `stock_exits`. -/
def StockExit.movement (x : StockExit) : Movement :=
  ⟨x.id, .outbound, x.skuId, x.quantity, none, some x.exitType, x.trackingNumber, x.warehouse,
    x.createdAt, x.userUuid⟩

/-- `ORDER BY created_at DESC, movement_type, id DESC`. -/
def Movement.position (m : Movement) : ℕᵒᵈ ×ₗ ℕ ×ₗ ℕᵒᵈ :=
  toLex (OrderDual.toDual m.createdAt, toLex (m.movementType.rank, OrderDual.toDual m.id))

/-- `MovementRecord`. -/
structure MovementRecord where
  movement : Movement
  sku : SKU
  clientName : String
  deriving DecidableEq, Repr

namespace Ledger

variable (db : Ledger)

/-- `union_all(inbound, outbound)`. -/
def movements : List Movement :=
  db.stockEntries.map StockEntry.movement ++ db.stockExits.map StockExit.movement

/-- The SKUs that a movement is joined with. -/
def joinedSkus (m : Movement) : List SKU :=
  db.skus.rows.filter fun s => decide (s.id = m.skuId ∧ s.warehouse = m.warehouse)

/-- The clients that a SKU is joined with. -/
def joinedClients (s : SKU) : List Client := db.clients.filter fun c => decide (c.id = s.clientId)

/-- The rows of the statement, in some order. -/
def joinedMovements : List MovementRecord :=
  db.movements.flatMap fun m => (db.joinedSkus m).flatMap fun s =>
    (db.joinedClients s).map fun c => ⟨m, s, c.displayName⟩

/-- `list_movements`, where the plan produces the joined rows in the order `rows`. -/
def listMovements (rows : List MovementRecord) (limit offset : ℕ) : List MovementRecord × ℕ :=
  (page limit offset (orderBy (fun r => r.movement.position) rows),
    db.stockEntries.length + db.stockExits.length)

/-- `rename_client`. -/
def renameClient (clientId : UUID) (displayName role : String) : Except InventoryError Ledger :=
  if role ≠ "admin" then .error ⟨403, "Administrator role required", none⟩
  else
    match db.getClient clientId with
    | none => .error ⟨404, "Client not found", none⟩
    | some _ =>
      if db.clients.any fun c => decide (c.displayName = displayName ∧ c.id ≠ clientId) then
        .error ⟨409, "CLIENT_NAME_EXISTS", none⟩
      else .ok { db with
        clients := db.clients.map fun c =>
          if c.id = clientId then { c with displayName := displayName } else c }

end Ledger

/-! ## The ledgers that are read -/

/-- A transaction of the inventory. -/
inductive InventoryLabel
  | upkeep (l : UpkeepLabel)
  | renameClient (clientId : UUID) (displayName role : String)

namespace Retention

/-- The state after a transaction. -/
def inventoryNext (s : Retention) : InventoryLabel → Option Retention
  | .upkeep l => s.upkeepNext l
  | .renameClient clientId displayName role =>
    match s.db.renameClient clientId displayName role with
    | .error _ => none
    | .ok db => some { s with db := db }

/-- The machine of the ledger under everything that writes to it. -/
def inventory : Machine Retention InventoryLabel := ⟨inventoryNext⟩

end Retention

/-- The keys that the joins rely on. -/
structure Joins (db : Ledger) : Prop where
  wellFormed : WellFormed db
  clientsExist : ClientsExist db
  clientIds : (db.clients.map (·.id)).Nodup

namespace Joins

variable {db db' : Ledger}

/-- Changes that leave clients, SKUs and movements alone. -/
theorem of_wellFormed (h : Joins db) (hwf : WellFormed db') (hc : db'.clients = db.clients)
    (hs : db'.skus = db.skus) : Joins db' := by
  refine ⟨hwf, ?_, hc ▸ h.clientIds⟩
  rw [ClientsExist, hs, hc]
  exact h.clientsExist

theorem clientIds_createClient {displayName role : String} {id : UUID} {c : Client}
    (h : (db.clients.map (·.id)).Nodup) (hc : db.createClient displayName role id = .ok (db', c)) :
    (db'.clients.map (·.id)).Nodup := by
  unfold Ledger.createClient at hc
  split_ifs at hc with _ hid
  cases hc
  rw [List.map_append]
  exact List.Nodup.append h (List.nodup_singleton _) (by simpa using hid)

theorem clients_createSku {payload : SKUCreate} {id : ℕ} {s : SKU}
    (hs : db.createSku payload id = .ok (db', s)) : db'.clients = db.clients := by
  unfold Ledger.createSku at hs
  split_ifs at hs
  simp only at hs
  split at hs <;> cases hs
  rfl

theorem clients_updateSku {skuId : ℕ} {payload : SKUUpdate}
    (hu : db.updateSku skuId payload = .ok db') : db'.clients = db.clients := by
  unfold Ledger.updateSku at hu
  split at hu
  · cases hu
  · split_ifs at hu
    split at hu
    · cases hu
      rfl
    · split_ifs at hu
      cases hu
      rfl

/-- A service call. -/
theorem perform (h : Joins db) {op : LedgerOp} (hop : op.perform db = .ok db') : Joins db' := by
  refine ⟨h.wellFormed.perform hop, h.clientsExist.perform hop, ?_⟩
  have hids := h.clientIds
  cases op with
  | createClient displayName role id =>
    obtain ⟨⟨db₁, c⟩, hr, rfl⟩ := Ledger.except_map_eq_ok_iff.1 hop
    exact clientIds_createClient hids hr
  | createSku payload id =>
    obtain ⟨⟨db₁, s⟩, hr, rfl⟩ := Ledger.except_map_eq_ok_iff.1 hop
    exact (clients_createSku hr).symm ▸ hids
  | updateSku skuId payload => exact (clients_updateSku hop).symm ▸ hids
  | recordInbound payload userUuid now id =>
    simp only [LedgerOp.perform] at hop
    split_ifs at hop
    obtain ⟨⟨db₁, e⟩, hr, rfl⟩ := Ledger.except_map_eq_ok_iff.1 hop
    obtain ⟨sku, hs, hw, rfl, -, rfl⟩ := Ledger.recordInbound_eq_ok hr
    exact hids
  | recordOutbound payload userUuid now id eventId =>
    simp only [LedgerOp.perform] at hop
    split_ifs at hop
    obtain ⟨⟨db₁, x⟩, hr, rfl⟩ := Ledger.except_map_eq_ok_iff.1 hop
    obtain ⟨sku, hs, hw, rfl, -, rfl⟩ := Ledger.recordOutbound_eq_ok hr
    exact (Ledger.clients_addDueStockout _).symm ▸ hids
  | recordDiscrepancy payload userUuid source now id =>
    obtain ⟨⟨db₁, d⟩, hr, rfl⟩ := Ledger.except_map_eq_ok_iff.1 hop
    obtain ⟨rfl, -⟩ := LedgerOp.recordDiscrepancy_eq_ok hr
    exact hids

theorem renameClient (h : Joins db) {clientId : UUID} {displayName role : String}
    (hr : db.renameClient clientId displayName role = .ok db') : Joins db' := by
  -- only the name changes, and no row refers to it
  unfold Ledger.renameClient at hr
  split_ifs at hr
  · split at hr <;> cases hr
  split at hr <;> cases hr
  have hid (c : Client) :
      (if c.id = clientId then { c with displayName := displayName } else c).id = c.id := by
    split_ifs <;> rfl
  refine ⟨⟨h.wellFormed.entryIds, h.wellFormed.exitIds, h.wellFormed.entrySku,
    h.wellFormed.exitSku, h.wellFormed.stockoutSku, h.wellFormed.stockoutExit,
    h.wellFormed.discrepancySku, h.wellFormed.discrepancyExit⟩, fun s hs => ?_, ?_⟩
  · obtain ⟨c, hc, hcs⟩ := h.clientsExist s hs
    exact ⟨_, List.mem_map_of_mem hc, (hid c).trans hcs⟩
  · rw [List.map_map, Function.comp_def]
    simpa only [hid] using h.clientIds

/-- The clients of a seed have new ids. -/
theorem clientIds_ensureClient {ids : SeedIds} {name : String}
    (h : (db.clients.map (·.id)).Nodup) (hc : db.ensureClient ids name = .ok db') :
    (db'.clients.map (·.id)).Nodup := by
  obtain ⟨rfl, -⟩ | ⟨hid, rfl⟩ := Ledger.ensureClient_cases hc
  · exact h
  · rw [List.map_append]
    exact List.Nodup.append h (List.nodup_singleton _) (by simpa using hid)

theorem clientIds_ensureClients {ids : SeedIds} {names : List String}
    (h : (db.clients.map (·.id)).Nodup)
    (hc : names.foldlM (fun db name => db.ensureClient ids name) db = .ok db') :
    (db'.clients.map (·.id)).Nodup := by
  induction names generalizing db with
  | nil =>
    cases hc
    exact h
  | cons name names ih =>
    rw [List.foldlM_cons, except_bind_eq_ok] at hc
    obtain ⟨db₁, h₁, hc⟩ := hc
    exact ih (clientIds_ensureClient h h₁) hc

theorem clients_ensureSku {ids : SeedIds} {item : SKUSeed} (h : db.ensureSku ids item = .ok db') :
    db'.clients = db.clients := by
  obtain ⟨_, -, ⟨_, -, -, rfl⟩ | ⟨-, _, -, rfl⟩⟩ := Ledger.ensureSku_cases h <;> rfl

theorem clients_rederived (h : db.rederived = .ok db') : db'.clients = db.clients := by
  obtain ⟨_, rfl⟩ := Ledger.exists_eq_of_rederived h
  rfl

theorem seedInventory (h : Joins db) {ids : SeedIds} {userUuid : String}
    (hs : db.seedInventory ids userUuid = .ok db') : Joins db' := by
  have hreseeded := Reseeded.seedInventory hs
  refine ⟨hreseeded.wellFormed h.wellFormed, hreseeded.clientsExist h.clientsExist, ?_⟩
  simp only [Ledger.seedInventory, except_bind_eq_ok] at hs
  obtain ⟨db₁, h₁, db₂, h₂, db₃, h₃, db₄, h₄, h₅⟩ := hs
  have hskus := Ledger.foldlM_keeps (g := Ledger.clients) (fun _ _ _ => clients_ensureSku) h₂
  have hentries := Ledger.foldlM_keeps (g := Ledger.clients)
    (fun _ _ _ h => (Ledger.ensureEntry_fixtures h).1) h₃
  have hexits := Ledger.foldlM_keeps (g := Ledger.clients)
    (fun _ _ _ h => (Ledger.ensureExit_fixtures h).1) h₄
  -- of the five stages only the first adds clients
  rw [clients_rederived h₅, hexits, hentries, hskus]
  exact clientIds_ensureClients h.clientIds h₁

theorem clients_backfillExits {userUuid : String} {instant : ℕ} {sku : SKU}
    {draws : List BackfillExit} {b : Ledger.Backfill} :
    (Ledger.backfillExits userUuid instant sku draws b).1.clients = b.1.clients := by
  induction draws generalizing b with
  | nil => rfl
  | cons draw draws ih =>
    unfold Ledger.backfillExits
    split_ifs
    · rfl
    · exact ih

theorem backfillHistory (h : Joins db) {isoformat : ℕ → String} {draws : ℕ → SKU → BackfillDay}
    {userUuid : String} {now days : ℕ}
    (hb : db.backfillHistory isoformat draws userUuid now days = .ok db') : Joins db' := by
  have hreseeded := Reseeded.backfillHistory hb
  refine ⟨hreseeded.wellFormed h.wellFormed, hreseeded.clientsExist h.clientsExist, ?_⟩
  unfold Ledger.backfillHistory at hb
  split_ifs at hb
  · cases hb
    exact h.clientIds
  · rw [clients_rederived hb]
    have hday (b : Ledger.Backfill) (offset : ℕ) :
        (db.skus.rows.foldl (Ledger.backfillSku isoformat draws userUuid now offset) b).1.clients =
          b.1.clients :=
      Ledger.foldl_keeps (g := fun b : Ledger.Backfill => b.1.clients)
        (f := Ledger.backfillSku isoformat draws userUuid now offset)
        (fun _ _ _ => clients_backfillExits) b
    have hdays : (db.backfillDays isoformat draws userUuid now days).1.clients = db.clients :=
      Ledger.foldl_keeps (g := fun b : Ledger.Backfill => b.1.clients)
        (fun b offset _ => hday b offset) (db, fun _ => 0)
    exact hdays.symm ▸ h.clientIds

open Retention in
/-- Every transaction keeps the keys. -/
theorem next {s s' : Retention} (h : Joins s.db) {l : InventoryLabel}
    (hn : s.inventoryNext l = some s') : Joins s'.db := by
  cases l with
  | renameClient clientId displayName role =>
    simp only [inventoryNext] at hn
    split at hn <;> cases hn
    exact h.renameClient ‹_›
  | upkeep l =>
    simp only [inventoryNext] at hn
    cases l with
    | seed ids userUuid =>
      simp only [upkeepNext] at hn
      split at hn <;> cases hn
      exact h.seedInventory ‹_›
    | backfill isoformat draws userUuid now days =>
      simp only [upkeepNext] at hn
      split at hn <;> cases hn
      exact h.backfillHistory ‹_›
    | retention l =>
      simp only [upkeepNext] at hn
      cases step_of_next hn with
      | op performed => exact h.perform performed
      | checkpoint _ begun =>
        obtain ⟨w, -, -, rfl⟩ := Ledger.beginPrune_eq_ok begun
        have hwf := h.wellFormed
        exact h.of_wellFormed ⟨hwf.entryIds, hwf.exitIds, hwf.entrySku, hwf.exitSku,
          hwf.stockoutSku, hwf.stockoutExit, hwf.discrepancySku, hwf.discrepancyExit⟩ rfl rfl
      | batch _ deleted =>
        have hd := Ledger.deleteBatch_eq_some h.wellFormed deleted
        exact h.of_wellFormed (hd.wellFormed h.wellFormed) hd.clients hd.skus
      | stop => exact h

/-- Whatever has been called, pruned, seeded or backfilled before. -/
theorem of_run {s : Retention}
    (h : Retention.inventory.Reachable (Retention.start [] .empty) s) : Joins s.db :=
  h.invariant (fun s => Joins s.db) ⟨wellFormed_empty, clientsExist_empty, List.nodup_nil⟩
    fun _ _ _ hj _ hn => hj.next hn

/-! ### The joins -/

theorem filter_eq_singleton {ρ : Type} {rows : List ρ} {p : ρ → Bool} {r : ρ} (hn : rows.Nodup)
    (hr : r ∈ rows) (hp : p r = true) (hone : ∀ r' ∈ rows, p r' = true → r' = r) :
    rows.filter p = [r] := by
  refine List.perm_singleton.1 ((List.perm_ext_iff_of_nodup (hn.filter _)
    (List.nodup_singleton r)).2 fun r' => ?_)
  rw [List.mem_filter, List.mem_singleton]
  constructor
  · exact fun h => hone r' h.1 h.2
  · rintro rfl
    exact ⟨hr, hp⟩

/-- A movement has its SKU. -/
theorem exists_sku (h : Joins db) {m : Movement} (hm : m ∈ db.movements) :
    ∃ s ∈ db.skus.rows, s.place = (m.skuId, m.warehouse) := by
  rcases List.mem_append.1 hm with hm | hm
  · obtain ⟨e, he, rfl⟩ := List.mem_map.1 hm
    exact (h.wellFormed.entrySku e he).2
  · obtain ⟨x, hx, rfl⟩ := List.mem_map.1 hm
    exact (h.wellFormed.exitSku x hx).2

theorem joinedSkus_eq (h : Joins db) {m : Movement} (hm : m ∈ db.movements) :
    ∃ s ∈ db.skus.rows, s.place = (m.skuId, m.warehouse) ∧ db.joinedSkus m = [s] := by
  obtain ⟨s, hs, hplace⟩ := h.exists_sku hm
  obtain ⟨hid, hw⟩ := Prod.mk.inj hplace
  refine ⟨s, hs, hplace, filter_eq_singleton (List.Nodup.of_map _ db.skus.nodup) hs
    (decide_eq_true ⟨hid, hw⟩) fun s' hs' hp => ?_⟩
  exact db.skus.eq_of_key_eq hs' hs ((of_decide_eq_true hp).1.trans hid.symm)

theorem joinedClients_eq (h : Joins db) {s : SKU} (hs : s ∈ db.skus.rows) :
    ∃ c ∈ db.clients, c.id = s.clientId ∧ db.joinedClients s = [c] := by
  obtain ⟨c, hc, hid⟩ := h.clientsExist s hs
  refine ⟨c, hc, hid, filter_eq_singleton (List.Nodup.of_map _ h.clientIds) hc
    (decide_eq_true hid) fun c' hc' hp => ?_⟩
  exact List.inj_on_of_nodup_map h.clientIds hc' hc ((of_decide_eq_true hp).trans hid.symm)

/-- The joins neither lose nor repeat a movement. -/
theorem movements_joined (h : Joins db) :
    db.joinedMovements.map (·.movement) = db.movements := by
  have hone : ∀ m ∈ db.movements, ((db.joinedSkus m).flatMap fun s =>
      (db.joinedClients s).map fun c => (⟨m, s, c.displayName⟩ : MovementRecord)).map
        (·.movement) = [m] := by
    intro m hm
    obtain ⟨s, hs, -, hskus⟩ := h.joinedSkus_eq hm
    obtain ⟨c, -, -, hclients⟩ := h.joinedClients_eq hs
    simp [hskus, hclients]
  rw [Ledger.joinedMovements, List.map_flatMap, List.flatMap_congr hone]
  simp

/-- A row of the timeline has the SKU of its movement, and the name of that SKU's client. -/
theorem of_mem_joined {r : MovementRecord} (hr : r ∈ db.joinedMovements) :
    r.sku ∈ db.skus.rows ∧ r.sku.place = (r.movement.skuId, r.movement.warehouse) ∧
      ∃ c ∈ db.clients, c.id = r.sku.clientId ∧ c.displayName = r.clientName := by
  obtain ⟨m, -, hr⟩ := List.mem_flatMap.1 hr
  obtain ⟨s, hs, hr⟩ := List.mem_flatMap.1 hr
  obtain ⟨c, hc, rfl⟩ := List.mem_map.1 hr
  obtain ⟨hs, hplace⟩ := List.mem_filter.1 hs
  obtain ⟨hc, hid⟩ := List.mem_filter.1 hc
  obtain ⟨hplace, hw⟩ := of_decide_eq_true hplace
  exact ⟨hs, Prod.ext hplace hw, c, hc, of_decide_eq_true hid, rfl⟩

/-- No two movements have one position. -/
theorem nodup_position (h : Joins db) : (db.movements.map Movement.position).Nodup := by
  rw [Ledger.movements, List.map_append, List.map_map, List.map_map]
  refine List.Nodup.append ?_ ?_ fun k hk hk' => ?_
  · refine List.Nodup.map_on (fun e he e' he' hk => ?_) (List.Nodup.of_map _ h.wellFormed.entryIds)
    exact List.inj_on_of_nodup_map h.wellFormed.entryIds he he'
      (congrArg (fun k : ℕᵒᵈ ×ₗ ℕ ×ₗ ℕᵒᵈ => OrderDual.ofDual (ofLex (ofLex k).2).2) hk)
  · refine List.Nodup.map_on (fun x hx x' hx' hk => ?_) (List.Nodup.of_map _ h.wellFormed.exitIds)
    exact List.inj_on_of_nodup_map h.wellFormed.exitIds hx hx'
      (congrArg (fun k : ℕᵒᵈ ×ₗ ℕ ×ₗ ℕᵒᵈ => OrderDual.ofDual (ofLex (ofLex k).2).2) hk)
  · -- the movement types differ
    obtain ⟨e, -, rfl⟩ := List.mem_map.1 hk
    obtain ⟨x, -, hk'⟩ := List.mem_map.1 hk'
    have hrank := congrArg (fun k : ℕᵒᵈ ×ₗ ℕ ×ₗ ℕᵒᵈ => (ofLex (ofLex k).2).1) hk'
    cases hrank

end Joins

/-! ## The pages -/

/-- The newer movement comes first; of one instant, receipts before exits, and each by id. -/
def Movement.Precedes (m m' : Movement) : Prop :=
  m'.createdAt < m.createdAt ∨ m.createdAt = m'.createdAt ∧
    (m.movementType.rank < m'.movementType.rank ∨
      m.movementType = m'.movementType ∧ m'.id < m.id)

theorem Movement.position_lt_iff {m m' : Movement} : m.position < m'.position ↔ m.Precedes m' := by
  have hrank : m.movementType.rank = m'.movementType.rank ↔ m.movementType = m'.movementType := by
    cases m.movementType <;> cases m'.movementType <;> simp [MovementType.rank]
  simp only [Movement.position, Movement.Precedes, Prod.Lex.toLex_lt_toLex,
    OrderDual.toDual_lt_toDual, OrderDual.toDual_inj, hrank]

/-- **The pages are a partition.**  Of any ledger that the inventory has come to, the timeline is
every movement once, newest first and by type and id among those of one instant; whatever the plans
of the queries, the first `n` pages are its beginning, a page is empty only behind its end, and
every page reports its length. -/
theorem movement_pages_partition (s : Retention)
    (h : Retention.inventory.Reachable (Retention.start [] .empty) s) (limit : ℕ) (hl : 0 < limit)
    (plan : ℕ → List MovementRecord) (hplan : ∀ k, (plan k).Perm s.db.joinedMovements) :
    ∃ timeline : List MovementRecord,
      ((timeline.map (·.movement)).Perm s.db.movements ∧ s.db.movements.Nodup ∧
        timeline.Pairwise fun r r' => r.movement.Precedes r'.movement) ∧
      (∀ r ∈ timeline, r.sku ∈ s.db.skus.rows ∧
        r.sku.place = (r.movement.skuId, r.movement.warehouse) ∧
          ∃ c ∈ s.db.clients, c.id = r.sku.clientId ∧ c.displayName = r.clientName) ∧
      (∀ n, (List.range n).flatMap (fun k => (s.db.listMovements (plan k) limit (k * limit)).1) =
        timeline.take (n * limit)) ∧
      (∀ n, (s.db.listMovements (plan n) limit (n * limit)).1 = [] ↔
        timeline.length ≤ n * limit) ∧
      ∀ n, (s.db.listMovements (plan n) limit (n * limit)).2 = timeline.length := by
  have hj := Joins.of_run h
  have hkeys : (s.db.joinedMovements.map fun r => r.movement.position).Nodup := by
    rw [← Function.comp_def Movement.position, ← List.map_map, hj.movements_joined]
    exact hj.nodup_position
  have hperm := perm_orderBy (fun r : MovementRecord => r.movement.position) s.db.joinedMovements
  -- no two rows tie, so the plan of a query does not show in what it returns
  have hpage (k : ℕ) : (s.db.listMovements (plan k) limit (k * limit)).1 =
      page limit (k * limit) (orderBy (fun r => r.movement.position) s.db.joinedMovements) := by
    rw [Ledger.listMovements, orderBy_eq_of_perm hkeys (hplan k)]
  refine ⟨orderBy (fun r => r.movement.position) s.db.joinedMovements, ⟨?_, ?_, ?_⟩, ?_, ?_, ?_, ?_⟩
  · -- the query joins twice, and sorts: both keep the movements
    exact (hperm.map _).trans (by rw [hj.movements_joined])
  · exact List.Nodup.of_map _ hj.nodup_position
  · exact (pairwise_lt_orderBy hkeys).imp Movement.position_lt_iff.1
  · exact fun r hr => Joins.of_mem_joined (hperm.mem_iff.1 hr)
  · intro n
    simp only [hpage]
    exact flatMap_page _ n
  · intro n
    rw [hpage]
    exact page_eq_nil_iff _ hl _
  · -- the total is of two counts over the tables, which do not join
    intro n
    have hlength := congrArg List.length hj.movements_joined
    rw [List.length_map] at hlength
    rw [hperm.length_eq, hlength, Ledger.movements, List.length_append, List.length_map,
      List.length_map]
    rfl

/-- A receipt and a dispatch with one id, at one instant. -/
def sameInstant : List InventoryLabel :=
  let now := Clock.afterEpoch (100 * day)
  [.createClient "Acme" "admin" 7,
    .createSku ⟨"Lamp", "LAMP-1", 7, .electronics, .LA, 0⟩ 3,
    .recordInbound ⟨3, 20, "PO-1", .LA, by decide⟩ "u-1" now 1,
    .recordOutbound ⟨3, 5, .dispatch, some "T-1", .LA, five_units_pos, dispatch_tracked _⟩ "u-1"
      now 1 1].map fun op => .upkeep (.retention (.op op))

/-- They fill two pages of one row. -/
theorem movement_pages_same_instant :
    ∃ s, Retention.inventory.Reachable (Retention.start [] .empty) s ∧
      (s.db.movements.map fun m => (m.id, m.movementType, m.createdAt)) =
        [(1, .inbound, beginningOfTime + 100 * day), (1, .outbound, beginningOfTime + 100 * day)] ∧
      ∃ timeline : List MovementRecord, (timeline.map (·.movement)).Perm s.db.movements ∧
        ∀ n, (List.range n).flatMap (fun k =>
          (s.db.listMovements s.db.joinedMovements.reverse 1 (k * 1)).1) =
            timeline.take (n * 1) := by
  obtain ⟨s, hs, hp⟩ := Retention.inventory.exists_reachable (Retention.start [] .empty)
    sameInstant
    (fun s => decide ((s.db.movements.map fun m => (m.id, m.movementType, m.createdAt)) =
      [(1, .inbound, beginningOfTime + 100 * day), (1, .outbound, beginningOfTime + 100 * day)]))
    (by decide)
  obtain ⟨timeline, ⟨hperm, -⟩, -, hpages, -⟩ := movement_pages_partition s hs 1 Nat.one_pos
    (fun _ => s.db.joinedMovements.reverse) fun _ => List.reverse_perm _
  exact ⟨s, hs, of_decide_eq_true hp, timeline, hperm, hpages⟩

end TrackFlow
