import TrackFlow.Inventory.Service

/-!
# Ledger operations and the integrity of the tables

`LedgerOp` is one call of the inventory service, with the clock reading and the identifiers it
gets.  `perform_eq_ok` says once what a successful call does to each table; every invariant of
the ledger is derived from it.

`WellFormed` collects the integrity constraints of the schema: primary keys, the foreign keys of
movements and events into `skus` and `stock_exits`, positive quantities.
-/

namespace TrackFlow

/-- A call of the inventory service. -/
inductive LedgerOp
  | createClient (displayName role : String) (id : UUID)
  | createSku (payload : SKUCreate) (id : ℕ)
  | updateSku (skuId : ℕ) (payload : SKUUpdate)
  | recordInbound (payload : StockEntryCreate) (userUuid : String) (now : Clock) (id : ℕ)
  | recordOutbound (payload : StockExitCreate) (userUuid : String) (now : Clock) (id eventId : ℕ)
  | recordDiscrepancy (payload : InventoryDiscrepancyCreate) (userUuid : Option String)
      (source : DiscrepancySource) (now : Clock) (id : ℕ)

namespace LedgerOp

/-- The call; a movement id that is in use violates the primary key. -/
def perform (db : Ledger) : LedgerOp → Except InventoryError Ledger
  | .createClient displayName role id => (db.createClient displayName role id).map Prod.fst
  | .createSku payload id => (db.createSku payload id).map Prod.fst
  | .updateSku skuId payload => db.updateSku skuId payload
  | .recordInbound payload userUuid now id =>
    if id ∈ db.stockEntries.map (·.id) then .error persistenceFailure
    else (db.recordInbound payload userUuid now id).map Prod.fst
  | .recordOutbound payload userUuid now id eventId =>
    if id ∈ db.stockExits.map (·.id) then .error persistenceFailure
    else (db.recordOutbound payload userUuid now id eventId).map Prod.fst
  | .recordDiscrepancy payload userUuid source now id =>
    (db.recordDiscrepancy payload userUuid source now id).map Prod.fst

/-- The receipts the call records. -/
def entries : LedgerOp → List StockEntry
  | .recordInbound payload userUuid now id => [Ledger.newEntry payload userUuid now id]
  | _ => []

/-- The exits the call records. -/
def exits : LedgerOp → List StockExit
  | .recordOutbound payload userUuid now id _ => [Ledger.newExit payload userUuid now id]
  | _ => []

/-- The clock reading of a movement. -/
def movementTime : LedgerOp → Option ℕ
  | .recordInbound _ _ now _ => some now.instant
  | .recordOutbound _ _ now _ _ => some now.instant
  | _ => none

end LedgerOp

/-- The SKUs behind an update of a threshold. -/
theorem Ledger.getSku_setThreshold (db : Ledger) (skuId threshold k : ℕ) :
    (db.setThreshold skuId threshold).getSku k = (db.getSku k).map fun s =>
      if s.id = skuId then { s with minStockThreshold := threshold } else s := by
  refine Table.lookup_update db.skus (fun s =>
    if s.id = skuId then { s with minStockThreshold := threshold } else s) (fun s => ?_) k
  split_ifs <;> rfl

/-- The rows of `skus` in `db'` include those of `db`, with their places and clients. -/
def SkusKept (db db' : Ledger) : Prop :=
  ∀ s ∈ db.skus.rows, ∃ s' ∈ db'.skus.rows, s'.place = s.place ∧ s'.clientId = s.clientId

theorem SkusKept.of_eq {db db' : Ledger} (h : db'.skus = db.skus) : SkusKept db db' :=
  fun s hs => ⟨s, h ▸ hs, rfl, rfl⟩

/-- What a successful call does. -/
structure Performed (op : LedgerOp) (db db' : Ledger) : Prop where
  entries : db'.stockEntries = db.stockEntries ++ op.entries
  exits : db'.stockExits = db.stockExits ++ op.exits
  stockouts : ∃ vs, db'.stockoutEvents = db.stockoutEvents ++ vs ∧
    ∀ v ∈ vs, ∃ x ∈ op.exits, ∃ s ∈ db.skus.rows, v.stockExitId = x.id ∧
      v.occurredAt = x.createdAt ∧
      s.place = (v.skuId, v.warehouse) ∧ s.clientId = v.clientId
  discrepancies : ∃ ds, db'.inventoryDiscrepancies = db.inventoryDiscrepancies ++ ds ∧
    ∀ d ∈ ds, ∃ x ∈ db.stockExits, ∃ s ∈ db.skus.rows, d.stockExitId = x.id ∧
      x.exitType = .dispatch ∧ x.place = (d.skuId, d.warehouse) ∧
      s.place = (d.skuId, d.warehouse) ∧ s.clientId = d.clientId
  skus : SkusKept db db'
  checkpoints : db'.stockLedgerCheckpoints = db.stockLedgerCheckpoints
  entryPlace : ∀ e ∈ op.entries, e.id ∉ db.stockEntries.map (·.id) ∧ 0 < e.quantity ∧
    ∃ s ∈ db.skus.rows, s.place = e.place
  exitPlace : ∀ x ∈ op.exits, x.id ∉ db.stockExits.map (·.id) ∧ 0 < x.quantity ∧
    ∃ s ∈ db.skus.rows, s.place = x.place
  balance : ∀ k, db'.storedBalance k =
    db.storedBalance k + netQuantity op.entries op.exits (fun _ => true) k

namespace LedgerOp

variable {db db' : Ledger}

/-- What does not concern movements leaves the movement tables alone. -/
theorem performed_of_same {op : LedgerOp} (he : op.entries = []) (hx : op.exits = [])
    (h1 : db'.stockEntries = db.stockEntries) (h2 : db'.stockExits = db.stockExits)
    (h3 : db'.stockoutEvents = db.stockoutEvents)
    (h4 : db'.inventoryDiscrepancies = db.inventoryDiscrepancies) (h5 : SkusKept db db')
    (h6 : db'.stockLedgerCheckpoints = db.stockLedgerCheckpoints)
    (h7 : db'.stockBalances = db.stockBalances) : Performed op db db' where
  entries := by simp [he, h1]
  exits := by simp [hx, h2]
  stockouts := ⟨[], by simp [h3], by simp⟩
  discrepancies := ⟨[], by simp [h4], by simp⟩
  skus := h5
  checkpoints := h6
  entryPlace := by simp [he]
  exitPlace := by simp [hx]
  balance k := by simp [he, hx, netQuantity, Ledger.storedBalance, h7]

theorem createSku_skusKept {payload : SKUCreate} {id : ℕ} {sku : SKU}
    (h : db.createSku payload id = .ok (db', sku)) :
    SkusKept db db' ∧ ∃ skus, db' = { db with skus := skus } := by
  unfold Ledger.createSku at h
  split_ifs at h
  simp only at h
  split at h
  · cases h
  · rename_i skus hi
    cases h
    obtain ⟨-, hrows⟩ := Table.insert_eq_some hi
    refine ⟨fun s hs => ⟨s, ?_, rfl, rfl⟩, _, rfl⟩
    simp [hrows, hs]

theorem updateSku_skusKept {skuId : ℕ} {payload : SKUUpdate}
    (h : db.updateSku skuId payload = .ok db') :
    SkusKept db db' ∧ ∃ skus, db' = { db with skus := skus } := by
  unfold Ledger.updateSku at h
  split at h
  · cases h
  · split_ifs at h
    split at h
    · cases h
      exact ⟨SkusKept.of_eq rfl, _, rfl⟩
    · split_ifs at h
      cases h
      refine ⟨fun s hs => ⟨_, List.mem_map_of_mem hs, ?_, ?_⟩, _, rfl⟩ <;> split_ifs <;> rfl

theorem createClient_eq {displayName role : String} {id : UUID} {c : Client}
    (h : db.createClient displayName role id = .ok (db', c)) :
    ∃ clients, db' = { db with clients := clients } := by
  unfold Ledger.createClient at h
  split_ifs at h
  cases h
  exact ⟨_, rfl⟩

/-- A recorded discrepancy belongs to a dispatch and to the client of its SKU. -/
theorem recordDiscrepancy_eq_ok {payload : InventoryDiscrepancyCreate} {userUuid : Option String}
    {source : DiscrepancySource} {now : Clock} {id : ℕ} {d : InventoryDiscrepancy}
    (h : db.recordDiscrepancy payload userUuid source now id = .ok (db', d)) :
    db' = db.addDiscrepancy d ∧ d.detectedAt = now.instant ∧
      db.discrepancyExists d.stockExitId = false ∧
      ∃ x ∈ db.stockExits, ∃ s ∈ db.skus.rows, d.stockExitId = x.id ∧ x.exitType = .dispatch ∧
        x.place = (d.skuId, d.warehouse) ∧ s.place = (d.skuId, d.warehouse) ∧
        s.clientId = d.clientId := by
  unfold Ledger.recordDiscrepancy at h
  split at h
  · cases h
  rename_i x hx
  split at h
  · cases h
  rename_i htype
  split at h
  · cases h
  rename_i hnew
  split at h
  · cases h
  rename_i s hs
  split at h
  · cases h
  rename_i hw
  split at h
  · cases h
  cases h
  obtain ⟨hxm, hxid⟩ := Ledger.getExit_eq_some hx
  obtain ⟨hsm, hsid⟩ := Ledger.getSku_eq_some hs
  refine ⟨rfl, rfl, by simpa using hnew, x, hxm, s, hsm, hxid.symm, not_not.1 htype, rfl, ?_, rfl⟩
  simp [SKU.place, hsid, not_not.1 hw]

theorem netQuantity_singleton_entry (e : StockEntry) (k : Place) :
    netQuantity [e] [] (fun _ => true) k = if e.place = k then (e.quantity : ℤ) else 0 := by
  simp [netQuantity]

theorem netQuantity_singleton_exit (x : StockExit) (k : Place) :
    netQuantity [] [x] (fun _ => true) k = if x.place = k then -(x.quantity : ℤ) else 0 := by
  simp [netQuantity]
  split_ifs <;> simp

theorem performed_recordInbound {payload : StockEntryCreate} {userUuid : String} {now : Clock}
    {id : ℕ} {e : StockEntry} (hid : id ∉ db.stockEntries.map (·.id))
    (h : db.recordInbound payload userUuid now id = .ok (db', e)) :
    Performed (.recordInbound payload userUuid now id) db db' := by
  obtain ⟨sku, hs, hw, rfl, -, rfl⟩ := Ledger.recordInbound_eq_ok h
  obtain ⟨hsm, hsid⟩ := Ledger.getSku_eq_some hs
  exact {
    entries := rfl
    exits := (List.append_nil _).symm
    stockouts := ⟨[], (List.append_nil _).symm, by simp⟩
    discrepancies := ⟨[], (List.append_nil _).symm, by simp⟩
    skus := SkusKept.of_eq rfl
    checkpoints := rfl
    entryPlace := by
      simp only [entries, List.forall_mem_singleton]
      exact ⟨hid, payload.quantity_pos, sku, hsm, by simp [Ledger.newEntry, SKU.place, hsid, hw]⟩
    exitPlace := by simp [exits]
    balance := fun k => by
      simp only [entries, exits, netQuantity_singleton_entry, Ledger.storedBalance_addEntry,
        Ledger.storedBalance_setBalance, Ledger.newEntry]
      split_ifs with hk
      · rw [← hk]
      · simp }

theorem performed_recordOutbound {payload : StockExitCreate} {userUuid : String} {now : Clock}
    {id eventId : ℕ} {x : StockExit} (hid : id ∉ db.stockExits.map (·.id))
    (h : db.recordOutbound payload userUuid now id eventId = .ok (db', x)) :
    Performed (.recordOutbound payload userUuid now id eventId) db db' := by
  obtain ⟨sku, hs, hw, rfl, -, rfl⟩ := Ledger.recordOutbound_eq_ok h
  obtain ⟨hsm, hsid⟩ := Ledger.getSku_eq_some hs
  have hplace : sku.place = (payload.skuId, payload.warehouse) := by simp [SKU.place, hsid, hw]
  exact {
    entries := by simp [entries, Ledger.addExit, Ledger.setBalance]
    exits := by simp [exits, Ledger.addExit, Ledger.setBalance]
    stockouts := by
      cases hd : Ledger.stockoutDue sku (Ledger.newExit payload userUuid now id)
          (db.currentStock payload.skuId payload.warehouse) eventId with
      | none => exact ⟨[], (List.append_nil _).symm, by simp⟩
      | some v =>
        obtain ⟨-, rfl⟩ := Ledger.stockoutDue_eq_some hd
        refine ⟨[_], rfl, ?_⟩
        simp only [List.forall_mem_singleton, exits]
        exact ⟨_, List.mem_singleton_self _, sku, hsm, rfl, rfl, hplace, rfl⟩
    discrepancies := ⟨[],
      by rw [Ledger.inventoryDiscrepancies_addDueStockout, List.append_nil]; rfl,
      by simp⟩
    skus := SkusKept.of_eq (Ledger.skus_addDueStockout _)
    checkpoints := Ledger.stockLedgerCheckpoints_addDueStockout _
    entryPlace := by simp [entries]
    exitPlace := by
      simp only [exits, List.forall_mem_singleton]
      exact ⟨hid, payload.quantity_pos, sku, hsm, hplace⟩
    balance := fun k => by
      rw [Ledger.storedBalance_addDueStockout]
      simp only [entries, exits, netQuantity_singleton_exit, Ledger.storedBalance_addExit,
        Ledger.storedBalance_setBalance, Ledger.newExit]
      split_ifs with hk
      · rw [← hk]; rfl
      · simp }

/-- **What a successful call does to the tables.** -/
theorem perform_eq_ok {op : LedgerOp} (h : op.perform db = .ok db') : Performed op db db' := by
  cases op with
  | createClient displayName role id =>
    obtain ⟨⟨db₁, c⟩, hr, rfl⟩ := Ledger.except_map_eq_ok_iff.1 h
    obtain ⟨clients, rfl⟩ := createClient_eq hr
    exact performed_of_same rfl rfl rfl rfl rfl rfl (SkusKept.of_eq rfl) rfl rfl
  | createSku payload id =>
    obtain ⟨⟨db₁, s⟩, hr, rfl⟩ := Ledger.except_map_eq_ok_iff.1 h
    obtain ⟨hk, skus, rfl⟩ := createSku_skusKept hr
    exact performed_of_same rfl rfl rfl rfl rfl rfl hk rfl rfl
  | updateSku skuId payload =>
    obtain ⟨hk, skus, rfl⟩ := updateSku_skusKept h
    exact performed_of_same rfl rfl rfl rfl rfl rfl hk rfl rfl
  | recordInbound payload userUuid now id =>
    simp only [perform] at h
    split_ifs at h with hid
    obtain ⟨⟨db₁, e⟩, hr, rfl⟩ := Ledger.except_map_eq_ok_iff.1 h
    exact performed_recordInbound hid hr
  | recordOutbound payload userUuid now id eventId =>
    simp only [perform] at h
    split_ifs at h with hid
    obtain ⟨⟨db₁, x⟩, hr, rfl⟩ := Ledger.except_map_eq_ok_iff.1 h
    exact performed_recordOutbound hid hr
  | recordDiscrepancy payload userUuid source now id =>
    obtain ⟨⟨db₁, d⟩, hr, rfl⟩ := Ledger.except_map_eq_ok_iff.1 h
    obtain ⟨rfl, -, -, x, hx, s, hs, hd⟩ := recordDiscrepancy_eq_ok hr
    exact {
      entries := (List.append_nil _).symm
      exits := (List.append_nil _).symm
      stockouts := ⟨[], (List.append_nil _).symm, by simp⟩
      discrepancies := ⟨[d], rfl, by
        simp only [List.forall_mem_singleton]
        exact ⟨x, hx, s, hs, hd⟩⟩
      skus := SkusKept.of_eq rfl
      checkpoints := rfl
      entryPlace := by simp [entries]
      exitPlace := by simp [exits]
      balance := fun k => by simp [entries, exits, netQuantity]; rfl }

end LedgerOp

/-! ### Integrity -/

/-- The integrity constraints of the inventory tables. -/
structure WellFormed (db : Ledger) : Prop where
  entryIds : (db.stockEntries.map (·.id)).Nodup
  exitIds : (db.stockExits.map (·.id)).Nodup
  entrySku : ∀ e ∈ db.stockEntries, 0 < e.quantity ∧ ∃ s ∈ db.skus.rows, s.place = e.place
  exitSku : ∀ x ∈ db.stockExits, 0 < x.quantity ∧ ∃ s ∈ db.skus.rows, s.place = x.place
  stockoutSku : ∀ v ∈ db.stockoutEvents, ∃ s ∈ db.skus.rows,
    s.place = (v.skuId, v.warehouse) ∧ s.clientId = v.clientId
  stockoutExit : ∀ v ∈ db.stockoutEvents, ∃ x ∈ db.stockExits,
    v.stockExitId = x.id ∧ v.occurredAt = x.createdAt
  discrepancySku : ∀ d ∈ db.inventoryDiscrepancies, ∃ s ∈ db.skus.rows,
    s.place = (d.skuId, d.warehouse) ∧ s.clientId = d.clientId
  discrepancyExit : ∀ d ∈ db.inventoryDiscrepancies, ∃ x ∈ db.stockExits,
    d.stockExitId = x.id ∧ x.exitType = .dispatch ∧ x.place = (d.skuId, d.warehouse)

theorem wellFormed_empty : WellFormed Ledger.empty := by
  constructor <;> simp [Ledger.empty]

/-- Rows that refer to a SKU still do when the SKUs are kept. -/
theorem SkusKept.lift {db db' : Ledger} (h : SkusKept db db') {k : Place} {c : UUID}
    (hs : ∃ s ∈ db.skus.rows, s.place = k ∧ s.clientId = c) :
    ∃ s ∈ db'.skus.rows, s.place = k ∧ s.clientId = c := by
  obtain ⟨s, hs, rfl, rfl⟩ := hs
  exact h s hs

theorem SkusKept.lift_place {db db' : Ledger} (h : SkusKept db db') {k : Place}
    (hs : ∃ s ∈ db.skus.rows, s.place = k) : ∃ s ∈ db'.skus.rows, s.place = k := by
  obtain ⟨s, hs, rfl⟩ := hs
  obtain ⟨s', hs', hp, -⟩ := h s hs
  exact ⟨s', hs', hp⟩

/-- Every call keeps the integrity constraints. -/
theorem WellFormed.perform {db db' : Ledger} {op : LedgerOp} (h : WellFormed db)
    (hop : op.perform db = .ok db') : WellFormed db' := by
  have hp := LedgerOp.perform_eq_ok hop
  obtain ⟨vs, hvs, hv⟩ := hp.stockouts
  obtain ⟨ds, hds, hd⟩ := hp.discrepancies
  constructor
  · rw [hp.entries, List.map_append]
    refine List.Nodup.append h.entryIds (by cases op <;> simp [LedgerOp.entries]) ?_
    intro i hi hi'
    obtain ⟨e, he, rfl⟩ := List.mem_map.1 hi'
    exact (hp.entryPlace e he).1 hi
  · rw [hp.exits, List.map_append]
    refine List.Nodup.append h.exitIds (by cases op <;> simp [LedgerOp.exits]) ?_
    intro i hi hi'
    obtain ⟨x, hx, rfl⟩ := List.mem_map.1 hi'
    exact (hp.exitPlace x hx).1 hi
  · rw [hp.entries]
    intro e he
    rcases List.mem_append.1 he with he | he
    · exact ⟨(h.entrySku e he).1, hp.skus.lift_place (h.entrySku e he).2⟩
    · exact ⟨(hp.entryPlace e he).2.1, hp.skus.lift_place (hp.entryPlace e he).2.2⟩
  · rw [hp.exits]
    intro x hx
    rcases List.mem_append.1 hx with hx | hx
    · exact ⟨(h.exitSku x hx).1, hp.skus.lift_place (h.exitSku x hx).2⟩
    · exact ⟨(hp.exitPlace x hx).2.1, hp.skus.lift_place (hp.exitPlace x hx).2.2⟩
  · rw [hvs]
    intro v hvm
    rcases List.mem_append.1 hvm with hvm | hvm
    · exact hp.skus.lift (h.stockoutSku v hvm)
    · obtain ⟨x, -, s, hs, -, -, hsp⟩ := hv v hvm
      exact hp.skus.lift ⟨s, hs, hsp⟩
  · rw [hvs, hp.exits]
    intro v hvm
    rcases List.mem_append.1 hvm with hvm | hvm
    · obtain ⟨x, hx, hxv⟩ := h.stockoutExit v hvm
      exact ⟨x, List.mem_append_left _ hx, hxv⟩
    · obtain ⟨x, hx, s, -, h1, h2, -⟩ := hv v hvm
      exact ⟨x, List.mem_append_right _ hx, h1, h2⟩
  · rw [hds]
    intro d hdm
    rcases List.mem_append.1 hdm with hdm | hdm
    · exact hp.skus.lift (h.discrepancySku d hdm)
    · obtain ⟨x, -, s, hs, -, -, -, hsp⟩ := hd d hdm
      exact hp.skus.lift ⟨s, hs, hsp⟩
  · rw [hds, hp.exits]
    intro d hdm
    rcases List.mem_append.1 hdm with hdm | hdm
    · obtain ⟨x, hx, hxd⟩ := h.discrepancyExit d hdm
      exact ⟨x, List.mem_append_left _ hx, hxd⟩
    · obtain ⟨x, hx, s, -, h1, h2, h3, -⟩ := hd d hdm
      exact ⟨x, List.mem_append_left _ hx, h1, h2, h3⟩

/-- The foreign key of `skus` into `clients`. -/
def ClientsExist (db : Ledger) : Prop := ∀ s ∈ db.skus.rows, ∃ c ∈ db.clients, c.id = s.clientId

theorem clientsExist_empty : ClientsExist Ledger.empty := by
  simp [ClientsExist, Ledger.empty]

theorem ClientsExist.createSku {db db' : Ledger} {payload : SKUCreate} {id : ℕ} {sku : SKU}
    (h : ClientsExist db) (hc : db.createSku payload id = .ok (db', sku)) : ClientsExist db' := by
  unfold Ledger.createSku at hc
  split_ifs at hc with hnone
  simp only at hc
  split at hc
  · cases hc
  · rename_i skus hi
    cases hc
    obtain ⟨-, hrows⟩ := Table.insert_eq_some hi
    intro s hs
    rw [hrows, List.mem_append, List.mem_singleton] at hs
    rcases hs with hs | rfl
    · exact h s hs
    · obtain ⟨c, hget⟩ : ∃ c, db.getClient payload.clientId = some c := by
        cases hg : db.getClient payload.clientId with
        | none => simp [hg] at hnone
        | some c => exact ⟨c, rfl⟩
      unfold Ledger.getClient at hget
      exact ⟨c, List.mem_of_find?_eq_some hget, by simpa using List.find?_some hget⟩

theorem ClientsExist.updateSku {db db' : Ledger} {skuId : ℕ} {payload : SKUUpdate}
    (h : ClientsExist db) (hu : db.updateSku skuId payload = .ok db') : ClientsExist db' := by
  unfold Ledger.updateSku at hu
  split at hu
  · cases hu
  · split_ifs at hu
    split at hu
    · cases hu
      exact h
    · split_ifs at hu
      cases hu
      intro s hs
      obtain ⟨s₀, hs₀, rfl⟩ := List.mem_map.1 hs
      obtain ⟨c, hc, hid⟩ := h s₀ hs₀
      refine ⟨c, hc, ?_⟩
      split_ifs <;> exact hid

/-- A service call keeps the clients of the SKUs. -/
theorem ClientsExist.perform {db db' : Ledger} {op : LedgerOp} (h : ClientsExist db)
    (hp : op.perform db = .ok db') : ClientsExist db' := by
  have hsame {db₁ : Ledger} (hs : db₁.skus = db.skus) (hc : db₁.clients = db.clients) :
      ClientsExist db₁ := by
    rw [ClientsExist, hs, hc]
    exact h
  cases op with
  | createClient displayName role id =>
    obtain ⟨⟨db₁, c⟩, hr, rfl⟩ := Ledger.except_map_eq_ok_iff.1 hp
    unfold Ledger.createClient at hr
    split_ifs at hr
    cases hr
    intro s hs
    obtain ⟨c, hc, hid⟩ := h s hs
    exact ⟨c, List.mem_append_left _ hc, hid⟩
  | createSku payload id =>
    obtain ⟨⟨db₁, s⟩, hr, rfl⟩ := Ledger.except_map_eq_ok_iff.1 hp
    exact h.createSku hr
  | updateSku skuId payload => exact h.updateSku hp
  | recordInbound payload userUuid now id =>
    simp only [LedgerOp.perform] at hp
    split_ifs at hp
    obtain ⟨⟨db₁, e⟩, hr, rfl⟩ := Ledger.except_map_eq_ok_iff.1 hp
    obtain ⟨sku, hs, hw, rfl, -, rfl⟩ := Ledger.recordInbound_eq_ok hr
    exact hsame rfl rfl
  | recordOutbound payload userUuid now id eventId =>
    simp only [LedgerOp.perform] at hp
    split_ifs at hp
    obtain ⟨⟨db₁, x⟩, hr, rfl⟩ := Ledger.except_map_eq_ok_iff.1 hp
    obtain ⟨sku, hs, hw, rfl, -, rfl⟩ := Ledger.recordOutbound_eq_ok hr
    exact hsame (Ledger.skus_addDueStockout _) (Ledger.clients_addDueStockout _)
  | recordDiscrepancy payload userUuid source now id =>
    obtain ⟨⟨db₁, d⟩, hr, rfl⟩ := Ledger.except_map_eq_ok_iff.1 hp
    obtain ⟨rfl, -⟩ := LedgerOp.recordDiscrepancy_eq_ok hr
    exact hsame rfl rfl

end TrackFlow
