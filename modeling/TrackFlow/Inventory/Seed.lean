import TrackFlow.Inventory.Balances
import TrackFlow.Inventory.Operations
import TrackFlow.Python.Raise

/-!
# Seeding and backfilling the ledger

`seed_inventory` of `central_api/domains/inventory/seed.py` and `backfill_history` of
`scripts/operations_feed.py`, which refill the ledger after a reset.  Both write movements with
past instants directly, not through the service, and re-derive the balances in the same
transaction.

What the program draws at random, and the identifiers it generates, are arguments: a
`BackfillDay` is what one SKU gets on one day.  `Reseeded` says what both leave alone.
-/

namespace TrackFlow

/-! ## Fixtures -/

/-- `SKUSeed`. -/
structure SKUSeed where
  name : String
  sku : String
  clientName : String
  category : Category
  warehouse : Warehouse

/-- `EntrySeed`. -/
structure EntrySeed where
  sku : String
  warehouse : Warehouse
  quantity : {q : ℕ // 0 < q}
  reference : String
  createdAt : ℕ

/-- `ExitSeed`. -/
structure ExitSeed where
  sku : String
  warehouse : Warehouse
  quantity : {q : ℕ // 0 < q}
  exitType : ExitType
  trackingNumber : Option String
  createdAt : ℕ

/-- `SKU_SEEDS`. -/
def skuSeeds : List SKUSeed :=
  [⟨"Classic White Sneaker - Size 42", "CLT-SNK-W-42", "PureStep Footwear", .fashion, .LA⟩,
    ⟨"Classic White Sneaker - Size 42", "CLT-SNK-W-42-Z", "PureStep Footwear", .fashion, .ZGZ⟩,
    ⟨"Wireless Earbuds Pro", "TEC-EAR-001", "SoundWave Electronics", .electronics, .LA⟩,
    ⟨"Hydrating Face Serum 30ml", "CSM-SRM-030", "GlowLab Cosmetics", .cosmetics, .ZGZ⟩,
    ⟨"Slim Fit Chino - Navy 32/32", "CLT-CHN-N-32", "UrbanThread", .fashion, .LA⟩,
    ⟨"USB-C Fast Charger 65W", "TEC-CHG-065", "SoundWave Electronics", .electronics, .ZGZ⟩]

/-- The instant of a day of June 2024, whose first day is the 738,885 + 152nd after the origin. -/
def june2024 (dayOfMonth hours minutes : ℕ) : ℕ :=
  (739036 + dayOfMonth) * day + hours * hour + minutes * (60 * second)

/-- `ENTRY_SEEDS`. -/
def entrySeeds : List EntrySeed :=
  [⟨"CLT-SNK-W-42", .LA, ⟨50, by decide⟩, "PO-2024-0098", june2024 3 14 0⟩,
    ⟨"CLT-SNK-W-42", .LA, ⟨25, by decide⟩, "GR-LA-0234", june2024 10 16 30⟩,
    ⟨"CLT-SNK-W-42-Z", .ZGZ, ⟨40, by decide⟩, "PO-2024-0112", june2024 5 9 0⟩,
    ⟨"TEC-EAR-001", .LA, ⟨30, by decide⟩, "GR-LA-0241", june2024 7 11 15⟩]

/-- `EXIT_SEEDS`. -/
def exitSeeds : List ExitSeed :=
  [⟨"CLT-SNK-W-42", .LA, ⟨10, by decide⟩, .dispatch, some "1Z999AA10123456784", june2024 12 15 0⟩,
    ⟨"CLT-SNK-W-42", .LA, ⟨2, Nat.two_pos⟩, .loss, none, june2024 13 17 45⟩,
    ⟨"CLT-SNK-W-42-Z", .ZGZ, ⟨5, five_units_pos⟩, .dispatch, some "ES1234567890",
      june2024 14 10 20⟩]

/-- `sorted({item.client_name for item in SKU_SEEDS})`. -/
def seedClientNames : List String :=
  ["GlowLab Cosmetics", "PureStep Footwear", "SoundWave Electronics", "UrbanThread"]

/-- Why a seed fails. -/
inductive SeedError
  /-- `SeedConflictError`. -/
  | conflict (message : String)
  /-- A constraint of the database is violated. -/
  | integrity
  /-- `MultipleResultsFound`. -/
  | multipleResults
  /-- `OverflowError`: a date before the year 1. -/
  | overflow
  /-- The balances cannot be re-derived. -/
  | checkpoint (error : LedgerCheckpointError)
  deriving DecidableEq, Repr

/-- The identifiers that the seed draws. -/
structure SeedIds where
  client : String → UUID
  sku : String → ℕ

/-- What the backfill draws for one dispatch or loss: the quantity is one of
`1 .. max(1, available // 2)`, chosen by `choice`. -/
structure BackfillExit where
  choice : ℕ
  isLoss : Bool
  trackingNumber : String
  hourOfDay : ℕ
  hour_mem : 11 ≤ hourOfDay ∧ hourOfDay ≤ 20

/-- What the backfill draws for one SKU on one day. -/
structure BackfillDay where
  receipt : ℕ
  receipt_mem : 20 ≤ receipt ∧ receipt ≤ 60
  hourOfDay : ℕ
  hour_mem : 6 ≤ hourOfDay ∧ hourOfDay ≤ 10
  exits : List BackfillExit
  exits_length : 1 ≤ exits.length ∧ exits.length ≤ 3

/-- The next value of a sequence that has produced these identifiers. -/
def nextId (ids : List ℕ) : ℕ := ids.foldl max 0 + 1

/-- `day.replace(hour=...)`. -/
def replaceHour (instant hourOfDay : ℕ) : ℕ :=
  floorTo day instant + hourOfDay * hour + instant % hour

/-- `scalar_one_or_none` on the rows of a query. -/
def scalarOneOrNone {ρ : Type} : List ρ → Except SeedError (Option ρ)
  | [] => .ok none
  | [row] => .ok (some row)
  | _ => .error .multipleResults

namespace Ledger

variable (db : Ledger)

/-! ## The seed -/

/-- One round of `_ensure_clients`. -/
def ensureClient (ids : SeedIds) (name : String) : Except SeedError Ledger :=
  if db.clients.any fun c => decide (c.displayName = name) then .ok db
  else if ids.client name ∈ db.clients.map (·.id) then .error .integrity
  else .ok { db with clients := db.clients ++ [⟨ids.client name, name⟩] }

/-- `_find_sku`. -/
def findSku (sku : String) (warehouse : Warehouse) : Option SKU :=
  db.skus.rows.find? fun s => decide (s.sku = sku ∧ s.warehouse = warehouse)

/-- One round of `_ensure_skus`. -/
def ensureSku (ids : SeedIds) (item : SKUSeed) : Except SeedError Ledger :=
  match db.clients.find? fun c => decide (c.displayName = item.clientName) with
  | none => .error .integrity
  | some client =>
    match db.findSku item.sku item.warehouse with
    | some existing =>
      if existing.name = item.name ∧ existing.clientId = client.id ∧
          existing.category = item.category ∧ existing.minStockThreshold = 0 then .ok db
      else .error (.conflict ("Seed SKU '" ++ item.sku ++ "' conflicts with existing data"))
    | none =>
      match db.skus.insert ⟨ids.sku item.sku, item.name, item.sku, client.id, 0, item.category,
        item.warehouse⟩ with
      | none => .error .integrity
      | some skus => .ok { db with skus := skus }

/-- The receipts that carry the identity of a seeded one: its reference and instant. -/
def seededEntries (sku : SKU) (item : EntrySeed) : List StockEntry :=
  db.stockEntries.filter fun e => decide (e.skuId = sku.id ∧ e.warehouse = item.warehouse ∧
    e.reference = item.reference ∧ e.createdAt = item.createdAt)

/-- One round of `_ensure_entries`: a movement with the same reference and instant is kept. -/
def ensureEntry (userUuid : String) (item : EntrySeed) : Except SeedError Ledger :=
  match db.findSku item.sku item.warehouse with
  | none => .error .integrity
  | some sku =>
    match scalarOneOrNone (db.seededEntries sku item) with
    | .error e => .error e
    | .ok (some existing) =>
      if existing.quantity = item.quantity.1 then .ok db
      else .error (.conflict ("Seed entry '" ++ item.reference ++ "' conflicts with existing data"))
    | .ok none => .ok (db.addEntry ⟨nextId (db.stockEntries.map (·.id)), sku.id, item.quantity.1,
        item.reference, item.warehouse, item.createdAt, userUuid⟩)

/-- The exits that carry the identity of a seeded one: its instant. -/
def seededExits (sku : SKU) (item : ExitSeed) : List StockExit :=
  db.stockExits.filter fun x => decide (x.skuId = sku.id ∧ x.warehouse = item.warehouse ∧
    x.createdAt = item.createdAt)

/-- One round of `_ensure_exits`, which checks the available stock. -/
def ensureExit (userUuid : String) (item : ExitSeed) : Except SeedError Ledger :=
  match db.findSku item.sku item.warehouse with
  | none => .error .integrity
  | some sku =>
    match scalarOneOrNone (db.seededExits sku item) with
    | .error e => .error e
    | .ok (some existing) =>
      if existing.quantity = item.quantity.1 ∧ existing.exitType = item.exitType ∧
          existing.trackingNumber = item.trackingNumber then .ok db
      else .error (.conflict ("Seed exit for '" ++ item.sku ++ "' conflicts with existing data"))
    | .ok none =>
      if db.ledgerBalance (sku.id, item.warehouse) < item.quantity.1 then
        .error (.conflict ("Seed exit for '" ++ item.sku ++ "' would make stock negative"))
      else .ok (db.addExit ⟨nextId (db.stockExits.map (·.id)), sku.id, item.quantity.1,
          item.exitType, item.trackingNumber, item.warehouse, item.createdAt, userUuid⟩)

/-- The balances re-derived at the end of a transaction. -/
def rederived (db : Ledger) : Except SeedError Ledger :=
  match db.rebuildStockBalances with
  | .error e => .error (.checkpoint e)
  | .ok (db', _) => .ok db'

/-- `seed_inventory`. -/
def seedInventory (ids : SeedIds) (userUuid : String) : Except SeedError Ledger := do
  let db ← seedClientNames.foldlM (fun db name => db.ensureClient ids name) db
  let db ← skuSeeds.foldlM (fun db item => db.ensureSku ids item) db
  let db ← entrySeeds.foldlM (fun db item => db.ensureEntry userUuid item) db
  let db ← exitSeeds.foldlM (fun db item => db.ensureExit userUuid item) db
  db.rederived

/-! ## The backfill -/

/-- The running balances of the backfill, next to the ledger. -/
abbrev Backfill := Ledger × (Place → ℕ)

/-- One receipt of the backfill. -/
def backfillEntry (reference : String) (userUuid : String) (instant : ℕ) (sku : SKU)
    (draw : BackfillDay) (b : Backfill) : Backfill :=
  (b.1.addEntry ⟨nextId (b.1.stockEntries.map (·.id)), sku.id, draw.receipt, reference,
      sku.warehouse, replaceHour instant draw.hourOfDay, userUuid⟩,
    Function.update b.2 sku.place (b.2 sku.place + draw.receipt))

/-- One dispatch or loss of the backfill. -/
def backfillExit (userUuid : String) (instant : ℕ) (sku : SKU) (draw : BackfillExit)
    (b : Backfill) : Backfill :=
  let available := b.2 sku.place
  let quantity := 1 + draw.choice % max 1 (available / 2)
  (b.1.addExit ⟨nextId (b.1.stockExits.map (·.id)), sku.id, quantity,
      if draw.isLoss then .loss else .dispatch,
      if draw.isLoss then none else some draw.trackingNumber, sku.warehouse,
      replaceHour instant draw.hourOfDay, userUuid⟩,
    Function.update b.2 sku.place (available - quantity))

/-- The dispatches and losses of one SKU on one day, while there is stock. -/
def backfillExits (userUuid : String) (instant : ℕ) (sku : SKU) :
    List BackfillExit → Backfill → Backfill
  | [], b => b
  | draw :: draws, b =>
    if b.2 sku.place = 0 then b
    else backfillExits userUuid instant sku draws (backfillExit userUuid instant sku draw b)

/-- The offsets of `range(days, 0, -1)`. -/
def dayOffsets (days : ℕ) : List ℕ := (List.range days).reverse.map (· + 1)

/-- The movements of one SKU on the day `offset` days before `now`. -/
def backfillSku (isoformat : ℕ → String) (draws : ℕ → SKU → BackfillDay) (userUuid : String)
    (now offset : ℕ) (b : Backfill) (sku : SKU) : Backfill :=
  let instant := now - offset * day
  let draw := draws offset sku
  backfillExits userUuid instant sku draw.exits
    (backfillEntry ("FEED-" ++ isoformat (floorTo day instant) ++ "-" ++ toString sku.id) userUuid
      instant sku draw b)

/-- `backfill_history`. -/
def backfillHistory (isoformat : ℕ → String) (draws : ℕ → SKU → BackfillDay) (userUuid : String)
    (now days : ℕ) : Except SeedError Ledger :=
  if db.skus.rows = [] then .ok db
  -- `now - timedelta(days=days)`
  else if now < days * day then .error .overflow
  else
    let b : Backfill := (dayOffsets days).foldl
      (fun b offset => db.skus.rows.foldl (backfillSku isoformat draws userUuid now offset) b)
      (db, fun _ => 0)
    Ledger.rederived b.1

/-! ## What a round did -/

section

variable {db} {db' : Ledger} {ids : SeedIds} {userUuid : String}

/-- The client was there, or it was added. -/
theorem ensureClient_cases {name : String} (h : db.ensureClient ids name = .ok db') :
    db' = db ∧ (∃ c ∈ db.clients, c.displayName = name) ∨
      ids.client name ∉ db.clients.map (·.id) ∧
        db' = { db with clients := db.clients ++ [⟨ids.client name, name⟩] } := by
  unfold ensureClient at h
  split_ifs at h with hany hid
  · obtain ⟨c, hc, hname⟩ := List.any_eq_true.1 hany
    exact .inl ⟨(Except.ok.inj h).symm, c, hc, of_decide_eq_true hname⟩
  · exact .inr ⟨hid, (Except.ok.inj h).symm⟩

/-- The SKU was there with the data of the seed, or it was inserted. -/
theorem ensureSku_cases {item : SKUSeed} (h : db.ensureSku ids item = .ok db') :
    ∃ client, db.clients.find? (fun c => decide (c.displayName = item.clientName)) = some client ∧
      ((∃ existing, db.findSku item.sku item.warehouse = some existing ∧
          (existing.name = item.name ∧ existing.clientId = client.id ∧
            existing.category = item.category ∧ existing.minStockThreshold = 0) ∧ db' = db) ∨
        db.findSku item.sku item.warehouse = none ∧
          ∃ skus, db.skus.insert ⟨ids.sku item.sku, item.name, item.sku, client.id, 0,
            item.category, item.warehouse⟩ = some skus ∧ db' = { db with skus := skus }) := by
  unfold ensureSku at h
  split at h
  · cases h
  · rename_i client hclient
    refine ⟨client, hclient, ?_⟩
    split at h
    · rename_i existing hexisting
      split_ifs at h with hdata
      exact .inl ⟨existing, hexisting, hdata, (Except.ok.inj h).symm⟩
    · rename_i hnone
      split at h
      · cases h
      · rename_i skus hi
        exact .inr ⟨hnone, skus, hi, (Except.ok.inj h).symm⟩

/-- The receipt was there with the quantity of the seed, or it was added. -/
theorem ensureEntry_cases {item : EntrySeed} (h : db.ensureEntry userUuid item = .ok db') :
    ∃ sku, db.findSku item.sku item.warehouse = some sku ∧
      ((∃ existing, scalarOneOrNone (db.seededEntries sku item) = .ok (some existing) ∧
          existing.quantity = item.quantity.1 ∧ db' = db) ∨
        scalarOneOrNone (db.seededEntries sku item) = .ok none ∧
          db' = db.addEntry ⟨nextId (db.stockEntries.map (·.id)), sku.id, item.quantity.1,
            item.reference, item.warehouse, item.createdAt, userUuid⟩) := by
  unfold ensureEntry at h
  split at h
  · cases h
  · rename_i sku hsku
    refine ⟨sku, hsku, ?_⟩
    split at h
    · cases h
    · rename_i existing hexisting
      split_ifs at h with hquantity
      exact .inl ⟨existing, hexisting, hquantity, (Except.ok.inj h).symm⟩
    · rename_i hnone
      exact .inr ⟨hnone, (Except.ok.inj h).symm⟩

/-- The exit was there with the data of the seed, or the stock sufficed and it was added. -/
theorem ensureExit_cases {item : ExitSeed} (h : db.ensureExit userUuid item = .ok db') :
    ∃ sku, db.findSku item.sku item.warehouse = some sku ∧
      ((∃ existing, scalarOneOrNone (db.seededExits sku item) = .ok (some existing) ∧
          (existing.quantity = item.quantity.1 ∧ existing.exitType = item.exitType ∧
            existing.trackingNumber = item.trackingNumber) ∧ db' = db) ∨
        scalarOneOrNone (db.seededExits sku item) = .ok none ∧
          ¬ db.ledgerBalance (sku.id, item.warehouse) < item.quantity.1 ∧
          db' = db.addExit ⟨nextId (db.stockExits.map (·.id)), sku.id, item.quantity.1,
            item.exitType, item.trackingNumber, item.warehouse, item.createdAt, userUuid⟩) := by
  unfold ensureExit at h
  split at h
  · cases h
  · rename_i sku hsku
    refine ⟨sku, hsku, ?_⟩
    split at h
    · cases h
    · rename_i existing hexisting
      split_ifs at h with hdata
      exact .inl ⟨existing, hexisting, hdata, (Except.ok.inj h).symm⟩
    · rename_i hnone
      split_ifs at h with hstock
      exact .inr ⟨hnone, hstock, (Except.ok.inj h).symm⟩

/-- Re-deriving the balances leaves the rest alone. -/
theorem exists_eq_of_rederived (h : db.rederived = .ok db') :
    ∃ balances, db' = { db with stockBalances := balances } := by
  unfold rederived at h
  split at h
  · cases h
  · rename_i db₁ n hr
    cases h
    obtain ⟨w, -, he⟩ := except_map_eq_ok_iff.1 hr
    cases he
    exact ⟨_, rfl⟩

end

end Ledger

/-! ## What is left alone -/

/-- The ledger `db'` is `db` with more clients, SKUs and movements, and other balances. -/
structure Reseeded (db db' : Ledger) : Prop where
  wellFormed : WellFormed db → WellFormed db'
  clientsExist : ClientsExist db → ClientsExist db'
  skus : SkusKept db db'
  stockouts : db'.stockoutEvents = db.stockoutEvents
  discrepancies : db'.inventoryDiscrepancies = db.inventoryDiscrepancies
  checkpoints : db'.stockLedgerCheckpoints = db.stockLedgerCheckpoints

theorem SkusKept.trans {db db' db'' : Ledger} (h : SkusKept db db') (h' : SkusKept db' db'') :
    SkusKept db db'' := by
  intro s hs
  obtain ⟨s', hs', hp, hc⟩ := h s hs
  obtain ⟨s'', hs'', hp', hc'⟩ := h' s' hs'
  exact ⟨s'', hs'', hp'.trans hp, hc'.trans hc⟩

namespace Reseeded

variable {db db' db'' : Ledger}

theorem refl (db : Ledger) : Reseeded db db := ⟨id, id, SkusKept.of_eq rfl, rfl, rfl, rfl⟩

theorem trans (h : Reseeded db db') (h' : Reseeded db' db'') : Reseeded db db'' where
  wellFormed hwf := h'.wellFormed (h.wellFormed hwf)
  clientsExist hc := h'.clientsExist (h.clientsExist hc)
  skus := h.skus.trans h'.skus
  stockouts := h'.stockouts.trans h.stockouts
  discrepancies := h'.discrepancies.trans h.discrepancies
  checkpoints := h'.checkpoints.trans h.checkpoints

/-- A loop whose rounds reseed reseeds. -/
theorem foldlM {α ε : Type} {f : Ledger → α → Except ε Ledger} {xs : List α}
    (hf : ∀ db x db', f db x = .ok db' → Reseeded db db') (h : xs.foldlM f db = .ok db') :
    Reseeded db db' := by
  induction xs generalizing db with
  | nil =>
    cases h
    exact refl _
  | cons x xs ih =>
    rw [List.foldlM_cons, except_bind_eq_ok] at h
    obtain ⟨db₁, hx, h⟩ := h
    exact (hf _ x db₁ hx).trans (ih h)

/-- The rows of `skus` are kept together with their clients. -/
theorem of_skus {clients : List Client} {skus : Table SKU.id}
    (hk : SkusKept db { db with clients := clients, skus := skus })
    (hc : ClientsExist db → ClientsExist { db with clients := clients, skus := skus }) :
    Reseeded db { db with clients := clients, skus := skus } where
  wellFormed h :=
    { entryIds := h.entryIds
      exitIds := h.exitIds
      entrySku := fun e he => ⟨(h.entrySku e he).1, hk.lift_place (h.entrySku e he).2⟩
      exitSku := fun x hx => ⟨(h.exitSku x hx).1, hk.lift_place (h.exitSku x hx).2⟩
      stockoutSku := fun v hv => hk.lift (h.stockoutSku v hv)
      stockoutExit := h.stockoutExit
      discrepancySku := fun d hd => hk.lift (h.discrepancySku d hd)
      discrepancyExit := h.discrepancyExit }
  clientsExist := hc
  skus := hk
  stockouts := rfl
  discrepancies := rfl
  checkpoints := rfl

theorem notMem_nextId (ids : List ℕ) : nextId ids ∉ ids := by
  intro h
  have := (Ledger.le_foldl_max 0 ids).2 _ h
  unfold nextId at this
  omega

theorem addEntry {e : StockEntry} (hid : e.id = nextId (db.stockEntries.map (·.id)))
    (hq : 0 < e.quantity) (hs : ∃ s ∈ db.skus.rows, s.place = e.place) :
    Reseeded db (db.addEntry e) where
  wellFormed h :=
    { h with
      entryIds := by
        simp only [Ledger.addEntry, List.map_append, List.map_cons, List.map_nil]
        refine List.Nodup.append h.entryIds (List.nodup_singleton _) ?_
        rw [List.disjoint_singleton, hid]
        exact notMem_nextId _
      entrySku := by
        simp only [Ledger.addEntry, List.mem_append, List.mem_singleton]
        rintro e' (he | rfl)
        · exact h.entrySku e' he
        · exact ⟨hq, hs⟩ }
  clientsExist h := h
  skus := SkusKept.of_eq rfl
  stockouts := rfl
  discrepancies := rfl
  checkpoints := rfl

theorem addExit {x : StockExit} (hid : x.id = nextId (db.stockExits.map (·.id)))
    (hq : 0 < x.quantity) (hs : ∃ s ∈ db.skus.rows, s.place = x.place) :
    Reseeded db (db.addExit x) where
  wellFormed h :=
    { h with
      exitIds := by
        simp only [Ledger.addExit, List.map_append, List.map_cons, List.map_nil]
        refine List.Nodup.append h.exitIds (List.nodup_singleton _) ?_
        rw [List.disjoint_singleton, hid]
        exact notMem_nextId _
      exitSku := by
        simp only [Ledger.addExit, List.mem_append, List.mem_singleton]
        rintro x' (hx | rfl)
        · exact h.exitSku x' hx
        · exact ⟨hq, hs⟩
      stockoutExit := fun v hv => by
        obtain ⟨x', hx', h'⟩ := h.stockoutExit v hv
        exact ⟨x', List.mem_append_left _ hx', h'⟩
      discrepancyExit := fun d hd => by
        obtain ⟨x', hx', h'⟩ := h.discrepancyExit d hd
        exact ⟨x', List.mem_append_left _ hx', h'⟩ }
  clientsExist h := h
  skus := SkusKept.of_eq rfl
  stockouts := rfl
  discrepancies := rfl
  checkpoints := rfl

theorem rederived (h : db.rederived = .ok db') : Reseeded db db' := by
  obtain ⟨balances, rfl⟩ := Ledger.exists_eq_of_rederived h
  exact ⟨fun h => { h with }, fun h => h, SkusKept.of_eq rfl, rfl, rfl, rfl⟩

/-! ### The seed -/

theorem ensureClient {ids : SeedIds} {name : String} (h : db.ensureClient ids name = .ok db') :
    Reseeded db db' := by
  obtain ⟨rfl, -⟩ | ⟨-, rfl⟩ := Ledger.ensureClient_cases h
  · exact refl _
  · refine of_skus (SkusKept.of_eq rfl) fun hc s hs => ?_
    obtain ⟨c, hm, hid⟩ := hc s hs
    exact ⟨c, List.mem_append_left _ hm, hid⟩

theorem mem_of_findSku {sku : String} {w : Warehouse} {r : SKU} (h : db.findSku sku w = some r) :
    r ∈ db.skus.rows ∧ r.warehouse = w := by
  have hf := List.find?_some h
  simp only [decide_eq_true_eq] at hf
  exact ⟨List.mem_of_find?_eq_some h, hf.2⟩

theorem ensureSku {ids : SeedIds} {item : SKUSeed} (h : db.ensureSku ids item = .ok db') :
    Reseeded db db' := by
  obtain ⟨client, hclient, ⟨_, -, -, rfl⟩ | ⟨-, skus, hi, rfl⟩⟩ := Ledger.ensureSku_cases h
  · exact refl _
  · obtain ⟨-, hrows⟩ := Table.insert_eq_some hi
    refine of_skus (fun s hs => ⟨s, by simp [hrows, hs], rfl, rfl⟩) fun hc s hs => ?_
    simp only [hrows, List.mem_append, List.mem_singleton] at hs
    rcases hs with hs | rfl
    · exact hc s hs
    · exact ⟨client, List.mem_of_find?_eq_some hclient, rfl⟩

theorem ensureEntry {userUuid : String} {item : EntrySeed}
    (h : db.ensureEntry userUuid item = .ok db') : Reseeded db db' := by
  obtain ⟨sku, hsku, ⟨_, -, -, rfl⟩ | ⟨-, rfl⟩⟩ := Ledger.ensureEntry_cases h
  · exact refl _
  · obtain ⟨hm, hw⟩ := mem_of_findSku hsku
    exact addEntry rfl item.quantity.2 ⟨sku, hm, Prod.ext rfl hw⟩

theorem ensureExit {userUuid : String} {item : ExitSeed}
    (h : db.ensureExit userUuid item = .ok db') : Reseeded db db' := by
  obtain ⟨sku, hsku, ⟨_, -, -, rfl⟩ | ⟨-, -, rfl⟩⟩ := Ledger.ensureExit_cases h
  · exact refl _
  · obtain ⟨hm, hw⟩ := mem_of_findSku hsku
    exact addExit rfl item.quantity.2 ⟨sku, hm, Prod.ext rfl hw⟩

/-- **A seed only adds to the ledger.** -/
theorem seedInventory {ids : SeedIds} {userUuid : String}
    (h : db.seedInventory ids userUuid = .ok db') : Reseeded db db' := by
  simp only [Ledger.seedInventory, except_bind_eq_ok] at h
  obtain ⟨db₁, h₁, db₂, h₂, db₃, h₃, db₄, h₄, h₅⟩ := h
  exact (foldlM (fun _ _ _ => ensureClient) h₁).trans <|
    (foldlM (fun _ _ _ => ensureSku) h₂).trans <|
    (foldlM (fun _ _ _ => ensureEntry) h₃).trans <|
    (foldlM (fun _ _ _ => ensureExit) h₄).trans (rederived h₅)

/-- After a seed there are SKUs. -/
theorem skus_of_seedInventory {ids : SeedIds} {userUuid : String}
    (h : db.seedInventory ids userUuid = .ok db') : db'.skus.rows ≠ [] := by
  simp only [Ledger.seedInventory, except_bind_eq_ok] at h
  obtain ⟨db₁, -, db₂, -, db₃, h₃, db₄, h₄, h₅⟩ := h
  -- the first receipt of the seed found its SKU
  rw [entrySeeds, List.foldlM_cons, except_bind_eq_ok] at h₃
  obtain ⟨db', h₃, h₃'⟩ := h₃
  have hkept := ((ensureEntry h₃).trans (foldlM (fun _ _ _ => ensureEntry) h₃')).trans
    ((foldlM (fun _ _ _ => ensureExit) h₄).trans (rederived h₅))
  obtain ⟨sku, hsku, -⟩ := Ledger.ensureEntry_cases h₃
  obtain ⟨s, hs, -⟩ := hkept.skus sku (mem_of_findSku hsku).1
  exact List.ne_nil_of_mem hs

/-! ### The backfill -/

variable {b : Ledger.Backfill} {userUuid : String} {sku : SKU}

/-- `b'` comes from `b` by movements of the backfill. -/
def Rounds (b b' : Ledger.Backfill) : Prop := Reseeded b.1 b'.1 ∧ b'.1.skus = b.1.skus

theorem Rounds.refl (b : Ledger.Backfill) : Rounds b b := ⟨Reseeded.refl b.1, rfl⟩

theorem Rounds.trans {b b' b'' : Ledger.Backfill} (h : Rounds b b') (h' : Rounds b' b'') :
    Rounds b b'' :=
  ⟨h.1.trans h'.1, h'.2.trans h.2⟩

theorem backfillEntry {reference : String} {instant : ℕ} {draw : BackfillDay}
    (hs : sku ∈ b.1.skus.rows) :
    Rounds b (Ledger.backfillEntry reference userUuid instant sku draw b) := by
  have hpos : 0 < draw.receipt := Nat.lt_of_lt_of_le (by decide) draw.receipt_mem.1
  exact ⟨addEntry rfl hpos ⟨sku, hs, rfl⟩, rfl⟩

theorem backfillExit {instant : ℕ} {draw : BackfillExit} (hs : sku ∈ b.1.skus.rows) :
    Rounds b (Ledger.backfillExit userUuid instant sku draw b) := by
  have hpos : 0 < 1 + draw.choice % max 1 (b.2 sku.place / 2) := by omega
  exact ⟨addExit rfl hpos ⟨sku, hs, rfl⟩, rfl⟩

theorem backfillExits {instant : ℕ} {draws : List BackfillExit} (hs : sku ∈ b.1.skus.rows) :
    Rounds b (Ledger.backfillExits userUuid instant sku draws b) := by
  induction draws generalizing b with
  | nil => exact Rounds.refl b
  | cons draw draws ih =>
    unfold Ledger.backfillExits
    split_ifs
    · exact Rounds.refl b
    · exact (backfillExit hs).trans (ih hs)

theorem backfillSku {isoformat : ℕ → String} {draws : ℕ → SKU → BackfillDay} {now offset : ℕ}
    (hs : sku ∈ b.1.skus.rows) :
    Rounds b (Ledger.backfillSku isoformat draws userUuid now offset b sku) :=
  (backfillEntry hs).trans (backfillExits hs)

/-- A loop over SKUs or days, none of which touches the SKUs. -/
theorem Rounds.foldl {α : Type} {f : Ledger.Backfill → α → Ledger.Backfill} {xs : List α}
    (hf : ∀ b', b'.1.skus = b.1.skus → ∀ x ∈ xs, Rounds b' (f b' x)) : Rounds b (xs.foldl f b) := by
  induction xs generalizing b with
  | nil => exact Rounds.refl b
  | cons x xs ih =>
    have h₁ := hf b rfl x List.mem_cons_self
    refine h₁.trans (ih fun b' hb' y hy => ?_)
    exact hf b' (hb'.trans h₁.2) y (List.mem_cons_of_mem x hy)

/-- **A backfill only adds movements.** -/
theorem backfillHistory {isoformat : ℕ → String} {draws : ℕ → SKU → BackfillDay} {now days : ℕ}
    (h : db.backfillHistory isoformat draws userUuid now days = .ok db') : Reseeded db db' := by
  unfold Ledger.backfillHistory at h
  split_ifs at h
  · cases h
    exact refl db
  · refine trans (Rounds.foldl (b := (db, fun _ => 0)) ?_).1 (rederived h)
    intro b hb offset _
    refine Rounds.foldl ?_
    intro b' hb' sku hsku
    exact backfillSku (by rw [hb', hb]; exact hsku)

end Reseeded

end TrackFlow
