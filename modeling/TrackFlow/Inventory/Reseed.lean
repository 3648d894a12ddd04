import TrackFlow.Inventory.Upkeep

/-!
# Seeding a second time

`seed_inventory` recognises what it has seeded before: clients by their display name, SKUs by
their code and warehouse, receipts by reference and instant, exits by instant.  Clients and SKUs
stay where they are; a prune deletes movements.

* `Fixtures` : the clients and SKUs of the seed; a seed establishes them and movements, prunes and
  discrepancies keep them.
* `MovementsInPlace` : every seeded movement is in the ledger, once and unchanged.
* `seed_again_iff` : **a second seed succeeds and changes nothing if and only if the seeded
  movements are still in place.**
-/

namespace TrackFlow

namespace Ledger

variable (db : Ledger)

/-- The SKU of a seed item is there, as the seed has it. -/
def SkuInPlace (item : SKUSeed) : Prop :=
  ∃ client existing, (db.clients.find? fun c => decide (c.displayName = item.clientName)) =
      some client ∧
    db.findSku item.sku item.warehouse = some existing ∧ existing.name = item.name ∧
    existing.clientId = client.id ∧ existing.category = item.category ∧
    existing.minStockThreshold = 0

/-- The clients and SKUs of the seed are there. -/
structure Fixtures : Prop where
  clients : ∀ name ∈ seedClientNames, ∃ c ∈ db.clients, c.displayName = name
  skus : ∀ item ∈ skuSeeds, db.SkuInPlace item

/-- A seeded receipt is there once, with its quantity. -/
def EntryInPlace (item : EntrySeed) : Prop :=
  ∃ sku ∈ db.findSku item.sku item.warehouse,
    (db.seededEntries sku item).map (·.quantity) = [item.quantity.1]

/-- A seeded exit is there once, with its quantity, type and tracking number. -/
def ExitInPlace (item : ExitSeed) : Prop :=
  ∃ sku ∈ db.findSku item.sku item.warehouse,
    (db.seededExits sku item).map (fun x => (x.quantity, x.exitType, x.trackingNumber)) =
      [(item.quantity.1, item.exitType, item.trackingNumber)]

/-- Every seeded movement is in the ledger, once and unchanged. -/
def MovementsInPlace : Prop :=
  (∀ item ∈ entrySeeds, db.EntryInPlace item) ∧ ∀ item ∈ exitSeeds, db.ExitInPlace item

instance (item : EntrySeed) : Decidable (db.EntryInPlace item) :=
  inferInstanceAs (Decidable (∃ sku ∈ db.findSku item.sku item.warehouse, _))

instance (item : ExitSeed) : Decidable (db.ExitInPlace item) :=
  inferInstanceAs (Decidable (∃ sku ∈ db.findSku item.sku item.warehouse, _))

instance : Decidable db.MovementsInPlace := inferInstanceAs (Decidable (_ ∧ _))

/-- A second seed succeeds, adds no movement and changes no balance, stored or derived. -/
def SeedsAgain (ids : SeedIds) (userUuid : String) : Prop :=
  ∃ db', db.seedInventory ids userUuid = .ok db' ∧
    db'.stockEntries = db.stockEntries ∧ db'.stockExits = db.stockExits ∧
    (∀ k, db'.storedBalance k = db.storedBalance k) ∧
    db'.watermarkParam = db.watermarkParam ∧
    ∀ w k, db'.derivedQuantity w k = db.derivedQuantity w k

variable {db} {db' : Ledger}

/-! ### A seed establishes its clients and SKUs -/

/-- Clients and SKUs are only added at the end. -/
structure Extended (db db' : Ledger) : Prop where
  clients : ∃ cs, db'.clients = db.clients ++ cs
  skus : ∃ ss, db'.skus.rows = db.skus.rows ++ ss

theorem Extended.of_eq (hc : db'.clients = db.clients) (hs : db'.skus = db.skus) :
    Extended db db' :=
  ⟨⟨[], by rw [hc, List.append_nil]⟩, ⟨[], by rw [hs, List.append_nil]⟩⟩

theorem Extended.refl (db : Ledger) : Extended db db := .of_eq rfl rfl

theorem Extended.trans {db'' : Ledger} (h : Extended db db') (h' : Extended db' db'') :
    Extended db db'' := by
  obtain ⟨⟨cs, hcs⟩, ⟨ss, hss⟩⟩ := h
  obtain ⟨⟨cs', hcs'⟩, ⟨ss', hss'⟩⟩ := h'
  exact ⟨⟨cs ++ cs', by rw [hcs', hcs, List.append_assoc]⟩,
    ⟨ss ++ ss', by rw [hss', hss, List.append_assoc]⟩⟩

theorem find?_append_of_some {ρ : Type} {rows more : List ρ} {p : ρ → Bool} {r : ρ}
    (h : rows.find? p = some r) : (rows ++ more).find? p = some r := by
  rw [List.find?_append, h, Option.some_or]

theorem SkuInPlace.extended {item : SKUSeed} (h : db.SkuInPlace item) (he : Extended db db') :
    db'.SkuInPlace item := by
  obtain ⟨client, existing, hclient, hsku, hdata⟩ := h
  obtain ⟨⟨cs, hcs⟩, ⟨ss, hss⟩⟩ := he
  refine ⟨client, existing, ?_, ?_, hdata⟩
  · rw [hcs]
    exact find?_append_of_some hclient
  · unfold findSku at hsku ⊢
    rw [hss]
    exact find?_append_of_some hsku

theorem extended_ensureClient {ids : SeedIds} {name : String}
    (h : db.ensureClient ids name = .ok db') :
    Extended db db' ∧ ∃ c ∈ db'.clients, c.displayName = name := by
  obtain ⟨rfl, hthere⟩ | ⟨-, rfl⟩ := ensureClient_cases h
  · exact ⟨.refl _, hthere⟩
  · exact ⟨⟨⟨_, rfl⟩, ⟨[], (List.append_nil _).symm⟩⟩,
      _, List.mem_append_right _ (List.mem_singleton_self _), rfl⟩

theorem extended_ensureSku {ids : SeedIds} {item : SKUSeed} (h : db.ensureSku ids item = .ok db') :
    Extended db db' ∧ db'.SkuInPlace item := by
  obtain ⟨client, hclient, ⟨existing, hexisting, hsame, rfl⟩ | ⟨hnone, skus, hi, rfl⟩⟩ :=
    ensureSku_cases h
  · exact ⟨.refl _, client, existing, hclient, hexisting, hsame⟩
  · obtain ⟨-, hrows⟩ := Table.insert_eq_some hi
    refine ⟨⟨⟨[], (List.append_nil _).symm⟩, ⟨_, hrows⟩⟩, client,
      ⟨ids.sku item.sku, item.name, item.sku, client.id, 0, item.category, item.warehouse⟩,
      hclient, ?_, rfl, rfl, rfl, rfl⟩
    unfold findSku at hnone ⊢
    rw [hrows, List.find?_append, hnone, Option.none_or]
    simp

/-- What every round establishes and later rounds keep holds after the loop. -/
theorem foldlM_establishes {α ε : Type} {f : Ledger → α → Except ε Ledger} {Q : α → Ledger → Prop}
    {xs : List α} (hf : ∀ db x db', f db x = .ok db' → Extended db db' ∧ Q x db')
    (hQ : ∀ x db db', Q x db → Extended db db' → Q x db') (h : xs.foldlM f db = .ok db') :
    Extended db db' ∧ ∀ x ∈ xs, Q x db' := by
  induction xs generalizing db with
  | nil =>
    cases h
    exact ⟨.refl _, by simp⟩
  | cons x xs ih =>
    rw [List.foldlM_cons, except_bind_eq_ok] at h
    obtain ⟨db₁, hx, h⟩ := h
    obtain ⟨hext, hq⟩ := hf _ x db₁ hx
    obtain ⟨hext', hqs⟩ := ih h
    refine ⟨hext.trans hext', fun y hy => ?_⟩
    rcases List.mem_cons.1 hy with rfl | hy
    · exact hQ y db₁ db' hq hext'
    · exact hqs y hy

theorem ensureEntry_fixtures {userUuid : String} {item : EntrySeed}
    (h : db.ensureEntry userUuid item = .ok db') :
    db'.clients = db.clients ∧ db'.skus = db.skus := by
  obtain ⟨_, -, ⟨_, -, -, rfl⟩ | ⟨-, rfl⟩⟩ := ensureEntry_cases h <;> exact ⟨rfl, rfl⟩

theorem ensureExit_fixtures {userUuid : String} {item : ExitSeed}
    (h : db.ensureExit userUuid item = .ok db') :
    db'.clients = db.clients ∧ db'.skus = db.skus := by
  obtain ⟨_, -, ⟨_, -, -, rfl⟩ | ⟨-, -, rfl⟩⟩ := ensureExit_cases h <;> exact ⟨rfl, rfl⟩

theorem Fixtures.of_eq (h : db.Fixtures) (hc : db'.clients = db.clients) (hs : db'.skus = db.skus) :
    db'.Fixtures where
  clients := by
    rw [hc]
    exact h.clients
  skus item hi := (h.skus item hi).extended (.of_eq hc hs)

/-- **A seed leaves its clients and SKUs.** -/
theorem fixtures_seedInventory {ids : SeedIds} {userUuid : String}
    (h : db.seedInventory ids userUuid = .ok db') : db'.Fixtures := by
  simp only [seedInventory, except_bind_eq_ok] at h
  obtain ⟨db₁, h₁, db₂, h₂, db₃, h₃, db₄, h₄, h₅⟩ := h
  have hkeep {name : String} {db db' : Ledger} (hin : ∃ c ∈ db.clients, c.displayName = name)
      (hext : Extended db db') : ∃ c ∈ db'.clients, c.displayName = name := by
    obtain ⟨c, hc, hname⟩ := hin
    obtain ⟨⟨cs, hcs⟩, -⟩ := hext
    exact ⟨c, hcs ▸ List.mem_append_left _ hc, hname⟩
  obtain ⟨-, hclients⟩ := foldlM_establishes
    (Q := fun name db => ∃ c ∈ db.clients, c.displayName = name)
    (fun _ _ _ => extended_ensureClient) (fun _ _ _ => hkeep) h₁
  obtain ⟨hext, hskus⟩ := foldlM_establishes (Q := fun item db => db.SkuInPlace item)
    (fun _ _ _ => extended_ensureSku) (fun _ _ _ => SkuInPlace.extended) h₂
  have hfix₂ : db₂.Fixtures := ⟨fun name hn => hkeep (hclients name hn) hext, hskus⟩
  have hentries := foldlM_keeps (g := fun db => (db.clients, db.skus))
    (fun _ _ _ h => Prod.ext (ensureEntry_fixtures h).1 (ensureEntry_fixtures h).2) h₃
  have hexits := foldlM_keeps (g := fun db => (db.clients, db.skus))
    (fun _ _ _ h => Prod.ext (ensureExit_fixtures h).1 (ensureExit_fixtures h).2) h₄
  have hboth := hexits.trans hentries
  have hfix₄ := hfix₂.of_eq (congrArg Prod.fst hboth) (congrArg Prod.snd hboth)
  obtain ⟨balances, rfl⟩ := exists_eq_of_rederived h₅
  exact hfix₄.of_eq rfl rfl

/-! ### A seed where everything is in place -/

theorem ensureClient_of_mem {ids : SeedIds} {name : String}
    (h : ∃ c ∈ db.clients, c.displayName = name) : db.ensureClient ids name = .ok db := by
  obtain ⟨c, hc, hname⟩ := h
  exact if_pos (List.any_eq_true.2 ⟨c, hc, decide_eq_true hname⟩)

theorem ensureSku_of_inPlace {ids : SeedIds} {item : SKUSeed} (h : db.SkuInPlace item) :
    db.ensureSku ids item = .ok db := by
  obtain ⟨client, existing, hclient, hsku, hdata⟩ := h
  unfold ensureSku
  simp only [hclient, hsku]
  exact if_pos hdata

theorem ensureEntry_of_inPlace {userUuid : String} {item : EntrySeed} (h : db.EntryInPlace item) :
    db.ensureEntry userUuid item = .ok db := by
  obtain ⟨sku, hsku, hrows⟩ := h
  obtain ⟨e, he, hq⟩ := List.map_eq_singleton_iff.1 hrows
  unfold ensureEntry
  simp only [Option.mem_def.1 hsku, he, scalarOneOrNone]
  exact if_pos hq

theorem ensureExit_of_inPlace {userUuid : String} {item : ExitSeed} (h : db.ExitInPlace item) :
    db.ensureExit userUuid item = .ok db := by
  obtain ⟨sku, hsku, hrows⟩ := h
  obtain ⟨x, hx, hdata⟩ := List.map_eq_singleton_iff.1 hrows
  simp only [Prod.mk.injEq] at hdata
  unfold ensureExit
  simp only [Option.mem_def.1 hsku, hx, scalarOneOrNone]
  exact if_pos hdata

theorem foldlM_eq_self {α ε : Type} {f : Ledger → α → Except ε Ledger} {xs : List α}
    (h : ∀ x ∈ xs, f db x = .ok db) : xs.foldlM f db = .ok db := by
  induction xs with
  | nil => rfl
  | cons x xs ih =>
    rw [List.foldlM_cons, h x List.mem_cons_self]
    exact ih fun y hy => h y (List.mem_cons_of_mem x hy)

/-- Where the clients and SKUs are in place, a seed only looks at the movements. -/
theorem seedInventory_of_fixtures {ids : SeedIds} {userUuid : String} (hf : db.Fixtures) :
    db.seedInventory ids userUuid =
      entrySeeds.foldlM (fun db item => db.ensureEntry userUuid item) db >>= fun db =>
        exitSeeds.foldlM (fun db item => db.ensureExit userUuid item) db >>= rederived := by
  have hclients : seedClientNames.foldlM (fun db name => db.ensureClient ids name) db = .ok db :=
    foldlM_eq_self fun name hn => ensureClient_of_mem (hf.clients name hn)
  have hskus : skuSeeds.foldlM (fun db item => db.ensureSku ids item) db = .ok db :=
    foldlM_eq_self fun item hi => ensureSku_of_inPlace (hf.skus item hi)
  rw [seedInventory, hclients]
  simp only [bind, Except.bind, hskus]

theorem seedInventory_of_inPlace {ids : SeedIds} {userUuid : String} (hf : db.Fixtures)
    (h : db.MovementsInPlace) : db.seedInventory ids userUuid = db.rederived := by
  have hentries : entrySeeds.foldlM (fun db item => db.ensureEntry userUuid item) db = .ok db :=
    foldlM_eq_self fun item hi => ensureEntry_of_inPlace (h.1 item hi)
  have hexits : exitSeeds.foldlM (fun db item => db.ensureExit userUuid item) db = .ok db :=
    foldlM_eq_self fun item hi => ensureExit_of_inPlace (h.2 item hi)
  rw [seedInventory_of_fixtures hf, hentries]
  simp only [bind, Except.bind, hexits]

/-! ### A seed that adds no movement -/

theorem scalarOneOrNone_eq_some {ρ : Type} {rows : List ρ} {r : ρ}
    (h : scalarOneOrNone rows = .ok (some r)) : rows = [r] := by
  match rows with
  | [] => cases h
  | [_] =>
    cases h
    rfl
  | _ :: _ :: _ => cases h

/-- A round finds its receipt in place, or adds one. -/
theorem ensureEntry_eq_ok {userUuid : String} {item : EntrySeed}
    (h : db.ensureEntry userUuid item = .ok db') :
    db' = db ∧ db.EntryInPlace item ∨ db.stockEntries.length < db'.stockEntries.length := by
  obtain ⟨sku, hsku, ⟨e, he, hq, rfl⟩ | ⟨-, rfl⟩⟩ := ensureEntry_cases h
  · refine .inl ⟨rfl, sku, hsku, ?_⟩
    rw [scalarOneOrNone_eq_some he, List.map_singleton, hq]
  · exact .inr (by simp [addEntry])

/-- A round finds its exit in place, or adds one. -/
theorem ensureExit_eq_ok {userUuid : String} {item : ExitSeed}
    (h : db.ensureExit userUuid item = .ok db') :
    db' = db ∧ db.ExitInPlace item ∨ db.stockExits.length < db'.stockExits.length := by
  obtain ⟨sku, hsku, ⟨x, hx, hdata, rfl⟩ | ⟨-, -, rfl⟩⟩ := ensureExit_cases h
  · refine .inl ⟨rfl, sku, hsku, ?_⟩
    rw [scalarOneOrNone_eq_some hx, List.map_singleton, hdata.1, hdata.2.1, hdata.2.2]
  · exact .inr (by simp [addExit])

/-- A loop whose rounds find something in place or grow the ledger, and that has not grown it,
has found everything in place. -/
theorem foldlM_inPlace {α ε : Type} {f : Ledger → α → Except ε Ledger} {Q : Ledger → α → Prop}
    {g : Ledger → ℕ} {xs : List α}
    (hf : ∀ db x db', f db x = .ok db' → db' = db ∧ Q db x ∨ g db < g db')
    (h : xs.foldlM f db = .ok db') :
    g db ≤ g db' ∧ (g db' ≤ g db → db' = db ∧ ∀ x ∈ xs, Q db x) := by
  induction xs generalizing db with
  | nil =>
    cases h
    exact ⟨le_refl _, fun _ => ⟨rfl, by simp⟩⟩
  | cons x xs ih =>
    rw [List.foldlM_cons, except_bind_eq_ok] at h
    obtain ⟨db₁, hx, h⟩ := h
    obtain ⟨hle, hsame⟩ := ih h
    rcases hf _ x db₁ hx with ⟨rfl, hq⟩ | hlt
    · exact ⟨hle, fun hge => ⟨(hsame hge).1, List.forall_mem_cons.2 ⟨hq, (hsame hge).2⟩⟩⟩
    · exact ⟨by omega, fun hge => by omega⟩

theorem ensureExit_entries {userUuid : String} {item : ExitSeed}
    (h : db.ensureExit userUuid item = .ok db') : db'.stockEntries = db.stockEntries := by
  obtain ⟨_, -, ⟨_, -, -, rfl⟩ | ⟨-, -, rfl⟩⟩ := ensureExit_cases h <;> rfl

theorem inPlace_of_seedInventory {ids : SeedIds} {userUuid : String} (hf : db.Fixtures)
    (h : db.seedInventory ids userUuid = .ok db') (he : db'.stockEntries = db.stockEntries)
    (hx : db'.stockExits = db.stockExits) : db.MovementsInPlace := by
  rw [seedInventory_of_fixtures hf] at h
  simp only [except_bind_eq_ok] at h
  obtain ⟨db₃, h₃, db₄, h₄, h₅⟩ := h
  have hmov : db'.stockEntries = db₄.stockEntries ∧ db'.stockExits = db₄.stockExits := by
    obtain ⟨balances, rfl⟩ := exists_eq_of_rederived h₅
    exact ⟨rfl, rfl⟩
  have hentries : db₄.stockEntries = db₃.stockEntries :=
    foldlM_keeps (fun _ _ _ => ensureExit_entries) h₄
  obtain ⟨-, hin⟩ := foldlM_inPlace (g := fun db => db.stockEntries.length)
    (fun _ _ _ => ensureEntry_eq_ok) h₃
  obtain ⟨rfl, hin₃⟩ := hin (by rw [← hentries, ← hmov.1, he])
  obtain ⟨-, hin⟩ := foldlM_inPlace (g := fun db => db.stockExits.length)
    (fun _ _ _ => ensureExit_eq_ok) h₄
  exact ⟨hin₃, (hin (by rw [← hmov.2, hx])).2⟩

/-- **A second seed changes nothing exactly when all is in place.** -/
theorem seedsAgain_iff {w : ℕ} (h : Undrifted db w) (hf : db.Fixtures) (ids : SeedIds)
    (userUuid : String) : db.SeedsAgain ids userUuid ↔ db.MovementsInPlace := by
  refine ⟨fun ⟨db', hs, he, hx, _⟩ => inPlace_of_seedInventory hf hs he hx, fun hin => ?_⟩
  obtain ⟨db', hder⟩ := rederived_isOk h.watermark
  obtain ⟨⟨balances, hdb'⟩, hsku, hother⟩ := rederived_eq_ok h.watermark hder
  refine ⟨db', (seedInventory_of_inPlace hf hin).trans hder, ?_, ?_, fun k => ?_, ?_, ?_⟩
  · rw [hdb']
  · rw [hdb']
  · by_cases hk : ∃ sku ∈ db.skus.rows, sku.place = k
    · obtain ⟨sku, hs, rfl⟩ := hk
      rw [hsku sku hs, h.balance]
    · exact hother k fun sku hs hp => hk ⟨sku, hs, hp⟩
  · rw [hdb']
    rfl
  · rw [hdb']
    exact fun _ _ => rfl

end Ledger

/-! ## In a run -/

/-- A movement, a discrepancy, or a transaction of a prune. -/
def UpkeepLabel.isFollowUp : UpkeepLabel → Bool
  | .retention (.op (.createClient ..)) => false
  | .retention (.op (.createSku ..)) => false
  | .retention (.op (.updateSku ..)) => false
  | .retention _ => true
  | _ => false

namespace Retention

variable {s s' : Retention}

/-- Movements, discrepancies and prunes leave clients and SKUs as they are. -/
theorem fixtures_next {l : UpkeepLabel} (hf : s.db.Fixtures) (hl : l.isFollowUp = true)
    (hwf : WellFormed s.db) (hn : s.upkeepNext l = some s') : s'.db.Fixtures := by
  cases l with
  | seed ids userUuid => cases hl
  | backfill isoformat draws userUuid now days => cases hl
  | retention l =>
    simp only [upkeepNext] at hn
    cases step_of_next hn with
    | @op op _ hop =>
      cases op with
      | createClient displayName role id => cases hl
      | createSku payload id => cases hl
      | updateSku skuId payload => cases hl
      | recordInbound payload userUuid now id =>
        simp only [LedgerOp.perform] at hop
        split_ifs at hop
        obtain ⟨⟨db₁, e⟩, hr, rfl⟩ := Ledger.except_map_eq_ok_iff.1 hop
        obtain ⟨sku, -, -, -, -, rfl⟩ := Ledger.recordInbound_eq_ok hr
        exact hf.of_eq rfl rfl
      | recordOutbound payload userUuid now id eventId =>
        simp only [LedgerOp.perform] at hop
        split_ifs at hop
        obtain ⟨⟨db₁, x⟩, hr, rfl⟩ := Ledger.except_map_eq_ok_iff.1 hop
        obtain ⟨sku, -, -, -, -, rfl⟩ := Ledger.recordOutbound_eq_ok hr
        exact hf.of_eq (Ledger.clients_addDueStockout _) (Ledger.skus_addDueStockout _)
      | recordDiscrepancy payload userUuid source now id =>
        obtain ⟨⟨db₁, d⟩, hr, rfl⟩ := Ledger.except_map_eq_ok_iff.1 hop
        obtain ⟨rfl, -⟩ := LedgerOp.recordDiscrepancy_eq_ok hr
        exact hf.of_eq rfl rfl
    | checkpoint _ begun =>
      obtain ⟨w, -, -, rfl⟩ := Ledger.beginPrune_eq_ok begun
      exact hf.of_eq rfl rfl
    | batch _ deleted =>
      have hd := Ledger.deleteBatch_eq_some hwf deleted
      exact hf.of_eq hd.clients hd.skus
    | stop => exact hf

variable {clients : List Client} {skus : Table SKU.id} {s₀ s₁ : Retention} {ids : SeedIds}
  {userUuid : String}

/-- After a seed, whatever follows it, no balance drifts and the clients and SKUs are there. -/
theorem balanced_after_seed
    (h₀ : upkeep.Run (fun s l => s.orderly l = true) (start clients skus) s₀)
    (ho : s₀.orderly (.seed ids userUuid) = true)
    (h₁ : s₀.upkeepNext (.seed ids userUuid) = some s₁)
    (h : upkeep.Run (fun s l => s.orderly l = true ∧ l.isFollowUp = true) s₁ s) :
    (∃ w, Balanced s w) ∧ s.db.Fixtures := by
  obtain ⟨w₀, hw₀⟩ := balanced_of_run h₀
  have hfix₁ : s₁.db.Fixtures := by
    have hseed := h₁
    simp only [upkeepNext] at hseed
    split at hseed <;> cases hseed
    exact Ledger.fixtures_seedInventory ‹_›
  refine h.invariant (fun s => (∃ w, Balanced s w) ∧ s.db.Fixtures)
    ⟨balanced_upkeepNext hw₀ ho h₁, hfix₁⟩ ?_
  rintro s l s' ⟨⟨w, hw⟩, hf⟩ ⟨ho, hl⟩ hn
  exact ⟨balanced_upkeepNext hw ho hn, fixtures_next hf hl hw.undrifted.wellFormed hn⟩

/-- **Seeding is idempotent as long as the seeded movements are in place.**  After a seed and any
movements, discrepancies and prunes, a second seed succeeds without adding a movement or changing
a balance if and only if every seeded movement is in the ledger, once and unchanged. -/
theorem seed_again_iff
    (h₀ : upkeep.Run (fun s l => s.orderly l = true) (start clients skus) s₀)
    (ho : s₀.orderly (.seed ids userUuid) = true)
    (h₁ : s₀.upkeepNext (.seed ids userUuid) = some s₁)
    (h : upkeep.Run (fun s l => s.orderly l = true ∧ l.isFollowUp = true) s₁ s)
    (ids' : SeedIds) (userUuid' : String) :
    s.db.SeedsAgain ids' userUuid' ↔ s.db.MovementsInPlace := by
  obtain ⟨⟨w, hw⟩, hfix⟩ := balanced_after_seed h₀ ho h₁ h
  exact Ledger.seedsAgain_iff hw.undrifted hfix ids' userUuid'

/-- A seed of the empty ledger and what follows it, checked step by step. -/
theorem exists_seeded (ids : SeedIds) (userUuid : String) (ls : List UpkeepLabel)
    (p : Retention → Bool)
    (h : ((start [] .empty).upkeepNext (.seed ids userUuid)).any (fun s₁ =>
      (upkeep.runIf (fun s l => s.orderly l && l.isFollowUp) s₁ ls).any p) = true) :
    ∃ s₁ s, (start [] .empty).upkeepNext (.seed ids userUuid) = some s₁ ∧
      upkeep.Run (fun s l => s.orderly l = true ∧ l.isFollowUp = true) s₁ s ∧ p s = true := by
  obtain ⟨s₁, h₁, h⟩ := (Option.any_eq_true _ _).1 h
  obtain ⟨s, hr, hp⟩ := upkeep.exists_run _ s₁ ls p h
  exact ⟨s₁, s, h₁, hr.mono fun s l hg => Bool.and_eq_true_iff.1 hg, hp⟩

/-- The identifiers that a seed draws. -/
def drawnIds : SeedIds where
  client name := BitVec.ofNat 128 (100 + seedClientNames.idxOf name)
  sku code := 10 + (skuSeeds.map (·.sku)).idxOf code

/-- A prune in the autumn of 2024 that keeps thirty days, and as many batches as it takes. -/
def autumnPrune (batches : ℕ) : List UpkeepLabel :=
  .retention (.pruneStart (.afterEpoch (20000 * day)) 30) ::
    List.replicate batches (.retention (.batch 500))

/-- A receipt follows the seed. -/
theorem seed_again_after_receipt :
    ∃ s₁ s, (start [] .empty).upkeepNext (.seed drawnIds "u-1") = some s₁ ∧
      upkeep.Run (fun s l => s.orderly l = true ∧ l.isFollowUp = true) s₁ s ∧
      s.db.stockEntries.length = 5 ∧ s.db.SeedsAgain drawnIds "u-1" := by
  obtain ⟨s₁, s, h₁, hr, hs⟩ := exists_seeded drawnIds "u-1"
    [.retention (.op (.recordInbound ⟨10, 9, "PO-1", .LA, by decide⟩ "u-1"
      (.afterEpoch (20000 * day)) 9))]
    (fun s => decide (s.db.stockEntries.length = 5 ∧ s.db.MovementsInPlace)) (by decide)
  obtain ⟨hlen, hin⟩ := of_decide_eq_true hs
  exact ⟨s₁, s, h₁, hr, hlen, (seed_again_iff .refl rfl h₁ hr drawnIds "u-1").2 hin⟩

/-- A prune has deleted what the seed wrote: the second seed cannot leave the movements alone. -/
theorem seed_again_after_prune :
    ∃ s₁ s, (start [] .empty).upkeepNext (.seed drawnIds "u-1") = some s₁ ∧
      upkeep.Run (fun s l => s.orderly l = true ∧ l.isFollowUp = true) s₁ s ∧
      s.db.stockEntries = [] ∧ ¬ s.db.SeedsAgain drawnIds "u-1" := by
  obtain ⟨s₁, s, h₁, hr, hs⟩ := exists_seeded drawnIds "u-1" (autumnPrune 6)
    (fun s => decide (s.db.stockEntries = [])) (by decide)
  have hnone := of_decide_eq_true hs
  obtain ⟨⟨w, hw⟩, hfix⟩ := balanced_after_seed .refl rfl h₁ hr
  refine ⟨s₁, s, h₁, hr, hnone, fun hagain => ?_⟩
  obtain ⟨hentries, -⟩ := (Ledger.seedsAgain_iff hw.undrifted hfix drawnIds "u-1").1 hagain
  obtain ⟨sku, -, hrows⟩ := hentries _ List.mem_cons_self
  simp [Ledger.seededEntries, hnone] at hrows

end Retention

end TrackFlow
