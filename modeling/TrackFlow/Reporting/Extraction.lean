import TrackFlow.Reporting.Reference
import TrackFlow.Reporting.Sources
import Mathlib.Algebra.BigOperators.Ring.Finset

/-!
# The records of a ledger

The four record sets that the reference computation reads, taken from the tables that
`PIPELINE_DESIGN.md` names for them: receipts, dispatches (losses are no orders), stockout events
and discrepancies.  What they add to a weekly cell is the raw aggregate of the ledger
(`eventTotal_ledger`).
-/

namespace TrackFlow

namespace Reporting

/-- The stored code of a warehouse. -/
def warehouseCode : Warehouse → String
  | .LA => "LA"
  | .ZGZ => "ZGZ"

/-- `inbound_order_created`, from `stock_entries`. -/
def inboundRecord (skus : Table SKU.id) (e : StockEntry) : Option EventRecord :=
  (skus.lookup e.skuId).map fun sku =>
    { id := e.id
      occurredAt := e.createdAt
      warehouse := warehouseCode e.warehouse
      clientId := sku.clientId
      quantity := some e.quantity }

/-- `outbound_order_created`, from the dispatch rows of `stock_exits`. -/
def outboundRecord (skus : Table SKU.id) (x : StockExit) : Option EventRecord :=
  match x.exitType with
  | .dispatch => (skus.lookup x.skuId).map fun sku =>
    { id := x.id
      occurredAt := x.createdAt
      warehouse := warehouseCode x.warehouse
      clientId := sku.clientId
      quantity := some x.quantity }
  | .loss => none

/-- `stock_threshold_triggered`, from `stockout_events`. -/
def stockoutRecord (v : StockoutEvent) : EventRecord where
  id := v.id
  occurredAt := v.occurredAt
  warehouse := warehouseCode v.warehouse
  clientId := v.clientId

/-- `inventory_discrepancy_detected`, from `inventory_discrepancies`. -/
def discrepancyRecord (d : InventoryDiscrepancy) : EventRecord where
  id := d.id
  occurredAt := d.detectedAt
  warehouse := warehouseCode d.warehouse
  clientId := d.clientId
  quantityDelta := some d.quantityDelta

/-- The activity that a ledger records. -/
def ledgerActivity (db : Ledger) : Activity
  | .inbound => db.stockEntries.filterMap (inboundRecord db.skus)
  | .outbound => db.stockExits.filterMap (outboundRecord db.skus)
  | .stockout => db.stockoutEvents.map stockoutRecord
  | .discrepancy => db.inventoryDiscrepancies.map discrepancyRecord

/-- The dimensions of the SKUs. -/
def skuPairs (db : Ledger) : List (String × UUID) :=
  db.skus.rows.map fun sku => (warehouseCode sku.warehouse, sku.clientId)

/-- The primary keys, which start at one, and the check of `quantity_delta`. -/
structure Constrained (db : Ledger) : Prop where
  entryIds : ∀ e ∈ db.stockEntries, 0 < e.id
  exitIds : ∀ x ∈ db.stockExits, 0 < x.id
  stockoutIds : (∀ v ∈ db.stockoutEvents, 0 < v.id) ∧ (db.stockoutEvents.map (·.id)).Nodup
  discrepancyIds : (∀ d ∈ db.inventoryDiscrepancies, 0 < d.id) ∧
    (db.inventoryDiscrepancies.map (·.id)).Nodup
  /-- `ck_inventory_discrepancies_quantity_delta_nonzero`. -/
  quantityDelta : ∀ d ∈ db.inventoryDiscrepancies, d.quantityDelta ≠ 0

/-- The metric that the events of a source count. -/
def eventMetric : EventSource → Metric
  | .inbound => .inboundUnits
  | .outbound => .dispatchOrderCount
  | .stockout => .stockoutCount
  | .discrepancy => .discrepancyCount

@[simp] theorem warehouseVocabulary_code (w : Warehouse) :
    warehouseVocabulary (warehouseCode w) = some (reportWarehouse w) := by
  cases w <;> rfl

/-! ## Records and source rows -/

/-- A record and a source row that stand for the same row of a table. -/
structure Describes (source : EventSource) (r : EventRecord) (v : SourceEvent) : Prop where
  time : r.occurredAt = v.time
  warehouse : r.warehouse = warehouseCode v.warehouse
  clientId : r.clientId = v.clientId
  increment : (normalized source r).increment = v.amount (eventMetric source)

/-- The records of a source, taken from some source rows, leave out only rows that its metric
does not count. -/
def Covers {α : Type} (source : EventSource) (rows : List α) (record : α → Option EventRecord)
    (event : α → Option SourceEvent) : Prop :=
  ∀ x ∈ rows, match record x, event x with
    | some r, some v => Describes source r v
    | none, some v => v.amount (eventMetric source) = 0
    | none, none => True
    | some _, none => False

section Describes

variable {db : Ledger} {source : EventSource} {r : EventRecord} {v : SourceEvent} {w : ℕ}
  {d : Dimension}

theorem covers_inbound (db : Ledger) :
    Covers .inbound db.stockEntries (inboundRecord db.skus) (inboundEvent db.skus) := by
  intro e _
  unfold inboundRecord inboundEvent
  cases db.skus.lookup e.skuId with
  | none => trivial
  | some sku => exact ⟨rfl, rfl, rfl, rfl⟩

theorem covers_outbound (db : Ledger) :
    Covers .outbound db.stockExits (outboundRecord db.skus) (outboundEvent db.skus) := by
  intro x _
  unfold outboundRecord outboundEvent
  cases hx : x.exitType with
  | dispatch =>
    cases db.skus.lookup x.skuId with
    | none => trivial
    | some sku => exact ⟨rfl, rfl, rfl, rfl⟩
  | loss =>
    cases db.skus.lookup x.skuId with
    | none => trivial
    | some sku => rfl

theorem covers_stockout (db : Ledger) :
    Covers .stockout db.stockoutEvents (some ∘ stockoutRecord) (some ∘ stockoutEvent) :=
  fun _ _ => ⟨rfl, rfl, rfl, rfl⟩

theorem covers_discrepancy (db : Ledger) : Covers .discrepancy db.inventoryDiscrepancies
    (some ∘ discrepancyRecord) (some ∘ discrepancyEvent) :=
  fun _ _ => ⟨rfl, rfl, rfl, rfl⟩

/-- The event of a record lies in the cell of its source row. -/
theorem Describes.key_eq_iff (h : Describes source r v) (hw : week ∣ w) :
    (normalized source r).key = (w, reportWarehouse d.1, d.2) ↔
      w ≤ v.time ∧ v.time < w + week ∧ v.dim = d := by
  have hweek : Queue.isoWeekStart r.occurredAt = w ↔ w ≤ v.time ∧ v.time < w + week := by
    rw [h.time]
    exact floorTo_eq_iff (by decide) hw
  have hdim :
      (reportWarehouse v.warehouse = reportWarehouse d.1 ∧ v.clientId = d.2) ↔ v.dim = d := by
    rw [reportWarehouse_injective.eq_iff, SourceEvent.dim, Prod.ext_iff]
  simp only [NormalizedEvent.key, normalized, h.warehouse, h.clientId, warehouseVocabulary_code,
    Option.getD_some, Prod.mk.injEq, hweek, hdim, and_assoc]

/-- What the records of a table add to a cell is what its source rows add. -/
theorem Covers.total_eq {α : Type} {rows : List α} {record : α → Option EventRecord}
    {event : α → Option SourceEvent} (h : Covers source rows record event) (hw : week ∣ w) :
    sumWhere (fun r => decide ((normalized source r).key = (w, reportWarehouse d.1, d.2)))
        (fun r => (normalized source r).increment) (rows.filterMap record) =
      (spanTotal SourceEvent.time SourceEvent.dim (·.amount (eventMetric source))
        (rows.filterMap event) w (w + week) d : ℕ) := by
  rw [spanTotal, sumWhere_filterMap, sumWhere_filterMap, Nat.cast_list_sum, List.map_map]
  congr 1
  refine List.map_congr_left fun x hx => ?_
  have hcover := h x hx
  simp only [Function.comp_apply]
  cases hr : record x with
  | none =>
    cases hv : event x with
    | none => rfl
    | some v =>
      simp only [hr, hv] at hcover
      simp [hcover]
  | some r =>
    cases hv : event x with
    | none => simp only [hr, hv] at hcover
    | some v =>
      simp only [hr, hv] at hcover
      have hkey := hcover.key_eq_iff (d := d) hw
      simp only [Option.elim_some, decide_eq_true_eq, hkey, Bool.and_eq_true, and_assoc,
        hcover.increment]
      split_ifs <;> rfl

/-! ## The aggregates of the ledger -/

/-- Only the records of a source count for it. -/
theorem eventTotal_activityEvents (activity : Activity) (key : WeeklyKey) (source : EventSource) :
    eventTotal (activityEvents activity) key source =
      sumWhere (fun r => decide ((normalized source r).key = key))
        (fun r => (normalized source r).increment) (activity source) := by
  have hpart (source' : EventSource) :
      eventTotal ((activity source').map (normalized source')) key source =
        if source' = source then sumWhere (fun r => decide ((normalized source r).key = key))
          (fun r => (normalized source r).increment) (activity source) else 0 := by
    rw [eventTotal, sumWhere_map]
    split_ifs with hs
    · subst hs
      exact sumWhere_congr (fun r _ => by simp [normalized]) fun _ _ _ => rfl
    · refine sumWhere_eq_zero fun r _ hr => ?_
      simp only [Function.comp_apply, Bool.and_eq_true, decide_eq_true_eq] at hr
      exact absurd hr.2 hs
  have hsum : eventTotal (activityEvents activity) key source =
      (eventSources.map fun source' =>
        eventTotal ((activity source').map (normalized source')) key source).sum := by
    simp [activityEvents, eventSources, eventTotal]
  rw [hsum]
  simp only [hpart, eventSources]
  cases source <;> simp

/-- The rows of a table that do not count for a metric. -/
theorem spanTotal_filterMap_eq_zero {α : Type} {rows : List α} {event : α → Option SourceEvent}
    {m : Metric} {s e : ℕ} (h : ∀ x ∈ rows, ∀ v, event x = some v → v.amount m = 0) :
    spanTotal SourceEvent.time SourceEvent.dim (·.amount m) (rows.filterMap event) s e d = 0 := by
  refine spanTotal_eq_zero fun v hv _ _ _ => ?_
  obtain ⟨x, hx, hxv⟩ := List.mem_filterMap.1 hv
  exact h x hx v hxv

theorem inboundEvent_amount {skus : Table SKU.id} {e : StockEntry} {m : Metric}
    (h : inboundEvent skus e = some v) (hm : m ≠ .inboundMovementCount) (hm' : m ≠ .inboundUnits) :
    v.amount m = 0 := by
  obtain ⟨sku, -, rfl⟩ := Option.map_eq_some_iff.1 h
  cases m <;> first | rfl | exact absurd rfl hm | exact absurd rfl hm'

theorem outboundEvent_amount {skus : Table SKU.id} {x : StockExit} {m : Metric}
    (h : outboundEvent skus x = some v)
    (hm : m = .inboundUnits ∨ m = .stockoutCount ∨ m = .discrepancyCount) : v.amount m = 0 := by
  obtain ⟨sku, -, rfl⟩ := Option.map_eq_some_iff.1 h
  rcases hm with rfl | rfl | rfl <;> cases x.exitType <;> rfl

theorem stockoutEvent_amount {x : StockoutEvent} {m : Metric} (hm : m ≠ .stockoutCount) :
    (stockoutEvent x).amount m = 0 := by
  cases m <;> first | rfl | exact absurd rfl hm

theorem discrepancyEvent_amount {x : InventoryDiscrepancy} {m : Metric}
    (hm : m ≠ .discrepancyCount) : (discrepancyEvent x).amount m = 0 := by
  cases m <;> first | rfl | exact absurd rfl hm

/-- **What the events of a ledger add to a cell is its raw aggregate.** -/
theorem eventTotal_ledger (db : Ledger) (source : EventSource) (hw : week ∣ w) (d : Dimension) :
    eventTotal (activityEvents (ledgerActivity db)) (w, reportWarehouse d.1, d.2) source =
      (sourceTotal db (eventMetric source) w (w + week) d : ℕ) := by
  have hstockout {m : Metric} (hm : m ≠ .stockoutCount) :
      spanTotal SourceEvent.time SourceEvent.dim (·.amount m)
        (db.stockoutEvents.filterMap (some ∘ stockoutEvent)) w (w + week) d = 0 :=
    spanTotal_filterMap_eq_zero fun x _ v hv => Option.some.inj hv ▸ stockoutEvent_amount hm
  have hdiscrepancy {m : Metric} (hm : m ≠ .discrepancyCount) :
      spanTotal SourceEvent.time SourceEvent.dim (·.amount m)
        (db.inventoryDiscrepancies.filterMap (some ∘ discrepancyEvent)) w (w + week) d = 0 :=
    spanTotal_filterMap_eq_zero fun x _ v hv => Option.some.inj hv ▸ discrepancyEvent_amount hm
  have hinbound {m : Metric} (hm : m ≠ .inboundMovementCount) (hm' : m ≠ .inboundUnits) :
      spanTotal SourceEvent.time SourceEvent.dim (·.amount m)
        (db.stockEntries.filterMap (inboundEvent db.skus)) w (w + week) d = 0 :=
    spanTotal_filterMap_eq_zero fun x _ v hv => inboundEvent_amount hv hm hm'
  have houtbound {m : Metric}
      (hm : m = .inboundUnits ∨ m = .stockoutCount ∨ m = .discrepancyCount) :
      spanTotal SourceEvent.time SourceEvent.dim (·.amount m)
        (db.stockExits.filterMap (outboundEvent db.skus)) w (w + week) d = 0 :=
    spanTotal_filterMap_eq_zero fun x _ v hv => outboundEvent_amount hv hm
  rw [eventTotal_activityEvents, sourceTotal_eq_add]
  -- only the table of the source counts for its metric
  cases source with
  | inbound =>
    simp only [eventMetric, ledgerActivity]
    rw [houtbound (.inl rfl), hstockout (by decide), hdiscrepancy (by decide), add_zero, add_zero,
      add_zero]
    exact (covers_inbound db).total_eq hw
  | outbound =>
    simp only [eventMetric, ledgerActivity]
    rw [hinbound (by decide) (by decide), hstockout (by decide), hdiscrepancy (by decide),
      zero_add, add_zero, add_zero]
    exact (covers_outbound db).total_eq hw
  | stockout =>
    simp only [eventMetric, ledgerActivity]
    rw [hinbound (by decide) (by decide), houtbound (.inr (.inl rfl)), hdiscrepancy (by decide),
      zero_add, zero_add, add_zero, ← List.filterMap_eq_map]
    exact (covers_stockout db).total_eq hw
  | discrepancy =>
    simp only [eventMetric, ledgerActivity]
    rw [hinbound (by decide) (by decide), houtbound (.inr (.inr rfl)), hstockout (by decide),
      zero_add, zero_add, zero_add, ← List.filterMap_eq_map]
    exact (covers_discrepancy db).total_eq hw

/-! ## Validity -/

/-- The records of a table have distinct ids if its rows do. -/
theorem nodup_filterMap_ids {α : Type} {rows : List α} {record : α → Option EventRecord}
    {id : α → ℕ} (hn : (rows.map id).Nodup) (hid : ∀ x r, record x = some r → r.id = id x) :
    ((rows.filterMap record).map (·.id)).Nodup := by
  have hsub : ((rows.filterMap record).map (·.id)).Sublist (rows.map fun x => (id x : ℤ)) := by
    clear hn
    induction rows with
    | nil => exact .slnil
    | cons x rows ih =>
      rw [List.filterMap_cons, List.map_cons]
      cases hx : record x with
      | none => exact ih.cons _
      | some r =>
        rw [List.map_cons, hid x r hx]
        exact ih.cons_cons _
  refine List.Nodup.sublist hsub ?_
  have hcast : rows.map (fun x => (id x : ℤ)) = (rows.map id).map Nat.cast := by
    rw [List.map_map]
    rfl
  rw [hcast]
  exact hn.map Nat.cast_injective

/-- Every record describes a source row. -/
theorem exists_describes (db : Ledger) (source : EventSource) (h : r ∈ ledgerActivity db source) :
    ∃ v ∈ sourceEvents db, Describes source r v := by
  have hcover {α : Type} {rows : List α} {record : α → Option EventRecord}
      {event : α → Option SourceEvent} (hc : Covers source rows record event)
      (hsub : ∀ v ∈ rows.filterMap event, v ∈ sourceEvents db)
      (hr : r ∈ rows.filterMap record) : ∃ v ∈ sourceEvents db, Describes source r v := by
    obtain ⟨x, hx, hxr⟩ := List.mem_filterMap.1 hr
    have hdesc := hc x hx
    cases hv : event x with
    | none => simp only [hxr, hv] at hdesc
    | some v =>
      simp only [hxr, hv] at hdesc
      exact ⟨v, hsub v (List.mem_filterMap.2 ⟨x, hx, hv⟩), hdesc⟩
  cases source with
  | inbound =>
    refine hcover (covers_inbound db) (fun v hv => ?_) h
    simp [sourceEvents, List.mem_filterMap.1 hv]
  | outbound =>
    refine hcover (covers_outbound db) (fun v hv => ?_) h
    simp [sourceEvents, List.mem_filterMap.1 hv]
  | stockout =>
    rw [ledgerActivity, ← List.filterMap_eq_map] at h
    refine hcover (covers_stockout db) (fun v hv => ?_) h
    rw [List.filterMap_eq_map] at hv
    simp [sourceEvents, List.mem_map.1 hv]
  | discrepancy =>
    rw [ledgerActivity, ← List.filterMap_eq_map] at h
    refine hcover (covers_discrepancy db) (fun v hv => ?_) h
    rw [List.filterMap_eq_map] at hv
    simp [sourceEvents, List.mem_map.1 hv]

/-- The pairs are the dimensions, in the words of the reports. -/
theorem exists_skuPair_iff {w : ReportWarehouse} {c : UUID} :
    (∃ p ∈ skuPairs db, warehouseVocabulary p.1 = some w ∧ p.2 = c) ↔
      ∃ d ∈ dimensions db, reportWarehouse d.1 = w ∧ d.2 = c := by
  simp only [skuPairs, List.mem_map, dimensions, mem_distinct]
  constructor
  · rintro ⟨_, ⟨sku, hs, rfl⟩, hw, rfl⟩
    refine ⟨_, ⟨sku, hs, rfl⟩, ?_, rfl⟩
    simpa using hw
  · rintro ⟨_, ⟨sku, hs, rfl⟩, rfl, rfl⟩
    exact ⟨_, ⟨sku, hs, rfl⟩, by simp, rfl⟩

/-- Every event of a ledger has a SKU. -/
theorem exists_skuPair (hwf : WellFormed db) {e : NormalizedEvent}
    (he : e ∈ activityEvents (ledgerActivity db)) :
    ∃ p ∈ skuPairs db, warehouseVocabulary p.1 = some e.warehouse ∧ p.2 = e.clientId := by
  obtain ⟨source, -, he⟩ := List.mem_flatMap.1 he
  obtain ⟨r, hr, rfl⟩ := List.mem_map.1 he
  obtain ⟨v, hv, hdesc⟩ := exists_describes db source hr
  refine exists_skuPair_iff.2 ⟨v.dim, dim_mem_dimensions hwf hv, ?_, hdesc.clientId.symm⟩
  simp [normalized, hdesc.warehouse, SourceEvent.dim]

/-- **The records of a ledger pass every check.** -/
theorem ledgerActivity_valid (hwf : WellFormed db) (hc : Constrained db) :
    ValidActivity (ledgerActivity db) := by
  constructor
  · intro source r hr
    have hwarehouse : ∃ w, warehouseVocabulary r.warehouse = some w := by
      obtain ⟨v, -, hdesc⟩ := exists_describes db source hr
      exact ⟨_, hdesc.warehouse ▸ warehouseVocabulary_code v.warehouse⟩
    cases source with
    | inbound =>
      obtain ⟨e, he, hrec⟩ := List.mem_filterMap.1 hr
      obtain ⟨sku, -, rfl⟩ := Option.map_eq_some_iff.1 hrec
      have hid : (0 : ℤ) < e.id := by exact_mod_cast hc.entryIds e he
      have hq : (0 : ℤ) < e.quantity := by exact_mod_cast (hwf.entrySku e he).1
      exact ⟨hid, ⟨_, congrArg (some <$> ·) (positiveInt_of_pos hq _)⟩, hwarehouse⟩
    | outbound =>
      obtain ⟨x, hx, hrec⟩ := List.mem_filterMap.1 hr
      unfold outboundRecord at hrec
      split at hrec
      · obtain ⟨sku, -, rfl⟩ := Option.map_eq_some_iff.1 hrec
        have hid : (0 : ℤ) < x.id := by exact_mod_cast hc.exitIds x hx
        have hq : (0 : ℤ) < x.quantity := by exact_mod_cast (hwf.exitSku x hx).1
        exact ⟨hid, ⟨_, congrArg (some <$> ·) (positiveInt_of_pos hq _)⟩, hwarehouse⟩
      · cases hrec
    | stockout =>
      obtain ⟨v, hv, rfl⟩ := List.mem_map.1 hr
      have hid : (0 : ℤ) < v.id := by exact_mod_cast hc.stockoutIds.1 v hv
      exact ⟨hid, ⟨none, rfl⟩, hwarehouse⟩
    | discrepancy =>
      obtain ⟨d, hd, rfl⟩ := List.mem_map.1 hr
      have hid : (0 : ℤ) < d.id := by exact_mod_cast hc.discrepancyIds.1 d hd
      have hq := hc.quantityDelta d hd
      exact ⟨hid, ⟨_, congrArg (some <$> ·) (nonzeroInt_of_ne hq _)⟩, hwarehouse⟩
  · intro source
    cases source with
    | inbound =>
      refine nodup_filterMap_ids hwf.entryIds fun e r hrec => ?_
      obtain ⟨sku, -, rfl⟩ := Option.map_eq_some_iff.1 hrec
      rfl
    | outbound =>
      refine nodup_filterMap_ids hwf.exitIds fun x r hrec => ?_
      unfold outboundRecord at hrec
      split at hrec
      · obtain ⟨sku, -, rfl⟩ := Option.map_eq_some_iff.1 hrec
        rfl
      · cases hrec
    | stockout =>
      rw [ledgerActivity, ← List.filterMap_eq_map (f := stockoutRecord)]
      refine nodup_filterMap_ids hc.stockoutIds.2 fun v r hrec => ?_
      cases hrec
      rfl
    | discrepancy =>
      rw [ledgerActivity, ← List.filterMap_eq_map (f := discrepancyRecord)]
      refine nodup_filterMap_ids hc.discrepancyIds.2 fun d r hrec => ?_
      cases hrec
      rfl

end Describes

end Reporting

end TrackFlow
