import TrackFlow.Inventory.Operations
import TrackFlow.Reporting.Rollups

/-!
# The source rows of a ledger

Every source row belongs to a dimension of the hourly grid (`dim_mem_dimensions`), and service
calls only add source rows (`sourceEvents_perform`), so no raw aggregate ever shrinks
(`sourceTotal_le_perform`).
-/

namespace TrackFlow

namespace Reporting

variable {db db' : Ledger} {m : Metric} {s e : ℕ} {d : Dimension} {v : SourceEvent}

theorem mem_sourceEvents : v ∈ sourceEvents db ↔
    (∃ r ∈ db.stockEntries, inboundEvent db.skus r = some v) ∨
      (∃ r ∈ db.stockExits, outboundEvent db.skus r = some v) ∨
      (∃ r ∈ db.stockoutEvents, stockoutEvent r = v) ∨
      ∃ r ∈ db.inventoryDiscrepancies, discrepancyEvent r = v := by
  simp [sourceEvents]

theorem mem_dimensions_of_sku {sku : SKU} (h : sku ∈ db.skus.rows) (hw : sku.warehouse = d.1)
    (hc : sku.clientId = d.2) : d ∈ dimensions db :=
  mem_distinct.2 ⟨sku, h, Prod.ext hw hc⟩

/-- The join with `skus` finds the SKU of a movement. -/
theorem lookup_of_place {k : Place} (h : ∃ sku ∈ db.skus.rows, sku.place = k) :
    ∃ sku ∈ db.skus.rows, db.skus.lookup k.1 = some sku ∧ sku.warehouse = k.2 := by
  obtain ⟨sku, hs, rfl⟩ := h
  exact ⟨sku, hs, Table.lookup_eq_some_iff.2 ⟨hs, rfl⟩, rfl⟩

/-- Every source row has a dimension of the grid. -/
theorem dim_mem_dimensions (hwf : WellFormed db) (hv : v ∈ sourceEvents db) :
    v.dim ∈ dimensions db := by
  rcases mem_sourceEvents.1 hv with ⟨r, hr, h⟩ | ⟨r, hr, h⟩ | ⟨r, hr, rfl⟩ | ⟨r, hr, rfl⟩
  · obtain ⟨sku, hs, hl, hw⟩ := lookup_of_place (hwf.entrySku r hr).2
    simp only [inboundEvent, hl, Option.map_some, Option.some.injEq] at h
    exact h ▸ mem_dimensions_of_sku hs hw rfl
  · obtain ⟨sku, hs, hl, hw⟩ := lookup_of_place (hwf.exitSku r hr).2
    simp only [outboundEvent, hl, Option.map_some, Option.some.injEq] at h
    exact h ▸ mem_dimensions_of_sku hs hw rfl
  · obtain ⟨sku, hs, hp, hc⟩ := hwf.stockoutSku r hr
    exact mem_dimensions_of_sku hs (congrArg Prod.snd hp) hc
  · obtain ⟨sku, hs, hp, hc⟩ := hwf.discrepancySku r hr
    exact mem_dimensions_of_sku hs (congrArg Prod.snd hp) hc

/-- Outside the dimensions of the grid there is nothing to aggregate. -/
theorem sourceTotal_eq_zero (hwf : WellFormed db) (hd : d ∉ dimensions db) :
    sourceTotal db m s e d = 0 :=
  spanTotal_eq_zero fun _ hv _ _ he => absurd (he ▸ dim_mem_dimensions hwf hv) hd

/-- The raw aggregate, table by table. -/
theorem sourceTotal_eq_add (db : Ledger) (m : Metric) (s e : ℕ) (d : Dimension) :
    sourceTotal db m s e d =
      spanTotal SourceEvent.time SourceEvent.dim (·.amount m)
          (db.stockEntries.filterMap (inboundEvent db.skus)) s e d +
        spanTotal SourceEvent.time SourceEvent.dim (·.amount m)
          (db.stockExits.filterMap (outboundEvent db.skus)) s e d +
        spanTotal SourceEvent.time SourceEvent.dim (·.amount m)
          (db.stockoutEvents.filterMap (some ∘ stockoutEvent)) s e d +
        spanTotal SourceEvent.time SourceEvent.dim (·.amount m)
          (db.inventoryDiscrepancies.filterMap (some ∘ discrepancyEvent)) s e d := by
  simp only [sourceTotal, sourceEvents, spanTotal_append, List.filterMap_eq_map]

/-- Removing rows of a table that lie before a span does not change it. -/
theorem spanTotal_filterMap_filter {α : Type} {rows : List α} {q : α → Bool}
    {event : α → Option SourceEvent}
    (h : ∀ x ∈ rows, q x = false → ∀ v, event x = some v → v.time < s) :
    spanTotal SourceEvent.time SourceEvent.dim (·.amount m) ((rows.filter q).filterMap event)
      s e d =
      spanTotal SourceEvent.time SourceEvent.dim (·.amount m) (rows.filterMap event) s e d := by
  induction rows with
  | nil => rfl
  | cons x rows ih =>
    have ih' := ih fun y hy => h y (List.mem_cons_of_mem _ hy)
    simp only [spanTotal] at ih' ⊢
    cases hq : q x with
    | true =>
      rw [List.filter_cons_of_pos hq, List.filterMap_cons, List.filterMap_cons]
      cases event x with
      | none => exact ih'
      | some v => simp only [sumWhere_cons, ih']
    | false =>
      rw [List.filter_cons_of_neg (by simp [hq]), List.filterMap_cons, ih']
      cases hv : event x with
      | none => rfl
      | some v =>
        have hlt := h x List.mem_cons_self hq v hv
        simp [not_le.2 hlt]

/-- **Rows removed before a span do not count for it.** -/
theorem sourceTotal_of_filters {qe : StockEntry → Bool} {qx : StockExit → Bool}
    {qv : StockoutEvent → Bool} {qd : InventoryDiscrepancy → Bool} (hs : db'.skus = db.skus)
    (he : db'.stockEntries = db.stockEntries.filter qe)
    (hx : db'.stockExits = db.stockExits.filter qx)
    (hv : db'.stockoutEvents = db.stockoutEvents.filter qv)
    (hd : db'.inventoryDiscrepancies = db.inventoryDiscrepancies.filter qd)
    (hqe : ∀ r ∈ db.stockEntries, qe r = false → r.createdAt < s)
    (hqx : ∀ r ∈ db.stockExits, qx r = false → r.createdAt < s)
    (hqv : ∀ r ∈ db.stockoutEvents, qv r = false → r.occurredAt < s)
    (hqd : ∀ r ∈ db.inventoryDiscrepancies, qd r = false → r.detectedAt < s) :
    sourceTotal db' m s e d = sourceTotal db m s e d := by
  rw [sourceTotal_eq_add, sourceTotal_eq_add, hs, he, hx, hv, hd]
  refine congrArg₂ (· + ·) (congrArg₂ (· + ·) (congrArg₂ (· + ·) ?_ ?_) ?_) ?_ <;>
    refine spanTotal_filterMap_filter fun r hr hq v hv => ?_
  · obtain ⟨sku, -, rfl⟩ := Option.map_eq_some_iff.1 hv
    exact hqe r hr hq
  · obtain ⟨sku, -, rfl⟩ := Option.map_eq_some_iff.1 hv
    exact hqx r hr hq
  · cases hv
    exact hqv r hr hq
  · cases hv
    exact hqd r hr hq

/-! ## Service calls -/

theorem dimensions_subset (h : SkusKept db db') (hd : d ∈ dimensions db) : d ∈ dimensions db' := by
  obtain ⟨sku, hs, rfl⟩ := mem_distinct.1 hd
  obtain ⟨sku', hs', hp, hc⟩ := h sku hs
  exact mem_dimensions_of_sku hs' (congrArg Prod.snd hp) hc

/-- Kept SKUs are joined as before. -/
theorem lookup_clientId (h : SkusKept db db') {k : Place}
    (hk : ∃ sku ∈ db.skus.rows, sku.place = k) :
    ∃ sku sku', db.skus.lookup k.1 = some sku ∧ db'.skus.lookup k.1 = some sku' ∧
      sku'.clientId = sku.clientId := by
  obtain ⟨sku, hs, rfl⟩ := hk
  obtain ⟨sku', hs', hp, hc⟩ := h sku hs
  exact ⟨sku, sku', Table.lookup_eq_some_iff.2 ⟨hs, rfl⟩,
    Table.lookup_eq_some_iff.2 ⟨hs', congrArg Prod.fst hp⟩, hc⟩

theorem inboundEvent_eq (h : SkusKept db db') {r : StockEntry}
    (hr : ∃ sku ∈ db.skus.rows, sku.place = r.place) :
    inboundEvent db'.skus r = inboundEvent db.skus r := by
  obtain ⟨sku, sku', h₁, h₂, hc⟩ := lookup_clientId h hr
  simp [inboundEvent, h₁, h₂, hc]

theorem outboundEvent_eq (h : SkusKept db db') {r : StockExit}
    (hr : ∃ sku ∈ db.skus.rows, sku.place = r.place) :
    outboundEvent db'.skus r = outboundEvent db.skus r := by
  obtain ⟨sku, sku', h₁, h₂, hc⟩ := lookup_clientId h hr
  simp [outboundEvent, h₁, h₂, hc]

/-- **A service call only adds source rows.** -/
theorem sourceEvents_perform {op : LedgerOp} (hwf : WellFormed db) (hp : op.perform db = .ok db') :
    ∃ new, (sourceEvents db').Perm (sourceEvents db ++ new) := by
  have h := LedgerOp.perform_eq_ok hp
  obtain ⟨vs, hvs, -⟩ := h.stockouts
  obtain ⟨ds, hds, -⟩ := h.discrepancies
  have he : db.stockEntries.filterMap (inboundEvent db'.skus) =
      db.stockEntries.filterMap (inboundEvent db.skus) :=
    List.filterMap_congr fun r hr => inboundEvent_eq h.skus (hwf.entrySku r hr).2
  have hx : db.stockExits.filterMap (outboundEvent db'.skus) =
      db.stockExits.filterMap (outboundEvent db.skus) :=
    List.filterMap_congr fun r hr => outboundEvent_eq h.skus (hwf.exitSku r hr).2
  refine ⟨op.entries.filterMap (inboundEvent db'.skus) ++
    op.exits.filterMap (outboundEvent db'.skus) ++ vs.map stockoutEvent ++
    ds.map discrepancyEvent, ?_⟩
  simp only [sourceEvents, h.entries, h.exits, hvs, hds, List.filterMap_append, List.map_append,
    he, hx]
  classical
  refine List.perm_iff_count.2 fun v => ?_
  simp only [List.count_append]
  omega

/-- No raw aggregate shrinks. -/
theorem sourceTotal_le_perform {op : LedgerOp} (hwf : WellFormed db)
    (hp : op.perform db = .ok db') : sourceTotal db m s e d ≤ sourceTotal db' m s e d := by
  obtain ⟨new, hperm⟩ := sourceEvents_perform hwf hp
  have hsum : sourceTotal db' m s e d = sourceTotal db m s e d +
      spanTotal SourceEvent.time SourceEvent.dim (·.amount m) new s e d := by
    rw [sourceTotal, spanTotal, sumWhere_perm hperm, sumWhere_append]
    rfl
  rw [hsum]
  exact Nat.le_add_right _ _

end Reporting

end TrackFlow
