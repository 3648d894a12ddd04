import TrackFlow.Reporting.DefaultRun
import TrackFlow.Reporting.Extraction

/-!
# The SQL rollups refine the reference computation

Two programs compute the weekly rows.  The pipeline counts hour by hour, stores the hours, and
sums them up week by week in SQL; the reference computation counts week by week from the events.
For a window of whole weeks both have one row for every week and every dimension of a SKU, and
all counts agree (`rollups_refine_reference`).

The rates are the same quotient in two decimal arithmetics: sixteen decimals or more for
PostgreSQL, twenty-eight significant digits for Python.  A third is not the same number in both
(`third_differs`).  The weekly table also bounds its counts, which the reference does not.
-/

namespace TrackFlow

namespace Reporting

/-- The hourly row counts a source row: one of its hour and its dimension. -/
def HourlyRollupRow.Counts (row : HourlyRollupRow) (v : SourceEvent) : Prop :=
  row.bucketStart = floorHour v.time ∧ row.warehouse = v.warehouse ∧ row.clientId = v.clientId

/-- The weekly row counts a source row: one of its week and its dimension. -/
def WeeklyPerformanceRow.Counts (row : WeeklyPerformanceRow) (v : SourceEvent) : Prop :=
  row.weekStart = Queue.isoWeekStart v.time ∧ row.warehouse = reportWarehouse v.warehouse ∧
    row.clientId = v.clientId

instance (row : HourlyRollupRow) (v : SourceEvent) : Decidable (row.Counts v) :=
  inferInstanceAs (Decidable (_ ∧ _))

instance (row : WeeklyPerformanceRow) (v : SourceEvent) : Decidable (row.Counts v) :=
  inferInstanceAs (Decidable (_ ∧ _))

/-- The count of a source in a stored row. -/
def WeeklyPerformance.count (w : WeeklyPerformance) : EventSource → ℕ
  | .inbound => w.inboundUnitsCount
  | .outbound => w.outboundOrdersCount
  | .stockout => w.stockoutEventsCount
  | .discrepancy => w.discrepancyEventsCount

/-- The count of a source in a reference row. -/
def WeeklyPerformanceRow.count (row : WeeklyPerformanceRow) : EventSource → ℤ
  | .inbound => row.inboundUnitsCount
  | .outbound => row.outboundOrdersCount
  | .stockout => row.stockoutEventsCount
  | .discrepancy => row.discrepancyEventsCount

/-- What the source rows of a condition add up to. -/
def countedTotal (db : Ledger) (counts : SourceEvent → Bool) (m : Metric) : ℕ :=
  sumWhere counts (·.amount m) (sourceEvents db)

/-- Every source row of the window is counted in exactly one hour and in exactly one week, and
the rows count nothing else. -/
structure CountedOnce (db : Ledger) (window : RollupWindow) (rows : List WeeklyPerformanceRow) :
    Prop where
  one_hour : ∀ v ∈ sourceEvents db, window.start ≤ v.time → v.time < window.endAt →
    ∃! row, row ∈ computeHourlyRollups db window ∧ row.Counts v
  hourly : ∀ row ∈ computeHourlyRollups db window, ∀ m,
    row.counts m = countedTotal db (fun v => decide (row.Counts v)) m
  one_week : ∀ v ∈ sourceEvents db, window.start ≤ v.time → v.time < window.endAt →
    ∃! row, row ∈ rows ∧ row.Counts v
  weekly : ∀ row ∈ rows, ∀ source,
    row.count source = countedTotal db (fun v => decide (row.Counts v)) (eventMetric source)

/-- The stored row and the reference row are of the same cell and have the same counts.  Their
rates are the same quotient, in two decimal arithmetics. -/
structure Agrees (w : WeeklyPerformance) (row : WeeklyPerformanceRow) : Prop where
  key : w.key = (row.warehouse, row.clientId, row.weekStart)
  counts : ∀ source, (w.count source : ℤ) = row.count source
  rate_zero : w.outboundOrdersCount = 0 → w.discrepancyRate = 0 ∧ row.discrepancyRate = 0
  rate_close : |w.discrepancyRate - row.discrepancyRate| ≤ 1 / 10 ^ 16
  rate_eq : w.outboundOrdersCount ∣ w.discrepancyEventsCount * 10 ^ 16 →
    w.discrepancyRate = row.discrepancyRate

/-- The weekly table has the cells of the reference rows, and is otherwise as it was. -/
structure SameCells (weekly weekly' : Table WeeklyPerformance.key)
    (rows : List WeeklyPerformanceRow) : Prop where
  written : ∀ row ∈ rows, ∃ w ∈ weekly'.rows, Agrees w row
  only : ∀ w ∈ weekly'.rows, (∃ row ∈ rows, Agrees w row) ∨ w ∈ weekly.rows ∧
    ∀ row ∈ rows, w.key ≠ (row.warehouse, row.clientId, row.weekStart)

/-- The counts of a reference row fit the columns of the weekly table. -/
def WeeklyPerformanceRow.Fits (row : WeeklyPerformanceRow) : Prop :=
  ∀ source, row.count source < integerBound

/-- A cell of the weeks of a window. -/
def InWeeks (db : Ledger) (window : RollupWindow) (w : ℕ) (d : Dimension) : Prop :=
  week ∣ w ∧ window.start ≤ w ∧ w < window.endAt ∧ d ∈ dimensions db

/-- The reference row of a weekly cell. -/
def cellRow (db : Ledger) (w : ℕ) (d : Dimension) : WeeklyPerformanceRow :=
  weekRow (w, reportWarehouse d.1, d.2) fun source =>
    (sourceTotal db (eventMetric source) w (w + week) d : ℕ)

theorem reportWarehouse_surjective : Function.Surjective reportWarehouse
  | .losAngeles => ⟨.LA, rfl⟩
  | .zaragoza => ⟨.ZGZ, rfl⟩

section Reference

variable {db : Ledger} {window : RollupWindow}

/-- No weekly cell of the window has more discrepancies than dispatches. -/
def Denominators (db : Ledger) (window : RollupWindow) : Prop :=
  ∀ w d, week ∣ w → window.start ≤ w → w < window.endAt →
    sourceTotal db .discrepancyCount w (w + week) d ≤
      sourceTotal db .dispatchOrderCount w (w + week) d

/-- **The reference rows of a ledger**: one for every week and every dimension. -/
theorem exists_reference_rows (hwf : WellFormed db) (hc : Constrained db)
    (hs : week ∣ window.start) (he : week ∣ window.endAt) (hd : Denominators db window) :
    ∃ rows, assembleWeeklyRows (ledgerActivity db) (skuPairs db)
        (steps week window.start window.endAt) = .ok rows ∧
      (rows.map (·.key)).Nodup ∧
      ∀ row, row ∈ rows ↔ ∃ w d, InWeeks db window w d ∧ row = cellRow db w d := by
  have hsteps {w : ℕ} := mem_steps_iff (t := w) (show 0 < week by decide) hs he
  have hvoc : ∀ p ∈ skuPairs db, ∃ w, warehouseVocabulary p.1 = some w := by
    intro p hp
    obtain ⟨sku, -, rfl⟩ := List.mem_map.1 hp
    exact ⟨_, warehouseVocabulary_code sku.warehouse⟩
  have htotal {w : ℕ} (hw : week ∣ w) (d : Dimension) :
      eventTotal (activityEvents (ledgerActivity db)) (w, reportWarehouse d.1, d.2) =
        fun source => ((sourceTotal db (eventMetric source) w (w + week) d : ℕ) : ℤ) :=
    funext fun source => eventTotal_ledger db source hw d
  obtain ⟨rows, hrows, hnodup, hmem⟩ := assembleWeeklyRows_eq_ok (ledgerActivity_valid hwf hc) hvoc
    (fun w hw => (hsteps.1 hw).2.2) (fun e he => exists_skuPair hwf he) (fun key hkey => by
      obtain ⟨w, rw, c⟩ := key
      obtain ⟨wh, rfl⟩ := reportWarehouse_surjective rw
      obtain ⟨h₁, h₂, hw⟩ := hsteps.1 hkey
      have hcell := congrFun (htotal hw (wh, c))
      simp only at hcell
      rw [hcell, hcell]
      exact_mod_cast hd w (wh, c) hw h₁ h₂)
  refine ⟨rows, hrows, hnodup, fun row => ?_⟩
  rw [hmem]
  constructor
  · rintro ⟨⟨w, rw, c⟩, hkey, hpair, rfl⟩
    obtain ⟨d, hdim, hw, hcl⟩ := exists_skuPair_iff.1 hpair
    simp only at hw hcl
    subst hw hcl
    obtain ⟨h₁, h₂, hw⟩ := hsteps.1 hkey
    exact ⟨w, d, ⟨hw, h₁, h₂, hdim⟩, congrArg _ (htotal hw d)⟩
  · rintro ⟨w, d, ⟨hw, h₁, h₂, hdim⟩, rfl⟩
    exact ⟨(w, reportWarehouse d.1, d.2), hsteps.2 ⟨h₁, h₂, hw⟩,
      exists_skuPair_iff.2 ⟨d, hdim, rfl, rfl⟩, congrArg _ (htotal hw d).symm⟩

/-! ## What is counted where -/

/-- Of the reference rows, exactly one counts a source row. -/
theorem cellRow_counts_iff {w : ℕ} {d : Dimension} {v : SourceEvent} (hw : week ∣ w) :
    (cellRow db w d).Counts v ↔ w ≤ v.time ∧ v.time < w + week ∧ v.dim = d := by
  have hweek : w = Queue.isoWeekStart v.time ↔ w ≤ v.time ∧ v.time < w + week := by
    rw [eq_comm]
    exact floorTo_eq_iff (by decide) hw
  have hdim : (reportWarehouse d.1 = reportWarehouse v.warehouse ∧ d.2 = v.clientId) ↔
      v.dim = d := by
    rw [reportWarehouse_injective.eq_iff, SourceEvent.dim, Prod.ext_iff, eq_comm,
      eq_comm (a := d.2)]
  simp only [WeeklyPerformanceRow.Counts, cellRow, weekRow, hweek, hdim, and_assoc]

theorem cellRow_count (w : ℕ) (d : Dimension) (source : EventSource) :
    (cellRow db w d).count source = (sourceTotal db (eventMetric source) w (w + week) d : ℕ) := by
  cases source <;> rfl

/-- **Each source row is counted once**, in one hour and in one week. -/
theorem countedOnce (hwf : WellFormed db) (hs : week ∣ window.start) (he : week ∣ window.endAt)
    {rows : List WeeklyPerformanceRow}
    (hrows : ∀ row, row ∈ rows ↔ ∃ w d, InWeeks db window w d ∧ row = cellRow db w d) :
    CountedOnce db window rows := by
  have hsh : hour ∣ window.start := dvd_trans (by decide) hs
  have heh : hour ∣ window.endAt := dvd_trans (by decide) he
  have hspan {n g : ℕ} (hn : 0 < n) (hg : n ∣ g) (d : Dimension) (v : SourceEvent) :
      (decide (g ≤ v.time) && decide (v.time < g + n) && decide (v.dim = d)) =
        decide (floorTo n v.time = g ∧ v.dim = d) := by
    simp only [floorTo_eq_iff hn hg, Bool.decide_and]
  constructor
  · intro v hv h₁ h₂
    have hd : v.dim ∈ dimensions db := dim_mem_dimensions hwf hv
    refine ⟨_, ⟨(mem_computeHourlyRollups hsh heh).2 ⟨floorHour v.time, v.dim, dvd_floorTo _ _,
      (le_floorTo_iff (by decide) hsh).2 h₁, (floorTo_lt_iff (by decide) heh).2 h₂, hd, rfl⟩,
      rfl, rfl, rfl⟩, ?_⟩
    rintro row ⟨hrow, hb, hw, hc⟩
    obtain ⟨b, d, -, -, -, -, rfl⟩ := (mem_computeHourlyRollups hsh heh).1 hrow
    obtain rfl : b = floorHour v.time := hb
    obtain rfl : d = v.dim := Prod.ext hw hc
    rfl
  · intro row hrow m
    obtain ⟨b, d, hb, -, -, -, rfl⟩ := (mem_computeHourlyRollups hsh heh).1 hrow
    refine congrArg Nat.cast (sumWhere_congr (fun v _ => ?_) fun _ _ _ => rfl)
    rw [hspan (by decide) hb]
    refine decide_eq_decide.2 ?_
    rw [HourlyRollupRow.Counts, eq_comm, SourceEvent.dim, Prod.ext_iff, eq_comm (a := v.warehouse),
      eq_comm (a := v.clientId)]
    rfl
  · intro v hv h₁ h₂
    have hd : v.dim ∈ dimensions db := dim_mem_dimensions hwf hv
    have hw : week ∣ Queue.isoWeekStart v.time := dvd_floorTo _ _
    refine ⟨cellRow db (Queue.isoWeekStart v.time) v.dim, ⟨(hrows _).2 ⟨_, _, ⟨hw,
      (le_floorTo_iff (by decide) hs).2 h₁, (floorTo_lt_iff (by decide) he).2 h₂, hd⟩, rfl⟩,
      rfl, rfl, rfl⟩, ?_⟩
    rintro row ⟨hrow, hcount⟩
    obtain ⟨w, d, hin, rfl⟩ := (hrows row).1 hrow
    obtain ⟨hle, hlt, rfl⟩ := (cellRow_counts_iff hin.1).1 hcount
    rw [Queue.isoWeekStart, (floorTo_eq_iff (by decide) hin.1).2 ⟨hle, hlt⟩]
  · intro row hrow source
    obtain ⟨w, d, hin, rfl⟩ := (hrows row).1 hrow
    rw [cellRow_count]
    refine congrArg Nat.cast (sumWhere_congr (fun v _ => ?_) fun _ _ _ => rfl)
    rw [← Bool.decide_and, ← Bool.decide_and]
    refine decide_eq_decide.2 ?_
    rw [cellRow_counts_iff hin.1, and_assoc]

end Reference

/-! ## The stored rows -/

section Stored

variable {db : Ledger} {window : RollupWindow} {pipelineVersion : String}
  {hourly hourly' : Table HourlyActivityRollup.key} {weekly weekly' : Table WeeklyPerformance.key}
  {w n : ℕ} {d : Dimension}

/-- The groups of the weekly upsert are the cells of the weeks. -/
theorem mem_weeklyGroups_iff (hov : Overlaid db window pipelineVersion hourly hourly')
    (hfk : ∀ r ∈ hourly.rows, r.dim ∈ dimensions db) (hs : week ∣ window.start)
    (he : week ∣ window.endAt) :
    (w, d) ∈ weeklyGroups (onTime window.sourceCutoffAt hourly'.rows) window.start window.endAt ↔
      InWeeks db window w d := by
  constructor
  · intro h
    have hgroup : (w, d) ∈ weeklyGroups (onTime window.sourceCutoffAt hourly'.rows)
        (window.start, window.endAt).1 (window.start, window.endAt).2 := h
    obtain ⟨hw, h₁, h₂, -⟩ := group_bounds hs he hgroup
    obtain ⟨r, hr, -, -, -, rfl⟩ := mem_weeklyGroups.1 h
    have hdim : r.dim ∈ dimensions db := by
      by_cases hin : InGrid db window r
      · exact hin.2.2
      · exact hfk r ((hov.outside r hin).1 (List.mem_filter.1 hr).1)
    exact ⟨hw, h₁, h₂, hdim⟩
  · rintro ⟨hw, h₁, h₂, hd⟩
    -- the first hour of the week has a rollup
    obtain ⟨r, hr, rfl, rfl⟩ := hov.complete w d (dvd_trans (by decide) hw) h₁ h₂ hd
    have hcut := (hov.inside r hr ⟨h₁, h₂, hd⟩).2.1
    exact mem_weeklyGroups.2 ⟨r, List.mem_filter.2 ⟨hr, by simp [hcut]⟩, h₁, h₂,
      (floorTo_eq_self_iff week _).2 hw, rfl⟩

/-- The totals of a group are the raw aggregates. -/
theorem actualTotal_overlaid (hov : Overlaid db window pipelineVersion hourly hourly')
    (hwf : WellFormed db) (hfk : ∀ r ∈ hourly.rows, r.dim ∈ dimensions db)
    (he : week ∣ window.endAt) (hin : InWeeks db window w d) :
    actualTotal (onTime window.sourceCutoffAt hourly'.rows) window.start window.endAt w d =
      fun m => sourceTotal db m w (w + week) d := by
  obtain ⟨hw, h₁, h₂, -⟩ := hin
  have hle : w + week ≤ window.endAt := add_le_of_dvd_of_lt hw he h₂
  have hhour : hour ∣ w := dvd_trans (by decide) hw
  funext m
  rw [actualTotal_eq hw h₁ hle, hov.onTime_inside hfk h₁ hle]
  exact hov.span_inside hwf hfk hhour ((Nat.dvd_add_right hhour).2 (by decide)) h₁ hle

theorem cellRow_fits_iff :
    (cellRow db w d).Fits ↔ Fits fun m => sourceTotal db m w (w + week) d := by
  simp only [WeeklyPerformanceRow.Fits, cellRow_count, Nat.cast_lt]
  constructor
  · intro h
    exact ⟨h .inbound, h .outbound, h .stockout, h .discrepancy⟩
  · rintro ⟨h₁, h₂, h₃, h₄⟩ (_ | _ | _ | _)
    exacts [h₁, h₂, h₃, h₄]

/-- The rate that a weekly row stores. -/
theorem weeklyRow_rate {total : Metric → ℕ} {row : WeeklyPerformance}
    (h : weeklyRow d w total = some row) :
    row.discrepancyRate =
      discrepancyRate (total .discrepancyCount) (total .dispatchOrderCount) := by
  unfold weeklyRow at h
  split_ifs at h
  cases h
  rfl

/-- **The stored row of a cell agrees with its reference row.** -/
theorem agrees_cellRow {row : WeeklyPerformance}
    (h : (weeklyRow d w fun m => sourceTotal db m w (w + week) d) = some row)
    (hd : sourceTotal db .discrepancyCount w (w + week) d ≤
      sourceTotal db .dispatchOrderCount w (w + week) d) : Agrees row (cellRow db w d) := by
  obtain ⟨h₁, h₂, h₃, -, h₄, h₅, h₆, h₇⟩ := weeklyRow_eq_some h
  have hrate := weeklyRow_rate h
  have hcounts : ∀ source, (row.count source : ℤ) = (cellRow db w d).count source := by
    intro source
    rw [cellRow_count]
    cases source <;> simp only [WeeklyPerformance.count, eventMetric, h₄, h₅, h₆, h₇]
  set k := sourceTotal db .dispatchOrderCount w (w + week) d with hk
  set x := sourceTotal db .discrepancyCount w (w + week) d with hx
  have hsql : row.discrepancyRate = if k = 0 then 0 else Decimal.numericDiv x k := hrate
  have href : (cellRow db w d).discrepancyRate = if k = 0 then 0 else Decimal.decimalDiv x k := by
    simp only [cellRow, weekRow, eventMetric, ← hk, ← hx, Nat.cast_eq_zero, Int.toNat_natCast]
  refine ⟨?_, hcounts, ?_, ?_, ?_⟩
  · rw [WeeklyPerformance.key, h₁, h₂, h₃]
    rfl
  · intro hzero
    rw [h₅] at hzero
    rw [hsql, href, if_pos hzero, if_pos hzero]
    exact ⟨rfl, rfl⟩
  · rw [hsql, href]
    split_ifs with h0
    · rw [sub_zero, abs_zero]
      positivity
    · exact Decimal.abs_numericDiv_sub_decimalDiv_le (Nat.pos_of_ne_zero h0) hd
  · intro hdvd
    rw [h₅, h₇] at hdvd
    rw [hsql, href]
    split_ifs with h0
    · rfl
    · exact Decimal.numericDiv_eq_decimalDiv (Nat.pos_of_ne_zero h0) hd hdvd

/-- **What the weekly upsert needs**: every cell has to fit its columns. -/
theorem exists_upsertWeekly_iff (weekly : Table WeeklyPerformance.key)
    (hov : Overlaid db window pipelineVersion hourly hourly') (hwf : WellFormed db)
    (hcl : ClientsExist db) (hfk : ∀ r ∈ hourly.rows, r.dim ∈ dimensions db)
    (hs : week ∣ window.start) (he : week ∣ window.endAt) (hd : Denominators db window) :
    (∃ n weekly', upsertWeekly db weekly hourly'.rows window.start window.endAt
        window.sourceCutoffAt = .ok (n, weekly')) ↔
      ∀ w d, InWeeks db window w d → (cellRow db w d).Fits := by
  have hsome {w : ℕ} {d : Dimension} (hin : InWeeks db window w d) :
      (weeklyRow d w (actualTotal (onTime window.sourceCutoffAt hourly'.rows) window.start
        window.endAt w d)).isSome ↔ (cellRow db w d).Fits := by
    rw [actualTotal_overlaid hov hwf hfk he hin, weeklyRow_isSome_iff, cellRow_fits_iff]
    exact and_iff_left ⟨.inr (hd w d hin.1 hin.2.1 hin.2.2.1), hin.1⟩
  constructor
  · rintro ⟨n, weekly', h⟩ w d hin
    obtain ⟨payload, -, hp, -⟩ := upsertWeekly_eq_ok_iff.1 h
    have hgroup := (mem_weeklyGroups_iff hov hfk hs he).2 hin
    exact (hsome hin).1 (exists_mapM_iff.1 ⟨payload, hp⟩ (w, d) hgroup)
  · intro h
    obtain ⟨payload, hp⟩ := exists_mapM_iff.2 fun (k : ℕ × Dimension) hk => by
      have hin : InWeeks db window k.1 k.2 := (mem_weeklyGroups_iff hov hfk hs he).1 hk
      exact (hsome hin).2 (h k.1 k.2 hin)
    refine ⟨_, _, upsertWeekly_eq_ok_iff.2
      ⟨payload, keysDistinct_weeklyRows hp, hp, fun row hrow => ?_, rfl, rfl⟩⟩
    obtain ⟨k, hk, hkrow⟩ := (mem_of_mapM hp row).1 hrow
    obtain ⟨-, -, -, hdim⟩ := (mem_weeklyGroups_iff hov hfk hs he).1 hk
    obtain ⟨sku, hsku, hdsku⟩ := mem_distinct.1 hdim
    obtain ⟨c, hc, hid⟩ := hcl sku hsku
    have hclient : sku.clientId = row.clientId :=
      (congrArg Prod.snd hdsku).trans (weeklyRow_eq_some hkrow).2.1.symm
    exact List.any_eq_true.2 ⟨c, hc, by simp [hid, hclient]⟩

/-- **What the weekly upsert writes**: one row for every cell of the weeks. -/
theorem mem_upsertWeekly (hov : Overlaid db window pipelineVersion hourly hourly')
    (hwf : WellFormed db) (hfk : ∀ r ∈ hourly.rows, r.dim ∈ dimensions db)
    (hs : week ∣ window.start) (he : week ∣ window.endAt)
    (h : upsertWeekly db weekly hourly'.rows window.start window.endAt window.sourceCutoffAt =
      .ok (n, weekly')) (row : WeeklyPerformance) :
    row ∈ weekly'.rows ↔
      (∃ w d, InWeeks db window w d ∧
        (weeklyRow d w fun m => sourceTotal db m w (w + week) d) = some row) ∨
      row ∈ weekly.rows ∧
        ∀ w d, InWeeks db window w d → row.key ≠ (reportWarehouse d.1, d.2, w) := by
  obtain ⟨payload, hk, hp, -, -, rfl⟩ := upsertWeekly_eq_ok_iff.1 h
  have hmem (row : WeeklyPerformance) : row ∈ payload ↔ ∃ w d, InWeeks db window w d ∧
      (weeklyRow d w fun m => sourceTotal db m w (w + week) d) = some row := by
    rw [mem_of_mapM hp, Prod.exists]
    refine exists₂_congr fun w d => ?_
    rw [mem_weeklyGroups_iff hov hfk hs he]
    refine and_congr_right fun hin => ?_
    rw [actualTotal_overlaid hov hwf hfk he hin]
  have hkeys : row.key ∈ payload.map (·.key) ↔
      ∃ w d, InWeeks db window w d ∧ row.key = (reportWarehouse d.1, d.2, w) := by
    rw [List.mem_map]
    constructor
    · rintro ⟨row', hrow', hkey⟩
      obtain ⟨w, d, hin, hrow'⟩ := (hmem row').1 hrow'
      obtain ⟨h₁, h₂, h₃, -⟩ := weeklyRow_eq_some hrow'
      refine ⟨w, d, hin, ?_⟩
      rw [← hkey, WeeklyPerformance.key, h₁, h₂, h₃]
    · rintro ⟨w, d, hin, hkey⟩
      have hgroup := (mem_weeklyGroups_iff hov hfk hs he).2 hin
      obtain ⟨row', hrow'⟩ := Option.isSome_iff_exists.1
        (exists_mapM_iff.1 ⟨payload, hp⟩ (w, d) hgroup)
      obtain ⟨h₁, h₂, h₃, -⟩ := weeklyRow_eq_some hrow'
      refine ⟨row', (mem_of_mapM hp row').2 ⟨(w, d), hgroup, hrow'⟩, ?_⟩
      rw [hkey, WeeklyPerformance.key, h₁, h₂, h₃]
  rw [Table.mem_upsertAll, hmem, hkeys, or_comm]
  simp only [not_exists, not_and]

/-- The weekly table has the cells of the reference rows. -/
theorem sameCells (hov : Overlaid db window pipelineVersion hourly hourly') (hwf : WellFormed db)
    (hfk : ∀ r ∈ hourly.rows, r.dim ∈ dimensions db) (hs : week ∣ window.start)
    (he : week ∣ window.endAt) (hd : Denominators db window) {rows : List WeeklyPerformanceRow}
    (hrows : ∀ row, row ∈ rows ↔ ∃ w d, InWeeks db window w d ∧ row = cellRow db w d)
    (h : upsertWeekly db weekly hourly'.rows window.start window.endAt window.sourceCutoffAt =
      .ok (n, weekly')) : SameCells weekly weekly' rows := by
  have hmem := mem_upsertWeekly hov hwf hfk hs he h
  constructor
  · intro row hrow
    obtain ⟨w, d, hin, rfl⟩ := (hrows row).1 hrow
    obtain ⟨payload, -, hp, -⟩ := upsertWeekly_eq_ok_iff.1 h
    have hsome := exists_mapM_iff.1 ⟨payload, hp⟩ (w, d)
      ((mem_weeklyGroups_iff hov hfk hs he).2 hin)
    rw [actualTotal_overlaid hov hwf hfk he hin] at hsome
    obtain ⟨stored, hstored⟩ := Option.isSome_iff_exists.1 hsome
    exact ⟨stored, (hmem stored).2 (.inl ⟨w, d, hin, hstored⟩),
      agrees_cellRow hstored (hd w d hin.1 hin.2.1 hin.2.2.1)⟩
  · intro stored hstored
    rcases (hmem stored).1 hstored with ⟨w, d, hin, hrow⟩ | ⟨hold, hkeys⟩
    · exact .inl ⟨cellRow db w d, (hrows _).2 ⟨w, d, hin, rfl⟩,
        agrees_cellRow hrow (hd w d hin.1 hin.2.1 hin.2.2.1)⟩
    · refine .inr ⟨hold, fun row hrow => ?_⟩
      obtain ⟨w, d, hin, rfl⟩ := (hrows row).1 hrow
      exact hkeys w d hin

end Stored

/-! ## The refinement -/

/-- **The rollups refine the reference computation.**  For a window of whole weeks the reference
has a result, the computed hours can be published, and the weekly upsert then succeeds if and only
if the counts fit their columns.  Its rows are those of the reference: the same cells, the same
counts, and rates that are the same quotient.  Every source row is counted once, in one hour and
in one week. -/
theorem rollups_refine_reference {db : Ledger} {window : RollupWindow}
    {hourly : Table HourlyActivityRollup.key} (hwf : WellFormed db) (hcl : ClientsExist db)
    (hc : Constrained db) (hs : week ∣ window.start) (he : week ∣ window.endAt)
    (hfk : ∀ r ∈ hourly.rows, r.dim ∈ dimensions db) (hd : Denominators db window)
    (weekly : Table WeeklyPerformance.key) (pipelineVersion : String) :
    ∃ rows hourly', assembleWeeklyRows (ledgerActivity db) (skuPairs db)
        (steps week window.start window.endAt) = .ok rows ∧
      candidateHourly db hourly window (some (computeHourlyRollups db window)) pipelineVersion =
        .ok hourly' ∧
      ((∃ n weekly', upsertWeekly db weekly hourly'.rows window.start window.endAt
        window.sourceCutoffAt = .ok (n, weekly')) ↔ ∀ row ∈ rows, row.Fits) ∧
      (∀ n weekly', upsertWeekly db weekly hourly'.rows window.start window.endAt
        window.sourceCutoffAt = .ok (n, weekly') → SameCells weekly weekly' rows) ∧
      CountedOnce db window rows := by
  have hsh : hour ∣ window.start := dvd_trans (by decide) hs
  have heh : hour ∣ window.endAt := dvd_trans (by decide) he
  obtain ⟨rows, hrows, -, hmem⟩ := exists_reference_rows hwf hc hs he hd
  obtain ⟨hourly', hh⟩ := exists_candidate hourly pipelineVersion hsh heh hcl
  have hov := Overlaid.of_candidate hsh heh hh
  refine ⟨rows, hourly', hrows, hh, ?_, fun n weekly' h => ?_, countedOnce hwf hs he hmem⟩
  · rw [exists_upsertWeekly_iff weekly hov hwf hcl hfk hs he hd]
    constructor
    · intro h row hrow
      obtain ⟨w, d, hin, rfl⟩ := (hmem row).1 hrow
      exact h w d hin
    · intro h w d hin
      exact h _ ((hmem _).2 ⟨w, d, hin, rfl⟩)
  · exact sameCells hov hwf hfk hs he hd hmem h

/-! ### A discrepancy in three orders -/

/-- One receipt, three dispatches on the same Monday, and a discrepancy of one of them: the last
dispatch lies on the midnight that ends the day. -/
def threeOrders : Ledger :=
  { oneReceipt with
    stockExits :=
      [⟨1, 1, 1, .dispatch, some "T-1", .LA, newYear + 11 * hour, "warehouse-user"⟩,
        ⟨2, 1, 1, .dispatch, some "T-2", .LA, newYear + 12 * hour, "warehouse-user"⟩,
        ⟨3, 1, 1, .dispatch, some "T-3", .LA, newYear + day, "warehouse-user"⟩]
    inventoryDiscrepancies := [⟨1, 3, 1, .LA, 1, -1, .manual, newYear + day, some "warehouse-user"⟩]
    stockBalances := ⟨[⟨1, .LA, 2⟩], by decide⟩ }

/-- The week of the three orders. -/
def newYearWeek : RollupWindow := ⟨newYear, newYear + week, newYear + week, 5⟩

theorem wellFormed_threeOrders : WellFormed threeOrders := by
  constructor <;> decide

theorem clientsExist_threeOrders : ClientsExist threeOrders := by
  unfold ClientsExist
  decide

theorem constrained_threeOrders : Constrained threeOrders := by
  constructor <;> decide

/-- The only cell of the week. -/
theorem inWeeks_threeOrders {w : ℕ} {d : Dimension} (h : InWeeks threeOrders newYearWeek w d) :
    w = newYear ∧ d = (.LA, 1) := by
  obtain ⟨hw, h₁, h₂, hd⟩ := h
  have hdims : dimensions threeOrders = [(.LA, 1)] := by decide
  refine ⟨?_, List.mem_singleton.1 (hdims ▸ hd)⟩
  have hfloor : floorTo week w = newYear := (floorTo_eq_iff (by decide) (by decide)).2 ⟨h₁, h₂⟩
  exact ((floorTo_eq_self_iff week w).2 hw).symm.trans hfloor

theorem totals_threeOrders (source : EventSource) :
    sourceTotal threeOrders (eventMetric source) newYear (newYear + week) (.LA, 1) =
      match source with
      | .inbound => 5
      | .outbound => 3
      | .stockout => 0
      | .discrepancy => 1 := by
  cases source <;> decide

theorem denominators_threeOrders : Denominators threeOrders newYearWeek := by
  intro w d hw h₁ h₂
  by_cases hd : d ∈ dimensions threeOrders
  · obtain ⟨rfl, rfl⟩ := inWeeks_threeOrders ⟨hw, h₁, h₂, hd⟩
    have hx := totals_threeOrders .discrepancy
    have hk := totals_threeOrders .outbound
    simp only [eventMetric] at hx hk
    omega
  · rw [sourceTotal_eq_zero wellFormed_threeOrders hd]
    exact Nat.zero_le _

theorem rollups_refine_reference_three_orders :
    ∃ rows hourly', assembleWeeklyRows (ledgerActivity threeOrders) (skuPairs threeOrders)
        (steps week newYearWeek.start newYearWeek.endAt) = .ok rows ∧
      candidateHourly threeOrders .empty newYearWeek
        (some (computeHourlyRollups threeOrders newYearWeek)) rollupPipelineVersion =
          .ok hourly' ∧
      ((∃ n weekly', upsertWeekly threeOrders .empty hourly'.rows newYearWeek.start
        newYearWeek.endAt newYearWeek.sourceCutoffAt = .ok (n, weekly')) ↔
          ∀ row ∈ rows, row.Fits) ∧
      (∀ n weekly', upsertWeekly threeOrders .empty hourly'.rows newYearWeek.start
        newYearWeek.endAt newYearWeek.sourceCutoffAt = .ok (n, weekly') →
          SameCells .empty weekly' rows) ∧
      CountedOnce threeOrders newYearWeek rows :=
  rollups_refine_reference wellFormed_threeOrders clientsExist_threeOrders constrained_threeOrders
    (by decide) (by decide) (fun r hr => by cases hr) denominators_threeOrders
    .empty rollupPipelineVersion

/-- **A third differs**: both programs have a row for the week, and their rates are not equal. -/
theorem third_differs :
    ∃ rows hourly' n weekly', assembleWeeklyRows (ledgerActivity threeOrders)
        (skuPairs threeOrders) (steps week newYearWeek.start newYearWeek.endAt) = .ok rows ∧
      candidateHourly threeOrders .empty newYearWeek
        (some (computeHourlyRollups threeOrders newYearWeek)) rollupPipelineVersion =
          .ok hourly' ∧
      upsertWeekly threeOrders .empty hourly'.rows newYearWeek.start newYearWeek.endAt
        newYearWeek.sourceCutoffAt = .ok (n, weekly') ∧
      (WellFormed threeOrders ∧ ClientsExist threeOrders ∧ Constrained threeOrders ∧
        Denominators threeOrders newYearWeek) ∧
      ∃ stored ∈ weekly'.rows, ∃ row ∈ rows,
        stored.key = (row.warehouse, row.clientId, row.weekStart) ∧
          stored.discrepancyRate ≠ row.discrepancyRate := by
  have hwf := wellFormed_threeOrders
  have hs : week ∣ newYearWeek.start := by decide
  have he : week ∣ newYearWeek.endAt := by decide
  have hfk : ∀ r ∈ (.empty : Table HourlyActivityRollup.key).rows, r.dim ∈ dimensions threeOrders :=
    fun r hr => by cases hr
  have hd := denominators_threeOrders
  have hin : InWeeks threeOrders newYearWeek newYear (.LA, 1) := by
    refine ⟨hs, le_rfl, by decide, by decide⟩
  obtain ⟨rows, hrows, -, hmem⟩ := exists_reference_rows hwf constrained_threeOrders hs he hd
  obtain ⟨hourly', hh⟩ := exists_candidate .empty rollupPipelineVersion (dvd_trans (by decide) hs)
    (dvd_trans (by decide) he) clientsExist_threeOrders
  have hov := Overlaid.of_candidate (dvd_trans (by decide) hs) (dvd_trans (by decide) he) hh
  have hfits : (cellRow threeOrders newYear (.LA, 1)).Fits := by
    intro source
    rw [cellRow_count, totals_threeOrders]
    cases source <;> decide
  obtain ⟨n, weekly', hup⟩ := (exists_upsertWeekly_iff .empty hov hwf
      clientsExist_threeOrders hfk hs he hd).2 fun w d hwd => by
    obtain ⟨rfl, rfl⟩ := inWeeks_threeOrders hwd
    exact hfits
  have hle := hd newYear (.LA, 1) hs hin.2.1 hin.2.2.1
  obtain ⟨stored, hstored⟩ := Option.isSome_iff_exists.1
    (weeklyRow_isSome_iff.2 ⟨cellRow_fits_iff.1 hfits, .inr hle, hs⟩)
  refine ⟨rows, hourly', n, weekly', hrows, hh, hup,
    ⟨hwf, clientsExist_threeOrders, constrained_threeOrders, hd⟩, stored,
    (mem_upsertWeekly hov hwf hfk hs he hup stored).2 (.inl ⟨newYear, _, hin, hstored⟩),
    cellRow threeOrders newYear (.LA, 1), (hmem _).2 ⟨newYear, _, hin, rfl⟩,
    (agrees_cellRow hstored hle).key, ?_⟩
  have hx := totals_threeOrders .discrepancy
  have hk := totals_threeOrders .outbound
  have hsql : stored.discrepancyRate = Decimal.numericDiv 1 3 := by
    rw [weeklyRow_rate hstored]
    simp only [eventMetric] at hx hk
    rw [hx, hk]
    rfl
  have href : (cellRow threeOrders newYear (.LA, 1)).discrepancyRate = Decimal.decimalDiv 1 3 := by
    simp only [cellRow, weekRow, hx, hk]
    rfl
  rw [hsql, href]
  exact Decimal.numericDiv_one_three_ne

end Reporting

end TrackFlow
