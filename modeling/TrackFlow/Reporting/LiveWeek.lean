import TrackFlow.Inventory.Service
import TrackFlow.Reporting.Soundness

/-!
# The week in progress

`current_week_entries` of `central_api/domains/reporting/repository.py` serves the week that has
not ended yet from the hourly rollups up to `active_cutoff_at`, whether or not all these hours
have been rolled up.  An activation compares the two sides between its reconciliation bounds
only; `live_week_iff` says what has to be the case outside these bounds for the entries to be the
aggregates of the ledger.

The order of the entries is left out.
-/

namespace TrackFlow

namespace Reporting

/-- `WeeklyPerformanceEntry`. -/
structure WeeklyPerformanceEntry where
  warehouse : ReportWarehouse
  clientId : UUID
  clientName : String
  inboundUnitsCount : ℕ
  outboundOrdersCount : ℕ
  stockoutEventsCount : ℕ
  discrepancyEventsCount : ℕ
  discrepancyRate : ℚ
  deriving DecidableEq

/-- The entry of some totals. -/
def entryOf (d : Dimension) (client : Client) (total : Metric → ℕ) : WeeklyPerformanceEntry where
  warehouse := reportWarehouse d.1
  clientId := client.id
  clientName := client.displayName
  inboundUnitsCount := total .inboundUnits
  outboundOrdersCount := total .dispatchOrderCount
  stockoutEventsCount := total .stockoutCount
  discrepancyEventsCount := total .discrepancyCount
  discrepancyRate := discrepancyRate (total .discrepancyCount) (total .dispatchOrderCount)

/-- The groups of `current_week_entries`. -/
def currentWeekGroups (rows : List HourlyActivityRollup) (weekStart cutoff : ℕ) : List Dimension :=
  distinct HourlyActivityRollup.dim ((onTime cutoff rows).filter fun r =>
    decide (weekStart ≤ r.bucketStart) && decide (r.bucketStart < cutoff))

/-- `current_week_entries`. -/
def currentWeekEntries (db : Database) (weekStart cutoff : ℕ) : List WeeklyPerformanceEntry :=
  (currentWeekGroups db.reporting.hourly.rows weekStart cutoff).filterMap fun d =>
    (db.ledger.getClient d.2).map fun client => entryOf d client fun m =>
      hourlyTotal (onTime cutoff db.reporting.hourly.rows) m weekStart cutoff d

/-- The view of the active week is that of the ledger: every entry shows the aggregates of its
warehouse and client, and without an entry there is nothing to show. -/
def LiveWeekMatches (db : Database) : Prop :=
  ∀ cutoff, db.reporting.rollupState.1.activeCutoffAt = some cutoff →
    let entries := currentWeekEntries db (weekFloor cutoff) cutoff
    let total (d : Dimension) (m : Metric) := sourceTotal db.ledger m (weekFloor cutoff) cutoff d
    (∀ e ∈ entries, ∃ d client, client.id = d.2 ∧ e = entryOf d client (total d)) ∧
      ∀ d : Dimension, (∀ e ∈ entries, (e.warehouse, e.clientId) ≠ (reportWarehouse d.1, d.2)) →
        ∀ m ∈ publishedMetrics, total d m = 0

/-- Outside the reconciled hours of the active week, the rollups that the view reads add up to what
the ledger has there, and to what the view does not read inside them. -/
def LiveWeekCovered (db : Database) (window : RollupWindow) (rows : Option (List HourlyRollupRow))
    (pipelineVersion : String) : Prop :=
  let cutoff := floorHour window.sourceCutoffAt
  ∀ hourly bounds,
    candidateHourly db.ledger db.reporting.hourly window rows pipelineVersion = .ok hourly →
    reconciliationBounds db.ledger hourly.rows cutoff = .ok bounds →
    let lo := max (weekFloor cutoff) bounds.1
    let hi := max lo bounds.2
    ∀ d, ∀ m ∈ publishedMetrics,
      hourlyTotal (onTime cutoff hourly.rows) m (weekFloor cutoff) lo d +
          hourlyTotal (onTime cutoff hourly.rows) m hi cutoff d =
        hourlyTotal (late cutoff hourly.rows) m lo hi d +
          (sourceTotal db.ledger m (weekFloor cutoff) lo d + sourceTotal db.ledger m hi cutoff d)

section Entries

variable {db : Database} {weekStart cutoff : ℕ} {e : WeeklyPerformanceEntry} {d : Dimension}

theorem entryOf_congr {client : Client} {total total' : Metric → ℕ}
    (h : ∀ m ∈ publishedMetrics, total m = total' m) :
    entryOf d client total = entryOf d client total' := by
  simp only [publishedMetrics, List.mem_cons, List.not_mem_nil, or_false, forall_eq_or_imp,
    forall_eq] at h
  obtain ⟨h1, h2, h3, h4⟩ := h
  simp only [entryOf, h1, h2, h3, h4]

/-- Entries of two dimensions, or of different totals, differ. -/
theorem entryOf_inj {d' : Dimension} {client client' : Client} {total total' : Metric → ℕ}
    (hc : client.id = d.2) (hc' : client'.id = d'.2)
    (h : entryOf d client total = entryOf d' client' total') :
    d = d' ∧ ∀ m ∈ publishedMetrics, total m = total' m := by
  simp only [entryOf, WeeklyPerformanceEntry.mk.injEq] at h
  obtain ⟨h1, h2, -, h3, h4, h5, h6, -⟩ := h
  refine ⟨Prod.ext (reportWarehouse_injective h1) (hc ▸ hc' ▸ h2), ?_⟩
  simp only [publishedMetrics, List.mem_cons, List.not_mem_nil, or_false, forall_eq_or_imp,
    forall_eq]
  exact ⟨h3, h4, h5, h6⟩

/-- A dimension without a group has nothing on time. -/
theorem onTime_eq_zero {rows : List HourlyActivityRollup}
    (hd : d ∉ currentWeekGroups rows weekStart cutoff) (m : Metric) :
    hourlyTotal (onTime cutoff rows) m weekStart cutoff d = 0 := by
  refine spanTotal_eq_zero fun r hr hs he hrd => absurd ?_ hd
  exact mem_distinct.2 ⟨r, List.mem_filter.2 ⟨hr, by simp [hs, he]⟩, hrd⟩

theorem getClient_eq_some {ledger : Ledger} {clientId : UUID} {client : Client}
    (h : ledger.getClient clientId = some client) : client.id = clientId := by
  simpa using List.find?_some h

/-- The entries, one for every group whose client exists. -/
theorem mem_currentWeekEntries : e ∈ currentWeekEntries db weekStart cutoff ↔
    ∃ d ∈ currentWeekGroups db.reporting.hourly.rows weekStart cutoff, ∃ client,
      db.ledger.getClient d.2 = some client ∧ e = entryOf d client fun m =>
        hourlyTotal (onTime cutoff db.reporting.hourly.rows) m weekStart cutoff d := by
  simp [currentWeekEntries, eq_comm]

/-- **The view and the ledger.**  When the clients of all rollups exist, the view matches the
ledger if and only if the totals do. -/
theorem liveWeekMatches_iff
    (hfk : ∀ r ∈ db.reporting.hourly.rows, clientExists db.ledger r.clientId = true)
    (hcut : db.reporting.rollupState.1.activeCutoffAt = some cutoff) :
    LiveWeekMatches db ↔ ∀ d, ∀ m ∈ publishedMetrics,
      hourlyTotal (onTime cutoff db.reporting.hourly.rows) m (weekFloor cutoff) cutoff d =
        sourceTotal db.ledger m (weekFloor cutoff) cutoff d := by
  have hclient : ∀ d ∈ currentWeekGroups db.reporting.hourly.rows (weekFloor cutoff) cutoff,
      ∃ client, db.ledger.getClient d.2 = some client := by
    intro d hd
    obtain ⟨r, hr, rfl⟩ := mem_distinct.1 hd
    have hex := hfk r (List.mem_of_mem_filter (List.mem_of_mem_filter hr))
    obtain ⟨c, hc, hid⟩ := List.any_eq_true.1 hex
    exact Option.isSome_iff_exists.1 (List.find?_isSome.2 ⟨c, hc, hid⟩)
  constructor
  · intro h d m hm
    obtain ⟨hentries, hnone⟩ := h cutoff hcut
    by_cases hd : d ∈ currentWeekGroups db.reporting.hourly.rows (weekFloor cutoff) cutoff
    · obtain ⟨client, hc⟩ := hclient d hd
      obtain ⟨d', client', hc', he⟩ := hentries _
        (mem_currentWeekEntries.2 ⟨d, hd, client, hc, rfl⟩)
      obtain ⟨rfl, htotal⟩ := entryOf_inj (getClient_eq_some hc) hc' he
      exact htotal m hm
    · rw [onTime_eq_zero hd]
      refine (hnone d (fun e he hk => hd ?_) m hm).symm
      obtain ⟨d', hd', client, hc, rfl⟩ := mem_currentWeekEntries.1 he
      obtain ⟨hw, hid⟩ := Prod.mk.inj hk
      have hdd : d' = d :=
        Prod.ext (reportWarehouse_injective hw) ((getClient_eq_some hc).symm.trans hid)
      exact hdd ▸ hd'
  · intro h cutoff' hcut'
    cases hcut.symm.trans hcut'
    refine ⟨fun e he => ?_, fun d hd m hm => ?_⟩
    · obtain ⟨d, -, client, hc, rfl⟩ := mem_currentWeekEntries.1 he
      exact ⟨d, client, getClient_eq_some hc, entryOf_congr (h d)⟩
    · refine (h d m hm).symm.trans (onTime_eq_zero (fun hg => ?_) m)
      obtain ⟨client, hc⟩ := hclient d hg
      refine hd _ (mem_currentWeekEntries.2 ⟨d, hg, client, hc, rfl⟩) ?_
      simp [entryOf, getClient_eq_some hc]

end Entries

section Activation

variable {db db' : Database} {claim : Queue.RunClaim} {window : RollupWindow}
  {rows : Option (List HourlyRollupRow)} {now : ℕ} {pipelineVersion : String} {faults : Faults}
  {res : ActivationResult}

/-- Three spans of a week. -/
theorem sourceTotal_split {ledger : Ledger} {m : Metric} {d : Dimension} {s lo hi e : ℕ}
    (h₁ : s ≤ lo) (h₂ : lo ≤ hi) (h₃ : hi ≤ e) : sourceTotal ledger m s e d =
      sourceTotal ledger m s lo d + sourceTotal ledger m lo hi d + sourceTotal ledger m hi e d := by
  unfold sourceTotal
  rw [spanTotal_add (h₁.trans h₂) h₃, spanTotal_add h₁ h₂]

theorem hourlyTotal_split {rollups : List HourlyActivityRollup} {m : Metric} {d : Dimension}
    {s lo hi e : ℕ} (h₁ : s ≤ lo) (h₂ : lo ≤ hi) (h₃ : hi ≤ e) : hourlyTotal rollups m s e d =
      hourlyTotal rollups m s lo d + hourlyTotal rollups m lo hi d +
        hourlyTotal rollups m hi e d := by
  unfold hourlyTotal
  rw [spanTotal_add (h₁.trans h₂) h₃, spanTotal_add h₁ h₂]

/-- What reconciles agrees on the reconciled part of the week of the cutoff. -/
theorem Reconciles.current_week {ledger : Ledger} {rollups : List HourlyActivityRollup}
    {start endAt cutoff : ℕ} (h : Reconciles ledger rollups start endAt) (he : endAt ≤ cutoff)
    (d : Dimension) (m : Metric) :
    let lo := max (weekFloor cutoff) start
    let hi := max lo endAt
    sourceTotal ledger m lo hi d = hourlyTotal rollups m lo hi d := by
  intro lo hi
  have hweek : week ∣ weekFloor cutoff := dvd_floorTo week cutoff
  have hend : endAt < weekFloor cutoff + week :=
    he.trans_lt (lt_floorTo_add (by decide) cutoff)
  have hcell := (h (weekFloor cutoff) d).1 m
  rw [expectedTotal, actualTotal, cellTotal_eq_spanTotal (by decide) hweek,
    cellTotal_eq_spanTotal (by decide) hweek, min_eq_left hend.le, max_comm start] at hcell
  rcases le_total lo endAt with hle | hle
  · rw [show hi = endAt from max_eq_right hle]
    exact hcell
  · -- nothing of the week is reconciled
    rw [show hi = lo from max_eq_left hle]
    exact (spanTotal_of_le le_rfl).trans (spanTotal_of_le le_rfl).symm

/-- **When the live week is that of the ledger.**  After an activation the view of the active week
matches the ledger if and only if the hours outside the reconciliation bounds are covered. -/
theorem live_week_iff
    (h : activateReconciledRollups db claim window rows now pipelineVersion faults = (.ok res, db'))
    (hfk : ∀ r ∈ db'.reporting.hourly.rows, clientExists db'.ledger r.clientId = true) :
    LiveWeekMatches db' ↔ LiveWeekCovered db window rows pipelineVersion := by
  obtain ⟨hled, -, bounds, n, hact, -, hstate, -⟩ := activate_eq_ok h
  set cutoff := floorHour window.sourceCutoffAt with hcutoff
  have hcut : db'.reporting.rollupState.1.activeCutoffAt = some cutoff := by rw [hstate]; rfl
  obtain ⟨-, -, hlt, hle⟩ := reconciliationBounds_eq_ok hact.bounds_eq
  rw [liveWeekMatches_iff hfk hcut, hled]
  have hweek : weekFloor cutoff ≤ cutoff := floorTo_le week cutoff
  set lo := max (weekFloor cutoff) bounds.1 with hlo
  set hi := max lo bounds.2 with hhi
  have h₁ : weekFloor cutoff ≤ lo := le_max_left _ _
  have h₂ : lo ≤ hi := le_max_left _ _
  have h₃ : hi ≤ cutoff := max_le (max_le hweek (hlt.le.trans hle)) hle
  -- for every dimension and metric, the reconciled part of the week drops out
  have hcell (d : Dimension) (m : Metric) :
      hourlyTotal (onTime cutoff db'.reporting.hourly.rows) m (weekFloor cutoff) cutoff d =
          sourceTotal db.ledger m (weekFloor cutoff) cutoff d ↔
        hourlyTotal (onTime cutoff db'.reporting.hourly.rows) m (weekFloor cutoff) lo d +
            hourlyTotal (onTime cutoff db'.reporting.hourly.rows) m hi cutoff d =
          hourlyTotal (late cutoff db'.reporting.hourly.rows) m lo hi d +
            (sourceTotal db.ledger m (weekFloor cutoff) lo d +
              sourceTotal db.ledger m hi cutoff d) := by
    have hrec : sourceTotal db.ledger m lo hi d =
        hourlyTotal db'.reporting.hourly.rows m lo hi d := hact.reconciles.current_week hle d m
    have hsplit : hourlyTotal db'.reporting.hourly.rows m lo hi d =
        hourlyTotal (onTime cutoff db'.reporting.hourly.rows) m lo hi d +
          hourlyTotal (late cutoff db'.reporting.hourly.rows) m lo hi d :=
      spanTotal_filter_add _
    rw [sourceTotal_split h₁ h₂ h₃, hourlyTotal_split h₁ h₂ h₃]
    omega
  constructor
  · intro hall hourly bounds' hh hb _ _ d m hm
    cases hact.hourly_eq.symm.trans hh
    cases hact.bounds_eq.symm.trans hb
    exact (hcell d m).1 (hall d m hm)
  · intro hcov d m hm
    exact (hcell d m).2 (hcov _ _ hact.hourly_eq hact.bounds_eq d m hm)

end Activation

end Reporting

end TrackFlow
