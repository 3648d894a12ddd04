import TrackFlow.Reporting.Activation
import TrackFlow.Queue.Fencing

/-!
# Weekly rows and the raw ledger

An activation compares all rollups with the ledger, whatever their `source_cutoff_at`, but
builds the weekly rows from those with `source_cutoff_at <= cutoff` only.  So its weekly rows
are those of the ledger exactly when the rollups it leaves out add up to nothing
(`activation_sound_iff`), and a rollup of a later cutoff is enough to publish a wrong week
(`late_rollup_hides_units`).
-/

namespace TrackFlow

namespace Reporting

/-- The rollups that the weekly upsert leaves out. -/
def late (cutoff : ℕ) (rows : List HourlyActivityRollup) : List HourlyActivityRollup :=
  rows.filter fun r => !decide (r.sourceCutoffAt ≤ cutoff)

/-- In every weekly cell that an activation writes, the rollups with a later cutoff add up to
zero in each published metric. -/
def LateRowsCancel (db : Database) (window : RollupWindow) (rows : Option (List HourlyRollupRow))
    (pipelineVersion : String) : Prop :=
  let cutoff := floorHour window.sourceCutoffAt
  ∀ hourly bounds,
    candidateHourly db.ledger db.reporting.hourly window rows pipelineVersion = .ok hourly →
    reconciliationBounds db.ledger hourly.rows cutoff = .ok bounds →
    ∀ k ∈ weeklyGroups (onTime cutoff hourly.rows) (activatedWeeks bounds.1 bounds.2 cutoff).1
        (activatedWeeks bounds.1 bounds.2 cutoff).2,
      ∀ m ∈ publishedMetrics, hourlyTotal (late cutoff hourly.rows) m k.1 (k.1 + week) k.2 = 0

/-- What an activation promises: when it returns, the weekly rows of the weeks it covers are
those of the ledger and the other weekly rows are as before; when it raises, nothing has
changed. -/
structure SoundAndAtomic (db : Database) (claim : Queue.RunClaim) (window : RollupWindow)
    (rows : Option (List HourlyRollupRow)) (now : ℕ) (pipelineVersion : String)
    (faults : Faults) : Prop where
  sound : ∀ res db',
    activateReconciledRollups db claim window rows now pipelineVersion faults = (.ok res, db') →
    ∃ bounds, reconciliationBounds db.ledger db'.reporting.hourly.rows
        (floorHour window.sourceCutoffAt) = .ok bounds ∧
      let weeks := activatedWeeks bounds.1 bounds.2 (floorHour window.sourceCutoffAt)
      (∀ w ∈ db'.reporting.weekly.rows, weeks.1 ≤ w.weekStart → w.weekStart < weeks.2 →
        ∃ d, sourceRow db.ledger d w.weekStart = some w) ∧
      ∀ w, ¬ (weeks.1 ≤ w.weekStart ∧ w.weekStart < weeks.2) →
        (w ∈ db'.reporting.weekly.rows ↔ w ∈ db.reporting.weekly.rows)
  atomic : ∀ e db',
    activateReconciledRollups db claim window rows now pipelineVersion faults = (.error e, db') →
    db' = db

section Weekly

variable {db : Ledger} {weekly weekly' : Table WeeklyPerformance.key}
  {rollups : List HourlyActivityRollup} {bounds weeks : ℕ × ℕ} {cutoff n : ℕ}

theorem activatedWeeks_dvd (bounds : ℕ × ℕ) (cutoff : ℕ) :
    week ∣ (activatedWeeks bounds.1 bounds.2 cutoff).1 ∧
    week ∣ (activatedWeeks bounds.1 bounds.2 cutoff).2 := by
  refine ⟨activatedWeeks_fst bounds.1 bounds.2 cutoff ▸ dvd_ceilTo week bounds.1, ?_⟩
  have hc : week ∣ weekFloor cutoff := dvd_floorTo week cutoff
  have hb : week ∣ weekFloor bounds.2 := dvd_floorTo week bounds.2
  exact dvd_min hc hb

/-- A group lies inside the weeks. -/
theorem group_bounds (h₁ : week ∣ weeks.1) (h₂ : week ∣ weeks.2) {k : ℕ × Dimension}
    (hk : k ∈ weeklyGroups rollups weeks.1 weeks.2) :
    week ∣ k.1 ∧ weeks.1 ≤ k.1 ∧ k.1 < weeks.2 ∧ k.1 + week ≤ weeks.2 := by
  obtain ⟨r, -, hs, he, hw, -⟩ := mem_weeklyGroups.1 hk
  have hdvd : week ∣ k.1 := hw ▸ dvd_floorTo week r.bucketStart
  have hlt : k.1 < weeks.2 := hw ▸ (floorTo_le week r.bucketStart).trans_lt he
  exact ⟨hdvd, hw ▸ (le_floorTo_iff (by decide) h₁).2 hs, hlt, add_le_of_dvd_of_lt hdvd h₂ hlt⟩

/-- The totals of a group are those of its week. -/
theorem actualTotal_group (h₁ : week ∣ weeks.1) (h₂ : week ∣ weeks.2) {k : ℕ × Dimension}
    (hk : k ∈ weeklyGroups rollups weeks.1 weeks.2) :
    actualTotal rollups weeks.1 weeks.2 k.1 k.2 =
      fun m => hourlyTotal rollups m k.1 (k.1 + week) k.2 := by
  obtain ⟨hd, hs, -, he⟩ := group_bounds h₁ h₂ hk
  funext m
  exact actualTotal_eq hd hs he

/-- An activation that goes through has a row for every group. -/
theorem exists_weeklyRow (h₁ : week ∣ weeks.1) (h₂ : week ∣ weeks.2)
    (h : republished db weekly rollups weeks cutoff = .ok (n, weekly')) {k : ℕ × Dimension}
    (hk : k ∈ weeklyGroups (onTime cutoff rollups) weeks.1 weeks.2) :
    ∃ w, weeklyRow k.2 k.1
      (fun m => hourlyTotal (onTime cutoff rollups) m k.1 (k.1 + week) k.2) = some w := by
  obtain ⟨-, hs, he, -⟩ := group_bounds h₁ h₂ hk
  rw [republished, if_pos (hs.trans_lt he)] at h
  obtain ⟨payload, -, hp, -⟩ := upsertWeekly_eq_ok_iff.1 h
  have hsome := exists_mapM_iff.1 ⟨payload, hp⟩ k hk
  rw [actualTotal_group h₁ h₂ hk] at hsome
  exact Option.isSome_iff_exists.1 hsome

/-- The weekly rows after an activation: those of the groups inside the weeks, and the old ones
outside. -/
theorem mem_republished (h₁ : week ∣ weeks.1) (h₂ : week ∣ weeks.2)
    (h : republished db weekly rollups weeks cutoff = .ok (n, weekly')) (w : WeeklyPerformance) :
    w ∈ weekly'.rows ↔
      (∃ k ∈ weeklyGroups (onTime cutoff rollups) weeks.1 weeks.2,
        weeklyRow k.2 k.1 (fun m => hourlyTotal (onTime cutoff rollups) m k.1 (k.1 + week) k.2) =
          some w) ∨
      (w ∈ weekly.rows ∧ ¬ (weeks.1 ≤ w.weekStart ∧ w.weekStart < weeks.2)) := by
  have hkept : ∀ w : WeeklyPerformance, w ∈ (weekly.deleteWhere fun w =>
      decide (weeks.1 ≤ w.weekStart) && decide (w.weekStart < weeks.2)).rows ↔
      w ∈ weekly.rows ∧ ¬ (weeks.1 ≤ w.weekStart ∧ w.weekStart < weeks.2) := by
    intro w
    simp
  have htotal : ∀ k ∈ weeklyGroups (onTime cutoff rollups) weeks.1 weeks.2, _ := fun k hk =>
    actualTotal_group h₁ h₂ hk
  unfold republished at h
  by_cases hlt : weeks.1 < weeks.2
  · rw [if_pos hlt] at h
    obtain ⟨payload, hkeys, hp, -, -, rfl⟩ := upsertWeekly_eq_ok_iff.1 h
    have hmem : w ∈ payload ↔ ∃ k ∈ weeklyGroups (onTime cutoff rollups) weeks.1 weeks.2,
        weeklyRow k.2 k.1 (fun m => hourlyTotal (onTime cutoff rollups) m k.1 (k.1 + week) k.2) =
          some w := by
      rw [mem_of_mapM hp]
      refine exists_congr fun k => and_congr_right fun hk => ?_
      rw [htotal k hk]
    -- no written row has the key of a row outside the weeks
    have hin : ∀ w' ∈ payload, weeks.1 ≤ w'.weekStart ∧ w'.weekStart < weeks.2 := by
      intro w' hw'
      obtain ⟨k, hk, hrow⟩ := (mem_of_mapM hp w').1 hw'
      obtain ⟨-, hs, he, -⟩ := group_bounds h₁ h₂ hk
      rw [(weeklyRow_eq_some hrow).2.2.1]
      exact ⟨hs, he⟩
    rw [Table.mem_upsertAll, hkept, hmem]
    constructor
    · rintro (⟨hw, -⟩ | hw)
      · exact .inr hw
      · exact .inl hw
    · rintro (hw | hw)
      · exact .inr hw
      · refine .inl ⟨hw, fun hk => ?_⟩
        obtain ⟨w', hw', he⟩ := List.mem_map.1 hk
        have hweek : w'.weekStart = w.weekStart := congrArg (fun k => k.2.2) he
        exact hw.2 (hweek ▸ hin w' hw')
  · rw [if_neg hlt] at h
    cases h
    rw [hkept]
    constructor
    · exact .inr
    · rintro (⟨k, hk, -⟩ | hw)
      · obtain ⟨-, hs, he, -⟩ := group_bounds h₁ h₂ hk
        exact absurd (hs.trans_lt he) hlt
      · exact hw

end Weekly

section Sound

variable {db db' : Database} {claim : Queue.RunClaim} {window : RollupWindow}
  {rows : Option (List HourlyRollupRow)} {now : ℕ} {pipelineVersion : String} {faults : Faults}

/-- The ledger total of a reconciled week: rollups on time, and late ones. -/
theorem sourceTotal_eq_add_late {ledger : Ledger} {rollups : List HourlyActivityRollup}
    {start endAt w : ℕ} (cutoff : ℕ) (h : Reconciles ledger rollups start endAt) (hw : week ∣ w)
    (hs : start ≤ w) (he : w + week ≤ endAt) (d : Dimension) (m : Metric) :
    sourceTotal ledger m w (w + week) d =
      hourlyTotal (onTime cutoff rollups) m w (w + week) d +
        hourlyTotal (late cutoff rollups) m w (w + week) d := by
  rw [← h.week_eq hw hs he d m]
  exact spanTotal_filter_add _

/-- A written weekly row is that of the ledger if and only if the late rollups of its cell add
up to nothing. -/
theorem exists_sourceRow_iff {ledger : Ledger} {rollups : List HourlyActivityRollup}
    {start endAt cutoff : ℕ} {k : ℕ × Dimension} {w : WeeklyPerformance}
    (h : Reconciles ledger rollups start endAt) (hw : week ∣ k.1) (hs : start ≤ k.1)
    (he : k.1 + week ≤ endAt)
    (hrow : weeklyRow k.2 k.1
      (fun m => hourlyTotal (onTime cutoff rollups) m k.1 (k.1 + week) k.2) = some w) :
    (∃ d, sourceRow ledger d w.weekStart = some w) ↔
      ∀ m ∈ publishedMetrics, hourlyTotal (late cutoff rollups) m k.1 (k.1 + week) k.2 = 0 := by
  have hsum := sourceTotal_eq_add_late cutoff h hw hs he k.2
  rw [(weeklyRow_eq_some hrow).2.2.1]
  constructor
  · rintro ⟨d, hd⟩ m hm
    obtain ⟨rfl, htotal⟩ := weeklyRow_inj hrow hd
    have := htotal m hm
    have := hsum m
    omega
  · intro hz
    refine ⟨k.2, ?_⟩
    rw [sourceRow, ← hrow]
    refine weeklyRow_congr fun m hm => ?_
    rw [hsum m, hz m hm, Nat.add_zero]

/-- **Soundness of an activation.**  The weekly rows are those of the ledger and failures leave
no trace, if and only if the activation is refused or the rollups it leaves out add up to
nothing. -/
theorem activation_sound_iff (db : Database) (claim : Queue.RunClaim) (window : RollupWindow)
    (rows : Option (List HourlyRollupRow)) (now : ℕ) (pipelineVersion : String) (faults : Faults) :
    SoundAndAtomic db claim window rows now pipelineVersion faults ↔
      (Accepts db claim window rows now pipelineVersion faults →
        LateRowsCancel db window rows pipelineVersion) := by
  have hrows : ∀ {res db'}, activateReconciledRollups db claim window rows now pipelineVersion
      faults = (.ok res, db') → ∃ bounds n,
        Activated db.ledger db.runs claim window rows pipelineVersion now faults db.reporting
          db'.reporting.hourly bounds n db'.reporting.weekly := fun h => by
    obtain ⟨-, -, bounds, n, hact, -⟩ := activate_eq_ok h
    exact ⟨bounds, n, hact⟩
  constructor
  · rintro ⟨hsound, -⟩ hacc hourly bounds hh hb k hk
    obtain ⟨res, db', hok⟩ := activate_isOk_iff.2 hacc
    obtain ⟨bounds', n, hact⟩ := hrows hok
    obtain ⟨bounds'', hb'', hweeks, -⟩ := hsound res db' hok
    cases hact.hourly_eq.symm.trans hh
    cases hact.bounds_eq.symm.trans hb
    cases hact.bounds_eq.symm.trans hb''
    obtain ⟨h₁, h₂⟩ := activatedWeeks_dvd bounds (floorHour window.sourceCutoffAt)
    obtain ⟨hd, hs, hlt, -⟩ := group_bounds h₁ h₂ hk
    obtain ⟨hstart, hend⟩ := le_of_activated hd hs hlt
    -- the activation has written a row for the cell
    obtain ⟨w, hrow⟩ := exists_weeklyRow h₁ h₂ hact.weekly_eq hk
    have hw := (mem_republished h₁ h₂ hact.weekly_eq w).2 (.inl ⟨k, hk, hrow⟩)
    have hweek := (weeklyRow_eq_some hrow).2.2.1
    exact (exists_sourceRow_iff hact.reconciles hd hstart hend hrow).1
      (hweeks w hw (hweek ▸ hs) (hweek ▸ hlt))
  · intro hlate
    refine ⟨fun res db' hok => ?_, fun e db' h => activate_of_error h⟩
    obtain ⟨bounds, n, hact⟩ := hrows hok
    have hcancel := hlate (activate_isOk_iff.1 ⟨res, db', hok⟩) _ _ hact.hourly_eq hact.bounds_eq
    obtain ⟨h₁, h₂⟩ := activatedWeeks_dvd bounds (floorHour window.sourceCutoffAt)
    refine ⟨bounds, hact.bounds_eq, fun w hw hs he => ?_, fun w hout => ?_⟩
    · obtain ⟨k, hk, hrow⟩ | ⟨-, hout⟩ := (mem_republished h₁ h₂ hact.weekly_eq w).1 hw
      · obtain ⟨hd, hs', he', -⟩ := group_bounds h₁ h₂ hk
        obtain ⟨hstart, hend⟩ := le_of_activated hd hs' he'
        exact (exists_sourceRow_iff hact.reconciles hd hstart hend hrow).2 (hcancel k hk)
      · exact absurd ⟨hs, he⟩ hout
    · rw [mem_republished h₁ h₂ hact.weekly_eq]
      constructor
      · rintro (⟨k, hk, hrow⟩ | ⟨hw, -⟩)
        · obtain ⟨-, hs, he, -⟩ := group_bounds h₁ h₂ hk
          rw [(weeklyRow_eq_some hrow).2.2.1] at hout
          exact absurd ⟨hs, he⟩ hout
        · exact hw
      · exact fun hw => .inr ⟨hw, hout⟩

end Sound

/-! ### A rollup of a later cutoff -/

/-- Monday 2024-01-01. -/
def newYear : ℕ := 105555 * week

/-- One client with one SKU, and one receipt of five units on Monday at 10:30. -/
def oneReceipt : Ledger :=
  { Ledger.empty with
    clients := [⟨1, "Acme"⟩]
    skus := ⟨[⟨1, "Shoe", "SHOE-1", 1, 0, .fashion, .LA⟩], by decide⟩
    stockEntries :=
      [⟨1, 1, 5, "PO-1", .LA, newYear + 10 * hour + 30 * 60 * second, "warehouse-user"⟩]
    stockBalances := ⟨[⟨1, .LA, 5⟩], by decide⟩ }

/-- A rollup of client 1 in LA: the counts, and the cutoff it was computed at. -/
def rollupAt (bucket : {b : ℕ // hour ∣ b}) (receipts units cutoff : ℕ) : HourlyActivityRollup where
  bucketStart := bucket.1
  warehouse := .LA
  clientId := 1
  counts
    | .inboundMovementCount => receipts
    | .inboundUnits => units
    | _ => 0
  sourceCutoffAt := cutoff
  pipelineVersion := rollupPipelineVersion
  bucket_hour := bucket.2

/-- A run that has been claimed and is running. -/
def runningRun : Queue.PipelineRun :=
  { Queue.scheduledRun with status := .running, attempt := 1, claimToken := some 11 }

/-- The first and the last hour of the week were rolled up at its end; the hour of the receipt
was rolled up an hour later. -/
def lateRollup : Database where
  ledger := oneReceipt
  reporting :=
    { Tables.empty with
      hourly :=
        ⟨[rollupAt ⟨newYear, by decide⟩ 0 0 (newYear + week),
          rollupAt ⟨newYear + 10 * hour, by decide⟩ 1 5 (newYear + week + hour),
          rollupAt ⟨newYear + week - hour, by decide⟩ 0 0 (newYear + week)], by decide⟩ }
  runs := ⟨[runningRun], by decide⟩

/-- An activation at the end of the week publishes no received units, where the ledger has
five. -/
theorem late_rollup_hides_units :
    ¬ SoundAndAtomic lateRollup Queue.firstClaim
      ⟨newYear + week - hour, newYear + week, newYear + week, 0⟩ (some []) (newYear + week)
      rollupPipelineVersion (fun _ => none) := by
  intro h
  let r := activateReconciledRollups lateRollup Queue.firstClaim
    ⟨newYear + week - hour, newYear + week, newYear + week, 0⟩ (some []) (newYear + week)
    rollupPipelineVersion (fun _ => none)
  obtain ⟨res, hres⟩ : ∃ res, r.1 = .ok res := by
    have hok : r.1.isOk = true := by decide +kernel
    cases hr : r.1 with
    | ok res => exact ⟨res, rfl⟩
    | error e => simp [hr, Except.isOk, Except.toBool] at hok
  have hrows : (r.2.reporting.weekly.rows.map fun w =>
      (w.warehouse, w.clientId, w.weekStart, w.inboundUnitsCount)) =
        [(.losAngeles, 1, newYear, 0)] := by decide +kernel
  have hbounds : reconciliationBounds lateRollup.ledger r.2.reporting.hourly.rows
      (floorHour (newYear + week)) = .ok (newYear, newYear + week) := by decide +kernel
  obtain ⟨bounds, hb, hweeks, -⟩ := h.sound res r.2 (Prod.ext hres rfl)
  cases hbounds.symm.trans hb
  obtain ⟨w, hw, hfields⟩ : ∃ w ∈ r.2.reporting.weekly.rows,
      (w.warehouse, w.clientId, w.weekStart, w.inboundUnitsCount) =
        (ReportWarehouse.losAngeles, 1, newYear, 0) := by
    rw [← List.mem_map, hrows]
    exact List.mem_singleton.2 rfl
  simp only [Prod.mk.injEq] at hfields
  obtain ⟨hwh, hc, hstart, hunits⟩ := hfields
  obtain ⟨d, hd⟩ := hweeks w hw (by rw [hstart]; decide +kernel) (by rw [hstart]; decide +kernel)
  obtain ⟨hwh', hc', -, -, hunits', -⟩ := weeklyRow_eq_some hd
  obtain rfl : d = (.LA, 1) :=
    Prod.ext (reportWarehouse_injective (hwh'.symm.trans hwh)) (hc'.symm.trans hc)
  rw [hunits, hstart] at hunits'
  revert hunits'
  decide +kernel

end Reporting

end TrackFlow
