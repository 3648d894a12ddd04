import TrackFlow.Reporting.DefaultRun

/-!
# One run of the rollup pipeline

`direct_sql_executor` of `pipelines/business_performance/direct_executor.py`: a run extracts
its window, transforms the source rows into hourly rows and loads them, each stage in a
transaction of its own.  `loadStage_eq_ok` says what a load that goes through has done, and
`loadStage_of_error` that one which raises has done nothing.
-/

namespace TrackFlow

namespace Pipeline

open Reporting

/-- `record_stage`: the stage is written to the run that the claim owns. -/
def recordStage (runs : Table Queue.PipelineRun.id) (claim : Queue.RunClaim) (stage : Queue.Stage)
    (now : ℕ) : Table Queue.PipelineRun.id :=
  runs.update
    (fun r => if claim.owns r then { r with currentStage := some stage, stageStartedAt := some now }
      else r)
    fun r => by split_ifs <;> rfl

/-- `_begin_stage`. -/
def beginStage (db : Database) (claim : Queue.RunClaim) (stage : Queue.Stage) (now : ℕ) :
    Except RollupError Database :=
  if claim.Owned db.runs then .ok { db with runs := recordStage db.runs claim stage now }
  else .error (.leaseLost "pipeline run lease is no longer owned")

/-- The `RunMetrics` that the executor returns. -/
def runMetrics (window : RollupWindow) (rows : List HourlyRollupRow) (servedRows written : ℕ) :
    Queue.RunMetrics where
  rowsExtracted := window.rowsScanned
  rowsTransformed := rows.length
  rowsLoaded := servedRows
  sourceWatermark := some window.sourceCutoffAt
  sourceCutoffAt := some window.sourceCutoffAt
  rowsScanned := some window.rowsScanned
  rollupRowsWritten := some written

/-- The load stage.  After the cutover it activates the rows, before that it only publishes
them. -/
def loadStage (db : Database) (claim : Queue.RunClaim) (window : RollupWindow)
    (rows : List HourlyRollupRow) (now : ℕ) (cutover : Bool) (faults : Faults) :
    Except RollupError Queue.RunMetrics × Database :=
  if cutover then
    let r := activateReconciledRollups db claim window (some rows) now rollupPipelineVersion faults
    (r.1.map fun a => runMetrics window rows a.weeklyRowsWritten a.hourlyRowsWritten, r.2)
  else
    let r := publishHourlyRollups db claim window rows now rollupPipelineVersion faults
    (r.1.map fun written => runMetrics window rows written written, r.2)

/-- `direct_sql_executor`, when nothing else commits while it runs. -/
def directSqlExecutor (db : Database) (claim : Queue.RunClaim) (clock : Queue.Stage → Clock)
    (cutover : Bool) (faults : Faults := fun _ => none) :
    Except RollupError Queue.RunMetrics × Database :=
  match beginStage db claim .extract (clock .extract).instant with
  | .error e => (.error e, db)
  | .ok db =>
    match captureRollupWindow db claim (clock .extract).instant with
    | .error e => (.error e, db)
    | .ok window =>
      match beginStage db claim .transform (clock .transform).instant with
      | .error e => (.error e, db)
      | .ok db =>
        let rows := computeHourlyRollups db.ledger window
        match beginStage db claim .load (clock .load).instant with
        | .error e => (.error e, db)
        | .ok db => loadStage db claim window rows (clock .load).instant cutover faults

/-! ## Stages -/

section Stages

variable {db db' : Database} {claim : Queue.RunClaim} {stage : Queue.Stage} {now : ℕ}

theorem owned_recordStage {runs : Table Queue.PipelineRun.id} (stage : Queue.Stage) (now : ℕ)
    (h : claim.Owned runs) : claim.Owned (recordStage runs claim stage now) := by
  obtain ⟨r, hr, ho⟩ := h
  refine ⟨_, List.mem_map_of_mem hr, ?_⟩
  rw [if_pos ho]
  exact ho

theorem beginStage_eq_ok (h : beginStage db claim stage now = .ok db') :
    claim.Owned db.runs ∧ claim.Owned db'.runs ∧ db'.ledger = db.ledger ∧
      db'.reporting = db.reporting := by
  unfold beginStage at h
  split_ifs at h with ho
  cases h
  exact ⟨ho, owned_recordStage stage now ho, rfl, rfl⟩

end Stages

/-! ## The window of a run -/

section Window

variable {db : Database} {claim : Queue.RunClaim} {now : ℕ} {window : RollupWindow}

/-- A window depends on the ledger and the reporting tables only. -/
theorem captureRollupWindow_congr {db' : Database} (hl : db'.ledger = db.ledger)
    (hr : db'.reporting = db.reporting) :
    captureRollupWindow db' claim now = captureRollupWindow db claim now := by
  cases db
  cases db'
  cases hl
  cases hr
  rfl

/-- What the extract stage captures. -/
theorem captureRollupWindow_eq_ok (h : captureRollupWindow db claim now = .ok window) :
    window.start = (windowBounds db claim.requestedWeekStart (floorHour now)).1 ∧
      window.endAt = (windowBounds db claim.requestedWeekStart (floorHour now)).2 ∧
      window.sourceCutoffAt = floorHour now ∧ window.start < window.endAt := by
  unfold captureRollupWindow at h
  simp only at h
  split_ifs at h with hb
  cases h
  exact ⟨rfl, rfl, rfl, Nat.lt_of_not_le hb⟩

theorem windowBounds_eq (db : Database) (w : Option ℕ) (cutoff : ℕ) :
    windowBounds db w cutoff =
      (max (recomputedBounds db w cutoff).1 ((db.reporting.lastResetAt.map floorHour).getD 0),
        (recomputedBounds db w cutoff).2) := by
  unfold windowBounds
  cases db.reporting.lastResetAt <;> simp

/-- The end of the window of a default run is its cutoff. -/
theorem endAt_of_default (h : captureRollupWindow db claim now = .ok window)
    (hd : claim.requestedWeekStart = none) : window.endAt = window.sourceCutoffAt := by
  obtain ⟨-, he, hc, -⟩ := captureRollupWindow_eq_ok h
  rw [he, hc, hd, windowBounds_eq]
  unfold recomputedBounds
  cases db.reporting.rollupState.1.lastCutoffAt <;> cases sourceFloor db.ledger <;> rfl

/-- Where the window of a default run starts, once there has been one. -/
theorem start_of_default {last : ℕ} (h : captureRollupWindow db claim now = .ok window)
    (hd : claim.requestedWeekStart = none)
    (hl : db.reporting.rollupState.1.lastCutoffAt = some last) :
    window.start = max (min (floorHour last) (floorHour now - trailingRecomputeHours * hour))
      ((db.reporting.lastResetAt.map floorHour).getD 0) := by
  rw [(captureRollupWindow_eq_ok h).1, hd, windowBounds_eq]
  simp only [recomputedBounds, hl]

/-- No window starts before the last reset. -/
theorem reset_le_start (h : captureRollupWindow db claim now = .ok window) :
    (db.reporting.lastResetAt.map floorHour).getD 0 ≤ window.start := by
  rw [(captureRollupWindow_eq_ok h).1, windowBounds_eq]
  exact le_max_right _ _

theorem recomputedBounds_dvd (db : Database) (now : ℕ) {w : Option ℕ}
    (hw : ∀ m, w = some m → hour ∣ m) :
    hour ∣ (recomputedBounds db w (floorHour now)).1 ∧
      hour ∣ (recomputedBounds db w (floorHour now)).2 := by
  have hcut : hour ∣ floorHour now := dvd_floorTo hour now
  have htrail : hour ∣ floorHour now - trailingRecomputeHours * hour :=
    Nat.dvd_sub hcut (Nat.dvd_mul_left hour _)
  unfold recomputedBounds
  cases w with
  | some m => exact ⟨hw m rfl, dvd_min ((Nat.dvd_add_right (hw m rfl)).2 (by decide)) hcut⟩
  | none =>
    cases db.reporting.rollupState.1.lastCutoffAt with
    | some l => exact ⟨dvd_min (dvd_floorTo hour l) htrail, hcut⟩
    | none =>
      cases sourceFloor db.ledger with
      | some t => exact ⟨dvd_floorTo hour t, hcut⟩
      | none => exact ⟨htrail, hcut⟩

/-- A captured window has whole hours. -/
theorem wholeHours_of_capture (h : captureRollupWindow db claim now = .ok window)
    (hw : ∀ w, claim.requestedWeekStart = some w → hour ∣ w) : WholeHours window := by
  obtain ⟨hs, he, hc, hlt⟩ := captureRollupWindow_eq_ok h
  obtain ⟨h₁, h₂⟩ := recomputedBounds_dvd db now hw
  have hreset : hour ∣ (db.reporting.lastResetAt.map floorHour).getD 0 := by
    cases db.reporting.lastResetAt with
    | none => exact dvd_zero hour
    | some r => exact dvd_floorTo hour r
  have hle : (recomputedBounds db claim.requestedWeekStart (floorHour now)).2 ≤ floorHour now := by
    unfold recomputedBounds
    cases claim.requestedWeekStart with
    | some w => exact min_le_right _ _
    | none =>
      cases db.reporting.rollupState.1.lastCutoffAt <;> cases sourceFloor db.ledger <;> exact le_rfl
  rw [windowBounds_eq] at hs he
  exact ⟨hs ▸ dvd_max h₁ hreset, he ▸ h₂, hc ▸ dvd_floorTo hour now, hlt, by rw [he, hc]; exact hle⟩

/-- A run that nobody disturbs: its stages see one ledger, and only its load writes. -/
theorem directSqlExecutor_eq (clock : Queue.Stage → Clock) (cutover : Bool) (faults : Faults)
    (ho : claim.Owned db.runs)
    (h : captureRollupWindow db claim (clock .extract).instant = .ok window) :
    ∃ runs, claim.Owned runs ∧ directSqlExecutor db claim clock cutover faults =
      loadStage { db with runs := runs } claim window (computeHourlyRollups db.ledger window)
        (clock .load).instant cutover faults := by
  have ho₁ := owned_recordStage .extract (clock .extract).instant ho
  have ho₂ := owned_recordStage .transform (clock .transform).instant ho₁
  have ho₃ := owned_recordStage .load (clock .load).instant ho₂
  have hcapture : ∀ runs, captureRollupWindow { db with runs := runs } claim
      (clock .extract).instant = .ok window := fun _ => h
  refine ⟨_, ho₃, ?_⟩
  simp only [directSqlExecutor, beginStage, if_pos ho, hcapture, if_pos ho₁, if_pos ho₂]

end Window

/-! ## The load stage -/

/-- What a load that goes through has done. -/
structure Loaded (db db' : Database) (claim : Queue.RunClaim) (window : RollupWindow)
    (rows : List HourlyRollupRow) : Prop where
  owned : claim.Owned db.runs
  ledger : db'.ledger = db.ledger
  runs : db'.runs = db.runs
  lastResetAt : db'.reporting.lastResetAt = db.reporting.lastResetAt
  hourly : candidateHourly db.ledger db.reporting.hourly window (some rows) rollupPipelineVersion =
    .ok db'.reporting.hourly
  lastCutoffAt : db'.reporting.rollupState.1.lastCutoffAt =
    some (max (db.reporting.rollupState.1.lastCutoffAt.getD window.sourceCutoffAt)
      window.sourceCutoffAt)

section Load

variable {db db' : Database} {claim : Queue.RunClaim} {window : RollupWindow}
  {rows : List HourlyRollupRow} {now : ℕ} {cutover : Bool} {faults : Faults}

theorem publishHourlyRollups_eq_ok {n : ℕ}
    (h : publishHourlyRollups db claim window rows now rollupPipelineVersion faults =
      (.ok n, db')) :
    Loaded db db' claim window rows := by
  obtain ⟨h₁, rfl⟩ := Prod.mk.inj h
  obtain ⟨-, hb⟩ := Tx.transact_eq_ok.1 (Prod.ext h₁ rfl)
  simp only [Tx.bind_eq_ok, Tx.statement_eq_ok, verifyClaim_eq_ok_iff, publish_eq_ok_iff,
    Except.ok.injEq, Prod.mk.injEq] at hb
  obtain ⟨-, _, ⟨-, -, rfl⟩, -, _, ⟨-, ho, rfl⟩, hourly, hs, -, -, hh, -, ht⟩ := hb
  exact ⟨ho, rfl, rfl, by simp only [ht], by simpa only [ht] using hh, by simp only [ht]; rfl⟩

/-- What a load that goes through has done. -/
theorem loadStage_eq_ok {metrics : Queue.RunMetrics} (hc : hour ∣ window.sourceCutoffAt)
    (h : loadStage db claim window rows now cutover faults = (.ok metrics, db')) :
    Loaded db db' claim window rows := by
  unfold loadStage at h
  cases cutover with
  | false =>
    obtain ⟨h₁, h₂⟩ := Prod.mk.inj h
    obtain ⟨n, hn, -⟩ := map_eq_ok_iff.1 h₁
    exact publishHourlyRollups_eq_ok (Prod.ext hn h₂)
  | true =>
    obtain ⟨h₁, h₂⟩ := Prod.mk.inj h
    obtain ⟨res, hres, -⟩ := map_eq_ok_iff.1 h₁
    obtain ⟨hl, hr, bounds, n, hact, -, hs, hreset⟩ := activate_eq_ok (Prod.ext hres h₂)
    refine ⟨hact.owned, hl, hr, hreset, hact.hourly_eq, ?_⟩
    have hfloor : floorHour window.sourceCutoffAt = window.sourceCutoffAt :=
      (floorTo_eq_self_iff hour window.sourceCutoffAt).2 hc
    rw [hs, hfloor]
    rfl

/-- A load does not write to the ledger. -/
theorem ledger_loadStage : (loadStage db claim window rows now cutover faults).2.ledger =
    db.ledger := by
  unfold loadStage
  cases cutover <;> rfl

/-- A load that raises changes nothing. -/
theorem loadStage_of_error {e : RollupError}
    (h : loadStage db claim window rows now cutover faults = (.error e, db')) : db' = db := by
  have hmap {α β : Type} {x : Except RollupError α} {f : α → β} (hx : x.map f = .error e) :
      x = .error e := by
    cases x with
    | error e' => simpa [Except.map] using hx
    | ok a => cases hx
  unfold loadStage at h
  cases cutover with
  | false =>
    obtain ⟨h₁, rfl⟩ := Prod.mk.inj h
    exact congrArg (fun t => ({ db with reporting := t } : Database))
      (Tx.transact_of_error (Prod.ext (hmap h₁) rfl))
  | true =>
    obtain ⟨h₁, h₂⟩ := Prod.mk.inj h
    exact activate_of_error (Prod.ext (hmap h₁) h₂)

end Load

/-! ## Default runs -/

section Default

variable {db : Database} {claim : Queue.RunClaim} {clock : Queue.Stage → Clock}
  {window : RollupWindow}

/-- A run that nobody disturbs returns if and only if its load does. -/
theorem directSqlExecutor_isOk_iff (faults : Faults) (ho : claim.Owned db.runs)
    (h : captureRollupWindow db claim (clock .extract).instant = .ok window) :
    ∃ runs, claim.Owned runs ∧
      ((∃ metrics, (directSqlExecutor db claim clock true faults).1 = .ok metrics) ↔
        ∃ res db', activateReconciledRollups { db with runs := runs } claim window
          (some (computeHourlyRollups db.ledger window)) (clock .load).instant
          rollupPipelineVersion faults = (.ok res, db')) := by
  obtain ⟨runs, hruns, he⟩ :=
    directSqlExecutor_eq clock true faults ho h
  refine ⟨runs, hruns, ?_⟩
  rw [he]
  simp only [loadStage, if_true, map_eq_ok_iff]
  constructor
  · rintro ⟨metrics, res, hres, -⟩
    exact ⟨res, _, Prod.ext hres rfl⟩
  · rintro ⟨res, db', hact⟩
    exact ⟨_, res, (Prod.mk.inj hact).1, rfl⟩

/-- **Undisturbed default runs.**  On a ledger that was not pruned, and if no statement fails, a
default run that its claim owns activates if and only if there are SKUs and the rollups of
earlier runs and the ledger are `Activatable`. -/
theorem default_run_activates_iff (ho : claim.Owned db.runs) (hwf : WellFormed db.ledger)
    (hclients : ClientsExist db.ledger)
    (hfk : ∀ r ∈ db.reporting.hourly.rows, r.dim ∈ dimensions db.ledger)
    (hstate : db.reporting.rollupState.1.lastCutoffAt = none →
      db.reporting.rollupState.1.activeCutoffAt = none)
    (hpruned : prunedThrough db.ledger = none) (hd : claim.requestedWeekStart = none)
    (h : captureRollupWindow db claim (clock .extract).instant = .ok window) :
    (∃ metrics, (directSqlExecutor db claim clock true).1 = .ok metrics) ↔
      dimensions db.ledger ≠ [] ∧ Activatable db.ledger db.reporting.hourly.rows window := by
  have hw : WholeHours window := wholeHours_of_capture h fun w hw => by simp [hd] at hw
  have hend := endAt_of_default h hd
  obtain ⟨runs, hruns, hiff⟩ := directSqlExecutor_isOk_iff (fun _ => none) ho h
  rw [hiff]
  by_cases hdims : dimensions db.ledger = []
  · have hno : ¬ Accepts { db with runs := runs } claim window
        (some (computeHourlyRollups db.ledger window)) (clock .load).instant rollupPipelineVersion
          fun _ => none :=
      not_accepts_of_no_dimensions hfk hdims
    rw [activate_isOk_iff]
    exact ⟨fun hacc => absurd hacc hno, fun hc => absurd hdims hc.1⟩
  · have hact : (∃ res db', activateReconciledRollups { db with runs := runs } claim window
        (some (computeHourlyRollups db.ledger window)) (clock .load).instant rollupPipelineVersion
          (fun _ => none) = (.ok res, db')) ↔
        Activatable db.ledger db.reporting.hourly.rows window :=
      activates_iff hruns hwf hclients hfk hstate hw hend hdims hpruned
    rw [hact]
    exact ⟨fun ha => ⟨hdims, ha⟩, And.right⟩

end Default

end Pipeline

end TrackFlow
