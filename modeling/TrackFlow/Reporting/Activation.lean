import TrackFlow.Reporting.Rollups
import Mathlib.Algebra.Order.Field.Rat
import Mathlib.Algebra.Order.Field.Basic

/-!
# What an activation does

The functions of an activation taken apart: what each statement checks and writes
(`activation_eq_ok_iff`), when a reconciliation is exact (`exact_iff`), and which weekly rows
the table can hold (`weeklyRow_isSome_iff`).  `Accepts` collects the conditions under which
`activate_reconciled_rollups` returns, and `activate_isOk_iff` proves that they are all.
-/

namespace TrackFlow

namespace Reporting

/-! ## Reconciliation -/

/-- Both sides agree on every weekly cell, and no cell has more discrepancies than dispatches. -/
def Reconciles (db : Ledger) (rows : List HourlyActivityRollup) (start endAt : ℕ) : Prop :=
  ∀ w d, (∀ m, expectedTotal db start endAt w d m = actualTotal rows start endAt w d m) ∧
    actualTotal rows start endAt w d .discrepancyCount ≤
      actualTotal rows start endAt w d .dispatchOrderCount

section Reconciliation

variable {db : Ledger} {rows : List HourlyActivityRollup} {start endAt : ℕ}

theorem differing_eq_nil_iff {expected actual : Metric → ℕ} : differing expected actual = [] ↔
    (∀ m, expected m = actual m) ∧ actual .discrepancyCount ≤ actual .dispatchOrderCount := by
  simp [differing]

/-- A cell that occurs on neither side is empty on both. -/
theorem totals_eq_zero_of_notMem {w : ℕ} {d : Dimension}
    (h : (w, d) ∉ reconciliationKeys db rows start endAt) (m : Metric) :
    expectedTotal db start endAt w d m = 0 ∧ actualTotal rows start endAt w d m = 0 := by
  simp only [reconciliationKeys, List.mem_dedup, List.mem_append, List.mem_map, List.mem_filter,
    not_or, not_exists, not_and] at h
  constructor <;> refine sumWhere_eq_zero fun r hr hp => ?_ <;>
    simp only [Bool.and_eq_true, decide_eq_true_eq] at hp
  · exact absurd (Prod.ext hp.1.2 hp.2) (h.1 r ⟨hr, by simp [hp.1.1]⟩)
  · exact absurd (Prod.ext hp.1.2 hp.2) (h.2 r ⟨hr, by simp [hp.1.1]⟩)

/-- The result is exact if and only if the two sides reconcile. -/
theorem exact_iff :
    (reconciliationResult db rows start endAt).exact = true ↔ Reconciles db rows start endAt := by
  have hcell : (reconciliationResult db rows start endAt).exact = true ↔
      ∀ k ∈ reconciliationKeys db rows start endAt,
        differing (expectedTotal db start endAt k.1 k.2) (actualTotal rows start endAt k.1 k.2) =
          [] := by
    simp only [ReconciliationResult.exact, reconciliationResult, List.isEmpty_iff,
      List.filterMap_eq_nil_iff]
    refine forall₂_congr fun k _ => ?_
    cases differing (expectedTotal db start endAt k.1 k.2)
      (actualTotal rows start endAt k.1 k.2) <;> simp
  rw [hcell]
  constructor
  · intro h w d
    by_cases hk : (w, d) ∈ reconciliationKeys db rows start endAt
    · have hnil := h (w, d) hk
      exact differing_eq_nil_iff.1 hnil
    · have hz := totals_eq_zero_of_notMem hk
      refine ⟨fun m => (hz m).1.trans (hz m).2.symm, ?_⟩
      rw [(hz .discrepancyCount).2]
      exact Nat.zero_le _
  · intro h k _
    exact differing_eq_nil_iff.2 (h k.1 k.2)

/-- The totals of a whole week inside the bounds. -/
theorem expectedTotal_eq {w : ℕ} {d : Dimension} {m : Metric} (hw : week ∣ w) (hs : start ≤ w)
    (he : w + week ≤ endAt) :
    expectedTotal db start endAt w d m = sourceTotal db m w (w + week) d := by
  rw [expectedTotal, cellTotal_eq_spanTotal (by decide) hw, max_eq_right hs, min_eq_right he]
  rfl

theorem actualTotal_eq {w : ℕ} {d : Dimension} {m : Metric} (hw : week ∣ w) (hs : start ≤ w)
    (he : w + week ≤ endAt) :
    actualTotal rows start endAt w d m = hourlyTotal rows m w (w + week) d := by
  rw [actualTotal, cellTotal_eq_spanTotal (by decide) hw, max_eq_right hs, min_eq_right he]
  rfl

/-- What reconciles agrees on the weeks inside the bounds. -/
theorem Reconciles.week_eq (h : Reconciles db rows start endAt) {w : ℕ} (hw : week ∣ w)
    (hs : start ≤ w) (he : w + week ≤ endAt) (d : Dimension) (m : Metric) :
    hourlyTotal rows m w (w + week) d = sourceTotal db m w (w + week) d := by
  rw [← expectedTotal_eq hw hs he, (h w d).1 m, actualTotal_eq hw hs he]

end Reconciliation

/-! ## Bounds -/

section Bounds

variable {db : Ledger} {rows : List HourlyActivityRollup} {start endAt cutoff : ℕ}

/-- What the bounds of a reconciliation are. -/
theorem reconciliationBounds_eq_ok (h : reconciliationBounds db rows cutoff = .ok (start, endAt)) :
    hour ∣ start ∧ hour ∣ endAt ∧ start < endAt ∧ endAt ≤ cutoff := by
  have hf (t : ℕ) : hour ∣ floorHour t := dvd_floorTo hour t
  have hc (t : ℕ) : hour ∣ ceilHour t := dvd_ceilTo hour t
  unfold reconciliationBounds at h
  simp only at h
  split at h
  · split_ifs at h with hlt
    cases h
    refine ⟨?_, dvd_min ((Nat.dvd_add_right (hf _)).2 dvd_rfl) (hf _), Nat.lt_of_not_le hlt,
      (min_le_right _ _).trans (floorTo_le hour cutoff)⟩
    split
    · exact dvd_max (hf _) (hc _)
    · exact hf _
  · cases h

theorem activatedWeeks_fst (start reconcileEnd cutoff : ℕ) :
    (activatedWeeks start reconcileEnd cutoff).1 = ceilTo week start := by
  have hle : weekFloor start ≤ start := floorTo_le week start
  change (if weekFloor start < start then weekFloor start + 7 * day else weekFloor start) =
    if weekFloor start = start then weekFloor start else weekFloor start + week
  by_cases h : weekFloor start = start
  · rw [if_neg h.not_lt, if_pos h]
  · rw [if_pos (Nat.lt_of_le_of_ne hle h), if_neg h]

/-- The weeks that an activation rewrites lie inside the bounds. -/
theorem le_of_activated {w : ℕ} (hw : week ∣ w)
    (h₁ : (activatedWeeks start endAt cutoff).1 ≤ w)
    (h₂ : w < (activatedWeeks start endAt cutoff).2) : start ≤ w ∧ w + week ≤ endAt := by
  rw [activatedWeeks_fst] at h₁
  refine ⟨(le_ceilTo (by decide) start).trans h₁, ?_⟩
  have h₃ : w < weekFloor endAt := h₂.trans_le (min_le_right _ _)
  exact (add_le_of_dvd_of_lt hw (dvd_floorTo _ _) h₃).trans (floorTo_le _ _)

end Bounds

/-! ## Weekly rows -/

section Weekly

/-- The denominators that fit their column are small enough for the check of the rate. -/
theorem discrepancyRate_le_one_iff {n k : ℕ} (hfits : k < integerBound) :
    discrepancyRate n k ≤ 1 ↔ k = 0 ∨ n ≤ k := by
  have hbound : k ≤ 2 * 10 ^ 12 := by
    unfold integerBound at hfits
    omega
  unfold discrepancyRate
  split_ifs with hk
  · simp [hk]
  · rw [Decimal.numericDiv_le_one_iff (Nat.pos_of_ne_zero hk) hbound]
    simp [hk]

theorem discrepancyRate_nonneg (n k : ℕ) : 0 ≤ discrepancyRate n k := by
  unfold discrepancyRate
  split_ifs
  · exact le_rfl
  · exact Decimal.numericDiv_nonneg n k

/-- The published totals fit their columns. -/
def Fits (total : Metric → ℕ) : Prop :=
  total .inboundUnits < integerBound ∧ total .dispatchOrderCount < integerBound ∧
    total .stockoutCount < integerBound ∧ total .discrepancyCount < integerBound

variable {d d' : Dimension} {w : ℕ} {total total' : Metric → ℕ} {row : WeeklyPerformance}

theorem weeklyRow_isSome_iff : (weeklyRow d w total).isSome ↔
    Fits total ∧ (total .dispatchOrderCount = 0 ∨
      total .discrepancyCount ≤ total .dispatchOrderCount) ∧ week ∣ w := by
  unfold weeklyRow
  split_ifs with h
  · have hrate := (discrepancyRate_le_one_iff h.1.2.1).1 h.2.1.2
    simpa only [Option.isSome_some, true_iff] using ⟨h.1, hrate, h.2.2⟩
  · simp only [Option.isSome_none, Bool.false_eq_true, false_iff]
    rintro ⟨h₁, h₂, h₃⟩
    exact h ⟨h₁, ⟨discrepancyRate_nonneg _ _, (discrepancyRate_le_one_iff h₁.2.1).2 h₂⟩, h₃⟩

/-- What a weekly row says. -/
theorem weeklyRow_eq_some (h : weeklyRow d w total = some row) :
    row.warehouse = reportWarehouse d.1 ∧ row.clientId = d.2 ∧ row.weekStart = w ∧ week ∣ w ∧
      row.inboundUnitsCount = total .inboundUnits ∧
      row.outboundOrdersCount = total .dispatchOrderCount ∧
      row.stockoutEventsCount = total .stockoutCount ∧
      row.discrepancyEventsCount = total .discrepancyCount := by
  unfold weeklyRow at h
  split_ifs at h with hc
  cases h
  exact ⟨rfl, rfl, rfl, hc.2.2, rfl, rfl, rfl, rfl⟩

/-- The metrics that a weekly row shows. -/
def publishedMetrics : List Metric :=
  [.inboundUnits, .dispatchOrderCount, .stockoutCount, .discrepancyCount]

/-- A weekly row depends on the published metrics only. -/
theorem weeklyRow_congr (h : ∀ m ∈ publishedMetrics, total m = total' m) :
    weeklyRow d w total = weeklyRow d w total' := by
  simp only [publishedMetrics, List.mem_cons, List.not_mem_nil, or_false, forall_eq_or_imp,
    forall_eq] at h
  obtain ⟨h1, h2, h3, h4⟩ := h
  simp only [weeklyRow, h1, h2, h3, h4]

/-- The row shows its dimension, its week and its totals. -/
theorem weeklyRow_inj (h : weeklyRow d w total = some row) (h' : weeklyRow d' w total' = some row) :
    d = d' ∧ ∀ m ∈ publishedMetrics, total m = total' m := by
  obtain ⟨h1, h2, -, -, h3, h4, h5, h6⟩ := weeklyRow_eq_some h
  obtain ⟨h1', h2', -, -, h3', h4', h5', h6'⟩ := weeklyRow_eq_some h'
  refine ⟨Prod.ext (reportWarehouse_injective (h1.symm.trans h1')) (h2.symm.trans h2'), ?_⟩
  simp only [publishedMetrics, List.mem_cons, List.not_mem_nil, or_false, forall_eq_or_imp,
    forall_eq]
  omega

/-- The weekly row of a week and a dimension, taken from the ledger. -/
def sourceRow (db : Ledger) (d : Dimension) (w : ℕ) : Option WeeklyPerformance :=
  weeklyRow d w fun m => sourceTotal db m w (w + week) d

end Weekly

/-! ## The upserts -/

section Upserts

variable {db : Ledger} {hourly hourly' : Table HourlyActivityRollup.key}
  {weekly weekly' : Table WeeklyPerformance.key} {window : RollupWindow}
  {rows : List HourlyRollupRow} {pipelineVersion : String}
  {rollups : List HourlyActivityRollup} {firstWeek currentWeek cutoff n : ℕ}

theorem upsertHourly_eq_ok (h : upsertHourly db hourly window rows pipelineVersion = .ok hourly') :
    ∃ (payload : List HourlyActivityRollup) (hk : KeysDistinct HourlyActivityRollup.key payload),
      rows.mapM (payloadRow window pipelineVersion) = some payload ∧
        hourly' = hourly.upsertAll payload hk := by
  unfold upsertHourly at h
  split at h
  · cases h
  · rename_i payload hp
    split_ifs at h with hc hk
    cases h
    exact ⟨payload, hk, hp, rfl⟩

theorem mem_weeklyGroups {k : ℕ × Dimension} : k ∈ weeklyGroups rollups firstWeek currentWeek ↔
    ∃ r ∈ rollups, firstWeek ≤ r.bucketStart ∧ r.bucketStart < currentWeek ∧
      weekFloor r.bucketStart = k.1 ∧ r.dim = k.2 := by
  simp [weeklyGroups, and_assoc, Prod.ext_iff]

/-- The weekly rows have distinct keys, because the groups are distinct. -/
theorem keysDistinct_weeklyRows {payload : List WeeklyPerformance}
    (h : weeklyRows rollups firstWeek currentWeek = some payload) :
    KeysDistinct WeeklyPerformance.key payload := by
  have hkeys := map_key_of_mapM WeeklyPerformance.key
    (g := fun k : ℕ × Dimension => (reportWarehouse k.2.1, k.2.2, k.1)) h ?_
  · rw [KeysDistinct, hkeys]
    refine (nodup_distinct _ _).map fun k k' he => ?_
    simp only [Prod.mk.injEq] at he
    exact Prod.ext he.2.2 (Prod.ext (reportWarehouse_injective he.1) he.2.1)
  · intro k row hrow
    obtain ⟨h1, h2, h3, -⟩ := weeklyRow_eq_some hrow
    simp [WeeklyPerformance.key, h1, h2, h3]

/-- The weekly upsert writes one row for every group. -/
theorem upsertWeekly_eq_ok_iff :
    upsertWeekly db weekly rollups firstWeek currentWeek cutoff = .ok (n, weekly') ↔
      ∃ (payload : List WeeklyPerformance) (hk : KeysDistinct WeeklyPerformance.key payload),
        weeklyRows (onTime cutoff rollups) firstWeek currentWeek = some payload ∧
          (∀ w ∈ payload, clientExists db w.clientId = true) ∧ n = payload.length ∧
          weekly' = weekly.upsertAll payload hk := by
  unfold upsertWeekly
  constructor
  · intro h
    split at h
    · cases h
    · rename_i payload hp
      split_ifs at h with hc hk
      cases h
      exact ⟨payload, hk, hp, List.all_eq_true.1 hc, rfl, rfl⟩
  · rintro ⟨payload, hk, hp, hc, rfl, rfl⟩
    simp [hp, List.all_eq_true.2 hc, hk]

end Upserts

/-! ## The statements of an activation -/

/-- The hourly rows that an activation compares: those stored, overlaid by its own. -/
def candidateHourly (db : Ledger) (hourly : Table HourlyActivityRollup.key) (window : RollupWindow)
    (rows : Option (List HourlyRollupRow)) (pipelineVersion : String) :
    Except RollupError (Table HourlyActivityRollup.key) :=
  match rows with
  | none => .ok hourly
  | some rows =>
    if rows = [] then .ok hourly else upsertHourly db hourly window rows pipelineVersion

/-- The `rollup_state` that an activation finds at its end. -/
def candidateState (s : RollupState) (rows : Option (List HourlyRollupRow))
    (pipelineVersion : String) (cutoff now : ℕ) : RollupState :=
  match rows with
  | none => s
  | some _ => s.published pipelineVersion cutoff now

/-- The weekly rows after the weeks have been rewritten, and how many were written. -/
def republished (db : Ledger) (weekly : Table WeeklyPerformance.key)
    (rollups : List HourlyActivityRollup) (weeks : ℕ × ℕ) (cutoff : ℕ) :
    Except RollupError (ℕ × Table WeeklyPerformance.key) :=
  let kept := weekly.deleteWhere fun w =>
    decide (weeks.1 ≤ w.weekStart) && decide (w.weekStart < weeks.2)
  if weeks.1 < weeks.2 then upsertWeekly db kept rollups weeks.1 weeks.2 cutoff else .ok (0, kept)

/-- The statements that publish some rows. -/
def publishStatements : Option (List HourlyRollupRow) → List Statement
  | none => []
  | some rows => if rows = [] then [.recordPublication] else [.upsertHourly, .recordPublication]

/-- The statements that an activation of some rows and weeks executes before `COMMIT`. -/
def executed (rows : Option (List HourlyRollupRow)) (weeks : ℕ × ℕ) : List Statement :=
  let opening : List Statement := [.setTimeout, .verifyClaim]
  let replacement : List Statement := [.readBounds, .reconcile, .deleteWeekly]
  let weekly : List Statement := if weeks.1 < weeks.2 then [.upsertWeekly] else []
  let closing : List Statement := [.activate]
  opening ++ publishStatements rows ++ replacement ++ weekly ++ closing

/-- The conditions under which an activation goes through, and what it computes. -/
structure Activated (db : Ledger) (runs : Table Queue.PipelineRun.id) (claim : Queue.RunClaim)
    (window : RollupWindow) (rows : Option (List HourlyRollupRow)) (pipelineVersion : String)
    (now : ℕ) (faults : Faults) (t : Tables) (hourly : Table HourlyActivityRollup.key)
    (bounds : ℕ × ℕ) (n : ℕ) (weekly : Table WeeklyPerformance.key) : Prop where
  owned : claim.Owned runs
  hourly_eq : candidateHourly db t.hourly window rows pipelineVersion = .ok hourly
  snapshot : (candidateState t.rollupState.1 rows pipelineVersion
    (floorHour window.sourceCutoffAt) now).ActiveSnapshot
  bounds_eq : reconciliationBounds db hourly.rows (floorHour window.sourceCutoffAt) = .ok bounds
  reconciles : Reconciles db hourly.rows bounds.1 bounds.2
  weekly_eq : republished db t.weekly hourly.rows
    (activatedWeeks bounds.1 bounds.2 (floorHour window.sourceCutoffAt))
    (floorHour window.sourceCutoffAt) = .ok (n, weekly)
  version : (candidateState t.rollupState.1 rows pipelineVersion
    (floorHour window.sourceCutoffAt) now).pipelineVersion = some pipelineVersion
  cutoff_le : ∃ l, (candidateState t.rollupState.1 rows pipelineVersion
    (floorHour window.sourceCutoffAt) now).lastCutoffAt = some l ∧
      floorHour window.sourceCutoffAt ≤ l
  faultless : ∀ s ∈ executed rows
    (activatedWeeks bounds.1 bounds.2 (floorHour window.sourceCutoffAt)), faults s = none

section Statements

variable {db : Ledger} {runs : Table Queue.PipelineRun.id} {claim : Queue.RunClaim}
  {window : RollupWindow} {pipelineVersion : String} {cutoff now n : ℕ} {faults : Faults}
  {t t' : Tables} {s : RollupState}

theorem setRollupState_eq_ok_iff :
    setRollupState t s = .ok t' ↔
      ∃ h : s.ActiveSnapshot, t' = { t with rollupState := ⟨s, h⟩ } := by
  unfold setRollupState
  split_ifs with h
  · simp [h, eq_comm]
  · simp [h]

theorem activeSnapshot_activated {l : ℕ} (hl : s.lastCutoffAt = some l) (hc : cutoff ≤ l) :
    (s.activated pipelineVersion cutoff now).ActiveSnapshot := by
  refine .inr ⟨rfl, rfl, rfl, rfl, fun a ha l' hl' => ?_⟩
  cases ha
  rw [show (s.activated pipelineVersion cutoff now).lastCutoffAt = some l from hl] at hl'
  cases hl'
  exact hc

theorem map_eq_ok_iff {ε α β : Type*} {x : Except ε α} {f : α → β} {b : β} :
    x.map f = .ok b ↔ ∃ a, x = .ok a ∧ f a = b := by
  cases x <;> simp [Except.map]

theorem verifyClaim_eq_ok_iff {u : Unit} :
    verifyClaim runs claim t = .ok (u, t') ↔ claim.Owned runs ∧ t = t' := by
  unfold verifyClaim
  split_ifs with h <;> simp [h]

theorem publish_eq_ok_iff {rows : List HourlyRollupRow} :
    (publish db window rows pipelineVersion cutoff now faults).run t = (.ok n, t') ↔
      ∃ (hourly : Table HourlyActivityRollup.key)
        (hs : (t.rollupState.1.published pipelineVersion cutoff now).ActiveSnapshot),
        (rows ≠ [] → faults .upsertHourly = none) ∧ faults .recordPublication = none ∧
        candidateHourly db t.hourly window (some rows) pipelineVersion = .ok hourly ∧
        n = rows.length ∧
        t' = { t with hourly := hourly, rollupState := ⟨_, hs⟩ } := by
  unfold publish candidateHourly
  by_cases hr : rows = []
  · simp only [hr, ne_eq, not_true_eq_false, if_false, if_true, Tx.bind_eq_ok, Tx.pure_eq_ok,
      Tx.statement_eq_ok, map_eq_ok_iff, setRollupState_eq_ok_iff]
    aesop
  · simp only [hr, ne_eq, not_false_eq_true, if_false, if_true, Tx.bind_eq_ok, Tx.pure_eq_ok,
      Tx.statement_eq_ok, map_eq_ok_iff, setRollupState_eq_ok_iff]
    aesop

theorem publishCandidate_eq_ok_iff {rows : Option (List HourlyRollupRow)} :
    (publishCandidate db window rows pipelineVersion cutoff now faults).run t = (.ok n, t') ↔
      ∃ (hourly : Table HourlyActivityRollup.key)
        (hs : (candidateState t.rollupState.1 rows pipelineVersion cutoff now).ActiveSnapshot),
        (∀ s ∈ publishStatements rows, faults s = none) ∧
        candidateHourly db t.hourly window rows pipelineVersion = .ok hourly ∧
        n = (rows.map List.length).getD 0 ∧
        t' = { t with hourly := hourly, rollupState := ⟨_, hs⟩ } := by
  cases rows with
  | none =>
    simp only [publishCandidate, candidateHourly, candidateState, publishStatements, Tx.pure_eq_ok]
    constructor
    · rintro ⟨rfl, rfl⟩
      exact ⟨_, t.rollupState.2, by simp, rfl, rfl, rfl⟩
    · rintro ⟨hourly, hs, -, hh, rfl, rfl⟩
      cases hh
      exact ⟨rfl, rfl⟩
  | some rows =>
    simp only [publishCandidate, publish_eq_ok_iff, publishStatements]
    refine exists₂_congr fun hourly hs => ?_
    by_cases hr : rows = [] <;> simp [hr, candidateState, and_assoc]

theorem reconcile_eq_ok_iff {r : (ℕ × ℕ) × ReconciliationResult} :
    (reconcile db cutoff faults).run t = (.ok r, t') ↔
      faults .readBounds = none ∧ faults .reconcile = none ∧
        reconciliationBounds db t.hourly.rows cutoff = .ok r.1 ∧
        Reconciles db t.hourly.rows r.1.1 r.1.2 ∧
        r.2 = reconciliationResult db t.hourly.rows r.1.1 r.1.2 ∧ t' = t := by
  simp only [reconcile, Tx.bind_eq_ok, Tx.statement_eq_ok, map_eq_ok_iff, Except.ok.injEq,
    Prod.mk.injEq]
  constructor
  · rintro ⟨bounds, _, ⟨h₁, b, hb, rfl, rfl⟩, q, _, ⟨h₂, rfl, rfl⟩, h⟩
    split_ifs at h with he
    · obtain ⟨rfl, rfl⟩ := Tx.pure_eq_ok.1 h
      exact ⟨h₁, h₂, hb, exact_iff.1 he, rfl, rfl⟩
    · exact absurd h Tx.raise_ne_ok
  · rintro ⟨h₁, h₂, hb, hr, hq, rfl⟩
    refine ⟨r.1, t', ⟨h₁, r.1, hb, rfl, rfl⟩, r.2, t', ⟨h₂, hq.symm, rfl⟩, ?_⟩
    rw [if_pos (by rw [hq]; exact exact_iff.2 hr)]
    exact Tx.pure_eq_ok.2 ⟨rfl, rfl⟩

theorem republish_eq_ok_iff {weeks : ℕ × ℕ} :
    (republish db weeks cutoff faults).run t = (.ok n, t') ↔
      ∃ weekly, faults .deleteWeekly = none ∧ (weeks.1 < weeks.2 → faults .upsertWeekly = none) ∧
        republished db t.weekly t.hourly.rows weeks cutoff = .ok (n, weekly) ∧
        t' = { t with weekly := weekly } := by
  simp only [republish, republished, Tx.bind_eq_ok, Tx.statement_eq_ok, Except.ok.injEq,
    Prod.mk.injEq]
  by_cases hw : weeks.1 < weeks.2
  · simp only [hw, if_true, forall_const, Tx.statement_eq_ok, map_eq_ok_iff]
    constructor
    · rintro ⟨_, _, ⟨h₁, -, rfl⟩, h₂, ⟨k, weekly⟩, hu, he⟩
      cases he
      exact ⟨weekly, h₁, h₂, hu, rfl⟩
    · rintro ⟨weekly, h₁, h₂, hu, rfl⟩
      exact ⟨(), _, ⟨h₁, trivial, rfl⟩, h₂, (n, weekly), hu, rfl⟩
  · simp only [hw, if_false, false_implies, true_and, Except.ok.injEq, Prod.mk.injEq,
      Tx.pure_eq_ok]
    constructor
    · rintro ⟨_, _, ⟨h₁, -, rfl⟩, rfl, rfl⟩
      exact ⟨_, h₁, ⟨rfl, rfl⟩, rfl⟩
    · rintro ⟨weekly, h₁, ⟨rfl, rfl⟩, rfl⟩
      exact ⟨(), _, ⟨h₁, rfl⟩, rfl, rfl⟩

theorem recordActivation_eq_ok_iff {u : Unit} :
    (recordActivation pipelineVersion cutoff now faults).run t = (.ok u, t') ↔
      faults .activate = none ∧ t.rollupState.1.pipelineVersion = some pipelineVersion ∧
        (∃ l, t.rollupState.1.lastCutoffAt = some l ∧ cutoff ≤ l) ∧
        ∃ hs : (t.rollupState.1.activated pipelineVersion cutoff now).ActiveSnapshot,
          t' = { t with rollupState := ⟨_, hs⟩ } := by
  have hany : t.rollupState.1.lastCutoffAt.any (fun l => decide (cutoff ≤ l)) = true ↔
      ∃ l, t.rollupState.1.lastCutoffAt = some l ∧ cutoff ≤ l := by
    simp [Option.any_eq_true]
  simp only [recordActivation, Tx.statement_eq_ok, hany]
  refine and_congr_right fun _ => ?_
  constructor
  · intro h
    split_ifs at h with hc
    obtain ⟨t₁, h₁, he⟩ := map_eq_ok_iff.1 h
    cases he
    exact ⟨hc.1, hc.2, setRollupState_eq_ok_iff.1 h₁⟩
  · rintro ⟨h₁, h₂, hs⟩
    rw [if_pos ⟨h₁, h₂⟩]
    exact map_eq_ok_iff.2 ⟨t', setRollupState_eq_ok_iff.2 hs, rfl⟩

theorem executed_faultless_iff {rows : Option (List HourlyRollupRow)} {weeks : ℕ × ℕ} :
    (∀ s ∈ executed rows weeks, faults s = none) ↔
      (faults .setTimeout = none ∧ faults .verifyClaim = none) ∧
        (∀ s ∈ publishStatements rows, faults s = none) ∧
        (faults .readBounds = none ∧ faults .reconcile = none ∧ faults .deleteWeekly = none) ∧
        (weeks.1 < weeks.2 → faults .upsertWeekly = none) ∧ faults .activate = none := by
  by_cases hw : weeks.1 < weeks.2 <;>
    simp [executed, hw, or_imp, forall_and, and_assoc]

/-- **What an activation does.** -/
theorem activation_eq_ok_iff {rows : Option (List HourlyRollupRow)} {res : ActivationResult} :
    (activation db runs claim window rows pipelineVersion now faults).run t = (.ok res, t') ↔
      ∃ hourly bounds n weekly,
        Activated db runs claim window rows pipelineVersion now faults t hourly bounds n weekly ∧
        res = ⟨(rows.map List.length).getD 0, n,
          reconciliationResult db hourly.rows bounds.1 bounds.2⟩ ∧
        t'.hourly = hourly ∧ t'.weekly = weekly ∧
        t'.rollupState.1 = (candidateState t.rollupState.1 rows pipelineVersion
          (floorHour window.sourceCutoffAt) now).activated pipelineVersion
            (floorHour window.sourceCutoffAt) now ∧
        t'.lastResetAt = t.lastResetAt := by
  simp only [activation, Tx.bind_eq_ok, Tx.statement_eq_ok, verifyClaim_eq_ok_iff, Tx.pure_eq_ok,
    publishCandidate_eq_ok_iff, reconcile_eq_ok_iff, republish_eq_ok_iff,
    recordActivation_eq_ok_iff, Except.ok.injEq, Prod.mk.injEq]
  constructor
  · rintro ⟨-, _, ⟨f₁, -, rfl⟩, -, _, ⟨f₂, ho, rfl⟩, -, _, ⟨hourly, hs, f₃, hh, rfl, rfl⟩, r, _,
      ⟨f₄, f₅, hb, hr, hres, rfl⟩, n, _, ⟨weekly, f₆, f₇, hw, rfl⟩, -, _,
      ⟨f₈, hv, hl, hs', rfl⟩, rfl, rfl⟩
    exact ⟨hourly, r.1, n, weekly, ⟨ho, hh, hs, hb, hr, hw, hv, hl,
      executed_faultless_iff.2 ⟨⟨f₁, f₂⟩, f₃, ⟨f₄, f₅, f₆⟩, f₇, f₈⟩⟩, by rw [hres],
      rfl, rfl, rfl, rfl⟩
  · rintro ⟨hourly, bounds, n, weekly, h, rfl, rfl, rfl, hs, hr⟩
    obtain ⟨⟨f₁, f₂⟩, f₃, ⟨f₄, f₅, f₆⟩, f₇, f₈⟩ := executed_faultless_iff.1 h.faultless
    obtain ⟨l, hl, hc⟩ := h.cutoff_le
    refine ⟨(), t, ⟨f₁, trivial, rfl⟩, (), t, ⟨f₂, h.owned, rfl⟩, _, _,
      ⟨t'.hourly, h.snapshot, f₃, h.hourly_eq, rfl, rfl⟩, (bounds, _), _,
      ⟨f₄, f₅, h.bounds_eq, h.reconciles, rfl, rfl⟩, n, _, ⟨t'.weekly, f₆, f₇, h.weekly_eq, rfl⟩,
      (), t', ⟨f₈, h.version, ⟨l, hl, hc⟩, activeSnapshot_activated hl hc, ?_⟩, rfl, rfl⟩
    ext1
    · rfl
    · rfl
    · exact Subtype.ext hs
    · exact hr

end Statements

/-! ## The transaction -/

/-- The conditions under which `activate_reconciled_rollups` returns. -/
def Accepts (db : Database) (claim : Queue.RunClaim) (window : RollupWindow)
    (rows : Option (List HourlyRollupRow)) (now : ℕ) (pipelineVersion : String) (faults : Faults) :
    Prop :=
  faults .commit = none ∧ ∃ hourly bounds n weekly, Activated db.ledger db.runs claim window rows
    pipelineVersion now faults db.reporting hourly bounds n weekly

section Transaction

variable {db db' : Database} {claim : Queue.RunClaim} {window : RollupWindow}
  {rows : Option (List HourlyRollupRow)} {now : ℕ} {pipelineVersion : String} {faults : Faults}
  {res : ActivationResult} {e : RollupError}

theorem activate_eq_of_transact {r : Except RollupError ActivationResult} {t : Tables}
    (h : Tx.transact (faults .commit)
      (activation db.ledger db.runs claim window rows pipelineVersion now faults) db.reporting =
        (r, t)) :
    activateReconciledRollups db claim window rows now pipelineVersion faults =
      (r, { db with reporting := t }) := by
  rw [activateReconciledRollups, h]

/-- What a successful activation has done. -/
theorem activate_eq_ok
    (h : activateReconciledRollups db claim window rows now pipelineVersion faults =
      (.ok res, db')) :
    db'.ledger = db.ledger ∧ db'.runs = db.runs ∧ ∃ bounds n,
      Activated db.ledger db.runs claim window rows pipelineVersion now faults db.reporting
        db'.reporting.hourly bounds n db'.reporting.weekly ∧
      res = ⟨(rows.map List.length).getD 0, n,
        reconciliationResult db.ledger db'.reporting.hourly.rows bounds.1 bounds.2⟩ ∧
      db'.reporting.rollupState.1 = (candidateState db.reporting.rollupState.1 rows pipelineVersion
        (floorHour window.sourceCutoffAt) now).activated pipelineVersion
          (floorHour window.sourceCutoffAt) now ∧
      db'.reporting.lastResetAt = db.reporting.lastResetAt := by
  obtain ⟨h₁, rfl⟩ := Prod.mk.inj h
  obtain ⟨-, hb⟩ := Tx.transact_eq_ok.1 (Prod.ext h₁ rfl)
  obtain ⟨_, bounds, n, _, hact, hres, rfl, rfl, hs, hr⟩ := activation_eq_ok_iff.1 hb
  exact ⟨rfl, rfl, bounds, n, hact, hres, hs, hr⟩

/-- **Accepted inputs.**  An activation returns if and only if it is accepted. -/
theorem activate_isOk_iff :
    (∃ res db', activateReconciledRollups db claim window rows now pipelineVersion faults =
      (.ok res, db')) ↔ Accepts db claim window rows now pipelineVersion faults := by
  constructor
  · rintro ⟨res, db', h⟩
    obtain ⟨h₁, -⟩ := Prod.mk.inj h
    obtain ⟨hc, hb⟩ := Tx.transact_eq_ok.1 (Prod.ext h₁ rfl)
    obtain ⟨hourly, bounds, n, weekly, hact, -⟩ := activation_eq_ok_iff.1 hb
    exact ⟨hc, hourly, bounds, n, weekly, hact⟩
  · rintro ⟨hc, hourly, bounds, n, weekly, hact⟩
    obtain ⟨l, hl, hle⟩ := hact.cutoff_le
    have hs : ((candidateState db.reporting.rollupState.1 rows pipelineVersion
        (floorHour window.sourceCutoffAt) now).activated pipelineVersion
          (floorHour window.sourceCutoffAt) now).ActiveSnapshot := activeSnapshot_activated hl hle
    have hb : (activation db.ledger db.runs claim window rows pipelineVersion now faults).run
        db.reporting = (.ok _, ⟨hourly, weekly, ⟨_, hs⟩, db.reporting.lastResetAt⟩) :=
      activation_eq_ok_iff.2 ⟨hourly, bounds, n, weekly, hact, rfl, rfl, rfl, rfl, rfl⟩
    have ht := Tx.transact_eq_ok.2 ⟨hc, hb⟩
    exact ⟨_, _, activate_eq_of_transact ht⟩

/-- An activation that raises changes nothing. -/
theorem activate_of_error
    (h : activateReconciledRollups db claim window rows now pipelineVersion faults =
      (.error e, db')) : db' = db := by
  obtain ⟨h₁, rfl⟩ := Prod.mk.inj h
  exact congrArg (fun t => ({ db with reporting := t } : Database))
    (Tx.transact_of_error (Prod.ext h₁ rfl))

end Transaction

end Reporting

end TrackFlow
