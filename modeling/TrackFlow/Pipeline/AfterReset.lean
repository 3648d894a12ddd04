import TrackFlow.Pipeline.Legitimate
import TrackFlow.Pipeline.Resets

/-!
# The first run after a reset

A reset empties the source tables and refills them, but leaves the hourly rollups of earlier runs
as they are.  The next default run compares them with the new ledger, from the first rollup on:
`reset_reconcilable_iff` says which leftovers let it activate, and `reset_blocks_reporting` that
one earlier run over one receipt is enough to block it.
-/

namespace TrackFlow

namespace Pipeline

open Reporting

namespace Platform

/-- `reset_ledger` from its truncation on, when nothing else commits and nothing fails. -/
structure ResetCompleted (s s' : Platform) : Prop where
  steps : ∃ s₁ s₂ ids userUuid isoformat draws now days,
    s.next .resetTruncate = some s₁ ∧ s₁.next (.resetSeed ids userUuid) = some s₂ ∧
      s₂.next (.resetBackfill isoformat draws userUuid now days) = some s' ∧
      s₂.db.ledger.backfillHistory isoformat draws userUuid now.instant days = .ok s'.db.ledger

/-- What the first run after a reset needs of the rollups of earlier runs. -/
structure LeftoversAgree (db : Ledger) (leftovers : List HourlyActivityRollup)
    (window : RollupWindow) : Prop where
  /-- Before the window, from the first rollup on time, they agree with the new ledger in every
  weekly cell. -/
  agree : ∀ w d m, week ∣ w →
    hourlyTotal leftovers m (max (firstCompared leftovers window.sourceCutoffAt window.start) w)
        (min window.start (w + week)) d =
      sourceTotal db m (max (firstCompared leftovers window.sourceCutoffAt window.start) w)
        (min window.start (w + week)) d
  /-- Those on time, continued by the ledger, fit the columns of the weekly table. -/
  fits : ∀ w d, week ∣ w → firstCompared leftovers window.sourceCutoffAt window.start ≤ w →
    w + week ≤ window.sourceCutoffAt →
    Fits fun m =>
      hourlyTotal (onTime window.sourceCutoffAt leftovers) m w (min window.start (w + week)) d +
        sourceTotal db m (max w (min window.start (w + week))) (w + week) d

section Reset

variable {s s' : Platform}

/-- What a reset leaves: the rollups, and a ledger without discrepancies and checkpoints. -/
theorem ResetCompleted.facts (hr : ResetCompleted s s') (hs : Sane s) :
    Sane s' ∧ s'.db.reporting.hourly = s.db.reporting.hourly ∧
      s'.db.ledger.inventoryDiscrepancies = [] ∧
      s'.db.ledger.stockLedgerCheckpoints = .empty ∧ s'.db.ledger.skus.rows ≠ [] := by
  obtain ⟨s₁, s₂, ids, userUuid, isoformat, draws, now, days, h₁, h₂, h₃, hb⟩ := hr.steps
  have hsane := ((hs.next h₁).next h₂).next h₃
  simp only [Platform.next, resetTruncate] at h₁
  split at h₁
  · split_ifs at h₁
    cases h₁
    simp only [Platform.next, resetSeed] at h₂
    split at h₂
    · -- a seed that raises stops the reset
      cases h₂
      simp [Platform.next, resetBackfill] at h₃
    · rename_i ledger hseed
      cases h₂
      have hrs := Reseeded.seedInventory hseed
      have hrb := Reseeded.backfillHistory hb
      have hskus : ledger.skus.rows ≠ [] := Reseeded.skus_of_seedInventory hseed
      refine ⟨hsane, ?_, hrb.discrepancies.trans hrs.discrepancies,
        hrb.checkpoints.trans hrs.checkpoints, ?_⟩
      · simp only [Platform.next, resetBackfill] at h₃
        split at h₃ <;> cases h₃ <;> rfl
      · obtain ⟨sku, hm⟩ := List.exists_mem_of_ne_nil _ hskus
        obtain ⟨sku', hm', -⟩ := hrb.skus sku hm
        exact List.ne_nil_of_mem hm'
  · cases h₁

/-- A ledger without discrepancies counts none. -/
theorem sourceTotal_discrepancy_eq_zero {db : Ledger} (h : db.inventoryDiscrepancies = [])
    (a b : ℕ) (d : Dimension) : sourceTotal db .discrepancyCount a b d = 0 := by
  refine spanTotal_eq_zero fun v hv _ _ _ => ?_
  rcases mem_sourceEvents.1 hv with ⟨r, -, he⟩ | ⟨r, -, he⟩ | ⟨r, -, rfl⟩ | ⟨r, hr, -⟩
  · obtain ⟨sku, -, rfl⟩ := Option.map_eq_some_iff.1 he
    rfl
  · obtain ⟨sku, -, rfl⟩ := Option.map_eq_some_iff.1 he
    cases r.exitType <;> rfl
  · rfl
  · simp [h] at hr

/-- Without discrepancies in the ledger, only the leftovers matter. -/
theorem activatable_iff_leftovers {db : Ledger} {leftovers : List HourlyActivityRollup}
    {window : RollupWindow} (h : db.inventoryDiscrepancies = []) :
    Activatable db leftovers window ↔ LeftoversAgree db leftovers window := by
  constructor
  · rintro ⟨hagree, -, hholds⟩
    exact ⟨hagree, fun w d hweek hs he => (weeklyRow_isSome_iff.1 (hholds w d hweek hs he)).1⟩
  · rintro ⟨hagree, hfits⟩
    refine ⟨hagree, fun w d _ => ?_, fun w d hweek hs he => ?_⟩
    · rw [sourceTotal_discrepancy_eq_zero h]
      exact Nat.zero_le _
    · -- what agrees with the ledger has no discrepancies either
      have hzero := hagree w d .discrepancyCount hweek
      rw [sourceTotal_discrepancy_eq_zero h, max_eq_right hs] at hzero
      have hontime : hourlyTotal (onTime window.sourceCutoffAt leftovers) .discrepancyCount w
          (min window.start (w + week)) d = 0 := by
        have hsplit : spanTotal HourlyActivityRollup.bucketStart HourlyActivityRollup.dim
            (fun r => r.counts .discrepancyCount) leftovers w (min window.start (w + week)) d =
              hourlyTotal (onTime window.sourceCutoffAt leftovers) .discrepancyCount w
                (min window.start (w + week)) d + _ :=
          spanTotal_filter_add _
        have htotal : spanTotal HourlyActivityRollup.bucketStart HourlyActivityRollup.dim
            (fun r => r.counts .discrepancyCount) leftovers w (min window.start (w + week)) d = 0 :=
          hzero
        rw [htotal] at hsplit
        exact Nat.eq_zero_of_add_eq_zero_right hsplit.symm
      rw [weeklyRow_isSome_iff]
      refine ⟨hfits w d hweek hs he, .inr ?_, hweek⟩
      simp only [hontime, sourceTotal_discrepancy_eq_zero h, zero_add]
      exact Nat.zero_le _

/-- **When a reset leaves a reconcilable pipeline.**  In every reachable state, after a completed
reset, an undisturbed default run with a window activates if and only if the rollups of earlier
runs agree with the new ledger before the window, and fit the weekly table. -/
theorem reset_reconcilable_iff {ledger : Ledger} {runs runs' : Table Queue.PipelineRun.id}
    {lastResetAt : Option ℕ} {claim : Queue.RunClaim} {clock : Queue.Stage → Clock}
    {window : RollupWindow} (hwf : WellFormed ledger) (hclients : ClientsExist ledger)
    (hr : machine.Reachable (start ledger runs lastResetAt) s) (hreset : ResetCompleted s s')
    (ho : claim.Owned runs') (hd : claim.requestedWeekStart = none)
    (hc : captureRollupWindow { s'.db with runs := runs' } claim (clock .extract).instant =
      .ok window) :
    (∃ metrics, (directSqlExecutor { s'.db with runs := runs' } claim clock true).1 = .ok metrics) ↔
      LeftoversAgree s'.db.ledger s.db.reporting.hourly.rows window := by
  obtain ⟨hs, hhourly, hdisc, hcheck, hskus⟩ :=
    hreset.facts ((Sane.start hwf hclients runs lastResetAt).run hr)
  have hdims : dimensions s'.db.ledger ≠ [] := fun h => hskus (dimensions_eq_nil_iff.1 h)
  have hpruned : prunedThrough s'.db.ledger = none := by rw [prunedThrough, hcheck]; rfl
  have hiff : (∃ metrics,
      (directSqlExecutor { s'.db with runs := runs' } claim clock true).1 = .ok metrics) ↔
        dimensions s'.db.ledger ≠ [] ∧
          Activatable s'.db.ledger s'.db.reporting.hourly.rows window :=
    default_run_activates_iff ho hs.wellFormed hs.clients hs.rollups hs.state hpruned hd hc
  rw [hiff, ← hhourly]
  exact ⟨fun h => (activatable_iff_leftovers hdisc).1 h.2,
    fun h => ⟨hdims, (activatable_iff_leftovers hdisc).2 h⟩⟩

end Reset

/-! ### A receipt before the reset -/

/-- The identifiers that a seed draws. -/
def seedIds : SeedIds where
  client name := BitVec.ofNat 128 (100 + seedClientNames.idxOf name)
  sku code := 10 + (skuSeeds.map (·.sku)).idxOf code

/-- A day in the backfill. -/
def quietDay : BackfillDay where
  receipt := 20
  receipt_mem := by decide
  hourOfDay := 6
  hour_mem := by decide
  exits := [⟨0, false, "T-1", 11, by decide⟩]
  exits_length := by decide

/-- `t` after a Monday in July 2024, when the receipts of the seed are past. -/
def julyClock (t : ℕ) : Clock := newYearClock (30 * week + t)

/-- One day of backfill. -/
def backfillDay : Event :=
  .resetBackfill (fun _ => "day") (fun _ _ => quietDay) "u-1" (julyClock (14 * hour)) 1

/-- The rest of a reset, with one day of backfill. -/
def finishReset (s : Platform) : Option Platform := do
  let s₁ ← s.next .resetTruncate
  let s₂ ← s₁.next (.resetSeed seedIds "u-1")
  let _ ← (s₂.db.ledger.backfillHistory (fun _ => "day") (fun _ _ => quietDay) "u-1"
    (julyClock (14 * hour)).instant 1).toOption
  s₂.next backfillDay

/-- A reset at 14:00 that is about to truncate. -/
def resetAtTwo : List Event := [.resetStart (julyClock (14 * hour)) 9, .queue (succeeded 9)]

/-- A receipt of one SKU at 10:30. -/
def receiptAtTen : List Event :=
  [.service (.createClient "Acme" "admin" 7),
    .service (.createSku ⟨"Lamp", "LAMP-1", 7, .electronics, .LA, 0⟩ 1),
    .service (.recordInbound ⟨1, 5, "PO-1", .LA, five_units_pos⟩ "u-1"
      (julyClock (10 * hour + 1800 * second)) 1)]

/-- The clock of a run at 16:00. -/
def fourOClock : Queue.Stage → Clock := fun _ => julyClock (16 * hour)

theorem resetCompleted_of_finish {s s' : Platform} (h : finishReset s = some s') :
    ResetCompleted s s' := by
  simp only [finishReset, Option.bind_eq_bind, Option.bind_eq_some_iff] at h
  obtain ⟨s₁, h₁, s₂, h₂, ledger, hb, h₃⟩ := h
  have hledger := Ledger.toOption_eq_some_iff.1 hb
  refine ⟨s₁, s₂, seedIds, "u-1", _, _, _, 1, h₁, h₂, h₃, ?_⟩
  rw [hledger]
  simp only [backfillDay, Platform.next, resetBackfill, hledger] at h₃
  split at h₃
  · cases h₃
    rfl
  · cases h₃

/-- The receipt was rolled up at noon: the run at 16:00 finds five units where the new ledger has
none, and is refused. -/
theorem reset_blocks_reporting :
    ∃ s s' runs claim clock, machine.Reachable (start .empty .empty none) s ∧
      ResetCompleted s s' ∧ claim.Owned runs ∧ claim.requestedWeekStart = none ∧
      (∃ window, captureRollupWindow { s'.db with runs := runs } claim
        (clock .extract).instant = .ok window) ∧
      ¬ ∃ metrics, (directSqlExecutor { s'.db with runs := runs } claim clock true).1 =
        .ok metrics := by
  let claim := runFor 2 none
  let refused (s : Platform) : Bool := (finishReset s).any fun s' =>
    (captureRollupWindow { s'.db with runs := claimed claim } claim
      (fourOClock .extract).instant).toOption.isSome &&
    (directSqlExecutor { s'.db with runs := claimed claim } claim fourOClock true).1.toOption.isNone
  obtain ⟨s, hs, hp⟩ := machine.exists_reachable (start .empty .empty none)
    (receiptAtTen ++ runAt (runFor 1 none) (julyClock (12 * hour)) ++ resetAtTwo) refused
    (by decide +kernel)
  obtain ⟨s', hf, hp⟩ := (Option.any_eq_true _ _).1 hp
  obtain ⟨hc, hno⟩ := Bool.and_eq_true_iff.1 hp
  refine ⟨s, s', claimed claim, claim, fourOClock, hs, resetCompleted_of_finish hf,
    by decide, rfl, ?_, fun ⟨metrics, hm⟩ => ?_⟩
  · obtain ⟨window, hw⟩ := Option.isSome_iff_exists.1 hc
    exact ⟨window, Ledger.toOption_eq_some_iff.1 hw⟩
  · rw [hm] at hno
    cases hno

/-- Without an earlier run. -/
theorem reset_reconcilable_first_run :
    ∃ s s' runs claim clock window, machine.Reachable (start .empty .empty none) s ∧
      ResetCompleted s s' ∧ s'.db.ledger.stockExits ≠ [] ∧
      captureRollupWindow { s'.db with runs := runs } claim (clock .extract).instant = .ok window ∧
      ((∃ metrics, (directSqlExecutor { s'.db with runs := runs } claim clock true).1 =
        .ok metrics) ↔ LeftoversAgree s'.db.ledger s.db.reporting.hourly.rows window) := by
  let claim := runFor 2 none
  let ready (s : Platform) : Bool := (finishReset s).any fun s' =>
    !s'.db.ledger.stockExits.isEmpty && (captureRollupWindow { s'.db with runs := claimed claim }
      claim (fourOClock .extract).instant).toOption.isSome
  obtain ⟨s, hs, hp⟩ := machine.exists_reachable (start .empty .empty none)
    (receiptAtTen ++ resetAtTwo) ready (by decide +kernel)
  obtain ⟨s', hf, hp⟩ := (Option.any_eq_true _ _).1 hp
  obtain ⟨hx, hc⟩ := Bool.and_eq_true_iff.1 hp
  obtain ⟨window, hw⟩ := Option.isSome_iff_exists.1 hc
  have hcapture := Ledger.toOption_eq_some_iff.1 hw
  have hreset := resetCompleted_of_finish hf
  exact ⟨s, s', claimed claim, claim, fourOClock, window, hs, hreset, by simpa using hx, hcapture,
    reset_reconcilable_iff wellFormed_empty clientsExist_empty hs hreset (by decide) rfl hcapture⟩

end Platform

end Pipeline

end TrackFlow
