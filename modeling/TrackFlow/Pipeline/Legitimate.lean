import TrackFlow.Pipeline.Coverage

/-!
# Reporting what the inventory service has recorded

A ledger that only the inventory service has written, rolled up over its whole history for the
first time.  The weekly table assumes that no week of a client has more discrepancies than
dispatches; the service counts a discrepancy in the week it is detected, whenever its dispatch
was.  `legitimate_ledger_reported_iff` says which ledgers can be reported.
-/

namespace TrackFlow

namespace Pipeline

open Reporting

namespace Platform

/-- Calls of the inventory service, and what the queue does. -/
def serviceOnly : Event → Bool
  | .service _ => true
  | .queue _ => true
  | _ => false

/-- What the weekly table assumes of the ledger from the start of a window on. -/
structure Reportable (db : Ledger) (window : RollupWindow) : Prop where
  sku : db.skus.rows ≠ []
  /-- In every weekly cell, no more discrepancies were detected than dispatches recorded. -/
  denominator : ∀ w d, week ∣ w →
    sourceTotal db .discrepancyCount (max window.start w)
        (min window.sourceCutoffAt (w + week)) d ≤
      sourceTotal db .dispatchOrderCount (max window.start w)
        (min window.sourceCutoffAt (w + week)) d
  /-- The totals of a whole week fit their columns. -/
  fits : ∀ w d, week ∣ w → window.start ≤ w → w + week ≤ window.sourceCutoffAt →
    Fits fun m => sourceTotal db m w (w + week) d

/-- What service calls leave behind. -/
structure Recorded (s : Platform) : Prop where
  wellFormed : WellFormed s.db.ledger
  clients : ClientsExist s.db.ledger
  checkpoints : s.db.ledger.stockLedgerCheckpoints = .empty
  reporting : s.db.reporting = Tables.empty

section Recorded

variable {s s' : Platform} {e : Event}

theorem Recorded.next (hs : Recorded s) (he : serviceOnly e = true) (h : s.next e = some s') :
    Recorded s' := by
  cases e with
  | service op =>
    simp only [Platform.next] at h
    split at h
    · cases h
    · rename_i ledger hp
      cases h
      refine ⟨hs.wellFormed.perform hp, hs.clients.perform hp, ?_, hs.reporting⟩
      exact (LedgerOp.perform_eq_ok hp).checkpoints.trans hs.checkpoints
  | queue runs =>
    cases h
    exact ⟨hs.wellFormed, hs.clients, hs.checkpoints, hs.reporting⟩
  | _ => cases he

theorem Recorded.run {runs : Table Queue.PipelineRun.id}
    (h : machine.Run (fun _ e => serviceOnly e = true) (start .empty runs none) s) : Recorded s :=
  h.invariant Recorded ⟨wellFormed_empty, clientsExist_empty, rfl, rfl⟩
    fun _ _ _ hs he hn => hs.next he hn

theorem dimensions_eq_nil_iff {db : Ledger} : dimensions db = [] ↔ db.skus.rows = [] := by
  simp [dimensions, distinct]

/-- Without rollups of earlier runs, what a run needs is a matter of the ledger. -/
theorem activatable_nil_iff {db : Ledger} {window : RollupWindow} (hdims : dimensions db ≠ []) :
    Activatable db [] window ↔ Reportable db window := by
  have hsku : db.skus.rows ≠ [] := fun h => hdims (dimensions_eq_nil_iff.2 h)
  have hfirst : firstCompared [] window.sourceCutoffAt window.start = window.start := rfl
  -- a whole week of the window is a week of the ledger
  have hwhole {w : ℕ} (hs : window.start ≤ w) (m : Metric) (d : Dimension) :
      hourlyTotal (onTime window.sourceCutoffAt []) m w (min window.start (w + week)) d +
          sourceTotal db m (max w (min window.start (w + week))) (w + week) d =
        sourceTotal db m w (w + week) d := by
    have hnil : hourlyTotal (onTime window.sourceCutoffAt []) m w
        (min window.start (w + week)) d = 0 := rfl
    rw [hnil, zero_add, max_eq_left ((min_le_left _ _).trans hs)]
  constructor
  · rintro ⟨-, hden, hholds⟩
    rw [hfirst] at hden hholds
    refine ⟨hsku, hden, fun w d hweek hs he => ?_⟩
    have hrow := hholds w d hweek hs he
    simp only [hwhole hs] at hrow
    exact (weeklyRow_isSome_iff.1 hrow).1
  · rintro ⟨-, hden, hfits⟩
    constructor
    · intro w d m hweek
      rw [hfirst]
      have hempty : min window.start (w + week) ≤ max window.start w :=
        (min_le_left _ _).trans (le_max_left _ _)
      exact (spanTotal_of_le hempty).symm
    · rw [hfirst]
      exact hden
    · intro w d hweek hs he
      rw [hfirst] at hs
      simp only [hwhole hs]
      rw [weeklyRow_isSome_iff]
      have hle := hden w d hweek
      rw [max_eq_right hs, min_eq_right he] at hle
      exact ⟨hfits w d hweek hs he, .inr hle, hweek⟩

/-- **Which ledgers of the service can be reported.**  Whatever the service has recorded, a
default run over the whole history activates if and only if there are SKUs, no weekly cell has
more discrepancies than dispatches, and the totals of every whole week fit their columns. -/
theorem legitimate_ledger_reported_iff {runs : Table Queue.PipelineRun.id}
    {claim : Queue.RunClaim} {clock : Queue.Stage → Clock} {window : RollupWindow}
    (h : machine.Run (fun _ e => serviceOnly e = true) (start .empty runs none) s)
    (ho : claim.Owned s.db.runs) (hd : claim.requestedWeekStart = none)
    (hc : captureRollupWindow s.db claim (clock .extract).instant = .ok window) :
    (∃ metrics, (directSqlExecutor s.db claim clock true).1 = .ok metrics) ↔
      Reportable s.db.ledger window := by
  have hs := Recorded.run h
  have hrows : s.db.reporting.hourly.rows = [] := by rw [hs.reporting]; rfl
  have hpruned : prunedThrough s.db.ledger = none := by rw [prunedThrough, hs.checkpoints]; rfl
  rw [default_run_activates_iff ho hs.wellFormed hs.clients (by simp [hrows])
    (fun _ => by rw [hs.reporting]; rfl) hpruned hd hc, hrows]
  constructor
  · rintro ⟨hdims, hact⟩
    exact (activatable_nil_iff hdims).1 hact
  · intro hrep
    have hdims : dimensions s.db.ledger ≠ [] := fun h => hrep.sku (dimensions_eq_nil_iff.1 h)
    exact ⟨hdims, (activatable_nil_iff hdims).2 hrep⟩

end Recorded

/-! ### A discrepancy detected after midnight -/

/-- A client with one SKU receives nine units on Sunday evening and has two dispatched. -/
def sundayDispatch : List Event :=
  [.service (.createClient "Acme" "admin" 7),
    .service (.createSku ⟨"Lamp", "LAMP-1", 7, .electronics, .LA, 0⟩ 1),
    .service (.recordInbound ⟨1, 9, "PO-1", .LA, nine_units_pos⟩ "u-1"
      (newYearClock (week - 2 * hour)) 1),
    .service (.recordOutbound ⟨1, 2, .dispatch, some "T-1", .LA, Nat.two_pos, dispatch_tracked _⟩
      "u-1" (newYearClock (week - hour)) 1 1)]

/-- A discrepancy of the dispatch, detected at `now`, and a claimed run. -/
def discrepancyAt (now : Clock) : List Event :=
  [.service (.recordDiscrepancy ⟨1, -1, one_unit_less_ne⟩ (some "u-1") .manual now 1),
    .queue (claimed (runFor 1 none))]

/-- The discrepancy is detected ten minutes after midnight: the new week has a discrepancy and no
dispatch, and the run is refused. -/
theorem midnight_discrepancy_blocks_reporting :
    ∃ s claim clock, machine.Run (fun _ e => serviceOnly e = true) (start .empty .empty none) s ∧
      claim.Owned s.db.runs ∧ claim.requestedWeekStart = none ∧
      (∃ window, captureRollupWindow s.db claim (clock .extract).instant = .ok window) ∧
      ¬ ∃ metrics, (directSqlExecutor s.db claim clock true).1 = .ok metrics := by
  let clock : Queue.Stage → Clock := fun _ => newYearClock (week + 2 * hour)
  let refused (s : Platform) : Bool :=
    decide ((runFor 1 none).Owned s.db.runs) &&
      (captureRollupWindow s.db (runFor 1 none) (clock .extract).instant).toOption.isSome &&
      (directSqlExecutor s.db (runFor 1 none) clock true).1.toOption.isNone
  obtain ⟨s, hs, hp⟩ := machine.exists_run (fun _ e => serviceOnly e) (start .empty .empty none)
    (sundayDispatch ++ discrepancyAt (newYearClock (week + 600 * second))) refused
    (by decide +kernel)
  simp only [refused, Bool.and_eq_true, decide_eq_true_eq] at hp
  obtain ⟨⟨ho, hc⟩, hno⟩ := hp
  refine ⟨s, runFor 1 none, clock, hs, ho, rfl, ?_, fun ⟨metrics, hm⟩ => ?_⟩
  · obtain ⟨window, hw⟩ := Option.isSome_iff_exists.1 hc
    exact ⟨window, Ledger.toOption_eq_some_iff.1 hw⟩
  · rw [hm] at hno
    cases hno

/-- The discrepancy is detected before midnight. -/
theorem legitimate_ledger_reported_same_week :
    ∃ s claim clock window,
      machine.Run (fun _ e => serviceOnly e = true) (start .empty .empty none) s ∧
      claim.Owned s.db.runs ∧ claim.requestedWeekStart = none ∧
      captureRollupWindow s.db claim (clock .extract).instant = .ok window ∧
      s.db.ledger.inventoryDiscrepancies.length = 1 ∧
      ((∃ metrics, (directSqlExecutor s.db claim clock true).1 = .ok metrics) ↔
        Reportable s.db.ledger window) := by
  let clock : Queue.Stage → Clock := fun _ => newYearClock (week + 2 * hour)
  let ready (s : Platform) : Bool :=
    decide ((runFor 1 none).Owned s.db.runs) &&
      (captureRollupWindow s.db (runFor 1 none) (clock .extract).instant).toOption.isSome &&
      decide (s.db.ledger.inventoryDiscrepancies.length = 1)
  obtain ⟨s, hs, hp⟩ := machine.exists_run (fun _ e => serviceOnly e) (start .empty .empty none)
    (sundayDispatch ++ discrepancyAt (newYearClock (week - 600 * second))) ready
    (by decide +kernel)
  simp only [ready, Bool.and_eq_true, decide_eq_true_eq] at hp
  obtain ⟨⟨ho, hc⟩, hlen⟩ := hp
  obtain ⟨window, hw⟩ := Option.isSome_iff_exists.1 hc
  have hcapture := Ledger.toOption_eq_some_iff.1 hw
  exact ⟨s, runFor 1 none, clock, window, hs, ho, rfl, hcapture, hlen,
    legitimate_ledger_reported_iff hs ho rfl hcapture⟩

end Platform

end Pipeline

end TrackFlow
