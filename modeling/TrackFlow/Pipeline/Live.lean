import TrackFlow.Pipeline.History
import TrackFlow.Pipeline.Resets
import TrackFlow.Reporting.LiveWeek

/-!
# The live week after a run

What readers see of the week in progress after an activation, in any sequence of runs
(`live_week_iff_covered`): a run for an old week advances `active_cutoff_at` to its own cutoff
and leaves the hours of the week in progress as they are, so the view misses what was recorded
since (`live_week_misses_receipt`).
-/

namespace TrackFlow

namespace Pipeline

open Reporting

namespace Platform

section Live

variable {s s' : Platform} {claim : Queue.RunClaim} {window : RollupWindow} {source : Ledger}
  {now : Clock} {faults : Faults}

/-- A load after the cutover that goes through is an activation. -/
theorem activate_of_load (hf : s.flight = some ⟨claim, window, some source⟩)
    (h : s.next (.load now true faults) = some s') (hl : s'.loaded ≠ s.loaded) :
    ∃ db res, db.ledger = s.db.ledger ∧ db.reporting = s.db.reporting ∧
      activateReconciledRollups db claim window (some (computeHourlyRollups source window))
        now.instant rollupPipelineVersion faults = (.ok res, s'.db) := by
  obtain ⟨claim', window', source', db, hf', hled, hrep, -, hload⟩ := load_eq_some h
  cases hf.symm.trans hf'
  rcases hload with ⟨hs, -⟩ | ⟨⟨metrics, hm⟩, -⟩
  · rw [hs] at hl
    exact absurd rfl hl
  · obtain ⟨h₁, h₂⟩ := Prod.mk.inj hm
    obtain ⟨res, hres, -⟩ := map_eq_ok_iff.1 h₁
    exact ⟨db, res, hled, hrep, Prod.ext hres h₂⟩

/-- The clients of all rollups exist. -/
theorem Sane.clientExists (hs : Sane s) {r : HourlyActivityRollup}
    (hr : r ∈ s.db.reporting.hourly.rows) : clientExists s.db.ledger r.clientId = true := by
  obtain ⟨sku, hsku, hd⟩ := mem_distinct.1 (hs.rollups r hr)
  obtain ⟨c, hc, hid⟩ := hs.clients sku hsku
  have hclient : sku.clientId = r.clientId := congrArg Prod.snd hd
  exact List.any_eq_true.2 ⟨c, hc, by simp [hid, hclient]⟩

theorem liveWeekCovered_congr {db db' : Database} {rows : Option (List HourlyRollupRow)}
    {pipelineVersion : String} (hl : db'.ledger = db.ledger) (hr : db'.reporting = db.reporting) :
    LiveWeekCovered db' window rows pipelineVersion ↔
      LiveWeekCovered db window rows pipelineVersion := by
  unfold LiveWeekCovered
  rw [hl, hr]

/-- **The live week.**  In every reachable state, after a load that goes through and activates:
the entries of the active week are the aggregates of the ledger if and only if, outside the
reconciled hours of that week, the rollups that the view reads account for the ledger. -/
theorem live_week_iff_covered {ledger : Ledger} {runs : Table Queue.PipelineRun.id}
    {lastResetAt : Option ℕ} (hwf : WellFormed ledger) (hc : ClientsExist ledger)
    (hr : machine.Reachable (start ledger runs lastResetAt) s)
    (hf : s.flight = some ⟨claim, window, some source⟩)
    (h : s.next (.load now true faults) = some s') (hl : s'.loaded ≠ s.loaded) :
    LiveWeekMatches s'.db ↔ LiveWeekCovered s.db window
      (some (computeHourlyRollups source window)) rollupPipelineVersion := by
  have hs' : Sane s' := ((Sane.start hwf hc runs lastResetAt).run hr).next h
  obtain ⟨db, res, hled, hrep, hact⟩ := activate_of_load hf h hl
  rw [← liveWeekCovered_congr hled hrep]
  exact live_week_iff hact fun r hm => hs'.clientExists hm

end Live

/-! ### A run for an old week -/

/-- The state before the load of a run for the first week, on Monday of the second week at noon,
with a receipt of three units two hours before. -/
def oldWeekRun : List Event :=
  receiveThree (newYearClock (week + 10 * hour)) ::
    beforeLoad (runFor 1 (some newYear)) (newYearClock (week + 12 * hour))

/-- The run moves the active cutoff to Monday noon, and the view of the second week is empty. -/
theorem live_week_misses_receipt :
    ∃ s s' claim window source now, machine.Reachable (start oneReceipt .empty none) s ∧
      s.flight = some ⟨claim, window, some source⟩ ∧ s.next (loadAt now) = some s' ∧
      s'.loaded ≠ s.loaded ∧ ¬ LiveWeekMatches s'.db := by
  let noon := newYear + week + 12 * hour
  let now := newYearClock (week + 12 * hour)
  let missing (_ : Queue.RunClaim) (s s' : Platform) : Bool :=
    decide (s.loaded.length = 0 ∧ s'.loaded.length = 1) &&
      decide (s'.db.reporting.rollupState.1.activeCutoffAt = some noon) &&
      (currentWeekEntries s'.db (weekFloor noon) noon).isEmpty &&
      decide (sourceTotal s'.db.ledger .inboundUnits (weekFloor noon) noon (.LA, 1) = 3)
  obtain ⟨s, s', claim, window, source, hs, hf, hn, hp⟩ := exists_load
    (start oneReceipt .empty none) oldWeekRun now missing (by decide +kernel)
  simp only [missing, Bool.and_eq_true, decide_eq_true_eq, List.isEmpty_iff] at hp
  obtain ⟨⟨⟨⟨h₀, h₁⟩, hcut⟩, hnone⟩, hthree⟩ := hp
  refine ⟨s, s', claim, window, source, now, hs, hf, hn, fun he => ?_, fun h => ?_⟩
  · rw [he] at h₁
    omega
  · obtain ⟨-, hzero⟩ := h noon hcut
    have hnil : ∀ e ∈ currentWeekEntries s'.db (weekFloor noon) noon,
        (e.warehouse, e.clientId) ≠ (reportWarehouse .LA, (1 : UUID)) := by simp [hnone]
    have hz := hzero (.LA, 1) hnil .inboundUnits (by simp [publishedMetrics])
    exact absurd (hthree.symm.trans hz) (by decide)

/-- The first default run. -/
theorem live_week_iff_covered_first_run :
    ∃ s s' claim window source, machine.Reachable (start oneReceipt .empty none) s ∧
      s.flight = some ⟨claim, window, some source⟩ ∧
      s.next (loadAt (newYearClock (12 * hour))) = some s' ∧ s'.loaded ≠ s.loaded ∧
      (LiveWeekMatches s'.db ↔ LiveWeekCovered s.db window
        (some (computeHourlyRollups source window)) rollupPipelineVersion) := by
  let now := newYearClock (12 * hour)
  obtain ⟨s, s', claim, window, source, hs, hf, hn, hp⟩ := exists_load
    (start oneReceipt .empty none) (beforeLoad (runFor 1 none) now) now
    (fun _ s s' => decide (s.loaded.length = 0 ∧ s'.loaded.length = 1)) (by decide +kernel)
  obtain ⟨h₀, h₁⟩ := of_decide_eq_true hp
  have hne : s'.loaded ≠ s.loaded := fun he => by
    rw [he] at h₁
    omega
  exact ⟨s, s', claim, window, source, hs, hf, hn, hne,
    live_week_iff_covered wellFormed_oneReceipt clientsExist_oneReceipt hs hf hn hne⟩

end Platform

end Pipeline

end TrackFlow
