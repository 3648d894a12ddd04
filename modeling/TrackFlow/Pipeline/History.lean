import TrackFlow.Pipeline.Coverage

/-!
# Rollups of pruned hours

A run for an old week recomputes every hour of the week from the rows that the ledger still has,
and upserts the result, also where a prune has deleted them.  The reconciliation starts above the
prune watermark, so it does not see the difference.  `recompute_keeps_history_iff` says exactly
when the rollups of deleted movements survive, and `recompute_erases_pruned_week` that a run for
a pruned week zeroes them.
-/

namespace TrackFlow

namespace Pipeline

open Reporting

namespace Platform

/-- A source row in the hour and dimension of a rollup lies below the prune watermark and was
deleted. -/
def SourceDeleted (s : Platform) (r : HourlyActivityRollup) : Prop :=
  ∃ v ∈ s.deleted, v.dim = r.dim ∧ floorHour v.time = r.bucketStart ∧
    ∃ pruned, prunedThrough s.db.ledger = some pruned ∧ v.time < pruned

/-- The rollups of deleted source rows have the counts they had. -/
def KeepsHistory (s s' : Platform) : Prop :=
  ∀ r ∈ s.db.reporting.hourly.rows, s.SourceDeleted r →
    ∃ r' ∈ s'.db.reporting.hourly.rows, r'.key = r.key ∧ ∀ m, r'.counts m = r.counts m

/-- In the hours of the window, what the ledger still has adds up to the rollups of deleted source
rows. -/
def HistoryInLedger (s : Platform) (window : RollupWindow) (source : Ledger) : Prop :=
  ∀ r ∈ s.db.reporting.hourly.rows, s.SourceDeleted r →
    window.start ≤ r.bucketStart → r.bucketStart < window.endAt →
    ∀ m, r.counts m = sourceTotal source m r.bucketStart (r.bucketStart + hour) r.dim

section History

variable {s s' : Platform} {claim : Queue.RunClaim} {window : RollupWindow} {source : Ledger}
  {now : Clock} {cutover : Bool} {faults : Faults}

/-- A load that goes through overlays the rollups with the rows of the run. -/
theorem overlaid_of_load (hs : Sane s) (hf : s.flight = some ⟨claim, window, some source⟩)
    (h : s.next (.load now cutover faults) = some s')
    (hl : s'.loaded = ⟨window, source⟩ :: s.loaded) :
    Overlaid source window rollupPipelineVersion s.db.reporting.hourly s'.db.reporting.hourly := by
  have hw := hs.window _ hf
  cases (step_of_next h).2.1 with
  | same hr hl' _ => simp [hl'] at hl
  | reset boundary he _ _ => cases he
  | load _ _ _ _ claim' window' source' db hf' hled hrep hload hl' _ _ =>
    cases hf.symm.trans hf'
    rw [← hrep]
    exact Overlaid.of_candidate hw.start_dvd hw.endAt_dvd (hload hw.cutoff_dvd).hourly

/-- A load that does not go through keeps all rollups. -/
theorem hourly_of_refused (h : s.next (.load now cutover faults) = some s')
    (hl : s'.loaded = s.loaded) : s'.db.reporting.hourly = s.db.reporting.hourly := by
  cases (step_of_next h).2.1 with
  | same hr _ _ => rw [hr]
  | reset boundary he _ _ => cases he
  | load _ _ _ _ _ _ _ _ _ _ _ _ hl' _ _ =>
    rw [hl'] at hl
    simp at hl

theorem loaded_of_load (hf : s.flight = some ⟨claim, window, some source⟩)
    (h : s.next (.load now cutover faults) = some s') :
    s'.loaded = s.loaded ∨ s'.loaded = ⟨window, source⟩ :: s.loaded := by
  cases (step_of_next h).2.1 with
  | same _ hl _ => exact .inl hl
  | reset _ _ _ hl => exact .inl hl
  | load _ _ _ _ _ _ _ _ hf' _ _ _ hl _ _ =>
    cases hf.symm.trans hf'
    exact .inr hl

/-- **When recomputing a week keeps pruned history.**  In every reachable state, the load of a run
for one week leaves the rollups of deleted source rows as they are if and only if it is refused,
or in the hours of its window the ledger that the run has read still adds up to them. -/
theorem recompute_keeps_history_iff {ledger : Ledger} {runs : Table Queue.PipelineRun.id}
    {lastResetAt : Option ℕ} (hwf : WellFormed ledger) (hc : ClientsExist ledger)
    (hr : machine.Reachable (start ledger runs lastResetAt) s)
    (hf : s.flight = some ⟨claim, window, some source⟩)
    (h : s.next (.load now cutover faults) = some s') :
    KeepsHistory s s' ↔ (s'.loaded = s.loaded ∨ s.HistoryInLedger window source) := by
  have hs : Sane s := (Sane.start hwf hc runs lastResetAt).run hr
  rcases loaded_of_load hf h with hl | hl
  · have hkeep : KeepsHistory s s' := fun r hm _ =>
      ⟨r, hourly_of_refused h hl ▸ hm, rfl, fun _ => rfl⟩
    exact ⟨fun _ => .inl hl, fun _ => hkeep⟩
  have hov := overlaid_of_load hs hf h hl
  have hnew : s'.loaded ≠ s.loaded := by simp [hl]
  rw [or_iff_right hnew]
  refine forall₃_congr fun r hm _ => ?_
  have hdim : r.dim ∈ dimensions source := (hs.source _ source hf rfl).2.2 r hm
  by_cases hin : window.start ≤ r.bucketStart ∧ r.bucketStart < window.endAt
  · -- the row is overwritten by what the ledger has
    obtain ⟨r', hm', hb, hd⟩ := hov.complete _ _ r.bucket_hour hin.1 hin.2 hdim
    have hcounts := (hov.inside r' hm' ⟨hb ▸ hin.1, hb ▸ hin.2, hd ▸ hdim⟩).1
    rw [hb, hd] at hcounts
    constructor
    · rintro ⟨r'', hm'', hk, hsame⟩ _ _ m
      obtain rfl : r'' = r' :=
        s'.db.reporting.hourly.eq_of_key_eq hm'' hm' (hk.trans (Prod.ext hb hd).symm)
      rw [← hsame m, hcounts m]
    · intro hsame
      refine ⟨r', hm', Prod.ext hb hd, fun m => ?_⟩
      rw [hcounts m, hsame hin.1 hin.2 m]
  · have hout : ¬ InGrid source window r := fun hg => hin ⟨hg.1, hg.2.1⟩
    constructor
    · exact fun _ h₁ h₂ => absurd ⟨h₁, h₂⟩ hin
    · exact fun _ => ⟨r, (hov.outside r hout).2 hm, rfl, fun _ => rfl⟩

end History

/-! ### A run for a pruned week -/

/-- One receipt on Monday at 10:30 is rolled up at noon, a later week is rolled up, and a prune of
30 days deletes the receipt. -/
def prunedReceipt : List Event :=
  runAt (runFor 1 none) (newYearClock (12 * hour)) ++
    runAt (runFor 2 (some (newYear + 5 * week))) (newYearClock (5 * week + hour)) ++
    .pruneStart (newYearClock (5 * week + hour)) 30 :: List.replicate 6 (.pruneBatch 9)

/-- A run that is about to load. -/
def beforeLoad (claim : Queue.RunClaim) (now : Clock) : List Event :=
  [.queue (claimed claim), .extract claim now, .transform now]

/-- The load of an undisturbed run. -/
def loadAt (now : Clock) : Event := .load now true fun _ => none

/-- A run is about to load, and its claim and the states around the load pass the check `p`. -/
def loadPasses (now : Clock) (p : Queue.RunClaim → Platform → Platform → Bool) (s : Platform) :
    Bool :=
  s.flight.any fun f => f.source.isSome && (s.next (loadAt now)).any (p f.claim s)

theorem exists_load (s₀ : Platform) (es : List Event) (now : Clock)
    (p : Queue.RunClaim → Platform → Platform → Bool)
    (h : (machine.run s₀ es).any (loadPasses now p) = true) :
    ∃ s s' claim window source, machine.Reachable s₀ s ∧
      s.flight = some ⟨claim, window, some source⟩ ∧ s.next (loadAt now) = some s' ∧
      p claim s s' = true := by
  obtain ⟨s, hs, hp⟩ := machine.exists_reachable s₀ es _ h
  obtain ⟨⟨claim, window, source⟩, hf, hp⟩ := (Option.any_eq_true _ _).1 hp
  obtain ⟨hsource, hp⟩ := Bool.and_eq_true_iff.1 hp
  obtain ⟨source, rfl⟩ := Option.isSome_iff_exists.1 hsource
  obtain ⟨s', hn, hp⟩ := (Option.any_eq_true _ _).1 hp
  exact ⟨s, s', claim, window, source, hs, hf, hn, hp⟩

/-- A rollup of five received units whose receipt was deleted. -/
def deletedFive (s : Platform) (r : HourlyActivityRollup) : Bool :=
  decide (r.counts .inboundUnits = 5) && s.deleted.any fun v =>
    decide (v.dim = r.dim) && decide (floorHour v.time = r.bucketStart) &&
      (prunedThrough s.db.ledger).any fun pruned => decide (v.time < pruned)

theorem sourceDeleted_of_five {s : Platform} {r : HourlyActivityRollup}
    (h : s.deletedFive r = true) : r.counts .inboundUnits = 5 ∧ s.SourceDeleted r := by
  simp only [deletedFive, Bool.and_eq_true, decide_eq_true_eq, List.any_eq_true,
    Option.any_eq_true] at h
  obtain ⟨hc, v, hv, ⟨hd, hb⟩, pruned, hp, hlt⟩ := h
  exact ⟨hc, v, hv, hd, hb, pruned, hp, hlt⟩

/-- A run for the first week is accepted, goes through, and zeroes the rollup of the receipt. -/
theorem recompute_erases_pruned_week :
    ∃ s s' claim window source w now, machine.Reachable (start oneReceipt .empty none) s ∧
      s.flight = some ⟨claim, window, some source⟩ ∧ claim.requestedWeekStart = some w ∧
      Queue.validateRequestedWeek w s.db.reporting.lastResetAt = .ok w ∧
      s.next (loadAt now) = some s' ∧ ¬ KeepsHistory s s' := by
  let now := newYearClock (5 * week + 2 * hour)
  let erased (claim : Queue.RunClaim) (s s' : Platform) : Bool :=
    decide (claim.requestedWeekStart = some newYear) &&
      decide (s.db.reporting.lastResetAt = none) &&
      s.db.reporting.hourly.rows.any fun r => s.deletedFive r &&
        s'.db.reporting.hourly.rows.all fun r' => !decide (r'.key = r.key) ||
          decide (r'.counts .inboundUnits = 0)
  obtain ⟨s, s', claim, window, source, hs, hf, hn, hp⟩ := exists_load
    (start oneReceipt .empty none)
    (prunedReceipt ++ beforeLoad (runFor 3 (some newYear)) now) now erased (by decide +kernel)
  simp only [erased, Bool.and_eq_true, decide_eq_true_eq, List.any_eq_true,
    List.all_eq_true] at hp
  obtain ⟨⟨hw, hreset⟩, r, hr, hfive, hzero⟩ := hp
  refine ⟨s, s', claim, window, source, newYear, now, hs, hf, hw, ?_, hn, fun hkeep => ?_⟩
  · rw [hreset]
    exact Queue.validateRequestedWeek_eq_ok_iff.2 ⟨rfl, by decide, by simp⟩
  · obtain ⟨hc, hdel⟩ := sourceDeleted_of_five hfive
    obtain ⟨r', hr', hk, hcounts⟩ := hkeep r hr hdel
    have hz := hzero r' hr'
    simp [hk, hcounts, hc] at hz

theorem wellFormed_oneReceipt : WellFormed oneReceipt := by
  constructor <;> decide

theorem clientsExist_oneReceipt : ClientsExist oneReceipt := by
  unfold ClientsExist
  decide

/-- A run for the later week leaves the rollup of the receipt alone. -/
theorem recompute_keeps_history_later_week :
    ∃ s s' claim window source, machine.Reachable (start oneReceipt .empty none) s ∧
      s.flight = some ⟨claim, window, some source⟩ ∧
      s.next (loadAt (newYearClock (5 * week + 2 * hour))) = some s' ∧
      (s.deleted.length = 1 ∧ s'.loaded.length = 3) ∧
      (KeepsHistory s s' ↔ (s'.loaded = s.loaded ∨ s.HistoryInLedger window source)) := by
  let now := newYearClock (5 * week + 2 * hour)
  obtain ⟨s, s', claim, window, source, hs, hf, hn, hp⟩ := exists_load
    (start oneReceipt .empty none)
    (prunedReceipt ++ beforeLoad (runFor 3 (some (newYear + 5 * week))) now) now
    (fun _ s s' => decide (s.deleted.length = 1 ∧ s'.loaded.length = 3)) (by decide +kernel)
  exact ⟨s, s', claim, window, source, hs, hf, hn, of_decide_eq_true hp,
    recompute_keeps_history_iff wellFormed_oneReceipt clientsExist_oneReceipt hs hf hn⟩

end Platform

end Pipeline

end TrackFlow
