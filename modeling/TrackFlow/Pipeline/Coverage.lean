import TrackFlow.Pipeline.Platform
import TrackFlow.Reporting.Soundness

/-!
# The hours that runs cover

The window of a default run starts from `last_cutoff_at`, which every run advances to its own
cutoff: also a run for one week, whose window ends with that week.  So the hours before the
cutoff are covered as long as every run that advances the cutoff has a window that reaches from
the old cutoff to the new one (`no_hour_skipped`), and a run for a later week alone leaves a
hole that no default run comes back to (`week_run_skips_hours`).

The invariant is `Covered`: below the last cutoff, every hour at or after the start of some
window was rolled up.
-/

namespace TrackFlow

namespace Pipeline

open Reporting

namespace Platform

/-- Some run has computed the hour that starts at `b`, and its rows are stored. -/
def RolledHour (s : Platform) (b : ℕ) : Prop :=
  ∃ l ∈ s.loaded, l.window.start ≤ b ∧ b < l.window.endAt ∧
    ∀ d ∈ dimensions l.source, ∃ r ∈ s.db.reporting.hourly.rows, r.bucketStart = b ∧ r.dim = d

/-- The first rolled hour. -/
def firstHour (s : Platform) : Option ℕ := (s.loaded.map (·.window.start)).min?

/-- The hour of the last reset. -/
def resetHour (s : Platform) : ℕ := (s.db.reporting.lastResetAt.map floorHour).getD 0

/-- Every hour from the first rolled hour to the last cutoff was rolled up, and the window of the
next default run starts at or before the first hour that was not. -/
structure NoHourSkipped (s : Platform) : Prop where
  covered : ∀ first last b, s.firstHour = some first → s.lastCutoff = some last →
    hour ∣ b → first ≤ b → b + hour ≤ last → s.RolledHour b
  next_default : ∀ claim now window first b, claim.requestedWeekStart = none →
    captureRollupWindow s.db claim now = .ok window → s.firstHour = some first →
    hour ∣ b → first ≤ b → ¬ s.RolledHour b → window.start ≤ b

/-- A run in flight whose window reaches the first rolled hour and, when it is a run for one week
that advances the last cutoff, covers all hours between the two cutoffs. -/
def Flight.contiguous (f : Flight) (first last : Option ℕ) : Bool :=
  first.all (fun b => decide (b ≤ f.window.endAt)) &&
    (f.claim.requestedWeekStart.isNone ||
      match last with
      | none => decide (f.window.sourceCutoffAt ≤ f.window.endAt)
      | some l => decide (f.window.sourceCutoffAt ≤ l) ||
          (decide (f.window.start ≤ l) && decide (f.window.sourceCutoffAt ≤ f.window.endAt)))

/-- Runs are loaded when they are contiguous, and the ledger is not reset. -/
def contiguous (s : Platform) : Event → Bool
  | .load _ _ _ => s.flight.all fun f => Flight.contiguous f s.firstHour s.lastCutoff
  | .resetTruncate => false
  | _ => true

/-- The invariant of contiguous runs. -/
structure Covered (s : Platform) : Prop where
  nonempty : ∀ last, s.lastCutoff = some last → s.loaded ≠ []
  none_loaded : s.lastCutoff = none → s.loaded = []
  aligned : ∀ last, s.lastCutoff = some last → hour ∣ last ∧ s.resetHour ≤ last
  /-- Below the last cutoff, the hours after the start of some window are rolled. -/
  rolled : ∀ last l b, s.lastCutoff = some last → l ∈ s.loaded → hour ∣ b → l.window.start ≤ b →
    b < last → s.RolledHour b
  flight : ∀ f, s.flight = some f → WholeHours f.window ∧ s.resetHour ≤ f.window.start ∧
    (f.claim.requestedWeekStart = none → f.window.endAt = f.window.sourceCutoffAt ∧
      ∀ last, s.lastCutoff = some last → f.window.start ≤ last)

section Coverage

variable {s s' : Platform} {e : Event} {first : ℕ}

theorem firstHour_eq_some (h : s.firstHour = some first) :
    (∃ l ∈ s.loaded, l.window.start = first) ∧ ∀ l ∈ s.loaded, first ≤ l.window.start := by
  obtain ⟨hmem, hle⟩ := List.min?_eq_some_iff.1 h
  refine ⟨List.mem_map.1 hmem, fun l hl => ?_⟩
  exact hle _ (List.mem_map_of_mem hl)

theorem exists_firstHour (h : s.loaded ≠ []) : ∃ first, s.firstHour = some first := by
  cases hf : s.firstHour with
  | none => exact absurd (List.map_eq_nil_iff.1 (List.min?_eq_none_iff.1 hf)) h
  | some first => exact ⟨first, rfl⟩

/-- What an overlay keeps: an hour with rows for some dimensions still has them. -/
theorem exists_row_of_overlaid {source : Ledger} {window : RollupWindow} {version : String}
    {hourly hourly' : Table HourlyActivityRollup.key} {b : ℕ} {d : Dimension}
    (hov : Overlaid source window version hourly hourly')
    (h : ∃ r ∈ hourly.rows, r.bucketStart = b ∧ r.dim = d) :
    ∃ r ∈ hourly'.rows, r.bucketStart = b ∧ r.dim = d := by
  obtain ⟨r, hr, rfl, rfl⟩ := h
  by_cases hin : InGrid source window r
  · exact hov.complete _ _ r.bucket_hour hin.1 hin.2.1 hin.2.2
  · exact ⟨r, (hov.outside r hin).2 hr, rfl, rfl⟩

/-- Without a reset, a step either loads a window or leaves what is rolled up as it is. -/
theorem covered_of_same (hs : Covered s) (hr : s'.db.reporting = s.db.reporting)
    (hl : s'.loaded = s.loaded) (hf : FlightStep s s') : Covered s' := by
  have hlast : s'.lastCutoff = s.lastCutoff := by rw [lastCutoff, hr, lastCutoff]
  have hreset : s'.resetHour = s.resetHour := by rw [resetHour, hr, resetHour]
  have hrolled (b : ℕ) : s'.RolledHour b ↔ s.RolledHour b := by rw [RolledHour, hr, hl, RolledHour]
  refine ⟨?_, ?_, ?_, ?_, ?_⟩
  · intro last h
    rw [hl]
    exact hs.nonempty last (hlast ▸ h)
  · intro h
    rw [hl]
    exact hs.none_loaded (hlast ▸ h)
  · intro last h
    rw [hreset]
    exact hs.aligned last (hlast ▸ h)
  · intro last l b h hm hb hle hlt
    rw [hrolled]
    exact hs.rolled last l b (hlast ▸ h) (hl ▸ hm) hb hle hlt
  · intro f hf'
    rw [hreset]
    simp only [hlast]
    cases hf with
    | same h => exact hs.flight f (h ▸ hf')
    | none h => simp [h] at hf'
    | extract claim now window hw hc h =>
      obtain rfl : f = _ := Option.some.inj (hf'.symm.trans h)
      refine ⟨wholeHours_of_day hw hc, reset_le_start hc, fun hd => ⟨endAt_of_default hc hd, ?_⟩⟩
      intro last hla
      rw [start_of_default hc hd hla]
      exact max_le ((min_le_left _ _).trans (floorTo_le _ _)) (hs.aligned last hla).2
    | transform claim window hfl h =>
      obtain rfl : f = _ := Option.some.inj (hf'.symm.trans h)
      have hflight := hs.flight _ hfl
      exact hflight

/-- **A contiguous load covers all hours up to its cutoff.** -/
theorem covered_of_load (hs : Covered s) {claim : Queue.RunClaim} {window : RollupWindow}
    {source : Ledger} {db : Database} (hf : s.flight = some ⟨claim, window, some source⟩)
    (hrep : db.reporting = s.db.reporting)
    (hload : Loaded db s'.db claim window (computeHourlyRollups source window))
    (hl : s'.loaded = ⟨window, source⟩ :: s.loaded) (hnone : s'.flight = none)
    (hg : Flight.contiguous ⟨claim, window, some source⟩ s.firstHour s.lastCutoff = true) :
    Covered s' := by
  obtain ⟨hw, hreset, hdefault⟩ := hs.flight _ hf
  simp only at hw hreset hdefault
  have hov := Overlaid.of_candidate hw.start_dvd hw.endAt_dvd hload.hourly
  rw [hrep] at hov
  have hlast : s'.lastCutoff =
      some (max (s.lastCutoff.getD window.sourceCutoffAt) window.sourceCutoffAt) := by
    rw [lastCutoff, hload.lastCutoffAt, hrep, lastCutoff]
  have hreset' : s'.resetHour = s.resetHour := by
    rw [resetHour, hload.lastResetAt, hrep, resetHour]
  have hold {b : ℕ} (h : s.RolledHour b) : s'.RolledHour b := by
    obtain ⟨l, hm, h₁, h₂, hd⟩ := h
    exact ⟨l, hl ▸ List.mem_cons_of_mem _ hm, h₁, h₂,
      fun d hdm => exists_row_of_overlaid hov (hd d hdm)⟩
  have hnew {b : ℕ} (hb : hour ∣ b) (h₁ : window.start ≤ b) (h₂ : b < window.endAt) :
      s'.RolledHour b :=
    ⟨⟨window, source⟩, hl ▸ List.mem_cons_self, h₁, h₂, fun d hd => hov.complete b d hb h₁ h₂ hd⟩
  -- what contiguity says about the two cutoffs, for either kind of run
  have hreach : ∀ last, s.lastCutoff = some last → last < window.sourceCutoffAt →
      window.start ≤ last ∧ window.sourceCutoffAt ≤ window.endAt := by
    intro last hla hlt
    simp only [Flight.contiguous, hla, Bool.and_eq_true, Bool.or_eq_true, decide_eq_true_eq,
      Option.isNone_iff_eq_none] at hg
    rcases hg.2 with hd | hc | hc
    · obtain ⟨he, hst⟩ := hdefault hd
      exact ⟨hst last hla, he.ge⟩
    · omega
    · exact hc
  have hfirst : ∀ first, s.firstHour = some first → first ≤ window.endAt := by
    intro first hfi
    simp only [Flight.contiguous, hfi, Bool.and_eq_true, Option.all_some, decide_eq_true_eq] at hg
    exact hg.1
  have hend : s.lastCutoff = none → window.sourceCutoffAt ≤ window.endAt := by
    intro hla
    simp only [Flight.contiguous, hla, Bool.and_eq_true, Bool.or_eq_true, decide_eq_true_eq,
      Option.isNone_iff_eq_none] at hg
    rcases hg.2 with hd | hc
    · exact (hdefault hd).1.ge
    · exact hc
  refine ⟨?_, ?_, ?_, ?_, ?_⟩
  · intro last _
    simp [hl]
  · intro h
    simp [hlast] at h
  · intro last h
    rw [hlast, Option.some.injEq] at h
    subst h
    rw [hreset']
    refine ⟨dvd_max ?_ hw.cutoff_dvd, ?_⟩
    · cases hla : s.lastCutoff with
      | none => exact hw.cutoff_dvd
      | some last => exact (hs.aligned last hla).1
    · exact (hreset.trans (hw.start_lt.le.trans hw.endAt_le)).trans (le_max_right _ _)
  · intro last l b h hm hb hle hlt
    rw [hlast, Option.some.injEq] at h
    subst h
    by_cases hin : window.start ≤ b ∧ b < window.endAt
    · exact hnew hb hin.1 hin.2
    -- outside the new window, the hour was rolled up before
    cases hla : s.lastCutoff with
    | none =>
      rw [hla, Option.getD_none, max_self] at hlt
      have hcover := hend hla
      obtain rfl : l = ⟨window, source⟩ := by
        rw [hl, hs.none_loaded hla] at hm
        exact List.mem_singleton.1 hm
      exact absurd ⟨hle, by omega⟩ hin
    | some last =>
      rw [hla, Option.getD_some] at hlt
      have hlt' : b < last := by
        by_contra hge
        obtain ⟨h₁, h₂⟩ := hreach last hla (by omega)
        exact hin ⟨by omega, by omega⟩
      refine hold ?_
      obtain ⟨first, hfi⟩ := exists_firstHour (hs.nonempty last hla)
      obtain ⟨⟨l₀, hl₀, hst⟩, -⟩ := firstHour_eq_some hfi
      have hfe := hfirst first hfi
      rcases lt_or_ge b window.start with hbefore | hafter
      · -- the window of `l` is an old one
        have hmem : l ∈ s.loaded := by
          rw [hl, List.mem_cons] at hm
          rcases hm with rfl | hm
          · exact absurd hle (by simpa using hbefore)
          · exact hm
        exact hs.rolled last l b hla hmem hb hle hlt'
      · exact hs.rolled last l₀ b hla hl₀ hb (by omega) hlt'
  · intro f hf'
    simp [hnone] at hf'

theorem Covered.next (hs : Covered s) (hg : s.contiguous e = true) (h : s.next e = some s') :
    Covered s' := by
  obtain ⟨-, hr, hf⟩ := step_of_next h
  cases hr with
  | same hr hl _ => exact covered_of_same hs hr hl hf
  | load now cutover faults he claim window source db hfl hled hrep hload hl hnone _ =>
    subst he
    simp only [contiguous, hfl, Option.all_some] at hg
    have hcutoff := (hs.flight _ hfl).1.cutoff_dvd
    exact covered_of_load hs hfl hrep (hload hcutoff) hl hnone hg
  | reset boundary he hr hl =>
    subst he
    cases hg

theorem Covered.noHourSkipped (hs : Covered s) : NoHourSkipped s where
  covered first last b hfi hla hb hle hlt := by
    obtain ⟨⟨l, hl, rfl⟩, -⟩ := firstHour_eq_some hfi
    have hlt' : b < last := (Nat.lt_add_of_pos_right (by decide)).trans_le hlt
    exact hs.rolled last l b hla hl hb hle hlt'
  next_default claim now window first b hd hc hfi hb hle hnot := by
    obtain ⟨⟨l, hl, rfl⟩, -⟩ := firstHour_eq_some hfi
    obtain ⟨last, hla⟩ : ∃ last, s.lastCutoff = some last := by
      cases hla : s.lastCutoff with
      | none => simp [hs.none_loaded hla] at hl
      | some last => exact ⟨last, rfl⟩
    -- an hour that was not rolled up lies at or after the last cutoff
    have hlast : last ≤ b := by
      by_contra hlt
      exact hnot (hs.rolled last l b hla hl hb hle (by omega))
    rw [start_of_default hc hd hla]
    refine max_le ?_ ?_
    · exact (min_le_left _ _).trans ((floorTo_le _ _).trans hlast)
    · exact (hs.aligned last hla).2.trans hlast

/-- **No hour is skipped.**  From a ledger that nothing has been rolled up from, and along every
sequence of transactions in which runs are loaded when they are contiguous and the ledger is not
reset: every whole hour from the first rolled hour to the last cutoff was computed and upserted
by some run, and the next default window starts at or before the first hour that was not. -/
theorem no_hour_skipped (ledger : Ledger) (runs : Table Queue.PipelineRun.id)
    (lastResetAt : Option ℕ)
    (h : machine.Run (fun s e => s.contiguous e = true) (start ledger runs lastResetAt) s) :
    NoHourSkipped s := by
  refine Covered.noHourSkipped (h.invariant Covered ?_ fun s e s' hs hg hn => hs.next hg hn)
  constructor <;> simp [start, lastCutoff, Tables.empty]

end Coverage

/-! ### Runs for one week -/

/-- A run for a week, or a default run, and the worker that has claimed it. -/
def runFor (id : UUID) (requestedWeekStart : Option ℕ) : Queue.RunClaim :=
  ⟨id, id, .manual, requestedWeekStart, [], 1⟩

/-- The run that a claim owns. -/
def claimed (claim : Queue.RunClaim) : Table Queue.PipelineRun.id :=
  ⟨[{ Queue.scheduledRun with
      id := claim.runId, triggerType := claim.triggerType, status := .running,
      requestedWeekStart := claim.requestedWeekStart, attempt := 1,
      claimToken := some claim.claimToken }], List.nodup_singleton _⟩

/-- A clock reading in the week of Monday 2024-01-01 or later. -/
def newYearClock (t : ℕ) : Clock :=
  ⟨newYear + t, (show beginningOfTime ≤ newYear by decide).trans (Nat.le_add_right _ _)⟩

/-- A run is claimed, extracted, transformed and loaded at one instant. -/
def runAt (claim : Queue.RunClaim) (now : Clock) : List Event :=
  [.queue (claimed claim), .extract claim now, .transform now, .load now true fun _ => none]

/-- One receipt on Monday at 10:30, rolled up at noon by a default run, and on Tuesday of the next
week at 1:00 by a run for that week. -/
def weekRun : List Event :=
  runAt (runFor 1 none) (newYearClock (12 * hour)) ++
    runAt (runFor 2 (some (newYear + week))) (newYearClock (week + day + hour))

/-- The run for the second week moves the last cutoff over the rest of the first week, and the
window of the next default run starts after Monday noon. -/
theorem week_run_skips_hours :
    ∃ s, machine.Reachable (start oneReceipt .empty none) s ∧ ¬ NoHourSkipped s := by
  let noon := newYear + 12 * hour
  let skipped (s : Platform) : Bool :=
    s.firstHour.any (fun first => decide (first ≤ noon)) &&
      s.loaded.all (fun l => !(decide (l.window.start ≤ noon) && decide (noon < l.window.endAt))) &&
      match captureRollupWindow s.db (runFor 3 none) (newYear + week + day + 2 * hour) with
      | .ok window => decide (noon < window.start)
      | .error _ => false
  obtain ⟨s, hs, hp⟩ := machine.exists_reachable (start oneReceipt .empty none) weekRun skipped
    (by decide +kernel)
  refine ⟨s, hs, fun h => ?_⟩
  simp only [skipped, Bool.and_eq_true] at hp
  obtain ⟨⟨hfirst, hloaded⟩, hwindow⟩ := hp
  obtain ⟨first, hfi, hle⟩ := (Option.any_eq_true _ _).1 hfirst
  have hnot : ¬ s.RolledHour noon := by
    rintro ⟨l, hl, h₁, h₂, -⟩
    have := List.all_eq_true.1 hloaded l hl
    simp [h₁, h₂] at this
  split at hwindow
  · rename_i window hc
    have hstart := h.next_default _ _ _ _ noon rfl hc hfi (by decide) (by simpa using hle) hnot
    exact absurd (of_decide_eq_true hwindow) (not_lt.2 hstart)
  · cases hwindow

/-- A default run at noon, and the next day at 1:00 a run for the same week. -/
def coveringRun : List Event :=
  runAt (runFor 1 none) (newYearClock (12 * hour)) ++
    runAt (runFor 2 (some newYear)) (newYearClock (day + hour))

theorem no_hour_skipped_same_week :
    ∃ s, machine.Run (fun s e => s.contiguous e = true) (start oneReceipt .empty none) s ∧
      (s.loaded.length = 2 ∧ s.firstHour = some newYear ∧
        s.lastCutoff = some (newYear + day + hour)) ∧
      NoHourSkipped s := by
  obtain ⟨s, hs, hp⟩ := machine.exists_run contiguous (start oneReceipt .empty none) coveringRun
    (fun s => decide (s.loaded.length = 2 ∧ s.firstHour = some newYear ∧
      s.lastCutoff = some (newYear + day + hour))) (by decide +kernel)
  exact ⟨s, hs, of_decide_eq_true hp, no_hour_skipped oneReceipt .empty none hs⟩

end Platform

end Pipeline

end TrackFlow
