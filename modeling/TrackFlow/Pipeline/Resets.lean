import TrackFlow.Pipeline.Coverage

/-!
# Movements that a reset truncates

A reset captures its boundary first, waits for a checkpoint run, and truncates then.  It marks
the week of the boundary as incomplete, and the weeks that begin before the boundary precede
`last_reset_at`.  A movement of a later week is in neither: `truncation_accounted` proves that
these are the only movements a reset can lose silently, and `reset_hides_movement` that it loses
one that is recorded after midnight on Monday, when the boundary was captured before.
-/

namespace TrackFlow

namespace Pipeline

open Reporting

namespace Platform

/-- Every movement that was truncated before a weekly row reflected it belongs to a week that is
marked incomplete, or whose Monday precedes the last reset. -/
def TruncationAccounted (s : Platform) : Prop :=
  ∀ v ∈ s.unreported, weekFloor v.time ∈ s.incompleteWeeks ∨
    ∃ b, s.db.reporting.lastResetAt = some b ∧ weekFloor v.time < b

/-- A truncation whose boundary is not before the last reset, while every movement is of the week
of the boundary or earlier, or is reflected, or is of a week that is already incomplete. -/
def withinBoundary (s : Platform) : Event → Bool
  | .resetTruncate => s.reset.all fun job =>
      s.db.reporting.lastResetAt.all (fun b => decide (b ≤ job.boundary)) &&
        (movementEvents s.db.ledger).all fun v =>
          decide (weekFloor v.time ≤ weekFloor job.boundary) || reflected s.db v ||
            decide (weekFloor v.time ∈ s.incompleteWeeks)
  | _ => true

section Truncation

variable {s s' : Platform} {e : Event}

theorem resetTruncate_eq_some (h : s.next .resetTruncate = some s') :
    ∃ boundary runId, s.reset = some ⟨boundary, runId, .truncate⟩ ∧
      s'.incompleteWeeks = weekFloor boundary :: s.incompleteWeeks ∧
      s'.db.reporting.lastResetAt = some boundary ∧
      s'.unreported = s.unreported ++
        (movementEvents s.db.ledger).filter fun v => !reflected s.db v := by
  simp only [next, resetTruncate] at h
  split at h
  · rename_i boundary runId hr
    split_ifs at h
    cases h
    exact ⟨boundary, runId, hr, rfl, rfl, rfl⟩
  · cases h

/-- A week at or before the boundary is marked, or begins before the boundary. -/
theorem week_le_boundary {t boundary : ℕ} (h : weekFloor t ≤ weekFloor boundary) :
    weekFloor t = weekFloor boundary ∨ weekFloor t < boundary := by
  rcases h.eq_or_lt with h | h
  · exact .inl h
  · exact .inr (h.trans_le (floorTo_le week boundary))

/-- Outside a truncation, marks and boundary stay. -/
theorem accounted_of_same (hs : TruncationAccounted s) (hm : s'.marks = s.marks)
    (hr : s'.db.reporting.lastResetAt = s.db.reporting.lastResetAt) : TruncationAccounted s' := by
  obtain ⟨hw, hu⟩ := Prod.mk.inj hm
  intro v hv
  rw [hw, hr]
  exact hs v (hu ▸ hv)

theorem accounted_of_truncate (hs : TruncationAccounted s)
    (hg : s.withinBoundary .resetTruncate = true) (h : s.next .resetTruncate = some s') :
    TruncationAccounted s' := by
  obtain ⟨boundary, runId, hreset, hweeks, hlast, hun⟩ := resetTruncate_eq_some h
  simp only [withinBoundary, hreset, Option.all_some, Bool.and_eq_true, List.all_eq_true,
    Bool.or_eq_true, decide_eq_true_eq] at hg
  obtain ⟨hmono, hmoved⟩ := hg
  intro v hv
  rw [hweeks, hlast]
  have hgoal : ∀ w, w ∈ s.incompleteWeeks → w ∈ weekFloor boundary :: s.incompleteWeeks :=
    fun w => List.mem_cons_of_mem _
  rw [hun, List.mem_append, List.mem_filter] at hv
  rcases hv with hv | ⟨hv, hnot⟩
  · -- lost in an earlier reset, whose boundary is not after this one
    rcases hs v hv with hw | ⟨b, hb, hlt⟩
    · exact .inl (hgoal _ hw)
    · rw [hb, Option.all_some, decide_eq_true_eq] at hmono
      exact .inr ⟨boundary, rfl, hlt.trans_le hmono⟩
  · rcases hmoved v hv with (hle | hrefl) | hw
    · rcases week_le_boundary hle with he | hlt
      · exact .inl (he ▸ List.mem_cons_self)
      · exact .inr ⟨boundary, rfl, hlt⟩
    · simp [hrefl] at hnot
    · exact .inl (hgoal _ hw)

/-- **A reset accounts for what it truncates.**  Along every sequence of transactions in which a
reset truncates only movements of the week of its boundary or earlier ones, or movements that are
reflected or of weeks already marked, and boundaries do not go back: every movement that was
truncated without being reflected belongs to a week that is marked incomplete, or whose Monday
precedes the last reset. -/
theorem truncation_accounted (ledger : Ledger) (runs : Table Queue.PipelineRun.id)
    (lastResetAt : Option ℕ)
    (h : machine.Run (fun s e => s.withinBoundary e = true) (start ledger runs lastResetAt) s) :
    TruncationAccounted s := by
  have key : TruncationAccounted s ∧ ∀ f, s.flight = some f → WholeHours f.window := by
    refine h.invariant
      (fun s => TruncationAccounted s ∧ ∀ f, s.flight = some f → WholeHours f.window)
      ⟨by simp [TruncationAccounted, start], by simp [start]⟩ ?_
    rintro s e s' ⟨hs, hw⟩ hg hn
    refine ⟨?_, wholeHours_next hw hn⟩
    cases (step_of_next hn).2.1 with
    | same hr _ hm => exact accounted_of_same hs hm (by rw [hr])
    | load _ _ _ _ claim window source db hf _ hrep hload _ _ hm =>
      have hlast := (hload (hw _ hf).cutoff_dvd).lastResetAt
      exact accounted_of_same hs hm (by rw [hlast, hrep])
    | reset boundary he _ _ =>
      subst he
      exact accounted_of_truncate hs hg hn
  exact key.1

end Truncation

/-! ### A reset over midnight -/

/-- The checkpoint run of a reset, succeeded. -/
def succeeded (id : UUID) : Table Queue.PipelineRun.id :=
  ⟨[{ Queue.scheduledRun with
      id := id, triggerType := .cli, status := .succeeded, attempt := 1,
      finishedAt := some (newYear + week) }], List.nodup_singleton _⟩

/-- A receipt of three units of the SKU of `oneReceipt`. -/
def receiveThree (now : Clock) : Event :=
  .service (.recordInbound ⟨1, 3, "PO-2", .LA, three_units_pos⟩ "warehouse-user" now 2)

/-- A reset at `boundary`, whose checkpoint succeeds and which truncates after a receipt at
`now`. -/
def resetAround (boundary now : Clock) : List Event :=
  [.resetStart boundary 9, receiveThree now, .queue (succeeded 9), .resetTruncate]

/-- The boundary is captured two minutes before midnight on Sunday, and the receipt is recorded
two minutes after it. -/
theorem reset_hides_movement :
    ∃ s, machine.Reachable (start oneReceipt .empty none) s ∧ ¬ TruncationAccounted s := by
  let monday := newYear + week
  let hidden (s : Platform) : Bool := s.unreported.any fun v =>
    !decide (weekFloor v.time ∈ s.incompleteWeeks) &&
      s.db.reporting.lastResetAt.all fun b => decide (b ≤ weekFloor v.time)
  obtain ⟨s, hs, hp⟩ := machine.exists_reachable (start oneReceipt .empty none)
    (resetAround (newYearClock (week - 120 * second)) (newYearClock (week + 120 * second))) hidden
    (by decide +kernel)
  refine ⟨s, hs, fun h => ?_⟩
  obtain ⟨v, hv, hnot⟩ := List.any_eq_true.1 hp
  simp only [Bool.and_eq_true, Bool.not_eq_true', decide_eq_false_iff_not] at hnot
  rcases h v hv with hw | ⟨b, hb, hlt⟩
  · exact hnot.1 hw
  · have hle : b ≤ weekFloor v.time := by simpa [hb] using hnot.2
    omega

/-- The receipt is recorded before midnight. -/
theorem truncation_accounted_before_midnight :
    ∃ s, machine.Run (fun s e => s.withinBoundary e = true) (start oneReceipt .empty none) s ∧
      (s.unreported.length = 2 ∧
        s.db.reporting.lastResetAt = some (newYear + week - 120 * second)) ∧
      TruncationAccounted s := by
  obtain ⟨s, hs, hp⟩ := machine.exists_run withinBoundary (start oneReceipt .empty none)
    (resetAround (newYearClock (week - 120 * second)) (newYearClock (week - 60 * second)))
    (fun s => decide (s.unreported.length = 2 ∧
      s.db.reporting.lastResetAt = some (newYear + week - 120 * second))) (by decide +kernel)
  exact ⟨s, hs, of_decide_eq_true hp, truncation_accounted oneReceipt .empty none hs⟩

end Platform

end Pipeline

end TrackFlow
