import TrackFlow.LTS.Machine
import Mathlib.Algebra.Order.Ring.Nat

/-!
# Infinite executions

An `Execution` of a machine takes a step at every point of time.  What eventually happens on it
is proved by a rank that no step raises and that the steps of one party lower.

* `Machine.Execution.run_of_le` : a later state is reached from an earlier one.
* `Machine.Execution.eventually` : **a rank, and a party that keeps moving, reach the goal.**
-/

namespace TrackFlow

namespace Machine

variable {S L : Type*} {M : Machine S L} {G : S → L → Prop} {s₀ : S}

variable (M G s₀) in
/-- An infinite run from `s₀` whose steps all satisfy `G`. -/
structure Execution where
  /-- The state at each time. -/
  state : ℕ → S
  /-- The label of the step taken at each time. -/
  label : ℕ → L
  start : state 0 = s₀
  guarded : ∀ n, G (state n) (label n)
  step : ∀ n, M.next (state n) (label n) = some (state (n + 1))

namespace Execution

variable (e : Execution M G s₀)

theorem run_of_le {m n : ℕ} (h : m ≤ n) : M.Run G (e.state m) (e.state n) := by
  induction n, h using Nat.le_induction with
  | base => exact .refl
  | succ n _ ih => exact ih.tail (e.guarded n) (e.step n)

theorem run (n : ℕ) : M.Run G s₀ (e.state n) := by
  have h := e.run_of_le n.zero_le
  rwa [e.start] at h

/-- **Ranking.**  From `start` on and until `done`, no step raises the rank, the steps labelled
`own` lower it, and there is always another of these: then `done` is reached. -/
theorem eventually (rank : S → ℕ) (own : L → Prop) (done : S → Prop) (start : ℕ)
    (hle : ∀ n, start ≤ n → ¬ done (e.state n) →
      rank (e.state (n + 1)) ≤ rank (e.state n))
    (hlt : ∀ n, start ≤ n → ¬ done (e.state n) → own (e.label n) →
      rank (e.state (n + 1)) < rank (e.state n))
    (hfair : ∀ n, start ≤ n → ¬ done (e.state n) → ∃ m, n ≤ m ∧ own (e.label m)) :
    ∃ n, start ≤ n ∧ done (e.state n) := by
  -- induction on the rank at the start
  induction hr : rank (e.state start) using Nat.strong_induction_on generalizing start with
  | h r ih =>
    by_contra! hne
    obtain ⟨m, hm, hown⟩ := hfair start le_rfl (hne start le_rfl)
    have hmono : rank (e.state m) ≤ rank (e.state start) := by
      clear hown
      induction m, hm using Nat.le_induction with
      | base => exact le_rfl
      | succ n hn ih' => exact (hle n hn (hne n hn)).trans ih'
    have hdown : rank (e.state (m + 1)) < r :=
      hr ▸ (hlt m hm (hne m hm) hown).trans_le hmono
    obtain ⟨n, hn, hdone⟩ := ih _ hdown (m + 1) (fun n h => hle n (by omega))
      (fun n h => hlt n (by omega)) (fun n h => hfair n (by omega)) rfl
    exact hne n (by omega) hdone

end Execution

end Machine

end TrackFlow
