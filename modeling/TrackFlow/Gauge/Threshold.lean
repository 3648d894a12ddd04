import Mathlib.Algebra.Order.Ring.Int

/-!
# A gauge with a threshold

A level that rises and falls, and a threshold that can be moved.  Every withdrawal gives a reading:
the threshold at that moment and the level before and after it.  A reading crosses if it takes the
level from above a positive threshold to the threshold or below.

* `Gauge.after` : the gauge after some moves.
* `Gauge.readings` : the readings of all withdrawals, in order.
* `Gauge.crossings` : the readings that cross.
* `Gauge.crossings_append` : the crossings of a history in two parts.
-/

namespace TrackFlow

/-- A level and a threshold. -/
structure Gauge where
  level : ℤ
  threshold : ℕ
  deriving DecidableEq, Repr

/-- What happens to a gauge; `ξ` names the withdrawals. -/
inductive Move (ξ : Type*)
  | fill (quantity : ℕ)
  | withdraw (name : ξ) (quantity : ℕ)
  | arm (threshold : ℕ)

/-- The reading of a withdrawal. -/
structure Reading (ξ : Type*) where
  name : ξ
  threshold : ℕ
  before : ℤ
  after : ℤ
  deriving DecidableEq, Repr

/-- The level falls from above a positive threshold to the threshold or below. -/
def Reading.Crosses {ξ : Type*} (r : Reading ξ) : Prop :=
  0 < r.threshold ∧ r.before > r.threshold ∧ (r.threshold : ℤ) ≥ r.after

instance {ξ : Type*} (r : Reading ξ) : Decidable r.Crosses :=
  inferInstanceAs (Decidable (_ ∧ _))

namespace Gauge

variable {ξ : Type*}

/-- The gauge after one move. -/
def move (g : Gauge) : Move ξ → Gauge
  | .fill quantity => { g with level := g.level + quantity }
  | .withdraw _ quantity => { g with level := g.level - quantity }
  | .arm threshold => { g with threshold := threshold }

/-- The reading of a move, if it is a withdrawal. -/
def read (g : Gauge) : Move ξ → List (Reading ξ)
  | .withdraw name quantity => [⟨name, g.threshold, g.level, g.level - quantity⟩]
  | _ => []

/-- The gauge after some moves. -/
def after (g : Gauge) (moves : List (Move ξ)) : Gauge := moves.foldl move g

/-- The readings of all withdrawals, in order. -/
def readings : Gauge → List (Move ξ) → List (Reading ξ)
  | _, [] => []
  | g, m :: moves => g.read m ++ readings (g.move m) moves

/-- The readings that cross, in order. -/
def crossings (g : Gauge) (moves : List (Move ξ)) : List (Reading ξ) :=
  (g.readings moves).filter fun r => decide r.Crosses

variable {g : Gauge} {moves moves' : List (Move ξ)}

@[simp] theorem after_nil : g.after ([] : List (Move ξ)) = g := rfl

@[simp] theorem crossings_nil : g.crossings ([] : List (Move ξ)) = [] := rfl

theorem after_append : g.after (moves ++ moves') = (g.after moves).after moves' :=
  List.foldl_append

theorem readings_append :
    g.readings (moves ++ moves') = g.readings moves ++ (g.after moves).readings moves' := by
  induction moves generalizing g with
  | nil => rfl
  | cons m moves ih => simp [readings, ih, after]

/-- The crossings of a history in two parts. -/
theorem crossings_append :
    g.crossings (moves ++ moves') = g.crossings moves ++ (g.after moves).crossings moves' := by
  rw [crossings, readings_append, List.filter_append, crossings, crossings]

end Gauge

end TrackFlow
