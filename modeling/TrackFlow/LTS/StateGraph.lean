import Mathlib.Data.List.Basic

/-!
# Graphs of nodes that work on a state

The nodes of an acyclic graph work on a state in turn: the node that is visited brings a new state,
or an exception that ends the run, and the edge out of it is chosen by the new state.

* `StateGraph.invoke` : a run, with the effects of the nodes that were visited.
* `StateGraph.invoke_eq` : a run is a visit, and a run from the next node.
* `StateGraph.Invariant` : what holds wherever a node is visited, and what follows at the end.
* `StateGraph.Invariant.invoke` : **it follows of every run.**
-/

namespace TrackFlow

/-- A graph of nodes that work on a state. -/
structure StateGraph (ν σ ε : Type*) where
  /-- The new state, unless an exception leaves the node, and the effects. -/
  visit : ν → σ → Option σ × List ε
  /-- The edge out of a node. -/
  next : ν → σ → Option ν
  /-- How many nodes can follow. -/
  rank : ν → ℕ
  rank_lt : ∀ {n m : ν} {s : σ}, next n s = some m → rank m < rank n

namespace StateGraph

variable {ν σ ε : Type*} (g : StateGraph ν σ ε)

/-- A run of at most so many nodes. -/
def runFrom : ℕ → ν → σ → Option σ × List ε
  | 0, _, s => (some s, [])
  | fuel + 1, n, s =>
    match g.visit n s with
    | (none, effects) => (none, effects)
    | (some s', effects) =>
      match g.next n s' with
      | none => (some s', effects)
      | some m => ((runFrom fuel m s').1, effects ++ (runFrom fuel m s').2)

/-- The run from a node. -/
def invoke (n : ν) (s : σ) : Option σ × List ε := g.runFrom (g.rank n + 1) n s

variable {g} {n : ν} {s : σ}

/-- More fuel changes nothing. -/
theorem runFrom_eq_invoke {fuel : ℕ} (h : g.rank n < fuel) :
    g.runFrom fuel n s = g.invoke n s := by
  have key : ∀ k fuel n s, g.rank n < k → g.rank n < fuel →
      g.runFrom fuel n s = g.runFrom k n s := by
    intro k
    induction k with
    | zero => exact fun _ _ _ h => absurd h (Nat.not_lt_zero _)
    | succ k ih =>
      intro fuel n s hk hfuel
      obtain ⟨fuel, rfl⟩ := Nat.exists_eq_succ_of_ne_zero (Nat.ne_zero_of_lt hfuel)
      rw [runFrom, runFrom]
      rcases hvisit : g.visit n s with ⟨_ | s', effects⟩
      · rfl
      · cases hnext : g.next n s' with
        | none => simp only [hnext]
        | some m =>
          have hlt := g.rank_lt hnext
          simp only [hnext, ih fuel m s' (by omega) (by omega)]
  exact key _ fuel n s (Nat.lt_succ_self _) h

/-- A run is a visit, and a run from the next node. -/
theorem invoke_eq : g.invoke n s =
    match g.visit n s with
    | (none, effects) => (none, effects)
    | (some s', effects) =>
      match g.next n s' with
      | none => (some s', effects)
      | some m => ((g.invoke m s').1, effects ++ (g.invoke m s').2) := by
  rw [invoke, runFrom]
  rcases g.visit n s with ⟨_ | s', effects⟩
  · rfl
  · cases hnext : g.next n s' with
    | none => simp only [hnext]
    | some m => simp only [hnext, runFrom_eq_invoke (g.rank_lt hnext)]

variable (g) in
/-- What holds when a node is visited, with the effects so far, and what follows at the end. -/
structure Invariant (At : ν → σ → List ε → Prop) (Post : Option σ → List ε → Prop) : Prop where
  raised : ∀ {n s before effects}, At n s before → g.visit n s = (none, effects) →
    Post none (before ++ effects)
  ended : ∀ {n s s' before effects}, At n s before → g.visit n s = (some s', effects) →
    g.next n s' = none → Post (some s') (before ++ effects)
  moved : ∀ {n s s' m before effects}, At n s before → g.visit n s = (some s', effects) →
    g.next n s' = some m → At m s' (before ++ effects)

/-- **What follows at the end holds of every run.** -/
theorem Invariant.invoke_from {At : ν → σ → List ε → Prop} {Post : Option σ → List ε → Prop}
    (h : g.Invariant At Post) {before : List ε} (hat : At n s before) :
    Post (g.invoke n s).1 (before ++ (g.invoke n s).2) := by
  induction hrank : g.rank n using Nat.strongRecOn generalizing n s before with
  | ind rank ih =>
    rw [invoke_eq]
    rcases hvisit : g.visit n s with ⟨_ | s', effects⟩
    · exact h.raised hat hvisit
    · cases hnext : g.next n s' with
      | none => simpa only [hnext] using h.ended hat hvisit hnext
      | some m =>
        have hrest := ih _ (hrank ▸ g.rank_lt hnext) (h.moved hat hvisit hnext) rfl
        simpa only [hnext, List.append_assoc] using hrest

theorem Invariant.invoke {At : ν → σ → List ε → Prop} {Post : Option σ → List ε → Prop}
    (h : g.Invariant At Post) (hat : At n s []) : Post (g.invoke n s).1 (g.invoke n s).2 :=
  h.invoke_from hat

end StateGraph

end TrackFlow
