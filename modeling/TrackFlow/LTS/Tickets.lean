import Mathlib.Data.Finset.Card
import Mathlib.Data.List.Nodup
import Mathlib.Logic.Function.Basic

/-!
# Tickets

Numbers that are drawn from a counter, held by one party each, and spent once.

* `Tickets drawn held spent` : the invariant.
* `Tickets.draw`, `Tickets.drop`, `Tickets.spend` : what keeps it.
* `Tickets.length_spent_le` : **no more tickets are spent than were drawn.**
* `Lost` : a ticket that nobody holds and nobody has spent; it stays lost.
-/

namespace TrackFlow

variable {ι : Type*} {drawn n : ℕ} {held : ι → Option ℕ} {spent : List ℕ} {i : ι}

/-- Tickets below `drawn` are held by one party, or spent once, or lost. -/
structure Tickets (drawn : ℕ) (held : ι → Option ℕ) (spent : List ℕ) : Prop where
  held_lt : ∀ {i n}, held i = some n → n < drawn
  unique : ∀ {i j n}, held i = some n → held j = some n → i = j
  spent_lt : ∀ {n}, n ∈ spent → n < drawn
  nodup : spent.Nodup
  unspent : ∀ {i n}, held i = some n → n ∉ spent

/-- Nobody holds the ticket, and nobody has spent it. -/
structure Lost (drawn : ℕ) (held : ι → Option ℕ) (spent : List ℕ) (n : ℕ) : Prop where
  lt : n < drawn
  not_held : ∀ i, held i ≠ some n
  not_spent : n ∉ spent

namespace Tickets

theorem start : Tickets 0 (fun _ : ι => none) [] :=
  ⟨fun h => (by cases h), fun h => (by cases h), fun h => (by cases h), List.nodup_nil,
    fun h => (by cases h)⟩

/-- **No more tickets are spent than were drawn.** -/
theorem length_spent_le (h : Tickets drawn held spent) : spent.length ≤ drawn := by
  have hsub : spent ⊆ List.range drawn := fun n hn => List.mem_range.2 (h.spent_lt hn)
  have hle := (h.nodup.subperm hsub).length_le
  rwa [List.length_range] at hle

variable [DecidableEq ι]

/-- A party gives up what it holds. -/
theorem drop (h : Tickets drawn held spent) (i : ι) :
    Tickets drawn (Function.update held i none) spent := by
  have hold : ∀ {j n}, Function.update held i none j = some n → held j = some n := by
    intro j n hj
    by_cases hji : j = i
    · rw [hji, Function.update_self] at hj
      cases hj
    · rwa [Function.update_of_ne hji] at hj
  exact ⟨fun hj => h.held_lt (hold hj), fun hj hj' => h.unique (hold hj) (hold hj'), h.spent_lt,
    h.nodup, fun hj => h.unspent (hold hj)⟩

/-- A party draws the next ticket. -/
theorem draw (h : Tickets drawn held spent) (i : ι) :
    Tickets (drawn + 1) (Function.update held i (some drawn)) spent := by
  have hold : ∀ {j n}, Function.update held i (some drawn) j = some n →
      j = i ∧ n = drawn ∨ j ≠ i ∧ held j = some n := by
    intro j n hj
    by_cases hji : j = i
    · rw [hji, Function.update_self] at hj
      exact .inl ⟨hji, (Option.some.inj hj).symm⟩
    · rw [Function.update_of_ne hji] at hj
      exact .inr ⟨hji, hj⟩
  refine ⟨fun hj => ?_, fun hj hj' => ?_, fun hn => (h.spent_lt hn).trans (Nat.lt_succ_self _),
    h.nodup, fun hj hn => ?_⟩
  · obtain ⟨-, rfl⟩ | ⟨-, hj⟩ := hold hj
    · exact Nat.lt_succ_self _
    · exact (h.held_lt hj).trans (Nat.lt_succ_self _)
  · obtain ⟨hi, hn⟩ | ⟨-, hother⟩ := hold hj <;> obtain ⟨hi', hn'⟩ | ⟨-, hother'⟩ := hold hj'
    · exact hi.trans hi'.symm
    · exact absurd (h.held_lt hother') (hn ▸ lt_irrefl _)
    · exact absurd (h.held_lt hother) (hn' ▸ lt_irrefl _)
    · exact h.unique hother hother'
  · obtain ⟨-, rfl⟩ | ⟨-, hj⟩ := hold hj
    · exact absurd (h.spent_lt hn) (lt_irrefl _)
    · exact h.unspent hj hn

/-- A party spends the ticket that it holds. -/
theorem spend (h : Tickets drawn held spent) (hi : held i = some n) :
    Tickets drawn (Function.update held i none) (spent ++ [n]) := by
  have hdrop := h.drop i
  refine ⟨hdrop.held_lt, hdrop.unique, fun hm => ?_, ?_, fun {j m} hj hm => ?_⟩
  · rcases List.mem_append.1 hm with hm | hm
    · exact h.spent_lt hm
    · exact List.mem_singleton.1 hm ▸ h.held_lt hi
  · exact List.nodup_append.2 ⟨h.nodup, List.nodup_singleton n, fun m hm m' hm' heq =>
      h.unspent hi (List.mem_singleton.1 hm' ▸ heq ▸ hm)⟩
  · rcases List.mem_append.1 hm with hm | hm
    · exact hdrop.unspent hj hm
    · by_cases hji : j = i
      · rw [hji, Function.update_self] at hj
        cases hj
      · rw [Function.update_of_ne hji] at hj
        exact hji (h.unique hj (List.mem_singleton.1 hm ▸ hi))

end Tickets

namespace Lost

variable [DecidableEq ι]

theorem drop (h : Lost drawn held spent n) (i : ι) :
    Lost drawn (Function.update held i none) spent n := by
  refine ⟨h.lt, fun j hj => ?_, h.not_spent⟩
  by_cases hji : j = i
  · rw [hji, Function.update_self] at hj
    cases hj
  · rw [Function.update_of_ne hji] at hj
    exact h.not_held j hj

theorem draw (h : Lost drawn held spent n) (i : ι) :
    Lost (drawn + 1) (Function.update held i (some drawn)) spent n := by
  refine ⟨h.lt.trans (Nat.lt_succ_self _), fun j hj => ?_, h.not_spent⟩
  by_cases hji : j = i
  · rw [hji, Function.update_self] at hj
    exact absurd h.lt (Option.some.inj hj ▸ lt_irrefl _)
  · rw [Function.update_of_ne hji] at hj
    exact h.not_held j hj

theorem spend (h : Lost drawn held spent n) {m : ℕ} (hi : held i = some m) :
    Lost drawn (Function.update held i none) (spent ++ [m]) n := by
  refine ⟨h.lt, (h.drop i).not_held, fun hn => ?_⟩
  rcases List.mem_append.1 hn with hn | hn
  · exact h.not_spent hn
  · exact h.not_held i (List.mem_singleton.1 hn ▸ hi)

end Lost

end TrackFlow
