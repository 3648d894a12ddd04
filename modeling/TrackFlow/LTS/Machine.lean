import Mathlib.Algebra.GroupWithZero.Nat
import Mathlib.Logic.Relation

/-!
# Executable labelled machines

A `Machine` moves from a state under a label, or refuses the label.  All nondeterminism
(which client moves, what the clock reads, whether a statement fails) is in the label, so a
run is a list of labels that can be evaluated, and an invariant is proved once for every list.

* `Machine.run` : the state a list of labels leads to; `runIf` checks every label first.
* `Machine.Run G s₀ s` : `s` is reached from `s₀` by steps that all satisfy `G`.
* `Machine.Reachable s₀ s` : `s` is reached from `s₀` by any steps.
* `Machine.Run.invariant` : what one step preserves, every run preserves.
* `Machine.Simulates` : through a relation, every step of one machine is a stutter or a step of
  another; `Simulates.exists_reachable` says it of runs.
-/

namespace TrackFlow

/-- A machine for three parties names them `0`, `1` and `2`. -/
instance neZero_three : NeZero 3 := ⟨by decide⟩

/-- A deterministic labelled machine; `none` means that the label is not enabled. -/
structure Machine (S L : Type*) where
  /-- The state after the label. -/
  next : S → L → Option S

namespace Machine

variable {S L T K : Type*} (M : Machine S L)

/-- The state after a list of labels, each of which must pass the check `g`. -/
def runIf (g : S → L → Bool) : S → List L → Option S
  | s, [] => some s
  | s, l :: ls => if g s l then (M.next s l).bind fun s' => runIf g s' ls else none

/-- The state after a list of labels. -/
def run (s : S) (ls : List L) : Option S := M.runIf (fun _ _ => true) s ls

/-- The states reached from `s₀` by steps that satisfy `G` (a condition on the state before
the step and on its label). -/
inductive Run (G : S → L → Prop) (s₀ : S) : S → Prop
  | refl : Run G s₀ s₀
  | tail {s s' : S} {l : L} : Run G s₀ s → G s l → M.next s l = some s' → Run G s₀ s'

/-- The states reached from `s₀` by any steps. -/
abbrev Reachable (s₀ s : S) : Prop := M.Run (fun _ _ => True) s₀ s

variable {M}

theorem Run.mono {G G' : S → L → Prop} {s₀ s : S} (h : M.Run G s₀ s)
    (hG : ∀ s l, G s l → G' s l) : M.Run G' s₀ s := by
  induction h with
  | refl => exact .refl
  | tail _ hg hs ih => exact ih.tail (hG _ _ hg) hs

theorem Run.reachable {G : S → L → Prop} {s₀ s : S} (h : M.Run G s₀ s) : M.Reachable s₀ s :=
  h.mono fun _ _ _ => trivial

theorem Run.trans {G : S → L → Prop} {s₀ s₁ s₂ : S} (h : M.Run G s₀ s₁) (h' : M.Run G s₁ s₂) :
    M.Run G s₀ s₂ := by
  induction h' with
  | refl => exact h
  | tail _ hg hs ih => exact ih.tail hg hs

/-- **Inductive invariants.**  What holds at the start and is preserved by every step that
satisfies `G` holds in every state of a run whose steps all satisfy `G`. -/
theorem Run.invariant {G : S → L → Prop} {s₀ s : S} (h : M.Run G s₀ s) (I : S → Prop)
    (h₀ : I s₀) (hstep : ∀ s l s', I s → G s l → M.next s l = some s' → I s') : I s := by
  induction h with
  | refl => exact h₀
  | tail _ hg hs ih => exact hstep _ _ _ ih hg hs

/-- In states that satisfy an invariant, the condition on the steps can be exchanged. -/
theorem Run.exchange {G G' : S → L → Prop} {s₀ s : S} (h : M.Run G s₀ s) (I : S → Prop) (h₀ : I s₀)
    (hstep : ∀ s l s', I s → G s l → M.next s l = some s' → I s')
    (hG : ∀ s l, I s → G s l → G' s l) : M.Run G' s₀ s := by
  induction h with
  | refl => exact .refl
  | tail hrun hg hs ih => exact ih.tail (hG _ _ (hrun.invariant I h₀ hstep) hg) hs

/-- A list of labels that can be evaluated is a run, of steps that pass the check with one of these
labels. -/
theorem runIf_eq_some {g : S → L → Bool} {G : S → L → Prop} {s₀ s s' : S} {ls : List L}
    (hG : ∀ s, ∀ l ∈ ls, g s l = true → G s l) (hs : M.Run G s₀ s) (h : M.runIf g s ls = some s') :
    M.Run G s₀ s' := by
  induction ls generalizing s with
  | nil => cases h; exact hs
  | cons l ls ih =>
    simp only [runIf, Option.ite_none_right_eq_some] at h
    obtain ⟨hl, h⟩ := h
    obtain ⟨s₁, h₁, h₂⟩ := Option.bind_eq_some_iff.1 h
    have hG' : ∀ s, ∀ l ∈ ls, g s l = true → G s l := fun s l hl =>
      hG s l (List.mem_cons_of_mem _ hl)
    exact ih hG' (hs.tail (hG s l List.mem_cons_self hl) h₁) h₂

variable (M)

/-- Evaluating a list of labels and a test of the last state. -/
theorem exists_run_of (g : S → L → Bool) {G : S → L → Prop} (s₀ : S) (ls : List L)
    (hG : ∀ s, ∀ l ∈ ls, g s l = true → G s l) (p : S → Bool)
    (h : (M.runIf g s₀ ls).any p = true) : ∃ s, M.Run G s₀ s ∧ p s = true := by
  obtain ⟨s, hs, hp⟩ := (Option.any_eq_true p _).1 h
  exact ⟨s, runIf_eq_some hG .refl hs, hp⟩

theorem exists_run (g : S → L → Bool) (s₀ : S) (ls : List L) (p : S → Bool)
    (h : (M.runIf g s₀ ls).any p = true) :
    ∃ s, M.Run (fun s l => g s l = true) s₀ s ∧ p s = true :=
  M.exists_run_of g s₀ ls (fun _ _ _ h => h) p h

theorem exists_reachable (s₀ : S) (ls : List L) (p : S → Bool)
    (h : (M.run s₀ ls).any p = true) : ∃ s, M.Reachable s₀ s ∧ p s = true := by
  obtain ⟨s, hs, hp⟩ := M.exists_run _ s₀ ls p h
  exact ⟨s, hs.reachable, hp⟩

/-- `N` simulates `M` through `R`: a step of `M` that satisfies `G` leaves `N` where it is, or is
a step of `N`. -/
def Simulates (G : S → L → Prop) (N : Machine T K) (R : S → T → Prop) : Prop :=
  ∀ s l s' t, R s t → G s l → M.next s l = some s' →
    R s' t ∨ ∃ k t', N.next t k = some t' ∧ R s' t'

variable {M}

/-- **Refinement.**  Through a simulation every run has a run of the other machine beside it. -/
theorem Simulates.exists_reachable {G : S → L → Prop} {N : Machine T K} {R : S → T → Prop}
    {s₀ s : S} {t₀ : T} (sim : M.Simulates G N R) (h₀ : R s₀ t₀) (h : M.Run G s₀ s) :
    ∃ t, N.Reachable t₀ t ∧ R s t := by
  induction h with
  | refl => exact ⟨t₀, .refl, h₀⟩
  | tail _ hg hs ih =>
    obtain ⟨t, hreach, ht⟩ := ih
    rcases sim _ _ _ t ht hg hs with ht' | ⟨k, t', hk, ht'⟩
    · exact ⟨t, hreach, ht'⟩
    · exact ⟨t', hreach.tail trivial hk, ht'⟩

end Machine

end TrackFlow
