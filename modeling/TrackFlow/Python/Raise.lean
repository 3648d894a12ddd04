import Mathlib.Data.List.Forall2
import Mathlib.Logic.Basic

/-!
# Computations that may raise

`Except`, taken apart at its first step, and without the error that it raises.

* `except_bind_eq_ok` : a computation returns if its first step does, and then the rest.
* `toOption_mapM_congr` : two loops agree, refusals included, if their steps do.
* `forall₂_of_mapM_eq_ok` : a list is built only if every element is.
-/

namespace TrackFlow

universe u

variable {ρ ε : Type*} {α β : Type u}

theorem except_bind_eq_ok {x : Except ε α} {f : α → Except ε β} {b : β} :
    (x >>= f) = .ok b ↔ ∃ a, x = .ok a ∧ f a = .ok b := by
  cases x <;> simp [bind, Except.bind]

theorem except_pure_eq_ok {a b : α} : (pure a : Except ε α) = .ok b ↔ a = b := by
  simp [pure, Except.pure]

theorem toOption_bind (x : Except ε α) (f : α → Except ε β) :
    (x >>= f).toOption = x.toOption.bind fun a => (f a).toOption := by
  cases x <;> rfl

theorem toOption_congr {x y : Except ε α} (h : ∀ a, x = .ok a → y = .ok a)
    (h' : ∀ a, y = .ok a → x = .ok a) : x.toOption = y.toOption := by
  cases x with
  | ok a => rw [h a rfl]
  | error e =>
    cases y with
    | ok a => cases h' a rfl
    | error e' => rfl

theorem toOption_mapM_congr {f g : ρ → Except ε α} {records : List ρ}
    (h : ∀ r ∈ records, (f r).toOption = (g r).toOption) :
    (records.mapM f).toOption = (records.mapM g).toOption := by
  induction records with
  | nil => rfl
  | cons r records ih =>
    rw [List.mapM_cons, List.mapM_cons, toOption_bind, toOption_bind, h r List.mem_cons_self]
    congr 1
    funext a
    rw [toOption_bind, toOption_bind, ih fun r' hr' => h r' (List.mem_cons_of_mem _ hr')]

/-- A loop that returns has computed every element. -/
theorem forall₂_of_mapM_eq_ok {f : ρ → Except ε α} {records : List ρ} {as : List α}
    (h : records.mapM f = .ok as) : List.Forall₂ (fun r a => f r = .ok a) records as := by
  induction records generalizing as with
  | nil =>
    obtain rfl := except_pure_eq_ok.1 h
    exact .nil
  | cons r records ih =>
    rw [List.mapM_cons] at h
    obtain ⟨a, ha, h⟩ := except_bind_eq_ok.1 h
    obtain ⟨as', has, h⟩ := except_bind_eq_ok.1 h
    obtain rfl := except_pure_eq_ok.1 h
    exact .cons ha (ih has)

/-- A list is built only if every element is. -/
theorem forall_of_mapM_eq_ok {f : ρ → Except ε α} {records : List ρ} {as : List α}
    (h : records.mapM f = .ok as) : ∀ r ∈ records, ∃ a, f r = .ok a := by
  have hall := forall₂_of_mapM_eq_ok h
  clear h
  induction hall with
  | nil => simp
  | cons hr _ ih => exact List.forall_mem_cons.2 ⟨⟨_, hr⟩, ih⟩

end TrackFlow
