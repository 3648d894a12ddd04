import Mathlib.Algebra.BigOperators.Group.List.Basic
import Mathlib.Algebra.Group.Basic
import Mathlib.Data.List.ReduceOption
import Mathlib.Data.List.Perm.Lattice

/-!
# Sums of values that may be unknown

Two ways to add up values some of which are unknown: `sumKnown` adds the known ones, `sumComplete`
adds them only if none is unknown.  Both are `none` when there is nothing to add.

* `sumKnown_map_sumKnown` : grouping does not matter to `sumKnown`.
* `sumKnown_map_sumComplete_iff` : **when the known sums of the groups are the complete sum.**
* `sumKnown_eq_append_iff` : when a part can be left out.
-/

namespace TrackFlow

theorem reduceOption_map_some {M N : Type*} (f : M → N) (xs : List M) :
    (xs.map fun x => some (f x)).reduceOption = xs.map f := by
  induction xs with
  | nil => rfl
  | cons x xs ih => rw [List.map_cons, List.reduceOption_cons_of_some, ih, List.map_cons]

theorem reduceOption_eq_nil_iff_all {M : Type*} {xs : List (Option M)} :
    xs.reduceOption = [] ↔ ∀ x ∈ xs, x = none := List.filterMap_eq_nil_iff

section

variable {M : Type*} [AddCommMonoid M] {xs ys : List (Option M)} {xss : List (List (Option M))}

/-- The sum of the known values. -/
def sumKnown (xs : List (Option M)) : Option M :=
  match xs.reduceOption with
  | [] => none
  | y :: ys => some (y :: ys).sum

/-- The sum of the values, if all are known. -/
def sumComplete (xs : List (Option M)) : Option M :=
  if xs.all Option.isSome then sumKnown xs else none

theorem sumKnown_eq_none_iff : sumKnown xs = none ↔ ∀ x ∈ xs, x = none := by
  rw [← reduceOption_eq_nil_iff_all, sumKnown]
  split <;> simp_all

theorem sumKnown_eq_some (h : xs.reduceOption ≠ []) : sumKnown xs = some xs.reduceOption.sum := by
  unfold sumKnown
  split
  · rename_i hnil
    exact absurd hnil h
  · rename_i hcons
    rw [hcons]

/-- The known sum, as a value and whether there is one. -/
theorem sumKnown_eq (xs : List (Option M)) :
    sumKnown xs = if xs.reduceOption = [] then none else some xs.reduceOption.sum := by
  split_ifs with h
  · exact sumKnown_eq_none_iff.2 (reduceOption_eq_nil_iff_all.1 h)
  · exact sumKnown_eq_some h

theorem sumKnown_congr (h : xs.reduceOption = ys.reduceOption) : sumKnown xs = sumKnown ys := by
  rw [sumKnown_eq, sumKnown_eq, h]

theorem sumComplete_eq_none_iff : sumComplete xs = none ↔ xs = [] ∨ none ∈ xs := by
  unfold sumComplete
  split_ifs with h
  · have hnone : none ∉ xs := fun hmem => by simpa using List.all_eq_true.1 h _ hmem
    rw [sumKnown_eq_none_iff, or_iff_left hnone]
    refine ⟨fun hall => List.eq_nil_iff_forall_not_mem.2 fun x hx => ?_, fun hnil => by simp [hnil]⟩
    exact hnone (hall x hx ▸ hx)
  · refine iff_of_true rfl (.inr ?_)
    rw [List.all_eq_true] at h
    push Not at h
    obtain ⟨x, hx, hnone⟩ := h
    exact Option.not_isSome_iff_eq_none.1 hnone ▸ hx

theorem sumComplete_of_known (h : none ∉ xs) : sumComplete xs = sumKnown xs := by
  refine if_pos (List.all_eq_true.2 fun x hx => ?_)
  rw [Option.isSome_iff_ne_none]
  rintro rfl
  exact h hx

theorem sumComplete_of_unknown (h : none ∈ xs) : sumComplete xs = none :=
  sumComplete_eq_none_iff.2 (.inr h)

/-- Known values are added with any value for the unknown ones. -/
theorem sum_reduceOption_of_known (h : none ∉ xs) :
    xs.reduceOption.sum = (xs.map fun x => x.getD 0).sum := by
  induction xs with
  | nil => rfl
  | cons x xs ih =>
    obtain ⟨hx, hxs⟩ := not_or.1 (mt List.mem_cons.2 h)
    obtain ⟨y, rfl⟩ := Option.ne_none_iff_exists'.1 (Ne.symm hx)
    rw [List.reduceOption_cons_of_some, List.sum_cons, ih hxs, List.map_cons, List.sum_cons,
      Option.getD_some]

theorem sumKnown_perm (h : xs.Perm ys) : sumKnown xs = sumKnown ys := by
  have hperm : xs.reduceOption.Perm ys.reduceOption := h.filterMap id
  have hnil : xs.reduceOption = [] ↔ ys.reduceOption = [] :=
    ⟨fun hx => (hx ▸ hperm).nil_eq.symm, fun hy => (hy ▸ hperm).eq_nil⟩
  simp only [sumKnown_eq, hnil, hperm.sum_eq]

theorem sumComplete_perm (h : xs.Perm ys) : sumComplete xs = sumComplete ys := by
  unfold sumComplete
  rw [sumKnown_perm h, h.all_eq]

/-! ### Groups -/

/-- Grouping does not matter to the known sum. -/
theorem sumKnown_map_sumKnown (xss : List (List (Option M))) :
    sumKnown (xss.map sumKnown) = sumKnown xss.flatten := by
  have hsum : (xss.map sumKnown).reduceOption.sum = xss.flatten.reduceOption.sum := by
    induction xss with
    | nil => rfl
    | cons xs xss ih =>
      rw [List.map_cons, List.flatten_cons, List.reduceOption_append, List.sum_append, ← ih,
        sumKnown_eq]
      split_ifs with h
      · rw [h, List.reduceOption_cons_of_none, List.sum_nil, zero_add]
      · rw [List.reduceOption_cons_of_some, List.sum_cons]
  have hnil : (xss.map sumKnown).reduceOption = [] ↔ xss.flatten.reduceOption = [] := by
    simp only [reduceOption_eq_nil_iff_all, List.mem_map, forall_exists_index, and_imp,
      forall_apply_eq_imp_iff₂, sumKnown_eq_none_iff, List.mem_flatten]
    exact ⟨fun h x xs hxs hx => h xs hxs x hx, fun h xs hxs x hx => h x xs hxs hx⟩
  rw [sumKnown_eq, sumKnown_eq xss.flatten]
  simp only [hnil, hsum]

/-- **When the known sums of the groups are the complete sum**: no value is unknown, or no group
has a complete sum. -/
theorem sumKnown_map_sumComplete_iff (xss : List (List (Option M))) :
    sumKnown (xss.map sumComplete) = sumComplete xss.flatten ↔
      none ∉ xss.flatten ∨ ∀ xs ∈ xss, xs = [] ∨ none ∈ xs := by
  by_cases h : none ∈ xss.flatten
  · rw [sumComplete_of_unknown h, sumKnown_eq_none_iff, or_iff_right (not_not_intro h)]
    simp [sumComplete_eq_none_iff]
  · refine iff_of_true ?_ (.inl h)
    rw [sumComplete_of_known h, ← sumKnown_map_sumKnown]
    congr 1
    refine List.map_congr_left fun xs hxs => sumComplete_of_known fun hnone => h ?_
    exact List.mem_flatten.2 ⟨xs, hxs, hnone⟩

end

/-! ### Parts that are left out -/

section

variable {M : Type*} [AddCancelCommMonoid M] {xs ys : List (Option M)}

/-- When the known values of a part can be left out. -/
theorem sumKnown_eq_append_iff :
    sumKnown xs = sumKnown (xs ++ ys) ↔
      (xs.reduceOption = [] → ys.reduceOption = []) ∧ ys.reduceOption.sum = 0 := by
  rw [sumKnown_eq, sumKnown_eq, List.reduceOption_append]
  by_cases hx : xs.reduceOption = []
  · by_cases hy : ys.reduceOption = []
    · simp [hx, hy]
    · simp [hx, hy]
  · simp [hx]

end

end TrackFlow
