import Mathlib.Data.Finset.Sort
import Mathlib.Data.String.Basic

/-!
# Scope strings

A set of scopes travels as one string, the sorted scopes with blanks between them.

* `scopes_scopeClaim` : parsing the claim of a set of scopes gives the set back, when no scope
  is empty or contains a blank.
* `isScope_of_mem_scopes` : what `scopes` returns is of that kind.
-/

namespace TrackFlow

namespace Identity

/-- `_scopes`: the non-empty parts of `value.split(" ")`. -/
def scopes (value : String) : Finset String :=
  (((value.toList.splitOn ' ').map String.ofList).filter (· ≠ "")).toFinset

instance isTrans_le : IsTrans String fun a b => a ≤ b := inferInstance

instance antisymm_le : Std.Antisymm fun a b : String => a ≤ b := inferInstance

/-- `" ".join(sorted(scopes))`. -/
def scopeClaim (scopes : Finset String) : String := String.intercalate " " scopes.sort

/-- A string that a scope string can hold as one scope. -/
def IsScope (scope : String) : Prop := scope ≠ "" ∧ ' ' ∉ scope.toList

instance (scope : String) : Decidable (IsScope scope) :=
  inferInstanceAs (Decidable (scope ≠ "" ∧ ' ' ∉ scope.toList))

/-- No part of a split contains the separator. -/
theorem notMem_of_mem_splitOn {α : Type*} [BEq α] [LawfulBEq α] {x : α} {xs part : List α}
    (h : part ∈ xs.splitOn x) : x ∉ part := by
  induction xs generalizing part with
  | nil =>
    rw [List.splitOn_nil, List.mem_singleton] at h
    exact h ▸ List.not_mem_nil
  | cons y ys ih =>
    rw [List.splitOn_cons_eq_if_modifyHead] at h
    split at h
    · rcases List.mem_cons.1 h with rfl | h
      · exact List.not_mem_nil
      · exact ih h
    · -- the head of the rest is extended by `y`, which is not the separator
      rename_i hy
      obtain ⟨head, tail, hht⟩ := List.exists_cons_of_ne_nil (List.splitOn_ne_nil x ys)
      rw [hht, List.modifyHead_cons] at h
      rcases List.mem_cons.1 h with rfl | h
      · have hhead : x ∉ head := ih (hht ▸ List.mem_cons_self)
        intro hx
        rcases List.mem_cons.1 hx with rfl | hx
        · simp at hy
        · exact hhead hx
      · exact ih (hht ▸ List.mem_cons_of_mem _ h)

/-- Every scope that is parsed is non-empty and free of blanks. -/
theorem isScope_of_mem_scopes {value scope : String} (h : scope ∈ scopes value) :
    IsScope scope := by
  rw [scopes, List.mem_toFinset, List.mem_filter, List.mem_map] at h
  obtain ⟨⟨part, hpart, rfl⟩, hne⟩ := h
  refine ⟨by simpa using hne, ?_⟩
  rw [String.toList_ofList]
  exact notMem_of_mem_splitOn hpart

/-- **Round trip.**  The claim of a set of scopes parses to that set. -/
theorem scopes_scopeClaim {s : Finset String} (hs : ∀ scope ∈ s, IsScope scope) :
    scopes (scopeClaim s) = s := by
  by_cases hnil : s.sort = []
  · have hempty : s = ∅ := by simpa using congrArg List.toFinset hnil
    subst hempty
    rw [scopeClaim, hnil, String.intercalate_nil]
    decide
  · have hparts : (scopeClaim s).toList.splitOn ' ' = s.sort.map String.toList := by
      rw [scopeClaim, String.toList_intercalate]
      refine List.splitOn_intercalate ' ' (fun part hpart => ?_) (by simpa using hnil)
      obtain ⟨scope, hscope, rfl⟩ := List.mem_map.1 hpart
      exact (hs scope ((Finset.mem_sort _).1 hscope)).2
    have hfilter : s.sort.filter (· ≠ "") = s.sort :=
      List.filter_eq_self.2 fun scope hscope => by
        simpa using (hs scope ((Finset.mem_sort _).1 hscope)).1
    rw [scopes, hparts, List.map_map]
    have hid : (String.ofList ∘ String.toList) = id := funext fun t => String.ofList_toList
    rw [hid, List.map_id, hfilter, Finset.sort_toFinset]

example : scopes " mcp:connect  incidents:read " = {"incidents:read", "mcp:connect"} := by decide

end Identity

end TrackFlow
