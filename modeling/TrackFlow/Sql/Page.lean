import Mathlib.Data.List.Sort
import Mathlib.Order.RelClasses

/-!
# Pages of an ordered query

`SELECT ... ORDER BY key LIMIT n OFFSET k`.  The rows come in whatever order the plan produces, and
rows with equal keys stay in that order, so two pages of one query fit together only if no two rows
have equal keys.

* `orderBy_eq_of_perm` : with distinct keys, the order of the rows before the sort is irrelevant.
* `flatMap_page` : consecutive pages make up a beginning of the rows.
* `page_eq_nil_iff` : the first empty page is the first behind the last row.
-/

namespace TrackFlow

namespace Page

variable {ρ κ : Type*}

/-- `LIMIT limit OFFSET offset`. -/
def page (limit offset : ℕ) (rows : List ρ) : List ρ := (rows.drop offset).take limit

/-- `ORDER BY key`. -/
def orderBy [LinearOrder κ] (key : ρ → κ) (rows : List ρ) : List ρ :=
  rows.insertionSort fun r r' => key r ≤ key r'

section OrderBy

variable [LinearOrder κ] {key : ρ → κ} {rows rows' : List ρ}

theorem perm_orderBy (key : ρ → κ) (rows : List ρ) : (orderBy key rows).Perm rows :=
  List.perm_insertionSort _ _

theorem pairwise_orderBy (key : ρ → κ) (rows : List ρ) :
    (orderBy key rows).Pairwise fun r r' => key r ≤ key r' := by
  have : Std.Total fun r r' : ρ => key r ≤ key r' := ⟨fun r r' => le_total (key r) (key r')⟩
  have : IsTrans ρ fun r r' => key r ≤ key r' := ⟨fun _ _ _ h h' => h.trans h'⟩
  exact List.pairwise_insertionSort _ _

/-- Rows with distinct keys come in strict order. -/
theorem pairwise_lt_orderBy (h : (rows.map key).Nodup) :
    (orderBy key rows).Pairwise fun r r' => key r < key r' := by
  have hne : (orderBy key rows).Pairwise fun r r' => key r ≠ key r' :=
    List.pairwise_map.1 (((perm_orderBy key rows).map key).nodup_iff.2 h)
  exact ((pairwise_orderBy key rows).and hne).imp fun h => lt_of_le_of_ne h.1 h.2

/-- **The plan does not matter** for rows with distinct keys. -/
theorem orderBy_eq_of_perm (h : (rows.map key).Nodup) (hperm : rows'.Perm rows) :
    orderBy key rows' = orderBy key rows := by
  have hall := (perm_orderBy key rows').trans (hperm.trans (perm_orderBy key rows).symm)
  refine hall.eq_of_pairwise (fun r r' hr hr' hle hle' => ?_) (pairwise_orderBy key rows')
    (pairwise_orderBy key rows)
  have hmem : r ∈ rows := (hperm.mem_iff.1 ((perm_orderBy key rows').mem_iff.1 hr))
  exact List.inj_on_of_nodup_map h hmem ((perm_orderBy key rows).mem_iff.1 hr')
    (le_antisymm hle hle')

end OrderBy

variable {limit : ℕ} (rows : List ρ)

/-- The first pages, one after the other. -/
theorem flatMap_page (n : ℕ) :
    (List.range n).flatMap (fun k => page limit (k * limit) rows) = rows.take (n * limit) := by
  induction n with
  | zero => simp
  | succ n ih =>
    rw [List.range_succ, List.flatMap_append, ih, List.flatMap_singleton, Nat.succ_mul,
      List.take_add]
    rfl

theorem page_eq_nil_iff (hl : 0 < limit) (offset : ℕ) :
    page limit offset rows = [] ↔ rows.length ≤ offset := by
  rw [page, List.take_eq_nil_iff, List.drop_eq_nil_iff]
  omega

end Page

end TrackFlow
