import Mathlib.Algebra.BigOperators.Group.List.Basic
import Mathlib.Algebra.Order.BigOperators.Group.List
import Mathlib.Algebra.Order.Group.Int
import Mathlib.Data.List.Dedup
import Mathlib.Data.List.Nodup
import Mathlib.Data.Option.Basic

/-!
# Sums over the rows of a table that satisfy a condition

`sumWhere p f rows` is `SELECT sum(f) FROM rows WHERE p`, with `0` for the empty sum.  The
lemmas say how it behaves when the rows grow, when the condition is split, and when the rows
are grouped by a key:

* `sumWhere_split` : a condition and its complement add up;
* `sumWhere_eq_of_sublist` : rows outside the condition do not matter;
* `sum_groups_eq` : the sums of distinct groups make up the sum of all rows when every row that
  contributes is in one of the groups.
-/

namespace TrackFlow

variable {ρ τ κ M : Type*}

section AddCommMonoid

variable [AddCommMonoid M]

/-- The sum of `f` over the rows that satisfy `p`. -/
def sumWhere (p : ρ → Bool) (f : ρ → M) (rows : List ρ) : M := ((rows.filter p).map f).sum

@[simp] theorem sumWhere_nil (p : ρ → Bool) (f : ρ → M) : sumWhere p f [] = 0 := rfl

@[simp] theorem sumWhere_cons (p : ρ → Bool) (f : ρ → M) (r : ρ) (rows : List ρ) :
    sumWhere p f (r :: rows) = (if p r then f r else 0) + sumWhere p f rows := by
  unfold sumWhere
  by_cases h : p r <;> simp [h]

@[simp] theorem sumWhere_append (p : ρ → Bool) (f : ρ → M) (rows rows' : List ρ) :
    sumWhere p f (rows ++ rows') = sumWhere p f rows + sumWhere p f rows' := by
  simp [sumWhere]

theorem sumWhere_congr {p q : ρ → Bool} {f g : ρ → M} {rows : List ρ}
    (hp : ∀ r ∈ rows, p r = q r) (hf : ∀ r ∈ rows, p r = true → f r = g r) :
    sumWhere p f rows = sumWhere q g rows := by
  induction rows with
  | nil => rfl
  | cons r rows ih =>
    have hr := hp r List.mem_cons_self
    rw [sumWhere_cons, sumWhere_cons, ih (fun x hx => hp x (List.mem_cons_of_mem _ hx))
      (fun x hx => hf x (List.mem_cons_of_mem _ hx)), hr]
    split_ifs with h
    · rw [hf r List.mem_cons_self (hr ▸ h)]
    · rfl

theorem sumWhere_eq_zero {p : ρ → Bool} {f : ρ → M} {rows : List ρ}
    (h : ∀ r ∈ rows, p r = true → f r = 0) : sumWhere p f rows = 0 := by
  induction rows with
  | nil => rfl
  | cons r rows ih =>
    rw [sumWhere_cons, ih fun x hx => h x (List.mem_cons_of_mem _ hx), add_zero]
    split_ifs with hr
    · exact h r List.mem_cons_self hr
    · rfl

/-- A condition splits into the rows that also satisfy `q` and those that do not. -/
theorem sumWhere_split (p q : ρ → Bool) (f : ρ → M) (rows : List ρ) :
    sumWhere p f rows =
      sumWhere (fun r => p r && q r) f rows + sumWhere (fun r => p r && !q r) f rows := by
  induction rows with
  | nil => simp
  | cons r rows ih =>
    simp only [sumWhere_cons, ih]
    cases p r <;> cases q r <;> simp [add_assoc, add_left_comm]

theorem sumWhere_filter (p q : ρ → Bool) (f : ρ → M) (rows : List ρ) :
    sumWhere p f (rows.filter q) = sumWhere (fun r => q r && p r) f rows := by
  simp only [sumWhere, List.filter_filter, Bool.and_comm]

theorem sumWhere_map (p : τ → Bool) (f : τ → M) (g : ρ → τ) (rows : List ρ) :
    sumWhere p f (rows.map g) = sumWhere (p ∘ g) (f ∘ g) rows := by
  induction rows with
  | nil => rfl
  | cons r rows ih => simp [ih]

/-- Summing over a join, row by row of the joined table. -/
theorem sumWhere_filterMap (p : τ → Bool) (f : τ → M) (g : ρ → Option τ) (rows : List ρ) :
    sumWhere p f (rows.filterMap g) =
      (rows.map fun r => (g r).elim 0 fun t => if p t then f t else 0).sum := by
  induction rows with
  | nil => rfl
  | cons r rows ih =>
    rw [List.filterMap_cons, List.map_cons, List.sum_cons, ← ih]
    cases g r with
    | none => exact (zero_add _).symm
    | some t => exact sumWhere_cons p f t _

/-- Summing over the rows of a smaller table that keeps every row of the condition. -/
theorem sumWhere_eq_of_filter_eq {p q : ρ → Bool} {f : ρ → M} {rows rows' : List ρ}
    (hpq : ∀ r, p r = true → q r = true) (h : rows'.filter q = rows.filter q) :
    sumWhere p f rows' = sumWhere p f rows := by
  have hq : ∀ l : List ρ, sumWhere p f l = sumWhere p f (l.filter q) := by
    intro l
    rw [sumWhere_filter]
    refine sumWhere_congr (fun r _ => ?_) fun _ _ _ => rfl
    cases hp : p r
    · simp
    · simp [hpq r hp]
  rw [hq rows', hq rows, h]

/-- A condition that only one row satisfies. -/
theorem sumWhere_eq_single {p : ρ → Bool} {f : ρ → M} {rows : List ρ} {r : ρ} (hn : rows.Nodup)
    (hr : r ∈ rows) (hp : ∀ r' ∈ rows, p r' = true ↔ r' = r) : sumWhere p f rows = f r := by
  induction rows with
  | nil => cases hr
  | cons a rows ih =>
    obtain ⟨ha, hn'⟩ := List.nodup_cons.1 hn
    have htail := fun r' hr' => hp r' (List.mem_cons_of_mem _ hr')
    rw [sumWhere_cons]
    rcases List.mem_cons.1 hr with rfl | hr'
    · have hzero : sumWhere p f rows = 0 :=
        sumWhere_eq_zero fun r' hr' hpr => absurd ((htail r' hr').1 hpr ▸ hr') ha
      rw [if_pos ((hp r List.mem_cons_self).2 rfl), hzero, add_zero]
    · have hne : ¬ p a = true := fun hpa => ha ((hp a List.mem_cons_self).1 hpa ▸ hr')
      rw [if_neg hne, zero_add, ih hn' hr' htail]

theorem sumWhere_perm {p : ρ → Bool} {f : ρ → M} {rows rows' : List ρ} (h : rows.Perm rows') :
    sumWhere p f rows = sumWhere p f rows' :=
  ((h.filter p).map f).sum_eq

/-- In a list without repetition at most one element is the key `k₀`. -/
theorem sum_map_ite_key [DecidableEq κ] {ks : List κ} (hks : ks.Nodup) (k₀ : κ) (c : M) :
    (ks.map fun k => if k₀ = k then c else 0).sum = if k₀ ∈ ks then c else 0 := by
  induction ks with
  | nil => simp
  | cons k ks ih =>
    obtain ⟨hk, hks'⟩ := List.nodup_cons.1 hks
    rw [List.map_cons, List.sum_cons, ih hks']
    by_cases he : k₀ = k
    · subst he; simp [hk]
    · simp [he]

/-- **Grouping.**  When every contributing row belongs to one of the (distinct) groups, the
sums of the groups add up to the whole. -/
theorem sum_groups_eq [DecidableEq κ] {p : ρ → Bool} {f : ρ → M} (key : ρ → κ) {ks : List κ}
    {rows : List ρ} (hks : ks.Nodup) (hmem : ∀ r ∈ rows, p r = true → key r ∉ ks → f r = 0) :
    (ks.map fun k => sumWhere (fun r => p r && decide (key r = k)) f rows).sum =
      sumWhere p f rows := by
  induction rows with
  | nil => simp
  | cons r rows ih =>
    have ih' := ih fun x hx => hmem x (List.mem_cons_of_mem _ hx)
    simp only [sumWhere_cons, List.sum_map_add, ih']
    congr 1
    cases hp : p r
    · simp
    · have hone := sum_map_ite_key hks (key r) (f r)
      by_cases hk : key r ∈ ks
      · simpa [hk] using hone
      · have h0 : f r = 0 := hmem r List.mem_cons_self hp hk
        simp [h0]

end AddCommMonoid

section Ordered

variable [AddCommMonoid M] [PartialOrder M] [IsOrderedAddMonoid M]

theorem sumWhere_nonneg {p : ρ → Bool} {f : ρ → M} {rows : List ρ}
    (h : ∀ r ∈ rows, p r = true → 0 ≤ f r) : 0 ≤ sumWhere p f rows := by
  induction rows with
  | nil => simp
  | cons r rows ih =>
    rw [sumWhere_cons]
    refine add_nonneg ?_ (ih fun x hx => h x (List.mem_cons_of_mem _ hx))
    split_ifs with hr
    · exact h r List.mem_cons_self hr
    · exact le_rfl

end Ordered

/-! ### Distinct values -/

section Distinct

variable [DecidableEq κ]

/-- `SELECT DISTINCT key FROM rows`. -/
def distinct (key : ρ → κ) (rows : List ρ) : List κ := (rows.map key).dedup

@[simp] theorem mem_distinct {key : ρ → κ} {rows : List ρ} {k : κ} :
    k ∈ distinct key rows ↔ ∃ r ∈ rows, key r = k := by
  simp [distinct]

theorem nodup_distinct (key : ρ → κ) (rows : List ρ) : (distinct key rows).Nodup :=
  List.nodup_dedup _

end Distinct

/-! ## Rows that may fail to be built -/

section MapM

variable {f : ρ → Option τ} {rows : List ρ} {ts : List τ}

/-- A statement that builds a row from every row it selects succeeds if all of them can be
built. -/
theorem mapM_eq_some_iff : rows.mapM f = some ts ↔ rows.map f = ts.map some := by
  induction rows generalizing ts with
  | nil => cases ts <;> simp
  | cons r rows ih =>
    cases ts with
    | nil => simp [List.mapM_cons, Option.bind_eq_some_iff]
    | cons t ts => simp [List.mapM_cons, Option.bind_eq_some_iff, ih]

theorem mem_of_mapM (h : rows.mapM f = some ts) (t : τ) : t ∈ ts ↔ ∃ r ∈ rows, f r = some t := by
  rw [← List.mem_map_of_injective (Option.some_injective τ), ← mapM_eq_some_iff.1 h, List.mem_map]

theorem exists_mapM_iff : (∃ ts, rows.mapM f = some ts) ↔ ∀ r ∈ rows, (f r).isSome := by
  constructor
  · rintro ⟨ts, h⟩ r hr
    have hf : f r ∈ ts.map some := mapM_eq_some_iff.1 h ▸ List.mem_map_of_mem hr
    obtain ⟨t, -, ht⟩ := List.mem_map.1 hf
    exact ht ▸ rfl
  · intro h
    induction rows with
    | nil => exact ⟨[], rfl⟩
    | cons r rows ih =>
      obtain ⟨ts, hts⟩ := ih fun r' hr' => h r' (List.mem_cons_of_mem _ hr')
      obtain ⟨t, ht⟩ := Option.isSome_iff_exists.1 (h r List.mem_cons_self)
      exact ⟨t :: ts, by simp [List.mapM_cons, ht, hts]⟩

/-- The built rows have the keys of the selected ones. -/
theorem map_key_of_mapM (key : τ → κ) {g : ρ → κ} (h : rows.mapM f = some ts)
    (hg : ∀ r t, f r = some t → key t = g r) : ts.map key = rows.map g := by
  induction rows generalizing ts with
  | nil =>
    obtain rfl : ts = [] := by simpa using (mapM_eq_some_iff.1 h).symm
    rfl
  | cons r rows ih =>
    cases ts with
    | nil => simp [List.mapM_cons, Option.bind_eq_some_iff] at h
    | cons t ts =>
      obtain ⟨hr, hrows⟩ : f r = some t ∧ rows.mapM f = some ts := by
        simpa [List.mapM_cons, Option.bind_eq_some_iff] using h
      rw [List.map_cons, List.map_cons, hg r t hr, ih hrows]

/-- A computation that may raise, and does not. -/
theorem mapM_eq_ok {ε : Type*} {f : ρ → Except ε τ} {g : ρ → τ} {rows : List ρ}
    (h : ∀ r ∈ rows, f r = .ok (g r)) : rows.mapM f = .ok (rows.map g) := by
  induction rows with
  | nil => rfl
  | cons r rows ih =>
    rw [List.mapM_cons, h r List.mem_cons_self, ih fun r' hr' => h r' (List.mem_cons_of_mem _ hr')]
    rfl

end MapM

end TrackFlow
