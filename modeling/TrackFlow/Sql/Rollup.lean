import TrackFlow.Sql.Aggregate
import TrackFlow.Time.Grid

/-!
# Rolling up rows that carry an instant

Rows of a type `ρ` carry an instant `time`, a dimension `dim` and an amount `f`.

* `spanTotal` is the sum over one dimension between two instants;
* `cellTotal` is the same for one cell of a grid, as `GROUP BY date_trunc(n, time), dim`
  computes it for the rows between two instants;
* `cellTotal_eq_spanTotal` : a cell is the span where the cell and the window overlap;
* `spanTotal_eq_sum_steps` : a span between grid points is the sum of its cells, so two sets of
  rows that agree on every cell agree on every coarser span (`spanTotal_eq_of_cells`);
* `spanTotal_eq_of_le_cells` : rows that stay below others on every cell, and reach them on a
  span, reach them on its end.
-/

namespace TrackFlow

variable {ρ ρ' δ M : Type*} [DecidableEq δ]

section

variable [AddCommMonoid M]

/-- The sum over the rows of dimension `d` with an instant in `[s, e)`. -/
def spanTotal (time : ρ → ℕ) (dim : ρ → δ) (f : ρ → M) (rows : List ρ) (s e : ℕ) (d : δ) : M :=
  sumWhere (fun r => decide (s ≤ time r) && decide (time r < e) && decide (dim r = d)) f rows

/-- The sum over the rows of dimension `d` in the grid cell `g` with an instant in `[s, e)`. -/
def cellTotal (n : ℕ) (time : ρ → ℕ) (dim : ρ → δ) (f : ρ → M) (rows : List ρ) (s e g : ℕ)
    (d : δ) : M :=
  sumWhere (fun r => decide (s ≤ time r) && decide (time r < e) &&
    decide (floorTo n (time r) = g) && decide (dim r = d)) f rows

variable {time : ρ → ℕ} {dim : ρ → δ} {f : ρ → M} {rows rows' : List ρ} {n s t e g : ℕ} {d : δ}

@[simp] theorem spanTotal_nil : spanTotal time dim f [] s e d = 0 := rfl

theorem spanTotal_append : spanTotal time dim f (rows ++ rows') s e d =
    spanTotal time dim f rows s e d + spanTotal time dim f rows' s e d :=
  sumWhere_append _ _ _ _

/-- The rows of a condition, and the others. -/
theorem spanTotal_filter_add (q : ρ → Bool) : spanTotal time dim f rows s e d =
    spanTotal time dim f (rows.filter q) s e d +
      spanTotal time dim f (rows.filter fun r => !q r) s e d := by
  simp only [spanTotal, sumWhere_filter]
  rw [sumWhere_split _ q]
  congr 1 <;> exact sumWhere_congr (fun r _ => Bool.and_comm _ _) fun _ _ _ => rfl

theorem spanTotal_of_le (h : e ≤ s) : spanTotal time dim f rows s e d = 0 := by
  refine sumWhere_eq_zero fun r _ hr => ?_
  simp only [Bool.and_eq_true, decide_eq_true_eq] at hr
  omega

theorem spanTotal_eq_zero (h : ∀ r ∈ rows, s ≤ time r → time r < e → dim r = d → f r = 0) :
    spanTotal time dim f rows s e d = 0 := by
  refine sumWhere_eq_zero fun r hr hp => ?_
  simp only [Bool.and_eq_true, decide_eq_true_eq] at hp
  exact h r hr hp.1.1 hp.1.2 hp.2

/-- Adjacent spans add up. -/
theorem spanTotal_add (hst : s ≤ t) (hte : t ≤ e) : spanTotal time dim f rows s e d =
    spanTotal time dim f rows s t d + spanTotal time dim f rows t e d := by
  unfold spanTotal
  rw [sumWhere_split _ (fun r => decide (time r < t))]
  congr 1 <;> refine sumWhere_congr (fun r _ => Bool.eq_iff_iff.2 ?_) fun _ _ _ => rfl
  · simp only [Bool.and_eq_true, decide_eq_true_eq]
    constructor
    · rintro ⟨⟨⟨h1, -⟩, h3⟩, h4⟩
      exact ⟨⟨h1, h4⟩, h3⟩
    · rintro ⟨⟨h1, h2⟩, h3⟩
      exact ⟨⟨⟨h1, by omega⟩, h3⟩, h2⟩
  · simp only [Bool.and_eq_true, Bool.not_eq_true', decide_eq_true_eq, decide_eq_false_iff_not]
    constructor
    · rintro ⟨⟨⟨-, h2⟩, h3⟩, h4⟩
      exact ⟨⟨by omega, h2⟩, h3⟩
    · rintro ⟨⟨h1, h2⟩, h3⟩
      exact ⟨⟨⟨by omega, h2⟩, h3⟩, by omega⟩

/-- A span cut at `t`, which may lie before its start. -/
theorem spanTotal_cut (hte : t ≤ e) : spanTotal time dim f rows s e d =
    spanTotal time dim f rows s t d + spanTotal time dim f rows (max s t) e d := by
  rcases le_total s t with hst | hts
  · rw [max_eq_right hst, spanTotal_add hst hte]
  · rw [max_eq_left hts, spanTotal_of_le hts, zero_add]

/-- Two sets of rows that agree between two instants have the same spans there. -/
theorem spanTotal_congr_mem {rows₁ rows₂ : List ρ} (h₁ : rows₁.Nodup) (h₂ : rows₂.Nodup)
    (h : ∀ r, s ≤ time r → time r < e → (r ∈ rows₁ ↔ r ∈ rows₂)) :
    spanTotal time dim f rows₁ s e d = spanTotal time dim f rows₂ s e d := by
  let inside (r : ρ) : Bool := decide (s ≤ time r) && decide (time r < e) && decide (dim r = d)
  have hperm : (rows₁.filter inside).Perm (rows₂.filter inside) := by
    rw [List.perm_ext_iff_of_nodup (h₁.filter _) (h₂.filter _)]
    intro r
    rw [List.mem_filter, List.mem_filter]
    refine and_congr_left fun hr => ?_
    simp only [inside, Bool.and_eq_true, decide_eq_true_eq] at hr
    exact h r hr.1.1 hr.1.2
  exact (hperm.map f).sum_eq

/-- A cell is where the grid and the window overlap. -/
theorem cellTotal_eq_spanTotal (hn : 0 < n) (hg : n ∣ g) : cellTotal n time dim f rows s e g d =
    spanTotal time dim f rows (max s g) (min e (g + n)) d := by
  refine sumWhere_congr (fun r _ => Bool.eq_iff_iff.2 ?_) fun _ _ _ => rfl
  simp only [Bool.and_eq_true, decide_eq_true_eq, floorTo_eq_iff hn hg, max_le_iff, lt_min_iff]
  tauto

theorem cellTotal_eq_zero (hg : ¬ n ∣ g) : cellTotal n time dim f rows s e g d = 0 := by
  refine sumWhere_eq_zero fun r _ hr => ?_
  simp only [Bool.and_eq_true, decide_eq_true_eq] at hr
  exact absurd (hr.1.2 ▸ dvd_floorTo n (time r)) hg

/-- **A span is the sum of its cells.** -/
theorem spanTotal_eq_sum_steps (hn : 0 < n) (hs : n ∣ s) (he : n ∣ e) :
    spanTotal time dim f rows s e d =
      ((steps n s e).map fun b => spanTotal time dim f rows b (b + n) d).sum := by
  have hgroups := sum_groups_eq (p := fun r : ρ =>
      decide (s ≤ time r) && decide (time r < e) && decide (dim r = d)) (f := f)
    (fun r => floorTo n (time r)) (nodup_steps hn s e) (?_ : ∀ r ∈ rows, _)
  · rw [spanTotal, ← hgroups]
    congr 1
    refine List.map_congr_left fun b hb => ?_
    obtain ⟨hsb, hbe, hb⟩ := (mem_steps_iff hn hs he).1 hb
    have hbn : b + n ≤ e := add_le_of_dvd_of_lt hb he hbe
    have hcell : spanTotal time dim f rows b (b + n) d =
        cellTotal n time dim f rows s e b d := by
      rw [cellTotal_eq_spanTotal hn hb, max_eq_right hsb, min_eq_right hbn]
    rw [hcell]
    exact sumWhere_congr (fun r _ => Bool.and_right_comm _ _ _) fun _ _ _ => rfl
  · intro r _ hp hk
    simp only [Bool.and_eq_true, decide_eq_true_eq] at hp
    refine absurd ((mem_steps_iff hn hs he).2 ⟨?_, ?_, dvd_floorTo n _⟩) hk
    · exact (le_floorTo_iff hn hs).2 hp.1.1
    · exact (floorTo_lt_iff hn he).2 hp.1.2

/-- Rows that agree on every cell agree on every span between grid points. -/
theorem spanTotal_eq_of_cells {time' : ρ' → ℕ} {dim' : ρ' → δ} {f' : ρ' → M} {xs : List ρ'}
    (hn : 0 < n) (hs : n ∣ s) (he : n ∣ e)
    (h : ∀ b, n ∣ b → s ≤ b → b < e →
      spanTotal time dim f rows b (b + n) d = spanTotal time' dim' f' xs b (b + n) d) :
    spanTotal time dim f rows s e d = spanTotal time' dim' f' xs s e d := by
  rw [spanTotal_eq_sum_steps hn hs he, spanTotal_eq_sum_steps hn hs he]
  congr 1
  refine List.map_congr_left fun b hb => ?_
  obtain ⟨h1, h2, h3⟩ := (mem_steps_iff hn hs he).1 hb
  exact h b h3 h1 h2

end

section Ordered

variable {time : ρ → ℕ} {dim : ρ → δ} {f : ρ → ℕ} {rows : List ρ} {s s' e e' : ℕ} {d : δ}

variable {time' : ρ' → ℕ} {dim' : ρ' → δ} {f' : ρ' → ℕ} {xs : List ρ'} {n t : ℕ}

/-- Rows that stay below others on every cell stay below them on every span. -/
theorem spanTotal_le_of_cells (hn : 0 < n) (hs : n ∣ s) (he : n ∣ e)
    (h : ∀ b, n ∣ b → s ≤ b → b < e →
      spanTotal time dim f rows b (b + n) d ≤ spanTotal time' dim' f' xs b (b + n) d) :
    spanTotal time dim f rows s e d ≤ spanTotal time' dim' f' xs s e d := by
  rw [spanTotal_eq_sum_steps hn hs he, spanTotal_eq_sum_steps hn hs he]
  refine List.sum_le_sum fun b hb => ?_
  obtain ⟨h1, h2, h3⟩ := (mem_steps_iff hn hs he).1 hb
  exact h b h3 h1 h2

/-- Rows that stay below others on every cell, and reach them on a span, reach them on its end. -/
theorem spanTotal_eq_of_le_cells (hn : 0 < n) (hs : n ∣ s) (ht : n ∣ t) (he : n ∣ e) (hst : s ≤ t)
    (h : ∀ b, n ∣ b → s ≤ b → b < e →
      spanTotal time dim f rows b (b + n) d ≤ spanTotal time' dim' f' xs b (b + n) d)
    (heq : spanTotal time dim f rows s e d = spanTotal time' dim' f' xs s e d) :
    spanTotal time dim f rows t e d = spanTotal time' dim' f' xs t e d := by
  rcases le_total t e with hte | het
  · have hhead : spanTotal time dim f rows s t d ≤ spanTotal time' dim' f' xs s t d :=
      spanTotal_le_of_cells hn hs ht fun b hb h1 h2 => h b hb h1 (h2.trans_le hte)
    have htail : spanTotal time dim f rows t e d ≤ spanTotal time' dim' f' xs t e d :=
      spanTotal_le_of_cells hn ht he fun b hb h1 h2 => h b hb (hst.trans h1) h2
    rw [spanTotal_add hst hte, spanTotal_add hst hte] at heq
    omega
  · rw [spanTotal_of_le het, spanTotal_of_le het]

end Ordered

end TrackFlow
