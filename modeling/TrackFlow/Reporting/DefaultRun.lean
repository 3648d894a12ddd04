import TrackFlow.Inventory.Balances
import TrackFlow.Reporting.Hourly
import TrackFlow.Reporting.Soundness

/-!
# When a default run activates

The window of a default run ends at its cutoff, so after its upsert the rollups are the ledger
from the start of the window on.  What decides is what lies before it: `activates_iff` says that
the run activates if and only if the rollups of earlier runs agree with the ledger there, no week
has more discrepancies than dispatches, and the weekly table can hold the totals of the whole
weeks (`Activatable`).  The ledger has not been pruned.
-/

namespace TrackFlow

namespace Reporting

/-- The first hour that a reconciliation at `cutoff` compares, when the window starts at `start`. -/
def firstCompared (rows : List HourlyActivityRollup) (cutoff start : ℕ) : ℕ :=
  ((onTime cutoff rows).map (·.bucketStart)).foldl min start

/-- What a default run needs to activate: of the rollups `hourly` of earlier runs, and of the
ledger. -/
structure Activatable (db : Ledger) (hourly : List HourlyActivityRollup) (window : RollupWindow) :
    Prop where
  /-- Before the window, the rollups agree with the ledger in every weekly cell. -/
  agree : ∀ w d m, week ∣ w →
    hourlyTotal hourly m (max (firstCompared hourly window.sourceCutoffAt window.start) w)
        (min window.start (w + week)) d =
      sourceTotal db m (max (firstCompared hourly window.sourceCutoffAt window.start) w)
        (min window.start (w + week)) d
  /-- No weekly cell has more discrepancies than dispatches. -/
  denominator : ∀ w d, week ∣ w →
    sourceTotal db .discrepancyCount
        (max (firstCompared hourly window.sourceCutoffAt window.start) w)
        (min window.sourceCutoffAt (w + week)) d ≤
      sourceTotal db .dispatchOrderCount
        (max (firstCompared hourly window.sourceCutoffAt window.start) w)
        (min window.sourceCutoffAt (w + week)) d
  /-- The weekly table can hold the whole weeks. -/
  holds : ∀ w d, week ∣ w → firstCompared hourly window.sourceCutoffAt window.start ≤ w →
    w + week ≤ window.sourceCutoffAt →
    (weeklyRow d w fun m =>
      hourlyTotal (onTime window.sourceCutoffAt hourly) m w (min window.start (w + week)) d +
        sourceTotal db m (max w (min window.start (w + week))) (w + week) d).isSome

section FirstCompared

variable {rows : List HourlyActivityRollup} {cutoff start : ℕ}

theorem firstCompared_le : firstCompared rows cutoff start ≤ start :=
  (Ledger.foldl_min_le start _).1

theorem firstCompared_le_bucket {r : HourlyActivityRollup} (hr : r ∈ rows)
    (hc : r.sourceCutoffAt ≤ cutoff) : firstCompared rows cutoff start ≤ r.bucketStart :=
  (Ledger.foldl_min_le start _).2 _
    (List.mem_map_of_mem (List.mem_filter.2 ⟨hr, by simpa using hc⟩))

theorem firstCompared_eq (rows : List HourlyActivityRollup) (cutoff start : ℕ) :
    firstCompared rows cutoff start = start ∨ ∃ r ∈ rows, r.sourceCutoffAt ≤ cutoff ∧
      r.bucketStart = firstCompared rows cutoff start := by
  have hmem (t : ℕ) (ts : List ℕ) : ts.foldl min t = t ∨ ts.foldl min t ∈ ts := by
    induction ts generalizing t with
    | nil => exact .inl rfl
    | cons u ts ih =>
      rcases ih (min t u) with h | h
      · rw [List.foldl_cons, h]
        rcases min_choice t u with hm | hm
        · exact .inl hm
        · exact .inr (by rw [hm]; exact List.mem_cons_self)
      · exact .inr (List.mem_cons_of_mem u h)
  rcases hmem start ((onTime cutoff rows).map (·.bucketStart)) with h | h
  · exact .inl h
  · obtain ⟨r, hr, he⟩ := List.mem_map.1 h
    obtain ⟨hr, hc⟩ := List.mem_filter.1 hr
    exact .inr ⟨r, hr, by simpa using hc, he⟩

theorem firstCompared_dvd (h : hour ∣ start) : hour ∣ firstCompared rows cutoff start := by
  rcases firstCompared_eq rows cutoff start with he | ⟨r, -, -, he⟩
  · rw [he]
    exact h
  · rw [← he]
    exact r.bucket_hour

end FirstCompared

/-! ## The rollups after the upsert -/

section Overlay

variable {db : Ledger} {window : RollupWindow} {pipelineVersion : String}
  {hourly hourly' : Table HourlyActivityRollup.key} {m : Metric} {s e : ℕ} {d : Dimension}

theorem nodup_rows (t : Table HourlyActivityRollup.key) : t.rows.Nodup := t.nodup.of_map

/-- Before the window the rollups are as before: all of them, and those on time. -/
theorem Overlaid.span_before (h : Overlaid db window pipelineVersion hourly hourly')
    (he : e ≤ window.start) :
    hourlyTotal hourly'.rows m s e d = hourlyTotal hourly.rows m s e d := by
  refine spanTotal_congr_mem (nodup_rows hourly') (nodup_rows hourly) fun r _ hlt => ?_
  exact h.outside r fun hin => absurd (hin.1.trans_lt hlt) (not_lt.2 he)

theorem Overlaid.onTime_before {cutoff : ℕ}
    (h : Overlaid db window pipelineVersion hourly hourly') (he : e ≤ window.start) :
    hourlyTotal (onTime cutoff hourly'.rows) m s e d =
      hourlyTotal (onTime cutoff hourly.rows) m s e d := by
  refine spanTotal_congr_mem ((nodup_rows hourly').filter _) ((nodup_rows hourly).filter _)
    fun r _ hlt => ?_
  rw [onTime, onTime, List.mem_filter, List.mem_filter]
  refine and_congr_left fun _ => h.outside r fun hin => ?_
  exact absurd (hin.1.trans_lt hlt) (not_lt.2 he)

/-- Inside the window the rollups are the ledger. -/
theorem Overlaid.span_inside (h : Overlaid db window pipelineVersion hourly hourly')
    (hwf : WellFormed db) (hfk : ∀ r ∈ hourly.rows, r.dim ∈ dimensions db)
    (hs : hour ∣ s) (he : hour ∣ e) (h₁ : window.start ≤ s) (h₂ : e ≤ window.endAt) :
    hourlyTotal hourly'.rows m s e d = sourceTotal db m s e d := by
  refine spanTotal_eq_of_cells (by decide) hs he fun b hb hsb hbe => ?_
  by_cases hd : d ∈ dimensions db
  · exact h.total_inside hb (h₁.trans hsb) (hbe.trans_le h₂) hd
  · have hzero : sourceTotal db m b (b + hour) d = 0 := sourceTotal_eq_zero hwf hd
    refine Eq.trans ?_ hzero.symm
    refine hourlyTotal_eq_zero hb fun r hr _ hrd => hd (hrd ▸ ?_)
    by_cases hin : InGrid db window r
    · exact hin.2.2
    · exact hfk r ((h.outside r hin).1 hr)

/-- Inside the window every rollup is on time. -/
theorem Overlaid.onTime_inside (h : Overlaid db window pipelineVersion hourly hourly')
    (hfk : ∀ r ∈ hourly.rows, r.dim ∈ dimensions db) (h₁ : window.start ≤ s)
    (h₂ : e ≤ window.endAt) : hourlyTotal (onTime window.sourceCutoffAt hourly'.rows) m s e d =
      hourlyTotal hourly'.rows m s e d := by
  refine spanTotal_congr_mem ((nodup_rows hourly').filter _) (nodup_rows hourly')
    fun r hsr hre => ?_
  rw [onTime, List.mem_filter]
  refine and_iff_left_of_imp fun hr => ?_
  have hdim : r.dim ∈ dimensions db := by
    by_cases hin : InGrid db window r
    · exact hin.2.2
    · exact hfk r ((h.outside r hin).1 hr)
  have hcut := (h.inside r hr ⟨h₁.trans hsr, hre.trans_le h₂, hdim⟩).2.1
  simp [hcut]

end Overlay

/-! ## The parts of the activation -/

section Parts

variable {db : Ledger} {window : RollupWindow} {pipelineVersion : String}
  {hourly hourly' : Table HourlyActivityRollup.key}

/-- **The bounds of a default run** are the first rollup on time and the cutoff. -/
theorem bounds_of_overlaid (hov : Overlaid db window pipelineVersion hourly hourly')
    (hw : WholeHours window) (hend : window.endAt = window.sourceCutoffAt)
    (hdims : dimensions db ≠ []) (hpruned : prunedThrough db = none) :
    reconciliationBounds db hourly'.rows window.sourceCutoffAt =
      .ok (firstCompared hourly.rows window.sourceCutoffAt window.start,
        window.sourceCutoffAt) := by
  obtain ⟨d, hd⟩ := List.exists_mem_of_ne_nil _ hdims
  have hlt := hw.start_lt
  have hrow : ∀ b, hour ∣ b → window.start ≤ b → b < window.endAt →
      b ∈ (onTime window.sourceCutoffAt hourly'.rows).map (·.bucketStart) := by
    intro b hb h₁ h₂
    obtain ⟨r, hr, rfl, rfl⟩ := hov.complete b d hb h₁ h₂ hd
    have hcut := (hov.inside r hr ⟨h₁, h₂, hd⟩).2.1
    exact List.mem_map_of_mem (List.mem_filter.2 ⟨hr, by simp [hcut]⟩)
  have hstart := hrow window.start hw.start_dvd le_rfl hlt
  obtain ⟨first, hfirst⟩ : ∃ first,
      ((onTime window.sourceCutoffAt hourly'.rows).map (·.bucketStart)).min? = some first :=
    Option.isSome_iff_exists.1 (List.isSome_min?_of_mem hstart)
  obtain ⟨last, hlast⟩ : ∃ last,
      ((onTime window.sourceCutoffAt hourly'.rows).map (·.bucketStart)).max? = some last :=
    Option.isSome_iff_exists.1 (List.isSome_max?_of_mem hstart)
  obtain ⟨hfmem, hfle⟩ := List.min?_eq_some_iff.1 hfirst
  obtain ⟨hlmem, hlle⟩ := List.max?_eq_some_iff.1 hlast
  have hfdvd : hour ∣ first := by
    obtain ⟨r, -, rfl⟩ := List.mem_map.1 hfmem
    exact r.bucket_hour
  have hldvd : hour ∣ last := by
    obtain ⟨r, -, rfl⟩ := List.mem_map.1 hlmem
    exact r.bucket_hour
  -- the first rollup on time was there before, or begins the window
  have hfirst_eq : first = firstCompared hourly.rows window.sourceCutoffAt window.start := by
    refine le_antisymm ?_ ?_
    · rcases firstCompared_eq hourly.rows window.sourceCutoffAt window.start with
        he | ⟨r, hr, hc, he⟩
      · rw [he]
        exact hfle _ hstart
      · rw [← he]
        by_cases hin : InGrid db window r
        · exact hfle _ (hrow _ r.bucket_hour hin.1 hin.2.1)
        · refine hfle _ (List.mem_map_of_mem (List.mem_filter.2 ⟨(hov.outside r hin).2 hr, ?_⟩))
          simpa using hc
    · obtain ⟨r, hr, rfl⟩ := List.mem_map.1 hfmem
      obtain ⟨hr, hc⟩ := List.mem_filter.1 hr
      by_cases hin : InGrid db window r
      · exact firstCompared_le.trans hin.1
      · exact firstCompared_le_bucket ((hov.outside r hin).1 hr) (by simpa using hc)
  -- the last hour of the window has a rollup
  have hlast_le : window.sourceCutoffAt ≤ last + hour := by
    have hpos : 0 < hour := by decide
    have hge : window.start + hour ≤ window.endAt :=
      add_le_of_dvd_of_lt hw.start_dvd hw.endAt_dvd hlt
    have hin := hrow (window.endAt - hour) (Nat.dvd_sub hw.endAt_dvd dvd_rfl)
      (Nat.le_sub_of_add_le hge) (Nat.sub_lt (hlt.trans_le' (Nat.zero_le _)) hpos)
    have hle := hlle _ hin
    rw [← hend]
    exact Nat.sub_le_iff_le_add.1 hle
  have hbuckets : (hourly'.rows.filter fun r =>
      decide (r.sourceCutoffAt ≤ window.sourceCutoffAt)).map (·.bucketStart) =
        (onTime window.sourceCutoffAt hourly'.rows).map (·.bucketStart) := rfl
  have hff : floorHour first = first := (floorTo_eq_self_iff hour first).2 hfdvd
  have hfl : floorHour last = last := (floorTo_eq_self_iff hour last).2 hldvd
  have hfc : floorHour window.sourceCutoffAt = window.sourceCutoffAt :=
    (floorTo_eq_self_iff hour _).2 hw.cutoff_dvd
  have hnot : ¬ window.sourceCutoffAt ≤ first := by
    have hfs := hfle _ hstart
    omega
  rw [← hfirst_eq]
  simp only [reconciliationBounds, hbuckets, hfirst, hlast, hpruned, hff, hfl, hfc,
    min_eq_right hlast_le, if_neg hnot]

/-- A weekly cell of the rollups: before the window as it was, then the ledger. -/
theorem hourlyTotal_cell (hov : Overlaid db window pipelineVersion hourly hourly')
    (hw : WholeHours window) (hend : window.endAt = window.sourceCutoffAt) (hwf : WellFormed db)
    (hfk : ∀ r ∈ hourly.rows, r.dim ∈ dimensions db) {s w : ℕ} (hs : hour ∣ s) (hweek : week ∣ w)
    (m : Metric) (d : Dimension) :
    hourlyTotal hourly'.rows m (max s w) (min window.sourceCutoffAt (w + week)) d =
      hourlyTotal hourly.rows m (max s w) (min window.start (w + week)) d +
        sourceTotal db m (max (max s w) (min window.start (w + week)))
          (min window.sourceCutoffAt (w + week)) d := by
  have hlt := hw.start_lt
  have hwh : hour ∣ w := dvd_trans (by decide) hweek
  have hwe : hour ∣ w + week := (Nat.dvd_add_right hwh).2 (by decide)
  rw [hourlyTotal, spanTotal_cut (t := min window.start (w + week))
    (min_le_min_right _ (by omega))]
  refine congrArg₂ (· + ·) (hov.span_before (min_le_left _ _)) ?_
  rcases le_total window.start (w + week) with hle | hle
  · rw [min_eq_left hle]
    refine hov.span_inside hwf hfk (dvd_max (dvd_max hs hwh) hw.start_dvd)
      (dvd_min hw.cutoff_dvd hwe) (le_max_right _ _) ?_
    exact hend ▸ min_le_left _ _
  · -- the week ends before the window
    have hempty : min window.sourceCutoffAt (w + week) ≤
        max (max s w) (min window.start (w + week)) := by
      rw [min_eq_right hle]
      exact (min_le_right _ _).trans (le_max_right _ _)
    exact (spanTotal_of_le hempty).trans (spanTotal_of_le hempty).symm

/-- **The reconciliation of a default run.** -/
theorem reconciles_iff (hov : Overlaid db window pipelineVersion hourly hourly')
    (hw : WholeHours window) (hend : window.endAt = window.sourceCutoffAt) (hwf : WellFormed db)
    (hfk : ∀ r ∈ hourly.rows, r.dim ∈ dimensions db) {s : ℕ} (hs : hour ∣ s) :
    Reconciles db hourly'.rows s window.sourceCutoffAt ↔
      (∀ w d m, week ∣ w → hourlyTotal hourly.rows m (max s w) (min window.start (w + week)) d =
        sourceTotal db m (max s w) (min window.start (w + week)) d) ∧
      ∀ w d, week ∣ w →
        sourceTotal db .discrepancyCount (max s w) (min window.sourceCutoffAt (w + week)) d ≤
          sourceTotal db .dispatchOrderCount (max s w)
            (min window.sourceCutoffAt (w + week)) d := by
  have hlt := hw.start_lt
  have hexp {w : ℕ} (hweek : week ∣ w) (d : Dimension) (m : Metric) :
      expectedTotal db s window.sourceCutoffAt w d m =
        sourceTotal db m (max s w) (min window.sourceCutoffAt (w + week)) d :=
    cellTotal_eq_spanTotal (by decide) hweek
  have hact {w : ℕ} (hweek : week ∣ w) (d : Dimension) (m : Metric) :
      actualTotal hourly'.rows s window.sourceCutoffAt w d m =
        hourlyTotal hourly'.rows m (max s w) (min window.sourceCutoffAt (w + week)) d :=
    cellTotal_eq_spanTotal (by decide) hweek
  -- a cell agrees if and only if it agrees before the window
  have hcell {w : ℕ} (hweek : week ∣ w) (d : Dimension) (m : Metric) :
      expectedTotal db s window.sourceCutoffAt w d m =
          actualTotal hourly'.rows s window.sourceCutoffAt w d m ↔
        hourlyTotal hourly.rows m (max s w) (min window.start (w + week)) d =
          sourceTotal db m (max s w) (min window.start (w + week)) d := by
    have hsplit : sourceTotal db m (max s w) (min window.sourceCutoffAt (w + week)) d =
        sourceTotal db m (max s w) (min window.start (w + week)) d +
          sourceTotal db m (max (max s w) (min window.start (w + week)))
            (min window.sourceCutoffAt (w + week)) d :=
      spanTotal_cut (min_le_min_right _ (by omega))
    rw [hexp hweek, hact hweek, hsplit, hourlyTotal_cell hov hw hend hwf hfk hs hweek m d]
    omega
  constructor
  · intro h
    have hagree : ∀ w d m, week ∣ w → _ := fun w d m hweek => (hcell hweek d m).1 ((h w d).1 m)
    refine ⟨hagree, fun w d hweek => ?_⟩
    have hle := (h w d).2
    rwa [← (h w d).1 .discrepancyCount, ← (h w d).1 .dispatchOrderCount, hexp hweek,
      hexp hweek] at hle
  · rintro ⟨hagree, hden⟩ w d
    by_cases hweek : week ∣ w
    · have heq := fun m => (hcell hweek d m).2 (hagree w d m hweek)
      refine ⟨heq, ?_⟩
      rw [← heq .discrepancyCount, ← heq .dispatchOrderCount, hexp hweek, hexp hweek]
      exact hden w d hweek
    · -- no rows lie in a cell that is not a week
      refine ⟨fun m => ?_, ?_⟩
      · exact (cellTotal_eq_zero hweek).trans (cellTotal_eq_zero hweek).symm
      · exact (cellTotal_eq_zero hweek).trans_le (Nat.zero_le _)

/-- A whole week of the rollups on time: before the window as it was, then the ledger. -/
theorem onTime_week (hov : Overlaid db window pipelineVersion hourly hourly')
    (hw : WholeHours window) (hend : window.endAt = window.sourceCutoffAt) (hwf : WellFormed db)
    (hfk : ∀ r ∈ hourly.rows, r.dim ∈ dimensions db) {w : ℕ} (hweek : week ∣ w)
    (he : w + week ≤ window.sourceCutoffAt) (m : Metric) (d : Dimension) :
    hourlyTotal (onTime window.sourceCutoffAt hourly'.rows) m w (w + week) d =
      hourlyTotal (onTime window.sourceCutoffAt hourly.rows) m w (min window.start (w + week)) d +
        sourceTotal db m (max w (min window.start (w + week))) (w + week) d := by
  have hwh : hour ∣ w := dvd_trans (by decide) hweek
  have hwe : hour ∣ w + week := (Nat.dvd_add_right hwh).2 (by decide)
  rw [hourlyTotal, spanTotal_cut (t := min window.start (w + week)) (min_le_right _ _)]
  refine congrArg₂ (· + ·) (hov.onTime_before (min_le_left _ _)) ?_
  rcases le_total window.start (w + week) with hle | hle
  · rw [min_eq_left hle]
    have hin : hourlyTotal hourly'.rows m (max w window.start) (w + week) d =
        sourceTotal db m (max w window.start) (w + week) d :=
      hov.span_inside hwf hfk (dvd_max hwh hw.start_dvd) hwe (le_max_right _ _) (hend ▸ he)
    rw [← hin]
    exact hov.onTime_inside hfk (le_max_right _ _) (hend ▸ he)
  · -- the week ends before the window
    have hempty : w + week ≤ max w (min window.start (w + week)) := by
      rw [min_eq_right hle]
      exact le_max_right _ _
    exact (spanTotal_of_le hempty).trans (spanTotal_of_le hempty).symm

/-- The weekly table can hold a week without anything. -/
theorem weeklyRow_isSome_of_zero {d : Dimension} {w : ℕ} {total : Metric → ℕ} (hweek : week ∣ w)
    (h : ∀ m, total m = 0) : (weeklyRow d w total).isSome := by
  rw [weeklyRow_isSome_iff]
  refine ⟨?_, .inl (h _), hweek⟩
  simp only [Fits, h]
  decide

/-- **The weekly rows of a default run** can be written if and only if the table can hold every
whole week. -/
theorem exists_republished_iff (hov : Overlaid db window pipelineVersion hourly hourly')
    (hw : WholeHours window) (hend : window.endAt = window.sourceCutoffAt) (hwf : WellFormed db)
    (hclients : ClientsExist db) (hfk : ∀ r ∈ hourly.rows, r.dim ∈ dimensions db)
    (weekly : Table WeeklyPerformance.key) (s : ℕ) :
    (∃ n weekly', republished db weekly hourly'.rows
      (activatedWeeks s window.sourceCutoffAt window.sourceCutoffAt) window.sourceCutoffAt =
        .ok (n, weekly')) ↔
      ∀ w d, week ∣ w → s ≤ w → w + week ≤ window.sourceCutoffAt →
        (weeklyRow d w fun m =>
          hourlyTotal (onTime window.sourceCutoffAt hourly.rows) m w
              (min window.start (w + week)) d +
            sourceTotal db m (max w (min window.start (w + week))) (w + week) d).isSome := by
  obtain ⟨h₁, h₂⟩ := activatedWeeks_dvd (s, window.sourceCutoffAt) window.sourceCutoffAt
  set weeks := activatedWeeks s window.sourceCutoffAt window.sourceCutoffAt with hweeks
  have hfst : weeks.1 = ceilTo week s := activatedWeeks_fst s _ _
  have hsnd : weeks.2 = weekFloor window.sourceCutoffAt := min_self _
  have hdim : ∀ r ∈ hourly'.rows, r.dim ∈ dimensions db := by
    intro r hr
    by_cases hin : InGrid db window r
    · exact hin.2.2
    · exact hfk r ((hov.outside r hin).1 hr)
  constructor
  · rintro ⟨n, weekly', h⟩ w d hweek hs he
    have htotal :
        (fun m => hourlyTotal (onTime window.sourceCutoffAt hourly'.rows) m w (w + week) d) =
        fun m => _ := funext fun m => onTime_week hov hw hend hwf hfk hweek he m d
    rw [← htotal]
    have hlo : weeks.1 ≤ w := hfst ▸ (ceilTo_le_iff (by decide) hweek).2 hs
    have hhi : w + week ≤ weeks.2 :=
      hsnd ▸ (le_floorTo_iff (by decide) ((Nat.dvd_add_right hweek).2 dvd_rfl)).2 he
    by_cases hg : (w, d) ∈ weeklyGroups (onTime window.sourceCutoffAt hourly'.rows) weeks.1 weeks.2
    · obtain ⟨row, hrow⟩ := exists_weeklyRow h₁ h₂ h hg
      exact Option.isSome_iff_exists.2 ⟨row, hrow⟩
    · -- a week without a group has no rollups
      refine weeklyRow_isSome_of_zero hweek fun m => spanTotal_eq_zero fun r hr hrs hre hrd => ?_
      refine absurd (mem_weeklyGroups.2 ⟨r, hr, hlo.trans hrs, hre.trans_le hhi, ?_, hrd⟩) hg
      exact (floorTo_eq_iff (by decide) hweek).2 ⟨hrs, hre⟩
  · intro h
    unfold republished
    split_ifs with hlt
    · have hrows : ∀ k ∈ weeklyGroups (onTime window.sourceCutoffAt hourly'.rows) weeks.1 weeks.2,
          (weeklyRow k.2 k.1 (actualTotal (onTime window.sourceCutoffAt hourly'.rows) weeks.1
            weeks.2 k.1 k.2)).isSome := by
        intro k hk
        obtain ⟨hweek, hlo, -, hhi⟩ := group_bounds h₁ h₂ hk
        have hs : s ≤ k.1 := (le_ceilTo (by decide) s).trans (hfst ▸ hlo)
        have he : k.1 + week ≤ window.sourceCutoffAt := (hsnd ▸ hhi).trans (floorTo_le _ _)
        have htotal : (fun m => hourlyTotal (onTime window.sourceCutoffAt hourly'.rows) m k.1
            (k.1 + week) k.2) = fun m => _ :=
          funext fun m => onTime_week hov hw hend hwf hfk hweek he m k.2
        rw [actualTotal_group h₁ h₂ hk, htotal]
        exact h k.1 k.2 hweek hs he
      obtain ⟨payload, hp⟩ := exists_mapM_iff.2 hrows
      refine ⟨payload.length, _, upsertWeekly_eq_ok_iff.2
        ⟨payload, keysDistinct_weeklyRows hp, hp, fun row hrow => ?_, rfl, rfl⟩⟩
      obtain ⟨k, hk, hkr⟩ := (mem_of_mapM hp row).1 hrow
      obtain ⟨r, hr, -, -, -, hrd⟩ := mem_weeklyGroups.1 hk
      obtain ⟨sku, hsku, hd⟩ := mem_distinct.1 (hdim r (List.mem_of_mem_filter hr))
      obtain ⟨c, hcm, hid⟩ := hclients sku hsku
      have hclient : sku.clientId = row.clientId := by
        rw [(weeklyRow_eq_some hkr).2.1, ← hrd]
        exact congrArg Prod.snd hd
      exact List.any_eq_true.2 ⟨c, hcm, by simp [hid, hclient]⟩
    · exact ⟨_, _, rfl⟩

end Parts

/-! ## The activation -/

/-- Publishing keeps the active snapshot. -/
theorem activeSnapshot_published {s : RollupState} (h : s.ActiveSnapshot)
    (hl : s.lastCutoffAt = none → s.activeCutoffAt = none) (pipelineVersion : String)
    (cutoff now : ℕ) : (s.published pipelineVersion cutoff now).ActiveSnapshot := by
  rcases h with h | ⟨h₁, h₂, h₃, h₄, hle⟩
  · exact .inl h
  · refine .inr ⟨h₁, h₂, h₃, h₄, fun a ha l hlast => ?_⟩
    obtain rfl : max (s.lastCutoffAt.getD cutoff) cutoff = l := Option.some.inj hlast
    cases hla : s.lastCutoffAt with
    | none => simp [hl hla] at h₂
    | some last => exact (hle a ha last hla).trans (le_max_left _ _)

section Activates

variable {db : Database} {claim : Queue.RunClaim} {window : RollupWindow} {now : ℕ}

/-- **When a default run activates.**  On a ledger with SKUs that was not pruned, and if no
statement fails, the load of a default run that its claim owns activates if and only if the
rollups of earlier runs and the ledger are `Activatable`. -/
theorem activates_iff (ho : claim.Owned db.runs) (hwf : WellFormed db.ledger)
    (hclients : ClientsExist db.ledger)
    (hfk : ∀ r ∈ db.reporting.hourly.rows, r.dim ∈ dimensions db.ledger)
    (hstate : db.reporting.rollupState.1.lastCutoffAt = none →
      db.reporting.rollupState.1.activeCutoffAt = none)
    (hw : WholeHours window) (hend : window.endAt = window.sourceCutoffAt)
    (hdims : dimensions db.ledger ≠ []) (hpruned : prunedThrough db.ledger = none) :
    (∃ res db', activateReconciledRollups db claim window
      (some (computeHourlyRollups db.ledger window)) now rollupPipelineVersion (fun _ => none) =
        (.ok res, db')) ↔
      Activatable db.ledger db.reporting.hourly.rows window := by
  rw [activate_isOk_iff]
  have hcut : floorHour window.sourceCutoffAt = window.sourceCutoffAt :=
    (floorTo_eq_self_iff hour _).2 hw.cutoff_dvd
  have hfirst : hour ∣ firstCompared db.reporting.hourly.rows window.sourceCutoffAt window.start :=
    firstCompared_dvd hw.start_dvd
  constructor
  · rintro ⟨-, hourly, bounds, n, weekly, hact⟩
    have hov := Overlaid.of_candidate hw.start_dvd hw.endAt_dvd hact.hourly_eq
    have hbounds := bounds_of_overlaid hov hw hend hdims hpruned
    have hb := hact.bounds_eq
    have hrec := hact.reconciles
    have hweekly := hact.weekly_eq
    rw [hcut, hbounds, Except.ok.injEq] at hb
    subst hb
    rw [hcut] at hweekly
    obtain ⟨hagree, hden⟩ := (reconciles_iff hov hw hend hwf hfk hfirst).1 hrec
    exact ⟨hagree, hden,
      (exists_republished_iff hov hw hend hwf hclients hfk _ _).1 ⟨n, weekly, hweekly⟩⟩
  · rintro ⟨hagree, hden, hholds⟩
    obtain ⟨hourly, hh⟩ := exists_candidate db.reporting.hourly rollupPipelineVersion
      hw.start_dvd hw.endAt_dvd hclients
    have hov := Overlaid.of_candidate hw.start_dvd hw.endAt_dvd hh
    obtain ⟨n, weekly, hweekly⟩ :=
      (exists_republished_iff hov hw hend hwf hclients hfk db.reporting.weekly _).2 hholds
    refine ⟨rfl, hourly, (firstCompared db.reporting.hourly.rows window.sourceCutoffAt window.start,
      window.sourceCutoffAt), n, weekly, ?_⟩
    have hbounds := bounds_of_overlaid hov hw hend hdims hpruned
    constructor
    · exact ho
    · exact hh
    · exact activeSnapshot_published db.reporting.rollupState.2 hstate _ _ _
    · rw [hcut]
      exact hbounds
    · exact (reconciles_iff hov hw hend hwf hfk hfirst).2 ⟨hagree, hden⟩
    · rw [hcut]
      exact hweekly
    · rfl
    · exact ⟨_, rfl, le_max_right _ _⟩
    · exact fun _ _ => rfl

/-- Without SKUs there are no rollups, and nothing can be activated. -/
theorem not_accepts_of_no_dimensions
    (hfk : ∀ r ∈ db.reporting.hourly.rows, r.dim ∈ dimensions db.ledger)
    (hdims : dimensions db.ledger = []) :
    ¬ Accepts db claim window (some (computeHourlyRollups db.ledger window)) now
      rollupPipelineVersion (fun _ => none) := by
  rintro ⟨-, hourly, bounds, n, weekly, hact⟩
  have hempty : db.reporting.hourly.rows = [] := by
    refine List.eq_nil_iff_forall_not_mem.2 fun r hr => ?_
    have hd := hfk r hr
    rw [hdims] at hd
    exact List.not_mem_nil hd
  have hrows : computeHourlyRollups db.ledger window = [] := by
    simp [computeHourlyRollups, hdims]
  have hh := hact.hourly_eq
  rw [candidateHourly, hrows, if_pos rfl, Except.ok.injEq] at hh
  subst hh
  have hb := hact.bounds_eq
  simp [reconciliationBounds, hempty] at hb

end Activates

end Reporting

end TrackFlow
