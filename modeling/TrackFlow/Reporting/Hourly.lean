import TrackFlow.Reporting.Activation
import TrackFlow.Reporting.Sources

/-!
# Computed hourly rows

`compute_hourly_rollups` computes a dense grid, and the upsert overlays the table with it:
`Overlaid` says which rows the table has afterwards.  In the hours of the window the totals of
the rollups are those of the ledger (`Overlaid.total_inside`), elsewhere they are as before
(`Overlaid.total_outside`).
-/

namespace TrackFlow

namespace Reporting

/-- Some whole hours up to a cutoff. -/
structure WholeHours (window : RollupWindow) : Prop where
  start_dvd : hour ∣ window.start
  endAt_dvd : hour ∣ window.endAt
  cutoff_dvd : hour ∣ window.sourceCutoffAt
  start_lt : window.start < window.endAt
  endAt_le : window.endAt ≤ window.sourceCutoffAt

/-- A key of the grid that a window computes. -/
def InGrid (db : Ledger) (window : RollupWindow) (r : HourlyActivityRollup) : Prop :=
  window.start ≤ r.bucketStart ∧ r.bucketStart < window.endAt ∧ r.dim ∈ dimensions db

/-- The table `hourly` overlaid by the rows computed from the ledger for a window. -/
structure Overlaid (db : Ledger) (window : RollupWindow) (pipelineVersion : String)
    (hourly hourly' : Table HourlyActivityRollup.key) : Prop where
  outside : ∀ r, ¬ InGrid db window r → (r ∈ hourly'.rows ↔ r ∈ hourly.rows)
  inside : ∀ r ∈ hourly'.rows, InGrid db window r →
    (∀ m, r.counts m = sourceTotal db m r.bucketStart (r.bucketStart + hour) r.dim) ∧
      r.sourceCutoffAt = window.sourceCutoffAt ∧ r.pipelineVersion = pipelineVersion
  complete : ∀ b d, hour ∣ b → window.start ≤ b → b < window.endAt → d ∈ dimensions db →
    ∃ r ∈ hourly'.rows, r.bucketStart = b ∧ r.dim = d

section Computed

variable {db : Ledger} {window : RollupWindow} {pipelineVersion : String}
  {hourly hourly' : Table HourlyActivityRollup.key}

theorem mem_computeHourlyRollups (hs : hour ∣ window.start) (he : hour ∣ window.endAt)
    {row : HourlyRollupRow} : row ∈ computeHourlyRollups db window ↔
      ∃ b d, hour ∣ b ∧ window.start ≤ b ∧ b < window.endAt ∧ d ∈ dimensions db ∧
        row = ⟨b, d.1, d.2, fun m => (sourceTotal db m b (b + hour) d : ℕ)⟩ := by
  have hcell : ∀ {b} (d : Dimension) (m : Metric), hour ∣ b → window.start ≤ b → b < window.endAt →
      cellTotal hour SourceEvent.time SourceEvent.dim (·.amount m) (sourceEvents db) window.start
        window.endAt b d = sourceTotal db m b (b + hour) d := by
    intro b d m hb h₁ h₂
    rw [cellTotal_eq_spanTotal (by decide) hb, max_eq_right h₁,
      min_eq_right (add_le_of_dvd_of_lt hb he h₂)]
    rfl
  simp only [computeHourlyRollups, List.mem_flatMap, List.mem_map,
    mem_steps_iff (show 0 < hour by decide) hs he]
  constructor
  · rintro ⟨b, ⟨h₁, h₂, hb⟩, d, hd, rfl⟩
    exact ⟨b, d, hb, h₁, h₂, hd, by simp only [hcell d _ hb h₁ h₂]⟩
  · rintro ⟨b, d, hb, h₁, h₂, hd, rfl⟩
    exact ⟨b, ⟨h₁, h₂, hb⟩, d, hd, by simp only [hcell d _ hb h₁ h₂]⟩

/-- The rollup of a computed row. -/
theorem payloadRow_computed {b : ℕ} {d : Dimension} {total : Metric → ℕ} (hb : hour ∣ b) :
    payloadRow window pipelineVersion ⟨b, d.1, d.2, fun m => (total m : ℕ)⟩ =
      some ⟨b, d.1, d.2, total, window.sourceCutoffAt, pipelineVersion, hb⟩ := by
  simp [payloadRow, hb]

/-- No key of the grid occurs twice. -/
theorem nodup_grid : ((computeHourlyRollups db window).map fun row =>
    (row.bucketStart, (row.warehouse, row.clientId))).Nodup := by
  have hgrid : (computeHourlyRollups db window).map
      (fun row => (row.bucketStart, (row.warehouse, row.clientId))) =
        (steps hour window.start window.endAt).product (dimensions db) := by
    simp [computeHourlyRollups, List.product, List.map_flatMap, Function.comp_def]
  rw [hgrid]
  exact (nodup_steps (by decide) _ _).product (nodup_distinct _ _)

/-- The payload of computed rows: one rollup for every key of the grid. -/
theorem exists_payload (db : Ledger) (pipelineVersion : String) (hs : hour ∣ window.start)
    (he : hour ∣ window.endAt) :
    ∃ payload, (computeHourlyRollups db window).mapM (payloadRow window pipelineVersion) =
        some payload ∧
      (∀ r, r ∈ payload ↔ InGrid db window r ∧
        (∀ m, r.counts m = sourceTotal db m r.bucketStart (r.bucketStart + hour) r.dim) ∧
        r.sourceCutoffAt = window.sourceCutoffAt ∧ r.pipelineVersion = pipelineVersion) ∧
      KeysDistinct HourlyActivityRollup.key payload := by
  obtain ⟨payload, hp⟩ := exists_mapM_iff (f := payloadRow window pipelineVersion).2
      fun row hrow => by
    obtain ⟨b, d, hb, -, -, -, rfl⟩ := (mem_computeHourlyRollups hs he).1 hrow
    rw [payloadRow_computed hb]
    rfl
  refine ⟨payload, hp, fun r => ?_, ?_⟩
  · rw [mem_of_mapM hp]
    constructor
    · rintro ⟨row, hrow, hr⟩
      obtain ⟨b, d, hb, h₁, h₂, hd, rfl⟩ := (mem_computeHourlyRollups hs he).1 hrow
      rw [payloadRow_computed hb] at hr
      cases hr
      exact ⟨⟨h₁, h₂, hd⟩, fun _ => rfl, rfl, rfl⟩
    · rintro ⟨⟨h₁, h₂, hd⟩, hc, hsc, hv⟩
      refine ⟨_, (mem_computeHourlyRollups hs he).2
        ⟨r.bucketStart, r.dim, r.bucket_hour, h₁, h₂, hd, rfl⟩, ?_⟩
      rw [payloadRow_computed r.bucket_hour]
      simp only [← hc, ← hsc, ← hv]
      rfl
  · have hkeys := map_key_of_mapM HourlyActivityRollup.key
      (g := fun row : HourlyRollupRow => (row.bucketStart, (row.warehouse, row.clientId))) hp ?_
    · rw [KeysDistinct, hkeys]
      exact nodup_grid
    · intro row r hr
      unfold payloadRow at hr
      split_ifs at hr
      cases hr
      rfl

theorem InGrid.of_key {r r' : HourlyActivityRollup} (h : InGrid db window r) (hk : r'.key = r.key) :
    InGrid db window r' := by
  obtain ⟨hb, hd⟩ := Prod.mk.inj hk
  rw [InGrid, hb, hd]
  exact h

/-- Publishing rows that were computed from a ledger `db` overlays the table, whatever the ledger
is by then. -/
theorem Overlaid.of_candidate {current : Ledger} (hs : hour ∣ window.start)
    (he : hour ∣ window.endAt)
    (h : candidateHourly current hourly window (some (computeHourlyRollups db window))
      pipelineVersion = .ok hourly') : Overlaid db window pipelineVersion hourly hourly' := by
  obtain ⟨payload, hp, hmem, -⟩ := exists_payload db pipelineVersion hs he
  have hcomplete : ∀ b d, hour ∣ b → window.start ≤ b → b < window.endAt → d ∈ dimensions db →
      ∃ r ∈ payload, r.bucketStart = b ∧ r.dim = d := by
    intro b d hb h₁ h₂ hd
    exact ⟨⟨b, d.1, d.2, fun m => sourceTotal db m b (b + hour) d, _, _, hb⟩,
      (hmem _).2 ⟨⟨h₁, h₂, hd⟩, fun _ => rfl, rfl, rfl⟩, rfl, rfl⟩
  have hkey : ∀ r : HourlyActivityRollup, r.key ∈ payload.map HourlyActivityRollup.key ↔
      InGrid db window r := by
    intro r
    rw [List.mem_map]
    constructor
    · rintro ⟨r', hr', hk⟩
      exact ((hmem r').1 hr').1.of_key hk.symm
    · rintro ⟨h₁, h₂, hd⟩
      obtain ⟨r', hr', hb, hd'⟩ := hcomplete _ _ r.bucket_hour h₁ h₂ hd
      exact ⟨r', hr', Prod.ext hb hd'⟩
  have hrows : ∀ r, r ∈ hourly'.rows ↔
      (r ∈ hourly.rows ∧ ¬ InGrid db window r) ∨ r ∈ payload := by
    intro r
    simp only [candidateHourly] at h
    split_ifs at h with hnil
    · cases h
      obtain rfl : payload = [] := by
        rw [hnil] at hp
        simpa [eq_comm] using hp
      simp [← hkey]
    · obtain ⟨payload', hk, hp', rfl⟩ := upsertHourly_eq_ok h
      cases hp.symm.trans hp'
      rw [Table.mem_upsertAll, hkey]
  constructor
  · intro r hr
    rw [hrows]
    exact ⟨fun h' => h'.elim And.left fun h' => absurd ((hmem r).1 h').1 hr,
      fun h' => .inl ⟨h', hr⟩⟩
  · intro r hr hin
    exact ((hmem r).1 (((hrows r).1 hr).resolve_left fun h' => h'.2 hin)).2
  · intro b d hb h₁ h₂ hd
    obtain ⟨r, hr, hk⟩ := hcomplete b d hb h₁ h₂ hd
    exact ⟨r, (hrows r).2 (.inr hr), hk⟩

/-- The computed rows can always be published. -/
theorem exists_candidate (hourly : Table HourlyActivityRollup.key) (pipelineVersion : String)
    (hs : hour ∣ window.start) (he : hour ∣ window.endAt) (hc : ClientsExist db) :
    ∃ hourly', candidateHourly db hourly window (some (computeHourlyRollups db window))
      pipelineVersion = .ok hourly' := by
  obtain ⟨payload, hp, hmem, hk⟩ := exists_payload db pipelineVersion hs he
  have hclients : (payload.all fun r => clientExists db r.clientId) = true := by
    refine List.all_eq_true.2 fun r hr => ?_
    obtain ⟨sku, hsku, hd⟩ := mem_distinct.1 ((hmem r).1 hr).1.2.2
    obtain ⟨c, hcm, hid⟩ := hc sku hsku
    have hclient : sku.clientId = r.clientId := congrArg Prod.snd hd
    exact List.any_eq_true.2 ⟨c, hcm, by simp [hid, hclient]⟩
  simp only [candidateHourly]
  split_ifs
  · exact ⟨hourly, rfl⟩
  · simp [upsertHourly, hp, hclients, hk]

end Computed

/-! ## Totals -/

section Totals

variable {db : Ledger} {window : RollupWindow} {pipelineVersion : String}
  {hourly hourly' : Table HourlyActivityRollup.key} {m : Metric} {b s e : ℕ} {d : Dimension}

/-- In one hour of one dimension there is at most one rollup. -/
theorem hourlyTotal_eq_counts {r : HourlyActivityRollup} (hr : r ∈ hourly.rows) :
    hourlyTotal hourly.rows m r.bucketStart (r.bucketStart + hour) r.dim = r.counts m := by
  refine sumWhere_eq_single hourly.nodup.of_map hr fun r' hr' => ?_
  simp only [Bool.and_eq_true, decide_eq_true_eq]
  constructor
  · rintro ⟨⟨h₁, h₂⟩, hd⟩
    have hb := (floorTo_eq_iff (show 0 < hour by decide) r.bucket_hour).2 ⟨h₁, h₂⟩
    rw [(floorTo_eq_self_iff hour r'.bucketStart).2 r'.bucket_hour] at hb
    exact hourly.eq_of_key_eq hr' hr (Prod.ext hb hd)
  · rintro rfl
    exact ⟨⟨le_rfl, Nat.lt_add_of_pos_right (by decide)⟩, rfl⟩

theorem hourlyTotal_eq_zero (hb : hour ∣ b)
    (h : ∀ r ∈ hourly.rows, r.bucketStart = b → r.dim ≠ d) :
    hourlyTotal hourly.rows m b (b + hour) d = 0 := by
  refine spanTotal_eq_zero fun r hr h₁ h₂ hd => ?_
  have hrb : r.bucketStart = b := by
    have hf := (floorTo_eq_iff (show 0 < hour by decide) hb).2 ⟨h₁, h₂⟩
    rwa [(floorTo_eq_self_iff hour r.bucketStart).2 r.bucket_hour] at hf
  exact absurd hd (h r hr hrb)

/-- Inside the window the rollups are the ledger. -/
theorem Overlaid.total_inside (h : Overlaid db window pipelineVersion hourly hourly')
    (hb : hour ∣ b) (h₁ : window.start ≤ b) (h₂ : b < window.endAt) (hd : d ∈ dimensions db) :
    hourlyTotal hourly'.rows m b (b + hour) d = sourceTotal db m b (b + hour) d := by
  obtain ⟨r, hr, rfl, rfl⟩ := h.complete b d hb h₁ h₂ hd
  rw [hourlyTotal_eq_counts hr, (h.inside r hr ⟨h₁, h₂, hd⟩).1 m]

/-- Outside the window the rollups are as before. -/
theorem Overlaid.total_outside (h : Overlaid db window pipelineVersion hourly hourly')
    (hb : hour ∣ b) (hout : b < window.start ∨ window.endAt ≤ b ∨ d ∉ dimensions db) :
    hourlyTotal hourly'.rows m b (b + hour) d = hourlyTotal hourly.rows m b (b + hour) d := by
  have hnot : ∀ r : HourlyActivityRollup, r.bucketStart = b → r.dim = d →
      ¬ InGrid db window r := by
    rintro r rfl rfl ⟨h₁, h₂, h₃⟩
    rcases hout with hout | hout | hout
    · omega
    · omega
    · exact hout h₃
  by_cases hex : ∃ r ∈ hourly.rows, r.bucketStart = b ∧ r.dim = d
  · obtain ⟨r, hr, rfl, rfl⟩ := hex
    rw [hourlyTotal_eq_counts hr,
      hourlyTotal_eq_counts ((h.outside r (hnot r rfl rfl)).2 hr)]
  · have hex' : ∀ r ∈ hourly'.rows, r.bucketStart = b → r.dim ≠ d := fun r hr hrb hrd =>
      hex ⟨r, (h.outside r (hnot r hrb hrd)).1 hr, hrb, hrd⟩
    rw [hourlyTotal_eq_zero hb hex',
      hourlyTotal_eq_zero hb fun r hr hrb hrd => hex ⟨r, hr, hrb, hrd⟩]

end Totals

end Reporting

end TrackFlow
