import TrackFlow.Pipeline.Coverage

/-!
# A prune and the rollups that reconciled before it

A prune records its cutoff, and from then on a reconciliation starts at the first hour that the
prune left whole, `ceilHour` of the cutoff.  But the prune deletes a discrepancy with its
dispatch, however late it was detected: a discrepancy inside the hours that are still compared
can be gone (`late_discrepancy_breaks_reconciliation`).

`prune_keeps_reconciliation_iff` says when a prune removes no row from these hours and leaves
reconciled what was reconciled before.
-/

namespace TrackFlow

namespace Pipeline

open Reporting

namespace Platform

/-- Calls of the inventory service, runs, and what the queue does. -/
def recordsOrRuns : Event → Bool
  | .service _ | .queue _ | .extract _ _ | .transform _ | .load _ _ _ => true
  | _ => false

/-- Rollups that a reconciliation at a cutoff finds exact. -/
def Verified (db : Ledger) (rows : List HourlyActivityRollup) (cutoff : ℕ) : Prop :=
  ∃ bounds, reconciliationBounds db rows cutoff = .ok bounds ∧ Reconciles db rows bounds.1 bounds.2

theorem verified_iff {db : Ledger} {rows : List HourlyActivityRollup} {cutoff : ℕ} :
    Verified db rows cutoff ↔ (match reconciliationBounds db rows cutoff with
      | .ok bounds => (reconciliationResult db rows bounds.1 bounds.2).exact
      | .error _ => false) = true := by
  unfold Verified
  cases reconciliationBounds db rows cutoff with
  | ok bounds => simp [exact_iff]
  | error e => simp

instance (db : Ledger) (rows : List HourlyActivityRollup) (cutoff : ℕ) :
    Decidable (Verified db rows cutoff) :=
  decidable_of_iff _ verified_iff.symm

/-- No row at or after the first hour left whole is gone, and what reconciled still does. -/
structure Undisturbed (db db' : Ledger) (rows : List HourlyActivityRollup) (pruned cutoff : ℕ) :
    Prop where
  entries : ∀ e ∈ db.stockEntries, ceilHour pruned ≤ e.createdAt → e ∈ db'.stockEntries
  exits : ∀ x ∈ db.stockExits, ceilHour pruned ≤ x.createdAt → x ∈ db'.stockExits
  stockouts : ∀ v ∈ db.stockoutEvents, ceilHour pruned ≤ v.occurredAt → v ∈ db'.stockoutEvents
  discrepancies : ∀ d ∈ db.inventoryDiscrepancies, ceilHour pruned ≤ d.detectedAt →
    d ∈ db'.inventoryDiscrepancies
  verified : Verified db rows cutoff → Verified db' rows cutoff

/-- What a prune at `pruned` needs of the ledger and the rollups before it. -/
structure Prunable (db : Ledger) (rows : List HourlyActivityRollup) (pruned cutoff : ℕ) : Prop where
  /-- A discrepancy of a dispatch before the cutoff was detected before the hours left whole. -/
  detected : ∀ d ∈ db.inventoryDiscrepancies, ∀ x ∈ db.stockExits, x.id = d.stockExitId →
    x.createdAt < pruned → d.detectedAt < ceilHour pruned
  /-- Of what has reconciled, an hour is left whole, and the hours left whole have in no week
  more discrepancies than dispatches. -/
  retained : ∀ start endAt, reconciliationBounds db rows cutoff = .ok (start, endAt) →
    Reconciles db rows start endAt → ceilHour pruned < endAt ∧ ∀ w d, week ∣ w →
      sourceTotal db .discrepancyCount (max (max start (ceilHour pruned)) w)
          (min endAt (w + week)) d ≤
        sourceTotal db .dispatchOrderCount (max (max start (ceilHour pruned)) w)
          (min endAt (w + week)) d

/-! ## Rollups of a ledger that only grows -/

/-- What service calls and runs leave behind. -/
structure Rolled (s : Platform) : Prop where
  sane : Sane s
  checkpoints : s.db.ledger.stockLedgerCheckpoints = .empty
  /-- No hour was rolled up to more than the ledger has. -/
  below : ∀ b d m, hour ∣ b → hourlyTotal s.db.reporting.hourly.rows m b (b + hour) d ≤
    sourceTotal s.db.ledger m b (b + hour) d
  /-- The ledger that a run has read was no larger. -/
  source : ∀ f source, s.flight = some f → f.source = some source →
    ∀ m t e d, sourceTotal source m t e d ≤ sourceTotal s.db.ledger m t e d

section Rolled

variable {s s' : Platform} {e : Event}

/-- Runs leave the ledger alone. -/
theorem ledger_of_recordsOrRuns (he : recordsOrRuns e = true) (h : s.next e = some s') :
    s'.db.ledger = s.db.ledger ∨ ∃ op : LedgerOp, op.perform s.db.ledger = .ok s'.db.ledger := by
  cases e with
  | service op =>
    simp only [next] at h
    split at h
    · cases h
    · rename_i ledger hp
      cases h
      exact .inr ⟨op, hp⟩
  | queue runs =>
    cases h
    exact .inl rfl
  | extract claim now =>
    obtain ⟨db, hs, hled, -⟩ := extract_eq_some h
    rw [hs]
    exact .inl hled
  | transform now =>
    obtain ⟨claim, window, db, -, hs, hled, -⟩ := transform_eq_some h
    rw [hs]
    exact .inl hled
  | load now cutover faults =>
    obtain ⟨claim, window, source, db, -, hled, -, -, hload⟩ := load_eq_some h
    rcases hload with ⟨-, hled', -⟩ | ⟨⟨metrics, hl⟩, -⟩
    · exact .inl hled'
    · have hledger : s'.db.ledger = db.ledger := by
        have hstage := congrArg (fun r => r.2.ledger) hl
        exact hstage.symm.trans ledger_loadStage
      exact .inl (hledger.trans hled)
  | _ => cases he

/-- Nothing that is recorded is lost. -/
theorem sourceTotal_le_next (hs : Sane s) (he : recordsOrRuns e = true) (h : s.next e = some s')
    (m : Metric) (t u : ℕ) (d : Dimension) :
    sourceTotal s.db.ledger m t u d ≤ sourceTotal s'.db.ledger m t u d := by
  rcases ledger_of_recordsOrRuns he h with hl | ⟨op, hop⟩
  · rw [hl]
  · exact sourceTotal_le_perform hs.wellFormed hop

theorem Rolled.next (hs : Rolled s) (he : recordsOrRuns e = true) (h : s.next e = some s') :
    Rolled s' := by
  have hle := sourceTotal_le_next hs.sane he h
  obtain ⟨-, hr, hf⟩ := step_of_next h
  refine ⟨hs.sane.next h, ?_, fun b d m hb => ?_, fun f source hf' hsrc m t u d => ?_⟩
  · rcases ledger_of_recordsOrRuns he h with hl | ⟨op, hop⟩
    · rw [hl]
      exact hs.checkpoints
    · exact (LedgerOp.perform_eq_ok hop).checkpoints.trans hs.checkpoints
  · cases hr with
    | same hr _ _ =>
      rw [hr]
      exact (hs.below b d m hb).trans (hle m b (b + hour) d)
    | reset boundary he' _ _ =>
      rw [he'] at he
      cases he
    | load _ _ _ _ claim window source db hfl _ hrep hload _ _ _ =>
      have hw := hs.sane.window _ hfl
      have hov := Overlaid.of_candidate hw.start_dvd hw.endAt_dvd (hload hw.cutoff_dvd).hourly
      rw [hrep] at hov
      by_cases hin : window.start ≤ b ∧ b < window.endAt ∧ d ∈ dimensions source
      · rw [hov.total_inside hb hin.1 hin.2.1 hin.2.2]
        exact (hs.source _ source hfl rfl m b (b + hour) d).trans (hle m b (b + hour) d)
      · have hout : b < window.start ∨ window.endAt ≤ b ∨ d ∉ dimensions source := by
          by_contra hno
          push Not at hno
          exact hin hno
        rw [hov.total_outside hb hout]
        exact (hs.below b d m hb).trans (hle m b (b + hour) d)
  · cases hf with
    | same h' => exact (hs.source f source (h' ▸ hf') hsrc m t u d).trans (hle m t u d)
    | none h' => simp [h'] at hf'
    | extract claim now window _ _ h' =>
      obtain rfl : f = _ := Option.some.inj (hf'.symm.trans h')
      cases hsrc
    | transform claim window _ h' =>
      obtain rfl : f = _ := Option.some.inj (hf'.symm.trans h')
      cases hsrc
      exact hle m t u d

theorem Rolled.run {runs : Table Queue.PipelineRun.id}
    (h : machine.Run (fun _ e => recordsOrRuns e = true) (start .empty runs none) s) :
    Rolled s := by
  refine h.invariant Rolled ?_ fun _ _ _ hs he hn => hs.next he hn
  refine ⟨Sane.start wellFormed_empty clientsExist_empty runs none, rfl, fun b d m _ => ?_, ?_⟩
  · exact Nat.zero_le _
  · simp [start]

end Rolled

/-! ## What a prune leaves whole -/

/-- What is gone lies before an instant. -/
structure KeptFrom (t : ℕ) (db db' : Ledger) : Prop where
  skus : db'.skus = db.skus
  entries : ∃ q : StockEntry → Bool, db'.stockEntries = db.stockEntries.filter q ∧
    ∀ e ∈ db.stockEntries, q e = false → e.createdAt < t
  exits : ∃ q : StockExit → Bool, db'.stockExits = db.stockExits.filter q ∧
    ∀ x ∈ db.stockExits, q x = false → x.createdAt < t
  stockouts : ∃ q : StockoutEvent → Bool, db'.stockoutEvents = db.stockoutEvents.filter q ∧
    ∀ v ∈ db.stockoutEvents, q v = false → v.occurredAt < t
  discrepancies : ∃ q : InventoryDiscrepancy → Bool,
    db'.inventoryDiscrepancies = db.inventoryDiscrepancies.filter q ∧
      ∀ d ∈ db.inventoryDiscrepancies, q d = false → d.detectedAt < t

section Kept

variable {db db' : Ledger} {rows : List HourlyActivityRollup} {pruned cutoff t start endAt : ℕ}

/-- A row that is not gone is still there. -/
theorem mem_of_filter {ρ : Type} {time : ρ → ℕ} {xs xs' : List ρ}
    (h : ∃ q : ρ → Bool, xs' = xs.filter q ∧ ∀ r ∈ xs, q r = false → time r < t) {r : ρ}
    (hr : r ∈ xs) (ht : t ≤ time r) : r ∈ xs' := by
  obtain ⟨q, rfl, hq⟩ := h
  refine List.mem_filter.2 ⟨hr, ?_⟩
  by_contra hf
  exact absurd (hq r hr (Bool.eq_false_iff.2 hf)) (not_lt.2 ht)

theorem KeptFrom.sourceTotal_eq (h : KeptFrom t db db') {s : ℕ} (hs : t ≤ s) (m : Metric) (e : ℕ)
    (d : Dimension) : sourceTotal db' m s e d = sourceTotal db m s e d := by
  obtain ⟨qe, he, hqe⟩ := h.entries
  obtain ⟨qx, hx, hqx⟩ := h.exits
  obtain ⟨qv, hv, hqv⟩ := h.stockouts
  obtain ⟨qd, hd, hqd⟩ := h.discrepancies
  exact sourceTotal_of_filters h.skus he hx hv hd (fun r hr hf => (hqe r hr hf).trans_le hs)
    (fun r hr hf => (hqx r hr hf).trans_le hs) (fun r hr hf => (hqv r hr hf).trans_le hs)
    fun r hr hf => (hqd r hr hf).trans_le hs

/-- A stockout is as old as its exit; a discrepancy may be younger than its dispatch. -/
theorem keptFrom_of_deleted (hwf : WellFormed db) (h : Ledger.Deleted pruned db db')
    (hd : ∀ d ∈ db.inventoryDiscrepancies, ∀ x ∈ db.stockExits, x.id = d.stockExitId →
      x.createdAt < pruned → d.detectedAt < ceilHour pruned) :
    KeptFrom (ceilHour pruned) db db' := by
  have hceil : pruned ≤ ceilHour pruned := le_ceilTo (by decide) pruned
  obtain ⟨qe, he, hqe⟩ := h.entries
  obtain ⟨qx, hx, hqx⟩ := h.exits
  obtain ⟨qv, hv, hqv⟩ := h.stockouts
  obtain ⟨qd, hq, hqd⟩ := h.discrepancies
  refine ⟨h.skus, ⟨qe, he, fun e hm hf => (hqe e hm hf).trans_le hceil⟩,
    ⟨qx, hx, fun x hm hf => (hqx x hm hf).trans_le hceil⟩, ⟨qv, hv, fun v hm hf => ?_⟩,
    ⟨qd, hq, fun d hm hf => ?_⟩⟩
  · obtain ⟨x, hxm, hlt, hid⟩ := hqv v hm hf
    obtain ⟨y, hym, hvy, htime⟩ := hwf.stockoutExit v hm
    obtain rfl : x = y := Ledger.eq_of_id_eq hwf hxm hym (hid.trans hvy)
    exact htime ▸ hlt.trans_le hceil
  · obtain ⟨x, hxm, hlt, hid⟩ := hqd d hm hf
    exact hd d hm x hxm hid hlt

/-- **Reconciling what is left whole.**  Where no hour was rolled up to more than the ledger has,
and a span has reconciled, its end reconciles if and only if it has no week with more
discrepancies than dispatches. -/
theorem reconciles_end_iff (hs : hour ∣ start) (ht : hour ∣ t) (he : hour ∣ endAt)
    (hbelow : ∀ b d m, hour ∣ b →
      hourlyTotal rows m b (b + hour) d ≤ sourceTotal db m b (b + hour) d)
    (hkept : ∀ s, t ≤ s → ∀ m e d, sourceTotal db' m s e d = sourceTotal db m s e d)
    (h : Reconciles db rows start endAt) : Reconciles db' rows (max start t) endAt ↔
      ∀ w d, week ∣ w →
        sourceTotal db .discrepancyCount (max (max start t) w) (min endAt (w + week)) d ≤
          sourceTotal db .dispatchOrderCount (max (max start t) w) (min endAt (w + week)) d := by
  have hexpected {w : ℕ} (hw : week ∣ w) (d : Dimension) (m : Metric) :
      expectedTotal db' (max start t) endAt w d m =
        sourceTotal db m (max (max start t) w) (min endAt (w + week)) d := by
    rw [expectedTotal, cellTotal_eq_spanTotal (by decide) hw]
    exact hkept _ ((le_max_right _ _).trans (le_max_left _ _)) m _ d
  have hactual {w : ℕ} (hw : week ∣ w) (d : Dimension) (m : Metric) :
      actualTotal rows (max start t) endAt w d m =
        sourceTotal db m (max (max start t) w) (min endAt (w + week)) d := by
    have hwh : hour ∣ w := dvd_trans (by decide) hw
    have hcell := (h w d).1 m
    rw [expectedTotal, actualTotal, cellTotal_eq_spanTotal (by decide) hw,
      cellTotal_eq_spanTotal (by decide) hw] at hcell
    rw [actualTotal, cellTotal_eq_spanTotal (by decide) hw]
    refine spanTotal_eq_of_le_cells (by decide) (dvd_max hs hwh) (dvd_max (dvd_max hs ht) hwh)
      (dvd_min he ((Nat.dvd_add_right hwh).2 (by decide))) (max_le_max_right w (le_max_left _ _))
      (fun b hb _ _ => hbelow b d m hb) hcell.symm
  constructor
  · intro h' w d hw
    have hle := (h' w d).2
    rwa [hactual hw, hactual hw] at hle
  · intro hle w d
    by_cases hw : week ∣ w
    · refine ⟨fun m => (hexpected hw d m).trans (hactual hw d m).symm, ?_⟩
      rw [hactual hw, hactual hw]
      exact hle w d hw
    · refine ⟨fun m => (cellTotal_eq_zero hw).trans (cellTotal_eq_zero hw).symm, ?_⟩
      rw [actualTotal, cellTotal_eq_zero hw]
      exact Nat.zero_le _

/-- The bounds after a prune: they start at the first hour left whole. -/
theorem reconciliationBounds_pruned (hnone : prunedThrough db = none)
    (hsome : prunedThrough db' = some pruned)
    (h : reconciliationBounds db rows cutoff = .ok (start, endAt)) (bounds : ℕ × ℕ) :
    reconciliationBounds db' rows cutoff = .ok bounds ↔
      bounds = (max start (ceilHour pruned), endAt) ∧ ceilHour pruned < endAt := by
  have hlt := (reconciliationBounds_eq_ok h).2.2.1
  unfold reconciliationBounds at h ⊢
  simp only [hnone, hsome] at h ⊢
  split at h
  · rename_i first last _ _
    split_ifs at h with hle
    cases h
    by_cases hend : ceilHour pruned < min (floorHour last + hour) (floorHour cutoff)
    · have hnot : ¬ min (floorHour last + hour) (floorHour cutoff) ≤
          max (floorHour first) (ceilHour pruned) := not_le.2 (max_lt hlt hend)
      rw [if_neg hnot]
      simp [hend, eq_comm]
    · have hin : min (floorHour last + hour) (floorHour cutoff) ≤
          max (floorHour first) (ceilHour pruned) := le_max_of_le_right (not_lt.1 hend)
      rw [if_pos hin]
      simp [hend]
  · cases h

/-- The checkpoint of a prune records its cutoff. -/
theorem prunedThrough_of_beginPrune (hempty : db.stockLedgerCheckpoints = .empty)
    (hsku : db.skus.rows ≠ []) (h : db.beginPrune pruned = .ok db') :
    prunedThrough db' = some pruned := by
  obtain ⟨w, -, -, rfl⟩ := Ledger.beginPrune_eq_ok h
  obtain ⟨sku, hs⟩ := List.exists_mem_of_ne_nil _ hsku
  rw [prunedThrough, List.max?_eq_some_iff]
  simp only [hempty, Table.upsertAll, Table.rows_empty, List.filter_nil, List.nil_append,
    List.map_map]
  constructor
  · exact List.mem_map.2 ⟨sku, hs, rfl⟩
  · intro t ht
    obtain ⟨sku', -, rfl⟩ := List.mem_map.1 ht
    exact le_rfl

end Kept

/-! ## When a prune disturbs nothing -/

section Prune

variable {s : Platform} {db₁ db₂ : Ledger} {rest : List PruneStep}
  {pruned batch budget cutoff : ℕ}

/-- Rollups are of SKUs, so a ledger with rollups has some. -/
theorem skus_ne_nil (hs : Rolled s) {start endAt : ℕ}
    (h : reconciliationBounds s.db.ledger s.db.reporting.hourly.rows cutoff = .ok (start, endAt)) :
    s.db.ledger.skus.rows ≠ [] := by
  intro hnil
  have hrows : s.db.reporting.hourly.rows = [] := by
    refine List.eq_nil_iff_forall_not_mem.2 fun r hr => ?_
    obtain ⟨sku, hsku, -⟩ := mem_distinct.1 (hs.sane.rollups r hr)
    rw [hnil] at hsku
    cases hsku
  rw [hrows] at h
  cases h

/-- What has reconciled before a prune still does, if and only if an hour is left whole and the
hours left whole have in no week more discrepancies than dispatches. -/
theorem verified_pruned_iff (hs : Rolled s) (hb : s.db.ledger.beginPrune pruned = .ok db₁)
    (hckpt : db₂.stockLedgerCheckpoints = db₁.stockLedgerCheckpoints)
    (hkept : KeptFrom (ceilHour pruned) s.db.ledger db₂) {start endAt : ℕ}
    (hbounds : reconciliationBounds s.db.ledger s.db.reporting.hourly.rows cutoff =
      .ok (start, endAt))
    (hrec : Reconciles s.db.ledger s.db.reporting.hourly.rows start endAt) :
    Verified db₂ s.db.reporting.hourly.rows cutoff ↔
      ceilHour pruned < endAt ∧ ∀ w d, week ∣ w →
        sourceTotal s.db.ledger .discrepancyCount (max (max start (ceilHour pruned)) w)
            (min endAt (w + week)) d ≤
          sourceTotal s.db.ledger .dispatchOrderCount (max (max start (ceilHour pruned)) w)
            (min endAt (w + week)) d := by
  obtain ⟨hstart, hend, -, -⟩ := reconciliationBounds_eq_ok hbounds
  have hnone : prunedThrough s.db.ledger = none := by
    rw [prunedThrough, hs.checkpoints]
    rfl
  have hsome : prunedThrough db₂ = some pruned := by
    rw [prunedThrough, hckpt]
    exact prunedThrough_of_beginPrune hs.checkpoints (skus_ne_nil hs hbounds) hb
  have hiff := reconciles_end_iff hstart (dvd_ceilTo hour pruned) hend hs.below
    (fun u hu m e d => hkept.sourceTotal_eq hu m e d) hrec
  constructor
  · rintro ⟨bounds, hbd, hrec'⟩
    obtain ⟨rfl, hlt⟩ := (reconciliationBounds_pruned hnone hsome hbounds bounds).1 hbd
    exact ⟨hlt, hiff.1 hrec'⟩
  · rintro ⟨hlt, hle⟩
    exact ⟨_, (reconciliationBounds_pruned hnone hsome hbounds _).2 ⟨rfl, hlt⟩, hiff.2 hle⟩

/-- **When a prune keeps reconciliation.**  After any run of service calls and pipeline runs, a
prune at any cutoff, wherever it stops, removes no row at or after the first hour left whole and
leaves reconciled what reconciled before, if the ledger is `Prunable`; and a prune that finishes
does so only if it is. -/
theorem prune_keeps_reconciliation_iff {runs : Table Queue.PipelineRun.id}
    (h : machine.Run (fun _ e => recordsOrRuns e = true) (start .empty runs none) s)
    (hb : s.db.ledger.beginPrune pruned = .ok db₁)
    (hd : db₁.deleteSteps pruned batch budget pruneSteps = some (db₂, rest)) (cutoff : ℕ) :
    (Prunable s.db.ledger s.db.reporting.hourly.rows pruned cutoff →
      Undisturbed s.db.ledger db₂ s.db.reporting.hourly.rows pruned cutoff) ∧
    (0 < batch → rest = [] →
      Undisturbed s.db.ledger db₂ s.db.reporting.hourly.rows pruned cutoff →
      Prunable s.db.ledger s.db.reporting.hourly.rows pruned cutoff) := by
  have hs := Rolled.run h
  have hwf := hs.sane.wellFormed
  obtain ⟨w, -, -, hdb₁⟩ := Ledger.beginPrune_eq_ok hb
  have hwf₁ : WellFormed db₁ := by
    rw [hdb₁]
    exact { hwf with }
  have hdel := Ledger.deleteSteps_eq_some hwf₁ hd
  -- the checkpoint transaction leaves the rows alone
  have hkept (hdet : ∀ d ∈ s.db.ledger.inventoryDiscrepancies, ∀ x ∈ s.db.ledger.stockExits,
      x.id = d.stockExitId → x.createdAt < pruned → d.detectedAt < ceilHour pruned) :
      KeptFrom (ceilHour pruned) s.db.ledger db₂ := by
    have hk := keptFrom_of_deleted hwf₁ hdel (by rw [hdb₁]; exact hdet)
    rw [hdb₁] at hk
    exact { hk with }
  constructor
  · intro hp
    have hk := hkept hp.detected
    refine ⟨fun e he ht => mem_of_filter hk.entries he ht,
      fun x hx ht => mem_of_filter hk.exits hx ht, fun v hv ht => mem_of_filter hk.stockouts hv ht,
      fun d hd ht => mem_of_filter hk.discrepancies hd ht, ?_⟩
    rintro ⟨⟨start, endAt⟩, hbounds, hrec⟩
    exact (verified_pruned_iff hs hb hdel.checkpoints hk hbounds hrec).2
      (hp.retained start endAt hbounds hrec)
  · intro hbatch hrest hu
    subst hrest
    have hdet : ∀ d ∈ s.db.ledger.inventoryDiscrepancies, ∀ x ∈ s.db.ledger.stockExits,
        x.id = d.stockExitId → x.createdAt < pruned → d.detectedAt < ceilHour pruned := by
      intro d hdm x hx hid hlt
      by_contra hle
      -- a discrepancy that is still there is of a dispatch that is not old
      have hstill := hu.discrepancies d hdm (not_lt.1 hle)
      have hxm : x ∈ db₁.stockExits := by
        rw [hdb₁]
        exact hx
      have hyoung := Ledger.discrepancies_of_finished hwf₁ hbatch hd d hstill x hxm hid
      exact absurd hlt (not_lt.2 hyoung)
    refine ⟨hdet, fun start endAt hbounds hrec => ?_⟩
    exact (verified_pruned_iff hs hb hdel.checkpoints (hkept hdet) hbounds hrec).1
      (hu.verified ⟨_, hbounds, hrec⟩)

end Prune

/-! ### A discrepancy detected five weeks after its dispatch -/

/-- A client with one SKU receives nine units on the first Monday and has two dispatched.  Five
weeks later one unit is dispatched at 10:00, a discrepancy is detected at `detected`, and a run
for that week goes through at noon. -/
def lateDiscrepancy (detected : Clock) : List Event :=
  [.service (.createClient "Acme" "admin" 7),
    .service (.createSku ⟨"Lamp", "LAMP-1", 7, .electronics, .LA, 0⟩ 1),
    .service (.recordInbound ⟨1, 9, "PO-1", .LA, nine_units_pos⟩ "u-1"
      (newYearClock (10 * hour)) 1),
    .service (.recordOutbound ⟨1, 2, .dispatch, some "T-1", .LA, Nat.two_pos, dispatch_tracked _⟩
      "u-1" (newYearClock (11 * hour)) 1 1),
    .service (.recordOutbound ⟨1, 1, .dispatch, some "T-2", .LA, Nat.one_pos, dispatch_tracked _⟩
      "u-1" (newYearClock (5 * week + 10 * hour)) 2 2),
    .service (.recordDiscrepancy ⟨1, -1, one_unit_less_ne⟩ (some "u-1") .manual detected 1)] ++
    runAt (runFor 1 (some (newYear + 5 * week))) (newYearClock (5 * week + 12 * hour))

/-- The ledger after a prune that finishes. -/
def prunedLedger (db : Ledger) (now : Clock) : Option (ℕ × Ledger × Ledger) :=
  match retentionCutoff now.instant 30 with
  | .error _ => none
  | .ok pruned =>
    match db.beginPrune pruned with
    | .error _ => none
    | .ok db₁ =>
      match db₁.deleteSteps pruned 1000 40 pruneSteps with
      | some (db₂, []) => some (pruned, db₁, db₂)
      | _ => none

theorem prunedLedger_eq_some {db db₁ db₂ : Ledger} {now : Clock} {pruned : ℕ}
    (h : prunedLedger db now = some (pruned, db₁, db₂)) :
    retentionCutoff now.instant 30 = .ok pruned ∧ db.beginPrune pruned = .ok db₁ ∧
      db₁.deleteSteps pruned 1000 40 pruneSteps = some (db₂, []) := by
  unfold prunedLedger at h
  split at h
  · cases h
  · rename_i p hr
    split at h
    · cases h
    · rename_i l hb
      split at h
      · rename_i l' hd
        cases h
        exact ⟨hr, hb, hd⟩
      · cases h

/-- The discrepancy is detected an hour after the dispatch of the same week, and a prune of thirty
days takes it along with its dispatch: the rollups no longer reconcile. -/
theorem late_discrepancy_breaks_reconciliation :
    ∃ s now pruned cutoff db₁ db₂,
      machine.Run (fun _ e => recordsOrRuns e = true) (start .empty .empty none) s ∧
      retentionCutoff now 30 = .ok pruned ∧ s.db.ledger.beginPrune pruned = .ok db₁ ∧
      db₁.deleteSteps pruned 1000 40 pruneSteps = some (db₂, []) ∧
      Verified s.db.ledger s.db.reporting.hourly.rows cutoff ∧
      (∃ d ∈ s.db.ledger.inventoryDiscrepancies, ceilHour pruned ≤ d.detectedAt ∧
        d ∉ db₂.inventoryDiscrepancies) ∧
      ¬ Verified db₂ s.db.reporting.hourly.rows cutoff := by
  let now := newYearClock (5 * week + 13 * hour)
  let noon := newYear + 5 * week + 12 * hour
  let broken (s : Platform) : Bool :=
    match prunedLedger s.db.ledger now with
    | some (pruned, _, db₂) =>
      decide (Verified s.db.ledger s.db.reporting.hourly.rows noon) &&
        (s.db.ledger.inventoryDiscrepancies.any fun d =>
          decide (ceilHour pruned ≤ d.detectedAt) && decide (d ∉ db₂.inventoryDiscrepancies)) &&
        !decide (Verified db₂ s.db.reporting.hourly.rows noon)
    | none => false
  obtain ⟨s, hs, hp⟩ := machine.exists_run (fun _ e => recordsOrRuns e)
    (start .empty .empty none) (lateDiscrepancy (newYearClock (5 * week + 11 * hour))) broken
    (by decide +kernel)
  simp only [broken] at hp
  split at hp
  · rename_i pruned db₁ db₂ hprune
    simp only [Bool.and_eq_true, decide_eq_true_eq, List.any_eq_true, Bool.not_eq_true',
      decide_eq_false_iff_not] at hp
    obtain ⟨⟨hbefore, hgone⟩, hafter⟩ := hp
    obtain ⟨hr, hb, hd⟩ := prunedLedger_eq_some hprune
    exact ⟨s, _, pruned, noon, db₁, db₂, hs, hr, hb, hd, hbefore, hgone, hafter⟩
  · cases hp

/-- The discrepancy is detected on the day of its dispatch. -/
theorem prune_keeps_reconciliation_same_day :
    ∃ s pruned db₁ db₂,
      machine.Run (fun _ e => recordsOrRuns e = true) (start .empty .empty none) s ∧
      s.db.ledger.beginPrune pruned = .ok db₁ ∧
      db₁.deleteSteps pruned 1000 40 pruneSteps = some (db₂, []) ∧
      (s.db.ledger.inventoryDiscrepancies.length = 1 ∧ db₂.inventoryDiscrepancies = []) ∧
      (Undisturbed s.db.ledger db₂ s.db.reporting.hourly.rows pruned
        (newYear + 5 * week + 12 * hour) ↔
      Prunable s.db.ledger s.db.reporting.hourly.rows pruned (newYear + 5 * week + 12 * hour)) := by
  let now := newYearClock (5 * week + 13 * hour)
  let prunes (s : Platform) : Bool :=
    match prunedLedger s.db.ledger now with
    | some (_, _, db₂) => decide (s.db.ledger.inventoryDiscrepancies.length = 1 ∧
        db₂.inventoryDiscrepancies = [])
    | none => false
  obtain ⟨s, hs, hp⟩ := machine.exists_run (fun _ e => recordsOrRuns e)
    (start .empty .empty none) (lateDiscrepancy (newYearClock (12 * hour))) prunes
    (by decide +kernel)
  simp only [prunes] at hp
  split at hp
  · rename_i pruned db₁ db₂ hprune
    obtain ⟨-, hb, hd⟩ := prunedLedger_eq_some hprune
    have hiff := prune_keeps_reconciliation_iff hs hb hd (newYear + 5 * week + 12 * hour)
    exact ⟨s, pruned, db₁, db₂, hs, hb, hd, of_decide_eq_true hp,
      hiff.2 (by decide) rfl, hiff.1⟩
  · cases hp

end Platform

end Pipeline

end TrackFlow
