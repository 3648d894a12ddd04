import TrackFlow.Inventory.Balances
import TrackFlow.Inventory.Operations

/-!
# Pruning the movement ledger

`scripts/prune_movement_ledger.py`: a prune verifies the balances, writes the ledger checkpoint
at its cutoff, and then deletes in micro-batches, children before parents.  Each batch is a
transaction of its own; `deleteBatch_eq_some` says what it may remove.
-/

namespace TrackFlow

/-- The FK-ordered deletes (`_STEPS`). -/
inductive PruneStep
  | inventoryDiscrepancies
  | stockoutEvents
  | stockExits
  | stockEntries
  deriving DecidableEq, Repr

/-- `_STEPS`. -/
def pruneSteps : List PruneStep :=
  [.inventoryDiscrepancies, .stockoutEvents, .stockExits, .stockEntries]

/-- `MINIMUM_MOVEMENT_RETENTION_DAYS`. -/
def minimumMovementRetentionDays : ℕ := 25

/-- Why a prune refuses to run. -/
inductive PruneError
  /-- `RetentionWindowTooShort`. -/
  | retentionWindowTooShort (message : String)
  /-- `BalancesDrifted`. -/
  | balancesDrifted (message : String)
  /-- The checkpoint helpers refused. -/
  | checkpoint (error : LedgerCheckpointError)
  deriving DecidableEq, Repr

/-- `retention_cutoff`. -/
def retentionCutoff (now retentionDays : ℕ) : Except PruneError ℕ :=
  if retentionDays < minimumMovementRetentionDays then
    .error (.retentionWindowTooShort
      "movement retention must exceed the reporting recompute window")
  else .ok (now - retentionDays * day)

namespace Ledger

variable (db : Ledger)

/-- The first transaction of `prune_once`: refuse on drift, else write the checkpoint. -/
def beginPrune (cutoff : ℕ) : Except PruneError Ledger :=
  match db.verifyStockBalances with
  | .error e => .error (.checkpoint e)
  | .ok (_ :: _) => .error (.balancesDrifted "stock balances disagree with the ledger")
  | .ok [] =>
    match db.writeLedgerCheckpoint cutoff with
    | .error e => .error (.checkpoint e)
    | .ok (db', _) => .ok db'

/-- `ORDER BY id LIMIT batch`. -/
def firstIds (batch : ℕ) (ids : List ℕ) : List ℕ := (ids.insertionSort (· ≤ ·)).take batch

/-- The exits a batch selects: created before the cutoff, and satisfying `p`. -/
def selectExits (cutoff batch : ℕ) (p : StockExit → Bool) : List ℕ :=
  firstIds batch ((db.stockExits.filter fun x => decide (x.createdAt < cutoff) && p x).map (·.id))

/-- One batch of a step: the database and the number of rows removed, `none` when a foreign key
refuses the delete. -/
def deleteBatch (cutoff batch : ℕ) : PruneStep → Option (Ledger × ℕ)
  | .inventoryDiscrepancies =>
    let ids := db.selectExits cutoff batch fun x =>
      db.inventoryDiscrepancies.any fun d => decide (d.stockExitId = x.id)
    let kept := db.inventoryDiscrepancies.filter fun d => !decide (d.stockExitId ∈ ids)
    some ({ db with inventoryDiscrepancies := kept },
      db.inventoryDiscrepancies.length - kept.length)
  | .stockoutEvents =>
    let ids := db.selectExits cutoff batch fun x =>
      db.stockoutEvents.any fun v => decide (v.stockExitId = x.id)
    let kept := db.stockoutEvents.filter fun v => !decide (v.stockExitId ∈ ids)
    some ({ db with stockoutEvents := kept }, db.stockoutEvents.length - kept.length)
  | .stockExits =>
    let ids := db.selectExits cutoff batch fun _ => true
    -- `ON DELETE RESTRICT`
    if db.inventoryDiscrepancies.any (fun d => decide (d.stockExitId ∈ ids)) ||
        db.stockoutEvents.any (fun v => decide (v.stockExitId ∈ ids)) then none
    else
      let kept := db.stockExits.filter fun x => !decide (x.id ∈ ids)
      some ({ db with stockExits := kept }, db.stockExits.length - kept.length)
  | .stockEntries =>
    let ids := firstIds batch
      ((db.stockEntries.filter fun e => decide (e.createdAt < cutoff)).map (·.id))
    let kept := db.stockEntries.filter fun e => !decide (e.id ∈ ids)
    some ({ db with stockEntries := kept }, db.stockEntries.length - kept.length)

/-- `_delete_in_batches` and the loop over the steps: `budget` batches fit in the time budget.
The remaining steps are returned with the database; there are none when the prune finished. -/
def deleteSteps (cutoff batch : ℕ) : ℕ → List PruneStep → Ledger → Option (Ledger × List PruneStep)
  | _, [], db => some (db, [])
  | 0, steps, db => some (db, steps)
  | budget + 1, step :: steps, db =>
    match db.deleteBatch cutoff batch step with
    | none => none
    | some (db', removed) =>
      deleteSteps cutoff batch budget (if removed = 0 then steps else step :: steps) db'

variable {db}

/-! ### The first transaction -/

theorem beginPrune_eq_ok {cutoff : ℕ} {db' : Ledger} (h : db.beginPrune cutoff = .ok db') :
    ∃ w, db.watermarkParam = .ok w ∧ w < cutoff ∧
      db' = { db with
        stockLedgerCheckpoints := db.stockLedgerCheckpoints.upsertAll
          (db.skus.rows.map (db.newCheckpoint w cutoff))
          (db.keysDistinct_skus _ fun _ => rfl) } := by
  unfold beginPrune at h
  split at h
  · cases h
  · cases h
  · unfold writeLedgerCheckpoint at h
    cases hw : db.watermarkParam with
    | error e => rw [hw] at h; cases h
    | ok w =>
      rw [hw] at h
      by_cases hc : cutoff ≤ w
      · simp [hc] at h
      · simp only [hc, if_false, Except.ok.injEq] at h
        exact ⟨w, rfl, not_le.1 hc, h.symm⟩

/-! ### A batch -/

theorem mem_firstIds {batch : ℕ} {ids : List ℕ} {i : ℕ} (h : i ∈ firstIds batch ids) : i ∈ ids :=
  (List.perm_insertionSort (· ≤ ·) ids).mem_iff.1 (List.mem_of_mem_take h)

theorem mem_selectExits {cutoff batch : ℕ} {p : StockExit → Bool} {i : ℕ}
    (h : i ∈ db.selectExits cutoff batch p) :
    ∃ x ∈ db.stockExits, x.createdAt < cutoff ∧ x.id = i := by
  obtain ⟨x, hx, rfl⟩ := List.mem_map.1 (mem_firstIds h)
  simp only [List.mem_filter, Bool.and_eq_true, decide_eq_true_eq] at hx
  exact ⟨x, hx.1, hx.2.1, rfl⟩

/-- What a batch may remove: movements created before the cutoff, and events whose exit was. -/
structure Deleted (cutoff : ℕ) (db db' : Ledger) : Prop where
  clients : db'.clients = db.clients
  skus : db'.skus = db.skus
  balances : db'.stockBalances = db.stockBalances
  checkpoints : db'.stockLedgerCheckpoints = db.stockLedgerCheckpoints
  entries : ∃ q : StockEntry → Bool, db'.stockEntries = db.stockEntries.filter q ∧
    ∀ e ∈ db.stockEntries, q e = false → e.createdAt < cutoff
  exits : ∃ q : StockExit → Bool, db'.stockExits = db.stockExits.filter q ∧
    ∀ x ∈ db.stockExits, q x = false → x.createdAt < cutoff
  stockouts : ∃ q : StockoutEvent → Bool, db'.stockoutEvents = db.stockoutEvents.filter q ∧
    ∀ v ∈ db.stockoutEvents, q v = false →
      ∃ x ∈ db.stockExits, x.createdAt < cutoff ∧ x.id = v.stockExitId
  discrepancies : ∃ q : InventoryDiscrepancy → Bool,
    db'.inventoryDiscrepancies = db.inventoryDiscrepancies.filter q ∧
      ∀ d ∈ db.inventoryDiscrepancies, q d = false →
        ∃ x ∈ db.stockExits, x.createdAt < cutoff ∧ x.id = d.stockExitId
  exitKept : ∀ x ∈ db.stockExits, x ∉ db'.stockExits →
    (∀ v ∈ db'.stockoutEvents, v.stockExitId ≠ x.id) ∧
      ∀ d ∈ db'.inventoryDiscrepancies, d.stockExitId ≠ x.id

theorem filter_true {ρ : Type*} (rows : List ρ) : rows = rows.filter fun _ => true := by simp

theorem eq_of_id_eq {x y : StockExit} (hwf : WellFormed db) (hx : x ∈ db.stockExits)
    (hy : y ∈ db.stockExits) (h : x.id = y.id) : x = y :=
  List.inj_on_of_nodup_map hwf.exitIds hx hy h

/-- **What one batch removes.** -/
theorem deleteBatch_eq_some {cutoff batch : ℕ} {step : PruneStep} {db' : Ledger} {n : ℕ}
    (hwf : WellFormed db) (h : db.deleteBatch cutoff batch step = some (db', n)) :
    Deleted cutoff db db' := by
  cases step with
  | inventoryDiscrepancies =>
    simp only [deleteBatch, Option.some.injEq, Prod.mk.injEq] at h
    obtain ⟨rfl, -⟩ := h
    refine ⟨rfl, rfl, rfl, rfl, ⟨_, filter_true _, by simp⟩, ⟨_, filter_true _, by simp⟩,
      ⟨_, filter_true _, by simp⟩, ⟨_, rfl, fun d _ hd => ?_⟩, fun x hx hx' => (hx' hx).elim⟩
    exact mem_selectExits (by simpa using hd)
  | stockoutEvents =>
    simp only [deleteBatch, Option.some.injEq, Prod.mk.injEq] at h
    obtain ⟨rfl, -⟩ := h
    refine ⟨rfl, rfl, rfl, rfl, ⟨_, filter_true _, by simp⟩, ⟨_, filter_true _, by simp⟩,
      ⟨_, rfl, fun v _ hv => ?_⟩, ⟨_, filter_true _, by simp⟩, fun x hx hx' => (hx' hx).elim⟩
    exact mem_selectExits (by simpa using hv)
  | stockExits =>
    simp only [deleteBatch] at h
    split_ifs at h with hfk
    simp only [Option.some.injEq, Prod.mk.injEq] at h
    obtain ⟨rfl, -⟩ := h
    refine ⟨rfl, rfl, rfl, rfl, ⟨_, filter_true _, by simp⟩, ⟨_, rfl, fun x hx hq => ?_⟩,
      ⟨_, filter_true _, by simp⟩, ⟨_, filter_true _, by simp⟩, fun x hx hx' => ?_⟩
    · obtain ⟨y, hy, hc, hid⟩ := mem_selectExits (by simpa using hq)
      rwa [← eq_of_id_eq hwf hy hx hid]
    · simp only [Bool.or_eq_true, List.any_eq_true, decide_eq_true_eq, not_or, not_exists,
        not_and] at hfk
      have hid : x.id ∈ db.selectExits cutoff batch fun _ => true := by
        by_contra hn
        exact hx' (List.mem_filter.2 ⟨hx, by simpa using hn⟩)
      exact ⟨fun v hv he => hfk.2 v hv (he ▸ hid), fun d hd he => hfk.1 d hd (he ▸ hid)⟩
  | stockEntries =>
    simp only [deleteBatch, Option.some.injEq, Prod.mk.injEq] at h
    obtain ⟨rfl, -⟩ := h
    refine ⟨rfl, rfl, rfl, rfl, ⟨_, rfl, fun e he hq => ?_⟩, ⟨_, filter_true _, by simp⟩,
      ⟨_, filter_true _, by simp⟩, ⟨_, filter_true _, by simp⟩, fun x hx hx' => (hx' hx).elim⟩
    obtain ⟨y, hy, hid⟩ := List.mem_map.1 (mem_firstIds (by simpa using hq))
    simp only [List.mem_filter, decide_eq_true_eq] at hy
    rw [← List.inj_on_of_nodup_map hwf.entryIds hy.1 he hid]
    exact hy.2

/-- A batch keeps the integrity constraints. -/
theorem Deleted.wellFormed {cutoff : ℕ} {db' : Ledger} (hwf : WellFormed db)
    (h : Deleted cutoff db db') : WellFormed db' := by
  obtain ⟨qe, he, -⟩ := h.entries
  obtain ⟨qx, hx, -⟩ := h.exits
  obtain ⟨qv, hv, -⟩ := h.stockouts
  obtain ⟨qd, hd, -⟩ := h.discrepancies
  constructor
  · rw [he]; exact hwf.entryIds.sublist (List.filter_sublist.map _)
  · rw [hx]; exact hwf.exitIds.sublist (List.filter_sublist.map _)
  · rw [he, h.skus]; exact fun e hm => hwf.entrySku e (List.mem_of_mem_filter hm)
  · rw [hx, h.skus]; exact fun x hm => hwf.exitSku x (List.mem_of_mem_filter hm)
  · rw [hv, h.skus]; exact fun v hm => hwf.stockoutSku v (List.mem_of_mem_filter hm)
  · intro v hm
    obtain ⟨x, hxm, hvx⟩ := hwf.stockoutExit v (List.mem_of_mem_filter (hv ▸ hm))
    refine ⟨x, ?_, hvx⟩
    by_contra hn
    exact (h.exitKept x hxm hn).1 v hm hvx.1
  · rw [hd, h.skus]; exact fun d hm => hwf.discrepancySku d (List.mem_of_mem_filter hm)
  · intro d hm
    obtain ⟨x, hxm, hdx⟩ := hwf.discrepancyExit d (List.mem_of_mem_filter (hd ▸ hm))
    refine ⟨x, ?_, hdx⟩
    by_contra hn
    exact (h.exitKept x hxm hn).2 d hm hdx.1

/-! ### A whole prune -/

theorem Deleted.refl (cutoff : ℕ) (db : Ledger) : Deleted cutoff db db :=
  ⟨rfl, rfl, rfl, rfl, ⟨_, filter_true _, by simp⟩, ⟨_, filter_true _, by simp⟩,
    ⟨_, filter_true _, by simp⟩, ⟨_, filter_true _, by simp⟩, fun _ hx hx' => (hx' hx).elim⟩

/-- Rows removed in two goes. -/
theorem filter_trans {ρ : Type*} {p : ρ → Prop} {rows rows' rows'' : List ρ}
    (h : ∃ q : ρ → Bool, rows' = rows.filter q ∧ ∀ r ∈ rows, q r = false → p r)
    (h' : ∃ q : ρ → Bool, rows'' = rows'.filter q ∧ ∀ r ∈ rows', q r = false → p r) :
    ∃ q : ρ → Bool, rows'' = rows.filter q ∧ ∀ r ∈ rows, q r = false → p r := by
  obtain ⟨q, rfl, hq⟩ := h
  obtain ⟨q', rfl, hq'⟩ := h'
  refine ⟨fun r => q' r && q r, by rw [List.filter_filter], fun r hr hf => ?_⟩
  cases hqr : q r with
  | false => exact hq r hr hqr
  | true =>
    simp only [hqr, Bool.and_true] at hf
    exact hq' r (List.mem_filter.2 ⟨hr, hqr⟩) hf

theorem Deleted.trans {cutoff : ℕ} {db' db'' : Ledger} (h : Deleted cutoff db db')
    (h' : Deleted cutoff db' db'') : Deleted cutoff db db'' := by
  have hexit {i : ℕ} (hx : ∃ x ∈ db'.stockExits, x.createdAt < cutoff ∧ x.id = i) :
      ∃ x ∈ db.stockExits, x.createdAt < cutoff ∧ x.id = i := by
    obtain ⟨x, hx, hc⟩ := hx
    obtain ⟨q, hq, -⟩ := h.exits
    exact ⟨x, List.mem_of_mem_filter (hq ▸ hx), hc⟩
  have hstockouts := h'.stockouts
  have hdiscrepancies := h'.discrepancies
  refine ⟨h'.clients.trans h.clients, h'.skus.trans h.skus, h'.balances.trans h.balances,
    h'.checkpoints.trans h.checkpoints, filter_trans h.entries h'.entries,
    filter_trans h.exits h'.exits, filter_trans h.stockouts ?_, filter_trans h.discrepancies ?_,
    fun x hx hx' => ?_⟩
  · obtain ⟨q, hq, hdel⟩ := hstockouts
    exact ⟨q, hq, fun v hv hf => hexit (hdel v hv hf)⟩
  · obtain ⟨q, hq, hdel⟩ := hdiscrepancies
    exact ⟨q, hq, fun d hd hf => hexit (hdel d hd hf)⟩
  · by_cases hmid : x ∈ db'.stockExits
    · exact h'.exitKept x hmid hx'
    · obtain ⟨qv, hv, -⟩ := hstockouts
      obtain ⟨qd, hd, -⟩ := hdiscrepancies
      have hkept := h.exitKept x hx hmid
      exact ⟨fun v hm => hkept.1 v (List.mem_of_mem_filter (hv ▸ hm)),
        fun d hm => hkept.2 d (List.mem_of_mem_filter (hd ▸ hm))⟩

/-- **What a prune removes**, wherever it stops. -/
theorem deleteSteps_eq_some {cutoff batch budget : ℕ} {steps rest : List PruneStep} {db' : Ledger}
    (hwf : WellFormed db) (h : db.deleteSteps cutoff batch budget steps = some (db', rest)) :
    Deleted cutoff db db' := by
  induction budget generalizing db steps with
  | zero =>
    cases steps <;> cases h <;> exact .refl _ _
  | succ budget ih =>
    cases steps with
    | nil =>
      cases h
      exact .refl _ _
    | cons step steps =>
      simp only [deleteSteps] at h
      split at h
      · cases h
      · rename_i db₁ removed hb
        have hd := deleteBatch_eq_some hwf hb
        exact hd.trans (ih (hd.wellFormed hwf) h)

/-- A prune that finishes has come to a batch of its first step that removed nothing. -/
theorem exists_empty_batch {cutoff batch budget : ℕ} {step : PruneStep} {steps : List PruneStep}
    {db' : Ledger} (hwf : WellFormed db)
    (h : db.deleteSteps cutoff batch budget (step :: steps) = some (db', [])) :
    ∃ db₁ db₂, Deleted cutoff db db₁ ∧ db₁.deleteBatch cutoff batch step = some (db₂, 0) ∧
      Deleted cutoff db₂ db' := by
  induction budget generalizing db with
  | zero => cases h
  | succ budget ih =>
    simp only [deleteSteps] at h
    split at h
    · cases h
    · rename_i db₁ removed hb
      have hd := deleteBatch_eq_some hwf hb
      split_ifs at h with hz
      · subst hz
        exact ⟨db, db₁, .refl cutoff db, hb, deleteSteps_eq_some (hd.wellFormed hwf) h⟩
      · obtain ⟨db₂, db₃, h₂, hb', h₃⟩ := ih (hd.wellFormed hwf) h
        exact ⟨db₂, db₃, hd.trans h₂, hb', h₃⟩

/-- A batch of discrepancies that removes nothing has found none of an old exit. -/
theorem discrepancies_of_empty_batch {cutoff batch : ℕ} {db' : Ledger} (hbatch : 0 < batch)
    (h : db.deleteBatch cutoff batch .inventoryDiscrepancies = some (db', 0)) :
    db'.inventoryDiscrepancies = db.inventoryDiscrepancies ∧
      ∀ x ∈ db.stockExits, x.createdAt < cutoff →
        ∀ d ∈ db.inventoryDiscrepancies, d.stockExitId ≠ x.id := by
  simp only [deleteBatch, Option.some.injEq, Prod.mk.injEq] at h
  obtain ⟨rfl, hlen⟩ := h
  set ids := db.selectExits cutoff batch fun x =>
    db.inventoryDiscrepancies.any fun d => decide (d.stockExitId = x.id) with hids
  have hkept : db.inventoryDiscrepancies.filter (fun d => !decide (d.stockExitId ∈ ids)) =
      db.inventoryDiscrepancies :=
    List.filter_sublist.eq_of_length_le (by omega)
  refine ⟨hkept, fun x hx hc d hd he => ?_⟩
  -- the batch would have selected the exit
  have hmem : x ∈ db.stockExits.filter fun x => decide (x.createdAt < cutoff) &&
      db.inventoryDiscrepancies.any fun d => decide (d.stockExitId = x.id) := by
    refine List.mem_filter.2 ⟨hx, ?_⟩
    simp only [hc, decide_true, Bool.true_and, List.any_eq_true, decide_eq_true_eq]
    exact ⟨d, hd, he⟩
  have hne : ids ≠ [] := by
    have hlen := List.length_pos_of_mem (List.mem_map_of_mem (f := (·.id)) hmem)
    rw [hids, selectExits, firstIds, ← List.length_pos_iff, List.length_take,
      List.length_insertionSort]
    exact lt_min hbatch hlen
  obtain ⟨i, hi⟩ := List.exists_mem_of_ne_nil _ hne
  obtain ⟨y, hy, hyi⟩ := List.mem_map.1 (mem_firstIds hi)
  simp only [List.mem_filter, Bool.and_eq_true, List.any_eq_true, decide_eq_true_eq] at hy
  obtain ⟨-, -, d', hd', he'⟩ := hy
  have hin := (List.mem_filter.1 (hkept ▸ hd' : d' ∈ db.inventoryDiscrepancies.filter _)).2
  rw [he', hyi] at hin
  simp [hi] at hin

/-- **A finished prune leaves no discrepancy of an old exit**, however late it was detected. -/
theorem discrepancies_of_finished {cutoff batch budget : ℕ} {db' : Ledger} (hwf : WellFormed db)
    (hbatch : 0 < batch) (h : db.deleteSteps cutoff batch budget pruneSteps = some (db', [])) :
    ∀ d ∈ db'.inventoryDiscrepancies, ∀ x ∈ db.stockExits, x.id = d.stockExitId →
      cutoff ≤ x.createdAt := by
  intro d hd x hx he
  obtain ⟨db₁, db₂, h₁, hb, h₂⟩ := exists_empty_batch hwf h
  obtain ⟨hsame, hnone⟩ := discrepancies_of_empty_batch hbatch hb
  obtain ⟨q, hq, -⟩ := h₂.discrepancies
  have hd₁ : d ∈ db₁.inventoryDiscrepancies := hsame ▸ List.mem_of_mem_filter (hq ▸ hd)
  by_contra hlt
  by_cases hx₁ : x ∈ db₁.stockExits
  · exact hnone x hx₁ (Nat.lt_of_not_le hlt) d hd₁ he.symm
  · exact (h₁.exitKept x hx hx₁).2 d hd₁ he.symm

end Ledger

end TrackFlow
