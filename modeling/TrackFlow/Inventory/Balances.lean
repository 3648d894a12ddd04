import TrackFlow.Inventory.Service
import Mathlib.Data.List.Sort

/-!
# Deriving, verifying and rebuilding the stored balances

`central_api/domains/inventory/balances.py`: the value a balance should have is the last ledger
checkpoint plus the movements at or after its watermark (`_DERIVE_BALANCES`).  The functions
here are the statements of that module on one snapshot; the rebuild among concurrent writers is
in `TrackFlow.Inventory.Session`.
-/

namespace TrackFlow

/-- `LedgerCheckpointError`. -/
structure LedgerCheckpointError where
  message : String
  deriving DecidableEq, Repr

/-- `BalanceDrift`. -/
structure BalanceDrift where
  skuId : ℕ
  warehouse : Warehouse
  stored : ℤ
  derived : ℤ
  deriving DecidableEq, Repr

namespace Ledger

variable (db : Ledger)

/-- `checkpoint_watermark`: the single checkpoint instant, `none` when there is no checkpoint. -/
def checkpointWatermark : Except LedgerCheckpointError (Option ℕ) :=
  match db.stockLedgerCheckpoints.rows.map (·.checkpointAt) with
  | [] => .ok none
  | t :: ts =>
    let low := ts.foldl min t
    let high := ts.foldl max t
    if low ≠ high then .error ⟨"stock ledger checkpoints disagree on their instant"⟩
    else .ok (some high)

/-- `_watermark_params`. -/
def watermarkParam : Except LedgerCheckpointError ℕ :=
  db.checkpointWatermark.map fun w => w.getD beginningOfTime

/-- `COALESCE(checkpoint.quantity, 0)`. -/
def checkpointQuantity (k : Place) : ℤ :=
  ((db.stockLedgerCheckpoints.lookup k).map (·.quantity)).getD 0

/-- The quantity `_DERIVE_BALANCES` computes for one place. -/
def derivedQuantity (watermark : ℕ) (k : Place) : ℤ :=
  db.checkpointQuantity k + db.netMovement (fun t => decide (watermark ≤ t)) k

/-- The rows of the query of `verify_stock_balances`: stored balances that differ from the derived
ones, by SKU. -/
def balanceDrift (watermark : ℕ) : List BalanceDrift :=
  ((db.skus.rows.filter fun s =>
      decide (db.storedBalance s.place ≠ db.derivedQuantity watermark s.place)).map fun s =>
    ⟨s.id, s.warehouse, db.storedBalance s.place,
      db.derivedQuantity watermark s.place⟩).insertionSort
      fun a b => a.skuId ≤ b.skuId

/-- `verify_stock_balances`. -/
def verifyStockBalances : Except LedgerCheckpointError (List BalanceDrift) :=
  db.watermarkParam.map db.balanceDrift

/-- The row `write_ledger_checkpoint` upserts for one SKU. -/
def newCheckpoint (watermark cutoff : ℕ) (s : SKU) : StockLedgerCheckpoint :=
  ⟨s.id, s.warehouse,
    db.checkpointQuantity s.place +
      db.netMovement (fun t => decide (watermark ≤ t) && decide (t < cutoff)) s.place,
    cutoff⟩

theorem keysDistinct_skus {ρ : Type*} {place : ρ → Place} (row : SKU → ρ)
    (h : ∀ s, place (row s) = s.place) : KeysDistinct place (db.skus.rows.map row) := by
  have hmap : (db.skus.rows.map row).map place = db.skus.rows.map SKU.place := by
    rw [List.map_map]
    exact List.map_congr_left fun s _ => h s
  unfold KeysDistinct
  rw [hmap]
  refine List.Nodup.of_map Prod.fst ?_
  rw [List.map_map]
  exact db.skus.nodup

/-- `write_ledger_checkpoint`: every balance as of `cutoff`, and the number of rows written. -/
def writeLedgerCheckpoint (cutoff : ℕ) : Except LedgerCheckpointError (Ledger × ℕ) :=
  match db.watermarkParam with
  | .error e => .error e
  | .ok watermark =>
    if cutoff ≤ watermark then
      .error ⟨"checkpoint cutoff must advance beyond the current watermark"⟩
    else
      .ok ({ db with
              stockLedgerCheckpoints := db.stockLedgerCheckpoints.upsertAll
                (db.skus.rows.map (db.newCheckpoint watermark cutoff))
                (db.keysDistinct_skus _ fun _ => rfl) },
            db.skus.rows.length)

/-- The row `rebuild_stock_balances` upserts for one SKU. -/
def rebuiltBalance (watermark : ℕ) (s : SKU) : StockBalance :=
  ⟨s.id, s.warehouse, db.derivedQuantity watermark s.place⟩

/-- `rebuild_stock_balances` when nothing else runs. -/
def rebuildStockBalances : Except LedgerCheckpointError (Ledger × ℕ) :=
  db.watermarkParam.map fun watermark =>
    ({ db with
        stockBalances := db.stockBalances.upsertAll (db.skus.rows.map (db.rebuiltBalance watermark))
          (db.keysDistinct_skus _ fun _ => rfl) },
      db.skus.rows.length)

variable {db}

theorem foldl_min_le (t : ℕ) (ts : List ℕ) : ts.foldl min t ≤ t ∧ ∀ u ∈ ts, ts.foldl min t ≤ u := by
  induction ts generalizing t with
  | nil => simp
  | cons u ts ih =>
    obtain ⟨h1, h2⟩ := ih (min t u)
    simp only [List.foldl_cons]
    refine ⟨by omega, fun v hv => ?_⟩
    rcases List.mem_cons.1 hv with rfl | hv
    · omega
    · exact h2 v hv

theorem le_foldl_max (t : ℕ) (ts : List ℕ) : t ≤ ts.foldl max t ∧ ∀ u ∈ ts, u ≤ ts.foldl max t := by
  induction ts generalizing t with
  | nil => simp
  | cons u ts ih =>
    obtain ⟨h1, h2⟩ := ih (max t u)
    simp only [List.foldl_cons]
    refine ⟨by omega, fun v hv => ?_⟩
    rcases List.mem_cons.1 hv with rfl | hv
    · omega
    · exact h2 v hv

theorem foldl_min_eq (t : ℕ) (ts : List ℕ) (h : ∀ u ∈ ts, u = t) : ts.foldl min t = t := by
  induction ts with
  | nil => rfl
  | cons u ts ih =>
    obtain rfl := h u List.mem_cons_self
    rw [List.foldl_cons, min_self]
    exact ih fun v hv => h v (List.mem_cons_of_mem _ hv)

theorem foldl_max_eq (t : ℕ) (ts : List ℕ) (h : ∀ u ∈ ts, u = t) : ts.foldl max t = t := by
  induction ts with
  | nil => rfl
  | cons u ts ih =>
    obtain rfl := h u List.mem_cons_self
    rw [List.foldl_cons, max_self]
    exact ih fun v hv => h v (List.mem_cons_of_mem _ hv)

/-- The watermark is the common instant of the checkpoint rows. -/
theorem checkpointWatermark_eq_some_iff {w : ℕ} :
    db.checkpointWatermark = .ok (some w) ↔ db.stockLedgerCheckpoints.rows ≠ [] ∧
      ∀ r ∈ db.stockLedgerCheckpoints.rows, r.checkpointAt = w := by
  have hmap : (∀ r ∈ db.stockLedgerCheckpoints.rows, r.checkpointAt = w) ↔
      ∀ u ∈ db.stockLedgerCheckpoints.rows.map (·.checkpointAt), u = w := by simp
  have hnil : db.stockLedgerCheckpoints.rows ≠ [] ↔
      db.stockLedgerCheckpoints.rows.map (·.checkpointAt) ≠ [] := by simp
  rw [hmap, hnil]
  unfold checkpointWatermark
  generalize db.stockLedgerCheckpoints.rows.map (·.checkpointAt) = l
  cases l with
  | nil => simp
  | cons t ts =>
    simp only [ne_eq, reduceCtorEq, not_false_eq_true, true_and]
    constructor
    · intro h
      split_ifs at h with hne
      have hw : ts.foldl max t = w := by simpa using h
      have heq : ts.foldl min t = ts.foldl max t := hne
      obtain ⟨h1, h2⟩ := foldl_min_le t ts
      obtain ⟨h3, h4⟩ := le_foldl_max t ts
      intro u hu
      rcases List.mem_cons.1 hu with rfl | hu
      · omega
      · have := h2 u hu
        have := h4 u hu
        omega
    · intro h
      obtain rfl := h t List.mem_cons_self
      have hts : ∀ u ∈ ts, u = t := fun u hu => h u (List.mem_cons_of_mem _ hu)
      rw [foldl_min_eq t ts hts, foldl_max_eq t ts hts]
      simp

theorem watermarkParam_eq_ok_iff {w : ℕ} :
    db.watermarkParam = .ok w ↔
      ∃ o, db.checkpointWatermark = .ok o ∧ o.getD beginningOfTime = w := by
  unfold watermarkParam
  cases db.checkpointWatermark with
  | error e => simp [Except.map]
  | ok o => simp [Except.map]

@[simp] theorem derivedQuantity_setBalance (b : StockBalance) (w : ℕ) (k : Place) :
    (db.setBalance b).derivedQuantity w k = db.derivedQuantity w k := rfl

@[simp] theorem derivedQuantity_addStockoutEvent (v : StockoutEvent) (w : ℕ) (k : Place) :
    (db.addStockoutEvent v).derivedQuantity w k = db.derivedQuantity w k := rfl

@[simp] theorem derivedQuantity_addEntry (e : StockEntry) (w : ℕ) (k : Place) :
    (db.addEntry e).derivedQuantity w k =
      db.derivedQuantity w k + if e.place = k ∧ w ≤ e.createdAt then (e.quantity : ℤ) else 0 := by
  have hc : (db.addEntry e).checkpointQuantity k = db.checkpointQuantity k := rfl
  simp only [derivedQuantity, hc, netMovement_addEntry, decide_eq_true_eq, add_assoc]

@[simp] theorem derivedQuantity_addExit (x : StockExit) (w : ℕ) (k : Place) :
    (db.addExit x).derivedQuantity w k =
      db.derivedQuantity w k - if x.place = k ∧ w ≤ x.createdAt then (x.quantity : ℤ) else 0 := by
  have hc : (db.addExit x).checkpointQuantity k = db.checkpointQuantity k := rfl
  simp only [derivedQuantity, hc, netMovement_addExit, decide_eq_true_eq, add_sub_assoc]

/-- No row of the drift query means that every SKU's stored balance is the derived one. -/
theorem balanceDrift_eq_nil_iff {w : ℕ} :
    db.balanceDrift w = [] ↔
      ∀ s ∈ db.skus.rows, db.storedBalance s.place = db.derivedQuantity w s.place := by
  unfold balanceDrift
  rw [← List.length_eq_zero_iff, List.length_insertionSort, List.length_eq_zero_iff,
    List.map_eq_nil_iff, List.filter_eq_nil_iff]
  simp

theorem verifyStockBalances_eq_nil_iff {w : ℕ} (hw : db.watermarkParam = .ok w) :
    db.verifyStockBalances = .ok [] ↔
      ∀ s ∈ db.skus.rows, db.storedBalance s.place = db.derivedQuantity w s.place := by
  unfold verifyStockBalances
  rw [hw, ← balanceDrift_eq_nil_iff]
  simp [Except.map]

end Ledger

end TrackFlow
