import TrackFlow.LTS.Machine
import TrackFlow.Inventory.Prune

/-!
# Retention conserves stock

The ledger under service calls and prunes, one transaction at a time.  A prune is its checkpoint
transaction followed by delete batches; calls may run between any two of them, and the prune may
be interrupted at any batch boundary.

* `Conserves` : the invariant.  The checkpoint accounts for the recorded movements below the
  watermark, and the ledger still has all recorded movements from the watermark on.
* `prune_conserves_stock` : the checkpoint plus the retained movements is the whole history, only
  rows below the watermark are gone, and verification reports no drift.
-/

namespace TrackFlow

/-- A prune between two batches. -/
structure PruneRun where
  cutoff : ℕ
  /-- The steps left. -/
  steps : List PruneStep

/-- The ledger, the history of all movements ever recorded, the latest cutoff of a checkpoint, and
the prune in progress. -/
structure Retention where
  db : Ledger
  recordedEntries : List StockEntry
  recordedExits : List StockExit
  cutoff : ℕ
  run : Option PruneRun

/-- One transaction. -/
inductive RetentionLabel
  | op (op : LedgerOp)
  /-- `prune_once` starts: verification and checkpoint. -/
  | pruneStart (now : Clock) (retentionDays : ℕ)
  /-- The next batch, of at most `size` rows. -/
  | batch (size : ℕ)
  /-- The process stops. -/
  | interrupt

namespace Retention

/-- The state after a transaction. -/
def next (s : Retention) : RetentionLabel → Option Retention
  | .op op =>
    match op.perform s.db with
    | .error _ => none
    | .ok db => some
        { s with
          db := db
          recordedEntries := s.recordedEntries ++ op.entries
          recordedExits := s.recordedExits ++ op.exits }
  | .pruneStart now retentionDays =>
    match retentionCutoff now.instant retentionDays with
    | .error _ => none
    | .ok cutoff =>
      match s.db.beginPrune cutoff with
      | .error _ => none
      | .ok db => some
          { s with db := db, cutoff := max s.cutoff cutoff, run := some ⟨cutoff, pruneSteps⟩ }
  | .batch size =>
    match s.run with
    | none => none
    | some ⟨_, []⟩ => some { s with run := none }
    | some ⟨cutoff, step :: steps⟩ =>
      match s.db.deleteBatch cutoff size step with
      -- a foreign key refuses the delete: the prune fails, its transaction is rolled back
      | none => some { s with run := none }
      | some (db, removed) => some
          { s with
            db := db
            run := some ⟨cutoff, if removed = 0 then steps else step :: steps⟩ }
  | .interrupt => some { s with run := none }

/-- The machine of the ledger under retention. -/
def machine : Machine Retention RetentionLabel := ⟨next⟩

/-- What a transaction does. -/
inductive Step (s : Retention) : RetentionLabel → Retention → Prop
  | op {op : LedgerOp} {db : Ledger} (performed : op.perform s.db = .ok db) :
    Step s (.op op)
      { s with
        db := db
        recordedEntries := s.recordedEntries ++ op.entries
        recordedExits := s.recordedExits ++ op.exits }
  | checkpoint {now : Clock} {retentionDays cutoff : ℕ} {db : Ledger}
    (hcutoff : retentionCutoff now.instant retentionDays = .ok cutoff)
    (begun : s.db.beginPrune cutoff = .ok db) :
    Step s (.pruneStart now retentionDays)
      { s with db := db, cutoff := max s.cutoff cutoff, run := some ⟨cutoff, pruneSteps⟩ }
  | batch {size cutoff removed : ℕ} {step : PruneStep} {steps : List PruneStep} {db : Ledger}
    (running : s.run = some ⟨cutoff, step :: steps⟩)
    (deleted : s.db.deleteBatch cutoff size step = some (db, removed)) :
    Step s (.batch size)
      { s with db := db, run := some ⟨cutoff, if removed = 0 then steps else step :: steps⟩ }
  /-- The prune is through, a foreign key refuses a batch, or the process stops. -/
  | stop {l : RetentionLabel} (hl : l = .interrupt ∨ ∃ size, l = .batch size ∧ s.run.isSome) :
    Step s l { s with run := none }

theorem step_of_next {s s' : Retention} {l : RetentionLabel} (h : s.next l = some s') :
    Step s l s' := by
  cases l with
  | op op =>
    simp only [next] at h
    split at h <;> cases h
    exact .op ‹_›
  | pruneStart now retentionDays =>
    simp only [next] at h
    split at h
    · cases h
    · rename_i hcutoff
      split at h <;> cases h
      exact .checkpoint hcutoff ‹_›
  | batch size =>
    simp only [next] at h
    split at h
    · cases h
    · rename_i hrun
      cases h
      exact .stop (.inr ⟨size, rfl, by rw [hrun]; rfl⟩)
    · rename_i hrun
      split at h <;> cases h
      · exact .stop (.inr ⟨size, rfl, by rw [hrun]; rfl⟩)
      · exact .batch hrun ‹_›
  | interrupt =>
    cases h
    exact .stop (.inl rfl)

/-- The empty ledger with the given clients and SKUs, before any movement. -/
def start (clients : List Client) (skus : Table SKU.id) : Retention :=
  ⟨{ Ledger.empty with clients := clients, skus := skus }, [], [], beginningOfTime, none⟩

/-- Movements recorded after a checkpoint are stamped at or after its cutoff. -/
def stamped (s : Retention) : RetentionLabel → Bool
  | .op op => op.movementTime.all fun t => decide (s.cutoff ≤ t)
  | _ => true

/-- The signed sum of the full history of a place. -/
def recordedBalance (s : Retention) (k : Place) : ℤ :=
  netQuantity s.recordedEntries s.recordedExits (fun _ => true) k

/-- The invariant: stock is conserved at watermark `w`. -/
structure Conserves (s : Retention) (w : ℕ) : Prop where
  wellFormed : WellFormed s.db
  watermark : s.db.watermarkParam = .ok w
  le_cutoff : w ≤ s.cutoff
  /-- What a prune may delete lies below the watermark. -/
  below : (∀ e ∈ s.db.stockEntries, e.createdAt < s.cutoff → e.createdAt < w) ∧
    ∀ x ∈ s.db.stockExits, x.createdAt < s.cutoff → x.createdAt < w
  /-- From the watermark on, the ledger is complete. -/
  entries : s.db.stockEntries.filter (fun e => decide (w ≤ e.createdAt)) =
    s.recordedEntries.filter fun e => decide (w ≤ e.createdAt)
  exits : s.db.stockExits.filter (fun x => decide (w ≤ x.createdAt)) =
    s.recordedExits.filter fun x => decide (w ≤ x.createdAt)
  /-- Below the watermark, the checkpoint accounts for the history. -/
  checkpoint : ∀ k, s.db.checkpointQuantity k =
    netQuantity s.recordedEntries s.recordedExits (fun t => decide (t < w)) k
  checkpointSku : ∀ r ∈ s.db.stockLedgerCheckpoints.rows,
    ∃ sku ∈ s.db.skus.rows, sku.place = r.place
  recordedSku : (∀ e ∈ s.recordedEntries, ∃ sku ∈ s.db.skus.rows, sku.place = e.place) ∧
    ∀ x ∈ s.recordedExits, ∃ sku ∈ s.db.skus.rows, sku.place = x.place
  balance : ∀ k, s.db.storedBalance k = s.recordedBalance k
  run : ∀ r ∈ s.run, r.cutoff ≤ s.cutoff

variable {s s' : Retention} {w : ℕ}

/-! ### What the invariant says -/

theorem netQuantity_split (es : List StockEntry) (xs : List StockExit) (p q : ℕ → Bool)
    (k : Place) :
    netQuantity es xs p k =
      netQuantity es xs (fun t => p t && q t) k + netQuantity es xs (fun t => p t && !q t) k := by
  unfold netQuantity
  rw [sumWhere_split _ (fun e : StockEntry => q e.createdAt),
    sumWhere_split _ (fun x : StockExit => q x.createdAt)]
  simp only [Bool.and_assoc]
  ring

theorem not_decide_lt (t w : ℕ) : (!decide (t < w)) = decide (w ≤ t) := by
  rw [← decide_not]
  exact decide_eq_decide.2 not_lt

/-- A sum over a time range sees only the movements of that range. -/
theorem netQuantity_eq_of_filter_eq {es es' : List StockEntry} {xs xs' : List StockExit}
    {p q : ℕ → Bool} (hpq : ∀ t, p t = true → q t = true)
    (he : es'.filter (fun e => q e.createdAt) = es.filter fun e => q e.createdAt)
    (hx : xs'.filter (fun x => q x.createdAt) = xs.filter fun x => q x.createdAt) (k : Place) :
    netQuantity es' xs' p k = netQuantity es xs p k := by
  unfold netQuantity
  rw [sumWhere_eq_of_filter_eq (fun e h => hpq _ (by simp_all)) he,
    sumWhere_eq_of_filter_eq (fun x h => hpq _ (by simp_all)) hx]

/-- The checkpoint plus the retained movements is the whole history. -/
theorem Conserves.derived (h : Conserves s w) (k : Place) :
    s.db.derivedQuantity w k = s.recordedBalance k := by
  have hnet : s.db.netMovement (fun t => decide (w ≤ t)) k =
      netQuantity s.recordedEntries s.recordedExits (fun t => decide (w ≤ t)) k :=
    netQuantity_eq_of_filter_eq (fun _ h => h) h.entries h.exits k
  have hsplit := netQuantity_split s.recordedEntries s.recordedExits (fun _ => true)
    (fun t => decide (t < w)) k
  simp only [Bool.true_and, not_decide_lt] at hsplit
  rw [Ledger.derivedQuantity, h.checkpoint, hnet, recordedBalance, hsplit]

theorem Conserves.verify (h : Conserves s w) : s.db.verifyStockBalances = .ok [] := by
  rw [Ledger.verifyStockBalances_eq_nil_iff h.watermark]
  intro sku _
  rw [h.balance, h.derived]

/-! ### The invariant holds at the start -/

theorem conserves_start (clients : List Client) (skus : Table SKU.id) :
    Conserves (start clients skus) beginningOfTime := by
  constructor <;> simp [start, Ledger.empty, Ledger.watermarkParam, Ledger.checkpointWatermark,
    Except.map, Ledger.checkpointQuantity, Ledger.storedBalance, recordedBalance, netQuantity]
  constructor <;> simp

/-! ### A service call keeps it -/

theorem movementTime_entries {op : LedgerOp} {e : StockEntry} (h : e ∈ op.entries) :
    op.movementTime = some e.createdAt := by
  cases op <;> simp only [LedgerOp.entries, List.mem_singleton, List.not_mem_nil] at h
  subst h
  rfl

theorem movementTime_exits {op : LedgerOp} {x : StockExit} (h : x ∈ op.exits) :
    op.movementTime = some x.createdAt := by
  cases op <;> simp only [LedgerOp.exits, List.mem_singleton, List.not_mem_nil] at h
  subst h
  rfl

theorem netQuantity_eq_zero {es : List StockEntry} {xs : List StockExit} {p : ℕ → Bool} {k : Place}
    (he : ∀ e ∈ es, e.place = k → p e.createdAt = false)
    (hx : ∀ x ∈ xs, x.place = k → p x.createdAt = false) : netQuantity es xs p k = 0 := by
  unfold netQuantity
  rw [sumWhere_eq_zero, sumWhere_eq_zero, sub_zero]
  · intro x hm h
    simp only [Bool.and_eq_true, decide_eq_true_eq] at h
    simp [hx x hm h.1] at h
  · intro e hm h
    simp only [Bool.and_eq_true, decide_eq_true_eq] at h
    simp [he e hm h.1] at h

theorem Conserves.op {op : LedgerOp} {db' : Ledger} (h : Conserves s w)
    (hst : s.stamped (.op op) = true) (hop : op.perform s.db = .ok db') :
    Conserves { s with
      db := db'
      recordedEntries := s.recordedEntries ++ op.entries
      recordedExits := s.recordedExits ++ op.exits } w := by
  have hp := LedgerOp.perform_eq_ok hop
  have htime : ∀ t, op.movementTime = some t → s.cutoff ≤ t := fun t ht => by
    simpa [stamped, ht] using hst
  have hes : ∀ e ∈ op.entries, s.cutoff ≤ e.createdAt := fun e he =>
    htime _ (movementTime_entries he)
  have hxs : ∀ x ∈ op.exits, s.cutoff ≤ x.createdAt := fun x hx => htime _ (movementTime_exits hx)
  refine {
    wellFormed := h.wellFormed.perform hop
    watermark := ?_
    le_cutoff := h.le_cutoff
    below := ⟨?_, ?_⟩
    entries := ?_
    exits := ?_
    checkpoint := fun k => ?_
    checkpointSku := ?_
    recordedSku := ⟨?_, ?_⟩
    balance := fun k => ?_
    run := h.run }
  · rw [← h.watermark]
    simp only [Ledger.watermarkParam, Ledger.checkpointWatermark, hp.checkpoints]
  · rw [hp.entries]
    intro e he hlt
    rcases List.mem_append.1 he with he | he
    · exact h.below.1 e he hlt
    · exact absurd (hes e he) (not_le.2 hlt)
  · rw [hp.exits]
    intro x hx hlt
    rcases List.mem_append.1 hx with hx | hx
    · exact h.below.2 x hx hlt
    · exact absurd (hxs x hx) (not_le.2 hlt)
  · rw [hp.entries, List.filter_append, List.filter_append, h.entries]
  · rw [hp.exits, List.filter_append, List.filter_append, h.exits]
  · have hzero : netQuantity op.entries op.exits (fun t => decide (t < w)) k = 0 :=
      netQuantity_eq_zero
        (fun e he _ => decide_eq_false (not_lt.2 (h.le_cutoff.trans (hes e he))))
        fun x hx _ => decide_eq_false (not_lt.2 (h.le_cutoff.trans (hxs x hx)))
    rw [netQuantity_append, hzero, add_zero, ← h.checkpoint]
    simp only [Ledger.checkpointQuantity, hp.checkpoints]
  · rw [hp.checkpoints]
    exact fun r hr => hp.skus.lift_place (h.checkpointSku r hr)
  · intro e he
    rcases List.mem_append.1 he with he | he
    · exact hp.skus.lift_place (h.recordedSku.1 e he)
    · exact hp.skus.lift_place (hp.entryPlace e he).2.2
  · intro x hx
    rcases List.mem_append.1 hx with hx | hx
    · exact hp.skus.lift_place (h.recordedSku.2 x hx)
    · exact hp.skus.lift_place (hp.exitPlace x hx).2.2
  · rw [hp.balance, h.balance]
    simp only [recordedBalance, netQuantity_append]

/-! ### A batch keeps it -/

theorem filter_filter_eq {ρ : Type*} {rows : List ρ} {p q : ρ → Bool}
    (h : ∀ r ∈ rows, p r = true → q r = true) : (rows.filter q).filter p = rows.filter p := by
  rw [List.filter_filter]
  refine List.filter_congr fun r hr => ?_
  cases hp : p r
  · simp
  · simp [h r hr hp]

theorem Conserves.deleted {c : ℕ} {db' : Ledger} {r : Option PruneRun} (h : Conserves s w)
    (hc : c ≤ s.cutoff) (hd : Ledger.Deleted c s.db db') (hr : ∀ r' ∈ r, r'.cutoff ≤ s.cutoff) :
    Conserves { s with db := db', run := r } w := by
  obtain ⟨qe, he, hqe⟩ := hd.entries
  obtain ⟨qx, hx, hqx⟩ := hd.exits
  refine {
    wellFormed := hd.wellFormed h.wellFormed
    watermark := ?_
    le_cutoff := h.le_cutoff
    below := ⟨?_, ?_⟩
    entries := ?_
    exits := ?_
    checkpoint := fun k => ?_
    checkpointSku := ?_
    recordedSku := ⟨?_, ?_⟩
    balance := fun k => ?_
    run := hr }
  · rw [← h.watermark]
    simp only [Ledger.watermarkParam, Ledger.checkpointWatermark, hd.checkpoints]
  · rw [he]
    exact fun e hm => h.below.1 e (List.mem_of_mem_filter hm)
  · rw [hx]
    exact fun x hm => h.below.2 x (List.mem_of_mem_filter hm)
  · rw [← h.entries, he]
    refine filter_filter_eq fun e hm hw => ?_
    -- a deleted entry lies below the watermark
    by_contra hq
    have := h.below.1 e hm ((hqe e hm (by simpa using hq)).trans_le hc)
    simp only [decide_eq_true_eq] at hw
    omega
  · rw [← h.exits, hx]
    refine filter_filter_eq fun x hm hw => ?_
    by_contra hq
    have := h.below.2 x hm ((hqx x hm (by simpa using hq)).trans_le hc)
    simp only [decide_eq_true_eq] at hw
    omega
  · rw [← h.checkpoint]
    simp only [Ledger.checkpointQuantity, hd.checkpoints]
  · rw [hd.checkpoints, hd.skus]
    exact h.checkpointSku
  · rw [hd.skus]
    exact h.recordedSku.1
  · rw [hd.skus]
    exact h.recordedSku.2
  · refine Eq.trans ?_ (h.balance k)
    simp only [Ledger.storedBalance, hd.balances]

/-! ### A checkpoint keeps it -/

/-- Without SKUs there are no movements, and the checkpoint has no rows. -/
theorem of_no_skus {db : Ledger} (hwf : WellFormed db)
    (hsku : ∀ r ∈ db.stockLedgerCheckpoints.rows, ∃ sku ∈ db.skus.rows, sku.place = r.place)
    (hs : db.skus.rows = []) :
    db.stockLedgerCheckpoints.rows = [] ∧ db.stockEntries = [] ∧ db.stockExits = [] := by
  refine ⟨List.eq_nil_iff_forall_not_mem.2 fun r hr => ?_,
    List.eq_nil_iff_forall_not_mem.2 fun e he => ?_,
    List.eq_nil_iff_forall_not_mem.2 fun x hx => ?_⟩
  · obtain ⟨sku, hm, -⟩ := hsku r hr
    simp [hs] at hm
  · obtain ⟨sku, hm, -⟩ := (hwf.entrySku e he).2
    simp [hs] at hm
  · obtain ⟨sku, hm, -⟩ := (hwf.exitSku x hx).2
    simp [hs] at hm

/-- The ledger after a checkpoint. -/
def checkpointed (db : Ledger) (w c : ℕ) : Ledger :=
  { db with
    stockLedgerCheckpoints := db.stockLedgerCheckpoints.upsertAll
      (db.skus.rows.map (db.newCheckpoint w c)) (db.keysDistinct_skus _ fun _ => rfl) }

theorem mem_checkpointed {db : Ledger} {c : ℕ}
    (hsku : ∀ r ∈ db.stockLedgerCheckpoints.rows, ∃ sku ∈ db.skus.rows, sku.place = r.place)
    {r : StockLedgerCheckpoint} :
    r ∈ (checkpointed db w c).stockLedgerCheckpoints.rows ↔
      ∃ sku ∈ db.skus.rows, db.newCheckpoint w c sku = r := by
  simp only [checkpointed, Table.mem_upsertAll, List.mem_map]
  refine ⟨?_, .inr⟩
  rintro (⟨hr, hn⟩ | hr)
  · obtain ⟨sku, hm, hp⟩ := hsku r hr
    exact (hn ⟨_, ⟨sku, hm, rfl⟩, hp⟩).elim
  · exact hr

/-- The checkpoint of a SKU carries the one before it forward. -/
theorem checkpointQuantity_checkpointed {db : Ledger} {c : ℕ} {sku : SKU}
    (hsku : sku ∈ db.skus.rows) :
    (checkpointed db w c).checkpointQuantity sku.place = db.checkpointQuantity sku.place +
      db.netMovement (fun t => decide (w ≤ t) && decide (t < c)) sku.place := by
  have hlook : (checkpointed db w c).stockLedgerCheckpoints.lookup sku.place =
      some (db.newCheckpoint w c sku) :=
    Table.lookup_upsertAll_of_mem (r := db.newCheckpoint w c sku)
      (h := db.keysDistinct_skus (db.newCheckpoint w c) fun _ => rfl) (List.mem_map_of_mem hsku)
  rw [Ledger.checkpointQuantity, hlook]
  rfl

/-- Where there is no SKU, a checkpoint changes nothing. -/
theorem checkpointQuantity_checkpointed_of_ne {db : Ledger} {c : ℕ} {k : Place}
    (hk : ∀ sku ∈ db.skus.rows, sku.place ≠ k) :
    (checkpointed db w c).checkpointQuantity k = db.checkpointQuantity k := by
  have hkeys : k ∉ (db.skus.rows.map (db.newCheckpoint w c)).map StockLedgerCheckpoint.place := by
    rintro hm
    obtain ⟨_, hr, hp⟩ := List.mem_map.1 hm
    obtain ⟨sku, hsku, rfl⟩ := List.mem_map.1 hr
    exact hk sku hsku hp
  have hlook : (checkpointed db w c).stockLedgerCheckpoints.lookup k =
      db.stockLedgerCheckpoints.lookup k :=
    Table.lookup_upsertAll_of_notMem (h := db.keysDistinct_skus (db.newCheckpoint w c)
      fun _ => rfl) hkeys
  simp only [Ledger.checkpointQuantity, hlook]

/-- The new checkpoint accounts for the history below its cutoff. -/
theorem Conserves.checkpointed_quantity (h : Conserves s w) {c : ℕ} (hwc : w < c) (k : Place) :
    (checkpointed s.db w c).checkpointQuantity k =
      netQuantity s.recordedEntries s.recordedExits (fun t => decide (t < c)) k := by
  by_cases hk : ∃ sku ∈ s.db.skus.rows, sku.place = k
  · obtain ⟨sku, hsku, rfl⟩ := hk
    have hnet : s.db.netMovement (fun t => decide (w ≤ t) && decide (t < c)) sku.place =
        netQuantity s.recordedEntries s.recordedExits
          (fun t => decide (w ≤ t) && decide (t < c)) sku.place :=
      netQuantity_eq_of_filter_eq (q := fun t => decide (w ≤ t))
        (fun t ht => (Bool.and_eq_true _ _ ▸ ht).1) h.entries h.exits _
    have hlow : ∀ t : ℕ, (decide (t < c) && decide (t < w)) = decide (t < w) := fun t => by
      rw [← Bool.decide_and]
      exact decide_eq_decide.2 (by omega)
    rw [checkpointQuantity_checkpointed hsku, netQuantity_split _ _ _ fun t => decide (t < w)]
    simp only [not_decide_lt, hlow, Bool.and_comm]
    rw [hnet, h.checkpoint]
  · -- no movement and no checkpoint at a place without a SKU
    have hzero : ∀ p, netQuantity s.recordedEntries s.recordedExits p k = 0 := fun p =>
      netQuantity_eq_zero (fun e he hp => (hk (hp ▸ h.recordedSku.1 e he)).elim)
        fun x hx hp => (hk (hp ▸ h.recordedSku.2 x hx)).elim
    rw [hzero, checkpointQuantity_checkpointed_of_ne fun sku hs hp => hk ⟨sku, hs, hp⟩]
    exact (h.checkpoint k).trans (hzero _)

theorem Conserves.checkpointed (h : Conserves s w) {c : ℕ} (hwc : w < c) {r : PruneRun}
    (hr : r.cutoff ≤ max s.cutoff c) :
    ∃ w', Conserves { s with
      db := checkpointed s.db w c
      cutoff := max s.cutoff c
      run := some r } w' := by
  have hmem := fun r => mem_checkpointed (w := w) (c := c) (r := r) h.checkpointSku
  by_cases hs : s.db.skus.rows = []
  · -- an empty checkpoint leaves the watermark where it was
    obtain ⟨hnone, he, hx⟩ := of_no_skus h.wellFormed h.checkpointSku hs
    have hrows : (Retention.checkpointed s.db w c).stockLedgerCheckpoints.rows = [] := by
      refine List.eq_nil_iff_forall_not_mem.2 fun r hm => ?_
      obtain ⟨sku, hsku, -⟩ := (hmem r).1 hm
      simp [hs] at hsku
    refine ⟨w, { h with
      watermark := ?_
      le_cutoff := le_max_of_le_left h.le_cutoff
      below := ?_
      checkpoint := fun k => ?_
      checkpointSku := ?_
      run := by simpa using hr
      wellFormed := { h.wellFormed with } }⟩
    · rw [← h.watermark]
      simp only [Ledger.watermarkParam, Ledger.checkpointWatermark, hrows, hnone]
    · exact ⟨fun e hm => by simp [Retention.checkpointed, he] at hm,
        fun x hm => by simp [Retention.checkpointed, hx] at hm⟩
    · rw [← h.checkpoint]
      simp only [Ledger.checkpointQuantity, Table.lookup, hrows, hnone]
    · intro r hm
      rw [hrows] at hm
      cases hm
  · obtain ⟨sku₀, hsku₀⟩ := List.exists_mem_of_ne_nil _ hs
    have hmono : ∀ {ρ : Type} (f : ρ → ℕ) (l l' : List ρ),
        l.filter (fun a => decide (w ≤ f a)) = l'.filter (fun a => decide (w ≤ f a)) →
        l.filter (fun a => decide (c ≤ f a)) = l'.filter fun a => decide (c ≤ f a) := by
      intro ρ f l l' hl
      have hsub : ∀ m : List ρ, (m.filter fun a => decide (w ≤ f a)).filter
          (fun a => decide (c ≤ f a)) = m.filter fun a => decide (c ≤ f a) := fun m =>
        filter_filter_eq fun a _ ha => by
          simp only [decide_eq_true_eq] at ha ⊢
          omega
      rw [← hsub l, ← hsub l', hl]
    refine ⟨c, { h with
      watermark := ?_
      le_cutoff := le_max_right _ _
      below := ⟨fun e hm hlt => ?_, fun x hm hlt => ?_⟩
      entries := hmono _ _ _ h.entries
      exits := hmono _ _ _ h.exits
      checkpoint := fun k => h.checkpointed_quantity hwc k
      checkpointSku := ?_
      run := by simpa using hr
      wellFormed := { h.wellFormed with } }⟩
    · rw [Ledger.watermarkParam_eq_ok_iff]
      refine ⟨some c, Ledger.checkpointWatermark_eq_some_iff.2 ⟨?_, fun r hm => ?_⟩, rfl⟩
      · exact List.ne_nil_of_mem ((hmem _).2 ⟨sku₀, hsku₀, rfl⟩)
      · obtain ⟨sku, -, rfl⟩ := (hmem r).1 hm
        rfl
    · rcases lt_max_iff.1 hlt with hlt | hlt
      · exact (h.below.1 e hm hlt).trans hwc
      · exact hlt
    · rcases lt_max_iff.1 hlt with hlt | hlt
      · exact (h.below.2 x hm hlt).trans hwc
      · exact hlt
    · intro r hm
      obtain ⟨sku, hsku, rfl⟩ := (hmem r).1 hm
      exact ⟨sku, hsku, rfl⟩

/-! ### Every step keeps it -/

theorem conserves_next {l : RetentionLabel} (h : Conserves s w) (hst : s.stamped l = true)
    (hn : s.next l = some s') : ∃ w', Conserves s' w' := by
  cases step_of_next hn with
  | op performed => exact ⟨w, h.op hst performed⟩
  | checkpoint _ begun =>
    obtain ⟨w', hw, hwc, rfl⟩ := Ledger.beginPrune_eq_ok begun
    obtain rfl : w = w' := Except.ok.inj (h.watermark.symm.trans hw)
    exact h.checkpointed hwc (le_max_right _ _)
  | @batch size cutoff _ _ _ _ running deleted =>
    have hc : cutoff ≤ s.cutoff := h.run _ running
    exact ⟨w, h.deleted hc (Ledger.deleteBatch_eq_some h.wellFormed deleted) (by simpa using hc)⟩
  | stop => exact ⟨w, { h with run := by simp, wellFormed := { h.wellFormed with } }⟩

/-- **Pruning conserves stock.**  After every transaction of every run in which movements are
stamped after the checkpoints written before them: the checkpoint balance plus the retained
movements from the watermark on is the signed sum of the full history, every movement that is
gone lies below the watermark, and verification reports no drift. -/
theorem prune_conserves_stock (clients : List Client) (skus : Table SKU.id) {s : Retention}
    (h : machine.Run (fun s l => s.stamped l = true) (start clients skus) s) :
    ∃ w, s.db.watermarkParam = .ok w ∧
      (∀ k, s.db.checkpointQuantity k + s.db.netMovement (fun t => decide (w ≤ t)) k =
        netQuantity s.recordedEntries s.recordedExits (fun _ => true) k) ∧
      (∀ e ∈ s.recordedEntries, e ∉ s.db.stockEntries → e.createdAt < w) ∧
      (∀ x ∈ s.recordedExits, x ∉ s.db.stockExits → x.createdAt < w) ∧
      s.db.verifyStockBalances = .ok [] := by
  obtain ⟨w, hw⟩ := h.invariant (fun s => ∃ w, Conserves s w) ⟨_, conserves_start clients skus⟩
    fun s l s' ⟨w, hw⟩ hst hn => conserves_next hw hst hn
  refine ⟨w, hw.watermark, hw.derived, fun e he hd => ?_, fun x hx hd => ?_, hw.verify⟩
  · by_contra hlt
    have hm : e ∈ s.recordedEntries.filter fun e => decide (w ≤ e.createdAt) :=
      List.mem_filter.2 ⟨he, by simpa using hlt⟩
    rw [← hw.entries] at hm
    exact hd (List.mem_of_mem_filter hm)
  · by_contra hlt
    have hm : x ∈ s.recordedExits.filter fun x => decide (w ≤ x.createdAt) :=
      List.mem_filter.2 ⟨hx, by simpa using hlt⟩
    rw [← hw.exits] at hm
    exact hd (List.mem_of_mem_filter hm)

/-- Two prunes of 30 days: the first is interrupted after its first deleted exit, a second SKU and
its receipt follow, and the second prune finishes the work. -/
def prunedRun : List RetentionLabel :=
  [.op (.createSku ⟨"Lamp", "LAMP-1", 7, .electronics, .LA, 0⟩ 1),
    .op (.recordInbound ⟨1, 9, "PO-1", .LA, nine_units_pos⟩ "u-1" (.afterEpoch 0) 1),
    .op (.recordOutbound ⟨1, 2, .dispatch, some "T-1", .LA, Nat.two_pos, dispatch_tracked _⟩ "u-1"
      (.afterEpoch 0) 1 1),
    .op (.recordOutbound ⟨1, 3, .loss, none, .LA, three_units_pos, by decide⟩ "u-1"
      (.afterEpoch day) 2 1),
    .pruneStart (.afterEpoch (40 * day)) 30, .batch 1, .batch 1, .batch 1, .interrupt,
    .op (.createSku ⟨"Vase", "VASE-1", 7, .fashion, .ZGZ, 0⟩ 2),
    .op (.recordInbound ⟨2, 4, "PO-2", .ZGZ, four_units_pos⟩ "u-1" (.afterEpoch (40 * day)) 2),
    .pruneStart (.afterEpoch (41 * day)) 30, .batch 5, .batch 5, .batch 5, .batch 5, .batch 5,
    .batch 5, .batch 5]

theorem prune_conserves_stock_twice :
    ∃ s, machine.Run (fun s l => s.stamped l = true) (start [⟨7, "Acme"⟩] .empty) s ∧
      (s.recordedEntries.length = 2 ∧ s.recordedExits.length = 2 ∧ s.db.stockEntries.length = 1 ∧
        s.db.stockExits = [] ∧ s.run = none) ∧
      ∃ w, s.db.watermarkParam = .ok w ∧
        (∀ k, s.db.checkpointQuantity k + s.db.netMovement (fun t => decide (w ≤ t)) k =
          netQuantity s.recordedEntries s.recordedExits (fun _ => true) k) ∧
        (∀ e ∈ s.recordedEntries, e ∉ s.db.stockEntries → e.createdAt < w) ∧
        (∀ x ∈ s.recordedExits, x ∉ s.db.stockExits → x.createdAt < w) ∧
        s.db.verifyStockBalances = .ok [] := by
  obtain ⟨s, hr, hs⟩ := machine.exists_run stamped (start [⟨7, "Acme"⟩] .empty) prunedRun
    (fun s => decide (s.recordedEntries.length = 2 ∧ s.recordedExits.length = 2 ∧
      s.db.stockEntries.length = 1 ∧ s.db.stockExits = []) && s.run.isNone) (by decide)
  simp only [Bool.and_eq_true, decide_eq_true_eq, Option.isNone_iff_eq_none] at hs
  obtain ⟨⟨h1, h2, h3, h4⟩, h5⟩ := hs
  exact ⟨s, hr, ⟨h1, h2, h3, h4, h5⟩, prune_conserves_stock [⟨7, "Acme"⟩] .empty hr⟩

end Retention

end TrackFlow
