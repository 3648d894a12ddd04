import TrackFlow.Inventory.Retention
import TrackFlow.Inventory.Seed

/-!
# The ledger under calls, prunes, seeds and backfills

The retention machine with two more transactions, `seed_inventory` and `backfill_history`, which
write movements with past instants.  A run starts from a ledger without movements, which is also
what a reset of the source tables leaves.

* `Balanced` : the invariant.  Every stored balance is the one that the checkpoint and the
  movements from its watermark on give.
* `balanced_of_run` : it holds after every transaction of every orderly run.
-/

namespace TrackFlow

/-- One transaction. -/
inductive UpkeepLabel
  | retention (l : RetentionLabel)
  | seed (ids : SeedIds) (userUuid : String)
  | backfill (isoformat : ℕ → String) (draws : ℕ → SKU → BackfillDay) (userUuid : String)
      (now : Clock) (days : ℕ)

namespace Retention

/-- The state after movements written in bulk. -/
def refilled (s : Retention) (db : Ledger) : Retention :=
  { s with
    db := db
    recordedEntries := s.recordedEntries ++ db.stockEntries.drop s.db.stockEntries.length
    recordedExits := s.recordedExits ++ db.stockExits.drop s.db.stockExits.length }

/-- The state after a transaction. -/
def upkeepNext (s : Retention) : UpkeepLabel → Option Retention
  | .retention l => s.next l
  | .seed ids userUuid =>
    match s.db.seedInventory ids userUuid with
    | .error _ => none
    | .ok db => some (s.refilled db)
  | .backfill isoformat draws userUuid now days =>
    match s.db.backfillHistory isoformat draws userUuid now.instant days with
    | .error _ => none
    | .ok db => some (s.refilled db)

/-- The machine of the ledger under retention, seeds and backfills. -/
def upkeep : Machine Retention UpkeepLabel := ⟨upkeepNext⟩

/-- Calls are stamped at or after the checkpoints before them.  Nothing is written in bulk while a
prune is deleting that had no SKU to write a checkpoint for. -/
def orderly (s : Retention) : UpkeepLabel → Bool
  | .retention l => s.stamped l
  | _ => s.run.isNone || !s.db.stockLedgerCheckpoints.rows.isEmpty

theorem netQuantity_congr {es : List StockEntry} {xs : List StockExit} {p q : ℕ → Bool}
    (he : ∀ e ∈ es, p e.createdAt = q e.createdAt) (hx : ∀ x ∈ xs, p x.createdAt = q x.createdAt)
    (k : Place) : netQuantity es xs p k = netQuantity es xs q k := by
  unfold netQuantity
  refine congrArg₂ (· - ·) (sumWhere_congr (fun e hm => ?_) fun _ _ _ => rfl)
    (sumWhere_congr (fun x hm => ?_) fun _ _ _ => rfl)
  · rw [he e hm]
  · rw [hx x hm]

end Retention

/-! ## Without drift -/

/-- No stored balance drifts from the one derived at watermark `w`. -/
structure Undrifted (db : Ledger) (w : ℕ) : Prop where
  wellFormed : WellFormed db
  watermark : db.watermarkParam = .ok w
  checkpointSku : ∀ r ∈ db.stockLedgerCheckpoints.rows, ∃ sku ∈ db.skus.rows, sku.place = r.place
  balance : ∀ k, db.storedBalance k = db.derivedQuantity w k

namespace Ledger

variable {db db' : Ledger} {w : ℕ}

theorem watermarkParam_congr (h : db'.stockLedgerCheckpoints = db.stockLedgerCheckpoints) :
    db'.watermarkParam = db.watermarkParam := by
  simp only [watermarkParam, checkpointWatermark, h]

theorem checkpointQuantity_congr (h : db'.stockLedgerCheckpoints = db.stockLedgerCheckpoints)
    (k : Place) : db'.checkpointQuantity k = db.checkpointQuantity k := by
  simp only [checkpointQuantity, h]

/-- No movement is at a place without a SKU. -/
theorem netMovement_of_no_sku (hwf : WellFormed db) {k : Place}
    (hk : ∀ sku ∈ db.skus.rows, sku.place ≠ k) (p : ℕ → Bool) : db.netMovement p k = 0 := by
  refine Retention.netQuantity_eq_zero (fun e he hp => ?_) fun x hx hp => ?_
  · obtain ⟨sku, hs, hplace⟩ := (hwf.entrySku e he).2
    exact (hk sku hs (hplace.trans hp)).elim
  · obtain ⟨sku, hs, hplace⟩ := (hwf.exitSku x hx).2
    exact (hk sku hs (hplace.trans hp)).elim

/-! ### Bulk writes -/

/-- What re-deriving the balances does. -/
theorem rederived_eq_ok (hw : db.watermarkParam = .ok w) (h : db.rederived = .ok db') :
    (∃ balances, db' = { db with stockBalances := balances }) ∧
      (∀ sku ∈ db.skus.rows, db'.storedBalance sku.place = db.derivedQuantity w sku.place) ∧
      ∀ k, (∀ sku ∈ db.skus.rows, sku.place ≠ k) → db'.storedBalance k = db.storedBalance k := by
  unfold rederived rebuildStockBalances at h
  rw [hw] at h
  cases h
  refine ⟨⟨_, rfl⟩, fun sku hs => ?_, fun k hk => ?_⟩
  · have hlook := Table.lookup_upsertAll_of_mem (t := db.stockBalances)
      (h := db.keysDistinct_skus (db.rebuiltBalance w) fun _ => rfl) (List.mem_map_of_mem hs)
    change ((Table.lookup _ (db.rebuiltBalance w sku).place).map _).getD 0 = _
    rw [hlook]
    rfl
  · have hnot : k ∉ (db.skus.rows.map (db.rebuiltBalance w)).map StockBalance.place := by
      rw [List.map_map]
      intro hm
      obtain ⟨sku, hs, hp⟩ := List.mem_map.1 hm
      exact hk sku hs hp
    simp only [storedBalance]
    rw [Table.lookup_upsertAll_of_notMem hnot]

theorem rederived_isOk (hw : db.watermarkParam = .ok w) : ∃ db', db.rederived = .ok db' := by
  unfold rederived rebuildStockBalances
  rw [hw]
  exact ⟨_, rfl⟩

/-- A loop whose rounds keep a part of the ledger keeps it. -/
theorem foldlM_keeps {α β ε : Type} {f : Ledger → α → Except ε Ledger} {g : Ledger → β}
    {xs : List α} (hf : ∀ db x db', f db x = .ok db' → g db' = g db)
    (h : xs.foldlM f db = .ok db') : g db' = g db := by
  induction xs generalizing db with
  | nil =>
    cases h
    rfl
  | cons x xs ih =>
    rw [List.foldlM_cons, except_bind_eq_ok] at h
    obtain ⟨db₁, hx, h⟩ := h
    exact (ih h).trans (hf _ x db₁ hx)

theorem foldl_keeps {σ α β : Type} {f : σ → α → σ} {g : σ → β} {xs : List α}
    (hf : ∀ b, ∀ x ∈ xs, g (f b x) = g b) (b : σ) : g (xs.foldl f b) = g b := by
  induction xs generalizing b with
  | nil => rfl
  | cons x xs ih =>
    rw [List.foldl_cons, ih (fun b y hy => hf b y (List.mem_cons_of_mem x hy))]
    exact hf b x List.mem_cons_self

variable {isoformat : ℕ → String} {draws : ℕ → SKU → BackfillDay} {userUuid : String}
  {now days : ℕ}

/-- The movements of a backfill. -/
def backfillDays (db : Ledger) (isoformat : ℕ → String) (draws : ℕ → SKU → BackfillDay)
    (userUuid : String) (now days : ℕ) : Backfill :=
  (dayOffsets days).foldl
    (fun b offset => db.skus.rows.foldl (backfillSku isoformat draws userUuid now offset) b)
    (db, fun _ => 0)

theorem backfillHistory_eq (hne : db.skus.rows ≠ []) (hd : days * day ≤ now) :
    db.backfillHistory isoformat draws userUuid now days =
      (db.backfillDays isoformat draws userUuid now days).1.rederived := by
  rw [backfillHistory, if_neg hne, if_neg (not_lt.2 hd)]
  rfl

theorem rounds_backfillDays :
    Reseeded.Rounds (db, fun _ => 0) (db.backfillDays isoformat draws userUuid now days) := by
  refine Reseeded.Rounds.foldl fun b hb offset _ => Reseeded.Rounds.foldl fun b' hb' sku hs => ?_
  exact Reseeded.backfillSku (by rw [hb', hb]; exact hs)

end Ledger

/-- What a seed or a backfill does: it adds movements and SKUs, and re-derives the balances. -/
def Refilled (db db' : Ledger) : Prop :=
  ∃ db₁, Reseeded db db₁ ∧ db₁.stockBalances = db.stockBalances ∧ db₁.rederived = .ok db'

namespace Refilled

variable {db db' : Ledger}

theorem ensureClient {ids : SeedIds} {name : String} (h : db.ensureClient ids name = .ok db') :
    db'.stockBalances = db.stockBalances := by
  obtain ⟨rfl, -⟩ | ⟨-, rfl⟩ := Ledger.ensureClient_cases h <;> rfl

theorem ensureSku {ids : SeedIds} {item : SKUSeed} (h : db.ensureSku ids item = .ok db') :
    db'.stockBalances = db.stockBalances := by
  obtain ⟨_, -, ⟨_, -, -, rfl⟩ | ⟨-, _, -, rfl⟩⟩ := Ledger.ensureSku_cases h <;> rfl

theorem ensureEntry {userUuid : String} {item : EntrySeed}
    (h : db.ensureEntry userUuid item = .ok db') : db'.stockBalances = db.stockBalances := by
  obtain ⟨_, -, ⟨_, -, -, rfl⟩ | ⟨-, rfl⟩⟩ := Ledger.ensureEntry_cases h <;> rfl

theorem ensureExit {userUuid : String} {item : ExitSeed}
    (h : db.ensureExit userUuid item = .ok db') : db'.stockBalances = db.stockBalances := by
  obtain ⟨_, -, ⟨_, -, -, rfl⟩ | ⟨-, -, rfl⟩⟩ := Ledger.ensureExit_cases h <;> rfl

theorem seedInventory {ids : SeedIds} {userUuid : String}
    (h : db.seedInventory ids userUuid = .ok db') : Refilled db db' := by
  simp only [Ledger.seedInventory, except_bind_eq_ok] at h
  obtain ⟨db₁, h₁, db₂, h₂, db₃, h₃, db₄, h₄, h₅⟩ := h
  refine ⟨db₄, ?_, ?_, h₅⟩
  · exact (Reseeded.foldlM (fun _ _ _ => Reseeded.ensureClient) h₁).trans <|
      (Reseeded.foldlM (fun _ _ _ => Reseeded.ensureSku) h₂).trans <|
      (Reseeded.foldlM (fun _ _ _ => Reseeded.ensureEntry) h₃).trans <|
      Reseeded.foldlM (fun _ _ _ => Reseeded.ensureExit) h₄
  · exact (Ledger.foldlM_keeps (fun _ _ _ => ensureExit) h₄).trans <|
      (Ledger.foldlM_keeps (fun _ _ _ => ensureEntry) h₃).trans <|
      (Ledger.foldlM_keeps (fun _ _ _ => ensureSku) h₂).trans <|
      Ledger.foldlM_keeps (fun _ _ _ => ensureClient) h₁

theorem backfillExits {userUuid : String} {instant : ℕ} {sku : SKU} {draws : List BackfillExit}
    (b : Ledger.Backfill) :
    (Ledger.backfillExits userUuid instant sku draws b).1.stockBalances = b.1.stockBalances := by
  induction draws generalizing b with
  | nil => rfl
  | cons draw draws ih =>
    unfold Ledger.backfillExits
    split_ifs
    · rfl
    · exact ih _

theorem backfillDays {isoformat : ℕ → String} {draws : ℕ → SKU → BackfillDay} {userUuid : String}
    {now days : ℕ} :
    (db.backfillDays isoformat draws userUuid now days).1.stockBalances = db.stockBalances := by
  let balances (b : Ledger.Backfill) := b.1.stockBalances
  have hday : ∀ (b : Ledger.Backfill), ∀ offset ∈ Ledger.dayOffsets days, balances
      (db.skus.rows.foldl (Ledger.backfillSku isoformat draws userUuid now offset) b) =
        balances b := fun b offset _ =>
    Ledger.foldl_keeps (fun b sku _ => backfillExits (Ledger.backfillEntry _ _ _ sku _ b)) b
  exact Ledger.foldl_keeps hday _

/-- A backfill with SKUs writes its movements and re-derives the balances. -/
theorem backfillHistory {isoformat : ℕ → String} {draws : ℕ → SKU → BackfillDay}
    {userUuid : String} {now days : ℕ}
    (h : db.backfillHistory isoformat draws userUuid now days = .ok db') :
    db' = db ∨ Refilled db db' := by
  unfold Ledger.backfillHistory at h
  split_ifs at h
  · cases h
    exact .inl rfl
  · exact .inr ⟨_, Ledger.rounds_backfillDays.1, backfillDays, h⟩

end Refilled

namespace Undrifted

variable {db db' : Ledger} {w : ℕ}

/-- **A bulk write leaves no drift**, from a ledger without drift. -/
theorem refilled (h : Undrifted db w) (hr : Refilled db db') : Undrifted db' w := by
  obtain ⟨db₁, hre, hbal, hder⟩ := hr
  have hcp := hre.checkpoints
  have hw₁ : db₁.watermarkParam = .ok w := (Ledger.watermarkParam_congr hcp).trans h.watermark
  have hwf₁ := hre.wellFormed h.wellFormed
  obtain ⟨⟨balances, rfl⟩, hsku, hother⟩ := Ledger.rederived_eq_ok hw₁ hder
  refine ⟨(Reseeded.rederived hder).wellFormed hwf₁, hw₁, ?_, fun k => ?_⟩
  · change ∀ r ∈ db₁.stockLedgerCheckpoints.rows, _
    rw [hcp]
    exact fun r hr => hre.skus.lift_place (h.checkpointSku r hr)
  · change _ = db₁.derivedQuantity w k
    by_cases hk : ∃ sku ∈ db₁.skus.rows, sku.place = k
    · obtain ⟨sku, hs, rfl⟩ := hk
      exact hsku sku hs
    · -- at a place without a SKU there is nothing but an old checkpoint
      have hk₁ : ∀ sku ∈ db₁.skus.rows, sku.place ≠ k := fun sku hs hp => hk ⟨sku, hs, hp⟩
      have hk₀ : ∀ sku ∈ db.skus.rows, sku.place ≠ k := fun sku hs hp =>
        hk (hre.skus.lift_place ⟨sku, hs, hp⟩)
      have hold := h.balance k
      rw [Ledger.derivedQuantity, Ledger.netMovement_of_no_sku h.wellFormed hk₀] at hold
      rw [hother k hk₁, Ledger.derivedQuantity, Ledger.netMovement_of_no_sku hwf₁ hk₁,
        Ledger.checkpointQuantity_congr hcp, ← hold]
      simp only [Ledger.storedBalance, hbal]

/-- A service call leaves no drift when its movement is at or after the watermark. -/
theorem op {op : LedgerOp} (h : Undrifted db w) (hop : op.perform db = .ok db')
    (ht : ∀ t, op.movementTime = some t → w ≤ t) : Undrifted db' w := by
  have hp := LedgerOp.perform_eq_ok hop
  refine ⟨h.wellFormed.perform hop, (Ledger.watermarkParam_congr hp.checkpoints).trans h.watermark,
    ?_, fun k => ?_⟩
  · rw [hp.checkpoints]
    exact fun r hr => hp.skus.lift_place (h.checkpointSku r hr)
  · have hnew : netQuantity op.entries op.exits (fun t => decide (w ≤ t)) k =
        netQuantity op.entries op.exits (fun _ => true) k := by
      refine Retention.netQuantity_congr (fun e he => ?_) (fun x hx => ?_) k
      · exact decide_eq_true (ht _ (Retention.movementTime_entries he))
      · exact decide_eq_true (ht _ (Retention.movementTime_exits hx))
    rw [hp.balance, h.balance, Ledger.derivedQuantity, Ledger.derivedQuantity,
      Ledger.checkpointQuantity_congr hp.checkpoints, Ledger.netMovement, Ledger.netMovement,
      hp.entries, hp.exits, netQuantity_append, hnew, add_assoc]

/-- Deleting movements below the watermark leaves no drift. -/
theorem deleted {c : ℕ} (h : Undrifted db w) (hd : Ledger.Deleted c db db')
    (hes : ∀ e ∈ db.stockEntries, e.createdAt < c → e.createdAt < w)
    (hxs : ∀ x ∈ db.stockExits, x.createdAt < c → x.createdAt < w) : Undrifted db' w := by
  obtain ⟨qe, he, hqe⟩ := hd.entries
  obtain ⟨qx, hx, hqx⟩ := hd.exits
  refine ⟨hd.wellFormed h.wellFormed, (Ledger.watermarkParam_congr hd.checkpoints).trans
    h.watermark, ?_, fun k => ?_⟩
  · rw [hd.checkpoints, hd.skus]
    exact h.checkpointSku
  · have hnet : db'.netMovement (fun t => decide (w ≤ t)) k =
        db.netMovement (fun t => decide (w ≤ t)) k := by
      refine Retention.netQuantity_eq_of_filter_eq (q := fun t => decide (w ≤ t)) (fun _ h => h)
        ?_ ?_ k
      · rw [he]
        refine Retention.filter_filter_eq fun e hm hw => ?_
        by_contra hq
        exact absurd (hes e hm (hqe e hm (by simpa using hq))) (not_lt.2 (of_decide_eq_true hw))
      · rw [hx]
        refine Retention.filter_filter_eq fun x hm hw => ?_
        by_contra hq
        exact absurd (hxs x hm (hqx x hm (by simpa using hq))) (not_lt.2 (of_decide_eq_true hw))
    rw [Ledger.derivedQuantity, hnet, Ledger.checkpointQuantity_congr hd.checkpoints]
    refine Eq.trans ?_ (h.balance k)
    simp only [Ledger.storedBalance, hd.balances]

/-- A checkpoint moves the watermark and leaves no drift. -/
theorem checkpointed {c : ℕ} (h : Undrifted db w) (hwc : w < c) (hs : db.skus.rows ≠ []) :
    Undrifted (Retention.checkpointed db w c) c := by
  have hmem := fun r => Retention.mem_checkpointed (w := w) (c := c) (r := r) h.checkpointSku
  refine ⟨{ h.wellFormed with }, ?_, ?_, fun k => ?_⟩
  · obtain ⟨sku₀, hsku₀⟩ := List.exists_mem_of_ne_nil _ hs
    rw [Ledger.watermarkParam_eq_ok_iff]
    refine ⟨some c, Ledger.checkpointWatermark_eq_some_iff.2 ⟨?_, fun r hm => ?_⟩, rfl⟩
    · exact List.ne_nil_of_mem ((hmem _).2 ⟨sku₀, hsku₀, rfl⟩)
    · obtain ⟨sku, -, rfl⟩ := (hmem r).1 hm
      rfl
  · intro r hm
    obtain ⟨sku, hsku, rfl⟩ := (hmem r).1 hm
    exact ⟨sku, hsku, rfl⟩
  · have hsplit := Retention.netQuantity_split db.stockEntries db.stockExits
      (fun t => decide (w ≤ t)) (fun t => decide (t < c)) k
    have hlate : (fun t => decide (w ≤ t) && !decide (t < c)) = fun t => decide (c ≤ t) := by
      funext t
      rw [Retention.not_decide_lt, ← Bool.decide_and]
      exact decide_eq_decide.2 (by omega)
    rw [hlate] at hsplit
    have hstored : (Retention.checkpointed db w c).storedBalance k = db.storedBalance k := rfl
    rw [hstored, h.balance]
    by_cases hk : ∃ sku ∈ db.skus.rows, sku.place = k
    · obtain ⟨sku, hsku, rfl⟩ := hk
      rw [Ledger.derivedQuantity, Ledger.derivedQuantity,
        Retention.checkpointQuantity_checkpointed hsku, Ledger.netMovement, hsplit, ← add_assoc]
      rfl
    · have hk' : ∀ sku ∈ db.skus.rows, sku.place ≠ k := fun sku hs hp => hk ⟨sku, hs, hp⟩
      rw [Ledger.derivedQuantity, Ledger.derivedQuantity,
        Retention.checkpointQuantity_checkpointed_of_ne hk',
        Ledger.netMovement_of_no_sku h.wellFormed hk']
      exact congrArg _ (Ledger.netMovement_of_no_sku h.wellFormed hk' _).symm

end Undrifted

/-! ## Runs -/

namespace Retention

variable {s s' : Retention} {w : ℕ}

/-- The invariant. -/
structure Balanced (s : Retention) (w : ℕ) : Prop where
  undrifted : Undrifted s.db w
  le_cutoff : w ≤ s.cutoff
  run : ∀ r ∈ s.run, r.cutoff ≤ s.cutoff
  /-- What a running prune may delete lies below the watermark. -/
  below : ∀ r ∈ s.run, (∀ e ∈ s.db.stockEntries, e.createdAt < r.cutoff → e.createdAt < w) ∧
    ∀ x ∈ s.db.stockExits, x.createdAt < r.cutoff → x.createdAt < w
  covered : ∀ r ∈ s.run, s.db.stockLedgerCheckpoints.rows ≠ [] → r.cutoff ≤ w

theorem undrifted_start (clients : List Client) (skus : Table SKU.id) :
    Undrifted (start clients skus).db beginningOfTime := by
  constructor <;> simp [start, Ledger.empty, Ledger.watermarkParam, Ledger.checkpointWatermark,
    Except.map, Ledger.checkpointQuantity, Ledger.storedBalance, Ledger.derivedQuantity,
    Ledger.netMovement, netQuantity]
  constructor <;> simp

theorem balanced_start (clients : List Client) (skus : Table SKU.id) :
    Balanced (start clients skus) beginningOfTime where
  undrifted := undrifted_start clients skus
  le_cutoff := le_refl _
  run := by simp [start]
  below := by simp [start]
  covered := by simp [start]

theorem Balanced.op {op : LedgerOp} {db' : Ledger} (h : Balanced s w)
    (hst : s.stamped (.op op) = true) (hop : op.perform s.db = .ok db') :
    Balanced { s with
      db := db'
      recordedEntries := s.recordedEntries ++ op.entries
      recordedExits := s.recordedExits ++ op.exits } w := by
  have hp := LedgerOp.perform_eq_ok hop
  have htime : ∀ t, op.movementTime = some t → s.cutoff ≤ t := fun t ht => by
    simpa [stamped, ht] using hst
  refine ⟨h.undrifted.op hop fun t ht => h.le_cutoff.trans (htime t ht), h.le_cutoff, h.run,
    fun r hr => ⟨?_, ?_⟩, fun r hr => ?_⟩
  · rw [hp.entries]
    intro e he hlt
    rcases List.mem_append.1 he with he | he
    · exact (h.below r hr).1 e he hlt
    · exact absurd ((h.run r hr).trans (htime _ (movementTime_entries he))) (not_le.2 hlt)
  · rw [hp.exits]
    intro x hx hlt
    rcases List.mem_append.1 hx with hx | hx
    · exact (h.below r hr).2 x hx hlt
    · exact absurd ((h.run r hr).trans (htime _ (movementTime_exits hx))) (not_le.2 hlt)
  · rw [hp.checkpoints]
    exact h.covered r hr

theorem Balanced.pruneStart {c : ℕ} (h : Balanced s w) (hwc : w < c) :
    ∃ w', Balanced { s with
      db := checkpointed s.db w c
      cutoff := max s.cutoff c
      run := some ⟨c, pruneSteps⟩ } w' := by
  have hwf := h.undrifted.wellFormed
  by_cases hs : s.db.skus.rows = []
  · -- nothing is written, and there is nothing to delete
    obtain ⟨hnone, he, hx⟩ := of_no_skus hwf h.undrifted.checkpointSku hs
    have hcp : (checkpointed s.db w c).stockLedgerCheckpoints.rows = [] := by
      refine List.eq_nil_iff_forall_not_mem.2 fun r hm => ?_
      obtain ⟨sku, hsku, -⟩ := (mem_checkpointed h.undrifted.checkpointSku).1 hm
      simp [hs] at hsku
    refine ⟨w, ⟨{ hwf with }, ?_, ?_, fun k => ?_⟩, le_max_of_le_left h.le_cutoff, by simp, ?_, ?_⟩
    · rw [← h.undrifted.watermark]
      simp only [Ledger.watermarkParam, Ledger.checkpointWatermark, hcp, hnone]
    · rw [hcp]
      simp
    · refine (h.undrifted.balance k).trans ?_
      rw [Ledger.derivedQuantity, Ledger.derivedQuantity,
        checkpointQuantity_checkpointed_of_ne (by simp [hs])]
      rfl
    · exact fun r _ => ⟨fun e hm => by simp [checkpointed, he] at hm,
        fun x hm => by simp [checkpointed, hx] at hm⟩
    · exact fun r _ hne => (hne hcp).elim
  · refine ⟨c, h.undrifted.checkpointed hwc hs, le_max_right _ _, by simp, ?_, by simp⟩
    simp only [Option.mem_some_iff, forall_eq']
    exact ⟨fun _ _ h => h, fun _ _ h => h⟩

theorem Balanced.deleted {r : PruneRun} {steps : List PruneStep} {db' : Ledger}
    (h : Balanced s w) (hr : s.run = some r) (hd : Ledger.Deleted r.cutoff s.db db') :
    Balanced { s with db := db', run := some ⟨r.cutoff, steps⟩ } w := by
  obtain ⟨qe, he, -⟩ := hd.entries
  obtain ⟨qx, hx, -⟩ := hd.exits
  obtain ⟨hes, hxs⟩ := h.below r hr
  refine ⟨h.undrifted.deleted hd hes hxs, h.le_cutoff, ?_, ?_, ?_⟩
  · simpa using h.run r hr
  · simp only [Option.mem_some_iff, forall_eq', he, hx]
    exact ⟨fun e hm => hes e (List.mem_of_mem_filter hm),
      fun x hm => hxs x (List.mem_of_mem_filter hm)⟩
  · simpa [hd.checkpoints] using h.covered r hr

/-- A prune that ends leaves everything else as it is. -/
theorem Balanced.stop (h : Balanced s w) : Balanced { s with run := none } w :=
  ⟨h.undrifted, h.le_cutoff, by simp, by simp, by simp⟩

theorem Balanced.refilled {db' : Ledger} (h : Balanced s w) (hr : Refilled s.db db')
    (ho : (s.run.isNone || !s.db.stockLedgerCheckpoints.rows.isEmpty) = true) :
    Balanced (s.refilled db') w := by
  obtain ⟨db₁, hre, hbal, hder⟩ := hr
  have hcp : db'.stockLedgerCheckpoints = s.db.stockLedgerCheckpoints :=
    (Reseeded.rederived hder).checkpoints.trans hre.checkpoints
  -- a running prune deletes only below a watermark that covers it
  have hle : ∀ r ∈ s.run, r.cutoff ≤ w := fun r hr => by
    refine h.covered r hr fun hnone => ?_
    rw [Option.mem_def] at hr
    simp [hr, hnone] at ho
  exact ⟨h.undrifted.refilled ⟨db₁, hre, hbal, hder⟩, h.le_cutoff, h.run,
    fun r hr => ⟨fun e _ hlt => hlt.trans_le (hle r hr), fun x _ hlt => hlt.trans_le (hle r hr)⟩,
    fun r hr _ => hle r hr⟩

theorem balanced_next {l : RetentionLabel} (h : Balanced s w) (hst : s.stamped l = true)
    (hn : s.next l = some s') : ∃ w', Balanced s' w' := by
  cases step_of_next hn with
  | op performed => exact ⟨w, h.op hst performed⟩
  | checkpoint _ begun =>
    obtain ⟨w', hw, hwc, rfl⟩ := Ledger.beginPrune_eq_ok begun
    obtain rfl : w = w' := Except.ok.inj (h.undrifted.watermark.symm.trans hw)
    exact h.pruneStart hwc
  | batch running deleted =>
    exact ⟨w, h.deleted running (Ledger.deleteBatch_eq_some h.undrifted.wellFormed deleted)⟩
  | stop => exact ⟨w, h.stop⟩

theorem balanced_upkeepNext {l : UpkeepLabel} (h : Balanced s w) (ho : s.orderly l = true)
    (hn : s.upkeepNext l = some s') : ∃ w', Balanced s' w' := by
  cases l with
  | retention l => exact balanced_next h ho hn
  | seed ids userUuid =>
    simp only [upkeepNext] at hn
    split at hn <;> cases hn
    exact ⟨w, h.refilled (Refilled.seedInventory ‹_›) ho⟩
  | backfill isoformat draws userUuid now days =>
    simp only [upkeepNext] at hn
    split at hn <;> cases hn
    rename_i db hb
    rcases Refilled.backfillHistory hb with rfl | hr
    · exact ⟨w, h.undrifted, h.le_cutoff, h.run, h.below, h.covered⟩
    · exact ⟨w, h.refilled hr ho⟩

/-- **No balance drifts** in an orderly run. -/
theorem balanced_of_run {clients : List Client} {skus : Table SKU.id}
    (h : upkeep.Run (fun s l => s.orderly l = true) (start clients skus) s) :
    ∃ w, Balanced s w :=
  h.invariant (fun s => ∃ w, Balanced s w) ⟨_, balanced_start clients skus⟩
    fun _ _ _ ⟨_, hw⟩ ho hn => balanced_upkeepNext hw ho hn

end Retention

end TrackFlow
