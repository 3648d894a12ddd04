import TrackFlow.Gauge.Threshold
import TrackFlow.Inventory.Movements
import TrackFlow.Inventory.Operations

/-!
# Stockout events

The stock of a SKU and its minimum are a `Gauge`: receipts fill it, exits withdraw from it, and
updates of the threshold arm it.  `Moved` says of one committed call what it does to the gauge of a
SKU and which stockout events it adds; runs of calls follow by induction.

* `gauge` : the gauge of a SKU in a database.
* `Moved.perform` : the moves of one service call.
* `stockouts_eq_crossings` : **the stockout events of a SKU are the crossings of its gauge**, over
  every history of service calls.
* `stockouts_eq_crossings_interleaved` : the same for movements under any interleaving.
-/

namespace TrackFlow

namespace Inventory

open Ledger RowLock

/-- The gauge of a SKU: its stock and its minimum. -/
def gauge (db : Ledger) (skuId : ℕ) : Option Gauge :=
  (db.getSku skuId).map fun sku => ⟨db.currentStock skuId sku.warehouse, sku.minStockThreshold⟩

/-- What a stockout event tells: its exit, the threshold and the stock after the exit. -/
structure Alert where
  stockExitId : ℕ
  thresholdAtEvent : ℕ
  stockAfter : ℤ
  deriving DecidableEq, Repr

/-- What an event tells. -/
def alertOf (v : StockoutEvent) : Alert := ⟨v.stockExitId, v.thresholdAtEvent, v.stockAfter⟩

/-- What the stockout events of a SKU tell, in the order in which they were recorded. -/
def alerts (db : Ledger) (skuId : ℕ) : List Alert :=
  (db.stockoutEvents.filter fun v => decide (v.skuId = skuId)).map alertOf

/-- The alert of an exit that crosses the threshold. -/
def Reading.alert (r : Reading ℕ) : Alert := ⟨r.name, r.threshold, r.after⟩

/-- What a committed call does to the gauge and to the events of a SKU. -/
structure Moved (skuId : ℕ) (db db' : Ledger) (moves : List (Move ℕ)) : Prop where
  gauge : ∀ g, gauge db skuId = some g → Inventory.gauge db' skuId = some (g.after moves)
  alerts : ∀ g, Inventory.gauge db skuId = some g →
    alerts db' skuId = Inventory.alerts db skuId ++ (g.crossings moves).map Reading.alert

section Moved

variable {skuId : ℕ} {db db' db'' : Ledger} {moves moves' : List (Move ℕ)}

theorem Moved.refl : Moved skuId db db [] := ⟨fun _ h => h, fun _ _ => by simp⟩

theorem Moved.trans (h : Moved skuId db db' moves) (h' : Moved skuId db' db'' moves') :
    Moved skuId db db'' (moves ++ moves') := by
  refine ⟨fun g hg => ?_, fun g hg => ?_⟩
  · rw [Gauge.after_append]
    exact h'.gauge _ (h.gauge g hg)
  · rw [h'.alerts _ (h.gauge g hg), h.alerts g hg, Gauge.crossings_append, List.map_append,
      List.append_assoc]

/-- A call that leaves the SKU, its stock and the events alone. -/
theorem Moved.of_same (hs : ∀ sku, db.getSku skuId = some sku → db'.getSku skuId = some sku)
    (hb : ∀ w, db'.storedBalance (skuId, w) = db.storedBalance (skuId, w))
    (hv : db'.stockoutEvents = db.stockoutEvents) : Moved skuId db db' [] := by
  refine ⟨fun g hg => ?_, fun g _ => by simp [Inventory.alerts, hv]⟩
  obtain ⟨sku, hsku, rfl⟩ := Option.map_eq_some_iff.1 hg
  simp [Inventory.gauge, hs sku hsku, hb]

/-- A receipt. -/
theorem Moved.recordInbound {payload : StockEntryCreate} {userUuid : String} {now : Clock} {id : ℕ}
    {e : StockEntry} (h : db.recordInbound payload userUuid now id = .ok (db', e)) :
    Moved skuId db db' (if payload.skuId = skuId then [.fill payload.quantity] else []) := by
  obtain ⟨sku, hsku, hw, rfl, -, rfl⟩ := recordInbound_eq_ok h
  split_ifs with hid
  · subst hid
    refine ⟨fun g hg => ?_, fun g _ => ?_⟩
    · obtain ⟨sku', hsku', rfl⟩ := Option.map_eq_some_iff.1 hg
      obtain rfl : sku' = sku := Option.some.inj (hsku'.symm.trans hsku)
      have hsame : ((db.setBalance ⟨payload.skuId, payload.warehouse,
          db.currentStock payload.skuId payload.warehouse + payload.quantity⟩).addEntry
            (newEntry payload userUuid now id)).getSku payload.skuId = some sku' := hsku
      simp [Inventory.gauge, hsame, Gauge.after, Gauge.move, hw]
    · exact (List.append_nil _).symm
  · refine .of_same (fun _ hs => hs) (fun w => ?_) rfl
    simp [hid]

theorem stockoutEvents_addDueStockout (event : Option StockoutEvent) :
    (db.addDueStockout event).stockoutEvents = db.stockoutEvents ++ event.toList := by
  cases event with
  | none => exact (List.append_nil _).symm
  | some v => rfl

/-- The event of an exit is due if the reading of the gauge crosses, and it tells the reading. -/
theorem map_alertOf_stockoutDue (sku : SKU) (x : StockExit) (available : ℤ) (eventId : ℕ) :
    (stockoutDue sku x available eventId).toList.map alertOf =
      (Gauge.crossings ⟨available, sku.minStockThreshold⟩ [.withdraw x.id x.quantity]).map
        Reading.alert := by
  have hiff : crossesThreshold sku.minStockThreshold available (available - x.quantity) =
      decide (Reading.Crosses (ξ := ℕ)
        ⟨x.id, sku.minStockThreshold, available, available - x.quantity⟩) := by
    simp [crossesThreshold, Reading.Crosses, Bool.decide_and, Bool.and_assoc]
  simp only [stockoutDue, Gauge.crossings, Gauge.readings, Gauge.read, List.append_nil,
    List.filter_singleton, hiff]
  split_ifs with hc
  · simp [hc, alertOf, newStockout, Reading.alert]
  · simp [hc]

theorem skuId_of_stockoutDue (sku : SKU) (x : StockExit) (available : ℤ) (eventId : ℕ) :
    ∀ v ∈ (stockoutDue sku x available eventId).toList, v.skuId = x.skuId := by
  intro v hv
  obtain ⟨-, rfl⟩ := stockoutDue_eq_some (Option.mem_toList.1 hv)
  rfl

/-- An exit. -/
theorem Moved.recordOutbound {payload : StockExitCreate} {userUuid : String} {now : Clock}
    {id eventId : ℕ} {x : StockExit}
    (h : db.recordOutbound payload userUuid now id eventId = .ok (db', x)) :
    Moved skuId db db' (if payload.skuId = skuId then [.withdraw id payload.quantity] else []) := by
  obtain ⟨sku, hsku, hw, rfl, -, rfl⟩ := recordOutbound_eq_ok h
  -- the events of the exit, whatever they are, are about the SKU of the exit
  have hown := skuId_of_stockoutDue sku (newExit payload userUuid now id)
    (db.currentStock payload.skuId payload.warehouse) eventId
  have htell := map_alertOf_stockoutDue sku (newExit payload userUuid now id)
    (db.currentStock payload.skuId payload.warehouse) eventId
  generalize stockoutDue sku (newExit payload userUuid now id)
    (db.currentStock payload.skuId payload.warehouse) eventId = due at hown htell ⊢
  have hsame (s : ℕ) : Ledger.getSku (((db.setBalance ⟨payload.skuId, payload.warehouse,
      db.currentStock payload.skuId payload.warehouse - payload.quantity⟩).addExit
        (newExit payload userUuid now id)).addDueStockout due) s = db.getSku s := by
    rw [Ledger.getSku, skus_addDueStockout]
    rfl
  have hevents : (((db.setBalance ⟨payload.skuId, payload.warehouse,
      db.currentStock payload.skuId payload.warehouse - payload.quantity⟩).addExit
        (newExit payload userUuid now id)).addDueStockout due).stockoutEvents =
      db.stockoutEvents ++ due.toList := stockoutEvents_addDueStockout due
  split_ifs with hid
  · subst hid
    refine ⟨fun g hg => ?_, fun g hg => ?_⟩
    all_goals
      obtain ⟨sku', hsku', rfl⟩ := Option.map_eq_some_iff.1 hg
      obtain rfl : sku' = sku := Option.some.inj (hsku'.symm.trans hsku)
    · simp [Inventory.gauge, hsame, hsku, Gauge.after, Gauge.move, hw]
    · have hall : due.toList.filter (fun v => decide (v.skuId = payload.skuId)) = due.toList :=
        List.filter_eq_self.2 fun v hv => decide_eq_true (hown v hv)
      rw [Inventory.alerts, Inventory.alerts, hevents, List.filter_append, List.map_append, hall,
        htell, ← hw]
      rfl
  · refine ⟨fun g hg => ?_, fun g _ => ?_⟩
    · obtain ⟨sku', hsku', rfl⟩ := Option.map_eq_some_iff.1 hg
      simp [Inventory.gauge, hsame, hsku', hid]
    · have hnone : due.toList.filter (fun v => decide (v.skuId = skuId)) = [] := by
        refine List.filter_eq_nil_iff.2 fun v hv => ?_
        have hne : v.skuId ≠ skuId := by
          rw [hown v hv]
          exact hid
        simpa using hne
      rw [Inventory.alerts, Inventory.alerts, hevents, List.filter_append, hnone, List.append_nil]
      simp

/-- An update of a SKU. -/
theorem Moved.updateSku {id : ℕ} {payload : SKUUpdate} (h : db.updateSku id payload = .ok db') :
    Moved skuId db db'
      (if id = skuId then payload.minStockThreshold.toList.map .arm else []) := by
  unfold Ledger.updateSku at h
  split at h
  · cases h
  rename_i sku hsku
  split_ifs at h
  split at h
  · rename_i hnone
    cases h
    simpa [hnone] using Moved.refl
  rename_i threshold hsome
  split_ifs at h
  cases h
  have hget (k : ℕ) := db.getSku_setThreshold id threshold k
  split_ifs with hid
  · subst hid
    refine ⟨fun g hg => ?_, fun g _ => by simp [hsome, Inventory.alerts, setThreshold,
      Gauge.crossings, Gauge.readings, Gauge.read]⟩
    obtain ⟨sku', hsku', rfl⟩ := Option.map_eq_some_iff.1 hg
    have hid' : sku'.id = id := (getSku_eq_some hsku').2
    simp [Inventory.gauge, hget, hsku', hid', hsome, Gauge.after, Gauge.move]
    rfl
  · refine .of_same (fun s hs => ?_) (fun _ => rfl) rfl
    have hne : s.id ≠ id := by
      rw [(getSku_eq_some hs).2]
      exact Ne.symm hid
    rw [hget, hs, Option.map_some, if_neg hne]

end Moved

/-! ## Histories -/

/-- What a committed call does to the gauge of a SKU. -/
def LedgerOp.moves (skuId : ℕ) : LedgerOp → List (Move ℕ)
  | .recordInbound payload _ _ _ =>
    if payload.skuId = skuId then [.fill payload.quantity] else []
  | .recordOutbound payload _ _ id _ =>
    if payload.skuId = skuId then [.withdraw id payload.quantity] else []
  | .updateSku id payload =>
    if id = skuId then payload.minStockThreshold.toList.map .arm else []
  | _ => []

/-- The database after a call: a refused one leaves it as it is. -/
def call (db : Ledger) (op : LedgerOp) : Ledger := (op.perform db).toOption.getD db

/-- The database after some calls. -/
def history (db : Ledger) (ops : List LedgerOp) : Ledger := ops.foldl call db

/-- What the committed ones of some calls do to the gauge of a SKU. -/
def committedMoves (skuId : ℕ) : Ledger → List LedgerOp → List (Move ℕ)
  | _, [] => []
  | db, op :: ops =>
    (match op.perform db with
      | .ok _ => LedgerOp.moves skuId op
      | .error _ => []) ++ committedMoves skuId (call db op) ops

section Histories

variable {skuId : ℕ} {db db' : Ledger}

/-- The moves of one service call. -/
theorem Moved.perform {op : LedgerOp} (h : op.perform db = .ok db') :
    Moved skuId db db' (LedgerOp.moves skuId op) := by
  cases op with
  | createClient displayName role id =>
    obtain ⟨⟨db₁, c⟩, hr, rfl⟩ := except_map_eq_ok_iff.1 h
    obtain ⟨clients, rfl⟩ := LedgerOp.createClient_eq hr
    exact .of_same (fun _ hs => hs) (fun _ => rfl) rfl
  | createSku payload id =>
    obtain ⟨⟨db₁, s⟩, hr, rfl⟩ := except_map_eq_ok_iff.1 h
    unfold Ledger.createSku at hr
    split_ifs at hr
    simp only at hr
    split at hr
    · cases hr
    rename_i skus hi
    cases hr
    refine .of_same (fun sku hs => ?_) (fun _ => rfl) rfl
    obtain ⟨hmem, hkey⟩ := getSku_eq_some hs
    refine Table.lookup_eq_some_iff.2 ⟨?_, hkey⟩
    rw [(Table.insert_eq_some hi).2]
    exact List.mem_append_left _ hmem
  | updateSku id payload => exact .updateSku h
  | recordInbound payload userUuid now id =>
    simp only [LedgerOp.perform] at h
    split_ifs at h
    obtain ⟨⟨db₁, e⟩, hr, rfl⟩ := except_map_eq_ok_iff.1 h
    exact .recordInbound hr
  | recordOutbound payload userUuid now id eventId =>
    simp only [LedgerOp.perform] at h
    split_ifs at h
    obtain ⟨⟨db₁, x⟩, hr, rfl⟩ := except_map_eq_ok_iff.1 h
    exact .recordOutbound hr
  | recordDiscrepancy payload userUuid source now id =>
    obtain ⟨⟨db₁, d⟩, hr, rfl⟩ := except_map_eq_ok_iff.1 h
    obtain ⟨rfl, -⟩ := LedgerOp.recordDiscrepancy_eq_ok hr
    exact .of_same (fun _ hs => hs) (fun _ => rfl) rfl

/-- The moves of some calls, by induction on the calls. -/
theorem Moved.history (ops : List LedgerOp) :
    Moved skuId db (history db ops) (committedMoves skuId db ops) := by
  induction ops generalizing db with
  | nil => exact .refl
  | cons op ops ih =>
    refine Moved.trans ?_ ih
    cases h : op.perform db with
    | error e =>
      have hcall : call db op = db := by simp [call, h, Except.toOption]
      rw [hcall]
      exact .refl
    | ok db₁ =>
      have hcall : call db op = db₁ := by simp [call, h, Except.toOption]
      rw [hcall]
      exact .perform h

/-- **The stockout events of a SKU are the crossings of its gauge.**  Over every history of calls,
committed or refused, on any SKUs, what the events of a SKU tell is, in order and one for one, what
the readings of its committed exits say that take the stock from above a positive threshold to the
threshold or below: the exit, the threshold at that moment and the stock behind the exit. -/
theorem stockouts_eq_crossings (db : Ledger) (ops : List LedgerOp) (sku : SKU)
    (hsku : db.getSku sku.id = some sku) :
    alerts (history db ops) sku.id = alerts db sku.id ++
      ((Gauge.readings ⟨db.currentStock sku.id sku.warehouse, sku.minStockThreshold⟩
        (committedMoves sku.id db ops)).filter fun r =>
          decide (0 < r.threshold ∧ r.before > r.threshold ∧ (r.threshold : ℤ) ≥ r.after)).map
            fun r => ⟨r.name, r.threshold, r.after⟩ := by
  have hgauge : gauge db sku.id =
      some ⟨db.currentStock sku.id sku.warehouse, sku.minStockThreshold⟩ := by
    rw [gauge, hsku, Option.map_some]
  exact (Moved.history ops).alerts _ hgauge

/-- 5 units arrive and 3 leave, which crosses the threshold of 3; 4 more arrive, and the threshold
goes to 5: the next exit crosses again, the one after it does not. -/
def rearmed : List LedgerOp :=
  [.recordInbound ⟨1, 5, "PO-1", .LA, five_units_pos⟩ "u-1" (.afterEpoch 0) 1,
    .recordOutbound ⟨1, 3, .dispatch, some "T-1", .LA, three_units_pos, dispatch_tracked _⟩ "u-2"
      (.afterEpoch 0) 1 1,
    .recordInbound ⟨1, 4, "PO-2", .LA, four_units_pos⟩ "u-1" (.afterEpoch 0) 2,
    .updateSku 1 ⟨some 5, none, by decide⟩,
    .recordOutbound ⟨1, 1, .dispatch, some "T-2", .LA, Nat.one_pos, dispatch_tracked _⟩ "u-2"
      (.afterEpoch 0) 2 2,
    .recordOutbound ⟨1, 1, .dispatch, some "T-3", .LA, Nat.one_pos, dispatch_tracked _⟩ "u-2"
      (.afterEpoch 0) 3 3]

theorem stockouts_eq_crossings_rearmed :
    alerts (history (emptyLedger [⟨7, "Shop"⟩] ⟨[raceSku], by decide⟩) rearmed) 1 =
      [⟨1, 3, 2⟩, ⟨2, 5, 5⟩] :=
  (stockouts_eq_crossings _ rearmed raceSku (by decide)).trans (by decide)

end Histories

/-! ## Interleaved movements -/

section Interleaved

variable {ι : Type*} {calls : ι → Call} {skuId : ℕ}

/-- What a committed movement does to the gauge of a SKU. -/
def Call.moves (skuId : ℕ) (stamp : Stamp) : Call → List (Move ℕ)
  | .inbound payload _ => if payload.skuId = skuId then [.fill payload.quantity] else []
  | .outbound payload _ =>
    if payload.skuId = skuId then [.withdraw stamp.id payload.quantity] else []

theorem Moved.execute {db db' : Ledger} {call : Call} {stamp : Stamp}
    (h : call.execute db stamp = some db') : Moved skuId db db' (call.moves skuId stamp) := by
  cases call with
  | inbound payload userUuid =>
    obtain ⟨⟨db₁, e⟩, hr, rfl⟩ := Option.map_eq_some_iff.1 h
    exact .recordInbound (toOption_eq_some_iff.1 hr)
  | outbound payload userUuid =>
    obtain ⟨⟨db₁, x⟩, hr, rfl⟩ := Option.map_eq_some_iff.1 h
    exact .recordOutbound (toOption_eq_some_iff.1 hr)

/-- The moves of a log, by induction on the log. -/
theorem Moved.replay {db db' : Ledger} {log : List (ι × Stamp)}
    (h : replay calls db log = some db') :
    Moved skuId db db' (log.flatMap fun x => (calls x.1).moves skuId x.2) := by
  induction log generalizing db with
  | nil =>
    cases h
    exact .refl
  | cons x log ih =>
    obtain ⟨db₁, h₁, h₂⟩ := Option.bind_eq_some_iff.1 h
    exact (Moved.execute h₁).trans (ih h₂)

/-- **No interleaving loses or doubles a stockout event.**  However the statements of any number of
movements interleave, the stockout events of a SKU are the crossings of the committed movements,
in the order in which they committed. -/
theorem stockouts_eq_crossings_interleaved [DecidableEq ι] {db : Ledger} {sku : SKU}
    {s : State ι Ledger RowKey RowWrite Loc} (hsku : db.getSku sku.id = some sku)
    (h : (protocol.machine ι).Reachable (startState calls db) s) :
    ∃ log, Explains calls db s log ∧
      alerts s.db sku.id = alerts db sku.id ++
        (Gauge.crossings ⟨db.currentStock sku.id sku.warehouse, sku.minStockThreshold⟩
          (log.flatMap fun x => (calls x.1).moves sku.id x.2)).map Reading.alert := by
  obtain ⟨log, hlog⟩ := movements_serializable calls db h
  refine ⟨log, hlog, (Moved.replay hlog.replays).alerts _ ?_⟩
  rw [gauge, hsku, Option.map_some]

end Interleaved

end Inventory

end TrackFlow
