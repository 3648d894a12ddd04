import TrackFlow.Inventory.Session

/-!
# Movements under any interleaving

Any number of `record_inbound` and `record_outbound` calls run at the same time against one
database, statement by statement.  The SKU row lock makes them serializable:

* `movements_serializable` : the committed database is always the result of running the
  committed calls one after another, each exactly once, as the functions of
  `TrackFlow.Inventory.Service`.
* `stored_balance_eq_ledger` : from an empty ledger, the stored balances are the committed
  entries minus the committed exits, and never negative.

The invariant is an assertion per call (`inboundHolds`, `outboundHolds`): under the SKU lock,
what the call has read is still true of the committed data, and its pending writes are those of
the sequential function so far.
-/

namespace TrackFlow

namespace Inventory

open RowLock

/-- A movement call. -/
inductive Call
  | inbound (payload : StockEntryCreate) (userUuid : String)
  | outbound (payload : StockExitCreate) (userUuid : String)

/-- The clock reading and the generated identifiers of a call. -/
structure Stamp where
  now : Clock
  id : ℕ
  eventId : ℕ

namespace Call

/-- The call before its first statement. -/
def start : Call → Loc
  | .inbound payload userUuid => .inbound payload userUuid .start
  | .outbound payload userUuid => .outbound payload userUuid .start

/-- The database after the call when nothing else runs, `none` if the call is refused. -/
def execute (db : Ledger) (stamp : Stamp) : Call → Option Ledger
  | .inbound payload userUuid =>
    ((db.recordInbound payload userUuid stamp.now stamp.id).toOption).map Prod.fst
  | .outbound payload userUuid =>
    ((db.recordOutbound payload userUuid stamp.now stamp.id stamp.eventId).toOption).map Prod.fst

end Call

/-- The call a session runs, `none` for maintenance. -/
def Loc.call : Loc → Option Call
  | .inbound payload userUuid _ => some (.inbound payload userUuid)
  | .outbound payload userUuid _ => some (.outbound payload userUuid)
  | .maintenance _ => none

/-! ### The assertions -/

/-- The row that guards a write of a movement: the SKU. -/
def skuGuard (w : RowWrite) : List RowKey := [.sku w.place.1]

/-- What a receipt knows once its balance delta is applied: the SKU is locked, and `b` is the
balance that the sequential call would store. -/
structure InboundGranted (payload : StockEntryCreate) (held : RowKey → Prop) (db : Ledger)
    (b : StockBalance) : Prop where
  locked : held (.sku payload.skuId)
  valid : ∃ sku, Ledger.validateSkuWarehouse (db.getSku payload.skuId) payload.warehouse = .ok sku
  delta : db.balanceAfterDelta payload.skuId payload.warehouse payload.quantity = some b

/-- The assertion of a receipt. -/
def inboundHolds (payload : StockEntryCreate) (userUuid : String) :
    InboundPc → List RowWrite → (RowKey → Prop) → Ledger → Prop
  | .selected sku, ws, held, db =>
    ws = [] ∧ db.getSku payload.skuId = sku ∧ (sku.isSome → held (.sku payload.skuId))
  | .balanced _, ws, held, db => ∃ b, InboundGranted payload held db b ∧ ws = [.balance b]
  | .flushed e, ws, held, db =>
    ∃ b now id, InboundGranted payload held db b ∧ e = Ledger.newEntry payload userUuid now id ∧
      ws = [.balance b, .entry e]
  | _, ws, _, _ => ws = []

/-- What an exit knows once it has read the stock: the SKU is locked, and what it read is
still stored. -/
structure OutboundChecked (payload : StockExitCreate) (sku : SKU) (available : ℤ)
    (held : RowKey → Prop) (db : Ledger) : Prop where
  locked : held (.sku payload.skuId)
  valid : Ledger.validateExitSku payload (db.getSku payload.skuId) = .ok sku
  stock : db.currentStock payload.skuId payload.warehouse = available

/-- What an exit knows once its balance delta is applied. -/
structure OutboundGranted (payload : StockExitCreate) (sku : SKU) (available : ℤ)
    (held : RowKey → Prop) (db : Ledger) (b : StockBalance) : Prop
    extends OutboundChecked payload sku available held db where
  enough : (payload.quantity : ℤ) ≤ available
  delta : db.balanceAfterDelta payload.skuId payload.warehouse (-payload.quantity) = some b

/-- The assertion of an exit. -/
def outboundHolds (payload : StockExitCreate) (userUuid : String) :
    OutboundPc → List RowWrite → (RowKey → Prop) → Ledger → Prop
  | .selected sku, ws, held, db =>
    ws = [] ∧ db.getSku payload.skuId = sku ∧ (sku.isSome → held (.sku payload.skuId))
  | .stockRead sku available, ws, held, db =>
    ws = [] ∧ OutboundChecked payload sku available held db
  | .balanced sku available _, ws, held, db =>
    ∃ b, OutboundGranted payload sku available held db b ∧ ws = [.balance b]
  | .flushed sku available x, ws, held, db =>
    ∃ b now id, OutboundGranted payload sku available held db b ∧
      x = Ledger.newExit payload userUuid now id ∧ ws = [.balance b, .exit x]
  | .evented x, ws, held, db =>
    ∃ sku available b now id eventId v, OutboundGranted payload sku available held db b ∧
      x = Ledger.newExit payload userUuid now id ∧
      Ledger.stockoutDue sku x available eventId = some v ∧
      ws = [.balance b, .exit x, .stockout v]
  | _, ws, _, _ => ws = []

/-- The assertion of a session that runs a movement. -/
def movementHolds : Loc → List RowWrite → (RowKey → Prop) → Ledger → Prop
  | .inbound payload userUuid pc => inboundHolds payload userUuid pc
  | .outbound payload userUuid pc => outboundHolds payload userUuid pc
  | .maintenance _ => fun _ _ _ => False

/-! ### The statements keep the assertions -/

section Steps

variable {db : Ledger} {held : RowKey → Prop} {ws : List RowWrite} {c : Choice}

theorem selectSkuForUpdate_leadsTo {α : Type} {skuId : ℕ} {next : Option SKU → α}
    {holds : α → List RowWrite → (RowKey → Prop) → Ledger → Prop}
    (h : ∀ held' : RowKey → Prop, ((db.getSku skuId).isSome → held' (.sku skuId)) →
      holds (next (db.getSku skuId)) [] held' db) :
    (selectSkuForUpdate db skuId next).LeadsTo holds [] held db db := by
  unfold selectSkuForUpdate
  cases hs : db.getSku skuId with
  | none =>
    rw [hs] at h
    exact h _ (by simp)
  | some sku =>
    rw [hs] at h
    exact h _ fun _ => .inr List.mem_cons_self

theorem applyBalanceDelta_leadsTo {α : Type} {skuId : ℕ} {warehouse : Warehouse} {delta : ℤ}
    {next failed : α} {holds : α → List RowWrite → (RowKey → Prop) → Ledger → Prop}
    (hnext : ∀ b held', db.balanceAfterDelta skuId warehouse delta = some b →
      (∀ k, held k → held' k) → holds next [.balance b] held' db)
    (hfailed : holds failed [] (fun _ => False) db) :
    (applyBalanceDelta db skuId warehouse delta next failed).LeadsTo holds [] held db db := by
  unfold applyBalanceDelta
  cases hb : db.balanceAfterDelta skuId warehouse delta with
  | none => exact hfailed
  | some b => exact hnext b _ hb fun k hk => .inl hk

theorem inbound_step {payload : StockEntryCreate} {userUuid : String} {pc : InboundPc}
    {o : Outcome RowKey RowWrite InboundPc} (h : inboundHolds payload userUuid pc ws held db)
    (he : inboundExec payload userUuid (protocol.installAll db ws) pc c = some o) :
    o.LeadsTo (inboundHolds payload userUuid) ws held db (protocol.installAll db ws) := by
  cases pc with
  | start =>
    obtain rfl : ws = [] := h
    cases c <;> simp only [inboundExec, Option.some.injEq, reduceCtorEq] at he <;> subst he
    · exact selectSkuForUpdate_leadsTo fun held' hl => ⟨rfl, rfl, hl⟩
    · rfl
  | selected sku =>
    obtain ⟨rfl, hs, hl⟩ := h
    cases c <;> simp only [inboundExec, Option.some.injEq, reduceCtorEq] at he
    case ok now id =>
      cases hv : Ledger.validateSkuWarehouse sku payload.warehouse with
      | error e => rw [hv] at he; cases he; rfl
      | ok s =>
        rw [hv] at he; cases he
        have hl' := hl (by rw [(Ledger.validateSkuWarehouse_eq_ok hv).1]; rfl)
        exact applyBalanceDelta_leadsTo
          (fun b held' hb hh => ⟨b, ⟨hh _ hl', ⟨s, hs ▸ hv⟩, hb⟩, rfl⟩) rfl
    case fail => subst he; rfl
  | balanced now =>
    obtain ⟨b, hg, rfl⟩ := h
    cases c <;> simp only [inboundExec, Option.some.injEq, reduceCtorEq] at he <;> subst he
    · exact ⟨b, now, _, ⟨.inl hg.locked, hg.valid, hg.delta⟩, rfl, rfl⟩
    · rfl
  | flushed e =>
    cases c <;> simp only [inboundExec, Option.some.injEq, reduceCtorEq] at he <;> subst he <;> rfl
  | committed e =>
    cases c <;> simp only [inboundExec, Option.some.injEq, reduceCtorEq] at he <;> subst he <;> rfl
  | finished r b => cases c <;> simp only [inboundExec, reduceCtorEq] at he

theorem outbound_step {payload : StockExitCreate} {userUuid : String} {pc : OutboundPc}
    {o : Outcome RowKey RowWrite OutboundPc} (h : outboundHolds payload userUuid pc ws held db)
    (he : outboundExec payload userUuid (protocol.installAll db ws) pc c = some o) :
    o.LeadsTo (outboundHolds payload userUuid) ws held db (protocol.installAll db ws) := by
  cases pc with
  | start =>
    obtain rfl : ws = [] := h
    cases c <;> simp only [outboundExec, Option.some.injEq, reduceCtorEq] at he <;> subst he
    · exact selectSkuForUpdate_leadsTo fun held' hl => ⟨rfl, rfl, hl⟩
    · rfl
  | selected sku =>
    obtain ⟨rfl, hs, hl⟩ := h
    cases c <;> simp only [outboundExec, Option.some.injEq, reduceCtorEq] at he
    case ok now id =>
      cases hv : Ledger.validateExitSku payload sku with
      | error e => rw [hv] at he; cases he; rfl
      | ok s =>
        rw [hv] at he; cases he
        have hl' := hl (by rw [(Ledger.validateExitSku_eq_ok hv).1]; rfl)
        exact ⟨rfl, .inl hl', hs ▸ hv, rfl⟩
    case fail => subst he; rfl
  | stockRead sku available =>
    obtain ⟨rfl, hc⟩ := h
    cases c <;> simp only [outboundExec, Option.some.injEq, reduceCtorEq] at he
    case ok now id =>
      split_ifs at he with hq
      · cases he; rfl
      · cases he
        exact applyBalanceDelta_leadsTo
          (fun b held' hb hh => ⟨b, ⟨⟨hh _ hc.locked, hc.valid, hc.stock⟩, not_lt.1 hq, hb⟩, rfl⟩)
          rfl
    case fail => subst he; rfl
  | balanced sku available now =>
    obtain ⟨b, hg, rfl⟩ := h
    cases c <;> simp only [outboundExec, Option.some.injEq, reduceCtorEq] at he <;> subst he
    · exact ⟨b, now, _, ⟨⟨.inl hg.locked, hg.valid, hg.stock⟩, hg.enough, hg.delta⟩, rfl, rfl⟩
    · rfl
  | flushed sku available x =>
    obtain ⟨b, now, id, hg, hx, rfl⟩ := h
    cases c <;> simp only [outboundExec, Option.some.injEq, reduceCtorEq] at he
    case ok now' eventId =>
      cases hd : Ledger.stockoutDue sku x available eventId with
      | none => rw [hd] at he; cases he; rfl
      | some v =>
        rw [hd] at he; cases he
        exact ⟨sku, available, b, now, id, eventId, v,
          ⟨⟨.inl hg.locked, hg.valid, hg.stock⟩, hg.enough, hg.delta⟩, hx, hd, rfl⟩
    case fail => subst he; rfl
  | evented x =>
    cases c <;> simp only [outboundExec, Option.some.injEq, reduceCtorEq] at he <;> subst he <;> rfl
  | committed x =>
    cases c <;> simp only [outboundExec, Option.some.injEq, reduceCtorEq] at he <;> subst he <;> rfl
  | finished r b => cases c <;> simp only [outboundExec, reduceCtorEq] at he

/-! ### Other sessions' commits keep the assertions -/

section Stable

variable {ws' : List RowWrite} {skuId : ℕ}

theorem currentStock_installAll (hl : held (.sku skuId))
    (hw : ∀ w ∈ ws', ∀ k ∈ skuGuard w, ¬ held k)
    (warehouse : Warehouse) :
    (protocol.installAll db ws').currentStock skuId warehouse =
      db.currentStock skuId warehouse := by
  refine storedBalance_installAll fun w hm he => hw w hm _ List.mem_cons_self ?_
  rwa [he]

theorem balanceAfterDelta_installAll (hl : held (.sku skuId))
    (hw : ∀ w ∈ ws', ∀ k ∈ skuGuard w, ¬ held k)
    (warehouse : Warehouse) (delta : ℤ) :
    (protocol.installAll db ws').balanceAfterDelta skuId warehouse delta =
      db.balanceAfterDelta skuId warehouse delta := by
  have h : (protocol.installAll db ws').currentStock skuId warehouse =
      db.currentStock skuId warehouse := currentStock_installAll hl hw warehouse
  simp only [Ledger.balanceAfterDelta, h]

theorem InboundGranted.stable {payload : StockEntryCreate} {b : StockBalance}
    (h : InboundGranted payload held db b) (hw : ∀ w ∈ ws', ∀ k ∈ skuGuard w, ¬ held k) :
    InboundGranted payload held (protocol.installAll db ws') b where
  locked := h.locked
  valid := by simpa using h.valid
  delta := (balanceAfterDelta_installAll h.locked hw _ _).trans h.delta

theorem OutboundChecked.stable {payload : StockExitCreate} {sku : SKU} {available : ℤ}
    (h : OutboundChecked payload sku available held db)
    (hw : ∀ w ∈ ws', ∀ k ∈ skuGuard w, ¬ held k) :
    OutboundChecked payload sku available held (protocol.installAll db ws') where
  locked := h.locked
  valid := by simpa using h.valid
  stock := (currentStock_installAll h.locked hw _).trans h.stock

theorem OutboundGranted.stable {payload : StockExitCreate} {sku : SKU} {available : ℤ}
    {b : StockBalance} (h : OutboundGranted payload sku available held db b)
    (hw : ∀ w ∈ ws', ∀ k ∈ skuGuard w, ¬ held k) :
    OutboundGranted payload sku available held (protocol.installAll db ws') b where
  toOutboundChecked := h.toOutboundChecked.stable hw
  enough := h.enough
  delta := (balanceAfterDelta_installAll h.locked hw _ _).trans h.delta

theorem movementHolds_stable {loc : Loc} (h : movementHolds loc ws held db)
    (hw : ∀ w ∈ ws', ∀ k ∈ skuGuard w, ¬ held k) :
    movementHolds loc ws held (protocol.installAll db ws') := by
  cases loc with
  | inbound payload userUuid pc =>
    cases pc with
    | selected sku => exact ⟨h.1, by simpa using h.2.1, h.2.2⟩
    | balanced now =>
      obtain ⟨b, hg, rfl⟩ := h
      exact ⟨b, hg.stable hw, rfl⟩
    | flushed e =>
      obtain ⟨b, now, id, hg, he, rfl⟩ := h
      exact ⟨b, now, id, hg.stable hw, he, rfl⟩
    | _ => exact h
  | outbound payload userUuid pc =>
    cases pc with
    | selected sku => exact ⟨h.1, by simpa using h.2.1, h.2.2⟩
    | stockRead sku available => exact ⟨h.1, h.2.stable hw⟩
    | balanced sku available now =>
      obtain ⟨b, hg, rfl⟩ := h
      exact ⟨b, hg.stable hw, rfl⟩
    | flushed sku available x =>
      obtain ⟨b, now, id, hg, hx, rfl⟩ := h
      exact ⟨b, now, id, hg.stable hw, hx, rfl⟩
    | evented x =>
      obtain ⟨sku, available, b, now, id, eventId, v, hg, hx, hd, rfl⟩ := h
      exact ⟨sku, available, b, now, id, eventId, v, hg.stable hw, hx, hd, rfl⟩
    | _ => exact h
  | maintenance pc => exact h

end Stable

/-- Every pending write of a movement belongs to the locked SKU. -/
theorem movementHolds_guarded {loc : Loc} (h : movementHolds loc ws held db) :
    ∀ w ∈ ws, ∀ k ∈ skuGuard w, held k := by
  have nil : ws = [] → ∀ w ∈ ws, ∀ k ∈ skuGuard w, held k := by rintro rfl; simp
  cases loc with
  | inbound payload userUuid pc =>
    cases pc with
    | selected sku => exact nil h.1
    | balanced now =>
      obtain ⟨b, hg, rfl⟩ := h
      obtain ⟨rfl, -⟩ := Ledger.balanceAfterDelta_eq_some hg.delta
      simpa [skuGuard, RowWrite.place] using hg.locked
    | flushed e =>
      obtain ⟨b, now, id, hg, rfl, rfl⟩ := h
      obtain ⟨rfl, -⟩ := Ledger.balanceAfterDelta_eq_some hg.delta
      simpa [skuGuard, RowWrite.place, Ledger.newEntry] using hg.locked
    | _ => exact nil h
  | outbound payload userUuid pc =>
    cases pc with
    | selected sku => exact nil h.1
    | stockRead sku available => exact nil h.1
    | balanced sku available now =>
      obtain ⟨b, hg, rfl⟩ := h
      obtain ⟨rfl, -⟩ := Ledger.balanceAfterDelta_eq_some hg.delta
      simpa [skuGuard, RowWrite.place] using hg.locked
    | flushed sku available x =>
      obtain ⟨b, now, id, hg, rfl, rfl⟩ := h
      obtain ⟨rfl, -⟩ := Ledger.balanceAfterDelta_eq_some hg.delta
      simpa [skuGuard, RowWrite.place, Ledger.newExit] using hg.locked
    | evented x =>
      obtain ⟨sku, available, b, now, id, eventId, v, hg, rfl, hd, rfl⟩ := h
      obtain ⟨rfl, -⟩ := Ledger.balanceAfterDelta_eq_some hg.delta
      obtain ⟨-, rfl⟩ := Ledger.stockoutDue_eq_some hd
      simpa [skuGuard, RowWrite.place, Ledger.newExit, Ledger.newStockout] using hg.locked
    | _ => exact nil h
  | maintenance pc => exact h.elim

/-- The movement assertions, guarded by the SKU rows. -/
def movementAssertion : Assertion protocol skuGuard (fun _ _ _ => True) where
  holds := movementHolds
  guarded := movementHolds_guarded
  stable := movementHolds_stable
  step := by
    intro loc ws held db c busy o h _ he
    cases loc with
    | inbound payload userUuid pc =>
      obtain ⟨o', he', rfl⟩ := Option.map_eq_some_iff.1 he
      exact Outcome.leadsTo_map.2 (inbound_step h he')
    | outbound payload userUuid pc =>
      obtain ⟨o', he', rfl⟩ := Option.map_eq_some_iff.1 he
      exact Outcome.leadsTo_map.2 (outbound_step h he')
    | maintenance pc => exact h.elim

/-! ### What a commit did -/

theorem inbound_commit {payload : StockEntryCreate} {userUuid : String} {pc pc' : InboundPc}
    (h : inboundHolds payload userUuid pc ws held db)
    (he : inboundExec payload userUuid (protocol.installAll db ws) pc c = some (.commit pc')) :
    ∃ stamp, (Call.inbound payload userUuid).execute db stamp =
      some (protocol.installAll db ws) := by
  obtain ⟨e, rfl⟩ := inboundExec_commit he
  obtain ⟨b, now, id, ⟨-, ⟨sku, hv⟩, hb⟩, rfl, rfl⟩ := h
  refine ⟨⟨now, id, 0⟩, ?_⟩
  simp [Call.execute, Ledger.recordInbound, hv, hb, bind, Except.bind, Except.toOption,
    RowWrite.install]

theorem outbound_granted_execute {payload : StockExitCreate} {userUuid : String} {sku : SKU}
    {available : ℤ} {b : StockBalance} (hg : OutboundGranted payload sku available held db b)
    (stamp : Stamp) :
    (Call.outbound payload userUuid).execute db stamp =
      some (((db.setBalance b).addExit
        (Ledger.newExit payload userUuid stamp.now stamp.id)).addDueStockout
          (Ledger.stockoutDue sku (Ledger.newExit payload userUuid stamp.now stamp.id) available
            stamp.eventId)) := by
  obtain ⟨⟨-, hv, rfl⟩, hq, hb⟩ := hg
  simp [Call.execute, Ledger.recordOutbound, hv, hb, not_lt.2 hq, bind, Except.bind,
    Except.toOption]

theorem outbound_commit {payload : StockExitCreate} {userUuid : String} {pc pc' : OutboundPc}
    (h : outboundHolds payload userUuid pc ws held db)
    (he : outboundExec payload userUuid (protocol.installAll db ws) pc c = some (.commit pc')) :
    ∃ stamp, (Call.outbound payload userUuid).execute db stamp =
      some (protocol.installAll db ws) := by
  rcases outboundExec_commit he with ⟨sku, available, x, eventId, rfl, hd⟩ | ⟨x, rfl⟩
  · obtain ⟨b, now, id, hg, rfl, rfl⟩ := h
    refine ⟨⟨now, id, eventId⟩, ?_⟩
    rw [outbound_granted_execute hg, hd]
    rfl
  · obtain ⟨sku, available, b, now, id, eventId, v, hg, rfl, hd, rfl⟩ := h
    refine ⟨⟨now, id, eventId⟩, ?_⟩
    rw [outbound_granted_execute hg, hd]
    rfl

end Steps

/-- A commit of a movement is the sequential call on the committed data. -/
theorem movement_commit {db : Ledger} {held : RowKey → Prop} {ws : List RowWrite} {c : Choice}
    {loc loc' : Loc} {call : Call} (h : movementHolds loc ws held db) (hcall : loc.call = some call)
    (he : exec loc c (protocol.installAll db ws) = some (.commit loc')) :
    ∃ stamp, call.execute db stamp = some (protocol.installAll db ws) := by
  cases loc with
  | inbound payload userUuid pc =>
    obtain rfl := Option.some.inj hcall
    obtain ⟨o, he, ho⟩ := Option.map_eq_some_iff.1 he
    cases o with
    | commit pc' => exact inbound_commit h he
    | _ => cases ho
  | outbound payload userUuid pc =>
    obtain rfl := Option.some.inj hcall
    obtain ⟨o, he, ho⟩ := Option.map_eq_some_iff.1 he
    cases o with
    | commit pc' => exact outbound_commit h he
    | _ => cases ho
  | maintenance pc => exact h.elim

theorem call_exec {loc : Loc} {c : Choice} {db : Ledger} {o : Outcome RowKey RowWrite Loc}
    (he : exec loc c db = some o) : o.loc.call = loc.call := by
  cases loc <;> obtain ⟨o', -, rfl⟩ := Option.map_eq_some_iff.1 he <;>
    simp only [Outcome.loc_map, Loc.call]

theorem inboundExec_marks {payload : StockEntryCreate} {userUuid : String} {db : Ledger}
    {pc : InboundPc} {c : Choice} {o : Outcome RowKey RowWrite InboundPc}
    (he : inboundExec payload userUuid db pc c = some o) :
    o.Marks InboundPc.didCommit pc.didCommit := by
  unfold inboundExec at he
  split at he
  case h_1 =>
    obtain rfl := Option.some.inj he
    unfold selectSkuForUpdate
    split <;> rfl
  case h_2 =>
    split at he <;> obtain rfl := Option.some.inj he
    · rfl
    · unfold applyBalanceDelta
      split <;> rfl
  case h_4 => obtain rfl := Option.some.inj he; exact ⟨rfl, rfl⟩
  case h_8 pc _ _ _ =>
    obtain rfl := Option.some.inj he
    cases pc <;> simp_all [Outcome.Marks, InboundPc.didCommit]
  all_goals cases he
  all_goals rfl

theorem outboundExec_marks {payload : StockExitCreate} {userUuid : String} {db : Ledger}
    {pc : OutboundPc} {c : Choice} {o : Outcome RowKey RowWrite OutboundPc}
    (he : outboundExec payload userUuid db pc c = some o) :
    o.Marks OutboundPc.didCommit pc.didCommit := by
  unfold outboundExec at he
  split at he
  case h_1 =>
    obtain rfl := Option.some.inj he
    unfold selectSkuForUpdate
    split <;> rfl
  case h_2 => split at he <;> obtain rfl := Option.some.inj he <;> rfl
  case h_3 =>
    split_ifs at he <;> obtain rfl := Option.some.inj he
    · rfl
    · unfold applyBalanceDelta
      split <;> rfl
  case h_5 =>
    split at he <;> obtain rfl := Option.some.inj he
    · exact ⟨rfl, rfl⟩
    · rfl
  case h_6 => obtain rfl := Option.some.inj he; exact ⟨rfl, rfl⟩
  case h_10 pc _ _ _ =>
    obtain rfl := Option.some.inj he
    cases pc <;> simp_all [Outcome.Marks, OutboundPc.didCommit]
  all_goals cases he
  all_goals rfl

theorem maintenanceExec_marks {db : Ledger} {pc : MaintenancePc} {c : Choice}
    {o : Outcome RowKey RowWrite MaintenancePc} (he : maintenanceExec db pc c = some o) :
    o.Marks MaintenancePc.didCommit pc.didCommit := by
  unfold maintenanceExec at he
  split at he
  case h_1 => split at he <;> obtain rfl := Option.some.inj he <;> rfl
  case h_2 =>
    split_ifs at he <;> obtain rfl := Option.some.inj he
    · exact ⟨rfl, rfl⟩
    · rfl
  case h_3 => split at he <;> obtain rfl := Option.some.inj he <;> rfl
  case h_4 => obtain rfl := Option.some.inj he; rfl
  case h_5 =>
    simp only [Option.ite_none_right_eq_some] at he
    obtain ⟨-, he⟩ := he
    split_ifs at he <;> obtain rfl := Option.some.inj he <;> rfl
  case h_6 => obtain rfl := Option.some.inj he; exact ⟨rfl, rfl⟩
  case h_8 pc _ =>
    obtain rfl := Option.some.inj he
    cases pc <;> simp_all [Outcome.Marks, MaintenancePc.didCommit]
  all_goals cases he

/-- A session commits at most once, and only a commit marks it. -/
theorem exec_marks {loc : Loc} {c : Choice} {db : Ledger} {o : Outcome RowKey RowWrite Loc}
    (he : exec loc c db = some o) : o.Marks Loc.didCommit loc.didCommit := by
  cases loc with
  | inbound payload userUuid pc =>
    obtain ⟨o', he', rfl⟩ := Option.map_eq_some_iff.1 he
    exact Outcome.marks_map.2 (inboundExec_marks he')
  | outbound payload userUuid pc =>
    obtain ⟨o', he', rfl⟩ := Option.map_eq_some_iff.1 he
    exact Outcome.marks_map.2 (outboundExec_marks he')
  | maintenance pc =>
    obtain ⟨o', he', rfl⟩ := Option.map_eq_some_iff.1 he
    exact Outcome.marks_map.2 (maintenanceExec_marks he')

/-! ### Serializability -/

section Runs

variable {ι : Type*} [DecidableEq ι] (calls : ι → Call)

/-- The committed calls one after another. -/
def replay (db : Ledger) (log : List (ι × Stamp)) : Option Ledger :=
  log.foldlM (fun db x => (calls x.1).execute db x.2) db

/-- All calls before their first statement. -/
def startState (db : Ledger) : State ι Ledger RowKey RowWrite Loc :=
  State.start db fun i => (calls i).start

/-- `log` lists the committed calls, each once, and explains the committed data. -/
structure Explains (db₀ : Ledger) (s : State ι Ledger RowKey RowWrite Loc)
    (log : List (ι × Stamp)) : Prop where
  once : (log.map Prod.fst).Nodup
  committed : ∀ i, i ∈ log.map Prod.fst ↔ (s.session i).loc.didCommit = true
  replays : replay calls db₀ log = some s.db

variable {calls}

omit [DecidableEq ι] in
/-- A statement that does not commit leaves the log as it is. -/
theorem Explains.of_eq {db₀ : Ledger} {s s' : State ι Ledger RowKey RowWrite Loc}
    {log : List (ι × Stamp)} (hlog : Explains calls db₀ s log) (hdb : s'.db = s.db)
    (hmark : ∀ i, (s'.session i).loc.didCommit = (s.session i).loc.didCommit) :
    Explains calls db₀ s' log where
  once := hlog.once
  committed i := by rw [hlog.committed, hmark]
  replays := hdb ▸ hlog.replays

/-- A commit appends its call to the log. -/
theorem Explains.append {db₀ : Ledger} {s s' : State ι Ledger RowKey RowWrite Loc}
    {log : List (ι × Stamp)} (hlog : Explains calls db₀ s log) {i : ι} {stamp : Stamp}
    (hex : (calls i).execute s.db stamp = some s'.db)
    (hbefore : (s.session i).loc.didCommit = false) (hafter : (s'.session i).loc.didCommit = true)
    (hmark : ∀ j, j ≠ i → (s'.session j).loc.didCommit = (s.session j).loc.didCommit) :
    Explains calls db₀ s' (log ++ [(i, stamp)]) where
  once := by
    rw [List.map_append]
    refine List.Nodup.append hlog.once (List.nodup_singleton _) ?_
    simp [List.disjoint_singleton, hlog.committed, hbefore]
  committed j := by
    by_cases hj : j = i
    · subst hj
      simp [hafter]
    · simp [hmark j hj, ← hlog.committed, hj]
  replays := by
    have h : log.foldlM (fun db x => (calls x.1).execute db x.2) db₀ = some s.db := hlog.replays
    simp [replay, h, hex]

theorem explains_next {db₀ : Ledger} {s s' : State ι Ledger RowKey RowWrite Loc} {i : ι}
    {c : Choice}
    (hA : movementAssertion.All s) (hcall : (s.session i).loc.call = some (calls i))
    (h : protocol.next s (i, c) = some s') {log : List (ι × Stamp)}
    (hlog : Explains calls db₀ s log) : ∃ log', Explains calls db₀ s' log' := by
  have hmark : ∀ j, j ≠ i → (s'.session j).loc.didCommit = (s.session j).loc.didCommit :=
    fun j hj => by rw [Protocol.session_next_of_ne h hj]
  obtain ⟨ks, ws, a, he, -, rfl⟩ | ⟨a, he, rfl⟩ | ⟨a, he, rfl⟩ := Protocol.next_cases h
  · refine ⟨log, hlog.of_eq rfl fun j => ?_⟩
    by_cases hj : j = i
    · subst hj
      have hm : a.didCommit = (s.session j).loc.didCommit := exec_marks he
      simpa using hm
    · exact hmark j hj
  · obtain ⟨stamp, hex⟩ := movement_commit (hA i) hcall he
    obtain ⟨hbefore, hafter⟩ := exec_marks he
    exact ⟨_, hlog.append hex hbefore (by simpa using hafter) hmark⟩
  · refine ⟨log, hlog.of_eq rfl fun j => ?_⟩
    by_cases hj : j = i
    · subst hj
      have hm : a.didCommit = (s.session j).loc.didCommit := exec_marks he
      simpa using hm
    · exact hmark j hj

theorem call_next {s s' : State ι Ledger RowKey RowWrite Loc} {i j : ι} {c : Choice}
    (h : protocol.next s (i, c) = some s') : (s'.session j).loc.call = (s.session j).loc.call := by
  by_cases hj : j = i
  · subst hj
    obtain ⟨o, he, ho⟩ := Protocol.session_next_self h
    rw [ho]
    exact call_exec he
  · rw [Protocol.session_next_of_ne h hj]

theorem movementHolds_start (call : Call) (db : Ledger) :
    movementHolds call.start [] (fun _ => False) db := by
  cases call <;> rfl

theorem call_start (call : Call) : call.start.call = some call := by
  cases call <;> rfl

theorem didCommit_start (call : Call) : call.start.didCommit = false := by
  cases call <;> rfl

/-- **Movements are serializable.**  In every reachable state the committed data is what the
committed calls produce one after another, each exactly once; a call that has not committed has
left no trace. -/
theorem movements_serializable (calls : ι → Call) (db₀ : Ledger)
    {s : State ι Ledger RowKey RowWrite Loc}
    (h : (protocol.machine ι).Reachable (startState calls db₀) s) :
    ∃ log, Explains calls db₀ s log := by
  refine (h.invariant (fun s => movementAssertion.All s ∧
    (∀ i, (s.session i).loc.call = some (calls i)) ∧ ∃ log, Explains calls db₀ s log)
    ⟨?_, fun i => call_start _, [], List.nodup_nil, fun i => ?_, rfl⟩ ?_).2.2
  · exact movementAssertion.all_start fun i => movementHolds_start _ _
  · simp [startState, State.start, didCommit_start]
  · rintro s ⟨i, c⟩ s' ⟨hA, hcall, log, hlog⟩ - hs
    exact ⟨movementAssertion.all_next hA trivial hs, fun j => (call_next hs).trans (hcall j),
      explains_next hA (hcall i) hs hlog⟩

end Runs

/-! ### The stored balances -/

/-- Every stored balance is entries minus exits, and not negative. -/
def BalancesMatch (db : Ledger) : Prop :=
  ∀ k, db.storedBalance k = db.ledgerBalance k ∧ 0 ≤ db.storedBalance k

theorem balancesMatch_addDueStockout {db : Ledger} {v : Option StockoutEvent} :
    BalancesMatch (db.addDueStockout v) ↔ BalancesMatch db := by
  cases v <;> rfl

theorem balancesMatch_execute {db db' : Ledger} {call : Call} {stamp : Stamp}
    (hdb : BalancesMatch db) (h : call.execute db stamp = some db') : BalancesMatch db' := by
  cases call with
  | inbound payload userUuid =>
    obtain ⟨⟨db₁, e⟩, hr, rfl⟩ := Option.map_eq_some_iff.1 h
    obtain ⟨sku, -, -, rfl, -, rfl⟩ := Ledger.recordInbound_eq_ok (Ledger.toOption_eq_some_iff.1 hr)
    intro k
    have h1 : db.storedBalance k = db.netMovement (fun _ => true) k := (hdb k).1
    have h2 : 0 ≤ db.storedBalance k := (hdb k).2
    by_cases hk : (payload.skuId, payload.warehouse) = k
    · subst hk
      simp [Ledger.newEntry, Ledger.currentStock]
      omega
    · simp [Ledger.newEntry, hk, h1, h1 ▸ h2]
  | outbound payload userUuid =>
    obtain ⟨⟨db₁, x⟩, hr, rfl⟩ := Option.map_eq_some_iff.1 h
    obtain ⟨sku, -, -, rfl, hq, rfl⟩ :=
      Ledger.recordOutbound_eq_ok (Ledger.toOption_eq_some_iff.1 hr)
    rw [balancesMatch_addDueStockout]
    intro k
    have h1 : db.storedBalance k = db.netMovement (fun _ => true) k := (hdb k).1
    have h2 : 0 ≤ db.storedBalance k := (hdb k).2
    by_cases hk : (payload.skuId, payload.warehouse) = k
    · subst hk
      have hq' : (payload.quantity : ℤ) ≤ db.storedBalance (payload.skuId, payload.warehouse) := hq
      simp [Ledger.newExit, Ledger.currentStock]
      omega
    · simp [Ledger.newExit, hk, h1, h1 ▸ h2]

theorem balancesMatch_replay {ι : Type*} {calls : ι → Call} {db db' : Ledger}
    {log : List (ι × Stamp)} (hdb : BalancesMatch db) (h : replay calls db log = some db') :
    BalancesMatch db' := by
  induction log generalizing db with
  | nil => cases h; exact hdb
  | cons x log ih =>
    obtain ⟨db₁, h₁, h₂⟩ := Option.bind_eq_some_iff.1 h
    exact ih (balancesMatch_execute hdb h₁) h₂

/-- The empty ledger with the given clients and SKUs. -/
def emptyLedger (clients : List Client) (skus : Table SKU.id) : Ledger :=
  { Ledger.empty with clients := clients, skus := skus }

theorem balancesMatch_emptyLedger (clients : List Client) (skus : Table SKU.id) :
    BalancesMatch (emptyLedger clients skus) := fun _ => ⟨rfl, le_rfl⟩

/-- **Stored balances are right under every interleaving.**  From an empty ledger, whatever calls
run in whatever order of statements, the stored balances are the committed entries minus the
committed exits and never negative, and the committed data is that of the committed calls, each
complete and exactly once. -/
theorem stored_balance_eq_ledger {ι : Type*} [DecidableEq ι] (calls : ι → Call)
    (clients : List Client) (skus : Table SKU.id) {s : State ι Ledger RowKey RowWrite Loc}
    (h : (protocol.machine ι).Reachable (startState calls (emptyLedger clients skus)) s) :
    (∀ k, s.db.storedBalance k = s.db.ledgerBalance k ∧ 0 ≤ s.db.storedBalance k) ∧
      ∃ log, Explains calls (emptyLedger clients skus) s log := by
  obtain ⟨log, hlog⟩ := movements_serializable calls _ h
  exact ⟨balancesMatch_replay (balancesMatch_emptyLedger clients skus) hlog.replays, log, hlog⟩

/-! ### A race for the last units -/

/-- The SKU of the race: at or below 3 units it is short of stock. -/
def raceSku : SKU := ⟨1, "Lamp", "LAMP-1", 7, 3, .electronics, .LA⟩

/-- A receipt of 5 units, and two dispatches of 3 units each. -/
def raceCalls : Fin 3 → Call
  | 0 => .inbound ⟨1, 5, "PO-1", .LA, five_units_pos⟩ "u-1"
  | 1 => .outbound ⟨1, 3, .dispatch, some "T-1", .LA, three_units_pos, dispatch_tracked _⟩ "u-2"
  | 2 => .outbound ⟨1, 3, .dispatch, some "T-2", .LA, three_units_pos, dispatch_tracked _⟩ "u-3"

/-- The receipt commits, and its refresh fails while the first dispatch runs; that dispatch
commits with a stockout event, and the second one finds only 2 units. -/
def raceRun : List (Fin 3 × Choice) :=
  let ok (id : ℕ) : Choice := .ok (.afterEpoch 0) id
  [(0, ok 0), (0, ok 0), (0, ok 1), (0, ok 0), (1, ok 0), (0, .fail), (1, ok 0), (1, ok 0),
    (1, ok 1), (1, ok 1), (1, ok 0), (2, ok 0), (2, ok 0), (2, ok 0)]

theorem stored_balance_eq_ledger_race :
    ∃ s, (protocol.machine (Fin 3)).Reachable
        (startState raceCalls (emptyLedger [] ⟨[raceSku], by decide⟩)) s ∧
      (s.db.storedBalance (1, .LA) = 2 ∧ s.db.stockoutEvents.length = 1) ∧
      (∀ k, s.db.storedBalance k = s.db.ledgerBalance k ∧ 0 ≤ s.db.storedBalance k) ∧
        ∃ log, Explains raceCalls (emptyLedger [] ⟨[raceSku], by decide⟩) s log := by
  obtain ⟨s, hr, hs⟩ := (protocol.machine (Fin 3)).exists_reachable
    (startState raceCalls (emptyLedger [] ⟨[raceSku], by decide⟩)) raceRun
    (fun s => decide (s.db.storedBalance (1, .LA) = 2 ∧ s.db.stockoutEvents.length = 1))
    (by decide)
  exact ⟨s, hr, of_decide_eq_true hs, stored_balance_eq_ledger raceCalls _ _ hr⟩

end Inventory

end TrackFlow
