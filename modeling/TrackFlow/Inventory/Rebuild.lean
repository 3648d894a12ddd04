import TrackFlow.Inventory.Movements

/-!
# Rebuilding balances among concurrent movements

The rebuild writes quantities derived from one snapshot without taking the SKU locks, so a
movement that commits between the snapshot and the write of its row is overwritten.

* `rebuild_loses_movement` : two interleavings that lose a movement.
* `rebuild_keeps_movements` : when no row is written after the movements of its place have
  changed, every stored balance is the derived one once the rebuild has committed, and stays so.

The assertions guard every write by the balance row of its place: movements and rebuild both hold
that row from their upsert to their commit.
-/

namespace TrackFlow

namespace Inventory

open RowLock

/-- A transaction on the balances. -/
inductive Job
  | movement (call : Call)
  | reconcile
  | rebuild

/-- The job before its first statement. -/
def Job.start : Job → Loc
  | .movement call => call.start
  | .reconcile => .maintenance .verify
  | .rebuild => .maintenance .rebuild

/-- Every SKU's stored balance is the derived one. -/
def Consistent (w : ℕ) (db : Ledger) : Prop :=
  ∀ s ∈ db.skus.rows, db.storedBalance s.place = db.derivedQuantity w s.place

/-- The statement overwrites no movement: a rebuilt row is written while the movements of its
place still are those of the snapshot, and movements are stamped at or after the watermark. -/
def undisturbed (w : ℕ) (db : Ledger) : Loc → Choice → Bool
  | .maintenance (.upserting _ snapshot _), .row sku =>
    decide (snapshot.netMovement (fun t => decide (w ≤ t)) sku.place =
      db.netMovement (fun t => decide (w ≤ t)) sku.place)
  | .maintenance _, _ => true
  | _, .ok now _ => decide (w ≤ now.instant)
  | _, _ => true

instance (w : ℕ) (db : Ledger) : Decidable (Consistent w db) :=
  inferInstanceAs (Decidable (∀ s ∈ db.skus.rows, _))

/-- The row that guards a write: the balance of its place. -/
def balanceGuard (w : RowWrite) : List RowKey := [.balance w.place]

/-- The stored balance after a delta. -/
def credited (db : Ledger) (k : Place) (delta : ℤ) : StockBalance :=
  ⟨k.1, k.2, db.storedBalance k + delta⟩

/-! ### The assertions -/

/-- A receipt holds its balance row from the upsert on, and adds what it will record. -/
def inboundTracks (payload : StockEntryCreate) (userUuid : String) (w : ℕ) :
    InboundPc → List RowWrite → (RowKey → Prop) → Ledger → Prop
  | .balanced now, ws, held, db =>
    held (.balance (payload.skuId, payload.warehouse)) ∧ w ≤ now.instant ∧
      ws = [.balance (credited db (payload.skuId, payload.warehouse) payload.quantity)]
  | .flushed e, ws, held, db =>
    held (.balance (payload.skuId, payload.warehouse)) ∧ ∃ now id, w ≤ now.instant ∧
      e = Ledger.newEntry payload userUuid now id ∧
      ws = [.balance (credited db (payload.skuId, payload.warehouse) payload.quantity), .entry e]
  | _, ws, _, _ => ws = []

/-- An exit holds its balance row from the upsert on, and takes what it will record. -/
def outboundTracks (payload : StockExitCreate) (userUuid : String) (w : ℕ) :
    OutboundPc → List RowWrite → (RowKey → Prop) → Ledger → Prop
  | .balanced _ _ now, ws, held, db =>
    held (.balance (payload.skuId, payload.warehouse)) ∧ w ≤ now.instant ∧
      ws = [.balance (credited db (payload.skuId, payload.warehouse) (-payload.quantity))]
  | .flushed _ _ x, ws, held, db =>
    held (.balance (payload.skuId, payload.warehouse)) ∧ ∃ now id, w ≤ now.instant ∧
      x = Ledger.newExit payload userUuid now id ∧
      ws = [.balance (credited db (payload.skuId, payload.warehouse) (-payload.quantity)), .exit x]
  | .evented x, ws, held, db =>
    held (.balance (payload.skuId, payload.warehouse)) ∧ ∃ now id v, w ≤ now.instant ∧
      x = Ledger.newExit payload userUuid now id ∧
      (v.skuId, v.warehouse) = (payload.skuId, payload.warehouse) ∧
      ws = [.balance (credited db (payload.skuId, payload.warehouse) (-payload.quantity)), .exit x,
        .stockout v]
  | _, ws, _, _ => ws = []

/-- The pending writes of a rebuild: derived balances of locked rows. -/
def DerivedWrites (w : ℕ) (ws : List RowWrite) (held : RowKey → Prop) (db : Ledger) : Prop :=
  ∀ v ∈ ws, ∃ k, held (.balance k) ∧ v = .balance ⟨k.1, k.2, db.derivedQuantity w k⟩

/-- The assertion of the worker: a row is still to do, or its derived balance is pending. -/
def maintenanceTracks (w : ℕ) :
    MaintenancePc → List RowWrite → (RowKey → Prop) → Ledger → Prop
  | .compare w', ws, _, db => ws = [] ∧ w' = w ∧ db.watermarkParam = .ok w
  | .derive w', ws, _, db => ws = [] ∧ w' = w ∧ db.watermarkParam = .ok w
  | .upserting w' snapshot todo, ws, held, db =>
    w' = w ∧ snapshot.stockLedgerCheckpoints = db.stockLedgerCheckpoints ∧
      DerivedWrites w ws held db ∧
      ∀ s ∈ db.skus.rows, s ∈ todo ∨ ∃ v ∈ ws, v.place = s.place
  | .finished _, ws, _, _ => ws = []
  | _, ws, _, db => ws = [] ∧ db.watermarkParam = .ok w

/-- The assertion of a session. -/
def tracks (w : ℕ) : Loc → List RowWrite → (RowKey → Prop) → Ledger → Prop
  | .inbound payload userUuid pc => inboundTracks payload userUuid w pc
  | .outbound payload userUuid pc => outboundTracks payload userUuid w pc
  | .maintenance pc => maintenanceTracks w pc

section Steps

variable {w : ℕ} {db : Ledger} {held : RowKey → Prop} {ws ws' : List RowWrite} {c : Choice}

/-! ### The statements keep the assertions -/

theorem balanceAfterDelta_eq_credited {skuId : ℕ} {warehouse : Warehouse} {delta : ℤ}
    {b : StockBalance} (h : db.balanceAfterDelta skuId warehouse delta = some b) :
    b = credited db (skuId, warehouse) delta := by
  obtain ⟨rfl, -⟩ := Ledger.balanceAfterDelta_eq_some h
  rfl

theorem inbound_tracks_step {payload : StockEntryCreate} {userUuid : String} {pc : InboundPc}
    {o : Outcome RowKey RowWrite InboundPc} (h : inboundTracks payload userUuid w pc ws held db)
    (hside : undisturbed w db (.inbound payload userUuid pc) c = true)
    (he : inboundExec payload userUuid (protocol.installAll db ws) pc c = some o) :
    o.LeadsTo (inboundTracks payload userUuid w) ws held db (protocol.installAll db ws) := by
  cases pc with
  | start =>
    obtain rfl : ws = [] := h
    cases c <;> simp only [inboundExec, Option.some.injEq, reduceCtorEq] at he <;> subst he
    · exact selectSkuForUpdate_leadsTo fun _ _ => rfl
    · rfl
  | selected sku =>
    obtain rfl : ws = [] := h
    cases c <;> simp only [inboundExec, Option.some.injEq, reduceCtorEq] at he
    case ok now id =>
      split at he <;> obtain rfl := Option.some.inj he
      · rfl
      · unfold applyBalanceDelta
        split
        · rfl
        · rename_i b hb
          exact ⟨.inr List.mem_cons_self, of_decide_eq_true hside,
            by rw [balanceAfterDelta_eq_credited hb]; rfl⟩
    case fail => subst he; rfl
  | balanced now =>
    obtain ⟨hl, hw, rfl⟩ := h
    cases c <;> simp only [inboundExec, Option.some.injEq, reduceCtorEq] at he <;> subst he
    · exact ⟨.inl hl, now, _, hw, rfl, rfl⟩
    · rfl
  | flushed e =>
    cases c <;> simp only [inboundExec, Option.some.injEq, reduceCtorEq] at he <;> subst he <;> rfl
  | committed e =>
    cases c <;> simp only [inboundExec, Option.some.injEq, reduceCtorEq] at he <;> subst he <;> rfl
  | finished r b => cases c <;> simp only [inboundExec, reduceCtorEq] at he

theorem outbound_tracks_step {payload : StockExitCreate} {userUuid : String} {pc : OutboundPc}
    {o : Outcome RowKey RowWrite OutboundPc} (h : outboundTracks payload userUuid w pc ws held db)
    (hside : undisturbed w db (.outbound payload userUuid pc) c = true)
    (he : outboundExec payload userUuid (protocol.installAll db ws) pc c = some o) :
    o.LeadsTo (outboundTracks payload userUuid w) ws held db (protocol.installAll db ws) := by
  cases pc with
  | start =>
    obtain rfl : ws = [] := h
    cases c <;> simp only [outboundExec, Option.some.injEq, reduceCtorEq] at he <;> subst he
    · exact selectSkuForUpdate_leadsTo fun _ _ => rfl
    · rfl
  | selected sku =>
    obtain rfl : ws = [] := h
    cases c <;> simp only [outboundExec, Option.some.injEq, reduceCtorEq] at he
    case ok now id => split at he <;> obtain rfl := Option.some.inj he <;> rfl
    case fail => subst he; rfl
  | stockRead sku available =>
    obtain rfl : ws = [] := h
    cases c <;> simp only [outboundExec, Option.some.injEq, reduceCtorEq] at he
    case ok now id =>
      split_ifs at he <;> obtain rfl := Option.some.inj he
      · rfl
      · unfold applyBalanceDelta
        split
        · rfl
        · rename_i b hb
          exact ⟨.inr List.mem_cons_self, of_decide_eq_true hside,
            by rw [balanceAfterDelta_eq_credited hb]; rfl⟩
    case fail => subst he; rfl
  | balanced sku available now =>
    obtain ⟨hl, hw, rfl⟩ := h
    cases c <;> simp only [outboundExec, Option.some.injEq, reduceCtorEq] at he <;> subst he
    · exact ⟨.inl hl, now, _, hw, rfl, rfl⟩
    · rfl
  | flushed sku available x =>
    obtain ⟨hl, now, id, hw, rfl, rfl⟩ := h
    cases c <;> simp only [outboundExec, Option.some.injEq, reduceCtorEq] at he
    case ok now' eventId =>
      split at he <;> obtain rfl := Option.some.inj he
      · rfl
      · rename_i v hv
        obtain ⟨-, rfl⟩ := Ledger.stockoutDue_eq_some hv
        exact ⟨.inl hl, now, id, _, hw, rfl, rfl, rfl⟩
    case fail => subst he; rfl
  | evented x =>
    cases c <;> simp only [outboundExec, Option.some.injEq, reduceCtorEq] at he <;> subst he <;> rfl
  | committed x =>
    cases c <;> simp only [outboundExec, Option.some.injEq, reduceCtorEq] at he <;> subst he <;> rfl
  | finished r b => cases c <;> simp only [outboundExec, reduceCtorEq] at he

theorem derivedQuantity_eq {db db' : Ledger} {k : Place}
    (hc : db'.stockLedgerCheckpoints = db.stockLedgerCheckpoints)
    (hm : db'.netMovement (fun t => decide (w ≤ t)) k =
      db.netMovement (fun t => decide (w ≤ t)) k) :
    db'.derivedQuantity w k = db.derivedQuantity w k := by
  simp only [Ledger.derivedQuantity, Ledger.checkpointQuantity, hc, hm]

theorem maintenance_tracks_step {pc : MaintenancePc} {o : Outcome RowKey RowWrite MaintenancePc}
    (h : maintenanceTracks w pc ws held db) (hside : undisturbed w db (.maintenance pc) c = true)
    (he : maintenanceExec (protocol.installAll db ws) pc c = some o) :
    o.LeadsTo (maintenanceTracks w) ws held db (protocol.installAll db ws) := by
  cases pc with
  | verify =>
    obtain ⟨rfl, hw⟩ := h
    cases c <;> simp only [maintenanceExec, installAll_nil, hw, Option.some.injEq,
      reduceCtorEq] at he <;> subst he
    · exact ⟨rfl, rfl, hw⟩
    · rfl
  | compare w' =>
    obtain ⟨rfl, rfl, hw⟩ := h
    cases c <;> simp only [maintenanceExec, Option.some.injEq, reduceCtorEq] at he
    case ok now id =>
      split_ifs at he <;> obtain rfl := Option.some.inj he
      · rfl
      · exact ⟨rfl, hw⟩
    case fail => subst he; rfl
  | rebuild =>
    obtain ⟨rfl, hw⟩ := h
    cases c <;> simp only [maintenanceExec, installAll_nil, hw, Option.some.injEq,
      reduceCtorEq] at he <;> subst he
    · exact ⟨rfl, rfl, hw⟩
    · rfl
  | derive w' =>
    obtain ⟨rfl, rfl, hw⟩ := h
    cases c <;> simp only [maintenanceExec, Option.some.injEq, reduceCtorEq] at he <;> subst he
    · exact ⟨rfl, rfl, by simp [DerivedWrites], fun s hs => .inl hs⟩
    · rfl
  | upserting w' snapshot todo =>
    obtain ⟨rfl, hcp, hws, hall⟩ := h
    cases c with
    | ok now id =>
      cases todo <;> simp only [maintenanceExec, Option.some.injEq, reduceCtorEq] at he
      subst he
      rfl
    | fail =>
      simp only [maintenanceExec, Option.some.injEq] at he
      subst he
      rfl
    | row sku =>
      simp only [maintenanceExec, Option.ite_none_right_eq_some] at he
      obtain ⟨hsku, he⟩ := he
      split_ifs at he <;> obtain rfl := Option.some.inj he
      · have hq := derivedQuantity_eq (k := sku.place) hcp (of_decide_eq_true hside)
        refine ⟨rfl, hcp, fun v hv => ?_, fun s hs => ?_⟩
        · rcases List.mem_append.1 hv with hv | hv
          · obtain ⟨k, hk, rfl⟩ := hws v hv
            exact ⟨k, .inl hk, rfl⟩
          · obtain rfl := List.mem_singleton.1 hv
            exact ⟨sku.place, .inr List.mem_cons_self, by rw [← hq]; rfl⟩
        · rcases hall s hs with ht | ⟨v, hv, hp⟩
          · by_cases hse : s = sku
            · subst hse
              exact .inr ⟨_, List.mem_append_right _ List.mem_cons_self, rfl⟩
            · exact .inl ((List.mem_erase_of_ne hse).2 ht)
          · exact .inr ⟨v, List.mem_append_left _ hv, hp⟩
      · rfl
  | finished b => cases c <;> simp only [maintenanceExec, reduceCtorEq] at he

/-! ### Other sessions' commits keep the assertions -/

theorem credited_installAll {k : Place} (hl : held (.balance k))
    (hw : ∀ v ∈ ws', ∀ k ∈ balanceGuard v, ¬ held k) (delta : ℤ) :
    credited (protocol.installAll db ws') k delta = credited db k delta := by
  have h : (protocol.installAll db ws').storedBalance k = db.storedBalance k :=
    storedBalance_installAll fun v hv he => hw v hv _ List.mem_cons_self (he ▸ hl)
  simp only [credited, h]

theorem derivedQuantity_installAll {k : Place} (hl : held (.balance k))
    (hw : ∀ v ∈ ws', ∀ k ∈ balanceGuard v, ¬ held k) :
    (protocol.installAll db ws').derivedQuantity w k = db.derivedQuantity w k :=
  derivedQuantity_eq stockLedgerCheckpoints_installAll
    (netMovement_installAll _ fun v hv he => hw v hv _ List.mem_cons_self (he ▸ hl))

theorem watermarkParam_installAll :
    (protocol.installAll db ws').watermarkParam = db.watermarkParam := by
  simp only [Ledger.watermarkParam, Ledger.checkpointWatermark, stockLedgerCheckpoints_installAll]

theorem tracks_stable {loc : Loc} (h : tracks w loc ws held db)
    (hw : ∀ v ∈ ws', ∀ k ∈ balanceGuard v, ¬ held k) :
    tracks w loc ws held (protocol.installAll db ws') := by
  cases loc with
  | inbound payload userUuid pc =>
    cases pc with
    | balanced now =>
      obtain ⟨hl, hn, rfl⟩ := h
      exact ⟨hl, hn, by rw [credited_installAll hl hw]⟩
    | flushed e =>
      obtain ⟨hl, now, id, hn, he, rfl⟩ := h
      exact ⟨hl, now, id, hn, he, by rw [credited_installAll hl hw]⟩
    | _ => exact h
  | outbound payload userUuid pc =>
    cases pc with
    | balanced sku available now =>
      obtain ⟨hl, hn, rfl⟩ := h
      exact ⟨hl, hn, by rw [credited_installAll hl hw]⟩
    | flushed sku available x =>
      obtain ⟨hl, now, id, hn, hx, rfl⟩ := h
      exact ⟨hl, now, id, hn, hx, by rw [credited_installAll hl hw]⟩
    | evented x =>
      obtain ⟨hl, now, id, v, hn, hx, hv, rfl⟩ := h
      exact ⟨hl, now, id, v, hn, hx, hv, by rw [credited_installAll hl hw]⟩
    | _ => exact h
  | maintenance pc =>
    cases pc with
    | verify => exact ⟨h.1, watermarkParam_installAll.trans h.2⟩
    | rebuild => exact ⟨h.1, watermarkParam_installAll.trans h.2⟩
    | compare w' => exact ⟨h.1, h.2.1, watermarkParam_installAll.trans h.2.2⟩
    | derive w' => exact ⟨h.1, h.2.1, watermarkParam_installAll.trans h.2.2⟩
    | upserting w' snapshot todo =>
      obtain ⟨hw', hcp, hws, hall⟩ := h
      refine ⟨hw', hcp.trans stockLedgerCheckpoints_installAll.symm, fun v hv => ?_, ?_⟩
      · obtain ⟨k, hk, rfl⟩ := hws v hv
        exact ⟨k, hk, by rw [derivedQuantity_installAll hk hw]⟩
      · rw [skus_installAll]
        exact hall
    | finished b => exact h

theorem tracks_guarded {loc : Loc} (h : tracks w loc ws held db) :
    ∀ v ∈ ws, ∀ k ∈ balanceGuard v, held k := by
  have nil : ws = [] → ∀ v ∈ ws, ∀ k ∈ balanceGuard v, held k := by rintro rfl; simp
  cases loc with
  | inbound payload userUuid pc =>
    cases pc with
    | balanced now =>
      obtain ⟨hl, -, rfl⟩ := h
      simpa [balanceGuard, RowWrite.place, credited] using hl
    | flushed e =>
      obtain ⟨hl, now, id, -, rfl, rfl⟩ := h
      simpa [balanceGuard, RowWrite.place, credited, Ledger.newEntry] using hl
    | _ => exact nil h
  | outbound payload userUuid pc =>
    cases pc with
    | balanced sku available now =>
      obtain ⟨hl, -, rfl⟩ := h
      simpa [balanceGuard, RowWrite.place, credited] using hl
    | flushed sku available x =>
      obtain ⟨hl, now, id, -, rfl, rfl⟩ := h
      simpa [balanceGuard, RowWrite.place, credited, Ledger.newExit] using hl
    | evented x =>
      obtain ⟨hl, now, id, v, -, rfl, hv, rfl⟩ := h
      simpa [balanceGuard, RowWrite.place, credited, Ledger.newExit, hv] using hl
    | _ => exact nil h
  | maintenance pc =>
    cases pc with
    | upserting w' snapshot todo =>
      intro v hv
      obtain ⟨k, hk, rfl⟩ := h.2.2.1 v hv
      simpa [balanceGuard, RowWrite.place] using hk
    | finished b => exact nil h
    | _ => exact nil h.1

/-- The assertions about balances, guarded by the balance rows. -/
def balanceAssertion (w : ℕ) :
    Assertion protocol balanceGuard (fun loc c db => undisturbed w db loc c = true) where
  holds := tracks w
  guarded := tracks_guarded
  stable := tracks_stable
  step := by
    intro loc ws held db c busy o h hside he
    cases loc with
    | inbound payload userUuid pc =>
      obtain ⟨o', he', rfl⟩ := Option.map_eq_some_iff.1 he
      exact Outcome.leadsTo_map.2 (inbound_tracks_step h hside he')
    | outbound payload userUuid pc =>
      obtain ⟨o', he', rfl⟩ := Option.map_eq_some_iff.1 he
      exact Outcome.leadsTo_map.2 (outbound_tracks_step h hside he')
    | maintenance pc =>
      obtain ⟨o', he', rfl⟩ := Option.map_eq_some_iff.1 he
      exact Outcome.leadsTo_map.2 (maintenance_tracks_step h hside he')

/-! ### What a commit does to the balances -/

/-- A receipt moves the stored and the derived balance of its place by the same amount. -/
theorem Consistent.entry {e : StockEntry} (h : Consistent w db) (hw : w ≤ e.createdAt) :
    Consistent w ((db.setBalance (credited db e.place e.quantity)).addEntry e) := by
  intro s hs
  have hk : db.storedBalance s.place = db.derivedQuantity w s.place := h s hs
  by_cases hp : e.place = s.place
  · simp [credited, hp, hk, hw]
  · simp [credited, hp, hk]

/-- So does an exit. -/
theorem Consistent.exit {x : StockExit} (h : Consistent w db) (hw : w ≤ x.createdAt) :
    Consistent w ((db.setBalance (credited db x.place (-x.quantity))).addExit x) := by
  intro s hs
  have hk : db.storedBalance s.place = db.derivedQuantity w s.place := h s hs
  by_cases hp : x.place = s.place
  · simp [credited, hp, hk, hw, sub_eq_add_neg]
  · simp [credited, hp, hk]

theorem storedBalance_derivedWrites {k : Place} (h : DerivedWrites w ws held db)
    (hk : (∃ v ∈ ws, v.place = k) ∨ db.storedBalance k = db.derivedQuantity w k) :
    (protocol.installAll db ws).storedBalance k =
      (protocol.installAll db ws).derivedQuantity w k := by
  induction ws generalizing db with
  | nil => simpa using hk
  | cons v ws ih =>
    obtain ⟨k', -, rfl⟩ := h v List.mem_cons_self
    refine ih (fun u hu => h u (List.mem_cons_of_mem _ hu)) ?_
    by_cases hkk : k' = k
    · subst hkk
      refine .inr ?_
      change (db.setBalance _).storedBalance k' = (db.setBalance _).derivedQuantity w k'
      simp
    · rcases hk with ⟨u, hu, hup⟩ | hk
      · rcases List.mem_cons.1 hu with rfl | hu
        · exact (hkk hup).elim
        · exact .inl ⟨u, hu, hup⟩
      · refine .inr ?_
        change (db.setBalance _).storedBalance k = (db.setBalance _).derivedQuantity w k
        simpa [hkk] using hk

/-- A commit keeps consistent balances consistent; a commit of the worker makes them so. -/
theorem tracks_commit {loc loc' : Loc} (h : tracks w loc ws held db)
    (he : exec loc c (protocol.installAll db ws) = some (.commit loc'))
    (hdb : Consistent w db ∨ loc.call = none) : Consistent w (protocol.installAll db ws) := by
  cases loc with
  | inbound payload userUuid pc =>
    have hcons := hdb.resolve_right (by simp [Loc.call])
    obtain ⟨o, he, ho⟩ := Option.map_eq_some_iff.1 he
    cases o with
    | commit pc' =>
      obtain ⟨e, rfl⟩ := inboundExec_commit he
      obtain ⟨-, now, id, hw, rfl, rfl⟩ := h
      exact hcons.entry (e := Ledger.newEntry payload userUuid now id) hw
    | _ => cases ho
  | outbound payload userUuid pc =>
    have hcons := hdb.resolve_right (by simp [Loc.call])
    obtain ⟨o, he, ho⟩ := Option.map_eq_some_iff.1 he
    cases o with
    | commit pc' =>
      rcases outboundExec_commit he with ⟨sku, available, x, eventId, rfl, -⟩ | ⟨x, rfl⟩
      · obtain ⟨-, now, id, hw, rfl, rfl⟩ := h
        exact hcons.exit (x := Ledger.newExit payload userUuid now id) hw
      · obtain ⟨-, now, id, v, hw, rfl, -, rfl⟩ := h
        exact hcons.exit (x := Ledger.newExit payload userUuid now id) hw
    | _ => cases ho
  | maintenance pc =>
    obtain ⟨o, he, ho⟩ := Option.map_eq_some_iff.1 he
    cases o with
    | commit pc' =>
      rcases maintenanceExec_commit he with ⟨w', rfl, hd⟩ | ⟨w', snapshot, rfl⟩
      · obtain ⟨rfl, rfl, -⟩ := h
        exact Ledger.balanceDrift_eq_nil_iff.1 hd
      · obtain ⟨rfl, -, hws, hall⟩ := h
        intro s hs
        rw [skus_installAll] at hs
        exact storedBalance_derivedWrites hws (.inl ((hall s hs).resolve_left (by simp)))
    | _ => cases ho

end Steps

/-! ### Runs -/

section Runs

variable {ι : Type*} [DecidableEq ι]

/-- All jobs before their first statement. -/
def jobsState (jobs : ι → Job) (db : Ledger) : State ι Ledger RowKey RowWrite Loc :=
  State.start db fun i => (jobs i).start

/-- A rebuild or reconciliation has committed. -/
def Rebuilt (s : State ι Ledger RowKey RowWrite Loc) : Prop :=
  ∃ i, (s.session i).loc.call = none ∧ (s.session i).loc.didCommit = true

theorem tracks_start (w : ℕ) (job : Job) {db : Ledger} (hw : db.watermarkParam = .ok w) :
    tracks w job.start [] (fun _ => False) db := by
  cases job with
  | movement call => cases call <;> rfl
  | reconcile => exact ⟨rfl, hw⟩
  | rebuild => exact ⟨rfl, hw⟩

theorem didCommit_job_start (job : Job) : job.start.didCommit = false := by
  cases job with
  | movement call => exact didCommit_start call
  | reconcile => rfl
  | rebuild => rfl

/-- Only a commit of the worker itself makes the ledger rebuilt. -/
theorem rebuilt_of_next {s s' : State ι Ledger RowKey RowWrite Loc} {i : ι} {c : Choice}
    (h : protocol.next s (i, c) = some s')
    (hi : (s'.session i).loc.didCommit = (s.session i).loc.didCommit ∨
      (s.session i).loc.call ≠ none) (hr : Rebuilt s') : Rebuilt s := by
  obtain ⟨j, hcall, hd⟩ := hr
  rw [call_next h] at hcall
  by_cases hj : j = i
  · subst hj
    exact ⟨j, hcall, hi.resolve_right (not_not.2 hcall) ▸ hd⟩
  · exact ⟨j, hcall, Protocol.session_next_of_ne h hj ▸ hd⟩

theorem consistent_next {w : ℕ} {db₀ : Ledger} {s s' : State ι Ledger RowKey RowWrite Loc} {i : ι}
    {c : Choice} (hA : (balanceAssertion w).All s) (h : protocol.next s (i, c) = some s')
    (hs : Consistent w db₀ ∨ Rebuilt s → Consistent w s.db) (hr : Consistent w db₀ ∨ Rebuilt s') :
    Consistent w s'.db := by
  have back := rebuilt_of_next h
  obtain ⟨ks, ws, a, he, -, rfl⟩ | ⟨a, he, rfl⟩ | ⟨a, he, rfl⟩ := Protocol.next_cases h
  · have hm : a.didCommit = (s.session i).loc.didCommit := exec_marks he
    exact hs (hr.imp_right (back (.inl (by simpa using hm))))
  · by_cases hcall : (s.session i).loc.call = none
    · exact tracks_commit (hA i) he (.inr hcall)
    · exact tracks_commit (hA i) he (.inl (hs (hr.imp_right (back (.inr hcall)))))
  · have hm : a.didCommit = (s.session i).loc.didCommit := exec_marks he
    exact hs (hr.imp_right (back (.inl (by simpa using hm))))

/-- **A rebuild that is not overtaken keeps every movement.**  In every run in which each rebuilt
row is written before the movements of its place change, stored and derived balances agree from
the commit of the rebuild on, and throughout if they agree at the start. -/
theorem rebuild_keeps_movements (jobs : ι → Job) {db₀ : Ledger} {w : ℕ}
    (hw : db₀.watermarkParam = .ok w) {s : State ι Ledger RowKey RowWrite Loc}
    (h : (protocol.machine ι).Run (fun s l => undisturbed w s.db (s.session l.1).loc l.2 = true)
      (jobsState jobs db₀) s)
    (hr : Consistent w db₀ ∨ Rebuilt s) : Consistent w s.db := by
  refine (h.invariant (fun s => (balanceAssertion w).All s ∧
    (Consistent w db₀ ∨ Rebuilt s → Consistent w s.db)) ⟨?_, fun h => ?_⟩ ?_).2 hr
  · exact (balanceAssertion w).all_start fun i => tracks_start w _ hw
  · refine h.resolve_right fun ⟨i, _, hd⟩ => ?_
    have hn : (jobs i).start.didCommit = true := hd
    simp [didCommit_job_start] at hn
  · rintro s ⟨i, c⟩ s' ⟨hA, hs⟩ hg hn
    exact ⟨(balanceAssertion w).all_next hA hg hn, consistent_next hA hn hs⟩

end Runs

/-! ### The lost update -/

/-- A statement that succeeds. -/
def done (id : ℕ) : Choice := .ok (.afterEpoch 0) id

/-- A receipt of 5 units, a rebuild, and a dispatch of 3 units. -/
def rebuildJobs : Fin 3 → Job
  | 0 => .movement (raceCalls 0)
  | 1 => .rebuild
  | 2 => .movement (raceCalls 1)

/-- The statements of the dispatch. -/
def dispatchRun {n : ℕ} (i : Fin n) : List (Fin n × Choice) := List.replicate 7 (i, done 9)

/-- After the receipt, the rebuild derives 5 units, and goes on after `middle`. -/
def rebuildRun (middle : List (Fin 3 × Choice)) : List (Fin 3 × Choice) :=
  List.replicate 5 (0, done 1) ++ [(1, done 0), (1, done 0)] ++ middle ++
    [(1, .row raceSku), (1, done 0)]

theorem rebuild_keeps_movements_in_order :
    ∃ s, (protocol.machine (Fin 3)).Run
        (fun s l => undisturbed beginningOfTime s.db (s.session l.1).loc l.2 = true)
        (jobsState rebuildJobs (emptyLedger [] ⟨[raceSku], by decide⟩)) s ∧
      (∀ i, (s.session i).loc.didCommit = true) ∧ Consistent beginningOfTime s.db := by
  obtain ⟨s, hr, hs⟩ := (protocol.machine (Fin 3)).exists_run
    (fun s l => undisturbed beginningOfTime s.db (s.session l.1).loc l.2)
    (jobsState rebuildJobs (emptyLedger [] ⟨[raceSku], by decide⟩)) (rebuildRun [] ++ dispatchRun 2)
    (fun s => decide (∀ i, (s.session i).loc.didCommit = true))
    (by decide)
  exact ⟨s, hr, of_decide_eq_true hs,
    rebuild_keeps_movements rebuildJobs rfl hr (.inl (by decide))⟩

/-- A second SKU. -/
def otherSku : SKU := ⟨2, "Vase", "VASE-1", 7, 0, .fashion, .LA⟩

/-- Five lamps with their balance, and four vases received by an image that does not maintain
balances. -/
def rolloverLedger : Ledger :=
  ((({ Ledger.empty with skus := ⟨[raceSku, otherSku], by decide⟩ }).setBalance
    ⟨1, .LA, 5⟩).addEntry ⟨1, 1, 5, "PO-1", .LA, beginningOfTime, "u-1"⟩).addEntry
      ⟨2, 2, 4, "PO-2", .LA, beginningOfTime, "u-1"⟩

/-- A reconciliation, and a dispatch of 3 lamps. -/
def reconcileJobs : Fin 2 → Job
  | 0 => .reconcile
  | 1 => .movement (raceCalls 1)

/-- The reconciliation finds the vases drifted and derives all balances; the dispatch commits; the
derived rows are written. -/
def reconcileRun : List (Fin 2 × Choice) :=
  List.replicate 4 (0, done 0) ++ dispatchRun 1 ++
    [(0, .row raceSku), (0, .row otherSku), (0, done 0)]

/-- **A concurrent movement is lost.**  A dispatch that commits after the rebuild has taken its
snapshot is overwritten: all transactions have committed, and the stored balance still counts the
dispatched units.  The same happens under the reconciliation of the maintenance worker. -/
theorem rebuild_loses_movement :
    (¬ ∀ s, (protocol.machine (Fin 3)).Reachable
        (jobsState rebuildJobs (emptyLedger [] ⟨[raceSku], by decide⟩)) s →
      (∀ i, (s.session i).loc.didCommit = true) → Consistent beginningOfTime s.db) ∧
    (¬ ∀ s, (protocol.machine (Fin 2)).Reachable (jobsState reconcileJobs rolloverLedger) s →
      (∀ i, (s.session i).loc.didCommit = true) → Consistent beginningOfTime s.db) := by
  constructor
  · intro h
    obtain ⟨s, hr, hs⟩ := (protocol.machine (Fin 3)).exists_reachable
      (jobsState rebuildJobs (emptyLedger [] ⟨[raceSku], by decide⟩)) (rebuildRun (dispatchRun 2))
      (fun s => decide ((∀ i, (s.session i).loc.didCommit = true) ∧
        ¬ Consistent beginningOfTime s.db)) (by decide)
    obtain ⟨hd, hc⟩ := of_decide_eq_true hs
    exact hc (h s hr hd)
  · intro h
    obtain ⟨s, hr, hs⟩ := (protocol.machine (Fin 2)).exists_reachable
      (jobsState reconcileJobs rolloverLedger) reconcileRun
      (fun s => decide ((∀ i, (s.session i).loc.didCommit = true) ∧
        ¬ Consistent beginningOfTime s.db)) (by decide)
    obtain ⟨hd, hc⟩ := of_decide_eq_true hs
    exact hc (h s hr hd)

end Inventory

end TrackFlow
