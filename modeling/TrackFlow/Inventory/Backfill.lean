import TrackFlow.Inventory.Upkeep

/-!
# What a backfill does to the balances

`backfill_history` keeps a running stock for every place while it writes back-dated movements, and
then re-derives the balances from the checkpoint.  Movements below the watermark of the checkpoint
do not count there.

* `PlaceAccount` : the backfill at one place, without the tables; `accountAt_backfillDays` says
  that the tables follow it.
* `backfill_agrees_iff` : **every stored balance moves by the net of the inserted movements, and
  stays nonnegative, if and only if no SKU's oldest receipt lies below the watermark.**
-/

namespace TrackFlow

/-- The running stock of a place, and the net of its movements below a watermark and altogether. -/
@[ext]
structure PlaceAccount where
  stock : ℕ
  below : ℤ
  total : ℤ

namespace PlaceAccount

variable (w : ℕ)

/-- A receipt at the instant `t`. -/
def receive (t quantity : ℕ) (a : PlaceAccount) : PlaceAccount :=
  ⟨a.stock + quantity, a.below + if t < w then (quantity : ℤ) else 0, a.total + quantity⟩

/-- A dispatch or loss at the instant `t`. -/
def ship (t quantity : ℕ) (a : PlaceAccount) : PlaceAccount :=
  ⟨a.stock - quantity, a.below - if t < w then (quantity : ℤ) else 0, a.total - quantity⟩

/-- The dispatches and losses of a day. -/
def ships (instant : ℕ) : List BackfillExit → PlaceAccount → PlaceAccount
  | [], a => a
  | draw :: draws, a =>
    if a.stock = 0 then a
    else ships instant draws (a.ship w (replaceHour instant draw.hourOfDay)
      (1 + draw.choice % max 1 (a.stock / 2)))

/-- One day. -/
def onDay (instant : ℕ) (draw : BackfillDay) (a : PlaceAccount) : PlaceAccount :=
  ships w instant draw.exits (a.receive w (replaceHour instant draw.hourOfDay) draw.receipt)

/-- The days from `days` days before `now` on. -/
def overDays (draws : ℕ → BackfillDay) (now days : ℕ) (a : PlaceAccount) : PlaceAccount :=
  (Ledger.dayOffsets days).foldl (fun a offset => a.onDay w (now - offset * day) (draws offset)) a

variable {w}

/-! ### One day -/

/-- A draw never takes more than there is. -/
theorem draw_le {stock : ℕ} (choice : ℕ) (h : stock ≠ 0) :
    1 + choice % max 1 (stock / 2) ≤ stock := by
  have hlt : choice % max 1 (stock / 2) < max 1 (stock / 2) := Nat.mod_lt _ (by omega)
  omega

theorem total_ships {instant : ℕ} {draws : List BackfillExit} {a : PlaceAccount} :
    (a.ships w instant draws).total - (a.ships w instant draws).stock = a.total - a.stock := by
  induction draws generalizing a with
  | nil => rfl
  | cons draw draws ih =>
    unfold ships
    split_ifs with h
    · rfl
    · have hle := draw_le draw.choice h
      rw [ih]
      simp only [ship]
      generalize 1 + draw.choice % max 1 (a.stock / 2) = quantity at hle
      push_cast [hle]
      omega

theorem total_onDay {instant : ℕ} {draw : BackfillDay} {a : PlaceAccount} :
    (a.onDay w instant draw).total - (a.onDay w instant draw).stock = a.total - a.stock := by
  rw [onDay, total_ships]
  simp only [receive]
  push_cast
  omega

theorem replaceHour_mono {instant h h' : ℕ} (hh : h ≤ h') :
    replaceHour instant h ≤ replaceHour instant h' := by
  unfold replaceHour
  gcongr

/-- Movements from the watermark on leave the net below it alone. -/
theorem below_ships {instant : ℕ} {draws : List BackfillExit} {a : PlaceAccount}
    (hw : w ≤ replaceHour instant 11) : (a.ships w instant draws).below = a.below := by
  induction draws generalizing a with
  | nil => rfl
  | cons draw draws ih =>
    unfold ships
    split_ifs with h
    · rfl
    · have ht : ¬ replaceHour instant draw.hourOfDay < w :=
        not_lt.2 (hw.trans (replaceHour_mono draw.hour_mem.1))
      rw [ih]
      simp [ship, ht]

theorem below_onDay {instant : ℕ} {draw : BackfillDay} {a : PlaceAccount}
    (hw : w ≤ replaceHour instant draw.hourOfDay) : (a.onDay w instant draw).below = a.below := by
  have hexits : w ≤ replaceHour instant 11 :=
    hw.trans (replaceHour_mono (draw.hour_mem.2.trans (by decide)))
  rw [onDay, below_ships hexits]
  simp [receive, not_lt.2 hw]

/-- As long as what there is lies below the watermark, it stays there. -/
theorem owed_ships {instant : ℕ} {draws : List BackfillExit} {a : PlaceAccount} {c : ℤ}
    (h : (a.stock : ℤ) ≤ a.below - c) :
    ((a.ships w instant draws).stock : ℤ) ≤ (a.ships w instant draws).below - c := by
  induction draws generalizing a with
  | nil => exact h
  | cons draw draws ih =>
    unfold ships
    split_ifs with hz
    · exact h
    · refine ih ?_
      have hle := draw_le draw.choice hz
      simp only [ship]
      generalize 1 + draw.choice % max 1 (a.stock / 2) = quantity at hle
      push_cast [hle]
      split_ifs <;> omega

/-- Taking at most half of the stock `n` times leaves some of `2 ^ n`. -/
theorem stock_ships {instant : ℕ} {draws : List BackfillExit} {a : PlaceAccount}
    (h : 2 ^ draws.length ≤ a.stock) : 0 < (a.ships w instant draws).stock := by
  induction draws generalizing a with
  | nil =>
    rw [List.length_nil, pow_zero] at h
    exact h
  | cons draw draws ih =>
    rw [List.length_cons, pow_succ] at h
    have hone : 1 ≤ 2 ^ draws.length := Nat.one_le_two_pow
    have hlt : draw.choice % max 1 (a.stock / 2) < max 1 (a.stock / 2) := Nat.mod_lt _ (by omega)
    unfold ships
    split_ifs with hz
    · omega
    · refine ih ?_
      simp only [ship]
      omega

/-- A day whose receipt lies below the watermark leaves stock below it. -/
theorem owed_onDay {instant : ℕ} {draw : BackfillDay} {a : PlaceAccount} {c : ℤ}
    (hw : replaceHour instant draw.hourOfDay < w) (h : (a.stock : ℤ) ≤ a.below - c) :
    0 < (a.onDay w instant draw).stock ∧
      ((a.onDay w instant draw).stock : ℤ) ≤ (a.onDay w instant draw).below - c := by
  constructor
  · refine stock_ships ?_
    have hthree : 2 ^ draw.exits.length ≤ 2 ^ 3 := Nat.pow_le_pow_right (by decide)
      draw.exits_length.2
    have hreceipt := draw.receipt_mem.1
    simp only [receive]
    omega
  · refine owed_ships ?_
    simp only [receive, hw, if_true]
    push_cast
    omega

/-! ### All days -/

theorem dayOffsets_succ (days : ℕ) :
    Ledger.dayOffsets (days + 1) = (days + 1) :: Ledger.dayOffsets days := by
  simp [Ledger.dayOffsets, List.range_succ]

@[simp] theorem overDays_zero (draws : ℕ → BackfillDay) (now : ℕ) (a : PlaceAccount) :
    a.overDays w draws now 0 = a := rfl

theorem overDays_succ (draws : ℕ → BackfillDay) (now days : ℕ) (a : PlaceAccount) :
    a.overDays w draws now (days + 1) =
      (a.onDay w (now - (days + 1) * day) (draws (days + 1))).overDays w draws now days := by
  rw [overDays, dayOffsets_succ, List.foldl_cons]
  rfl

theorem sub_mul_eq_add {now days d : ℕ} (h : (days + 1) * d ≤ now) :
    now - days * d = now - (days + 1) * d + d := by
  rw [Nat.succ_mul] at *
  omega

/-- An earlier day's receipt is before a later day's. -/
theorem receipt_lt {now days h h' : ℕ} (hd : (days + 1) * day ≤ now) (hh : h ≤ 10) :
    replaceHour (now - (days + 1) * day) h < replaceHour (now - days * day) h' := by
  rw [sub_mul_eq_add hd]
  generalize now - (days + 1) * day = t
  have hhour : (t + day) % hour = t % hour := by
    rw [Nat.add_mod, show day % hour = 0 from rfl, add_zero, Nat.mod_mod]
  have hlt : h * hour < day := (Nat.mul_le_mul_right hour hh).trans_lt (by decide)
  rw [replaceHour, replaceHour, floorTo_add, hhour]
  omega

theorem total_overDays {draws : ℕ → BackfillDay} {now days : ℕ} {a : PlaceAccount} :
    (a.overDays w draws now days).total - (a.overDays w draws now days).stock =
      a.total - a.stock := by
  induction days generalizing a with
  | zero => rfl
  | succ days ih => rw [overDays_succ, ih, total_onDay]

/-- From the watermark on. -/
theorem below_overDays {draws : ℕ → BackfillDay} {now days : ℕ} {a : PlaceAccount}
    (hd : days * day ≤ now)
    (hw : days ≠ 0 → w ≤ replaceHour (now - days * day) (draws days).hourOfDay) :
    (a.overDays w draws now days).below = a.below := by
  induction days generalizing a with
  | zero => rfl
  | succ days ih =>
    have hfirst := hw (Nat.succ_ne_zero days)
    have hnext : w ≤ replaceHour (now - days * day) (draws days).hourOfDay :=
      hfirst.trans (receipt_lt hd (draws (days + 1)).hour_mem.2).le
    rw [overDays_succ, ih ((Nat.mul_le_mul_right _ (Nat.le_succ days)).trans hd) fun _ => hnext,
      below_onDay hfirst]

/-- Stock that lies below the watermark is never all shipped. -/
theorem owed_overDays {draws : ℕ → BackfillDay} {now days : ℕ} {a : PlaceAccount} {c : ℤ}
    (hd : days * day ≤ now) (hpos : 0 < a.stock) (h : (a.stock : ℤ) ≤ a.below - c) :
    c < (a.overDays w draws now days).below := by
  induction days generalizing a with
  | zero =>
    rw [overDays_zero]
    omega
  | succ days ih =>
    by_cases hw : replaceHour (now - (days + 1) * day) (draws (days + 1)).hourOfDay < w
    · obtain ⟨hpos', h'⟩ := owed_onDay hw h
      rw [overDays_succ]
      exact ih ((Nat.mul_le_mul_right _ (Nat.le_succ days)).trans hd) hpos' h'
    · rw [below_overDays hd fun _ => not_lt.1 hw]
      omega

/-- **Nothing is below the watermark exactly when the oldest receipt is not.** -/
theorem below_overDays_iff {draws : ℕ → BackfillDay} {now days : ℕ} {a : PlaceAccount}
    (hd : days * day ≤ now) (hdays : 0 < days) (hstock : a.stock = 0) :
    (a.overDays w draws now days).below = a.below ↔
      w ≤ replaceHour (now - days * day) (draws days).hourOfDay := by
  refine ⟨fun h => ?_, fun h => below_overDays hd fun _ => h⟩
  by_contra hw
  obtain ⟨days, rfl⟩ := Nat.exists_eq_succ_of_ne_zero hdays.ne'
  obtain ⟨hpos, howed⟩ := owed_onDay (c := a.below) (not_le.1 hw) (a := a) (by simp [hstock])
  rw [overDays_succ] at h
  have hle : days * day ≤ now := (Nat.mul_le_mul_right _ (Nat.le_succ days)).trans hd
  exact absurd h (owed_overDays hle hpos howed).ne'

end PlaceAccount

/-! ## The tables follow the account -/

namespace Ledger

variable {w : ℕ} {userUuid : String}

/-- The account of a place. -/
def accountAt (w : ℕ) (k : Place) (b : Backfill) : PlaceAccount :=
  ⟨b.2 k, b.1.netMovement (fun t => decide (t < w)) k, b.1.ledgerBalance k⟩

theorem accountAt_backfillEntry {reference : String} {instant : ℕ} {sku : SKU}
    {draw : BackfillDay} (b : Backfill) :
    accountAt w sku.place (backfillEntry reference userUuid instant sku draw b) =
      (accountAt w sku.place b).receive w (replaceHour instant draw.hourOfDay) draw.receipt := by
  ext <;> simp [accountAt, backfillEntry, PlaceAccount.receive]

theorem accountAt_backfillExit {instant : ℕ} {sku : SKU} {draw : BackfillExit} (b : Backfill) :
    accountAt w sku.place (backfillExit userUuid instant sku draw b) =
      (accountAt w sku.place b).ship w (replaceHour instant draw.hourOfDay)
        (1 + draw.choice % max 1 ((accountAt w sku.place b).stock / 2)) := by
  ext <;> simp [accountAt, backfillExit, PlaceAccount.ship]

theorem accountAt_backfillExits {instant : ℕ} {sku : SKU} {draws : List BackfillExit}
    (b : Backfill) :
    accountAt w sku.place (backfillExits userUuid instant sku draws b) =
      (accountAt w sku.place b).ships w instant draws := by
  induction draws generalizing b with
  | nil => rfl
  | cons draw draws ih =>
    have hstock : (accountAt w sku.place b).stock = b.2 sku.place := rfl
    unfold backfillExits PlaceAccount.ships
    rw [hstock]
    split_ifs with h
    · rfl
    · rw [ih, accountAt_backfillExit, hstock]

/-- A movement at another place does not touch the account. -/
theorem accountAt_backfillExits_of_ne {instant : ℕ} {sku : SKU} {draws : List BackfillExit}
    {k : Place} (hk : sku.place ≠ k) (b : Backfill) :
    accountAt w k (backfillExits userUuid instant sku draws b) = accountAt w k b := by
  induction draws generalizing b with
  | nil => rfl
  | cons draw draws ih =>
    unfold backfillExits
    split_ifs with h
    · rfl
    · rw [ih]
      ext <;> simp [accountAt, backfillExit, hk, Ne.symm hk]

variable {isoformat : ℕ → String} {draws : ℕ → SKU → BackfillDay} {now offset : ℕ}

theorem accountAt_backfillSku {sku : SKU} (b : Backfill) :
    accountAt w sku.place (backfillSku isoformat draws userUuid now offset b sku) =
      (accountAt w sku.place b).onDay w (now - offset * day) (draws offset sku) := by
  rw [backfillSku, accountAt_backfillExits, accountAt_backfillEntry, PlaceAccount.onDay]

theorem accountAt_backfillSku_of_ne {sku : SKU} {k : Place} (hk : sku.place ≠ k) (b : Backfill) :
    accountAt w k (backfillSku isoformat draws userUuid now offset b sku) = accountAt w k b := by
  rw [backfillSku, accountAt_backfillExits_of_ne hk]
  ext <;> simp [accountAt, backfillEntry, hk, Ne.symm hk]

/-- A day over all SKUs is a day at the place of each. -/
theorem accountAt_day {skus : List SKU} (hn : (skus.map SKU.place).Nodup) {sku : SKU}
    (hs : sku ∈ skus) (b : Backfill) :
    accountAt w sku.place (skus.foldl (backfillSku isoformat draws userUuid now offset) b) =
      (accountAt w sku.place b).onDay w (now - offset * day) (draws offset sku) := by
  obtain ⟨before, after, rfl⟩ := List.append_of_mem hs
  have hother : ∀ other ∈ before ++ after, other.place ≠ sku.place := by
    intro other ho hp
    rw [List.map_append, List.map_cons, List.nodup_middle, List.nodup_cons] at hn
    refine hn.1 ?_
    rw [← List.map_append, ← hp]
    exact List.mem_map_of_mem ho
  have hkeep : ∀ others ⊆ before ++ after, ∀ b : Backfill,
      accountAt w sku.place (others.foldl (backfillSku isoformat draws userUuid now offset) b) =
        accountAt w sku.place b := fun others hsub b =>
    foldl_keeps (fun b' x hx => accountAt_backfillSku_of_ne (hother x (hsub hx)) b') b
  rw [List.foldl_append, List.foldl_cons, hkeep after (List.subset_append_right _ _),
    accountAt_backfillSku, hkeep before (List.subset_append_left _ _)]

/-- **All days at the place of one SKU.** -/
theorem accountAt_backfillDays {skus : List SKU} (hn : (skus.map SKU.place).Nodup) {sku : SKU}
    (hs : sku ∈ skus) (days : ℕ) (b : Backfill) :
    accountAt w sku.place ((dayOffsets days).foldl
        (fun b offset => skus.foldl (backfillSku isoformat draws userUuid now offset) b) b) =
      (accountAt w sku.place b).overDays w (fun offset => draws offset sku) now days := by
  rw [PlaceAccount.overDays]
  generalize dayOffsets days = offsets
  induction offsets generalizing b with
  | nil => rfl
  | cons offset offsets ih => rw [List.foldl_cons, List.foldl_cons, ih, accountAt_day hn hs]

theorem accountAt_backfillDays_of_ne {skus : List SKU} {k : Place}
    (hk : ∀ sku ∈ skus, sku.place ≠ k) (days : ℕ) (b : Backfill) :
    accountAt w k ((dayOffsets days).foldl
        (fun b offset => skus.foldl (backfillSku isoformat draws userUuid now offset) b) b) =
      accountAt w k b :=
  foldl_keeps (fun b _ _ =>
    foldl_keeps (fun b' sku hs => accountAt_backfillSku_of_ne (hk sku hs) b') b) b

/-! ## The balances -/

variable {db db' : Ledger} {days : ℕ}

/-- The net of the movements that were inserted between `db` and `db'`. -/
def insertedNet (db db' : Ledger) (k : Place) : ℤ := db'.ledgerBalance k - db.ledgerBalance k

/-- The instant of the oldest receipt that a backfill draws for a SKU. -/
def oldestReceipt (draws : ℕ → SKU → BackfillDay) (now days : ℕ) (sku : SKU) : ℕ :=
  replaceHour (now - days * day) (draws days sku).hourOfDay

/-- The movements of a place, below a watermark and from it on. -/
theorem ledgerBalance_eq (db : Ledger) (w : ℕ) (k : Place) :
    db.ledgerBalance k = db.netMovement (fun t => decide (t < w)) k +
      db.netMovement (fun t => decide (w ≤ t)) k := by
  have h := Retention.netQuantity_split db.stockEntries db.stockExits (fun _ => true)
    (fun t => decide (t < w)) k
  simp only [Bool.true_and, Retention.not_decide_lt] at h
  exact h

variable (isoformat draws userUuid) in
/-- **What a backfill does to a stored balance**: the net of what it inserts, less what of it lies
below the watermark. -/
theorem backfillHistory_spec (h : Undrifted db w) (hne : db.skus.rows ≠ [])
    (hd : days * day ≤ now) :
    ∃ db', db.backfillHistory isoformat draws userUuid now days = .ok db' ∧
      (∀ sku ∈ db.skus.rows, ∀ a, a = accountAt w sku.place (db, fun _ => 0) →
        ∀ a', a' = a.overDays w (fun offset => draws offset sku) now days →
        insertedNet db db' sku.place = a'.stock ∧
          db'.storedBalance sku.place =
            db.storedBalance sku.place + a'.stock - (a'.below - a.below)) ∧
      ∀ k, (∀ sku ∈ db.skus.rows, sku.place ≠ k) →
        insertedNet db db' k = 0 ∧ db'.storedBalance k = db.storedBalance k := by
  obtain ⟨b, hb⟩ : ∃ b, db.backfillDays isoformat draws userUuid now days = b := ⟨_, rfl⟩
  have hrounds : Reseeded.Rounds (db, fun _ => 0) b := hb ▸ rounds_backfillDays
  have hskus : b.1.skus = db.skus := hrounds.2
  have hcp : b.1.stockLedgerCheckpoints = db.stockLedgerCheckpoints := hrounds.1.checkpoints
  have hw : b.1.watermarkParam = .ok w := (watermarkParam_congr hcp).trans h.watermark
  obtain ⟨db', hder⟩ := rederived_isOk hw
  obtain ⟨⟨balances, hdb'⟩, hsku, hother⟩ := rederived_eq_ok hw hder
  have hnet : ∀ k, insertedNet db db' k = b.1.ledgerBalance k - db.ledgerBalance k := by
    rw [hdb']
    exact fun k => rfl
  rw [backfillHistory_eq hne hd, hb]
  have hplaces : (db.skus.rows.map SKU.place).Nodup := by
    have hkeys := db.keysDistinct_skus id fun _ => rfl
    rwa [KeysDistinct, List.map_id] at hkeys
  refine ⟨db', hder, ?_, fun k hk => ?_⟩
  · rintro sku hs a ha a' rfl
    have hdays : accountAt w sku.place b = a.overDays w (fun offset => draws offset sku) now days :=
      ha ▸ hb ▸ accountAt_backfillDays hplaces hs days _
    rw [← hdays]
    have htotal : (accountAt w sku.place b).total - (accountAt w sku.place b).stock =
        a.total - a.stock := hdays ▸ PlaceAccount.total_overDays
    have hold := ledgerBalance_eq db w sku.place
    have hnew := ledgerBalance_eq b.1 w sku.place
    rw [hsku sku (hskus ▸ hs), h.balance, derivedQuantity, derivedQuantity,
      checkpointQuantity_congr hcp, hnet]
    subst ha
    simp only [accountAt] at htotal ⊢
    omega
  · have hk' : ∀ sku ∈ b.1.skus.rows, sku.place ≠ k := hskus ▸ hk
    have hsame : accountAt w k b = accountAt w k (db, fun _ => 0) :=
      hb ▸ accountAt_backfillDays_of_ne hk days _
    refine ⟨(hnet k).trans (sub_eq_zero.2 (congrArg PlaceAccount.total hsame)), ?_⟩
    have hbal : b.1.stockBalances = db.stockBalances := hb ▸ Refilled.backfillDays
    rw [hother k hk']
    simp only [storedBalance, hbal]

/-- Every stored balance has moved by the net of the inserted movements, and is nonnegative. -/
def BalancesFollow (db db' : Ledger) : Prop :=
  ∀ k, db'.storedBalance k = db.storedBalance k + insertedNet db db' k ∧ 0 ≤ db'.storedBalance k

variable (isoformat draws userUuid) in
theorem balancesFollow_backfillHistory_iff (h : Undrifted db w) (hpos : ∀ k, 0 ≤ db.storedBalance k)
    (hdays : 0 < days) (hd : days * day ≤ now) :
    ∃ db', db.backfillHistory isoformat draws userUuid now days = .ok db' ∧
      (BalancesFollow db db' ↔ ∀ sku ∈ db.skus.rows, w ≤ oldestReceipt draws now days sku) := by
  by_cases hne : db.skus.rows = []
  · refine ⟨db, by rw [backfillHistory, if_pos hne], ?_⟩
    simp [hne, BalancesFollow, insertedNet, hpos]
  obtain ⟨db', hb, hsku, hother⟩ := backfillHistory_spec userUuid isoformat draws h hne hd
  have hbelow : ∀ sku ∈ db.skus.rows, ∀ a, a = accountAt w sku.place (db, fun _ => 0) →
      ((a.overDays w (fun offset => draws offset sku) now days).below = a.below ↔
        w ≤ oldestReceipt draws now days sku) := fun sku _ a ha =>
    PlaceAccount.below_overDays_iff hd hdays (by rw [ha]; rfl)
  refine ⟨db', hb, fun hf sku hs => ?_, fun hw k => ?_⟩
  · obtain ⟨hnet, hstored⟩ := hsku sku hs _ rfl _ rfl
    have hfollow := (hf sku.place).1
    refine (hbelow sku hs _ rfl).1 ?_
    omega
  · by_cases hk : ∃ sku ∈ db.skus.rows, sku.place = k
    · obtain ⟨sku, hs, rfl⟩ := hk
      obtain ⟨hnet, hstored⟩ := hsku sku hs _ rfl _ rfl
      have hzero := (hbelow sku hs _ rfl).2 (hw sku hs)
      have hold := hpos sku.place
      constructor <;> omega
    · obtain ⟨hnet, hstored⟩ := hother k fun sku hs hp => hk ⟨sku, hs, hp⟩
      have hold := hpos k
      constructor <;> omega

theorem storedBalance_nonneg (h : ∀ r ∈ db.stockBalances.rows, 0 ≤ r.quantity) (k : Place) :
    0 ≤ db.storedBalance k := by
  unfold storedBalance
  cases hl : db.stockBalances.lookup k with
  | none => exact le_refl 0
  | some r => exact h r (Table.lookup_eq_some_iff.1 hl).1

end Ledger

/-! ## In a run -/

namespace Retention

open Ledger (BalancesFollow oldestReceipt)

theorem least_receipt : 20 ≤ 20 ∧ 20 ≤ 60 := by decide

theorem least_hour : 6 ≤ 6 ∧ 6 ≤ 10 := by decide

theorem least_exit_hour : 11 ≤ 11 ∧ 11 ≤ 20 := by decide

theorem least_exits (h : 11 ≤ 11 ∧ 11 ≤ 20) :
    1 ≤ [(⟨0, false, "T-1", 11, h⟩ : BackfillExit)].length ∧
      [(⟨0, false, "T-1", 11, h⟩ : BackfillExit)].length ≤ 3 := by
  simp

/-- Twenty units at six, one of them dispatched at eleven. -/
def slowDay : BackfillDay :=
  ⟨20, least_receipt, 6, least_hour, [⟨0, false, "T-1", 11, least_exit_hour⟩],
    least_exits least_exit_hour⟩

/-- A SKU and its first receipt. -/
def stockedRun : List UpkeepLabel :=
  [.retention (.op (.createSku ⟨"Lamp", "LAMP-1", 7, .electronics, .LA, 0⟩ 1)),
    .retention (.op (.recordInbound ⟨1, 9, "PO-1", .LA, nine_units_pos⟩ "u-1"
      (.afterEpoch (100 * day)) 1))]

/-- A SKU without movements, whose checkpoint is twenty-five days old. -/
def checkpointedRun : List UpkeepLabel :=
  [.retention (.op (.createSku ⟨"Lamp", "LAMP-1", 7, .electronics, .LA, 0⟩ 1)),
    .retention (.pruneStart (.afterEpoch (100 * day)) 25), .retention .interrupt]

end Retention

end TrackFlow
