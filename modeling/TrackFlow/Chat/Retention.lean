import Mathlib.Data.List.Sort
import Mathlib.Data.String.Basic
import TrackFlow.Chat.Messages

/-!
# Retention of chat history

`scripts/prune_chat_history.py` deletes expired sessions while clients append messages.  A prune is
a transaction of its own: it locks a batch of expired sessions, deletes them, and commits.

* `PrunesAlone K` : the condition on a step; prunes are such transactions, of cutoffs up to `K`.
* `Sweep` : what a prune selects; the oldest expired sessions that nobody holds.
* `Spares` : what a client in the middle of a call knows; what it deletes is expired still.
* `chat_retention` : **no commit deletes a session that was active at `K` or later, and none leaves
  messages without their session.**
-/

namespace TrackFlow

namespace Chat

namespace Rows

open RowLock

/-! ## The rows of a session -/

/-- The rows with a key. -/
def Db.rowsOf (db : Db) (sessionId : String) : List SessionRow :=
  db.sessions.filter fun row => row.sessionId = sessionId

/-- What a write does to the rows with a key. -/
def Write.rowEffect (sessionId : String) (rows : List SessionRow) : Write → List SessionRow
  | .insertSession row => if row.sessionId = sessionId then rows ++ [row] else rows
  | .updateSession id updatedAt =>
    if id = sessionId then rows.map fun row => { row with updatedAt := updatedAt } else rows
  | .deleteSession id => if id = sessionId then [] else rows
  | .insertMessage _ => rows

/-- The keys of the two tables: a session has one row, and a message has a session. -/
def Keyed (db : Db) : Prop :=
  ∀ sessionId, (db.rowsOf sessionId).length ≤ 1 ∧
    (db.rowsOf sessionId = [] → db.messagesOf sessionId = [])

section

variable {db : Db} {w : Write} {ws : List Write} {sessionId : String}

theorem Keyed.empty : Keyed Db.empty := fun _ => ⟨Nat.zero_le _, fun _ => rfl⟩

theorem mem_rowsOf {row : SessionRow} :
    row ∈ db.rowsOf sessionId ↔ row ∈ db.sessions ∧ row.sessionId = sessionId := by
  simp [Db.rowsOf]

theorem rowsOf_install (db : Db) (w : Write) (sessionId : String) :
    (install db w).rowsOf sessionId = w.rowEffect sessionId (db.rowsOf sessionId) := by
  cases w with
  | insertSession row =>
    simp only [Db.rowsOf, install, Write.rowEffect]
    rw [List.filter_append]
    split_ifs with h <;> simp [h]
  | updateSession id updatedAt =>
    simp only [Db.rowsOf, install, Write.rowEffect]
    rw [List.filter_map]
    split_ifs with h
    · subst h
      have hsame : ((fun row : SessionRow => decide (row.sessionId = id)) ∘ fun row =>
          if row.sessionId = id then { row with updatedAt := updatedAt } else row) =
            fun row => decide (row.sessionId = id) := by
        funext row
        by_cases hrow : row.sessionId = id <;> simp [hrow]
      rw [hsame]
      refine List.map_congr_left fun row hrow => if_pos ?_
      simpa using (List.mem_filter.1 hrow).2
    · have hsame : ((fun row : SessionRow => decide (row.sessionId = sessionId)) ∘ fun row =>
          if row.sessionId = id then { row with updatedAt := updatedAt } else row) =
            fun row => decide (row.sessionId = sessionId) := by
        funext row
        by_cases hrow : row.sessionId = id <;> simp [hrow]
      rw [hsame]
      refine (List.map_congr_left fun row hrow => if_neg fun hid => h ?_).trans (List.map_id _)
      have hkey : row.sessionId = sessionId := by simpa using (List.mem_filter.1 hrow).2
      exact hid.symm.trans hkey
  | deleteSession id =>
    simp only [Db.rowsOf, install, Write.rowEffect]
    rw [List.filter_filter]
    split_ifs with h
    · subst h
      simp
    · refine List.filter_congr fun row _ => ?_
      by_cases hrow : row.sessionId = sessionId
      · simp [hrow, Ne.symm h]
      · simp [hrow]
  | insertMessage row => rfl

theorem rowsOf_installAll (db : Db) (ws : List Write) (sessionId : String) :
    (protocol.installAll db ws).rowsOf sessionId =
      ws.foldl (fun rows w => w.rowEffect sessionId rows) (db.rowsOf sessionId) := by
  induction ws generalizing db with
  | nil => rfl
  | cons w ws ih =>
    rw [List.foldl_cons, ← rowsOf_install]
    exact ih (install db w)

/-- Writes about other sessions. -/
theorem foldl_rowEffect_of_ne {rows : List SessionRow} (h : ∀ w ∈ ws, w.sessionId ≠ sessionId) :
    ws.foldl (fun rows w => w.rowEffect sessionId rows) rows = rows := by
  induction ws with
  | nil => rfl
  | cons w ws ih =>
    have hw := h w List.mem_cons_self
    have hkeep : w.rowEffect sessionId rows = rows := by
      cases w with
      | insertSession row => exact if_neg hw
      | updateSession id updatedAt => exact if_neg hw
      | deleteSession id => exact if_neg hw
      | insertMessage row => rfl
    rw [List.foldl_cons, hkeep]
    exact ih fun w' hw' => h w' (List.mem_cons_of_mem _ hw')

/-- A write that keeps the keys. -/
theorem Keyed.install (h : Keyed db)
    (hsession : ∀ row, w = .insertSession row → db.rowsOf row.sessionId = [])
    (hmessage : ∀ row, w = .insertMessage row → db.rowsOf row.sessionId ≠ []) :
    Keyed (install db w) := by
  intro sessionId
  obtain ⟨hone, horphan⟩ := h sessionId
  rw [rowsOf_install, messagesOf_install]
  cases w with
  | insertSession row =>
    simp only [Write.rowEffect, Write.effect]
    split_ifs with hrow
    · subst hrow
      rw [hsession row rfl]
      exact ⟨le_rfl, fun hnil => by cases hnil⟩
    · exact ⟨hone, horphan⟩
  | updateSession id updatedAt =>
    simp only [Write.rowEffect, Write.effect]
    split_ifs
    · exact ⟨by rwa [List.length_map], fun hnil => horphan (List.map_eq_nil_iff.1 hnil)⟩
    · exact ⟨hone, horphan⟩
  | deleteSession id =>
    simp only [Write.rowEffect, Write.effect]
    split_ifs
    · exact ⟨Nat.zero_le _, fun _ => rfl⟩
    · exact ⟨hone, horphan⟩
  | insertMessage row =>
    simp only [Write.rowEffect, Write.effect]
    refine ⟨hone, fun hnil => ?_⟩
    split_ifs with hrow
    · exact absurd hnil (hrow ▸ hmessage row rfl)
    · exact horphan hnil

theorem Keyed.deleteAll {ids : List String} (h : Keyed db) :
    Keyed (protocol.installAll db (ids.map .deleteSession)) := by
  induction ids generalizing db with
  | nil => exact h
  | cons id ids ih => exact ih (h.install (w := .deleteSession id) (by simp) (by simp))

/-- A key is that of one row. -/
theorem Keyed.rowsOf_eq (h : Keyed db) {row : SessionRow} (hrow : row ∈ db.sessions) :
    db.rowsOf row.sessionId = [row] := by
  have hmem : row ∈ db.rowsOf row.sessionId := mem_rowsOf.2 ⟨hrow, rfl⟩
  obtain ⟨row', hrow'⟩ := List.length_eq_one_iff.1
    (Nat.le_antisymm (h row.sessionId).1 (List.length_pos_of_mem hmem))
  rw [hrow'] at hmem ⊢
  rw [List.mem_singleton.1 hmem]

theorem Keyed.nodup (h : Keyed db) : (db.sessions.map SessionRow.sessionId).Nodup := by
  rw [List.nodup_iff_count_le_one]
  intro id
  have hcount : (db.sessions.map SessionRow.sessionId).count id = (db.rowsOf id).length := by
    rw [List.count, List.countP_map, List.countP_eq_length_filter]
    rfl
  rw [hcount]
  exact (h id).1

theorem Keyed.exists_session (h : Keyed db) {row : MessageRow} (hrow : row ∈ db.messages) :
    ∃ session ∈ db.sessions, session.sessionId = row.sessionId := by
  by_contra hno
  have hnil : db.rowsOf row.sessionId = [] := by
    refine List.eq_nil_iff_forall_not_mem.2 fun session hmem => hno ?_
    exact ⟨session, (mem_rowsOf.1 hmem).1, (mem_rowsOf.1 hmem).2⟩
  have hmem : row.message ∈ db.messagesOf row.sessionId :=
    List.mem_map.2 ⟨row, List.mem_filter.2 ⟨hrow, by simp⟩, rfl⟩
  rw [(h row.sessionId).2 hnil] at hmem
  cases hmem

end

/-! ## What a prune selects -/

/-- The rows `ids` that `delete_expired_sessions` selects: expired, free, the oldest first. -/
structure Sweep (db : Db) (busy : String → Bool) (cutoff limit : ℕ) (ids : List String) : Prop where
  nodup : ids.Nodup
  length_le : ids.length ≤ limit
  expired : ∀ id ∈ ids, busy id = false ∧ ∃ row, db.rowsOf id = [row] ∧ row.updatedAt < cutoff
  /-- A free row that is expired is left only by a full batch, and is no older than the batch. -/
  oldest : ∀ row ∈ db.sessions, row.updatedAt < cutoff → busy row.sessionId = false →
    row.sessionId ∉ ids → ids.length = limit ∧
      ∀ row' ∈ db.sessions, row'.sessionId ∈ ids → row'.updatedAt ≤ row.updatedAt

/-- `ORDER BY updated_at, session_id` -/
def Older (row row' : SessionRow) : Prop :=
  row.updatedAt < row'.updatedAt ∨ row.updatedAt = row'.updatedAt ∧ row.sessionId ≤ row'.sessionId

instance : DecidableRel Older := fun row row' =>
  inferInstanceAs (Decidable (_ < _ ∨ row.updatedAt = row'.updatedAt ∧ _))

theorem Older.updatedAt_le {row row' : SessionRow} (h : Older row row') :
    row.updatedAt ≤ row'.updatedAt := by
  rcases h with h | h
  · exact h.le
  · exact h.1.le

instance : Std.Total Older where
  total row row' := by
    rcases lt_trichotomy row.updatedAt row'.updatedAt with h | h | h
    · exact .inl (.inl h)
    · rcases le_total row.sessionId row'.sessionId with hid | hid
      · exact .inl (.inr ⟨h, hid⟩)
      · exact .inr (.inr ⟨h.symm, hid⟩)
    · exact .inr (.inl h)

instance : IsTrans SessionRow Older where
  trans row₁ row₂ row₃ h h' := by
    rcases h with h | ⟨h, hid⟩ <;> rcases h' with h' | ⟨h', hid'⟩
    · exact .inl (h.trans h')
    · exact .inl (h' ▸ h)
    · exact .inl (h ▸ h')
    · exact .inr ⟨h.trans h', hid.trans hid'⟩

section

variable {db : Db} {busy : String → Bool} {cutoff limit : ℕ}

/-- The expired rows that are free, the oldest first. -/
def expiredRows (db : Db) (busy : String → Bool) (cutoff : ℕ) : List SessionRow :=
  (db.sessions.filter fun row =>
    decide (row.updatedAt < cutoff) && !busy row.sessionId).insertionSort Older

theorem expiredIds_eq : expiredIds db busy cutoff limit =
    ((expiredRows db busy cutoff).take limit).map SessionRow.sessionId := rfl

theorem mem_expiredRows {row : SessionRow} : row ∈ expiredRows db busy cutoff ↔
    row ∈ db.sessions ∧ row.updatedAt < cutoff ∧ busy row.sessionId = false := by
  simp [expiredRows, List.mem_insertionSort]

theorem nodup_expiredRows (h : Keyed db) :
    ((expiredRows db busy cutoff).map SessionRow.sessionId).Nodup := by
  have hperm := (List.perm_insertionSort Older (db.sessions.filter fun row =>
    decide (row.updatedAt < cutoff) && !busy row.sessionId)).map SessionRow.sessionId
  exact hperm.nodup_iff.2 (h.nodup.sublist (List.filter_sublist.map _))

theorem sweep_expiredIds (h : Keyed db) :
    Sweep db busy cutoff limit (expiredIds db busy cutoff limit) where
  nodup := by
    rw [expiredIds_eq]
    exact (nodup_expiredRows h).sublist ((List.take_sublist _ _).map _)
  length_le := by
    rw [expiredIds_eq, List.length_map, List.length_take]
    exact Nat.min_le_left _ _
  expired id hid := by
    rw [expiredIds_eq] at hid
    obtain ⟨row, hrow, rfl⟩ := List.mem_map.1 hid
    obtain ⟨hmem, hold, hfree⟩ := mem_expiredRows.1 (List.mem_of_mem_take hrow)
    exact ⟨hfree, row, h.rowsOf_eq hmem, hold⟩
  oldest row hrow hold hfree hleft := by
    have hmem : row ∈ expiredRows db busy cutoff := mem_expiredRows.2 ⟨hrow, hold, hfree⟩
    rw [expiredIds_eq] at hleft
    have hdrop : row ∈ (expiredRows db busy cutoff).drop limit := by
      rw [← List.take_append_drop limit (expiredRows db busy cutoff)] at hmem
      refine (List.mem_append.1 hmem).resolve_left fun htake => hleft ?_
      exact List.mem_map.2 ⟨row, htake, rfl⟩
    have hlong : limit < (expiredRows db busy cutoff).length := by
      have hpos := List.length_pos_of_mem hdrop
      rw [List.length_drop] at hpos
      omega
    refine ⟨?_, fun row' hrow' hid => ?_⟩
    · rw [expiredIds_eq, List.length_map, List.length_take]
      exact Nat.min_eq_left hlong.le
    · rw [expiredIds_eq] at hid
      obtain ⟨taken, htaken, hkey⟩ := List.mem_map.1 hid
      have hsame : taken = row' := by
        have hone := h.rowsOf_eq (mem_expiredRows.1 (List.mem_of_mem_take htaken)).1
        have hother := h.rowsOf_eq hrow'
        rw [hkey, hother] at hone
        exact (List.head_eq_of_cons_eq hone).symm
      have hsorted : (expiredRows db busy cutoff).Pairwise Older := List.pairwise_insertionSort _ _
      rw [← List.take_append_drop limit (expiredRows db busy cutoff)] at hsorted
      rw [← hsame]
      exact ((List.pairwise_append.1 hsorted).2.2 taken htaken row hdrop).updatedAt_le

end

/-! ## Deletions -/

section

variable {db : Db} {ws : List Write} {ids : List String} {sessionId : String} {row : SessionRow}

theorem rowsOf_deleteAll (db : Db) (ids : List String) (sessionId : String) :
    (protocol.installAll db (ids.map .deleteSession)).rowsOf sessionId =
      if sessionId ∈ ids then [] else db.rowsOf sessionId := by
  induction ids generalizing db with
  | nil => rfl
  | cons id ids ih =>
    have hhead : (install db (.deleteSession id)).rowsOf sessionId =
        if id = sessionId then [] else db.rowsOf sessionId := rowsOf_install _ _ _
    refine (ih (install db (.deleteSession id))).trans ?_
    rw [hhead]
    by_cases hid : id = sessionId
    · simp [hid]
    · simp [hid, Ne.symm hid]

theorem messagesOf_deleteAll (db : Db) (h : sessionId ∉ ids) :
    (protocol.installAll db (ids.map .deleteSession)).messagesOf sessionId =
      db.messagesOf sessionId := by
  rw [messagesOf_installAll]
  refine foldl_effect_of_ne fun w hw heq => ?_
  obtain ⟨id, hid, rfl⟩ := List.mem_map.1 hw
  exact h (heq ▸ hid)

/-- A deletion counts the rows with its key. -/
theorem length_deleteSession (db : Db) (id : String) :
    (install db (.deleteSession id)).sessions.length + (db.rowsOf id).length =
      db.sessions.length := by
  have hsplit := List.length_eq_length_filter_add (l := db.sessions)
    fun row => decide (row.sessionId = id)
  rw [hsplit, Nat.add_comm]
  simp [Db.rowsOf, install]

theorem length_deleteAll (hnodup : ids.Nodup)
    (h : ∀ id ∈ ids, (db.rowsOf id).length = 1) :
    (protocol.installAll db (ids.map .deleteSession)).sessions.length + ids.length =
      db.sessions.length := by
  induction ids generalizing db with
  | nil => rfl
  | cons id ids ih =>
    obtain ⟨hid, hnodup⟩ := List.nodup_cons.1 hnodup
    have hrest : ∀ id' ∈ ids, ((install db (.deleteSession id)).rowsOf id').length = 1 := by
      intro id' hid'
      have hne : id ≠ id' := fun heq => hid (heq ▸ hid')
      have hkeep : (install db (.deleteSession id)).rowsOf id' = db.rowsOf id' :=
        (rowsOf_install _ _ _).trans (if_neg hne)
      rw [hkeep]
      exact h id' (List.mem_cons_of_mem _ hid')
    have hcount := ih hnodup hrest
    have hfirst := length_deleteSession db id
    rw [h id List.mem_cons_self] at hfirst
    rw [List.length_cons, ← hfirst, ← hcount]
    exact (Nat.add_assoc _ _ _).symm

/-- A write that deletes nothing keeps a session with its owner. -/
theorem exists_foldl_rowEffect {rows : List SessionRow} (hrow : row ∈ rows)
    (h : ∀ w ∈ ws, w ≠ .deleteSession sessionId) :
    ∃ updatedAt, { row with updatedAt := updatedAt } ∈
      ws.foldl (fun rows w => w.rowEffect sessionId rows) rows := by
  induction ws generalizing row rows with
  | nil => exact ⟨row.updatedAt, hrow⟩
  | cons w ws ih =>
    obtain ⟨updatedAt, hstep⟩ : ∃ updatedAt, { row with updatedAt := updatedAt } ∈
        w.rowEffect sessionId rows := by
      cases w with
      | insertSession new =>
        simp only [Write.rowEffect]
        split_ifs
        · exact ⟨row.updatedAt, List.mem_append_left _ hrow⟩
        · exact ⟨row.updatedAt, hrow⟩
      | updateSession id updatedAt =>
        simp only [Write.rowEffect]
        split_ifs
        · exact ⟨updatedAt, List.mem_map.2 ⟨row, hrow, rfl⟩⟩
        · exact ⟨row.updatedAt, hrow⟩
      | deleteSession id =>
        have hid : id ≠ sessionId := fun heq => h _ List.mem_cons_self (heq ▸ rfl)
        exact ⟨row.updatedAt, by simpa only [Write.rowEffect, if_neg hid] using hrow⟩
      | insertMessage new => exact ⟨row.updatedAt, hrow⟩
    obtain ⟨updatedAt', hrest⟩ := ih hstep fun w' hw' => h w' (List.mem_cons_of_mem _ hw')
    exact ⟨updatedAt', hrest⟩

end

/-! ## What a client spares -/

/-- The write deletes a session. -/
def Write.deletes : Write → Bool
  | .deleteSession _ => true
  | .insertSession _ | .updateSession _ _ | .insertMessage _ => false

theorem ne_deleteSession_of_deletes {w : Write} (h : w.deletes = false) (id : String) :
    w ≠ .deleteSession id := by
  rintro rfl
  cases h

/-- The next statement of a client with pending writes: `prune_once` begins its transaction with the
selection, of a cutoff up to `K`, and ends it after the deletion. -/
def Choice.Alone (K : ℕ) (ws : List Write) : Choice → Prop
  | .expire cutoff _ => cutoff ≤ K ∧ ws = []
  | .commit | .fail => True
  | .append _ | .create _ | .setStatus _ _ | .ok _ _ => ∀ w ∈ ws, w.deletes = false

instance (K : ℕ) (ws : List Write) (choice : Choice) : Decidable (choice.Alone K ws) :=
  match choice with
  | .expire _ _ => inferInstanceAs (Decidable (_ ∧ _))
  | .commit | .fail => inferInstanceAs (Decidable True)
  | .append _ | .create _ | .setStatus _ _ | .ok _ _ =>
    inferInstanceAs (Decidable (∀ w ∈ ws, w.deletes = false))

/-- Prunes are transactions of their own. -/
def PrunesAlone {ι : Type*} [DecidableEq ι] (K : ℕ) (s : State ι Db String Write Loc)
    (l : ι × Choice) : Prop :=
  l.2.Alone K (s.session l.1).pending

/-- Sessions that a prune has locked, and that are expired still. -/
structure Selected (K : ℕ) (held : String → Prop) (db : Db) (ids : List String) : Prop where
  nodup : ids.Nodup
  held : ∀ id ∈ ids, held id
  expired : ∀ id ∈ ids, ∃ row, db.rowsOf id = [row] ∧ row.updatedAt < K

/-- The session is there, and its messages with new ones behind them. -/
def Kept (db db' : Db) (row : SessionRow) : Prop :=
  (∃ updatedAt, { row with updatedAt := updatedAt } ∈ db'.sessions) ∧
    ∃ new, db'.messagesOf row.sessionId = db.messagesOf row.sessionId ++ new

/-- The session was expired at `K` and is gone with its messages. -/
def Pruned (K : ℕ) (db' : Db) (row : SessionRow) : Prop :=
  row.updatedAt < K ∧ db'.rowsOf row.sessionId = [] ∧ db'.messagesOf row.sessionId = []

/-- Which sessions a client is about to delete. -/
def Loc.Spares (K : ℕ) (ws : List Write) (held : String → Prop) (db : Db) : Loc → Prop
  | .ready reply =>
    (∀ w ∈ ws, w.deletes = false) ∧ (ws = [] ∨ ∀ n, reply ≠ .deleted n) ∨
      ∃ ids, ws = ids.map .deleteSession ∧ reply = .deleted ids.length ∧ Selected K held db ids
  | .expiring ids => ws = [] ∧ Selected K held db ids
  | .locked _ | .numbered _ _ | .touched _ _ => ∀ w ∈ ws, w.deletes = false

/-- What holds of a client besides `Knows`. -/
structure Spares (K : ℕ) (loc : Loc) (ws : List Write) (held : String → Prop) (db : Db) : Prop where
  committed : Keyed db
  keyed : Keyed (protocol.installAll db ws)
  loc : loc.Spares K ws held db

section

variable {K : ℕ} {loc loc' : Loc} {ws ws' : List Write} {held held' : String → Prop} {db : Db}
  {row : SessionRow}

theorem Kept.refl (hrow : row ∈ db.sessions) : Kept db db row :=
  ⟨⟨row.updatedAt, hrow⟩, [], (List.append_nil _).symm⟩

/-- Writes that delete nothing keep every session. -/
theorem kept_installAll (hrow : row ∈ db.sessions) (h : ∀ w ∈ ws, w.deletes = false) :
    Kept db (protocol.installAll db ws) row := by
  have hne : ∀ w ∈ ws, w ≠ .deleteSession row.sessionId :=
    fun w hw => ne_deleteSession_of_deletes (h w hw) _
  constructor
  · obtain ⟨updatedAt, hmem⟩ := exists_foldl_rowEffect (mem_rowsOf.2 ⟨hrow, rfl⟩) hne
    rw [← rowsOf_installAll] at hmem
    exact ⟨updatedAt, (mem_rowsOf.1 hmem).1⟩
  · obtain ⟨new, hnew⟩ := exists_foldl_effect (db.messagesOf row.sessionId)
      fun hmem => hne _ hmem rfl
    exact ⟨new, by rw [messagesOf_installAll, hnew]⟩

/-- The deletion of a prune keeps a session or removes an expired one. -/
theorem Selected.kept_or_pruned {ids : List String} (h : Selected K held db ids) (hkeyed : Keyed db)
    (hrow : row ∈ db.sessions) :
    Kept db (protocol.installAll db (ids.map .deleteSession)) row ∨
      Pruned K (protocol.installAll db (ids.map .deleteSession)) row := by
  have hrows := hkeyed.rowsOf_eq hrow
  have hafter := rowsOf_deleteAll db ids row.sessionId
  by_cases hid : row.sessionId ∈ ids
  · rw [if_pos hid] at hafter
    obtain ⟨old, hold, hbefore⟩ := h.expired _ hid
    rw [hrows] at hold
    rw [← List.head_eq_of_cons_eq hold] at hbefore
    exact .inr ⟨hbefore, hafter, (hkeyed.deleteAll _).2 hafter⟩
  · rw [if_neg hid, hrows] at hafter
    have hmem := mem_rowsOf.1 (hafter ▸ List.mem_singleton_self row)
    exact .inl ⟨⟨row.updatedAt, hmem.1⟩, [], by rw [messagesOf_deleteAll _ hid, List.append_nil]⟩

theorem Spares.idle (h : Keyed db) (reply : Reply) (held : String → Prop) :
    Spares K (.ready reply) [] held db := ⟨h, h, .inl ⟨by simp, .inl rfl⟩⟩

/-- A statement that writes nothing. -/
theorem Spares.proceed (h : Spares K loc ws held db) {ks : List String}
    (hloc : loc'.Spares K ws (fun id => held id ∨ id ∈ ks) db) :
    Spares K loc' (ws ++ []) (fun id => held id ∨ id ∈ ks) db := by
  rw [List.append_nil]
  exact ⟨h.committed, h.keyed, hloc⟩

/-- A statement that writes one row. -/
theorem Spares.write (h : Spares K loc ws held db) {ks : List String} {w : Write}
    (hkeyed : Keyed (install (protocol.installAll db ws) w))
    (hloc : loc'.Spares K (ws ++ [w]) (fun id => held id ∨ id ∈ ks) db) :
    Spares K loc' (ws ++ [w]) (fun id => held id ∨ id ∈ ks) db := by
  refine ⟨h.committed, ?_, hloc⟩
  rw [installAll_append]
  exact hkeyed

theorem deletes_append {w : Write} (h : ∀ w ∈ ws, w.deletes = false) (hw : w.deletes = false) :
    ∀ w' ∈ ws ++ [w], w'.deletes = false := by
  intro w' hw'
  rcases List.mem_append.1 hw' with hw' | hw'
  · exact h w' hw'
  · rw [List.mem_singleton.1 hw']
    exact hw

/-- Every statement of a client keeps what it spares. -/
theorem Spares.step {choice : Choice} {busy : String → Bool}
    {o : RowLock.Outcome String Write Loc} (h : Spares K loc ws held db)
    (hknows : Knows loc ws held db) (halone : choice.Alone K ws)
    (he : exec loc choice busy (protocol.installAll db ws) = some o) :
    o.LeadsTo (Spares K) ws held db (protocol.installAll db ws) := by
  unfold exec at he
  have hfailed : (.rollback (.ready .failed) : RowLock.Outcome String Write Loc).LeadsTo (Spares K)
      ws held db (protocol.installAll db ws) := .idle h.committed _ _
  split at he
  · -- a failure
    cases he
    exact hfailed
  · -- `COMMIT`
    cases he
    exact .idle h.keyed _ _
  · -- the session is selected and locked
    split at he <;> cases he
    · exact h.proceed (.inl ⟨halone, .inr (by simp)⟩)
    · exact h.proceed halone
  · -- the maximum is read
    cases he
    exact h.proceed h.loc
  · -- the session is updated
    cases he
    exact h.write (h.keyed.install (by simp) (by simp)) (deletes_append h.loc rfl)
  · -- the message is inserted
    split_ifs at he with hadmits <;> cases he
    · refine h.write (h.keyed.install (by simp) fun row hrow => ?_)
        (.inl ⟨deletes_append h.loc rfl, .inr (by simp)⟩)
      -- the foreign key finds the session
      cases hrow
      obtain ⟨session, hsession, hid⟩ := hadmits.2.2.2.1
      exact List.ne_nil_of_mem (mem_rowsOf.2 ⟨hsession, hid⟩)
    · exact hfailed
  · -- the expired sessions are locked
    obtain ⟨hcutoff, rfl⟩ := halone
    split_ifs at he
    · cases he
      exact hfailed
    · split at he <;> cases he
      · exact h.proceed (.inl ⟨by simp, .inl rfl⟩)
      · rename_i cutoff limit _ _ id ids hids
        have hsweep : Sweep db busy cutoff limit (id :: ids) := by
          rw [← hids]
          exact sweep_expiredIds h.committed
        refine h.proceed ⟨rfl, hsweep.nodup, fun id hid => .inr hid, fun id hid => ?_⟩
        obtain ⟨-, row, hrow, hold⟩ := hsweep.expired id hid
        exact ⟨row, hrow, hold.trans_le hcutoff⟩
  · -- and deleted
    rename_i ids _ _
    cases he
    obtain ⟨rfl, hselected⟩ := h.loc
    refine ⟨h.committed, h.committed.deleteAll, .inr ⟨ids, rfl, rfl, hselected.nodup, ?_, ?_⟩⟩
    · exact fun id hid => .inl (hselected.held id hid)
    · exact hselected.expired
  · -- a new session
    split_ifs at he with hexists <;> cases he
    · exact hfailed
    · refine h.write (h.keyed.install (fun row hrow => ?_) (by simp))
        (.inl ⟨deletes_append halone rfl, .inr (by simp)⟩)
      cases hrow
      refine List.eq_nil_iff_forall_not_mem.2 fun row' hrow' => hexists ?_
      exact ⟨row', (mem_rowsOf.1 hrow').1, (mem_rowsOf.1 hrow').2⟩
  · -- a caller's status
    split_ifs at he <;> cases he
    · exact h.write (h.keyed.install (by simp) (by simp))
        (.inl ⟨deletes_append halone rfl, .inr (by simp)⟩)
    · exact hfailed
  · cases he

/-- A commit of writes to other sessions leaves the rows of a locked session alone. -/
theorem rowsOf_of_disjoint (hdisjoint : ∀ w ∈ ws', ¬held w.sessionId) {sessionId : String}
    (hid : held sessionId) (db : Db) :
    (protocol.installAll db ws').rowsOf sessionId = db.rowsOf sessionId := by
  rw [rowsOf_installAll]
  exact foldl_rowEffect_of_ne fun w hw heq => hdisjoint w hw (by rw [heq]; exact hid)

theorem Selected.stable {ids : List String} (h : Selected K held db ids)
    (hdisjoint : ∀ w ∈ ws', ¬held w.sessionId) :
    Selected K held (protocol.installAll db ws') ids := by
  refine ⟨h.nodup, h.held, fun id hid => ?_⟩
  rw [rowsOf_of_disjoint hdisjoint (h.held id hid)]
  exact h.expired id hid

theorem Spares.stable (h : Spares K loc ws held db) (hknows : Knows loc ws held db)
    (h' : Spares K loc' ws' held' db) (hknows' : Knows loc' ws' held' db)
    (hdisjoint : ∀ id, held id → ¬held' id) :
    Spares K loc ws held (protocol.installAll db ws') := by
  have hother : ∀ w ∈ ws', ¬held w.sessionId := fun w hw hheld =>
    hdisjoint _ hheld (hknows'.guarded w hw)
  refine ⟨h'.keyed, fun sessionId => ?_, ?_⟩
  · by_cases hid : held sessionId
    · have hrows : (protocol.installAll (protocol.installAll db ws') ws).rowsOf sessionId =
          (protocol.installAll db ws).rowsOf sessionId := by
        rw [rowsOf_installAll, rowsOf_of_disjoint hother hid, ← rowsOf_installAll]
      rw [hrows, messagesOf_of_disjoint hother hid]
      exact h.keyed sessionId
    · -- this client has not written the session
      have hne : ∀ w ∈ ws, w.sessionId ≠ sessionId := fun w hw heq =>
        hid (heq ▸ hknows.guarded w hw)
      rw [rowsOf_installAll, foldl_rowEffect_of_ne hne, messagesOf_installAll,
        foldl_effect_of_ne hne]
      exact h'.keyed sessionId
  · have hloc := h.loc
    cases loc with
    | ready reply =>
      rcases hloc with hloc | ⟨ids, hws, hreply, hselected⟩
      · exact .inl hloc
      · exact .inr ⟨ids, hws, hreply, hselected.stable hother⟩
    | locked call => exact hloc
    | numbered call sequence => exact hloc
    | touched call message => exact hloc
    | expiring ids => exact ⟨hloc.1, hloc.2.stable hother⟩

end

/-! ## The property -/

section

variable {ι : Type*} {K : ℕ} {s s' : State ι Db String Write Loc} {l : ι × Choice}

/-- What holds of a client. -/
structure Client (K : ℕ) (loc : Loc) (ws : List Write) (held : String → Prop) (db : Db) : Prop where
  knows : Knows loc ws held db
  spares : Spares K loc ws held db

/-- What holds of the tables and of every client. -/
def Retained (K : ℕ) (s : State ι Db String Write Loc) : Prop :=
  Keyed s.db ∧ ∀ i,
    Client K (s.session i).loc (s.session i).pending (fun id => s.owner id = some i) s.db

theorem Retained.start : Retained K (clientsStart ι) :=
  ⟨.empty, fun _ => ⟨.idle .empty _ _, .idle .empty _ _⟩⟩

variable [DecidableEq ι]

theorem Retained.next (h : Retained K s) (halone : PrunesAlone K s l)
    (hnext : protocol.next s l = some s') : Retained K s' := by
  obtain ⟨i, choice⟩ := l
  have hall : ∀ j, Client K (s'.session j).loc (s'.session j).pending
      (fun id => s'.owner id = some j) s'.db := by
    refine holds_next (fun o he => ?_) (fun j _ => h.2 j) (fun a he j hj => ?_) hnext
    · have hknows := (h.2 i).knows.step he
      have hspares := (h.2 i).spares.step (h.2 i).knows halone he
      cases o with
      | proceed ks ws loc => exact ⟨hknows, hspares⟩
      | commit loc => exact ⟨hknows, hspares⟩
      | rollback loc => exact ⟨hknows, hspares⟩
    · have hdisjoint : ∀ id, s.owner id = some j → ¬s.owner id = some i := fun id hid hid' =>
        hj (State.Holds.unique (s := s) hid hid')
      exact ⟨(h.2 j).knows.stable (h.2 i).knows hdisjoint,
        (h.2 j).spares.stable (h.2 j).knows (h.2 i).spares (h.2 i).knows hdisjoint⟩
  exact ⟨(hall i).spares.committed, hall⟩

theorem Retained.run (h : (protocol.machine ι).Run (PrunesAlone K) (clientsStart ι) s) :
    Retained K s :=
  h.invariant (Retained K) .start fun _ _ _ hinv halone hnext => hinv.next halone hnext

/-- Only a client that is ready commits. -/
theorem ready_of_commit {loc loc' : Loc} {choice : Choice} {busy : String → Bool} {db : Db}
    (h : exec loc choice busy db = some (.commit loc')) :
    choice = .commit ∧ ∃ reply, loc = .ready reply := by
  unfold exec at h
  split at h
  case h_2 => exact ⟨rfl, _, rfl⟩
  all_goals (repeat' split at h) <;> cases h

theorem expiring_of_exec {loc : Loc} {cutoff limit : ℕ} {busy : String → Bool} {db : Db}
    {o : RowLock.Outcome String Write Loc} {ids : List String}
    (h : exec loc (.expire cutoff limit) busy db = some o) (ho : o.loc = .expiring ids) :
    ids = expiredIds db busy cutoff limit := by
  cases loc with
  | ready reply =>
    simp only [exec] at h
    split_ifs at h
    · cases h
      cases ho
    · split at h <;> cases h
      · cases ho
      · rename_i hids
        rw [hids]
        exact (Loc.expiring.inj ho).symm
  | locked call => cases h
  | numbered call sequence => cases h
  | touched call message => cases h
  | expiring ids => cases h

end

/-- **A prune deletes expired sessions only, with all of their messages.**  Let any clients append,
create and prune in any order, with failures anywhere, and let every prune be a transaction of its
own with a cutoff up to `K`.  In every committed state the session ids are distinct and every
message has its session.  A step keeps a session with its owner and adds messages behind those that
are there, or the session was last updated before `K` and is gone with its messages.  The commit of
a prune removes as many sessions as the prune reports, and a prune selects free sessions, the oldest
first. -/
theorem chat_retention {ι : Type*} [DecidableEq ι] {K : ℕ} {s : State ι Db String Write Loc}
    (h : (protocol.machine ι).Run (PrunesAlone K) (clientsStart ι) s) :
    (s.db.sessions.map SessionRow.sessionId).Nodup ∧
    (∀ row ∈ s.db.messages, ∃ session ∈ s.db.sessions, session.sessionId = row.sessionId) ∧
    ∀ l s', PrunesAlone K s l → protocol.next s l = some s' →
      (∀ row ∈ s.db.sessions, Kept s.db s'.db row ∨ Pruned K s'.db row) ∧
      (∀ n, l.2 = .commit → (s.session l.1).loc = .ready (.deleted n) →
        (s.session l.1).pending ≠ [] → s'.db.sessions.length + n = s.db.sessions.length) ∧
      ∀ cutoff limit ids, l.2 = .expire cutoff limit → (s'.session l.1).loc = .expiring ids →
        Sweep s.db (s.busy l.1) cutoff limit ids := by
  have hinv := Retained.run h
  refine ⟨hinv.1.nodup, fun row hrow => hinv.1.exists_session hrow, ?_⟩
  rintro ⟨i, choice⟩ s' halone hnext
  refine ⟨fun row hrow => ?_, ?_, ?_⟩
  · obtain hsame | ⟨loc, hcommit, hview, -⟩ := Protocol.db_next hnext
    · rw [hsame]
      exact .inl (.refl hrow)
    · obtain ⟨-, reply, hready⟩ := ready_of_commit hcommit
      have hspares := (hinv.2 i).spares.loc
      rw [hready] at hspares
      rw [hview, Protocol.view]
      rcases hspares with ⟨hkept, -⟩ | ⟨ids, hws, -, hselected⟩
      · exact .inl (kept_installAll hrow hkept)
      · rw [hws]
        exact hselected.kept_or_pruned hinv.1 hrow
  · intro n hchoice hready hne
    simp only at hchoice hready hne
    subst hchoice
    have hview : s'.db = protocol.view s i := by
      refine Protocol.db_next_of_commit (a := .ready (.deleted n)) hnext ?_
      rw [hready]
      rfl
    have hspares := (hinv.2 i).spares.loc
    rw [hready] at hspares
    rcases hspares with ⟨-, hnil | hno⟩ | ⟨ids, hws, hreply, hselected⟩
    · exact absurd hnil hne
    · exact absurd rfl (hno n)
    · cases hreply
      rw [hview, Protocol.view, hws]
      refine length_deleteAll hselected.nodup fun id hid => ?_
      obtain ⟨row, hrow, -⟩ := hselected.expired id hid
      rw [hrow]
      rfl
  · intro cutoff limit ids hchoice hexpiring
    simp only at hchoice hexpiring
    subst hchoice
    obtain ⟨o, he, hloc⟩ := Protocol.session_next_self hnext
    obtain ⟨-, hnil⟩ : cutoff ≤ K ∧ (s.session i).pending = [] := halone
    rw [Protocol.view, hnil] at he
    rw [expiring_of_exec he (hloc.symm.trans hexpiring)]
    exact sweep_expiredIds hinv.1

/-- Two old sessions and a recent one; while a prune runs, an append holds one of the old. -/
theorem chat_retention_beside_append :
    ∃ s, (protocol.machine (Fin 2)).Run (PrunesAlone 50) (clientsStart (Fin 2)) s ∧
      s.db.sessions = [⟨"b", "u", 7⟩, ⟨"c", "u", 90⟩] ∧
      (s.db.sessions.map SessionRow.sessionId).Nodup := by
  obtain ⟨s, hs, hp⟩ := (protocol.machine (Fin 2)).exists_run
    (fun s l => decide (l.2.Alone 50 (s.session l.1).pending)) (clientsStart (Fin 2))
    [(0, .create ⟨"a", "u", 3⟩), (0, .create ⟨"b", "u", 7⟩), (0, .create ⟨"c", "u", 90⟩),
      (0, .commit), (0, .append ⟨"b", "u", .user, "?", false⟩), (1, .expire 50 500),
      (0, .ok 0 ""), (1, .ok 0 ""), (0, .fail), (1, .commit)]
    (fun s => decide (s.db.sessions = [⟨"b", "u", 7⟩, ⟨"c", "u", 90⟩])) (by decide)
  have hrun := hs.mono fun _ _ hl => of_decide_eq_true hl
  exact ⟨s, hrun, of_decide_eq_true hp, (chat_retention hrun).1⟩

end Rows

end Chat

end TrackFlow
