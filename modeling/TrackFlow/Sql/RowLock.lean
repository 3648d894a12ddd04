import TrackFlow.LTS.Machine
import Mathlib.Logic.Function.Basic
import Mathlib.Tactic.SplitIfs

/-!
# Transactions under READ COMMITTED with row locks

Any number of sessions run transactions against one database.  A session executes its program
one statement at a time.  A statement sees the committed data and the session's own writes
(never the writes of another open transaction), may lock rows, and may write rows; the writes
stay private until `COMMIT` installs them all at once, and the row locks are held until then.
A statement that needs a row another session holds does not run.

A session's program is a `Protocol`: what it does next in its local state `α`, as a function
of a choice `χ` (clock readings, generated identifiers, a failing statement), of the rows other
sessions have locked (for `SKIP LOCKED`), and of the data it sees.

The proof rule is `Assertion.invariant`: give each local state an assertion about the
session's pending writes, its locks and the committed data, show that the session's own
statements lead from assertion to assertion, and that an assertion survives the commit of
writes whose guarding rows the session does not hold.  Then every session satisfies its
assertion in every reachable state, whatever the interleaving.  Under it lies
`Reliance.all_next`, where an assertion may also use what the committing session asserts.
-/

namespace TrackFlow

namespace RowLock

/-- What a statement of a session does. -/
inductive Outcome (κ ω α : Type*)
  /-- Lock rows, write rows, and continue. -/
  | proceed (locks : List κ) (writes : List ω) (next : α)
  /-- `COMMIT`: install the pending writes and release the locks. -/
  | commit (next : α)
  /-- `ROLLBACK`: drop the pending writes and release the locks. -/
  | rollback (next : α)

/-- The program of the sessions: rows `κ` to lock, row writes `ω`, choices `χ`, local
states `α`. -/
structure Protocol (σ κ ω χ α : Type*) where
  /-- The database after one row write. -/
  install : σ → ω → σ
  /-- The next statement of a session in a local state, given the rows that other sessions
  have locked and the data it sees; `none` if no statement matches the choice. -/
  exec : α → χ → (κ → Bool) → σ → Option (Outcome κ ω α)

/-- The same statement of a program that is part of a larger one. -/
def Outcome.map {κ ω α β : Type*} (f : α → β) : Outcome κ ω α → Outcome κ ω β
  | .proceed locks writes next => .proceed locks writes (f next)
  | .commit next => .commit (f next)
  | .rollback next => .rollback (f next)

/-- The local state after the statement. -/
def Outcome.loc {κ ω α : Type*} : Outcome κ ω α → α
  | .proceed _ _ a => a
  | .commit a => a
  | .rollback a => a

/-- The rows that the statement locks. -/
def Outcome.locks {κ ω α : Type*} : Outcome κ ω α → List κ
  | .proceed ks _ _ => ks
  | _ => []

@[simp] theorem Outcome.loc_map {κ ω α β : Type*} (f : α → β) (o : Outcome κ ω α) :
    (o.map f).loc = f o.loc := by
  cases o <;> rfl

/-- The mark `m` of a local state is set by `COMMIT` and by nothing else, and only once. -/
def Outcome.Marks {κ ω α : Type*} (m : α → Bool) (before : Bool) : Outcome κ ω α → Prop
  | .proceed _ _ a => m a = before
  | .commit a => before = false ∧ m a = true
  | .rollback a => m a = before

theorem Outcome.marks_map {κ ω α β : Type*} {f : α → β} {m : β → Bool} {before : Bool}
    {o : Outcome κ ω α} : (o.map f).Marks m before ↔ o.Marks (fun a => m (f a)) before := by
  cases o <;> rfl

/-- One session: its local state and the writes of its open transaction. -/
structure Session (ω α : Type*) where
  /-- The local state. -/
  loc : α
  /-- Row writes not yet committed, oldest first. -/
  pending : List ω

/-- The committed data, the lock table and the sessions. -/
structure State (ι σ κ ω α : Type*) where
  /-- The committed data. -/
  db : σ
  /-- The session that holds a row lock.  A lock has at most one holder by construction. -/
  owner : κ → Option ι
  /-- The sessions. -/
  session : ι → Session ω α

namespace State

variable {ι σ κ ω α : Type*}

/-- Session `i` holds the lock on row `k`. -/
def Holds (s : State ι σ κ ω α) (i : ι) (k : κ) : Prop := s.owner k = some i

/-- All sessions at the start of their programs, no lock held. -/
def start (db : σ) (loc : ι → α) : State ι σ κ ω α := ⟨db, fun _ => none, fun i => ⟨loc i, []⟩⟩

variable [DecidableEq ι]

/-- Row `k` is locked by a session other than `i`. -/
def busy (s : State ι σ κ ω α) (i : ι) (k : κ) : Bool :=
  match s.owner k with
  | some j => decide (j ≠ i)
  | none => false

/-- The lock table after session `i` has released its locks. -/
def release (s : State ι σ κ ω α) (i : ι) (k : κ) : Option ι :=
  if s.owner k = some i then none else s.owner k

end State

namespace Protocol

variable {ι σ κ ω χ α : Type*} [DecidableEq ι] [DecidableEq κ] (P : Protocol σ κ ω χ α)

/-- The database after several row writes. -/
def installAll (db : σ) (ws : List ω) : σ := ws.foldl P.install db

/-- What session `i` sees: the committed data and its own pending writes. -/
def view (s : State ι σ κ ω α) (i : ι) : σ := P.installAll s.db (s.session i).pending

/-- Session `i` executes its next statement with choice `c`. -/
def next (s : State ι σ κ ω α) (l : ι × χ) : Option (State ι σ κ ω α) :=
  match P.exec (s.session l.1).loc l.2 (s.busy l.1) (P.view s l.1) with
  | none => none
  | some (.proceed ks ws a) =>
    -- a locked row makes the statement wait
    if ks.any (s.busy l.1) then none
    else some
      { s with
        owner := fun k => if k ∈ ks then some l.1 else s.owner k
        session := Function.update s.session l.1 ⟨a, (s.session l.1).pending ++ ws⟩ }
  | some (.commit a) => some
      { db := P.view s l.1
        owner := s.release l.1
        session := Function.update s.session l.1 ⟨a, []⟩ }
  | some (.rollback a) => some
      { s with
        owner := s.release l.1
        session := Function.update s.session l.1 ⟨a, []⟩ }

/-- The next statement of session `i` is a `COMMIT`. -/
def commits (s : State ι σ κ ω α) (l : ι × χ) : Bool :=
  match P.exec (s.session l.1).loc l.2 (s.busy l.1) (P.view s l.1) with
  | some (.commit _) => true
  | _ => false

/-- The machine whose labels are a session and a choice. -/
def machine (ι : Type*) [DecidableEq ι] : Machine (State ι σ κ ω α) (ι × χ) := ⟨P.next⟩

variable {P}

/-- Everything a step can do. -/
theorem next_cases {s s' : State ι σ κ ω α} {i : ι} {c : χ} (h : P.next s (i, c) = some s') :
    (∃ ks ws a, P.exec (s.session i).loc c (s.busy i) (P.view s i) = some (.proceed ks ws a) ∧
      (∀ k ∈ ks, s.busy i k = false) ∧
      s' = { s with
        owner := fun k => if k ∈ ks then some i else s.owner k
        session := Function.update s.session i ⟨a, (s.session i).pending ++ ws⟩ }) ∨
    (∃ a, P.exec (s.session i).loc c (s.busy i) (P.view s i) = some (.commit a) ∧
      s' = { db := P.view s i, owner := s.release i,
             session := Function.update s.session i ⟨a, []⟩ }) ∨
    (∃ a, P.exec (s.session i).loc c (s.busy i) (P.view s i) = some (.rollback a) ∧
      s' = { s with owner := s.release i, session := Function.update s.session i ⟨a, []⟩ }) := by
  simp only [next] at h
  split at h
  · cases h
  · rename_i ks ws a he
    split at h
    · cases h
    · rename_i hb
      refine .inl ⟨ks, ws, a, he, fun k hk => ?_, (Option.some.inj h).symm⟩
      simpa using fun hk' => hb (List.any_eq_true.2 ⟨k, hk, hk'⟩)
  · exact .inr (.inl ⟨_, ‹_›, (Option.some.inj h).symm⟩)
  · exact .inr (.inr ⟨_, ‹_›, (Option.some.inj h).symm⟩)

/-- A statement whose rows nobody else has locked runs. -/
theorem exists_next {s : State ι σ κ ω α} {i : ι} {c : χ} {o : Outcome κ ω α}
    (h : P.exec (s.session i).loc c (s.busy i) (P.view s i) = some o)
    (hfree : ∀ k ∈ o.locks, s.busy i k = false) : ∃ s', P.next s (i, c) = some s' := by
  unfold next
  rw [h]
  cases o with
  | proceed ks ws a =>
    have hno : ks.any (s.busy i) ≠ true := by
      rw [Ne, List.any_eq_true]
      rintro ⟨k, hk, hbusy⟩
      rw [hfree k hk] at hbusy
      cases hbusy
    exact ⟨_, if_neg hno⟩
  | commit a => exact ⟨_, rfl⟩
  | rollback a => exact ⟨_, rfl⟩

omit [DecidableEq κ] in
theorem commits_of_exec {s : State ι σ κ ω α} {i : ι} {c : χ} {a : α}
    (h : P.exec (s.session i).loc c (s.busy i) (P.view s i) = some (.commit a)) :
    P.commits s (i, c) = true := by
  simp only [commits, h]

/-- Only the session that moves changes its local state. -/
theorem session_next_of_ne {s s' : State ι σ κ ω α} {i j : ι} {c : χ}
    (h : P.next s (i, c) = some s') (hj : j ≠ i) : s'.session j = s.session j := by
  obtain ⟨_, _, _, -, -, rfl⟩ | ⟨_, -, rfl⟩ | ⟨_, -, rfl⟩ := next_cases h <;>
    exact Function.update_of_ne hj _ _

/-- The session that moves goes where its statement says. -/
theorem session_next_self {s s' : State ι σ κ ω α} {i : ι} {c : χ} (h : P.next s (i, c) = some s') :
    ∃ o, P.exec (s.session i).loc c (s.busy i) (P.view s i) = some o ∧
      (s'.session i).loc = o.loc := by
  obtain ⟨_, _, _, he, -, rfl⟩ | ⟨_, he, rfl⟩ | ⟨_, he, rfl⟩ := next_cases h <;>
    exact ⟨_, he, by simp [Outcome.loc]⟩

/-- The committed data changes only when the session that moves commits. -/
theorem db_next {s s' : State ι σ κ ω α} {i : ι} {c : χ} (h : P.next s (i, c) = some s') :
    s'.db = s.db ∨ ∃ a, P.exec (s.session i).loc c (s.busy i) (P.view s i) = some (.commit a) ∧
      s'.db = P.view s i ∧ (s'.session i).loc = a := by
  obtain ⟨_, _, _, -, -, rfl⟩ | ⟨a, ha, rfl⟩ | ⟨_, -, rfl⟩ := next_cases h
  · exact .inl rfl
  · exact .inr ⟨a, ha, rfl, by simp⟩
  · exact .inl rfl

/-- A `COMMIT` installs what the session sees. -/
theorem db_next_of_commit {s s' : State ι σ κ ω α} {i : ι} {c : χ} {a : α}
    (h : P.next s (i, c) = some s')
    (he : P.exec (s.session i).loc c (s.busy i) (P.view s i) = some (.commit a)) :
    s'.db = P.view s i := by
  simp only [next, he] at h
  exact congrArg State.db (Option.some.inj h).symm

end Protocol

section Locks

variable {ι σ κ ω α : Type*} {s : State ι σ κ ω α} {i j : ι} {k : κ}

/-- **Mutual exclusion.** -/
theorem State.Holds.unique (h : s.Holds i k) (h' : s.Holds j k) : i = j :=
  Option.some.inj (h.symm.trans h')

variable [DecidableEq ι]

/-- A row that is free for `i` is not held by anyone else. -/
theorem not_holds_of_not_busy (h : s.busy i k = false) (hj : j ≠ i) : ¬ s.Holds j k := by
  intro hk
  simp only [State.Holds] at hk
  simp only [State.busy, hk] at h
  exact hj (by simpa using h)

theorem release_eq_some_iff_of_ne (hj : j ≠ i) : s.release i k = some j ↔ s.Holds j k := by
  unfold State.release State.Holds
  split_ifs with h
  · simp [h, hj.symm]
  · rfl

theorem release_ne_self : s.release i k ≠ some i := by
  unfold State.release
  split_ifs with h
  · simp
  · exact h

end Locks

/-- What an outcome establishes, for a session with pending writes `ws` and locks `held` while
`db` is committed and `view` is what the session sees. -/
def Outcome.LeadsTo {σ κ ω α : Type*} (holds : α → List ω → (κ → Prop) → σ → Prop) (ws : List ω)
    (held : κ → Prop) (db view : σ) : Outcome κ ω α → Prop
  | .proceed ks ws' a => holds a (ws ++ ws') (fun k => held k ∨ k ∈ ks) db
  | .commit a => holds a [] (fun _ => False) view
  | .rollback a => holds a [] (fun _ => False) db

theorem Outcome.leadsTo_map {σ κ ω α β : Type*} {holds : β → List ω → (κ → Prop) → σ → Prop}
    {ws : List ω} {held : κ → Prop} {db view : σ} {f : α → β} {o : Outcome κ ω α} :
    (o.map f).LeadsTo holds ws held db view ↔
      o.LeadsTo (fun a => holds (f a)) ws held db view := by
  cases o <;> rfl

section Next

variable {ι σ κ ω χ α : Type*} {P : Protocol σ κ ω χ α}
  {holds : α → List ω → (κ → Prop) → σ → Prop} [DecidableEq ι]

/-- After session `i` has moved: its own assertion, and those of the others. -/
theorem holds_update {s : State ι σ κ ω α} {i : ι} {db : σ} {owner : κ → Option ι} {a : α}
    {ws : List ω} (hi : holds a ws (fun k => owner k = some i) db)
    (hj : ∀ j, j ≠ i →
      holds (s.session j).loc (s.session j).pending (fun k => owner k = some j) db) (j : ι) :
    holds (Function.update s.session i ⟨a, ws⟩ j).loc (Function.update s.session i ⟨a, ws⟩ j).pending
      (fun k => owner k = some j) db := by
  by_cases h : j = i
  · subst h
    simpa only [Function.update_self] using hi
  · simpa only [Function.update_of_ne h] using hj j h

/-- Releasing the locks of `i` takes them from `i` only. -/
theorem release_self_eq {s : State ι σ κ ω α} {i : ι} :
    (fun k => s.release i k = some i) = fun _ => False := by
  funext k; simp [release_ne_self]

theorem release_other_eq {s : State ι σ κ ω α} {i j : ι} (h : j ≠ i) :
    (fun k => s.release i k = some j) = fun k => s.owner k = some j := by
  funext k; exact propext (release_eq_some_iff_of_ne h)

variable [DecidableEq κ]

/-- **One statement.**  What it leads to holds of its session; the others keep what held of them,
also when it is a commit. -/
theorem holds_next {s s' : State ι σ κ ω α} {i : ι} {c : χ}
    (hself : ∀ o, P.exec (s.session i).loc c (s.busy i) (P.view s i) = some o →
      o.LeadsTo holds (s.session i).pending (fun k => s.owner k = some i) s.db (P.view s i))
    (hother : ∀ j, j ≠ i →
      holds (s.session j).loc (s.session j).pending (fun k => s.owner k = some j) s.db)
    (hcommit : ∀ a, P.exec (s.session i).loc c (s.busy i) (P.view s i) = some (.commit a) →
      ∀ j, j ≠ i →
        holds (s.session j).loc (s.session j).pending (fun k => s.owner k = some j) (P.view s i))
    (h : P.next s (i, c) = some s') (j : ι) :
    holds (s'.session j).loc (s'.session j).pending (fun k => s'.owner k = some j) s'.db := by
  obtain ⟨ks, ws, a, he, hb, rfl⟩ | ⟨a, he, rfl⟩ | ⟨a, he, rfl⟩ := Protocol.next_cases h
  · refine holds_update ?_ (fun j hj => ?_) j
    · have hown : (fun k => (if k ∈ ks then some i else s.owner k) = some i) =
          fun k => s.owner k = some i ∨ k ∈ ks := by
        funext k
        by_cases hk : k ∈ ks <;> simp [hk]
      rw [hown]
      exact hself _ he
    · have hown : (fun k => (if k ∈ ks then some i else s.owner k) = some j) =
          fun k => s.owner k = some j := by
        funext k
        by_cases hk : k ∈ ks
        · have hne : s.owner k ≠ some j := not_holds_of_not_busy (hb k hk) hj
          simp [hk, hne, Ne.symm hj]
        · simp [hk]
      rw [hown]
      exact hother j hj
  · refine holds_update ?_ (fun j hj => ?_) j
    · rw [release_self_eq]
      exact hself _ he
    · rw [release_other_eq hj]
      exact hcommit a he j hj
  · refine holds_update ?_ (fun j hj => ?_) j
    · rw [release_self_eq]
      exact hself _ he
    · rw [release_other_eq hj]
      exact hother j hj

end Next

/-- Assertions about sessions that rely on one another: `holds a ws held db` speaks about a session
in local state `a` with pending writes `ws` and locks `held`, while `db` is committed.  The
session's own statements may rely on a side condition `side a c db`.  The commit of another session
leaves the assertion alone: that session satisfies its own assertion and holds no lock of this one,
and its writes `ws'` satisfy `rely a ws' db`. -/
structure Reliance {σ κ ω χ α : Type*} (P : Protocol σ κ ω χ α) (side : α → χ → σ → Prop)
    (rely : α → List ω → σ → Prop) where
  /-- The assertion. -/
  holds : α → List ω → (κ → Prop) → σ → Prop
  /-- A statement of the session itself. -/
  step : ∀ {a ws held db c busy o}, holds a ws held db → side a c db →
    P.exec a c busy (P.installAll db ws) = some o →
    o.LeadsTo holds ws held db (P.installAll db ws)
  /-- A commit of another session. -/
  stable : ∀ {a ws held db a' ws' held'}, holds a ws held db → holds a' ws' held' db →
    (∀ k, held k → ¬ held' k) → rely a ws' db → holds a ws held (P.installAll db ws')

namespace Reliance

variable {ι σ κ ω χ α : Type*} {P : Protocol σ κ ω χ α} {side : α → χ → σ → Prop}
  {rely : α → List ω → σ → Prop} (A : Reliance P side rely)

/-- Every session satisfies its assertion. -/
def All (s : State ι σ κ ω α) : Prop :=
  ∀ i, A.holds (s.session i).loc (s.session i).pending (fun k => s.owner k = some i) s.db

theorem all_start {db : σ} {loc : ι → α} (h : ∀ i, A.holds (loc i) [] (fun _ => False) db) :
    A.All (State.start (κ := κ) (ω := ω) db loc) := by
  intro i
  have hh : (fun k : κ => (State.start (κ := κ) (ω := ω) db loc).owner k = some i) =
      fun _ => False := by
    funext k; simp [State.start]
  rw [hh]
  exact h i

variable [DecidableEq ι] [DecidableEq κ]

/-- **Rely and guarantee.**  One statement of one session keeps the assertions of all. -/
theorem all_next {s s' : State ι σ κ ω α} {i : ι} {c : χ} (hA : A.All s)
    (hside : side (s.session i).loc c s.db)
    (hrely : ∀ a, P.exec (s.session i).loc c (s.busy i) (P.view s i) = some (.commit a) →
      ∀ j, j ≠ i → rely (s.session j).loc (s.session i).pending s.db)
    (h : P.next s (i, c) = some s') : A.All s' :=
  holds_next (fun _ he => A.step (hA i) hside he) (fun j _ => hA j)
    (fun a he j hj => A.stable (hA j) (hA i)
      (fun _ hk hk' => hj (State.Holds.unique (s := s) hk hk')) (hrely a he j hj)) h

end Reliance

/-- Assertions about the sessions of a protocol: `holds a ws held db` speaks about a session
in local state `a` with pending writes `ws` and locks `held`, while `db` is committed.  Each
write `w` is guarded by the rows `guard w`, which its session must hold.  The session's own
statements may rely on a side condition `side a c db` (`True` when nothing is assumed). -/
structure Assertion {σ κ ω χ α : Type*} (P : Protocol σ κ ω χ α) (guard : ω → List κ)
    (side : α → χ → σ → Prop) where
  /-- The assertion. -/
  holds : α → List ω → (κ → Prop) → σ → Prop
  /-- Pending writes are guarded by rows the session holds. -/
  guarded : ∀ {a ws held db}, holds a ws held db → ∀ w ∈ ws, ∀ k ∈ guard w, held k
  /-- A statement of the session itself. -/
  step : ∀ {a ws held db c busy o}, holds a ws held db → side a c db →
    P.exec a c busy (P.installAll db ws) = some o →
    o.LeadsTo holds ws held db (P.installAll db ws)
  /-- A commit of another session, whose writes are guarded by rows this one does not hold. -/
  stable : ∀ {a ws held db ws'}, holds a ws held db → (∀ w ∈ ws', ∀ k ∈ guard w, ¬ held k) →
    holds a ws held (P.installAll db ws')

namespace Assertion

variable {ι σ κ ω χ α : Type*} {P : Protocol σ κ ω χ α} {guard : ω → List κ}
  {side : α → χ → σ → Prop} (A : Assertion P guard side)

/-- Guarded writes are all that such sessions rely on. -/
def toReliance : Reliance P side fun _ _ _ => True where
  holds := A.holds
  step := A.step
  stable h h' hdisjoint _ := A.stable h fun w hw k hk hheld =>
    hdisjoint k hheld (A.guarded h' w hw k hk)

/-- Every session satisfies its assertion. -/
def All (s : State ι σ κ ω α) : Prop :=
  ∀ i, A.holds (s.session i).loc (s.session i).pending (fun k => s.owner k = some i) s.db

theorem all_start {db : σ} {loc : ι → α} (h : ∀ i, A.holds (loc i) [] (fun _ => False) db) :
    A.All (State.start (κ := κ) (ω := ω) db loc) :=
  A.toReliance.all_start h

variable [DecidableEq ι] [DecidableEq κ]

/-- One statement of one session keeps the assertions of all. -/
theorem all_next {s s' : State ι σ κ ω α} {i : ι} {c : χ} (hA : A.All s)
    (hside : side (s.session i).loc c s.db) (h : P.next s (i, c) = some s') : A.All s' :=
  A.toReliance.all_next hA hside (fun _ _ _ _ => trivial) h

/-- **Every session satisfies its assertion** in every state of a run whose steps meet the
side condition. -/
theorem invariant {G : State ι σ κ ω α → ι × χ → Prop} {s₀ s : State ι σ κ ω α}
    (h : (P.machine ι).Run G s₀ s) (hG : ∀ s i c, G s (i, c) → side (s.session i).loc c s.db)
    (h₀ : A.All s₀) : A.All s :=
  h.invariant A.All h₀ fun s l _ hA hg hs => A.all_next hA (hG s l.1 l.2 hg) hs

end Assertion

end RowLock

end TrackFlow
