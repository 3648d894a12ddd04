import Mathlib.Data.List.ReduceOption
import Mathlib.Tactic.Push
import Mathlib.Tactic.Set
import TrackFlow.Sql.Transaction

/-!
# Statements with commits among them

A `Connection` is what a session sees of the database: the states it has committed, the working
copy of its open transaction, and at which statement the database is going to raise, if at any.
Programs are `Tx` over connections; `COMMIT` is a statement like any other, so a program can go on
behind it.

`Does` tells a program by its trace, one entry a statement: a fault behind the trace leaves the
program alone, a fault inside raises there, and what was committed is what the trace had committed
by then.

* `Does.bind`, `Does.bind_error` : traces are put together.
* `Does.start_of_lt`, `Does.start_of_le` : what a program has committed, fault by fault.
* `Does.session_cases` : what a session commits, with or without a fault.
* `Does.raises_changed_iff` : when a program with one commit raises and has changed the committed
  state.
* `Runs.raises_unchanged_iff` : **when a program that raises has written nothing**.
-/

namespace TrackFlow

universe u

/-- What SQLAlchemy raises. -/
inductive SqlError
  /-- `IntegrityError`, with the constraint that the driver names. -/
  | integrity (constraintName : Option String)
  /-- Any other `SQLAlchemyError`. -/
  | other
  deriving DecidableEq, Repr

/-- What a session sees of a database `σ` that raises `φ`. -/
structure Connection (φ σ : Type*) where
  /-- The committed state at the start. -/
  base : σ
  /-- The states committed since, in order. -/
  history : List σ
  /-- The working copy of the open transaction. -/
  working : σ
  /-- How many statements still succeed before the database raises, and what it raises. -/
  fault : Option (ℕ × φ)

namespace Connection

variable {φ σ : Type*}

/-- A fresh session. -/
def start (db : σ) (fault : Option (ℕ × φ)) : Connection φ σ := ⟨db, [], db, fault⟩

/-- The committed state. -/
def committed (c : Connection φ σ) : σ := c.history.getLastD c.base

/-- Every committed state so far. -/
def visited (c : Connection φ σ) : List σ := c.base :: c.history

/-- `ROLLBACK`. -/
def rollback (c : Connection φ σ) : Connection φ σ := { c with working := c.committed }

/-- The connection behind `n` statements that have succeeded. -/
def advance (n : ℕ) (c : Connection φ σ) : Connection φ σ :=
  { c with fault := c.fault.map fun x => (x.1 - n, x.2) }

end Connection

namespace Tx

variable {ε φ σ : Type*} {α β : Type u} (sql : φ → ε)

/-- A statement on the working copy. -/
def query (f : σ → Except φ (α × σ)) : Tx ε (Connection φ σ) α := ⟨fun c =>
  match c.fault with
  | some (0, e) => (.error (sql e), { c with fault := none })
  | _ =>
    match f c.working with
    | .ok (a, w) => (.ok a, { c.advance 1 with working := w })
    | .error e => (.error (sql e), c.advance 1)⟩

/-- A statement that reads. -/
def select (f : σ → α) : Tx ε (Connection φ σ) α := query sql fun w => .ok (f w, w)

/-- `COMMIT`; one that raises is not applied. -/
def commit : Tx ε (Connection φ σ) PUnit := ⟨fun c =>
  match c.fault with
  | some (0, e) => (.error (sql e), { c with fault := none })
  | _ => (.ok ⟨⟩, { c.advance 1 with history := c.history ++ [c.working] })⟩

/-- `try` with a handler that rolls back and raises again. -/
def rescue (handler : ε → ε) (p : Tx ε (Connection φ σ) α) : Tx ε (Connection φ σ) α := ⟨fun c =>
  match p.run c with
  | (.ok a, c') => (.ok a, c')
  | (.error e, c') => (.error (handler e), c'.rollback)⟩

end Tx

open Tx Connection

section Does

variable {ε φ σ : Type*} {α β : Type u} {sql : φ → ε}

/-- What `p` does from the working copy `w`: it runs the statements of `trace`, where a `COMMIT`
shows the state it commits, and ends with `r` and the working copy `w'`. -/
structure Does (sql : φ → ε) (p : Tx ε (Connection φ σ) α) (w : σ) (trace : List (Option σ))
    (r : Except ε α) (w' : σ) : Prop where
  clear : ∀ c : Connection φ σ, c.working = w → (∀ k e, c.fault = some (k, e) → trace.length ≤ k) →
    p.run c = (r, { c.advance trace.length with
      history := c.history ++ trace.reduceOption, working := w' })
  struck : ∀ (c : Connection φ σ) (k : ℕ) (e : φ), c.working = w → c.fault = some (k, e) →
    k < trace.length → ∃ v, p.run c = (.error (sql e), { c with
      history := c.history ++ (trace.take k).reduceOption, working := v, fault := none })

theorem Connection.advance_zero (c : Connection φ σ) : c.advance 0 = c := by
  rcases c with ⟨b, h, w, _ | ⟨k, e⟩⟩ <;> rfl

theorem Does.pure (w : σ) (a : α) : Does sql (pure a) w [] (.ok a) w where
  clear := by
    rintro c rfl -
    change (Except.ok a, c) = _
    simp [advance_zero]
  struck := by simp

theorem Does.raise (w : σ) (e : ε) : Does sql (Tx.raise e : Tx ε _ α) w [] (.error e) w where
  clear := by
    rintro c rfl -
    change (Except.error e, c) = _
    simp [advance_zero]
  struck := by simp

/-- A statement that no fault strikes. -/
theorem Tx.query_run_of_clear {f : σ → Except φ (α × σ)} {c : Connection φ σ}
    (h : ∀ k e, c.fault = some (k, e) → 1 ≤ k) :
    (query sql f).run c = match f c.working with
      | .ok (a, w) => (.ok a, { c.advance 1 with working := w })
      | .error e => (.error (sql e), c.advance 1) := by
  rcases c with ⟨b, hist, w, _ | ⟨_ | k, e⟩⟩
  · rfl
  · exact absurd (h 0 e rfl) (by omega)
  · rfl

theorem Does.query {f : σ → Except φ (α × σ)} {w w' : σ} {a : α} (hf : f w = .ok (a, w')) :
    Does sql (Tx.query sql f) w [none] (.ok a) w' where
  clear := by
    rintro c rfl h
    rw [query_run_of_clear h, hf]
    simp [advance]
  struck := by
    rintro c k e rfl hc hk
    obtain rfl : k = 0 := by simpa using hk
    exact ⟨c.working, by simp [Tx.query, hc]⟩

theorem Does.query_error {f : σ → Except φ (α × σ)} {w : σ} {e : φ} (hf : f w = .error e) :
    Does sql (Tx.query sql f) w [none] (.error (sql e)) w where
  clear := by
    rintro c rfl h
    rw [query_run_of_clear h, hf]
    simp [advance]
  struck := by
    rintro c k e' rfl hc hk
    obtain rfl : k = 0 := by simpa using hk
    exact ⟨c.working, by simp [Tx.query, hc]⟩

theorem Does.select (f : σ → α) (w : σ) : Does sql (Tx.select sql f) w [none] (.ok (f w)) w :=
  .query rfl

theorem Does.commit (w : σ) : Does sql (Tx.commit sql) w [some w] (.ok ⟨⟩) w where
  clear := by
    rintro ⟨b, hist, w, _ | ⟨_ | k, e⟩⟩ rfl h
    · rfl
    · exact absurd (h 0 e rfl) (by simp)
    · rfl
  struck := by
    rintro c k e rfl hc hk
    obtain rfl : k = 0 := by simpa using hk
    exact ⟨c.working, by simp [Tx.commit, hc]⟩

theorem Tx.bind_run (p : Tx ε σ α) (f : α → Tx ε σ β) (s : σ) :
    (p >>= f).run s = match p.run s with
      | (.ok a, s') => (f a).run s'
      | (.error e, s') => (.error e, s') := rfl

/-- A program goes on behind one that returns. -/
theorem Does.bind {p : Tx ε (Connection φ σ) α} {f : α → Tx ε (Connection φ σ) β} {w w' w'' : σ}
    {t t' : List (Option σ)} {a : α} {r : Except ε β} (hp : Does sql p w t (.ok a) w')
    (hf : Does sql (f a) w' t' r w'') : Does sql (p >>= f) w (t ++ t') r w'' where
  clear := by
    rintro c rfl h
    rw [List.length_append] at h
    have hclear := hp.clear c rfl fun k e hk => by
      have := h k e hk
      omega
    rw [bind_run, hclear]
    refine (hf.clear _ rfl ?_).trans ?_
    · intro k e hk
      obtain ⟨⟨k', e'⟩, hk', hke⟩ := Option.map_eq_some_iff.1 hk
      have := h k' e' hk'
      obtain rfl : k' - t.length = k := congrArg Prod.fst hke
      omega
    · simp only [advance, List.length_append, Option.map_map, Function.comp_def,
        List.reduceOption_append, List.append_assoc, Nat.sub_sub]
  struck := by
    rintro c k e rfl hc hk
    rw [List.length_append] at hk
    by_cases hlt : k < t.length
    · obtain ⟨v, hv⟩ := hp.struck c k e rfl hc hlt
      refine ⟨v, ?_⟩
      rw [bind_run, hv, List.take_append_of_le_length (Nat.le_of_lt hlt)]
    · have hle : t.length ≤ k := Nat.not_lt.1 hlt
      have hclear := hp.clear c rfl fun k' e' h => by
        rw [hc] at h
        cases h
        exact hle
      obtain ⟨v, hv⟩ := hf.struck
        { c.advance t.length with history := c.history ++ t.reduceOption, working := w' }
        (k - t.length) e rfl (by simp [advance, hc]) (by omega)
      refine ⟨v, ?_⟩
      rw [bind_run, hclear]
      refine hv.trans ?_
      simp only [advance, List.take_append, List.take_of_length_le hle,
        List.reduceOption_append, List.append_assoc]

/-- A program ends where its first part raises. -/
theorem Does.bind_error {p : Tx ε (Connection φ σ) α} {f : α → Tx ε (Connection φ σ) β} {w w' : σ}
    {t : List (Option σ)} {e : ε} (hp : Does sql p w t (.error e) w') :
    Does sql (p >>= f) w t (.error e) w' where
  clear := by
    rintro c rfl h
    rw [bind_run, hp.clear c rfl h]
  struck := by
    rintro c k e' rfl hc hk
    obtain ⟨v, hv⟩ := hp.struck c k e' rfl hc hk
    exact ⟨v, by rw [bind_run, hv]⟩

/-! ### Programs statement by statement -/

/-- The program runs the statements of `trace` and ends with `r`. -/
def Runs (sql : φ → ε) (p : Tx ε (Connection φ σ) α) (w : σ) (trace : List (Option σ))
    (r : Except ε α) : Prop := ∃ w', Does sql p w trace r w'

/-- The program raises without a commit, whatever the database does. -/
def Refuses (sql : φ → ε) (p : Tx ε (Connection φ σ) α) (w : σ) : Prop :=
  ∃ n e, Runs sql p w (List.replicate n none) (.error e)

section Steps

variable {f : β → Tx ε (Connection φ σ) α} {w w' : σ} {t : List (Option σ)} {r : Except ε α}

theorem Runs.pure (w : σ) (a : α) : Runs sql (Pure.pure a) w [] (.ok a) := ⟨w, .pure w a⟩

theorem Runs.raise (w : σ) (e : ε) : Runs sql (Tx.raise e : Tx ε _ α) w [] (.error e) :=
  ⟨w, .raise w e⟩

theorem Runs.query_bind {g : σ → Except φ (β × σ)} {b : β} (hg : g w = .ok (b, w'))
    (h : Runs sql (f b) w' t r) : Runs sql (Tx.query sql g >>= f) w (none :: t) r := by
  obtain ⟨v, h⟩ := h
  exact ⟨v, (Does.query hg).bind h⟩

theorem Runs.select_bind {g : σ → β} (h : Runs sql (f (g w)) w t r) :
    Runs sql (Tx.select sql g >>= f) w (none :: t) r := .query_bind rfl h

theorem Runs.commit_bind {f : PUnit → Tx ε (Connection φ σ) α} (h : Runs sql (f ⟨⟩) w t r) :
    Runs sql (Tx.commit sql >>= f) w (some w :: t) r := by
  obtain ⟨v, h⟩ := h
  exact ⟨v, (Does.commit w).bind h⟩

/-- What a program returns is changed on the way out. -/
theorem Runs.bind_pure {p : Tx ε (Connection φ σ) β} {s : Except ε β} (h : Runs sql p w t s)
    (g : β → α) : Runs sql (p >>= fun b => Pure.pure (g b)) w t (s.map g) := by
  obtain ⟨v, h⟩ := h
  refine ⟨v, ?_⟩
  cases s with
  | error e => exact h.bind_error
  | ok b =>
    have hb := h.bind (f := fun b => Pure.pure (g b)) (.pure v (g b))
    rwa [List.append_nil] at hb

theorem Refuses.raise (w : σ) (e : ε) : Refuses sql (Tx.raise e : Tx ε _ α) w :=
  ⟨0, e, .raise w e⟩

theorem Refuses.query_bind_error {g : σ → Except φ (β × σ)} {e : φ} (hg : g w = .error e) :
    Refuses sql (Tx.query sql g >>= f) w := ⟨1, sql e, w, (Does.query_error hg).bind_error⟩

theorem Refuses.query_bind {g : σ → Except φ (β × σ)} {b : β} (hg : g w = .ok (b, w'))
    (h : Refuses sql (f b) w') : Refuses sql (Tx.query sql g >>= f) w := by
  obtain ⟨n, e, hn⟩ := h
  exact ⟨n + 1, e, .query_bind hg hn⟩

theorem Refuses.select_bind {g : σ → β} (h : Refuses sql (f (g w)) w) :
    Refuses sql (Tx.select sql g >>= f) w := .query_bind rfl h

theorem Refuses.bind_pure {p : Tx ε (Connection φ σ) β} (h : Refuses sql p w) (g : β → α) :
    Refuses sql (p >>= fun b => Pure.pure (g b)) w := by
  obtain ⟨n, e, hn⟩ := h
  exact ⟨n, e, hn.bind_pure g⟩

end Steps

variable {p : Tx ε (Connection φ σ) α} {handler : ε → ε} {db w : σ} {t : List (Option σ)}
  {r : Except ε α}

/-- A handler changes neither what has been committed nor whether the program raises. -/
theorem Tx.rescue_run (c : Connection φ σ) :
    ((rescue handler p).run c).2.history = (p.run c).2.history ∧
      ((rescue handler p).run c).2.base = (p.run c).2.base ∧
      ((rescue handler p).run c).1 = (p.run c).1.mapError handler := by
  simp only [rescue]
  rcases p.run c with ⟨e | a, c'⟩
  · exact ⟨rfl, rfl, rfl⟩
  · exact ⟨rfl, rfl, rfl⟩

/-- What a program has committed when no fault strikes it. -/
theorem Does.start_of_le (h : Does sql p db t r w) {fault : Option (ℕ × φ)}
    (hf : ∀ k e, fault = some (k, e) → t.length ≤ k) :
    (p.run (start db fault)).1 = r ∧ (p.run (start db fault)).2.base = db ∧
      (p.run (start db fault)).2.history = t.reduceOption := by
  rw [h.clear (start db fault) rfl hf]
  exact ⟨rfl, rfl, rfl⟩

/-- What a program has committed when a fault strikes it. -/
theorem Does.start_of_lt (h : Does sql p db t r w) {k : ℕ} {e : φ} (hk : k < t.length) :
    (p.run (start db (some (k, e)))).1 = .error (sql e) ∧
      (p.run (start db (some (k, e)))).2.base = db ∧
      (p.run (start db (some (k, e)))).2.history = (t.take k).reduceOption := by
  obtain ⟨v, hv⟩ := h.struck (start db (some (k, e))) k e rfl rfl hk
  rw [hv]
  exact ⟨rfl, rfl, rfl⟩

/-- Run a program in a session of its own: what it returns, and what it commits. -/
def Tx.session (p : Tx ε (Connection φ σ) α) (fault : Option (ℕ × φ)) (db : σ) :
    Except ε α × List σ :=
  let (r, c) := p.run (start db fault)
  (r, c.history)

/-- A session ends by itself with all that it commits, or where a fault strikes it. -/
theorem Does.session_cases (h : Does sql p db t r w) (fault : Option (ℕ × φ)) :
    ((∀ k e, fault = some (k, e) → t.length ≤ k) ∧ p.session fault db = (r, t.reduceOption)) ∨
      ∃ k e, fault = some (k, e) ∧ k < t.length ∧
        p.session fault db = (.error (sql e), (t.take k).reduceOption) := by
  by_cases hf : ∀ k e, fault = some (k, e) → t.length ≤ k
  · obtain ⟨hr, -, hh⟩ := h.start_of_le hf
    exact .inl ⟨hf, Prod.ext hr hh⟩
  · push Not at hf
    obtain ⟨k, e, rfl, hk⟩ := hf
    have hlt : k < t.length := by omega
    obtain ⟨hr, -, hh⟩ := h.start_of_lt (e := e) hlt
    exact .inr ⟨k, e, rfl, hlt, Prod.ext hr hh⟩

/-- A session commits nothing but what its trace commits. -/
theorem Does.mem_session (h : Does sql p db t r w) {fault : Option (ℕ × φ)} {s : σ}
    (hs : s ∈ (p.session fault db).2) : s ∈ t.reduceOption := by
  rcases h.session_cases fault with ⟨-, hsession⟩ | ⟨k, e, -, -, hsession⟩
  · rwa [hsession] at hs
  · rw [hsession] at hs
    exact ((List.take_sublist k t).filterMap id).subset hs

/-- A session that returns has committed all. -/
theorem Does.session_ok (h : Does sql p db t r w) {fault : Option (ℕ × φ)} {a : α}
    (ha : (p.session fault db).1 = .ok a) :
    r = .ok a ∧ (p.session fault db).2 = t.reduceOption := by
  rcases h.session_cases fault with ⟨-, hsession⟩ | ⟨k, e, -, -, hsession⟩
  · rw [hsession] at ha ⊢
    exact ⟨ha, rfl⟩
  · rw [hsession] at ha
    cases ha

/-- Something raises behind the `COMMIT` that follows on `n` statements and is followed by `m`. -/
def FailsBehind (n m : ℕ) (broken : Prop) : Option (ℕ × φ) → Prop
  | none => broken
  | some (k, _) => n < k ∧ (k ≤ n + m ∨ broken)

/-- A program that commits nothing leaves the committed state alone. -/
theorem Does.committed_of_no_commit {n : ℕ} (h : Does sql p db (List.replicate n none) r w)
    (fault : Option (ℕ × φ)) : (p.run (start db fault)).2.committed = db := by
  have hnone (n : ℕ) : (List.replicate n (none : Option σ)).reduceOption = [] := by
    simp [List.reduceOption]
  by_cases hf : ∀ k e, fault = some (k, e) → (List.replicate n (none : Option σ)).length ≤ k
  · obtain ⟨-, hb, hh⟩ := h.start_of_le hf
    rw [committed, hh, hb, hnone, List.getLastD_nil]
  · push Not at hf
    obtain ⟨k, e, rfl, hk⟩ := hf
    have hlt : k < (List.replicate n (none : Option σ)).length := by omega
    obtain ⟨-, hb, hh⟩ := h.start_of_lt (e := e) hlt
    rw [committed, hh, hb, List.take_replicate, hnone, List.getLastD_nil]

/-- A program with one commit raises and has changed the committed state exactly when what it
commits is new and something raises behind the commit. -/
theorem Does.raises_changed_iff {n m : ℕ} {v : σ}
    (h : Does sql p db (List.replicate n none ++ some v :: List.replicate m none) r w)
    (fault : Option (ℕ × φ)) :
    ((∃ e, (p.run (start db fault)).1 = .error e) ∧ (p.run (start db fault)).2.committed ≠ db) ↔
      v ≠ db ∧ FailsBehind n m (∃ e, r = .error e) fault := by
  have hnone (n : ℕ) : (List.replicate n (none : Option σ)).reduceOption = [] := by
    simp [List.reduceOption]
  set t := List.replicate n none ++ some v :: List.replicate m none with ht
  have hlen : t.length = n + (m + 1) := by simp [ht]
  have hall : t.reduceOption = [v] := by
    rw [ht, List.reduceOption_append, hnone, List.reduceOption_cons_of_some, hnone]
    rfl
  -- no fault inside the program, or one at statement `k`
  by_cases hf : ∀ k e, fault = some (k, e) → t.length ≤ k
  · obtain ⟨hr, hb, hh⟩ := h.start_of_le hf
    have hc : (p.run (start db fault)).2.committed = v := by
      rw [committed, hh, hall]
      rfl
    have hbehind : FailsBehind n m (∃ e, r = .error e) fault ↔ ∃ e, r = .error e := by
      rcases fault with _ | ⟨k, e⟩
      · rfl
      · have hle := hf k e rfl
        rw [hlen] at hle
        simp only [FailsBehind]
        constructor
        · rintro ⟨-, hk | hbroken⟩
          · omega
          · exact hbroken
        · exact fun hbroken => ⟨by omega, .inr hbroken⟩
    rw [hr, hc, hbehind, and_comm]
  · push Not at hf
    obtain ⟨k, e, rfl, hk⟩ := hf
    have hlt : k < t.length := by omega
    obtain ⟨hr, hb, hh⟩ := h.start_of_lt (e := e) hlt
    rw [hlen] at hlt
    have hc : (p.run (start db (some (k, e)))).2.committed = if n < k then v else db := by
      rw [committed, hh, hb, ht, List.take_append, List.take_replicate, List.reduceOption_append,
        hnone, List.nil_append, List.length_replicate]
      split_ifs with hnk
      · obtain ⟨j, rfl⟩ := Nat.exists_eq_add_of_lt hnk
        have hj : n + j + 1 - n = j + 1 := by omega
        rw [hj, List.take_succ_cons, List.reduceOption_cons_of_some, List.take_replicate, hnone]
        rfl
      · have hz : k - n = 0 := by omega
        rw [hz, List.take_zero]
        rfl
    rw [hr, hc]
    simp only [FailsBehind, Except.error.injEq, exists_eq', true_and]
    split_ifs with hnk
    · exact ⟨fun hv => ⟨hv, hnk, .inl (by omega)⟩, fun hv => hv.1⟩
    · exact ⟨fun hv => absurd rfl hv, fun hv => absurd hv.2.1 hnk⟩

theorem Tx.rescue_committed (c : Connection φ σ) :
    ((rescue handler p).run c).2.committed = (p.run c).2.committed := by
  obtain ⟨hh, hb, -⟩ := rescue_run (p := p) c
  rw [committed, committed, hh, hb]

/-- A refused call leaves the committed state alone. -/
theorem Refuses.committed_eq (h : Refuses sql p db) (fault : Option (ℕ × φ)) :
    ((rescue handler p).run (start db fault)).2.committed = db := by
  obtain ⟨n, e, w, hw⟩ := h
  rw [rescue_committed, hw.committed_of_no_commit fault]

/-- **A raise that has written nothing.**  A program that runs to its one commit leaves the
committed state alone whenever it raises, unless it commits something new and raises behind the
commit. -/
theorem Runs.raises_unchanged_iff {n m : ℕ} {v : σ}
    (h : Runs sql p db (List.replicate n none ++ some v :: List.replicate m none) r)
    (fault : Option (ℕ × φ)) :
    ((∃ e, ((rescue handler p).run (start db fault)).1 = .error e) →
        ((rescue handler p).run (start db fault)).2.committed = db) ↔
      ¬(v ≠ db ∧ FailsBehind n m (∃ e, r = .error e) fault) := by
  obtain ⟨w, hw⟩ := h
  have hraises : (∃ e, ((rescue handler p).run (start db fault)).1 = .error e) ↔
      ∃ e, (p.run (start db fault)).1 = .error e := by
    rw [(rescue_run _).2.2]
    cases (p.run (start db fault)).1 <;> simp [Except.mapError]
  rw [rescue_committed, hraises, ← hw.raises_changed_iff fault]
  simp only [not_and, not_not]

end Does

end TrackFlow
