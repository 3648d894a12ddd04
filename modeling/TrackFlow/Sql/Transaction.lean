import Mathlib.Tactic.SplitIfs

/-!
# One transaction and its rollback

A `Tx` is a program of SQL statements that run one after another on a working copy `σ` of the
database; the first one that raises ends the program and leaves the working copy as it is then.
`transact` runs it as one transaction: `COMMIT` makes the working copy the database, and
whatever is raised, by a statement or by `COMMIT`, rolls back to the database before.

`Tx.bind_eq_ok` takes a program apart at its first statement.
-/

namespace TrackFlow

universe u

/-- A program of statements: what it returns or raises, and the working copy it leaves. -/
structure Tx (ε σ α : Type*) where
  /-- Run the program on a working copy. -/
  run : σ → Except ε α × σ

namespace Tx

variable {ε σ : Type*} {α β : Type u}

instance : Monad (Tx ε σ) where
  pure a := ⟨fun s => (.ok a, s)⟩
  bind x f := ⟨fun s =>
    match x.run s with
    | (.ok a, s') => (f a).run s'
    | (.error e, s') => (.error e, s')⟩

/-- Raise an exception. -/
def raise (e : ε) : Tx ε σ α := ⟨fun s => (.error e, s)⟩

/-- One statement, which fails when `fault` says so. -/
def statement (fault : Option ε) (f : σ → Except ε (α × σ)) : Tx ε σ α := ⟨fun s =>
  match fault with
  | some e => (.error e, s)
  | none =>
    match f s with
    | .ok (a, s') => (.ok a, s')
    | .error e => (.error e, s)⟩

/-- Run a program as one transaction. -/
def transact (fault : Option ε) (body : Tx ε σ α) (s : σ) : Except ε α × σ :=
  match body.run s with
  | (.ok a, s') =>
    match fault with
    | some e => (.error e, s)
    | none => (.ok a, s')
  | (.error e, _) => (.error e, s)

theorem statement_eq_ok {fault : Option ε} {f : σ → Except ε (α × σ)} {s s' : σ} {a : α} :
    (statement fault f).run s = (.ok a, s') ↔ fault = none ∧ f s = .ok (a, s') := by
  unfold statement
  cases fault with
  | some e => simp
  | none => cases h : f s <;> simp [h, Prod.ext_iff]

/-- A program that returns has returned from its first statement. -/
theorem bind_eq_ok {x : Tx ε σ α} {f : α → Tx ε σ β} {s s' : σ} {b : β} :
    (x >>= f).run s = (.ok b, s') ↔
      ∃ a s₁, x.run s = (.ok a, s₁) ∧ (f a).run s₁ = (.ok b, s') := by
  have hbind : (x >>= f).run s = match x.run s with
      | (.ok a, s₁) => (f a).run s₁
      | (.error e, s₁) => (.error e, s₁) := rfl
  rw [hbind]
  rcases x.run s with ⟨r | r, s₁⟩
  · simp
  · simp [and_assoc]

theorem pure_eq_ok {s s' : σ} {a b : α} :
    (pure a : Tx ε σ α).run s = (.ok b, s') ↔ a = b ∧ s = s' := by
  change ((.ok a, s) : Except ε α × σ) = _ ↔ _
  simp

theorem raise_ne_ok {e : ε} {s s' : σ} {b : α} : (raise e : Tx ε σ α).run s ≠ (.ok b, s') := by
  simp [raise]

theorem transact_eq_ok {fault : Option ε} {body : Tx ε σ α} {s s' : σ} {a : α} :
    transact fault body s = (.ok a, s') ↔ fault = none ∧ body.run s = (.ok a, s') := by
  unfold transact
  rcases body.run s with ⟨r | r, s₁⟩
  · simp
  · cases fault <;> simp

/-- **Atomicity.**  A transaction that raises leaves the database as it was. -/
theorem transact_of_error {fault : Option ε} {body : Tx ε σ α} {s s' : σ} {e : ε}
    (h : transact fault body s = (.error e, s')) : s' = s := by
  unfold transact at h
  rcases hb : body.run s with ⟨r | r, s₁⟩
  · rw [hb] at h
    exact (Prod.mk.inj h).2.symm
  · rw [hb] at h
    cases fault with
    | none => cases h
    | some e => exact (Prod.mk.inj h).2.symm

end Tx

end TrackFlow
