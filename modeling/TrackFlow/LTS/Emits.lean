import Mathlib.Tactic.TypeStar

/-!
# Programs that emit events

A program runs against an environment that answers as it likes: what it emits is recorded, and an
answer may depend on all that was recorded before.  A program ends with a result, or it raises; what
it has emitted until then stays.

* `Eventful` : the programs, a monad; `emit`, `ask`, `raise`, `raiseUnless` : the primitive ones.
* `Emits x R` : `R` relates the result of `x` to the events that it emits, after any events.
* `Emits.bind` : a program is followed forwards, with the events it has emitted so far.
-/

namespace TrackFlow

/-- A program; its argument is what was recorded before it. -/
def Eventful (ε E α : Type*) := List ε → Except E α × List ε

namespace Eventful

universe u

variable {ε E : Type*} {α β : Type u}

instance : Monad (Eventful ε E) where
  pure a es := (.ok a, es)
  bind x f es :=
    match x es with
    | (.ok a, es) => f a es
    | (.error e, es) => (.error e, es)

def emit (event : ε) : Eventful ε E Unit := fun es => (.ok (), es ++ [event])

/-- The environment answers, and the event is recorded with the answer. -/
def ask (answer : List ε → α) (event : α → ε) : Eventful ε E α :=
  fun es => (.ok (answer es), es ++ [event (answer es)])

def raise (e : E) : Eventful ε E α := fun es => (.error e, es)

def raiseUnless (p : Bool) (e : E) : Eventful ε E PUnit.{u + 1} :=
  if p then pure ⟨⟩ else raise e

def ofExcept : Except E α → Eventful ε E α
  | .ok a => pure a
  | .error e => raise e

/-- What a program emits, beside its result. -/
def Emits (x : Eventful ε E α) (R : Except E α → List ε → Prop) : Prop :=
  ∀ es, ∃ new, (x es).2 = es ++ new ∧ R (x es).1 new

variable {x : Eventful ε E α} {f : α → Eventful ε E β} {Q R : Except E α → List ε → Prop}
  {S : Except E β → List ε → Prop}

theorem Emits.mono (h : Emits x Q) (hQ : ∀ r new, Q r new → R r new) : Emits x R := by
  intro es
  obtain ⟨new, hnew, hr⟩ := h es
  exact ⟨new, hnew, hQ _ _ hr⟩

/-- A program that starts with nothing recorded. -/
theorem Emits.run_nil {r : Except E α} {es : List ε} (h : Emits x R) (hrun : x [] = (r, es)) :
    R r es := by
  obtain ⟨new, hnew, hr⟩ := h []
  rw [hrun] at hnew hr
  obtain rfl : es = new := hnew
  exact hr

theorem emits_pure {a : α} (h : R (.ok a) []) : Emits (pure a : Eventful ε E α) R :=
  fun es => ⟨[], (List.append_nil es).symm, h⟩

theorem emits_raise {e : E} (h : R (.error e) []) : Emits (raise e : Eventful ε E α) R :=
  fun es => ⟨[], (List.append_nil es).symm, h⟩

theorem emits_emit {event : ε} {R : Except E Unit → List ε → Prop} (h : R (.ok ()) [event]) :
    Emits (emit event : Eventful ε E Unit) R :=
  fun _ => ⟨[event], rfl, h⟩

theorem emits_ask {answer : List ε → α} {event : α → ε} (h : ∀ a, R (.ok a) [event a]) :
    Emits (ask answer event : Eventful ε E α) R :=
  fun es => ⟨[event (answer es)], rfl, h _⟩

/-- **Composition.**  An error of the first program is one of the whole; its result is taken up
behind the events that it has emitted. -/
theorem Emits.bind (hx : Emits x Q) (herror : ∀ e new, Q (.error e) new → S (.error e) new)
    (hok : ∀ a new, Q (.ok a) new → Emits (f a) fun r behind => S r (new ++ behind)) :
    Emits (x >>= f) S := by
  intro es
  obtain ⟨new, hnew, hQ⟩ := hx es
  have hbind : (x >>= f) es = match x es with
    | (.ok a, es) => f a es
    | (.error e, es) => (.error e, es) := rfl
  rw [hbind]
  cases hrun : x es with
  | mk r es' =>
    rw [hrun] at hnew hQ
    obtain rfl : es' = es ++ new := hnew
    cases r with
    | error e => exact ⟨new, rfl, herror e new hQ⟩
    | ok a =>
      obtain ⟨behind, hbehind, hS⟩ := hok a new hQ (es ++ new)
      exact ⟨new ++ behind, hbehind.trans (List.append_assoc es new behind), hS⟩

/-- What follows a question, whatever the answer. -/
theorem emits_ask_bind {answer : List ε → α} {event : α → ε} {f : α → Eventful ε E β}
    (h : ∀ a, Emits (f a) fun r behind => S r ([event a] ++ behind)) :
    Emits (ask answer event >>= f) S := by
  refine Emits.bind (Q := fun r new => ∃ a, r = .ok a ∧ new = [event a])
    (emits_ask fun a => ⟨a, rfl, rfl⟩) ?_ ?_
  · rintro e new ⟨a, hr, -⟩
    cases hr
  · rintro a new ⟨_, hr, rfl⟩
    cases hr
    exact h a

/-- A check raises, or what follows may use it. -/
theorem emits_raiseUnless_bind {p : Bool} {e : E} {f : PUnit → Eventful ε E β}
    (herror : p = false → S (.error e) []) (hok : p = true → Emits (f ⟨⟩) S) :
    Emits (raiseUnless p e >>= f) S := by
  cases p with
  | true => exact hok rfl
  | false => exact fun es => ⟨[], (List.append_nil es).symm, herror rfl⟩

/-- What is computed without events raises, or what follows may use its value. -/
theorem emits_ofExcept_bind {y : Except E α} (herror : ∀ e, y = .error e → S (.error e) [])
    (hok : ∀ a, y = .ok a → Emits (f a) S) : Emits (ofExcept y >>= f) S := by
  cases y with
  | ok a => exact hok a rfl
  | error e => exact fun es => ⟨[], (List.append_nil es).symm, herror e rfl⟩

end Eventful

end TrackFlow
