import Mathlib.Algebra.Order.Ring.Rat
import Mathlib.Logic.Function.Basic
import TrackFlow.LTS.Machine

/-!
# `useResourcePolling`

The hook as a machine: the effects that it has run, each with its closure, the requests that they
have started, and the state that it shows.  Every promise may settle at any time after its request
has started, in any way, whatever has become of the request; a change of the scope is rendered
before its effects are run.

* `Hook.run`, `Hook.finish`, `Hook.onVisibility`, `Hook.cleanup` : the functions of an effect.
* `next` : what happens next.
* `Sound` : what holds of the requests and of the data shown, in every run.
* `Hook.Calm` : the effect that is on waits for a timer or for a request, unless an error is
  permanent; a success that comes after the deadline breaks it.
* `resource_polling` : **requests do not overlap, and no foreign data are shown; polling goes on
  unless a success comes after its deadline.**
* `polling_stalls` : such a success stops it.
-/

namespace TrackFlow

namespace Hooks

namespace Polling

/-! ## State -/

/-- What a loader rejects with: a `TypeError`, an error with a `status`, or another one. -/
inductive LoadError
  | network
  | status (status : ℤ)
  | other (message : String)
  deriving DecidableEq, Repr

/-- `isTransient`. -/
def isTransient : LoadError → Bool
  | .network => true
  | .status status => [502, 503, 504].contains status
  | .other _ => false

/-- A value, with the request that has loaded it. -/
structure Loaded (T : Type*) where
  request : ℕ
  value : T
  deriving DecidableEq, Repr

/-- `PollingResource`, with its scope. -/
structure Resource (T : Type*) where
  scope : String
  data : Option (Loaded T)
  error : String
  loading : Bool
  lastSuccess : Option ℕ
  retrying : Bool
  deriving DecidableEq, Repr

/-- `initial`, for a scope. -/
def initial (T : Type*) (scope : String) : Resource T := ⟨scope, none, "", true, none, false⟩

/-- What has become of a request. -/
inductive Outcome
  | succeeded
  | failed (retrying : Bool)
  /-- The request was aborted, or its effect was off. -/
  | ignored
  deriving DecidableEq, Repr

/-- The closure of an effect: its variables, the delay of its timer if one is pending, and the
outcome of its last request. -/
structure Effect where
  scope : String
  active : Bool := true
  failures : ℕ := 0
  timer : Option ℚ := none
  controller : Option ℕ := none
  refreshOnSettle : Bool := false
  last : Option Outcome := none
  deriving DecidableEq, Repr

/-- A request: its effect, its signal, and whether its promise has settled.  The deadline is
pending as long as it has neither timed out nor settled. -/
structure Request where
  effect : ℕ
  aborted : Bool := false
  timedOut : Bool := false
  settled : Bool := false
  deriving DecidableEq, Repr

/-- The hook: what is rendered, the effects, of which `current` was run last, and the requests
started so far. -/
structure Hook (T : Type*) where
  mounted : Bool
  hidden : Bool
  /-- The scope of the last rendering, and whether its effects have been run. -/
  scope : String
  flushed : Bool
  state : Resource T
  effect : ℕ → Effect
  current : ℕ
  request : ℕ → Request
  count : ℕ

variable {T : Type*}

namespace Hook

/-! ## The functions of an effect -/

/-- An assignment to the variables of an effect. -/
def setEffect (s : Hook T) (e : ℕ) (x : Effect) : Hook T :=
  { s with effect := Function.update s.effect e x }

/-- A change of a request. -/
def setRequest (s : Hook T) (r : ℕ) (x : Request) : Hook T :=
  { s with request := Function.update s.request r x }

/-- `setState`, and the rendering that follows it: a state of another scope is reset. -/
def setState (s : Hook T) (state : Resource T) : Hook T :=
  { s with state := if state.scope ≠ s.scope then initial T s.scope else state }

/-- `controller?.abort()`. -/
def abort (s : Hook T) (e : ℕ) : Hook T :=
  match (s.effect e).controller with
  | none => s
  | some r => s.setRequest r { s.request r with aborted := true }

/-- `run`, up to its `await`. -/
def run (s : Hook T) (e : ℕ) : Hook T :=
  if (s.effect e).active = false ∨ s.hidden = true ∨ (s.effect e).controller ≠ none then s
  else { s with
    effect := Function.update s.effect e { s.effect e with controller := some s.count }
    request := Function.update s.request s.count { effect := e }
    count := s.count + 1 }

/-- The promise of a request has settled, and `controller` is `null`. -/
def settle (s : Hook T) (r : ℕ) (outcome : Outcome) : Hook T :=
  let e := (s.request r).effect
  (s.setRequest r { s.request r with settled := true }).setEffect e
    { s.effect e with
      controller := none
      last := some outcome }

/-- The rest of the `finally`: polling goes on. -/
def resume (s : Hook T) (e : ℕ) (delay : Option ℚ) : Hook T :=
  let x := s.effect e
  if x.active = true ∧ s.hidden = false then
    if x.refreshOnSettle then (s.setEffect e { x with refreshOnSettle := false }).run e
    else
      match delay with
      | some delay => s.setEffect e { x with timer := some delay }
      | none => s
  else s

/-- The `finally` of `run`. -/
def finish (s : Hook T) (r : ℕ) (outcome : Outcome) (delay : Option ℚ) : Hook T :=
  (s.settle r outcome).resume (s.request r).effect delay

/-- `onVisibility`. -/
def onVisibility (s : Hook T) (e : ℕ) : Hook T :=
  let x := { s.effect e with timer := none, refreshOnSettle := false }
  if s.hidden then (s.setEffect e x).abort e
  else if x.controller ≠ none then s.setEffect e { x with refreshOnSettle := true }
  else (s.setEffect e x).run e

/-- The cleanup of an effect. -/
def cleanup (s : Hook T) (e : ℕ) : Hook T :=
  (s.setEffect e { s.effect e with active := false, timer := none }).abort e

/-- A new effect for the scope that is rendered. -/
def launch (s : Hook T) : Hook T :=
  ({ s with
    flushed := true
    current := s.current + 1 }.setEffect (s.current + 1) { scope := s.scope }).run (s.current + 1)

end Hook

/-- The bases of the delays behind failures. -/
def backoff (failures : ℕ) : ℚ := [2000, 4000, 8000, 16000, 30000].getD (min failures 4) 30000

/-! ## Steps -/

/-- What happens next. -/
inductive Label (T : Type*)
  /-- The loader of a request resolves, at a time. -/
  | succeed (r : ℕ) (value : T) (now : ℕ)
  /-- The loader of a request rejects; the jitter is drawn. -/
  | fail (r : ℕ) (error : LoadError) (random : ℚ)
  /-- The deadline of a request passes. -/
  | deadline (r : ℕ)
  /-- The timer of an effect fires. -/
  | fire (e : ℕ)
  | visibility (hidden : Bool)
  /-- The hook is rendered with another scope. -/
  | rescope (scope : String)
  /-- The effects of a rendering are run. -/
  | flush
  | unmount

/-- The promise of the request is pending. -/
def Hook.InFlight (s : Hook T) (r : ℕ) : Prop := r < s.count ∧ (s.request r).settled = false

instance (s : Hook T) (r : ℕ) : Decidable (s.InFlight r) := inferInstanceAs (Decidable (_ ∧ _))

/-- The loader has resolved. -/
def Hook.succeed (s : Hook T) (r : ℕ) (value : T) (now : ℕ) : Hook T :=
  let e := (s.request r).effect
  if (s.effect e).active = false ∨ (s.request r).aborted = true then s.finish r .ignored none
  else
    ((s.setEffect e { s.effect e with failures := 0 }).setState
      ⟨(s.effect e).scope, some ⟨r, value⟩, "", false, some now, false⟩).finish r .succeeded
        (some 20000)

/-- The loader has rejected. -/
def Hook.fail (mapError : LoadError → String) (s : Hook T) (r : ℕ) (error : LoadError)
    (random : ℚ) : Hook T :=
  let e := (s.request r).effect
  let x := s.effect e
  let timedOut := (s.request r).timedOut
  if x.active = false ∨ (s.request r).aborted = true ∧ timedOut = false then
    s.finish r .ignored none
  else
    let retrying := timedOut || isTransient error
    let previous := if s.state.scope = x.scope then s.state else initial T x.scope
    let state := { previous with
      loading := false
      error := if timedOut then "Request timed out. Please try again." else mapError error
      retrying := retrying }
    if retrying then
      ((s.setEffect e { x with failures := x.failures + 1 }).setState state).finish r (.failed true)
        (some (backoff x.failures * (4 / 5 + random * (2 / 5))))
    else (s.setState state).finish r (.failed false) none

variable (mapError : LoadError → String)

/-- The state after a step. -/
def next (s : Hook T) : Label T → Option (Hook T)
  | .succeed r value now => if s.InFlight r then some (s.succeed r value now) else none
  | .fail r error random => if s.InFlight r then some (s.fail mapError r error random) else none
  | .deadline r =>
    if s.InFlight r ∧ (s.request r).timedOut = false then
      some (s.setRequest r { s.request r with timedOut := true, aborted := true })
    else none
  | .fire e =>
    if (s.effect e).timer ≠ none then
      some ((s.setEffect e { s.effect e with timer := none }).run e)
    else none
  | .visibility hidden =>
    let s := { s with hidden := hidden }
    some (if (s.effect s.current).active then s.onVisibility s.current else s)
  | .rescope scope =>
    if s.mounted = true ∧ s.flushed = true ∧ scope ≠ s.scope then
      some { s with
        scope := scope
        flushed := false
        state := initial T scope }
    else none
  | .flush =>
    if s.mounted = true ∧ s.flushed = false then some (s.cleanup s.current).launch else none
  | .unmount =>
    if s.mounted = true then some { (s.cleanup s.current) with mounted := false } else none

/-- The hook as a machine. -/
def machine : Machine (Hook T) (Label T) := ⟨next mapError⟩

/-- The hook is mounted, and its effect is run. -/
def start (T : Type*) (scope : String) (hidden : Bool) : Hook T :=
  Hook.run
    { mounted := true
      hidden := hidden
      scope := scope
      flushed := true
      state := initial T scope
      effect := fun e => { scope := scope, active := e = 0 }
      current := 0
      request := fun _ => { effect := 0 }
      count := 0 } 0

/-- What the hook returns. -/
def Hook.shown (s : Hook T) : Resource T :=
  if s.state.scope ≠ s.scope then initial T s.scope else s.state

/-! ## Requests and data -/

/-- What holds of the requests and of the data shown. -/
structure Sound (s : Hook T) : Prop where
  controller : ∀ e r, (s.effect e).controller = some r → s.InFlight r ∧ (s.request r).effect = e
  inFlight : ∀ r, s.InFlight r → (s.effect (s.request r).effect).controller = some r
  bound : ∀ r < s.count, (s.request r).effect ≤ s.current
  active : ∀ e, (s.effect e).active = true → e = s.current
  scope : s.state.scope = s.scope
  /-- Only a request in flight is aborted, and data are of a request that has settled. -/
  loaded : ∀ l ∈ s.state.data, l.request < s.count ∧ (s.request l.request).settled = true ∧
    (s.request l.request).aborted = false ∧
    (s.effect (s.request l.request).effect).scope = s.state.scope

section

variable {mapError} {s s' : Hook T} {e e' r : ℕ} {x : Effect} {state : Resource T}
  {outcome : Outcome} {delay : Option ℚ}

theorem effect_setEffect_of_ne (h : e' ≠ e) : (s.setEffect e x).effect e' = s.effect e' :=
  Function.update_of_ne h _ _

theorem effect_setEffect_self : (s.setEffect e x).effect e = x := Function.update_self ..

/-- `run` does nothing, or it starts a request. -/
theorem run_cases (s : Hook T) (e : ℕ) : s.run e = s ∧
      ((s.effect e).active = false ∨ s.hidden = true ∨ (s.effect e).controller ≠ none) ∨
    ((s.effect e).active = true ∧ (s.effect e).controller = none) ∧ s.run e = { s with
      effect := Function.update s.effect e { s.effect e with controller := some s.count }
      request := Function.update s.request s.count { effect := e }
      count := s.count + 1 } := by
  unfold Hook.run
  split_ifs with h
  · exact .inl ⟨rfl, h⟩
  · rw [not_or, not_or, not_not, Bool.not_eq_false] at h
    exact .inr ⟨⟨h.1, h.2.2⟩, rfl⟩

/-- `abort` does nothing, or it aborts the request of the controller. -/
theorem abort_cases (s : Hook T) (e : ℕ) : (s.effect e).controller = none ∧ s.abort e = s ∨
    ∃ r, (s.effect e).controller = some r ∧
      s.abort e = s.setRequest r { s.request r with aborted := true } := by
  unfold Hook.abort
  cases h : (s.effect e).controller with
  | none => exact .inl ⟨rfl, rfl⟩
  | some r => exact .inr ⟨r, rfl, rfl⟩

/-- Variables other than the controller. -/
theorem Sound.setEffect (h : Sound s) (hcontroller : x.controller = (s.effect e).controller)
    (hscope : x.scope = (s.effect e).scope)
    (hactive : x.active = true → (s.effect e).active = true) : Sound (s.setEffect e x) := by
  have hkeep (e' : ℕ) : ((s.setEffect e x).effect e').controller = (s.effect e').controller ∧
      ((s.setEffect e x).effect e').scope = (s.effect e').scope ∧
      (((s.setEffect e x).effect e').active = true → (s.effect e').active = true) := by
    by_cases he : e' = e
    · rw [he, effect_setEffect_self]
      exact ⟨hcontroller, hscope, hactive⟩
    · rw [effect_setEffect_of_ne he]
      exact ⟨rfl, rfl, id⟩
  refine ⟨fun e' r hr => h.controller e' r ((hkeep e').1.symm.trans hr),
    fun r hr => (hkeep _).1.trans (h.inFlight r hr), h.bound,
    fun e' he' => h.active e' ((hkeep e').2.2 he'), h.scope, fun l hl => ?_⟩
  obtain ⟨hcount, hsettled, haborted, hloaded⟩ := h.loaded l hl
  exact ⟨hcount, hsettled, haborted, (hkeep _).2.1.trans hloaded⟩

/-- What becomes of a request in flight before it settles. -/
theorem Sound.setRequest {y : Request} (h : Sound s) (hr : s.InFlight r)
    (hsettled : y.settled = false) (heffect : y.effect = (s.request r).effect) :
    Sound (s.setRequest r y) := by
  have hkeep (r' : ℕ) : ((s.setRequest r y).request r').settled = (s.request r').settled ∧
      ((s.setRequest r y).request r').effect = (s.request r').effect := by
    by_cases hr' : r' = r
    · subst hr'
      simp only [Hook.setRequest, Function.update_self]
      exact ⟨hsettled.trans hr.2.symm, heffect⟩
    · simp only [Hook.setRequest, Function.update_of_ne hr', and_self]
  have hflight (r' : ℕ) : (s.setRequest r y).InFlight r' ↔ s.InFlight r' := by
    unfold Hook.InFlight
    rw [(hkeep r').1]
    exact Iff.rfl
  refine ⟨fun e' r' hr' => ?_, fun r' hr' => ?_, fun r' hr' => ?_, h.active, h.scope,
    fun l hl => ?_⟩
  · obtain ⟨hin, he⟩ := h.controller e' r' hr'
    exact ⟨(hflight r').2 hin, (hkeep r').2.trans he⟩
  · rw [(hkeep r').2]
    exact h.inFlight r' ((hflight r').1 hr')
  · rw [(hkeep r').2]
    exact h.bound r' hr'
  · obtain ⟨hcount, hloaded⟩ := h.loaded l hl
    have hne : l.request ≠ r := by
      intro heq
      rw [heq, hr.2] at hloaded
      cases hloaded.1
    have hsame : (s.setRequest r y).request l.request = s.request l.request :=
      Function.update_of_ne hne _ _
    rw [hsame]
    exact ⟨hcount, hloaded⟩

theorem Sound.abort (h : Sound s) (e : ℕ) : Sound (s.abort e) := by
  obtain ⟨-, hsame⟩ | ⟨r, hr, habort⟩ := abort_cases s e
  · rw [hsame]
    exact h
  · obtain ⟨hin, -⟩ := h.controller e r hr
    rw [habort]
    exact h.setRequest hin hin.2 rfl

theorem Sound.run (h : Sound s) (e : ℕ) : Sound (s.run e) := by
  obtain ⟨hsame, -⟩ | ⟨⟨hactive, hnone⟩, hrun⟩ := run_cases s e
  · rw [hsame]
    exact h
  rw [hrun]
  -- the requests that have been started are as they were
  have hold {r : ℕ} (hr : r < s.count) :
      Function.update s.request s.count { effect := e } r = s.request r :=
    Function.update_of_ne hr.ne _ _
  refine ⟨fun e' r hr => ?_, fun r hr => ?_, fun r hr => ?_, fun e' he' => ?_, h.scope,
    fun l hl => ?_⟩
  · by_cases he' : e' = e
    · subst he'
      simp only [Function.update_self, Option.some.injEq] at hr
      subst hr
      simp only [Hook.InFlight, Function.update_self, and_true]
      exact Nat.lt_succ_self _
    · simp only [Function.update_of_ne he'] at hr
      obtain ⟨⟨hlt, hsettled⟩, heffect⟩ := h.controller e' r hr
      simp only [Hook.InFlight, hold hlt]
      exact ⟨⟨Nat.lt_succ_of_lt hlt, hsettled⟩, heffect⟩
  · obtain ⟨hlt, hsettled⟩ := hr
    rcases Nat.lt_succ_iff_lt_or_eq.1 hlt with hlt | rfl
    · simp only [hold hlt] at hsettled ⊢
      have hcontroller := h.inFlight r ⟨hlt, hsettled⟩
      have hne : (s.request r).effect ≠ e := by
        rintro rfl
        rw [hnone] at hcontroller
        cases hcontroller
      rwa [Function.update_of_ne hne]
    · simp only [Function.update_self]
  · rcases Nat.lt_succ_iff_lt_or_eq.1 hr with hlt | rfl
    · simp only [hold hlt]
      exact h.bound r hlt
    · simp only [Function.update_self]
      exact (h.active e hactive).le
  · by_cases heq : e' = e
    · subst heq
      exact h.active e' hactive
    · simp only [Function.update_of_ne heq] at he'
      exact h.active e' he'
  · obtain ⟨hcount, hsettled, haborted, hscope⟩ := h.loaded l hl
    simp only [hold hcount]
    refine ⟨Nat.lt_succ_of_lt hcount, hsettled, haborted, ?_⟩
    by_cases he' : (s.request l.request).effect = e
    · rw [he', Function.update_self]
      rwa [he'] at hscope
    · rwa [Function.update_of_ne he']

theorem Sound.settle (h : Sound s) (hr : s.InFlight r) (outcome : Outcome) :
    Sound (s.settle r outcome) := by
  have hcontroller := h.inFlight r hr
  have hother {r' : ℕ} (hr' : r' ≠ r) :
      Function.update s.request r { s.request r with settled := true } r' = s.request r' :=
    Function.update_of_ne hr' _ _
  have heffect (r' : ℕ) : (Function.update s.request r
      { s.request r with settled := true } r').effect = (s.request r').effect := by
    by_cases hr' : r' = r
    · rw [hr', Function.update_self]
    · rw [hother hr']
  refine ⟨fun e r' hr' => ?_, fun r' hr' => ?_, fun r' hr' => ?_, fun e he' => ?_, h.scope,
    fun l hl => ?_⟩
  · by_cases he : e = (s.request r).effect
    · subst he
      simp only [Hook.settle, Hook.setRequest, Hook.setEffect, Function.update_self] at hr'
      cases hr'
    · simp only [Hook.settle, Hook.setRequest, Hook.setEffect, Function.update_of_ne he] at hr'
      obtain ⟨hin, heff⟩ := h.controller e r' hr'
      have hne : r' ≠ r := by
        rintro rfl
        exact he heff.symm
      simp only [Hook.InFlight, Hook.settle, Hook.setRequest, Hook.setEffect, hother hne]
      exact ⟨hin, heff⟩
  · obtain ⟨hlt, hsettled⟩ := hr'
    simp only [Hook.settle, Hook.setRequest, Hook.setEffect, heffect] at hlt hsettled ⊢
    have hne : r' ≠ r := by
      rintro rfl
      rw [Function.update_self] at hsettled
      cases hsettled
    rw [hother hne] at hsettled
    have hcontroller' := h.inFlight r' ⟨hlt, hsettled⟩
    have he : (s.request r').effect ≠ (s.request r).effect := by
      intro he
      rw [he, hcontroller] at hcontroller'
      exact hne (Option.some.inj hcontroller').symm
    rwa [Function.update_of_ne he]
  · simp only [Hook.settle, Hook.setRequest, Hook.setEffect, heffect]
    exact h.bound r' hr'
  · by_cases he : e = (s.request r).effect
    · subst he
      simp only [Hook.settle, Hook.setRequest, Hook.setEffect, Function.update_self] at he'
      exact h.active _ he'
    · simp only [Hook.settle, Hook.setRequest, Hook.setEffect, Function.update_of_ne he] at he'
      exact h.active e he'
  · obtain ⟨hcount, hsettled, haborted, hscope⟩ := h.loaded l hl
    have hne : l.request ≠ r := by
      intro heq
      rw [heq, hr.2] at hsettled
      cases hsettled
    simp only [Hook.settle, Hook.setRequest, Hook.setEffect, hother hne]
    refine ⟨hcount, hsettled, haborted, ?_⟩
    by_cases he : (s.request l.request).effect = (s.request r).effect
    · rw [he, Function.update_self]
      rwa [he] at hscope
    · rwa [Function.update_of_ne he]

theorem Sound.resume (h : Sound s) (e : ℕ) (delay : Option ℚ) : Sound (s.resume e delay) := by
  unfold Hook.resume
  simp only
  split_ifs
  · have hset := h.setEffect (x := { s.effect e with refreshOnSettle := false }) rfl rfl id
    exact hset.run e
  · cases delay with
    | none => exact h
    | some delay => exact h.setEffect rfl rfl id
  · exact h

theorem Sound.setState (h : Sound s) (hstate : state.scope = s.scope → ∀ l ∈ state.data,
      l.request < s.count ∧ (s.request l.request).settled = true ∧
      (s.request l.request).aborted = false ∧
      (s.effect (s.request l.request).effect).scope = state.scope) : Sound (s.setState state) := by
  refine ⟨h.controller, h.inFlight, h.bound, h.active, ?_, fun l hl => ?_⟩
  · simp only [Hook.setState]
    split_ifs with hscope
    · rfl
    · exact not_not.1 hscope
  · simp only [Hook.setState] at hl ⊢
    split_ifs at hl ⊢ with hscope
    · cases hl
    · exact hstate (not_not.1 hscope) l hl

/-- The failures of an effect. -/
def Hook.setFailures (s : Hook T) (e failures : ℕ) : Hook T :=
  s.setEffect e { s.effect e with failures := failures }

theorem scope_effect_setFailures (s : Hook T) (e e' failures : ℕ) :
    ((s.setFailures e failures).effect e').scope = (s.effect e').scope := by
  by_cases he : e' = e
  · subst he
    simp only [Hook.setFailures, effect_setEffect_self]
  · simp only [Hook.setFailures, effect_setEffect_of_ne he]

theorem Sound.setFailures (h : Sound s) (e failures : ℕ) : Sound (s.setFailures e failures) :=
  h.setEffect rfl rfl id

/-- A success is ignored, or it is shown and asks for a timer. -/
theorem succeed_cases (s : Hook T) (r : ℕ) (value : T) (now : ℕ) :
    ((s.effect (s.request r).effect).active = false ∨ (s.request r).aborted = true) ∧
      s.succeed r value now = s.finish r .ignored none ∨
    (s.request r).aborted = false ∧ ∃ state,
      state.scope = (s.effect (s.request r).effect).scope ∧ state.data = some ⟨r, value⟩ ∧
      s.succeed r value now =
        ((s.setFailures (s.request r).effect 0).setState state).finish r .succeeded
          (some 20000) := by
  unfold Hook.succeed
  simp only
  split_ifs with h
  · exact .inl ⟨h, rfl⟩
  · rw [not_or, Bool.not_eq_true] at h
    exact .inr ⟨h.2, _, rfl, rfl, rfl⟩

/-- An error is ignored, or it leaves the data of its own scope only; it asks for a timer unless it
is permanent. -/
theorem fail_cases (mapError : LoadError → String) (s : Hook T) (r : ℕ) (error : LoadError)
    (random : ℚ) :
    ((s.effect (s.request r).effect).active = false ∨
        (s.request r).aborted = true ∧ (s.request r).timedOut = false) ∧
      s.fail mapError r error random = s.finish r .ignored none ∨
    ∃ failures state outcome delay,
      (state.data = none ∨ state.data = s.state.data ∧ state.scope = s.state.scope) ∧
      (outcome = .failed false ∨ delay.isSome = true) ∧
      s.fail mapError r error random =
        ((s.setFailures (s.request r).effect failures).setState state).finish r outcome delay := by
  unfold Hook.fail
  by_cases hignored : (s.effect (s.request r).effect).active = false ∨
      (s.request r).aborted = true ∧ (s.request r).timedOut = false
  · exact .inl ⟨hignored, if_pos hignored⟩
  refine .inr ?_
  simp only [if_neg hignored]
  generalize hprevious : (if s.state.scope = (s.effect (s.request r).effect).scope then s.state
    else initial T (s.effect (s.request r).effect).scope) = previous
  have hdata : previous.data = none ∨
      previous.data = s.state.data ∧ previous.scope = s.state.scope := by
    rw [← hprevious]
    split_ifs
    · exact .inr ⟨rfl, rfl⟩
    · exact .inl rfl
  by_cases hretry : ((s.request r).timedOut || isTransient error) = true
  · rw [if_pos hretry]
    refine ⟨(s.effect (s.request r).effect).failures + 1, _, _, _, ?_, ?_, rfl⟩
    · exact hdata
    · exact .inr rfl
  · rw [if_neg hretry]
    have hself :
        s.setFailures (s.request r).effect (s.effect (s.request r).effect).failures = s := by
      rw [Hook.setFailures, Hook.setEffect, Function.update_eq_self]
    refine ⟨(s.effect (s.request r).effect).failures, { previous with
      loading := false
      error := if (s.request r).timedOut then "Request timed out. Please try again."
        else mapError error
      retrying := (s.request r).timedOut || isTransient error }, .failed false, none,
      hdata, .inl rfl, ?_⟩
    rw [hself]

theorem request_settle_self :
    (s.settle r outcome).request r = { s.request r with settled := true } := Function.update_self ..

theorem scope_effect_settle (s : Hook T) (r e : ℕ) (outcome : Outcome) :
    ((s.settle r outcome).effect e).scope = (s.effect e).scope := by
  by_cases he : e = (s.request r).effect
  · subst he
    simp only [Hook.settle, Hook.setRequest, effect_setEffect_self]
  · simp only [Hook.settle, effect_setEffect_of_ne he]
    rfl

theorem Sound.finish (h : Sound s) (hr : s.InFlight r) (outcome : Outcome) (delay : Option ℚ) :
    Sound (s.finish r outcome delay) :=
  (h.settle hr outcome).resume _ delay

/-- What is shown when a request settles is of this request, or it was shown before. -/
theorem Sound.setState_finish (h : Sound s) (hr : s.InFlight r)
    (failures : ℕ) (outcome : Outcome) (delay : Option ℚ)
    (hdata : ∀ l ∈ state.data, l.request = r ∧ (s.request r).aborted = false ∧
        state.scope = (s.effect (s.request r).effect).scope ∨
      l ∈ s.state.data ∧ state.scope = s.state.scope) :
    Sound (((s.setFailures (s.request r).effect failures).setState state).finish r
      outcome delay) := by
  have hset := h.setFailures (s.request r).effect failures
  have hsettle := hset.settle hr outcome
  -- the settlement and the rendering concern different fields
  have hstate : Sound
      (((s.setFailures (s.request r).effect failures).settle r outcome).setState state) := by
    refine hsettle.setState fun _ l hl => ?_
    obtain ⟨rfl, haborted, hscope⟩ | ⟨hmem, hscope⟩ := hdata l hl
    · rw [request_settle_self, scope_effect_settle, hscope]
      exact ⟨hr.1, rfl, haborted, scope_effect_setFailures ..⟩
    · rw [hscope]
      exact hsettle.loaded l hmem
  exact hstate.resume _ delay

theorem Sound.succeed (h : Sound s) (hr : s.InFlight r) (value : T) (now : ℕ) :
    Sound (s.succeed r value now) := by
  obtain ⟨-, hignored⟩ | ⟨haborted, state, hscope, hdata, hshown⟩ :=
    succeed_cases s r value now
  · rw [hignored]
    exact h.finish hr .ignored none
  · rw [hshown]
    refine h.setState_finish hr _ _ _ fun l hl => .inl ⟨?_, haborted, hscope⟩
    rw [hdata] at hl
    exact congrArg Loaded.request (Option.some.inj hl).symm

theorem Sound.fail (h : Sound s) (hr : s.InFlight r) (error : LoadError) (random : ℚ) :
    Sound (s.fail mapError r error random) := by
  obtain ⟨-, hignored⟩ | ⟨failures, state, outcome, delay, hdata, -, hshown⟩ :=
    fail_cases mapError s r error random
  · rw [hignored]
    exact h.finish hr .ignored none
  · rw [hshown]
    refine h.setState_finish hr _ _ _ fun l hl => .inr ?_
    obtain hnone | ⟨hsame, hscope⟩ := hdata
    · rw [hnone] at hl
      cases hl
    · rw [hsame] at hl
      exact ⟨hl, hscope⟩

theorem Sound.onVisibility (h : Sound s) (e : ℕ) : Sound (s.onVisibility e) := by
  have hset (refresh : Bool) := h.setEffect
    (x := { s.effect e with timer := none, refreshOnSettle := refresh }) rfl rfl id
  unfold Hook.onVisibility
  simp only
  split_ifs
  · exact (hset false).abort e
  · exact hset true
  · exact (hset false).run e

theorem Sound.cleanup (h : Sound s) (e : ℕ) : Sound (s.cleanup e) := by
  have hset := h.setEffect (x := { s.effect e with active := false, timer := none }) rfl rfl nofun
  exact hset.abort e

/-- An abort concerns the requests only. -/
theorem exists_abort_eq (s : Hook T) (e : ℕ) :
    ∃ request, s.abort e = { s with request := request } := by
  obtain ⟨-, hsame⟩ | ⟨r, -, habort⟩ := abort_cases s e
  · exact ⟨s.request, hsame⟩
  · exact ⟨_, habort⟩

theorem active_cleanup (s : Hook T) :
    ((s.cleanup s.current).effect (s.cleanup s.current).current).active = false := by
  obtain ⟨request, habort⟩ := exists_abort_eq
    (s.setEffect s.current { s.effect s.current with active := false, timer := none }) s.current
  rw [Hook.cleanup, habort]
  exact congrArg Effect.active effect_setEffect_self

/-- No request is of an effect that has not been run. -/
theorem Sound.launch (h : Sound s) (hoff : (s.effect s.current).active = false) :
    Sound s.launch := by
  have hold {r : ℕ} (hr : r < s.count) : (s.request r).effect ≠ s.current + 1 :=
    (Nat.lt_succ_of_le (h.bound r hr)).ne
  refine Sound.run ?_ (s.current + 1)
  refine ⟨fun e r hr => ?_, fun r hr => ?_, fun r hr => ?_, fun e he => ?_, h.scope,
    fun l hl => ?_⟩
  · by_cases he : e = s.current + 1
    · subst he
      simp only [Hook.setEffect, Function.update_self] at hr
      cases hr
    · simp only [Hook.setEffect, Function.update_of_ne he] at hr
      exact h.controller e r hr
  · simp only [Hook.setEffect, Function.update_of_ne (hold hr.1)]
    exact h.inFlight r hr
  · exact (h.bound r hr).trans (Nat.le_succ _)
  · by_cases heq : e = s.current + 1
    · exact heq
    · simp only [Hook.setEffect, Function.update_of_ne heq] at he
      rw [← h.active e he, he] at hoff
      cases hoff
  · obtain ⟨hcount, hsettled, haborted, hscope⟩ := h.loaded l hl
    simp only [Hook.setEffect, Function.update_of_ne (hold hcount)]
    exact ⟨hcount, hsettled, haborted, hscope⟩

/-- Requests and data stay sound, whatever happens. -/
theorem Sound.next {l : Label T} (h : Sound s) (hs : next mapError s l = some s') : Sound s' := by
  cases l <;> simp only [Polling.next, Option.ite_none_right_eq_some, Option.some.injEq] at hs
  case succeed r value now =>
    obtain ⟨hr, rfl⟩ := hs
    exact h.succeed hr value now
  case fail r error random =>
    obtain ⟨hr, rfl⟩ := hs
    exact h.fail hr error random
  case deadline r =>
    obtain ⟨⟨hr, -⟩, rfl⟩ := hs
    exact h.setRequest hr hr.2 rfl
  case fire e =>
    obtain ⟨-, rfl⟩ := hs
    have hset := h.setEffect (x := { s.effect e with timer := none }) rfl rfl id
    exact hset.run e
  case visibility hidden =>
    subst hs
    have hhidden : Sound { s with hidden := hidden } :=
      ⟨h.controller, h.inFlight, h.bound, h.active, h.scope, h.loaded⟩
    split_ifs
    · exact hhidden.onVisibility _
    · exact hhidden
  case rescope scope =>
    obtain ⟨-, rfl⟩ := hs
    exact ⟨h.controller, h.inFlight, h.bound, h.active, rfl, nofun⟩
  case flush =>
    obtain ⟨-, rfl⟩ := hs
    exact (h.cleanup _).launch (active_cleanup s)
  case unmount =>
    obtain ⟨-, rfl⟩ := hs
    have hclean := h.cleanup s.current
    exact ⟨hclean.controller, hclean.inFlight, hclean.bound, hclean.active, hclean.scope,
      hclean.loaded⟩

theorem sound_start (scope : String) (hidden : Bool) : Sound (start T scope hidden) := by
  refine Sound.run ⟨fun _ _ hr => ?_, fun r hr => ?_, fun r hr => ?_, fun e he => ?_, rfl,
    fun _ hl => ?_⟩ 0
  · cases hr
  · exact absurd hr.1 (Nat.not_lt_zero r)
  · exact absurd hr (Nat.not_lt_zero r)
  · exact decide_eq_true_iff.1 he
  · cases hl

theorem sound_of_run {G : Hook T → Label T → Prop} {scope : String} {hidden : Bool}
    (h : (machine mapError).Run G (start T scope hidden) s) : Sound s :=
  h.invariant Sound (sound_start scope hidden) fun _ _ _ hsound _ hs => hsound.next hs

end

/-! ## Polling goes on -/

/-- While the hook is mounted its effect is on, and an abort of its request has a reason for which
polling goes on. -/
structure Hook.Attentive (s : Hook T) : Prop where
  mounted : s.mounted = true → (s.effect s.current).active = true
  busy : (s.effect s.current).active = true → s.hidden = false →
    ∀ r, (s.effect s.current).controller = some r → (s.request r).aborted = true →
      (s.request r).timedOut = true ∨ (s.effect s.current).refreshOnSettle = true

/-- The effect that is on waits for a request or for a timer, unless an error is permanent. -/
structure Hook.Calm (s : Hook T) : Prop extends s.Attentive where
  idle : (s.effect s.current).active = true → s.hidden = false →
    (s.effect s.current).controller = none →
      (s.effect s.current).timer.isSome = true ∨ (s.effect s.current).last = some (.failed false)

/-- Before a success is taken, its deadline has not passed, or the effect does not depend on it: it
is off, the tab is hidden, or a refresh is pending. -/
def OnTime (s : Hook T) : Label T → Prop
  | .succeed r _ _ => (s.request r).timedOut = true →
    (s.effect (s.request r).effect).active = true → s.hidden = false →
      (s.effect (s.request r).effect).refreshOnSettle = true
  | _ => True

instance (s : Hook T) : (l : Label T) → Decidable (OnTime s l)
  | .succeed .. => inferInstanceAs (Decidable (_ → _ → _ → _))
  | .fail .. | .deadline _ | .fire _ | .visibility _ | .rescope _ | .flush | .unmount =>
    .isTrue trivial

section

variable {mapError} {s s' : Hook T} {e r : ℕ} {outcome : Outcome} {delay : Option ℚ}

/-- Steps that leave alone the effect that is on, and its request. -/
theorem Hook.Calm.of_same (h : s.Calm) (hmounted : s'.mounted = s.mounted)
    (hhidden : s'.hidden = s.hidden) (hcurrent : s'.current = s.current)
    (heffect : s'.effect s.current = s.effect s.current)
    (hrequest : ∀ r, (s.effect s.current).controller = some r →
      (s'.request r).aborted = (s.request r).aborted ∧
      (s'.request r).timedOut = (s.request r).timedOut) : s'.Calm := by
  refine ⟨⟨?_, ?_⟩, ?_⟩ <;> rw [hcurrent, heffect]
  · rw [hmounted]
    exact h.mounted
  · intro hactive hvisible r hr haborted
    obtain ⟨hsame, hsame'⟩ := hrequest r hr
    rw [hhidden] at hvisible
    rw [hsame] at haborted
    rw [hsame']
    exact h.busy hactive hvisible r hr haborted
  · rw [hhidden]
    exact h.idle

/-- Attention is enough for an effect that runs. -/
theorem Hook.Attentive.run (h : s.Attentive) : (s.run s.current).Calm := by
  obtain ⟨hsame, hoff⟩ | ⟨-, hrun⟩ := run_cases s s.current
  · rw [hsame]
    refine ⟨h, fun hactive hvisible hnone => ?_⟩
    obtain hoff | hhidden | hsome := hoff
    · rw [hoff] at hactive
      cases hactive
    · rw [hhidden] at hvisible
      cases hvisible
    · exact absurd hnone hsome
  · rw [hrun]
    refine ⟨⟨?_, ?_⟩, ?_⟩ <;> simp only [Function.update_self]
    · exact h.mounted
    · intro _ _ r hr haborted
      obtain rfl := Option.some.inj hr
      rw [Function.update_self] at haborted
      cases haborted
    · exact nofun

theorem Hook.Calm.run (h : s.Calm) (hsound : Sound s) (e : ℕ) : (s.run e).Calm := by
  by_cases he : e = s.current
  · rw [he]
    exact h.toAttentive.run
  obtain ⟨hsame, -⟩ | ⟨-, hrun⟩ := run_cases s e
  · rw [hsame]
    exact h
  · rw [hrun]
    refine h.of_same rfl rfl rfl (Function.update_of_ne (Ne.symm he) _ _) fun r hr => ?_
    have hlt := (hsound.controller _ r hr).1.1
    simp only [Function.update_of_ne hlt.ne, and_self]

/-- Another effect may change as it likes. -/
theorem Hook.Calm.setEffect_of_ne {x : Effect} (h : s.Calm) (he : e ≠ s.current) :
    (s.setEffect e x).Calm :=
  h.of_same rfl rfl rfl (effect_setEffect_of_ne (Ne.symm he)) fun _ _ => ⟨rfl, rfl⟩

theorem Hook.Calm.setFailures (h : s.Calm) (e failures : ℕ) : (s.setFailures e failures).Calm := by
  by_cases he : e = s.current
  · subst he
    refine ⟨⟨?_, ?_⟩, ?_⟩ <;> simp only [Hook.setFailures, Hook.setEffect, Function.update_self]
    · exact h.mounted
    · exact h.busy
    · exact h.idle
  · exact h.setEffect_of_ne he

theorem Hook.Calm.setState (h : s.Calm) (state : Resource T) : (s.setState state).Calm :=
  ⟨⟨h.mounted, h.busy⟩, h.idle⟩

theorem Hook.Calm.resume_of_ne (h : s.Calm) (hsound : Sound s) (he : e ≠ s.current)
    (delay : Option ℚ) : (s.resume e delay).Calm := by
  unfold Hook.resume
  simp only
  split_ifs
  · have hset := hsound.setEffect (x := { s.effect e with refreshOnSettle := false }) rfl rfl id
    exact (h.setEffect_of_ne he).run hset e
  · cases delay with
    | none => exact h
    | some delay => exact h.setEffect_of_ne he
  · exact h

/-- The effect whose request has settled refreshes at once, waits for a timer, or gives up. -/
theorem Hook.Attentive.resume (h : s.Attentive) (hnone : (s.effect s.current).controller = none)
    (hgoes : (s.effect s.current).active = true → s.hidden = false →
      (s.effect s.current).refreshOnSettle = true ∨ delay.isSome = true ∨
      (s.effect s.current).last = some (.failed false)) : (s.resume s.current delay).Calm := by
  unfold Hook.resume
  simp only
  split_ifs with hon hrefresh
  · refine Hook.Attentive.run (s := s.setEffect s.current _) ⟨?_, ?_⟩ <;>
      simp only [Hook.setEffect, Function.update_self]
    · exact h.mounted
    · intro _ _ r hr
      rw [hnone] at hr
      cases hr
  · cases delay with
    | some delay =>
      refine ⟨⟨?_, ?_⟩, ?_⟩ <;> simp only [Hook.setEffect, Function.update_self]
      · exact h.mounted
      · exact h.busy
      · exact fun _ _ _ => .inl rfl
    | none =>
      obtain hrefresh' | hdelay | hlast := hgoes hon.1 hon.2
      · exact absurd hrefresh' hrefresh
      · cases hdelay
      · exact ⟨h, fun _ _ _ => .inr hlast⟩
  · exact ⟨h, fun hactive hvisible => absurd ⟨hactive, hvisible⟩ hon⟩

/-- A settled request does not count any more, and the effect that has started it goes on. -/
theorem Hook.Calm.finish (h : s.Calm) (hsound : Sound s) (hr : s.InFlight r)
    (hgoes : (s.effect (s.request r).effect).active = true → s.hidden = false →
      (s.effect (s.request r).effect).refreshOnSettle = true ∨ delay.isSome = true ∨
      outcome = .failed false) : (s.finish r outcome delay).Calm := by
  by_cases he : (s.request r).effect = s.current
  · have hsettle : (s.settle r outcome).effect s.current =
        { s.effect s.current with controller := none, last := some outcome } := by
      rw [← he]
      exact effect_setEffect_self
    rw [he] at hgoes
    rw [Hook.finish, he]
    refine Hook.Attentive.resume (s := s.settle r outcome) ⟨?_, ?_⟩ ?_ ?_ <;>
      simp only [show (s.settle r outcome).current = s.current from rfl, hsettle]
    · exact h.mounted
    · exact fun _ _ _ hcontroller => nomatch hcontroller
    · intro hactive hvisible
      obtain hrefresh | hdelay | rfl := hgoes hactive hvisible
      · exact .inl hrefresh
      · exact .inr (.inl hdelay)
      · exact .inr (.inr rfl)
  · refine Hook.Calm.resume_of_ne ?_ (hsound.settle hr outcome) he delay
    refine h.of_same rfl rfl rfl (effect_setEffect_of_ne (Ne.symm he)) fun r' _ => ?_
    by_cases hr' : r' = r
    · subst hr'
      simp only [request_settle_self, and_self]
    · simp only [Hook.settle, Hook.setRequest, Hook.setEffect, Function.update_of_ne hr', and_self]

/-- Polling goes on in the same way, whatever is shown. -/
theorem run_setState (s : Hook T) (state : Resource T) (e : ℕ) :
    (s.setState state).run e = (s.run e).setState state := by
  unfold Hook.run
  rw [apply_ite (Hook.setState · state)]
  rfl

theorem finish_setState (s : Hook T) (state : Resource T) (r : ℕ) (outcome : Outcome)
    (delay : Option ℚ) :
    (s.setState state).finish r outcome delay = (s.finish r outcome delay).setState state := by
  unfold Hook.finish Hook.resume
  simp only [apply_ite (Hook.setState · state), ← run_setState]
  cases delay <;> rfl

/-- The request that settles has changed the failures of its effect, and what is shown. -/
theorem Hook.Calm.finish_setState (h : s.Calm) (hsound : Sound s) (hr : s.InFlight r)
    (failures : ℕ) (state : Resource T) (hgoes : outcome = .failed false ∨ delay.isSome = true) :
    (((s.setFailures (s.request r).effect failures).setState state).finish r
      outcome delay).Calm := by
  have hset := hsound.setFailures (s.request r).effect failures
  have hcalm := h.setFailures (s.request r).effect failures
  rw [Polling.finish_setState]
  exact (hcalm.finish hset hr fun _ _ => .inr hgoes.symm).setState state

/-- A request that is ignored has a reason for which polling goes on, unless its deadline has
passed. -/
theorem Hook.Calm.finish_ignored (h : s.Calm) (hsound : Sound s) (hr : s.InFlight r)
    (hignored : (s.effect (s.request r).effect).active = true → s.hidden = false →
      (s.request r).aborted = true ∧ ((s.request r).timedOut = true →
        (s.effect (s.request r).effect).refreshOnSettle = true)) :
    (s.finish r .ignored none).Calm := by
  refine h.finish hsound hr fun hactive hvisible => .inl ?_
  obtain ⟨haborted, hlate⟩ := hignored hactive hvisible
  have he := hsound.active _ hactive
  rw [he] at hactive hlate ⊢
  have hcontroller := hsound.inFlight r hr
  rw [he] at hcontroller
  obtain htimedOut | hrefresh := h.busy hactive hvisible r hcontroller haborted
  · exact hlate htimedOut
  · exact hrefresh

theorem Hook.Calm.succeed (h : s.Calm) (hsound : Sound s) (hr : s.InFlight r) (value : T) (now : ℕ)
    (hon : OnTime s (.succeed r value now)) : (s.succeed r value now).Calm := by
  obtain ⟨hcause, hignored⟩ | ⟨-, state, -, -, hshown⟩ := succeed_cases s r value now
  · rw [hignored]
    refine h.finish_ignored hsound hr fun hactive hvisible => ?_
    obtain hoff | haborted := hcause
    · rw [hoff] at hactive
      cases hactive
    · exact ⟨haborted, fun htimedOut => hon htimedOut hactive hvisible⟩
  · rw [hshown]
    exact h.finish_setState hsound hr 0 state (.inr rfl)

theorem Hook.Calm.fail (h : s.Calm) (hsound : Sound s) (hr : s.InFlight r) (error : LoadError)
    (random : ℚ) : (s.fail mapError r error random).Calm := by
  obtain ⟨hcause, hignored⟩ | ⟨failures, state, outcome, delay, -, hgoes, hshown⟩ :=
    fail_cases mapError s r error random
  · rw [hignored]
    refine h.finish_ignored hsound hr fun hactive _ => ?_
    obtain hoff | ⟨haborted, htimely⟩ := hcause
    · rw [hoff] at hactive
      cases hactive
    · rw [htimely]
      exact ⟨haborted, nofun⟩
  · rw [hshown]
    exact h.finish_setState hsound hr failures state hgoes

theorem Hook.Attentive.visibility (h : s.Attentive) (hidden : Bool) :
    (if (s.effect s.current).active then
        Hook.onVisibility { s with hidden := hidden } s.current
      else { s with hidden := hidden }).Calm := by
  by_cases hactive : (s.effect s.current).active = true
  swap
  · rw [if_neg hactive]
    exact ⟨⟨h.mounted, fun hon => absurd hon hactive⟩, fun hon => absurd hon hactive⟩
  rw [if_pos hactive]
  unfold Hook.onVisibility
  simp only
  split_ifs with hhidden hcontroller
  · -- nothing is asked of a hidden tab
    obtain ⟨request, habort⟩ := exists_abort_eq
      (Hook.setEffect { s with hidden := hidden } s.current
        { s.effect s.current with timer := none, refreshOnSettle := false }) s.current
    have hvisible : hidden ≠ false := by
      rw [hhidden]
      exact Bool.noConfusion
    rw [habort]
    refine ⟨⟨?_, fun _ hfalse => absurd hfalse hvisible⟩, fun _ hfalse => absurd hfalse hvisible⟩
    simp only [Hook.setEffect, Function.update_self]
    exact h.mounted
  · refine ⟨⟨?_, ?_⟩, ?_⟩ <;> simp only [Hook.setEffect, Function.update_self]
    · exact h.mounted
    · exact fun _ _ _ _ _ => .inr trivial
    · exact fun _ _ hnone => absurd hnone hcontroller
  · refine Hook.Attentive.run (s := Hook.setEffect { s with hidden := hidden } s.current _)
      ⟨?_, ?_⟩ <;> simp only [Hook.setEffect, Function.update_self]
    · exact h.mounted
    · intro _ _ r hr
      exact absurd (Option.some_ne_none r) (by rw [← hr]; exact hcontroller)

/-- Whatever happens, polling goes on, if no success comes after its deadline. -/
theorem Hook.Calm.next {l : Label T} (h : s.Calm) (hsound : Sound s) (hon : OnTime s l)
    (hs : next mapError s l = some s') : s'.Calm := by
  cases l <;> simp only [Polling.next, Option.ite_none_right_eq_some, Option.some.injEq] at hs
  case succeed r value now =>
    obtain ⟨hr, rfl⟩ := hs
    exact h.succeed hsound hr value now hon
  case fail r error random =>
    obtain ⟨hr, rfl⟩ := hs
    exact h.fail hsound hr error random
  case deadline r =>
    obtain ⟨⟨hr, -⟩, rfl⟩ := hs
    refine ⟨⟨h.mounted, fun hactive hvisible r' hr' haborted => ?_⟩, h.idle⟩
    by_cases heq : r' = r
    · subst heq
      simp only [Hook.setRequest, Function.update_self, true_or]
    · simp only [Hook.setRequest, Function.update_of_ne heq] at haborted ⊢
      exact h.busy hactive hvisible r' hr' haborted
  case fire e =>
    obtain ⟨-, rfl⟩ := hs
    by_cases he : e = s.current
    · subst he
      refine Hook.Attentive.run (s := s.setEffect s.current _) ⟨?_, ?_⟩ <;>
        simp only [Hook.setEffect, Function.update_self]
      · exact h.mounted
      · exact h.busy
    · have hset := hsound.setEffect (x := { s.effect e with timer := none }) rfl rfl id
      exact (h.setEffect_of_ne he).run hset e
  case visibility hidden =>
    subst hs
    exact h.toAttentive.visibility hidden
  case rescope scope =>
    obtain ⟨-, rfl⟩ := hs
    exact ⟨⟨h.mounted, h.busy⟩, h.idle⟩
  case flush =>
    obtain ⟨-, rfl⟩ := hs
    refine Hook.Attentive.run (s := Hook.setEffect _ _ _) ⟨?_, ?_⟩ <;>
      simp only [Hook.setEffect, Function.update_self]
    · exact fun _ => trivial
    · exact fun _ _ _ hr => nomatch hr
  case unmount =>
    obtain ⟨-, rfl⟩ := hs
    have hoff := active_cleanup s
    refine ⟨⟨nofun, fun hactive => ?_⟩, fun hactive => ?_⟩
    · exact absurd (hoff.symm.trans hactive) Bool.false_ne_true
    · exact absurd (hoff.symm.trans hactive) Bool.false_ne_true

theorem calm_start (scope : String) (hidden : Bool) : (start T scope hidden).Calm := by
  refine Hook.Attentive.run ⟨fun _ => rfl, fun _ _ r hr => ?_⟩
  cases hr

/-- **Polling neither overlaps nor shows foreign data, and it stalls through late successes only.**
In every run two requests of one effect are never in flight together, and the data shown are of a
request that was not aborted and of the scope that is rendered; in a run without a success that
comes after its deadline, a mounted, visible hook without a request in flight has a timer pending,
or its last error was permanent. -/
theorem resource_polling (T : Type*) (mapError : LoadError → String) (scope : String)
    (hidden : Bool) :
    (∀ s, (machine mapError).Reachable (start T scope hidden) s →
      (∀ r r', s.InFlight r → s.InFlight r' → (s.request r).effect = (s.request r').effect →
        r = r') ∧
      ∀ l ∈ s.shown.data, (s.request l.request).aborted = false ∧
        (s.effect (s.request l.request).effect).scope = s.scope) ∧
    ∀ s, (machine mapError).Run OnTime (start T scope hidden) s → s.mounted = true →
      s.hidden = false → (∀ r, s.InFlight r → (s.request r).effect ≠ s.current) →
      (s.effect s.current).timer.isSome = true ∨
        (s.effect s.current).last = some (.failed false) := by
  refine ⟨fun s hs => ?_, fun s hs hmounted hvisible hidle => ?_⟩
  · have hsound := sound_of_run hs
    refine ⟨fun r r' hr hr' heffect => ?_, fun l hl => ?_⟩
    · have hcontroller := hsound.inFlight r hr
      rw [heffect, hsound.inFlight r' hr'] at hcontroller
      exact (Option.some.inj hcontroller).symm
    · have hscope := hsound.scope
      rw [Hook.shown, if_neg (not_not.2 hscope)] at hl
      obtain ⟨-, -, haborted, hloaded⟩ := hsound.loaded l hl
      exact ⟨haborted, hloaded.trans hscope⟩
  · have hcalm : Sound s ∧ s.Calm := hs.invariant (fun s => Sound s ∧ s.Calm)
      ⟨sound_start scope hidden, calm_start scope hidden⟩
      fun _ _ _ h hon hs => ⟨h.1.next hs, h.2.next h.1 hon hs⟩
    obtain ⟨hsound, hcalm⟩ := hcalm
    refine hcalm.idle (hcalm.mounted hmounted) hvisible (Option.eq_none_iff_forall_ne_some.2 ?_)
    intro r hr
    obtain ⟨hin, heffect⟩ := hsound.controller _ r hr
    exact hidle r hin heffect

end

/-- A request has settled in time: its value is shown, and the timer for the next one is pending. -/
theorem resource_polling_success : ∃ s : Hook ℕ, s.shown.data = some (⟨0, 7⟩ : Loaded ℕ) ∧
    ((s.request 0).aborted = false ∧ (s.effect (s.request 0).effect).scope = s.scope) ∧
    ((s.effect s.current).timer.isSome = true ∨
      (s.effect s.current).last = some (.failed false)) := by
  obtain ⟨s, hrun, hs⟩ := (machine fun _ => "").exists_run
    (fun s l => decide (OnTime s l)) (start ℕ "24h" false) [.succeed 0 7 0]
    (fun s => s.mounted && !s.hidden && s.count == 1 && (s.request 0).settled &&
      decide (s.shown.data = some ⟨0, 7⟩)) (by decide +kernel)
  simp only [Bool.and_eq_true, Bool.not_eq_true', beq_iff_eq, decide_eq_true_eq] at hs
  obtain ⟨⟨⟨⟨hmounted, hvisible⟩, hcount⟩, hsettled⟩, hshown⟩ := hs
  have hidle (r : ℕ) : ¬ s.InFlight r := by
    rintro ⟨hlt, hr⟩
    rw [hcount, Nat.lt_one_iff] at hlt
    rw [hlt, hsettled] at hr
    cases hr
  have hpolling := resource_polling ℕ (fun _ => "") "24h" false
  refine ⟨s, hshown, (hpolling.1 s hrun.reachable).2 ⟨0, 7⟩ hshown, ?_⟩
  exact hpolling.2 s (hrun.mono fun _ _ hl => of_decide_eq_true hl) hmounted hvisible
    fun r hr => absurd hr (hidle r)

/-- A loader that ignores the abort of its deadline, and resolves: the hook is mounted and visible,
nothing is in flight, no timer is pending, and there was no permanent error. -/
theorem polling_stalls : ∃ s, (machine (fun _ => "")).Reachable (start ℕ "24h" false) s ∧
    s.mounted = true ∧ s.hidden = false ∧ (∀ r, ¬ s.InFlight r) ∧
    (s.effect s.current).timer = none ∧ (s.effect s.current).last ≠ some (.failed false) := by
  obtain ⟨s, hrun, hs⟩ := (machine fun _ => "").exists_reachable (start ℕ "24h" false)
    [.deadline 0, .succeed 0 7 20000]
    (fun s => s.mounted && !s.hidden && s.count == 1 && (s.request 0).settled &&
      decide ((s.effect s.current).timer = none ∧
        (s.effect s.current).last ≠ some (.failed false))) (by decide +kernel)
  simp only [Bool.and_eq_true, Bool.not_eq_true', beq_iff_eq, decide_eq_true_eq] at hs
  obtain ⟨⟨⟨⟨hmounted, hvisible⟩, hcount⟩, hsettled⟩, hstalled⟩ := hs
  refine ⟨s, hrun, hmounted, hvisible, ?_, hstalled⟩
  rintro r ⟨hlt, hr⟩
  rw [hcount, Nat.lt_one_iff] at hlt
  rw [hlt, hsettled] at hr
  cases hr

end Polling

end Hooks

end TrackFlow
