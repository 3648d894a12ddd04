import Mathlib.Logic.Function.Basic
import Mathlib.Order.Nat
import Mathlib.Tactic.SplitIfs
import TrackFlow.LTS.Machine

/-!
# `useAutoRefresh`

The hook as a machine: every tick of the interval starts a request, whether or not earlier ones
have settled, and a promise may settle at any time after its request has started.  A change of the
dependencies replaces the effect, and what comes for a replaced effect is dropped.

* `next` : what happens next.
* `Hook.Newest` : the data shown come from the request started last, among some.
* `InOrder` : the responses that do not go back in time.
* `auto_refresh` : **the data are the newest as long as the responses come in order**, and no
  longer.
* `refresh_goes_back` : a slow response replaces a newer one.
-/

namespace TrackFlow

namespace Hooks

namespace AutoRefresh

/-! ## State -/

/-- A value, with the request that has loaded it. -/
structure Loaded (T : Type*) where
  request : ℕ
  value : T
  deriving DecidableEq, Repr

/-- What has become of a request. -/
inductive Status
  | pending
  | taken
  /-- It has succeeded, for an effect that had been replaced. -/
  | dropped
  | failed
  deriving DecidableEq, Repr

/-- A request: its effect, and whether a tick has started it. -/
structure Request where
  effect : ℕ
  background : Bool
  status : Status := .pending
  deriving DecidableEq, Repr

/-- The hook: the variable `active` of every effect, of which `current` was run last, the requests
started so far, and the states. -/
structure Hook (T : Type*) where
  mounted : Bool
  hidden : Bool
  active : ℕ → Bool
  current : ℕ
  request : ℕ → Request
  count : ℕ
  data : Option (Loaded T)
  error : String
  lastUpdated : Option ℕ

variable {T E : Type*}

namespace Hook

/-- `loading`. -/
def loading (s : Hook T) : Bool := s.data.isNone && s.error == ""

/-- `run`, up to its `then`. -/
def run (s : Hook T) (background : Bool) : Hook T :=
  { s with
    request := Function.update s.request s.count { effect := s.current, background := background }
    count := s.count + 1 }

/-- The promise of a request has settled. -/
def settle (s : Hook T) (r : ℕ) (status : Status) : Hook T :=
  { s with request := Function.update s.request r { s.request r with status := status } }

/-- The cleanup of an effect; its interval is cleared. -/
def cleanup (s : Hook T) : Hook T := { s with active := Function.update s.active s.current false }

/-- A new effect. -/
def launch (s : Hook T) : Hook T :=
  Hook.run { s with
    active := Function.update s.active (s.current + 1) true
    current := s.current + 1 } false

/-- The promise of the request is pending. -/
def InFlight (s : Hook T) (r : ℕ) : Prop := r < s.count ∧ (s.request r).status = .pending

instance (s : Hook T) (r : ℕ) : Decidable (s.InFlight r) := inferInstanceAs (Decidable (_ ∧ _))

/-- The loader has resolved. -/
def succeed (s : Hook T) (r : ℕ) (value : T) (now : ℕ) : Hook T :=
  if s.active (s.request r).effect then
    { s.settle r .taken with
      data := some ⟨r, value⟩
      error := ""
      lastUpdated := some now }
  else s.settle r .dropped

/-- The loader has rejected: the errors of ticks are swallowed. -/
def fail (mapError : Option (E → String)) (s : Hook T) (r : ℕ) (caught : E) : Hook T :=
  if s.active (s.request r).effect = true ∧ (s.request r).background = false then
    { s.settle r .failed with
      error := match mapError with
        | some mapError => mapError caught
        | none => "Something went wrong. Please try again." }
  else s.settle r .failed

end Hook

/-! ## Steps -/

/-- What happens next. -/
inductive Label (T E : Type*)
  /-- The loader of a request resolves, at a time. -/
  | succeed (r : ℕ) (value : T) (now : ℕ)
  /-- The loader of a request rejects. -/
  | fail (r : ℕ) (caught : E)
  /-- The interval of the effect fires. -/
  | tick
  /-- The dependencies have changed. -/
  | deps
  | visibility (hidden : Bool)
  | unmount

variable (mapError : Option (E → String))

/-- The state after a step. -/
def next (s : Hook T) : Label T E → Option (Hook T)
  | .succeed r value now => if s.InFlight r then some (s.succeed r value now) else none
  | .fail r caught => if s.InFlight r then some (s.fail mapError r caught) else none
  | .tick =>
    if s.active s.current then some (if s.hidden then s else s.run true) else none
  | .deps => if s.mounted then some s.cleanup.launch else none
  | .visibility hidden => some { s with hidden := hidden }
  | .unmount => if s.mounted then some { s.cleanup with mounted := false } else none

/-- The hook as a machine. -/
def machine : Machine (Hook T) (Label T E) := ⟨next mapError⟩

/-- The hook is mounted, and its effect is run. -/
def start (T : Type*) (hidden : Bool) : Hook T :=
  Hook.run
    { mounted := true
      hidden := hidden
      active := fun e => e = 0
      current := 0
      request := fun _ => { effect := 0, background := false }
      count := 0
      data := none
      error := ""
      lastUpdated := none } false

/-! ## The newest data -/

namespace Hook

/-- The result of the request was taken. -/
def Taken (s : Hook T) (r : ℕ) : Prop := (s.request r).status = .taken

/-- The promise of the request was resolved, whether or not its result was taken. -/
def Succeeded (s : Hook T) (r : ℕ) : Prop :=
  (s.request r).status = .taken ∨ (s.request r).status = .dropped

/-- The data come from the request started last, among those that satisfy `p`. -/
structure Newest (s : Hook T) (p : ℕ → Prop) : Prop where
  among : ∀ l ∈ s.data, p l.request
  newest : ∀ r, p r → ∃ l ∈ s.data, r ≤ l.request

end Hook

/-- The responses that the running effect takes come in the order of their requests. -/
def Ordered (s : Hook T) : Label T E → Prop
  | .succeed r _ _ => s.active (s.request r).effect = true → ∀ r' > r, ¬ s.Taken r'
  | _ => True

/-- A response that is taken is newer than those before it; one that is dropped is not. -/
def InOrder (s : Hook T) : Label T E → Prop
  | .succeed r _ _ =>
    (s.active (s.request r).effect = true → ∀ r' > r, ¬ s.Succeeded r') ∧
    (s.active (s.request r).effect = false → s.mounted = true → ∃ r' > r, s.Succeeded r')
  | _ => True

section

variable {mapError} {s s' : Hook T} {l : Label T E} {p p' : ℕ → Prop} {r : ℕ}

theorem status_settle_self (s : Hook T) (r : ℕ) (status : Status) :
    ((s.settle r status).request r).status = status := by
  simp only [Hook.settle, Function.update_self]

theorem status_settle_of_ne {r' : ℕ} (h : r' ≠ r) (status : Status) :
    ((s.settle r status).request r').status = (s.request r').status := by
  simp only [Hook.settle, Function.update_of_ne h]

/-- Requests that have not been started are as new. -/
def Hook.Fresh (s : Hook T) : Prop := ∀ r, s.count ≤ r → (s.request r).status = .pending

theorem Hook.Fresh.status_run (h : s.Fresh) (background : Bool) (r : ℕ) :
    ((s.run background).request r).status = (s.request r).status := by
  by_cases hr : r = s.count
  · subst hr
    simp only [Hook.run, Function.update_self, h s.count le_rfl]
  · simp only [Hook.run, Function.update_of_ne hr]

theorem Hook.Fresh.run (h : s.Fresh) (background : Bool) : (s.run background).Fresh := by
  intro r hr
  rw [h.status_run]
  exact h r ((Nat.le_succ _).trans hr)

theorem Hook.Fresh.settle (h : s.Fresh) (hr : r < s.count) (status : Status) :
    (s.settle r status).Fresh := by
  intro r' hr'
  rw [status_settle_of_ne (hr.trans_le hr').ne']
  exact h r' hr'

theorem fresh_start (hidden : Bool) : (start T hidden).Fresh := Hook.Fresh.run (fun _ _ => rfl) _

/-- A step in which no request succeeds. -/
structure Quiet (s s' : Hook T) : Prop where
  data : s'.data = s.data
  mounted : s'.mounted = true → s.mounted = true
  taken : ∀ r, s'.Taken r ↔ s.Taken r
  succeeded : ∀ r, s'.Succeeded r ↔ s.Succeeded r

theorem Hook.Fresh.quiet_run (h : s.Fresh) (background : Bool) : Quiet s (s.run background) := by
  refine ⟨rfl, id, fun r => ?_, fun r => ?_⟩
  · rw [Hook.Taken, h.status_run, Hook.Taken]
  · rw [Hook.Succeeded, h.status_run, Hook.Succeeded]

theorem quiet_settle_failed (hr : s.InFlight r) : Quiet s (s.settle r .failed) := by
  refine ⟨rfl, id, fun r' => ?_, fun r' => ?_⟩ <;> by_cases h : r' = r
  · subst h
    rw [Hook.Taken, status_settle_self, Hook.Taken, hr.2]
    decide
  · rw [Hook.Taken, status_settle_of_ne h, Hook.Taken]
  · subst h
    rw [Hook.Succeeded, status_settle_self, Hook.Succeeded, hr.2]
    decide
  · rw [Hook.Succeeded, status_settle_of_ne h, Hook.Succeeded]

/-- Only a success takes or drops a result. -/
theorem next_cases (h : s.Fresh) (hs : next mapError s l = some s') : s'.Fresh ∧
    ((∃ r value now, l = .succeed r value now ∧ s.InFlight r ∧ s' = s.succeed r value now) ∨
      Ordered s l ∧ InOrder s l ∧ Quiet s s') := by
  cases l <;> simp only [next, Option.ite_none_right_eq_some, Option.some.injEq] at hs
  case succeed r value now =>
    obtain ⟨hr, rfl⟩ := hs
    refine ⟨?_, .inl ⟨r, value, now, rfl, hr, rfl⟩⟩
    unfold Hook.succeed
    split_ifs
    · exact h.settle hr.1 .taken
    · exact h.settle hr.1 .dropped
  case fail r caught =>
    obtain ⟨hr, rfl⟩ := hs
    have hquiet := quiet_settle_failed hr
    unfold Hook.fail
    split_ifs
    · exact ⟨h.settle hr.1 .failed, .inr ⟨trivial, trivial,
        ⟨hquiet.data, hquiet.mounted, hquiet.taken, hquiet.succeeded⟩⟩⟩
    · exact ⟨h.settle hr.1 .failed, .inr ⟨trivial, trivial, hquiet⟩⟩
  case tick =>
    obtain ⟨-, rfl⟩ := hs
    split_ifs
    · exact ⟨h, .inr ⟨trivial, trivial, rfl, id, fun _ => .rfl, fun _ => .rfl⟩⟩
    · exact ⟨h.run true, .inr ⟨trivial, trivial, h.quiet_run true⟩⟩
  case deps =>
    obtain ⟨-, rfl⟩ := hs
    have hclean : Hook.Fresh { s.cleanup with
      active := Function.update s.cleanup.active (s.current + 1) true
      current := s.current + 1 } := h
    have hquiet := hclean.quiet_run false
    exact ⟨hclean.run false, .inr ⟨trivial, trivial,
      ⟨hquiet.data, hquiet.mounted, hquiet.taken, hquiet.succeeded⟩⟩⟩
  case visibility hidden =>
    subst hs
    exact ⟨h, .inr ⟨trivial, trivial, rfl, id, fun _ => .rfl, fun _ => .rfl⟩⟩
  case unmount =>
    obtain ⟨-, rfl⟩ := hs
    exact ⟨h, .inr ⟨trivial, trivial, rfl, nofun, fun _ => .rfl, fun _ => .rfl⟩⟩

/-- Where nothing succeeds, the newest data stay the newest. -/
theorem newest_congr (hdata : s'.data = s.data) (hp : ∀ r, p' r ↔ p r) :
    s'.Newest p' ↔ s.Newest p := by
  obtain rfl : p' = p := funext fun r => propext (hp r)
  constructor
  · rintro ⟨hamong, hnewest⟩
    rw [hdata] at hamong hnewest
    exact ⟨hamong, hnewest⟩
  · rintro ⟨hamong, hnewest⟩
    refine ⟨?_, ?_⟩ <;> rw [hdata]
    · exact hamong
    · exact hnewest

/-- Data that are replaced by those of `r` are the newest if no later request was ahead. -/
theorem newest_replaced {value : T} (hdata : s'.data = some ⟨r, value⟩) (hr : p' r)
    (hp : ∀ r' ≠ r, p' r' ↔ p r') : s'.Newest p' ↔ ∀ r' > r, ¬ p r' := by
  constructor
  · intro h r' hr' hpr'
    obtain ⟨l, hl, hle⟩ := h.newest r' ((hp r' hr'.ne').2 hpr')
    obtain rfl := Option.some.inj (hdata.symm.trans hl)
    exact absurd hle (Nat.not_le.2 hr')
  · intro h
    refine ⟨fun l hl => ?_, fun r' hr' => ⟨⟨r, value⟩, hdata, ?_⟩⟩
    · obtain rfl := Option.some.inj (hdata.symm.trans hl)
      exact hr
    · by_contra hlt
      have hgt : r' > r := Nat.lt_of_not_le hlt
      exact h r' hgt ((hp r' hgt.ne').1 hr')

/-- Data that are kept when `r` succeeds are still the newest if a later request was ahead. -/
theorem newest_kept (h : s.Newest p) (hdata : s'.data = s.data) (hr : p' r)
    (hp : ∀ r' ≠ r, p' r' ↔ p r') (hnot : ¬ p r) : s'.Newest p' ↔ ∃ r' > r, p r' := by
  constructor
  · intro h'
    obtain ⟨l, hl, hle⟩ := h'.newest r hr
    rw [hdata] at hl
    have hpl := h.among l hl
    have hne : r ≠ l.request := by
      intro heq
      rw [← heq] at hpl
      exact hnot hpl
    exact ⟨l.request, lt_of_le_of_ne hle hne, hpl⟩
  · rintro ⟨r', hgt, hr'⟩
    refine ⟨fun l hl => ?_, fun r'' hr'' => ?_⟩
    · rw [hdata] at hl
      by_cases heq : l.request = r
      · rw [heq]
        exact hr
      · exact (hp _ heq).2 (h.among l hl)
    · rw [hdata]
      by_cases heq : r'' = r
      · obtain ⟨l, hl, hle⟩ := h.newest r' hr'
        rw [heq]
        exact ⟨l, hl, hgt.le.trans hle⟩
      · exact h.newest r'' ((hp r'' heq).1 hr'')

/-- The requests whose promise was resolved, after a success. -/
theorem succeeded_settle {status : Status} (hr : s.InFlight r)
    (hstatus : status = .taken ∨ status = .dropped) :
    (s.settle r status).Succeeded r ∧ ¬ s.Succeeded r ∧
    ∀ r' ≠ r, (s.settle r status).Succeeded r' ↔ s.Succeeded r' := by
  refine ⟨?_, ?_, fun r' h => ?_⟩
  · rw [Hook.Succeeded, status_settle_self]
    exact hstatus
  · rw [Hook.Succeeded, hr.2]
    decide
  · rw [Hook.Succeeded, status_settle_of_ne h, Hook.Succeeded]

/-- **One step.**  The data stay the newest exactly if the step is in order. -/
theorem newest_next_iff (hfresh : s.Fresh) (h : s.mounted = true → s.Newest s.Succeeded)
    (hs : next mapError s l = some s') (hmounted : s'.mounted = true) :
    s'.Newest s'.Succeeded ↔ InOrder s l := by
  obtain ⟨-, ⟨r, value, now, rfl, hr, rfl⟩ | ⟨-, horder, hquiet⟩⟩ := next_cases hfresh hs
  · unfold InOrder
    by_cases hactive : s.active (s.request r).effect = true
    · obtain ⟨hself, -, hother⟩ := succeeded_settle hr (.inl rfl : Status.taken = .taken ∨ _)
      have hnew : (s.succeed r value now).Newest (s.succeed r value now).Succeeded ↔
          ∀ r' > r, ¬ s.Succeeded r' := by
        rw [Hook.succeed, if_pos hactive]
        exact newest_replaced rfl hself hother
      rw [hnew]
      exact ⟨fun hle => ⟨fun _ => hle, fun hoff => absurd hactive (Bool.eq_false_iff.1 hoff)⟩,
        fun horder => horder.1 hactive⟩
    · obtain ⟨hself, hnot, hother⟩ := succeeded_settle hr (.inr rfl : Status.dropped = .taken ∨ _)
      rw [Hook.succeed, if_neg hactive] at hmounted ⊢
      have hold : (s.settle r .dropped).Newest (s.settle r .dropped).Succeeded ↔
          ∃ r' > r, s.Succeeded r' := newest_kept (h hmounted) rfl hself hother hnot
      rw [hold]
      exact ⟨fun hgt => ⟨fun hon => absurd hon hactive, fun _ _ => hgt⟩,
        fun horder => horder.2 (Bool.eq_false_iff.2 hactive) hmounted⟩
  · rw [newest_congr hquiet.data hquiet.succeeded]
    exact ⟨fun _ => horder, fun _ => h (hquiet.mounted hmounted)⟩

theorem taken_settle_of_ne {r' : ℕ} (status : Status) (h : r' ≠ r) :
    (s.settle r status).Taken r' ↔ s.Taken r' := by
  rw [Hook.Taken, status_settle_of_ne h, Hook.Taken]

/-- Among the requests whose result was taken only the order of these counts. -/
theorem newest_taken_next (hfresh : s.Fresh) (h : s.Newest s.Taken) (horder : Ordered s l)
    (hs : next mapError s l = some s') : s'.Newest s'.Taken := by
  obtain ⟨-, ⟨r, value, now, rfl, hr, rfl⟩ | ⟨-, -, hquiet⟩⟩ := next_cases hfresh hs
  · unfold Hook.succeed
    split_ifs with hactive
    · have hself : (s.settle r .taken).Taken r := status_settle_self s r .taken
      exact (newest_replaced rfl hself fun _ => taken_settle_of_ne .taken).2 (horder hactive)
    · have hsame (r' : ℕ) : (s.settle r .dropped).Taken r' ↔ s.Taken r' := by
        by_cases hr' : r' = r
        · subst hr'
          rw [Hook.Taken, status_settle_self, Hook.Taken, hr.2]
          decide
        · exact taken_settle_of_ne .dropped hr'
      have hdropped : (s.settle r .dropped).Newest (s.settle r .dropped).Taken ↔
          s.Newest s.Taken := newest_congr rfl hsame
      exact hdropped.2 h
  · exact (newest_congr hquiet.data hquiet.taken).2 h

/-- Before anything has succeeded, no data are shown. -/
theorem newest_start (hidden : Bool) (p : Hook T → ℕ → Prop)
    (hp : ∀ r, ¬ p (start T hidden) r) : (start T hidden).Newest (p (start T hidden)) :=
  ⟨nofun, fun r hr => absurd hr (hp r)⟩

theorem pending_start (hidden : Bool) (r : ℕ) :
    ((start T hidden).request r).status = .pending := Hook.Fresh.status_run (fun _ _ => rfl) _ r

end

/-- **Auto-refresh shows the newest data exactly as long as the responses come in order.**  In a run
of steps that are in order, the data shown come from the request started last among those that have
succeeded; the first step out of order ends this.  The order of the responses that are taken is
enough for the data to be the newest of those taken: what is dropped for a replaced effect never
replaces anything. -/
theorem auto_refresh (T E : Type*) (mapError : Option (E → String)) (hidden : Bool) :
    (∀ s, (machine mapError).Run InOrder (start T hidden) s → s.mounted = true →
      s.Newest s.Succeeded) ∧
    (∀ s l s', (machine mapError).Run InOrder (start T hidden) s →
      next mapError s l = some s' → s'.mounted = true →
      (s'.Newest s'.Succeeded ↔ InOrder s l)) ∧
    ∀ s, (machine mapError).Run Ordered (start T hidden) s → s.Newest s.Taken := by
  have hrun (s : Hook T) (hs : (machine mapError).Run InOrder (start T hidden) s) :
      s.Fresh ∧ (s.mounted = true → s.Newest s.Succeeded) := by
    refine hs.invariant (fun s => s.Fresh ∧ (s.mounted = true → s.Newest s.Succeeded))
      ⟨fresh_start hidden, fun _ => newest_start hidden Hook.Succeeded fun r => ?_⟩
      fun s l s' h horder hs => ⟨(next_cases h.1 hs).1, fun hmounted => ?_⟩
    · rw [Hook.Succeeded, pending_start]
      decide
    · exact (newest_next_iff h.1 h.2 hs hmounted).2 horder
  refine ⟨fun s hs => (hrun s hs).2, fun s l s' hs hl hmounted => ?_, fun s hs => ?_⟩
  · exact newest_next_iff (hrun s hs).1 (hrun s hs).2 hl hmounted
  · have hinv : s.Fresh ∧ s.Newest s.Taken := by
      refine hs.invariant (fun s => s.Fresh ∧ s.Newest s.Taken)
        ⟨fresh_start hidden, newest_start hidden Hook.Taken fun r => ?_⟩
        fun s l s' h horder hs => ⟨(next_cases h.1 hs).1, newest_taken_next h.1 h.2 horder hs⟩
      rw [Hook.Taken, pending_start]
      decide
    exact hinv.2

/-- The first response comes in order. -/
theorem auto_refresh_first : ∃ s : Hook ℕ, s.data = some ⟨0, 7⟩ ∧ s.Newest s.Succeeded ∧
    s.Newest s.Taken := by
  have hpending := pending_start (T := ℕ) false
  have horder : InOrder (start ℕ false) (.succeed 0 7 1 : Label ℕ ℕ) := by
    refine ⟨fun _ r _ => ?_, nofun⟩
    rw [Hook.Succeeded, hpending]
    decide
  have hordered : Ordered (start ℕ false) (.succeed 0 7 1 : Label ℕ ℕ) := by
    intro _ r _
    rw [Hook.Taken, hpending]
    decide
  have hstep : next (none : Option (ℕ → String)) (start ℕ false) (.succeed 0 7 1) =
      some ((start ℕ false).succeed 0 7 1) := rfl
  have hrefresh := auto_refresh ℕ ℕ none false
  exact ⟨_, rfl, hrefresh.1 _ (Machine.Run.refl.tail horder hstep) rfl,
    hrefresh.2.2 _ (Machine.Run.refl.tail hordered hstep)⟩

/-- A tick starts a second request while the first one is pending.  Its response comes first, and
the response of the first request replaces it. -/
theorem refresh_goes_back :
    ∃ s, (machine (none : Option (ℕ → String))).Reachable (start ℕ false) s ∧ s.mounted = true ∧
      ¬ s.Newest s.Succeeded := by
  obtain ⟨s, hrun, hs⟩ := (machine (none : Option (ℕ → String))).exists_reachable (start ℕ false)
    [.tick, .succeed 1 20 2, .succeed 0 10 3]
    (fun s => s.mounted && decide (s.data = some ⟨0, 10⟩) &&
      decide ((s.request 1).status = .taken)) (by decide +kernel)
  simp only [Bool.and_eq_true, decide_eq_true_eq] at hs
  obtain ⟨⟨hmounted, hdata⟩, htaken⟩ := hs
  refine ⟨s, hrun, hmounted, fun hnew => ?_⟩
  obtain ⟨l, hl, hle⟩ := hnew.newest 1 (.inl htaken)
  obtain rfl := Option.some.inj (hdata.symm.trans hl)
  exact absurd hle (by decide)

end AutoRefresh

end Hooks

end TrackFlow
