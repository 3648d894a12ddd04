import TrackFlow.LTS.Machine
import TrackFlow.Realtime.Subscription

/-!
# A subscription and its event loop

One `RealtimeSubscription`, to which any threads publish, and which any tasks of one event loop
consume.  A step is a block under the lock of the subscription, or what the loop does between two
awaits.  `_notify` is scheduled with the loop from any thread, and wakes what waits for `_wake`.

The state also keeps what the class does not: how many events were accepted and delivered, and for
every accepted event whether it met a full queue.

* `Sound` : the invariant; `Sound.next` is one step.
* `subscription_accounting` : **the account of a subscription, and no wake-up is lost.**
-/

namespace TrackFlow

namespace Realtime

/-- What the event loop is doing. -/
inductive LoopState (ι : Type*)
  | free
  /-- Task `i` has found nothing and cleared the flag; it calls `wait` next. -/
  | parking (i : ι)
  /-- `_notify` has released the lock; it sets the flag next. -/
  | notifying
  | closed
  deriving DecidableEq, Repr

/-- Where a task is. -/
inductive TaskPhase
  /-- Not in `receive`. -/
  | idle
  /-- Waiting for the flag. -/
  | waiting
  /-- The flag was set; the task runs again. -/
  | woken
  deriving DecidableEq, Repr

/-- A subscription to events `α` with its consumers `ι`. -/
structure Consumption (α ι : Type*) where
  subscription : Subscription α
  wake : Bool
  wakeScheduled : Bool
  /-- The calls of `_notify` that are scheduled and have not begun. -/
  notifications : ℕ
  loop : LoopState ι
  phase : ι → TaskPhase
  /-- The events that `offer` took. -/
  accepted : ℕ
  /-- The events that `receive` returned. -/
  delivered : ℕ
  /-- For every accepted event whether it met a full queue, newest first. -/
  overflows : List Bool
  /-- `offer` closed the subscription. -/
  evicted : Bool

/-- What happens next. -/
inductive ConsumptionStep (α ι : Type*)
  | offer (e : α)
  | close
  | beginNotify
  | endNotify
  /-- One round of `receive`. -/
  | take (i : ι)
  /-- `await self._wake.wait()`. -/
  | park (i : ι)
  /-- The task is cancelled while it awaits. -/
  | cancel (i : ι)
  /-- The loop ends, which cancels its tasks first. -/
  | closeLoop
  deriving DecidableEq, Repr

/-- The overflows since an event last met room. -/
def overflowRun (overflows : List Bool) : ℕ := (overflows.takeWhile id).length

namespace Consumption

variable {α ι : Type*}

/-- A new subscription. -/
def initial : Consumption α ι :=
  ⟨.new, false, false, 0, .free, fun _ => .idle, 0, 0, [], false⟩

variable [DecidableEq ι]

/-- `_schedule_wake_locked`; a closed loop refuses the call. -/
def scheduleWake (s : Consumption α ι) : Consumption α ι :=
  if s.wakeScheduled then s
  else if s.loop = .closed then s
  else { s with wakeScheduled := true, notifications := s.notifications + 1 }

/-- `offer`. -/
def offer (limits : Limits) (e : α) (s : Consumption α ι) : Consumption α ι :=
  if s.subscription.closed then s
  else scheduleWake { s with
    subscription := s.subscription.offer limits e
    accepted := s.accepted + 1
    overflows := decide (s.subscription.items.length = limits.capacity) :: s.overflows
    evicted := (s.subscription.offer limits e).closed }

/-- `close`. -/
def close (s : Consumption α ι) : Consumption α ι :=
  scheduleWake { s with subscription := s.subscription.close }

/-- One round of `receive`, up to the `await`. -/
def take (i : ι) (s : Consumption α ι) : Consumption α ι :=
  match s.subscription.receive with
  | .event _ rest =>
    { s with
      subscription := rest, delivered := s.delivered + 1
      phase := Function.update s.phase i .idle }
  | .subscriptionClosed => { s with phase := Function.update s.phase i .idle }
  | .waits =>
    { s with wake := false, loop := .parking i, phase := Function.update s.phase i .idle }

/-- The state after a step; the loop does one thing at a time. -/
def next (limits : Limits) (s : Consumption α ι) :
    ConsumptionStep α ι → Option (Consumption α ι)
  | .offer e => some (s.offer limits e)
  | .close => some s.close
  | .beginNotify =>
    if s.loop = .free ∧ 0 < s.notifications then
      some { s with
        notifications := s.notifications - 1, wakeScheduled := false, loop := .notifying }
    else none
  | .endNotify =>
    if s.loop = .notifying then
      some { s with
        wake := true, loop := .free
        phase := fun i => if s.phase i = .waiting then .woken else s.phase i }
    else none
  | .take i => if s.loop = .free ∧ s.phase i ≠ .waiting then some (s.take i) else none
  | .park i =>
    if s.loop = .parking i then
      some { s with
        loop := .free
        phase := Function.update s.phase i (if s.wake then .woken else .waiting) }
    else none
  | .cancel i =>
    if s.loop = .free then some { s with phase := Function.update s.phase i .idle } else none
  | .closeLoop =>
    if s.loop = .free then
      some { s with notifications := 0, loop := .closed, phase := fun _ => .idle }
    else none

/-- A `_notify` is scheduled or running. -/
def NotificationScheduled (s : Consumption α ι) : Prop :=
  0 < s.notifications ∨ s.loop = .notifying

end Consumption

/-- The machine of one subscription. -/
def consumption (α ι : Type*) [DecidableEq ι] (limits : Limits) :
    Machine (Consumption α ι) (ConsumptionStep α ι) := ⟨Consumption.next limits⟩

namespace Consumption

variable {α ι : Type*} {limits : Limits}

/-! ## The account -/

/-- The account of a subscription: what its state says about the events so far. -/
structure Account (limits : Limits) (s : Consumption α ι) : Prop where
  bounded : s.subscription.items.length ≤ limits.capacity
  balance : s.subscription.closed = false →
    s.accepted = s.delivered + s.subscription.droppedEvents + s.subscription.items.length
  counter : s.subscription.consecutiveOverflows = overflowRun s.overflows
  below : overflowRun s.overflows ≤ limits.overflowThreshold
  evicted : s.evicted = true ↔ overflowRun s.overflows = limits.overflowThreshold
  closed : s.evicted = true → s.subscription.closed = true
  empty : s.subscription.closed = true → s.subscription.items = []

/-- What the wake-up needs: if a task has something to find, the flag is set or will be. -/
structure Alarm (s : Consumption α ι) : Prop where
  scheduled : s.wakeScheduled = true → s.loop ≠ .closed → 0 < s.notifications
  due : s.subscription.items ≠ [] ∨ s.subscription.closed = true →
    s.wake = true ∨ s.NotificationScheduled ∨ s.loop = .closed
  ended : s.loop = .closed → ∀ i, s.phase i ≠ .waiting

/-- The invariant. -/
structure Sound (limits : Limits) (s : Consumption α ι) : Prop where
  account : Account limits s
  alarm : Alarm s

theorem sound_initial (limits : Limits) : Sound limits (initial : Consumption α ι) := by
  have hpos := limits.overflowThreshold_pos
  refine ⟨⟨Nat.zero_le _, fun _ => rfl, rfl, Nat.zero_le _, ?_, ?_, fun _ => rfl⟩, ?_, ?_, ?_⟩
  · simp only [initial, overflowRun, List.takeWhile_nil, List.length_nil]
    exact ⟨fun h => (nomatch h), fun h => by omega⟩
  · exact fun h => nomatch h
  · exact fun h => nomatch h
  · rintro (h | h)
    · exact absurd rfl h
    · cases h
  · exact fun h => nomatch h

variable {s s' : Consumption α ι}

/-- The account is about the subscription and the four counts. -/
theorem Account.congr (h : Account limits s) (hsub : s'.subscription = s.subscription)
    (haccepted : s'.accepted = s.accepted) (hdelivered : s'.delivered = s.delivered)
    (hoverflows : s'.overflows = s.overflows) (hevicted : s'.evicted = s.evicted) :
    Account limits s' := by
  obtain ⟨bounded, balance, counter, below, evicted, closed, empty⟩ := h
  constructor <;> simpa only [hsub, haccepted, hdelivered, hoverflows, hevicted]

theorem overflowRun_cons (full : Bool) (overflows : List Bool) :
    overflowRun (full :: overflows) = if full then overflowRun overflows + 1 else 0 := by
  cases full <;> simp [overflowRun]

/-- An offer to an open subscription. -/
theorem Account.offer (h : Account limits s) (hopen : s.subscription.closed = false) (e : α) :
    Account limits { s with
      subscription := s.subscription.offer limits e
      accepted := s.accepted + 1
      overflows := decide (s.subscription.items.length = limits.capacity) :: s.overflows
      evicted := (s.subscription.offer limits e).closed } := by
  have hrun : overflowRun (decide (s.subscription.items.length = limits.capacity) ::
      s.overflows) = s.subscription.overflowsAfter limits := by
    simp only [overflowRun_cons, decide_eq_true_eq, Subscription.overflowsAfter, h.counter]
  -- the threshold has not been reached before
  have hbefore : overflowRun s.overflows < limits.overflowThreshold := by
    refine lt_of_le_of_ne h.below fun heq => ?_
    rw [h.closed (h.evicted.2 heq)] at hopen
    cases hopen
  have hafter : s.subscription.overflowsAfter limits ≤ limits.overflowThreshold := by
    unfold Subscription.overflowsAfter
    rw [h.counter]
    split_ifs <;> omega
  refine ⟨Subscription.length_items_offer_le h.bounded, fun hopen' => ?_, ?_, ?_, ?_, id,
    Subscription.items_of_offer_closed hopen⟩
  · have hbalance := h.balance hopen
    have hdropped := Subscription.droppedEvents_offer hopen'
    simp only
    omega
  · rw [hrun]
    exact Subscription.consecutiveOverflows_offer hopen
  · rw [hrun]
    exact hafter
  · rw [hrun]
    simp only [Subscription.offer_closed_iff, Subscription.Evicts, hopen, true_and,
      Bool.false_eq_true, false_or, ← Subscription.overflowThreshold_le_overflowsAfter]
    omega

theorem Account.close (h : Account limits s) :
    Account limits { s with subscription := s.subscription.close } := by
  refine ⟨?_, ?_, ?_, h.below, h.evicted, fun _ => Subscription.closed_close, fun _ => ?_⟩
  · exact (Subscription.items_close_sublist.length_le).trans h.bounded
  · intro hopen
    rw [Subscription.closed_close] at hopen
    cases hopen
  · unfold Subscription.close
    split_ifs <;> exact h.counter
  · unfold Subscription.close
    split_ifs with hclosed
    · exact h.empty hclosed
    · rfl

theorem Account.receive (h : Account limits s) {e : α} {rest : Subscription α}
    (hr : s.subscription.receive = .event e rest) :
    Account limits { s with subscription := rest, delivered := s.delivered + 1 } := by
  obtain ⟨hitems, hclosed⟩ := Subscription.receive_eq_event hr
  have hlength : s.subscription.items.length = rest.items.length + 1 := by
    rw [hitems, List.length_cons]
  have hcounts : rest.consecutiveOverflows = s.subscription.consecutiveOverflows ∧
      rest.droppedEvents = s.subscription.droppedEvents := by
    unfold Subscription.receive at hr
    rw [hitems] at hr
    obtain ⟨-, hrest⟩ := Receipt.event.inj hr
    rw [← hrest]
    exact ⟨rfl, rfl⟩
  refine ⟨?_, fun hopen => ?_, hcounts.1.trans h.counter, h.below, h.evicted, fun hev => ?_,
    fun hclosed' => ?_⟩
  · have hbounded := h.bounded
    simp only
    omega
  · have hbalance := h.balance (hclosed ▸ hopen)
    simp only [hcounts.2]
    omega
  · exact hclosed.trans (h.closed hev)
  · have hnil := h.empty (hclosed ▸ hclosed')
    rw [hitems] at hnil
    cases hnil

/-! ## The alarm -/

variable [DecidableEq ι]

theorem subscription_scheduleWake (s : Consumption α ι) :
    s.scheduleWake.subscription = s.subscription := by
  unfold scheduleWake
  split_ifs <;> rfl

theorem Account.scheduleWake (h : Account limits s) : Account limits s.scheduleWake := by
  unfold Consumption.scheduleWake
  split_ifs
  · exact h
  · exact h
  · exact h.congr rfl rfl rfl rfl rfl

/-- Whatever happened to the queue, scheduling keeps the alarm. -/
theorem Alarm.scheduleWake (h : Alarm s) (hscheduled : s'.wakeScheduled = s.wakeScheduled)
    (hnotifications : s'.notifications = s.notifications) (hloop : s'.loop = s.loop)
    (hphase : s'.phase = s.phase) : Alarm s'.scheduleWake := by
  have hended : s'.loop = .closed → ∀ i, s'.phase i ≠ .waiting := by
    rw [hloop, hphase]
    exact h.ended
  unfold Consumption.scheduleWake
  split_ifs with hs hclosed
  · have hpending : s'.loop ≠ .closed → 0 < s'.notifications := fun hne => by
      rw [hnotifications]
      exact h.scheduled (hscheduled ▸ hs) (hloop ▸ hne)
    refine ⟨fun _ => hpending, fun _ => ?_, hended⟩
    by_cases hl : s'.loop = .closed
    · exact .inr (.inr hl)
    · exact .inr (.inl (.inl (hpending hl)))
  · exact ⟨fun hs' => absurd hs' hs, fun _ => .inr (.inr hclosed), hended⟩
  · exact ⟨fun _ _ => Nat.succ_pos _, fun _ => .inr (.inl (.inl (Nat.succ_pos _))), hended⟩

/-- One round of `receive`, on a free loop. -/
theorem Sound.take (h : Sound limits s) (hfree : s.loop = .free) (i : ι) :
    Sound limits (s.take i) := by
  obtain ⟨haccount, halarm⟩ := h
  have hended : ∀ {t : Consumption α ι}, t.loop ≠ .closed →
      t.loop = .closed → ∀ i, t.phase i ≠ .waiting := fun hne heq => absurd heq hne
  unfold Consumption.take
  cases hr : s.subscription.receive with
  | event e rest =>
    have hclosed := (Subscription.receive_eq_event hr).2
    have hitems := (Subscription.receive_eq_event hr).1
    refine ⟨(haccount.receive hr).congr rfl rfl rfl rfl rfl, halarm.scheduled, fun _ => ?_, ?_⟩
    · exact halarm.due (.inl (by rw [hitems]; exact List.cons_ne_nil _ _))
    · exact hended (by rw [hfree]; exact nofun)
  | subscriptionClosed =>
    refine ⟨haccount.congr rfl rfl rfl rfl rfl, halarm.scheduled, halarm.due, ?_⟩
    exact hended (by rw [hfree]; exact nofun)
  | waits =>
    -- the flag is cleared, but there is nothing to find
    have hnothing : ¬(s.subscription.items ≠ [] ∨ s.subscription.closed = true) := by
      unfold Subscription.receive at hr
      split at hr
      · cases hr
      · split_ifs at hr with hclosed
        simp_all
    refine ⟨haccount.congr rfl rfl rfl rfl rfl, fun hs _ => ?_,
      fun hdue => absurd hdue hnothing, ?_⟩
    · exact halarm.scheduled hs (by rw [hfree]; exact nofun)
    · exact hended nofun

/-- **Every step keeps the account and the alarm.** -/
theorem Sound.next {l : ConsumptionStep α ι} (h : Sound limits s)
    (hs : s.next limits l = some s') : Sound limits s' := by
  obtain ⟨haccount, halarm⟩ := h
  cases l with
  | offer e =>
    cases hs
    unfold Consumption.offer
    split_ifs with hclosed
    · exact ⟨haccount, halarm⟩
    · exact ⟨(haccount.offer (by simpa using hclosed) e).scheduleWake,
        halarm.scheduleWake rfl rfl rfl rfl⟩
  | close =>
    cases hs
    exact ⟨haccount.close.scheduleWake, halarm.scheduleWake rfl rfl rfl rfl⟩
  | beginNotify =>
    obtain ⟨-, hs⟩ := Option.ite_none_right_eq_some.1 hs
    cases hs
    exact ⟨haccount.congr rfl rfl rfl rfl rfl, fun hs => (nomatch hs),
      fun _ => .inr (.inl (.inr rfl)), fun hl => (nomatch hl)⟩
  | endNotify =>
    obtain ⟨hloop, hs⟩ := Option.ite_none_right_eq_some.1 hs
    cases hs
    refine ⟨haccount.congr rfl rfl rfl rfl rfl, fun hs _ => ?_, fun _ => .inl rfl,
      fun hl => (nomatch hl)⟩
    exact halarm.scheduled hs (by rw [hloop]; exact nofun)
  | take i =>
    obtain ⟨⟨hfree, -⟩, hs⟩ := Option.ite_none_right_eq_some.1 hs
    cases hs
    exact Sound.take ⟨haccount, halarm⟩ hfree i
  | park i =>
    obtain ⟨hloop, hs⟩ := Option.ite_none_right_eq_some.1 hs
    cases hs
    refine ⟨haccount.congr rfl rfl rfl rfl rfl, fun hs _ => ?_, fun hdue => ?_,
      fun hl => (nomatch hl)⟩
    · exact halarm.scheduled hs (by rw [hloop]; exact nofun)
    · rcases halarm.due hdue with hwake | (hpending | hrunning) | hended
      · exact .inl hwake
      · exact .inr (.inl (.inl hpending))
      · rw [hloop] at hrunning
        cases hrunning
      · rw [hloop] at hended
        cases hended
  | cancel i =>
    obtain ⟨hfree, hs⟩ := Option.ite_none_right_eq_some.1 hs
    cases hs
    refine ⟨haccount.congr rfl rfl rfl rfl rfl, halarm.scheduled, halarm.due, fun hl => ?_⟩
    rw [hfree] at hl
    cases hl
  | closeLoop =>
    obtain ⟨-, hs⟩ := Option.ite_none_right_eq_some.1 hs
    cases hs
    exact ⟨haccount.congr rfl rfl rfl rfl rfl, fun _ hl => absurd rfl hl,
      fun _ => .inr (.inr rfl), fun _ _ => nofun⟩

/-- A closed subscription stays closed, and delivers nothing. -/
theorem Account.closed_next (h : Account limits s) (hclosed : s.subscription.closed = true)
    {l : ConsumptionStep α ι} (hs : s.next limits l = some s') :
    s'.subscription.closed = true ∧ s'.delivered = s.delivered := by
  have hschedule : ∀ t : Consumption α ι, t.scheduleWake.delivered = t.delivered := fun t => by
    unfold Consumption.scheduleWake
    split_ifs <;> rfl
  cases l with
  | offer e =>
    cases hs
    unfold Consumption.offer
    rw [if_pos hclosed]
    exact ⟨hclosed, rfl⟩
  | close =>
    cases hs
    refine ⟨?_, hschedule _⟩
    unfold Consumption.close
    rw [subscription_scheduleWake]
    exact Subscription.closed_close
  | take i =>
    obtain ⟨-, hs⟩ := Option.ite_none_right_eq_some.1 hs
    have hraises : s.subscription.receive = .subscriptionClosed := by
      unfold Subscription.receive
      rw [h.empty hclosed]
      exact if_pos hclosed
    cases hs
    unfold Consumption.take
    rw [hraises]
    exact ⟨hclosed, rfl⟩
  | beginNotify | endNotify | park i | cancel i | closeLoop =>
    obtain ⟨-, hs⟩ := Option.ite_none_right_eq_some.1 hs
    cases hs
    exact ⟨hclosed, rfl⟩

/-- When a notification has ended, nobody waits. -/
theorem not_waiting_of_endNotify (hs : s.next limits .endNotify = some s') (i : ι) :
    s'.phase i ≠ .waiting := by
  obtain ⟨-, hs⟩ := Option.ite_none_right_eq_some.1 hs
  cases hs
  simp only
  split_ifs with hi
  · exact nofun
  · exact hi

end Consumption

variable {α ι : Type*} [DecidableEq ι] {limits : Limits}

open Consumption

/-- **The account of a subscription.**  In every state that offers, rounds of `receive`, `close` and
the event loop can reach: the queue keeps to its capacity; the accepted events of an open
subscription are those delivered, dropped and queued; it is evicted when, and only when, the last
accepted events in a row that met a full queue are as many as the threshold, and never more; a
closed one stays closed and delivers nothing; and a task that waits while there is something to find
is woken by a notification, which is scheduled. -/
theorem subscription_accounting {s : Consumption α ι}
    (h : (consumption α ι limits).Reachable initial s) :
    s.subscription.items.length ≤ limits.capacity ∧
    (s.subscription.closed = false →
      s.accepted = s.delivered + s.subscription.droppedEvents + s.subscription.items.length) ∧
    overflowRun s.overflows ≤ limits.overflowThreshold ∧
    (s.evicted = true ↔ overflowRun s.overflows = limits.overflowThreshold) ∧
    (s.subscription.closed = true → ∀ l s', s.next limits l = some s' →
      s'.subscription.closed = true ∧ s'.delivered = s.delivered) ∧
    (∀ i, s.phase i = .waiting → s.subscription.items ≠ [] ∨ s.subscription.closed = true →
      s.wake = true ∨ s.NotificationScheduled) ∧
    ∀ s', s.next limits .endNotify = some s' → ∀ i, s'.phase i ≠ .waiting := by
  have hsound : Sound limits s :=
    h.invariant (Sound limits) (sound_initial limits) fun _ _ _ hsound _ hs => hsound.next hs
  obtain ⟨haccount, halarm⟩ := hsound
  refine ⟨haccount.bounded, haccount.balance, haccount.below, haccount.evicted,
    fun hclosed l s' hs => haccount.closed_next hclosed hs, fun i hi hdue => ?_,
    fun s' hs => not_waiting_of_endNotify hs⟩
  rcases halarm.due hdue with hwake | hpending | hended
  · exact .inl hwake
  · exact .inr hpending
  · exact absurd hi (halarm.ended hended i)

/-- A task waits on an empty queue of one place; two events later the queue has overflowed once, and
the task is about to be woken. -/
theorem subscription_accounting_overflow :
    ∃ s : Consumption ℕ (Fin 1),
      (consumption ℕ (Fin 1) ⟨1, 2, by decide, by decide⟩).Reachable initial s ∧
      (s.phase 0 = .waiting ∧ s.subscription = ⟨[8], 1, 1, false⟩ ∧ s.accepted = 2) ∧
      (s.wake = true ∨ s.NotificationScheduled) := by
  obtain ⟨s, hs, hp⟩ := (consumption ℕ (Fin 1) ⟨1, 2, by decide, by decide⟩).exists_reachable
    initial [.take 0, .park 0, .offer 7, .offer 8]
    (fun s => decide (s.phase 0 = .waiting ∧ s.subscription = ⟨[8], 1, 1, false⟩ ∧
      s.accepted = 2)) (by decide)
  have hstate := of_decide_eq_true hp
  have hitems : s.subscription.items ≠ [] := by
    rw [hstate.2.1]
    exact List.cons_ne_nil _ _
  exact ⟨s, hs, hstate, (subscription_accounting hs).2.2.2.2.2.1 0 hstate.1 (.inl hitems)⟩

end Realtime

end TrackFlow
