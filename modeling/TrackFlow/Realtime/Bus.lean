import TrackFlow.LTS.Machine
import TrackFlow.Python.Text
import TrackFlow.Realtime.Sse
import TrackFlow.Realtime.Subscription
import Mathlib.Data.Finset.Image

/-!
# The event bus

`RealtimeBus` under any number of threads.  A publication is numbered, and its subscribers are
read, under the lock of the bus; the offers follow one by one outside it, each under the lock of
its subscription, so the steps of several threads interleave between them.

* `RealtimeBus.subscribe`, `publish`, `remove`, `close` : what happens under the lock of the bus.
* `bus` : the machine; a label is one locked block of one thread, or one round of a `receive`.
* `Overtakes` : the step offers an event past an older one that another thread still has to offer
  to the same open subscription.
* `bus_delivers_in_order` : **order of delivery**, over every run in which nothing overtakes.
* `delivered_out_of_order` : the run in which two publishers are overtaken.
* `Overtakes.exists_disorder` : after an offer that overtakes, a run delivers out of order.
-/

namespace TrackFlow

namespace Realtime

open Json Python

/-- What `RealtimeBus` keeps under its lock.  A subscription is told by a number. -/
structure RealtimeBus where
  nextEventId : ℕ
  /-- The subscriptions by topic. -/
  subscriptions : Finset (List Char × ℕ)
  closed : Bool
  nextEventId_pos : 0 < nextEventId

/-- Why `subscribe` or `publish` raises. -/
inductive BusError
  /-- `topic must not be empty` -/
  | emptyTopic
  /-- `event must not be empty` -/
  | emptyEvent
  /-- `Realtime bus is closed` -/
  | closed
  /-- `RealtimeEvent` refuses an event name of more than 96 characters. -/
  | invalidEvent
  deriving DecidableEq, Repr

/-- The mapping that a caller publishes. -/
abbrev EventData := { data : List (List Char × PyValue) // (PyValue.dict data).WellFormed }

namespace RealtimeBus

/-- The bus of a process that has just started. -/
def initial : RealtimeBus := ⟨1, ∅, false, Nat.one_pos⟩

/-- `subscribe`, for the subscription with the number `n`. -/
def subscribe (bus : RealtimeBus) (topic : List Char) (n : ℕ) : Except BusError RealtimeBus :=
  if strip topic = [] then .error .emptyTopic
  else if bus.closed then .error .closed
  else .ok { bus with subscriptions := insert (strip topic, n) bus.subscriptions }

/-- The subscribers of a topic. -/
def subscribers (bus : RealtimeBus) (topic : List Char) : Finset ℕ :=
  (bus.subscriptions.filter fun entry => entry.1 = topic).image Prod.snd

/-- `publish` up to the end of its locked block: the event, and whom it is to be offered to. -/
def publish (bus : RealtimeBus) (topic event : List Char) (data : EventData) :
    Except BusError (RealtimeEvent × Finset ℕ × RealtimeBus) :=
  if strip topic = [] then .error .emptyTopic
  else if hevent : strip event = [] then .error .emptyEvent
  else if bus.closed then .error .closed
  else if hlength : (strip event).length ≤ 96 then
    .ok (⟨bus.nextEventId, strip event, data.1, bus.nextEventId_pos,
        ⟨List.length_pos_of_ne_nil hevent, hlength⟩, data.2⟩,
      bus.subscribers (strip topic),
      { bus with nextEventId := bus.nextEventId + 1, nextEventId_pos := Nat.succ_pos _ })
  else .error .invalidEvent

/-- `_remove`. -/
def remove (bus : RealtimeBus) (topic : List Char) (n : ℕ) : RealtimeBus :=
  { bus with subscriptions := bus.subscriptions.erase (topic, n) }

/-- The locked block of `close`: whom it is to close. -/
def close (bus : RealtimeBus) : Finset ℕ × RealtimeBus :=
  if bus.closed then (∅, bus)
  else (bus.subscriptions.image Prod.snd, { bus with closed := true, subscriptions := ∅ })

variable {bus b : RealtimeBus} {topic : List Char}

theorem subscribe_eq_ok {n : ℕ} (h : bus.subscribe topic n = .ok b) :
    b.nextEventId = bus.nextEventId := by
  unfold subscribe at h
  split_ifs at h
  cases h
  rfl

theorem publish_eq_ok {name : List Char} {data : EventData} {event : RealtimeEvent}
    {left : Finset ℕ} (h : bus.publish topic name data = .ok (event, left, b)) :
    event.eventId = bus.nextEventId ∧ b.nextEventId = bus.nextEventId + 1 := by
  unfold publish at h
  split_ifs at h
  cases h
  exact ⟨rfl, rfl⟩

theorem nextEventId_close : bus.close.2.nextEventId = bus.nextEventId := by
  unfold close
  split_ifs <;> rfl

end RealtimeBus

/-- A subscription, and what its consumer has received. -/
structure Subscriber where
  topic : List Char
  subscription : Subscription RealtimeEvent
  received : List RealtimeEvent

/-- The events of a subscriber in the order of their arrival. -/
def Subscriber.arrived (r : Subscriber) : List RealtimeEvent := r.received ++ r.subscription.items

/-- What a thread is in the middle of. -/
inductive Activity
  | idle
  /-- The loop of `publish`, and the subscriptions it still has to offer the event to. -/
  | offering (event : RealtimeEvent) (left : Finset ℕ)
  /-- The loop of `close`. -/
  | closing (left : Finset ℕ)
  /-- A subscription to `topic` has been closed, and `_on_close` is next. -/
  | removing (topic : List Char) (n : ℕ) (rest : Activity)

/-- The publication of a thread, and whom it still has to be offered to. -/
def Activity.pending : Activity → Option (RealtimeEvent × Finset ℕ)
  | .idle => none
  | .offering event left => some (event, left)
  | .closing _ => none
  | .removing _ _ rest => rest.pending

/-- The bus, its subscriptions and the threads of the process. -/
structure BusState where
  bus : RealtimeBus
  subscriber : ℕ → Option Subscriber
  activity : ℕ → Activity

/-- A process that has just started. -/
def BusState.initial : BusState := ⟨.initial, fun _ => none, fun _ => .idle⟩

/-- The steps. -/
inductive BusLabel
  /-- `subscribe` makes the subscription `n`. -/
  | subscribe (topic : List Char) (n : ℕ)
  /-- `publish` numbers its event. -/
  | publish (thread : ℕ) (topic event : List Char) (data : EventData)
  /-- The loop of `publish` comes to the subscription `n`. -/
  | offer (thread n : ℕ)
  /-- One round of `receive`. -/
  | receive (n : ℕ)
  /-- `close` of a subscription. -/
  | close (thread n : ℕ)
  /-- `_on_close`. -/
  | remove (thread : ℕ)
  /-- `close` of the bus. -/
  | closeBus (thread : ℕ)
  /-- The loop of `close` comes to the subscription `n`. -/
  | closeNext (thread n : ℕ)
  /-- The loop of the thread has ended. -/
  | done (thread : ℕ)

/-- The thread that takes the step, if it is a thread at work on the bus. -/
def BusLabel.thread : BusLabel → Option ℕ
  | .subscribe .. | .receive _ => none
  | .publish thread .. | .offer thread _ | .close thread _ | .remove thread | .closeBus thread
  | .closeNext thread _ | .done thread => some thread

namespace BusState

/-- The subscription `n` becomes `c`, and the thread goes on with `rest`, after `_on_close` if the
subscription was open before and is closed now. -/
def settle (s : BusState) (thread n : ℕ) (r : Subscriber) (c : Subscription RealtimeEvent)
    (rest : Activity) : BusState where
  bus := s.bus
  subscriber := Function.update s.subscriber n (some { r with subscription := c })
  activity := Function.update s.activity thread
    (if !r.subscription.closed && c.closed then .removing r.topic n rest else rest)

/-- The state after a step. -/
def next (limits : Limits) (s : BusState) : BusLabel → Option BusState
  | .subscribe topic n =>
    match s.subscriber n, s.bus.subscribe topic n with
    | none, .ok bus =>
      some { s with
        bus := bus
        subscriber := Function.update s.subscriber n (some ⟨strip topic, .new, []⟩) }
    | _, _ => none
  | .publish thread topic event data =>
    match s.activity thread, s.bus.publish topic event data with
    | .idle, .ok (published, left, bus) =>
      some { s with
        bus := bus
        activity := Function.update s.activity thread (.offering published left) }
    | _, _ => none
  | .offer thread n =>
    match s.activity thread, s.subscriber n with
    | .offering event left, some r =>
      if n ∈ left then
        some (s.settle thread n r (r.subscription.offer limits event)
          (.offering event (left.erase n)))
      else none
    | _, _ => none
  | .receive n =>
    match s.subscriber n with
    | none => none
    | some r =>
      match r.subscription.receive with
      | .event event rest =>
        some { s with
          subscriber := Function.update s.subscriber n
            (some { r with subscription := rest, received := r.received ++ [event] }) }
      | .subscriptionClosed => some s
      | .waits => none
  | .close thread n =>
    match s.activity thread, s.subscriber n with
    | .idle, some r => some (s.settle thread n r r.subscription.close .idle)
    | _, _ => none
  | .remove thread =>
    match s.activity thread with
    | .removing topic n rest =>
      some { s with
        bus := s.bus.remove topic n
        activity := Function.update s.activity thread rest }
    | _ => none
  | .closeBus thread =>
    match s.activity thread with
    | .idle =>
      some { s with
        bus := s.bus.close.2
        activity := Function.update s.activity thread (.closing s.bus.close.1) }
    | _ => none
  | .closeNext thread n =>
    match s.activity thread, s.subscriber n with
    | .closing left, some r =>
      if n ∈ left then some (s.settle thread n r r.subscription.close (.closing (left.erase n)))
      else none
    | _, _ => none
  | .done thread =>
    match s.activity thread with
    | .offering _ left | .closing left =>
      if left = ∅ then some { s with activity := Function.update s.activity thread .idle } else none
    | _ => none

end BusState

/-- The threads of the process at work on the bus. -/
def bus (limits : Limits) : Machine BusState BusLabel where
  next := BusState.next limits

/-- The step offers an event to an open subscription to which another thread still has to offer
an older one. -/
def Overtakes (s : BusState) : BusLabel → Prop
  | .offer thread n => ∃ event left r, s.activity thread = .offering event left ∧
      s.subscriber n = some r ∧ r.subscription.closed = false ∧
        ∃ other older left', (s.activity other).pending = some (older, left') ∧ n ∈ left' ∧
          older.eventId < event.eventId
  | _ => False

variable {limits : Limits} {s s' : BusState}

theorem Subscriber.arrived_offer_sublist (limits : Limits) (r : Subscriber)
    (event : RealtimeEvent) :
    (Subscriber.arrived { r with subscription := r.subscription.offer limits event }).Sublist
      (r.arrived ++ [event]) := by
  rw [arrived, arrived, List.append_assoc]
  exact (List.Sublist.refl _).append Subscription.items_offer_sublist

namespace BusState

theorem subscriber_settle (thread n m : ℕ) (r : Subscriber) (c : Subscription RealtimeEvent)
    (rest : Activity) : (s.settle thread n r c rest).subscriber m =
      if m = n then some { r with subscription := c } else s.subscriber m := by
  simp only [settle, Function.update_apply]

theorem pending_settle (thread n i : ℕ) (r : Subscriber) (c : Subscription RealtimeEvent)
    (rest : Activity) : ((s.settle thread n r c rest).activity i).pending =
      if i = thread then rest.pending else (s.activity i).pending := by
  simp only [settle, Function.update_apply]
  split_ifs <;> rfl

/-- A step leaves the other threads where they are. -/
theorem activity_next {l : BusLabel} {i : ℕ} (hstep : s.next limits l = some s')
    (hi : l.thread ≠ some i) : s'.activity i = s.activity i := by
  cases l <;> simp only [BusState.next] at hstep <;> split at hstep
  all_goals try split at hstep
  all_goals cases hstep
  all_goals
    first
    | rfl
    | exact Function.update_of_ne (fun h => hi (congrArg some h.symm)) _ _

/-- Nothing has been overtaken: what has arrived at a subscriber is in order, and what a thread
still has to offer to it is newer. -/
structure InOrder (s : BusState) : Prop where
  arrived : ∀ n r, s.subscriber n = some r → r.arrived.Pairwise fun e e' => e.eventId < e'.eventId
  arrived_lt : ∀ n r, s.subscriber n = some r → ∀ e ∈ r.arrived, e.eventId < s.bus.nextEventId
  pending_lt : ∀ i e left, (s.activity i).pending = some (e, left) → e.eventId < s.bus.nextEventId
  /-- Two threads never publish under one number. -/
  pending_ne : ∀ i j e left e' left', i ≠ j → (s.activity i).pending = some (e, left) →
    (s.activity j).pending = some (e', left') → e.eventId ≠ e'.eventId
  older : ∀ i e left n r, (s.activity i).pending = some (e, left) → n ∈ left →
    s.subscriber n = some r → r.subscription.closed = false →
      ∀ e' ∈ r.arrived, e'.eventId < e.eventId

/-- A step that adds no event and no publication. -/
theorem InOrder.of_fewer (h : s.InOrder)
    (hsubscriber : ∀ n r', s'.subscriber n = some r' → r'.arrived = [] ∨
      ∃ r, s.subscriber n = some r ∧ r'.arrived.Sublist r.arrived ∧
        (r'.subscription.closed = false → r.subscription.closed = false))
    (hpending : ∀ i e left, (s'.activity i).pending = some (e, left) →
      ∃ left', (s.activity i).pending = some (e, left') ∧ left ⊆ left')
    (hbus : s'.bus.nextEventId = s.bus.nextEventId) : s'.InOrder where
  arrived n r' hr' := by
    rcases hsubscriber n r' hr' with hnil | ⟨r, hr, hsub, -⟩
    · rw [hnil]
      exact .nil
    · exact (h.arrived n r hr).sublist hsub
  arrived_lt n r' hr' e he := by
    rcases hsubscriber n r' hr' with hnil | ⟨r, hr, hsub, -⟩
    · rw [hnil] at he
      cases he
    · exact hbus ▸ h.arrived_lt n r hr e (hsub.subset he)
  pending_lt i e left hi := by
    obtain ⟨left', hi', -⟩ := hpending i e left hi
    exact hbus ▸ h.pending_lt i e left' hi'
  pending_ne i j e left e' left' hne hi hj := by
    obtain ⟨_, hi', -⟩ := hpending i e left hi
    obtain ⟨_, hj', -⟩ := hpending j e' left' hj
    exact h.pending_ne i j e _ e' _ hne hi' hj'
  older i e left n r' hi hn hr' hopen e' he' := by
    obtain ⟨left', hi', hleft⟩ := hpending i e left hi
    rcases hsubscriber n r' hr' with hnil | ⟨r, hr, hsub, hclosed⟩
    · rw [hnil] at he'
      cases he'
    · exact h.older i e left' n r hi' (hleft hn) hr (hclosed hopen) e' (hsub.subset he')

/-- Closing a subscription. -/
theorem InOrder.settle {thread n : ℕ} {r : Subscriber} {c : Subscription RealtimeEvent}
    {rest : Activity} (h : s.InOrder) (hr : s.subscriber n = some r)
    (hitems : c.items.Sublist r.subscription.items)
    (hclosed : c.closed = false → r.subscription.closed = false)
    (hrest : ∀ e left, rest.pending = some (e, left) →
      ∃ left', (s.activity thread).pending = some (e, left') ∧ left ⊆ left') :
    (s.settle thread n r c rest).InOrder := by
  refine h.of_fewer (fun m r' hr' => .inr ?_) (fun i e left hi => ?_) rfl
  · rw [subscriber_settle] at hr'
    split_ifs at hr' with hm
    · cases hr'
      exact ⟨r, hm ▸ hr, (List.Sublist.refl _).append hitems, hclosed⟩
    · exact ⟨r', hr', List.Sublist.refl _, id⟩
  · rw [pending_settle] at hi
    split_ifs at hi with hthread
    · exact hthread ▸ hrest e left hi
    · exact ⟨left, hi, Finset.Subset.refl _⟩

/-- An offer that does not overtake. -/
theorem InOrder.offer {thread n : ℕ} {r : Subscriber} {event : RealtimeEvent} {left : Finset ℕ}
    (h : s.InOrder) (hi : s.activity thread = .offering event left)
    (hr : s.subscriber n = some r) (hn : n ∈ left) (hsteady : ¬Overtakes s (.offer thread n)) :
    (s.settle thread n r (r.subscription.offer limits event)
      (.offering event (left.erase n))).InOrder := by
  have hp : (s.activity thread).pending = some (event, left) := by rw [hi]; rfl
  have hrest : ∀ e left', (Activity.offering event (left.erase n)).pending = some (e, left') →
      e = event ∧ left' = left.erase n := fun e left' he => by
    cases he
    exact ⟨rfl, rfl⟩
  cases hclosed : r.subscription.closed with
  | true =>
    rw [Subscription.offer_of_closed hclosed]
    refine h.settle hr (List.Sublist.refl _) id fun e left' he => ?_
    obtain ⟨rfl, rfl⟩ := hrest e left' he
    exact ⟨left, hp, Finset.erase_subset _ _⟩
  | false =>
    -- what has arrived is older than the event, which is older than what others have to offer
    have hold : ∀ e ∈ r.arrived, e.eventId < event.eventId :=
      h.older thread event left n r hp hn hr hclosed
    have hnew : ∀ other e left', other ≠ thread → (s.activity other).pending = some (e, left') →
        n ∈ left' → event.eventId < e.eventId := by
      intro other e left' hother he hmem
      have hne := h.pending_ne other thread e left' event left hother he hp
      have hnot : ¬e.eventId < event.eventId := fun hlt =>
        hsteady ⟨event, left, r, hi, hr, hclosed, other, e, left', he, hmem, hlt⟩
      omega
    have hsub := r.arrived_offer_sublist limits event
    have harrived : ∀ e ∈ Subscriber.arrived
        { r with subscription := r.subscription.offer limits event }, e ∈ r.arrived ∨ e = event :=
      fun e he => by simpa using hsub.subset he
    constructor
    case arrived =>
      intro m r' hr'
      rw [subscriber_settle] at hr'
      split_ifs at hr' with hm
      · cases hr'
        refine List.Pairwise.sublist hsub (List.pairwise_append.2
          ⟨h.arrived n r hr, List.pairwise_singleton _ _, fun e he e' he' => ?_⟩)
        rw [List.mem_singleton.1 he']
        exact hold e he
      · exact h.arrived m r' hr'
    case arrived_lt =>
      intro m r' hr' e he
      rw [subscriber_settle] at hr'
      split_ifs at hr' with hm
      · cases hr'
        rcases harrived e he with he | rfl
        · exact h.arrived_lt n r hr e he
        · exact h.pending_lt thread e left hp
      · exact h.arrived_lt m r' hr' e he
    case pending_lt =>
      intro i e left' he
      rw [pending_settle] at he
      split_ifs at he with hthread
      · obtain ⟨rfl, -⟩ := hrest e left' he
        exact h.pending_lt thread e left hp
      · exact h.pending_lt i e left' he
    case pending_ne =>
      intro i j e left₁ e' left₂ hne he he'
      rw [pending_settle] at he he'
      split_ifs at he he' with hthread hthread' hthread'
      · exact absurd (hthread.trans hthread'.symm) hne
      · obtain ⟨rfl, -⟩ := hrest e left₁ he
        exact h.pending_ne i j e left e' left₂ hne (hthread ▸ hp) he'
      · obtain ⟨rfl, -⟩ := hrest e' left₂ he'
        exact h.pending_ne i j e left₁ e' left hne he (hthread' ▸ hp)
      · exact h.pending_ne i j e left₁ e' left₂ hne he he'
    case older =>
      intro i e left' m r' he hm hr' hopen e' he'
      rw [pending_settle] at he
      rw [subscriber_settle] at hr'
      split_ifs at he hr' with hthread hmn hmn
      · obtain ⟨-, rfl⟩ := hrest e left' he
        exact absurd hmn (Finset.ne_of_mem_erase hm)
      · obtain ⟨rfl, rfl⟩ := hrest e left' he
        exact h.older thread e left m r' hp (Finset.mem_of_mem_erase hm) hr' hopen e' he'
      · cases hr'
        have hlt := hnew i e left' hthread he (hmn ▸ hm)
        rcases harrived e' he' with he' | rfl
        · exact (hold e' he').trans hlt
        · exact hlt
      · exact h.older i e left' m r' he hm hr' hopen e' he'

theorem inOrder_initial : initial.InOrder := by
  constructor
  case arrived => exact fun n r hr => nomatch hr
  case arrived_lt => exact fun n r hr => nomatch hr
  case pending_lt => exact fun i e left he => nomatch he
  case pending_ne => exact fun i j e left e' left' hne he => nomatch he
  case older => exact fun i e left n r he => nomatch he

/-- A thread goes on with what it has to do, and has no more to offer than before. -/
theorem InOrder.proceed {thread : ℕ} {rest : Activity} {b : RealtimeBus} (h : s.InOrder)
    (hrest : ∀ e left, rest.pending = some (e, left) →
      (s.activity thread).pending = some (e, left))
    (hbus : b.nextEventId = s.bus.nextEventId) :
    InOrder { s with bus := b, activity := Function.update s.activity thread rest } := by
  refine h.of_fewer (fun n r hr => .inr ⟨r, hr, List.Sublist.refl _, id⟩) (fun i e left he => ?_)
    hbus
  simp only [Function.update_apply] at he
  split_ifs at he with hthread
  · exact ⟨left, hthread ▸ hrest e left he, Finset.Subset.refl _⟩
  · exact ⟨left, he, Finset.Subset.refl _⟩

/-- A new publication has the highest number so far. -/
theorem InOrder.publish {thread : ℕ} {topic name : List Char} {data : EventData}
    {event : RealtimeEvent} {left : Finset ℕ} {b : RealtimeBus} (h : s.InOrder)
    (hp : s.bus.publish topic name data = .ok (event, left, b)) :
    InOrder { s with
      bus := b, activity := Function.update s.activity thread (.offering event left) } := by
  obtain ⟨hid, hnext⟩ := RealtimeBus.publish_eq_ok hp
  have hpending : ∀ i e left',
      (Function.update s.activity thread (.offering event left) i).pending = some (e, left') →
        (i = thread ∧ e = event ∧ left' = left) ∨
          (i ≠ thread ∧ (s.activity i).pending = some (e, left')) := by
    intro i e left' he
    rw [Function.update_apply] at he
    split_ifs at he with hthread
    · cases he
      exact .inl ⟨hthread, rfl, rfl⟩
    · exact .inr ⟨hthread, he⟩
  constructor
  case arrived => exact h.arrived
  case arrived_lt =>
    intro n r hr e he
    have := h.arrived_lt n r hr e he
    change e.eventId < b.nextEventId
    omega
  case pending_lt =>
    intro i e left' he
    change e.eventId < b.nextEventId
    rcases hpending i e left' he with ⟨-, rfl, -⟩ | ⟨-, he⟩
    · omega
    · have := h.pending_lt i e left' he
      omega
  case pending_ne =>
    intro i j e left₁ e' left₂ hne he he'
    rcases hpending i e left₁ he with ⟨rfl, rfl, -⟩ | ⟨hi, hei⟩ <;>
      rcases hpending j e' left₂ he' with ⟨rfl, rfl, -⟩ | ⟨hj, hej⟩
    · exact absurd rfl hne
    · have := h.pending_lt j e' left₂ hej
      omega
    · have := h.pending_lt i e left₁ hei
      omega
    · exact h.pending_ne i j e left₁ e' left₂ hne hei hej
  case older =>
    intro i e left' n r he hn hr hopen e' he'
    rcases hpending i e left' he with ⟨-, rfl, -⟩ | ⟨-, he⟩
    · have := h.arrived_lt n r hr e' he'
      omega
    · exact h.older i e left' n r he hn hr hopen e' he'

/-- **One step.** -/
theorem InOrder.next (h : s.InOrder) {l : BusLabel} (hsteady : ¬Overtakes s l)
    (hstep : s.next limits l = some s') : s'.InOrder := by
  cases l with
  | subscribe topic n =>
    simp only [BusState.next] at hstep
    split at hstep
    · rename_i b hn hb
      cases hstep
      refine h.of_fewer (fun m r hr => ?_) (fun i e left he => ⟨left, he, Finset.Subset.refl _⟩)
        (RealtimeBus.subscribe_eq_ok hb)
      simp only [Function.update_apply] at hr
      split_ifs at hr
      · cases hr
        exact .inl rfl
      · exact .inr ⟨r, hr, List.Sublist.refl _, id⟩
    · cases hstep
  | publish thread topic name data =>
    simp only [BusState.next] at hstep
    split at hstep
    · rename_i event left b hi hp
      cases hstep
      exact h.publish hp
    · cases hstep
  | offer thread n =>
    simp only [BusState.next] at hstep
    split at hstep
    · rename_i event left r hi hr
      split_ifs at hstep with hn
      cases hstep
      exact h.offer hi hr hn hsteady
    · cases hstep
  | receive n =>
    simp only [BusState.next] at hstep
    split at hstep
    · cases hstep
    · rename_i r hr
      split at hstep
      · rename_i event rest hreceive
        cases hstep
        obtain ⟨hitems, hclosed⟩ := Subscription.receive_eq_event hreceive
        refine h.of_fewer (fun m r' hr' => .inr ?_)
          (fun i e left he => ⟨left, he, Finset.Subset.refl _⟩) rfl
        simp only [Function.update_apply] at hr'
        split_ifs at hr' with hm
        · cases hr'
          refine ⟨r, hm ▸ hr, ?_, fun hopen => hclosed ▸ hopen⟩
          simp [Subscriber.arrived, hitems]
        · exact ⟨r', hr', List.Sublist.refl _, id⟩
      · cases hstep
        exact h
      · cases hstep
  | close thread n =>
    simp only [BusState.next] at hstep
    split at hstep
    · rename_i r hi hr
      cases hstep
      exact h.settle hr Subscription.items_close_sublist Subscription.closed_of_close
        fun e left he => nomatch he
    · cases hstep
  | remove thread =>
    simp only [BusState.next] at hstep
    split at hstep
    · rename_i topic n rest hi
      cases hstep
      exact h.proceed (fun e left he => by rw [hi]; exact he) rfl
    · cases hstep
  | closeBus thread =>
    simp only [BusState.next] at hstep
    split at hstep
    · cases hstep
      exact h.proceed (fun e left he => nomatch he) RealtimeBus.nextEventId_close
    · cases hstep
  | closeNext thread n =>
    simp only [BusState.next] at hstep
    split at hstep
    · rename_i left r hi hr
      split_ifs at hstep
      cases hstep
      exact h.settle hr Subscription.items_close_sublist Subscription.closed_of_close
        fun e left he => nomatch he
    · cases hstep
  | done thread =>
    simp only [BusState.next] at hstep
    split at hstep
    all_goals
      first
      | split_ifs at hstep
        cases hstep
        exact h.proceed (fun e left he => nomatch he) rfl
      | cases hstep

end BusState

/-- **Order of delivery.**  In every run in which no event is offered past an older one that another
thread still has to offer to the same open subscription, what a subscriber has received has
strictly increasing numbers. -/
theorem bus_delivers_in_order {s : BusState}
    (h : (bus limits).Run (fun s l => ¬Overtakes s l) .initial s) {n : ℕ} {r : Subscriber}
    (hr : s.subscriber n = some r) :
    r.received.Pairwise fun e e' => e.eventId < e'.eventId := by
  have hinv := h.invariant BusState.InOrder BusState.inOrder_initial
    fun _ _ _ hi hsteady hstep => hi.next hsteady hstep
  exact (hinv.arrived n r hr).sublist (List.sublist_append_left _ _)

/-- A thread that publishes alone overtakes nobody. -/
theorem not_overtakes_of_alone {thread n : ℕ}
    (h : ∀ other, other ≠ thread → (s.activity other).pending = none) :
    ¬Overtakes s (.offer thread n) := by
  rintro ⟨event, left, r, hi, -, -, other, older, left', hother, -, hlt⟩
  by_cases hne : other = thread
  · rw [hne, hi] at hother
    cases hother
    exact lt_irrefl _ hlt
  · rw [h other hne] at hother
    cases hother

/-- Two publications of one thread. -/
theorem bus_delivers_in_order_one_thread :
    ∃ s r, (bus .default).Run (fun s l => ¬Overtakes s l) .initial s ∧ s.subscriber 0 = some r ∧
      r.received.map RealtimeEvent.eventId = [1, 2] ∧
      r.received.Pairwise fun e e' => e.eventId < e'.eventId := by
  let data : EventData := ⟨[], List.nodup_nil, trivial⟩
  obtain ⟨s, hrun, hs⟩ := (bus .default).exists_run (fun _ l => l.thread.all (· = 0)) .initial
    [.subscribe ['t'] 0, .publish 0 ['t'] ['a'] data, .offer 0 0, .done 0,
      .publish 0 ['t'] ['b'] data, .offer 0 0, .receive 0, .receive 0]
    (fun s => ((s.subscriber 0).map fun r => r.received.map RealtimeEvent.eventId) = some [1, 2])
    (by decide)
  obtain ⟨r, hr, hids⟩ := Option.map_eq_some_iff.1 (of_decide_eq_true hs)
  have horder : (bus .default).Run (fun s l => ¬Overtakes s l) .initial s := by
    refine hrun.exchange (fun s => ∀ i, i ≠ 0 → s.activity i = .idle) (fun _ _ => rfl)
      (fun s l s' hidle hl hstep i hi => ?_) fun s l hidle hl => ?_
    · rw [BusState.activity_next hstep fun hthread => hi (by simpa [hthread] using hl)]
      exact hidle i hi
    · cases l with
      | offer thread n =>
        refine not_overtakes_of_alone fun other hother => ?_
        have hthread : thread = 0 := by simpa [BusLabel.thread] using hl
        rw [hidle other fun hzero => hother (hzero.trans hthread.symm)]
        rfl
      | _ => exact id
  exact ⟨s, r, horder, hr, hids, bus_delivers_in_order horder hr⟩

/-! ## When an offer overtakes -/

section Disorder

/-- Two publishers of one topic.  The second numbers its event after the first, and offers it
before. -/
def overtaken (data : EventData) : List BusLabel :=
  [.subscribe ['t'] 0, .publish 0 ['t'] ['a'] data, .publish 1 ['t'] ['b'] data, .offer 1 0,
    .offer 0 0, .receive 0, .receive 0]

/-- The subscriber receives the second event before the first. -/
theorem delivered_out_of_order :
    ¬∀ s n r, (bus .default).Reachable .initial s → s.subscriber n = some r →
      r.received.Pairwise fun e e' => e.eventId < e'.eventId := by
  intro hclaim
  obtain ⟨s, hreach, hs⟩ := (bus .default).exists_reachable .initial
    (overtaken ⟨[], ⟨List.nodup_nil, trivial⟩⟩)
    (fun s => ((s.subscriber 0).map fun r => r.received.map RealtimeEvent.eventId) = some [2, 1])
    (by decide)
  obtain ⟨r, hr, hids⟩ := Option.map_eq_some_iff.1 (of_decide_eq_true hs)
  have horder := List.pairwise_map.2 (hclaim s 0 r hreach hr)
  rw [hids] at horder
  exact absurd horder (by decide)

variable {n : ℕ} {r : Subscriber}

/-- A consumer that keeps receiving gets all that has arrived. -/
theorem exists_drained (limits : Limits) (hr : s.subscriber n = some r) :
    ∃ s₁ r₁, (bus limits).Reachable s s₁ ∧ s₁.activity = s.activity ∧ s₁.subscriber n = some r₁ ∧
      r₁.received = r.arrived ∧ r₁.subscription.items = [] ∧
        r₁.subscription.closed = r.subscription.closed := by
  induction hitems : r.subscription.items generalizing s r with
  | nil => exact ⟨s, r, .refl, rfl, hr, by simp [Subscriber.arrived, hitems], hitems, rfl⟩
  | cons e rest ih =>
    let r' : Subscriber :=
      { r with subscription := { r.subscription with items := rest }
               received := r.received ++ [e] }
    let s' : BusState := { s with subscriber := Function.update s.subscriber n (some r') }
    have hstep : (bus limits).next s (.receive n) = some s' := by
      simp only [bus, BusState.next, hr, Subscription.receive, hitems]
      rfl
    obtain ⟨s₁, r₁, hreach, hactivity, hr₁, hreceived, hnil, hclosed⟩ :=
      ih (s := s') (r := r') (Function.update_self ..) rfl
    refine ⟨s₁, r₁, (Machine.Run.refl.tail trivial hstep).trans hreach, hactivity, hr₁, ?_, hnil,
      hclosed⟩
    rw [hreceived]
    simp [Subscriber.arrived, hitems, r']

/-- A thread gets to its next offer. -/
theorem exists_offering (limits : Limits) {i : ℕ} {event : RealtimeEvent} {left : Finset ℕ}
    (h : (s.activity i).pending = some (event, left)) :
    ∃ s₁, (bus limits).Reachable s s₁ ∧ s₁.subscriber = s.subscriber ∧
      s₁.activity i = .offering event left := by
  induction hi : s.activity i generalizing s with
  | idle => rw [hi] at h; cases h
  | closing => rw [hi] at h; cases h
  | offering =>
    rw [hi] at h
    cases h
    exact ⟨s, .refl, rfl, hi⟩
  | removing topic m rest ih =>
    rw [hi] at h
    let s' : BusState :=
      { s with bus := s.bus.remove topic m, activity := Function.update s.activity i rest }
    have hself : s'.activity i = rest := Function.update_self ..
    have hstep : (bus limits).next s (.remove i) = some s' := by
      simp only [bus, BusState.next, hi, s']
    obtain ⟨s₁, hreach, hsubscriber, hoffering⟩ := ih (s := s') (by rw [hself]; exact h) hself
    exact ⟨s₁, (Machine.Run.refl.tail trivial hstep).trans hreach, hsubscriber, hoffering⟩

/-- **After an offer that overtakes** and leaves the subscription open, a run delivers out of
order. -/
theorem Overtakes.exists_disorder {thread : ℕ} (h : Overtakes s (.offer thread n))
    (hstep : s.next limits (.offer thread n) = some s') (hr : s'.subscriber n = some r)
    (hopen : r.subscription.closed = false) :
    ∃ s₁ r₁, (bus limits).Reachable s' s₁ ∧ s₁.subscriber n = some r₁ ∧
      ¬r₁.received.Pairwise fun e e' => e.eventId < e'.eventId := by
  obtain ⟨event, left, r₀, hi, hr₀, -, other, older, left', hother, hn, hlt⟩ := h
  have hne : other ≠ thread := by
    rintro rfl
    rw [hi] at hother
    cases hother
    exact lt_irrefl _ hlt
  -- the event is the last that has arrived
  simp only [BusState.next, hi, hr₀, Option.ite_none_right_eq_some, Option.some.injEq] at hstep
  obtain ⟨-, rfl⟩ := hstep
  have hr' := hr
  rw [BusState.subscriber_settle, if_pos rfl] at hr'
  cases hr'
  obtain ⟨front, hfront⟩ := Subscription.exists_items_offer hopen
  -- the consumer takes it before the other thread makes its offer
  obtain ⟨s₁, r₁, hreach₁, hactivity, hr₁, hreceived, hnil, hclosed⟩ :=
    exists_drained limits hr
  have hother₁ : (s₁.activity other).pending = some (older, left') := by
    rw [hactivity, BusState.pending_settle, if_neg hne]
    exact hother
  obtain ⟨s₂, hreach₂, hsubscriber, hoffering⟩ := exists_offering limits hother₁
  rw [← hsubscriber] at hr₁
  have hlate : (r₁.subscription.offer limits older).items = [older] :=
    Subscription.offer_of_nil (hclosed.trans hopen) hnil
  have hoffer : (bus limits).next s₂ (.offer other n) =
      some (s₂.settle other n r₁ (r₁.subscription.offer limits older)
        (.offering older (left'.erase n))) := by
    simp only [bus, BusState.next, hoffering, hr₁, hn, if_true]
  obtain ⟨s₃, r₃, hreach₃, -, hr₃, hreceived₃, -, -⟩ := exists_drained limits
    ((BusState.subscriber_settle (s := s₂) other n n r₁ _ _).trans (if_pos rfl))
  refine ⟨s₃, r₃, ((hreach₁.trans hreach₂).tail trivial hoffer).trans hreach₃, hr₃, ?_⟩
  rw [hreceived₃, Subscriber.arrived, hlate, hreceived, Subscriber.arrived, hfront]
  intro horder
  have hlast := (List.pairwise_append.1 horder).2.2 event (by simp) older (by simp)
  omega

end Disorder

end Realtime

end TrackFlow
