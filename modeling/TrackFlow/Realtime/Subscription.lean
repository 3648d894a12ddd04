import Mathlib.Algebra.Order.Ring.Nat
import Mathlib.Tactic.SplitIfs

/-!
# Bounded subscriptions

`RealtimeSubscription` of the event bus: a queue of bounded length that drops its oldest event when
it overflows, and closes after several overflows in a row.  Every method runs under the lock of the
subscription, so it is one step; a consumer that waits is woken by every step that gives it
something to do.

* `offer`, `receive`, `close` : the methods.
* `offer_closed_iff` : **when a publication evicts its subscriber.**
* `length_items_offer_le` : the bound of the queue.
-/

namespace TrackFlow

namespace Realtime

/-- `queue_capacity` and `overflow_threshold`; the bus refuses values below 1. -/
structure Limits where
  capacity : ℕ
  overflowThreshold : ℕ
  capacity_pos : 1 ≤ capacity
  overflowThreshold_pos : 1 ≤ overflowThreshold

/-- The limits of the application's bus. -/
def Limits.default : Limits := ⟨64, 3, by decide, by decide⟩

/-- The state of a subscription to events `α`. -/
structure Subscription (α : Type*) where
  items : List α
  consecutiveOverflows : ℕ
  droppedEvents : ℕ
  closed : Bool
  deriving DecidableEq, Repr

/-- What `receive` does. -/
inductive Receipt (α : Type*)
  | event (e : α) (rest : Subscription α)
  | subscriptionClosed
  | waits

namespace Subscription

variable {α : Type*}

/-- A new subscription. -/
def new : Subscription α := ⟨[], 0, 0, false⟩

/-- The overflow count after one more event. -/
def overflowsAfter (limits : Limits) (s : Subscription α) : ℕ :=
  if s.items.length = limits.capacity then s.consecutiveOverflows + 1 else 0

/-- `offer`; a `deque` of bounded length drops its oldest item. -/
def offer (limits : Limits) (e : α) (s : Subscription α) : Subscription α :=
  if s.closed then s
  else if limits.overflowThreshold ≤ s.overflowsAfter limits then
    ⟨[], s.overflowsAfter limits, s.droppedEvents + 1, true⟩
  else if s.items.length = limits.capacity then
    ⟨s.items.tail ++ [e], s.overflowsAfter limits, s.droppedEvents + 1, false⟩
  else ⟨s.items ++ [e], s.overflowsAfter limits, s.droppedEvents, false⟩

/-- One round of `receive`. -/
def receive (s : Subscription α) : Receipt α :=
  match s.items with
  | e :: items => .event e { s with items := items }
  | [] => if s.closed then .subscriptionClosed else .waits

/-- `close`. -/
def close (s : Subscription α) : Subscription α :=
  if s.closed then s else { s with closed := true, items := [] }

/-- One more event evicts the subscriber: the queue is full, and has been for long enough. -/
def Evicts (limits : Limits) (s : Subscription α) : Prop :=
  s.closed = false ∧ s.items.length = limits.capacity ∧
    limits.overflowThreshold ≤ s.consecutiveOverflows + 1

instance (limits : Limits) (s : Subscription α) : Decidable (s.Evicts limits) :=
  inferInstanceAs (Decidable (_ ∧ _))

variable {limits : Limits} {s : Subscription α} {e : α}

@[simp] theorem closed_close : s.close.closed = true := by
  unfold close
  split_ifs with h
  · exact h
  · rfl

theorem overflowThreshold_le_overflowsAfter :
    limits.overflowThreshold ≤ s.overflowsAfter limits ↔
      s.items.length = limits.capacity ∧ limits.overflowThreshold ≤ s.consecutiveOverflows + 1 := by
  have hpos := limits.overflowThreshold_pos
  unfold overflowsAfter
  split_ifs with hfull
  · simp [hfull]
  · simp only [hfull, false_and, iff_false]
    omega

/-- **When a publication evicts its subscriber.** -/
theorem offer_closed_iff :
    (s.offer limits e).closed = true ↔ s.closed = true ∨ s.Evicts limits := by
  unfold offer Evicts
  rw [← overflowThreshold_le_overflowsAfter]
  split_ifs with hclosed hevict hfull
  · simp [hclosed]
  · simp [hevict]
  · simp [hevict, hclosed]
  · simp [hevict, hclosed]

/-- An offer drops items, and adds its own at the end. -/
theorem items_offer_sublist : (s.offer limits e).items.Sublist (s.items ++ [e]) := by
  unfold offer
  split_ifs with hclosed hevict hfull
  · exact List.sublist_append_left _ _
  · exact List.nil_sublist _
  · exact (List.tail_sublist _).append (List.Sublist.refl _)
  · exact List.Sublist.refl _

theorem offer_of_closed (h : s.closed = true) : s.offer limits e = s := if_pos h

theorem closed_of_offer (h : (s.offer limits e).closed = false) : s.closed = false := by
  cases hs : s.closed with
  | false => rfl
  | true => rw [offer_of_closed hs, hs] at h; cases h

/-- A subscription that stays open has the event last. -/
theorem exists_items_offer (h : (s.offer limits e).closed = false) :
    ∃ front, (s.offer limits e).items = front ++ [e] := by
  have hs := closed_of_offer h
  unfold offer at h ⊢
  split_ifs at h ⊢ with hclosed
  · rw [hs] at hclosed
    cases hclosed
  · exact ⟨_, rfl⟩
  · exact ⟨_, rfl⟩

/-- An empty subscription takes an event. -/
theorem offer_of_nil (hs : s.closed = false) (hitems : s.items = []) :
    (s.offer limits e).items = [e] := by
  have hcapacity := limits.capacity_pos
  have hthreshold := limits.overflowThreshold_pos
  have hfull : s.items.length ≠ limits.capacity := by
    rw [hitems, List.length_nil]
    omega
  have hcount : s.overflowsAfter limits = 0 := if_neg hfull
  rw [offer, hs, hcount, if_neg Bool.false_ne_true, if_neg (by omega), if_neg hfull, hitems,
    List.nil_append]

theorem items_close_sublist : s.close.items.Sublist s.items := by
  unfold close
  split_ifs
  · exact List.Sublist.refl _
  · exact List.nil_sublist _

theorem closed_of_close (h : s.close.closed = false) : s.closed = false := by
  rw [closed_close] at h
  cases h

theorem receive_eq_event {e : α} {rest : Subscription α} (h : s.receive = .event e rest) :
    s.items = e :: rest.items ∧ rest.closed = s.closed := by
  unfold receive at h
  split at h
  · rename_i hitems
    cases h
    exact ⟨hitems, rfl⟩
  · split at h <;> cases h

/-- The queue never grows beyond its capacity. -/
theorem length_items_offer_le (h : s.items.length ≤ limits.capacity) :
    (s.offer limits e).items.length ≤ limits.capacity := by
  have hpos := limits.capacity_pos
  unfold offer
  split_ifs with hclosed hevict hfull
  · exact h
  · exact Nat.zero_le _
  · simp only [List.length_append, List.length_tail, List.length_singleton]
    omega
  · simp only [List.length_append, List.length_singleton]
    omega

/-- The counter after an offer. -/
theorem consecutiveOverflows_offer (h : s.closed = false) :
    (s.offer limits e).consecutiveOverflows = s.overflowsAfter limits := by
  unfold offer
  rw [h, if_neg Bool.false_ne_true]
  split_ifs <;> rfl

/-- An offer that does not evict: one more event is queued, or one more is dropped. -/
theorem droppedEvents_offer (h : (s.offer limits e).closed = false) :
    (s.offer limits e).droppedEvents + (s.offer limits e).items.length =
      s.droppedEvents + s.items.length + 1 := by
  have hs := closed_of_offer h
  have hpos := limits.capacity_pos
  unfold offer at h ⊢
  rw [hs, if_neg Bool.false_ne_true] at h ⊢
  split_ifs at h ⊢ with hevict hfull
  · simp only [List.length_append, List.length_tail, List.length_singleton]
    omega
  · simp only [List.length_append, List.length_singleton]
    omega

/-- An eviction empties the queue. -/
theorem items_of_offer_closed (hs : s.closed = false) (h : (s.offer limits e).closed = true) :
    (s.offer limits e).items = [] := by
  unfold offer at h ⊢
  rw [hs, if_neg Bool.false_ne_true] at h ⊢
  split_ifs at h ⊢
  · rfl

end Subscription

end Realtime

end TrackFlow
