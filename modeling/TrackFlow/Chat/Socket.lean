import TrackFlow.LTS.Machine
import TrackFlow.Realtime.Subscription

/-!
# The chat socket

`chat_socket` as the product of its tasks.  The handler subscribes, accepts, sends the snapshot and
then waits for client frames; beside it a sender forwards the events of the subscription, and an
expiry closes the connection.  Publishers offer events at any time, from any thread.  When the
receive loop ends, the handler cancels the tasks and leaves the subscription.

* `socket` : the machine; a label is a step of a task, of a publisher, of the bus or of the client.
* `Silent` : an open connection whose sender has ended behind a closed subscription.
* `no_silent_socket` : **no silent socket**, over every run without an eviction.
* `Silent.stays` : a silent socket stays silent until the client or the expiry does something.
* `evicted_socket_is_silent` : the run in which a slow client is evicted.
-/

namespace TrackFlow

namespace Chat

open Realtime

/-- How far the handler has come. -/
inductive SocketPhase
  /-- Subscribed; the snapshots are read, and the connection is not accepted yet. -/
  | subscribed
  /-- Accepted; the snapshot is being sent. -/
  | accepted
  /-- The tasks run. -/
  | running
  /-- The handler has returned, and the server has closed what was open. -/
  | finished
  deriving DecidableEq, Repr

/-- Where `_send_chat_events` stands. -/
inductive Sender (α : Type*)
  | receiving
  | sending (e : α)
  | ended
  deriving DecidableEq, Repr

/-- Where `_receive_chat_events` stands. -/
inductive Receiver
  | waiting
  | handling
  | ended
  deriving DecidableEq, Repr

/-- A connection, its subscription and its tasks. -/
structure SocketState (α : Type*) where
  /-- `RealtimeBus._closed`. -/
  busClosed : Bool
  subscription : Subscription α
  phase : SocketPhase
  /-- Neither side has closed the connection. -/
  connected : Bool
  sender : Sender α
  receiver : Receiver
  /-- The events that the client has been sent. -/
  sent : List α
  deriving DecidableEq, Repr

/-- A step. -/
inductive SocketLabel (α : Type*)
  /-- A publisher offers an event. -/
  | offer (e : α)
  /-- The bus stops taking subscriptions and publications. -/
  | closeBus
  /-- The closed bus closes this subscription. -/
  | closeSubscription
  /-- The handler accepts, or rejects because the session is gone. -/
  | accept (found : Bool)
  /-- The snapshot has been sent, and the tasks start. -/
  | snapshotSent
  /-- The sender asks its subscription. -/
  | take
  /-- The frame of the sender is out, or sending raises because the connection is closed. -/
  | sent
  /-- A frame of the client arrives. -/
  | frame
  /-- The frame has been handled; `raises` if it is no JSON, or the bus refuses a publication. -/
  | handled (raises : Bool)
  /-- The client closes the connection, or it breaks. -/
  | disconnect
  /-- `_close_at_expiry`. -/
  | expire
  /-- The receive loop learns that the connection is closed. -/
  | hangup
  /-- The handler cancels its tasks and leaves the subscription. -/
  | cleanup
  /-- The client connects again. -/
  | reconnect

/-- The steps of the client and of the clock, which a silent socket depends on. -/
def SocketLabel.stirs {α : Type*} : SocketLabel α → Bool
  | .frame | .disconnect | .expire => true
  | _ => false

namespace SocketState

variable {α : Type*}

/-- A connection that has just subscribed. -/
def connect (busClosed : Bool) : SocketState α :=
  ⟨busClosed, .new, .subscribed, true, .receiving, .waiting, []⟩

/-- The handler returns: it leaves the subscription. -/
def finish (s : SocketState α) : SocketState α :=
  { s with
    subscription := s.subscription.close
    phase := .finished
    connected := false
    sender := .ended
    receiver := .ended }

/-- The step of the sender, `none` while it waits. -/
def take (s : SocketState α) : Option (SocketState α) :=
  match s.subscription.receive with
  | .event e rest => some { s with subscription := rest, sender := .sending e }
  | .subscriptionClosed => some { s with sender := .ended }
  | .waits => none

/-- The state after a step. -/
def next (limits : Limits) (s : SocketState α) : SocketLabel α → Option (SocketState α)
  | .offer e => some { s with subscription := s.subscription.offer limits e }
  | .closeBus => some { s with busClosed := true }
  | .closeSubscription =>
    if s.busClosed then some { s with subscription := s.subscription.close } else none
  | .accept found =>
    if s.phase = .subscribed then
      if found && s.connected then some { s with phase := .accepted } else some s.finish
    else none
  | .snapshotSent =>
    if s.phase = .accepted then
      if s.connected then some { s with phase := .running } else some s.finish
    else none
  | .take =>
    match s.sender with
    | .receiving => if s.phase = .running then s.take else none
    | _ => none
  | .sent =>
    match s.sender with
    | .sending e =>
      if s.phase = .running then
        if s.connected then some { s with sender := .receiving, sent := s.sent ++ [e] }
        else some { s with sender := .ended }
      else none
    | _ => none
  | .frame =>
    if s.phase = .running ∧ s.connected ∧ s.receiver = .waiting then
      some { s with receiver := .handling }
    else none
  | .handled raises =>
    if s.phase = .running ∧ s.receiver = .handling then
      some { s with receiver := if raises then .ended else .waiting }
    else none
  | .disconnect => some { s with connected := false }
  | .expire => if s.phase = .running then some { s with connected := false } else none
  | .hangup =>
    if s.phase = .running ∧ s.connected = false ∧ s.receiver = .waiting then
      some { s with receiver := .ended }
    else none
  | .cleanup => if s.phase = .running ∧ s.receiver = .ended then some s.finish else none
  | .reconnect => if s.phase = .finished ∧ s.busClosed = false then some (connect false) else none

/-- The connection is accepted and open, the receive loop waits, and the sender has ended because
its subscription is closed. -/
def Silent (s : SocketState α) : Prop :=
  s.phase = .running ∧ s.connected = true ∧ s.receiver = .waiting ∧
    s.subscription.closed = true ∧ s.sender = .ended

instance [DecidableEq α] (s : SocketState α) : Decidable s.Silent :=
  inferInstanceAs (Decidable (_ ∧ _))

/-- The connection is closed, or the handler is about to close it. -/
def Gone (s : SocketState α) : Prop :=
  s.phase = .finished ∨ s.connected = false ∨ s.receiver = .ended

instance [DecidableEq α] (s : SocketState α) : Decidable s.Gone :=
  inferInstanceAs (Decidable (_ ∨ _))

/-- The step closes no subscription whose connection is open: a publication does not evict, and the
bus closes only what is left. -/
def Kept (limits : Limits) (s : SocketState α) : SocketLabel α → Prop
  | .offer _ => s.subscription.Evicts limits → s.Gone
  | .closeSubscription => s.Gone
  | _ => True

instance [DecidableEq α] (limits : Limits) (s : SocketState α) :
    ∀ l, Decidable (Kept limits s l)
  | .offer _ => inferInstanceAs (Decidable (_ → _))
  | .closeSubscription => inferInstanceAs (Decidable s.Gone)
  | .closeBus | .accept _ | .snapshotSent | .take | .sent | .frame | .handled _ | .disconnect
  | .expire | .hangup | .cleanup | .reconnect => .isTrue trivial

end SocketState

open SocketState

/-- The machine of a connection. -/
def socket (α : Type*) (limits : Limits) : Machine (SocketState α) (SocketLabel α) := ⟨next limits⟩

section Runs

variable {α : Type*} {limits : Limits} {s s' : SocketState α} {l : SocketLabel α}

/-- A closed subscription is one of a connection that is gone. -/
def AwakeOrGone (s : SocketState α) : Prop := s.subscription.closed = true → s.Gone

theorem gone_finish : s.finish.Gone := .inl rfl

/-- What asks the subscription does not close it. -/
theorem take_eq_some (h : s.take = some s') :
    s'.subscription.closed = s.subscription.closed ∧ s'.phase = s.phase ∧
      s'.connected = s.connected ∧ s'.receiver = s.receiver := by
  unfold SocketState.take at h
  cases hr : s.subscription.receive with
  | event e rest =>
    rw [hr] at h
    cases h
    unfold Subscription.receive at hr
    split at hr
    · cases hr
      exact ⟨rfl, rfl, rfl, rfl⟩
    · split_ifs at hr
  | subscriptionClosed =>
    rw [hr] at h
    cases h
    exact ⟨rfl, rfl, rfl, rfl⟩
  | waits =>
    rw [hr] at h
    cases h

/-- Every step that closes no subscription of an open connection keeps the subscription open. -/
theorem AwakeOrGone.next (h : AwakeOrGone s) (hk : Kept limits s l)
    (hs : s.next limits l = some s') : AwakeOrGone s' := by
  cases l with
  | offer e =>
    cases hs
    intro hclosed
    rcases Subscription.offer_closed_iff.1 hclosed with hc | he
    · exact h hc
    · exact hk he
  | closeBus =>
    cases hs
    exact h
  | closeSubscription =>
    simp only [SocketState.next, Option.ite_none_right_eq_some] at hs
    obtain ⟨-, hs⟩ := hs
    cases hs
    exact fun _ => hk
  | accept found =>
    simp only [SocketState.next, Option.ite_none_right_eq_some] at hs
    obtain ⟨hphase, hs⟩ := hs
    split_ifs at hs with hfound
    · cases hs
      intro hclosed
      rcases h hclosed with hp | hg
      · rw [hphase] at hp
        cases hp
      · exact .inr hg
    · cases hs
      exact fun _ => gone_finish
  | snapshotSent =>
    simp only [SocketState.next, Option.ite_none_right_eq_some] at hs
    obtain ⟨hphase, hs⟩ := hs
    split_ifs at hs with hconnected
    · cases hs
      intro hclosed
      rcases h hclosed with hp | hg
      · rw [hphase] at hp
        cases hp
      · exact .inr hg
    · cases hs
      exact fun _ => gone_finish
  | take =>
    simp only [SocketState.next] at hs
    split at hs
    · simp only [Option.ite_none_right_eq_some] at hs
      obtain ⟨hc, hp, hconn, hr⟩ := take_eq_some hs.2
      intro hclosed
      rw [hc] at hclosed
      rw [Gone, hp, hconn, hr]
      exact h hclosed
    · cases hs
  | sent =>
    simp only [SocketState.next] at hs
    split at hs
    · split_ifs at hs
      all_goals
        cases hs
        exact h
    · cases hs
  | frame =>
    simp only [SocketState.next, Option.ite_none_right_eq_some] at hs
    obtain ⟨⟨hphase, hconn, hw⟩, hs⟩ := hs
    cases hs
    intro hclosed
    rcases h hclosed with hp | hg | hr
    · exact .inl hp
    · exact .inr (.inl hg)
    · rw [hw] at hr
      cases hr
  | handled raises =>
    simp only [SocketState.next, Option.ite_none_right_eq_some] at hs
    obtain ⟨⟨hphase, hw⟩, hs⟩ := hs
    cases hs
    intro hclosed
    rcases h hclosed with hp | hg | hr
    · exact .inl hp
    · exact .inr (.inl hg)
    · rw [hw] at hr
      cases hr
  | disconnect =>
    cases hs
    exact fun _ => .inr (.inl rfl)
  | expire =>
    simp only [SocketState.next, Option.ite_none_right_eq_some] at hs
    obtain ⟨-, hs⟩ := hs
    cases hs
    exact fun _ => .inr (.inl rfl)
  | hangup =>
    simp only [SocketState.next, Option.ite_none_right_eq_some] at hs
    obtain ⟨-, hs⟩ := hs
    cases hs
    exact fun _ => .inr (.inr rfl)
  | cleanup =>
    simp only [SocketState.next, Option.ite_none_right_eq_some] at hs
    obtain ⟨-, hs⟩ := hs
    cases hs
    exact fun _ => gone_finish
  | reconnect =>
    simp only [SocketState.next, Option.ite_none_right_eq_some] at hs
    obtain ⟨-, hs⟩ := hs
    cases hs
    exact fun hclosed => nomatch hclosed

/-- **No silent chat socket.**  In every run whose publications evict no subscriber with an open
connection, and whose bus closes none, a subscription is closed only when its connection is gone:
no state is silent, and a client whose connection is finished is given an open subscription when it
connects again. -/
theorem no_silent_socket (h : (socket α limits).Run (Kept limits) (connect false) s) :
    ¬s.Silent ∧ (s.subscription.closed = true → s.Gone) ∧
      (s.phase = .finished → s.busClosed = false →
        ∃ s', s.next limits .reconnect = some s' ∧ s'.phase = .subscribed ∧
          s'.subscription.closed = false) := by
  have hopen : AwakeOrGone s := h.invariant AwakeOrGone (fun hclosed => nomatch hclosed)
    fun _ _ _ ho hk hs => ho.next hk hs
  refine ⟨?_, hopen, fun hp hb => ⟨connect false, if_pos ⟨hp, hb⟩, rfl, rfl⟩⟩
  rintro ⟨hphase, hconn, hw, hclosed, -⟩
  rcases hopen hclosed with hp | hg | hr
  · rw [hphase] at hp
    cases hp
  · rw [hconn] at hg
    cases hg
  · rw [hw] at hr
    cases hr

/-- A silent socket sends nothing more, and stays silent until a frame of the client arrives, the
client leaves or the connection expires. -/
theorem Silent.stays (h : s.Silent) (hs : s.next limits l = some s') :
    s'.sent = s.sent ∧ (s'.Silent ∨ l.stirs = true) := by
  obtain ⟨hphase, hconn, hw, hclosed, hsender⟩ := h
  cases l with
  | offer e =>
    cases hs
    exact ⟨rfl, .inl ⟨hphase, hconn, hw, Subscription.offer_closed_iff.2 (.inl hclosed), hsender⟩⟩
  | closeBus =>
    cases hs
    exact ⟨rfl, .inl ⟨hphase, hconn, hw, hclosed, hsender⟩⟩
  | closeSubscription =>
    simp only [SocketState.next, Option.ite_none_right_eq_some] at hs
    obtain ⟨-, hs⟩ := hs
    cases hs
    exact ⟨rfl, .inl ⟨hphase, hconn, hw, Subscription.closed_close, hsender⟩⟩
  | disconnect =>
    cases hs
    exact ⟨rfl, .inr rfl⟩
  | frame | expire =>
    simp only [SocketState.next, Option.ite_none_right_eq_some] at hs
    obtain ⟨-, hs⟩ := hs
    cases hs
    exact ⟨rfl, .inr rfl⟩
  | accept _ | snapshotSent | take | sent | handled _ | hangup | cleanup | reconnect =>
    simp [SocketState.next, hphase, hconn, hw, hsender] at hs

end Runs

/-! ## A slow client -/

/-- The client takes one event and no more: 64 events fill the queue, and 3 overflow it. -/
def slowClient : List (SocketLabel ℕ) :=
  let opening : List (SocketLabel ℕ) := [.accept true, .snapshotSent, .offer 0, .take]
  let closing : List (SocketLabel ℕ) := [.sent, .take]
  opening ++ (List.range 67).map .offer ++ closing

/-- The evicted client has been sent one event, its connection is open, and nobody will send it
another one. -/
theorem evicted_socket_is_silent :
    ∃ s, (socket ℕ .default).Reachable (connect false) s ∧ s.Silent ∧ s.sent = [0] := by
  obtain ⟨s, hr, hs⟩ := (socket ℕ .default).exists_reachable (connect false) slowClient
    (fun s => decide (s.Silent ∧ s.sent = [0])) (by decide +kernel)
  exact ⟨s, hr, of_decide_eq_true hs⟩

/-- A client that takes what it is sent, leaves, and connects again. -/
def servedClient : List (SocketLabel ℕ) :=
  [.offer 0, .accept true, .snapshotSent, .take, .sent, .frame, .offer 1, .handled false, .take,
    .sent, .disconnect, .hangup, .cleanup]

theorem no_silent_socket_served :
    ∃ s : SocketState ℕ, (s.phase = .finished ∧ s.sent = [0, 1]) ∧ ¬s.Silent ∧
      (s.subscription.closed = true → s.Gone) ∧
      (s.phase = .finished → s.busClosed = false →
        ∃ s', s.next .default .reconnect = some s' ∧ s'.phase = .subscribed ∧
          s'.subscription.closed = false) := by
  obtain ⟨s, hr, hs⟩ := (socket ℕ .default).exists_run
    (fun s l => decide (Kept .default s l)) (connect false) servedClient
    (fun s => decide (s.phase = .finished ∧ s.sent = [0, 1])) (by decide +kernel)
  exact ⟨s, of_decide_eq_true hs,
    no_silent_socket (hr.mono fun _ _ hk => of_decide_eq_true hk)⟩

end Chat

end TrackFlow
