import Mathlib.Algebra.Order.Floor.Ring
import Mathlib.Data.Rat.Floor
import TrackFlow.LTS.Machine

/-!
# `ChatSocketClient`

The client with the sockets and the timers that it has asked the browser for.  A `send` may open a
socket while a retry timer is pending, a socket may close at any time, and timers are not cleared
when a socket is opened by other means; all of this is left to the labels.

* `Client.connect`, `Client.send`, `Client.close` : the methods.
* `next` : what the page or the browser does next.
* `Sound` : what is submitted is what was sent, and then the queue.
* `frames_in_order` : **frames are sent in order and once, over one socket at a time.**
-/

namespace TrackFlow

namespace Chat

namespace SocketClient

/-! ## State -/

/-- `readyState`. -/
inductive ReadyState
  | connecting
  | open
  | closing
  | closed
  deriving DecidableEq, Repr

inductive ChatConnectionState
  | connecting
  | connected
  | reconnecting
  | disconnected
  deriving DecidableEq, Repr

inductive AgentRoute
  | auto
  | knowledge
  | ticket
  deriving DecidableEq, Repr

/-- What is stringified: an event and its data. -/
inductive Frame
  | userMessage (sessionId text : String) (route : AgentRoute)
  | interruptRequested (sessionId : String) (newInput : Option String) (route : AgentRoute)
  deriving DecidableEq, Repr

/-- The client, and what it has asked the browser for: sockets, and timers, with their delays as
long as they are pending.  `submitted` and `sent` record the frames, the latter with their
sockets. -/
structure Client where
  sessionId : String
  socket : Option ℕ
  retryTimer : Option ℕ
  attempts : ℕ
  disposed : Bool
  queue : List Frame
  /-- The last state that was reported. -/
  connectionState : Option ChatConnectionState
  readyState : ℕ → ReadyState
  sockets : ℕ
  timer : ℕ → Option ℤ
  timers : ℕ
  submitted : List Frame
  sent : List (ℕ × Frame)

/-- The constructor. -/
def start (sessionId : String) : Client where
  sessionId := sessionId
  socket := none
  retryTimer := none
  attempts := 0
  disposed := false
  queue := []
  connectionState := none
  readyState _ := .closed
  sockets := 0
  timer _ := none
  timers := 0
  submitted := []
  sent := []

/-- The delay before an attempt; `Math.round` rounds halves up. -/
def reconnectDelay (attempts : ℕ) (random : ℚ) : ℤ :=
  let base := min 10000 (500 * 2 ^ min (attempts - 1) 5 : ℕ)
  ⌊(base : ℚ) * (4 / 5 + random * (2 / 5)) + 1 / 2⌋

namespace Client

/-! ## Methods and handlers -/

/-- The browser changes the `readyState` of a socket. -/
def setReadyState (s : Client) (i : ℕ) (readyState : ReadyState) : Client :=
  { s with readyState := Function.update s.readyState i readyState }

/-- `socket.close()`. -/
def closeSocket (s : Client) (i : ℕ) : Client :=
  match s.readyState i with
  | .connecting | .open => s.setReadyState i .closing
  | .closing | .closed => s

/-- `connect`, with a new socket. -/
def connect (s : Client) : Client :=
  if s.disposed = true ∨ s.socket ≠ none then s
  else { s with
    connectionState := some (if s.attempts ≠ 0 then .reconnecting else .connecting)
    socket := some s.sockets
    sockets := s.sockets + 1
    readyState := Function.update s.readyState s.sockets .connecting }

/-- `scheduleReconnect`; the jitter is drawn. -/
def scheduleReconnect (s : Client) (random : ℚ) : Client :=
  { s with
    attempts := s.attempts + 1
    connectionState := some .reconnecting
    timer := Function.update s.timer s.timers (some (reconnectDelay (s.attempts + 1) random))
    retryTimer := some s.timers
    timers := s.timers + 1 }

/-- `onopen`. -/
def onOpen (s : Client) (i : ℕ) : Client :=
  if s.socket ≠ some i ∨ s.disposed = true then s
  else { s with
    attempts := 0
    connectionState := some .connected
    sent := s.sent ++ s.queue.map (i, ·)
    queue := [] }

/-- `onclose`. -/
def onClose (s : Client) (i : ℕ) (random : ℚ) : Client :=
  let s := if s.socket = some i then { s with socket := none } else s
  if s.disposed then { s with connectionState := some .disconnected }
  else s.scheduleReconnect random

/-- `send`. -/
def send (s : Client) (frame : Frame) : Client :=
  let s := { s with submitted := s.submitted ++ [frame] }
  match s.socket with
  | some i =>
    if s.readyState i = .open then { s with sent := s.sent ++ [(i, frame)] }
    else connect { s with queue := s.queue ++ [frame] }
  | none => connect { s with queue := s.queue ++ [frame] }

/-- The callback of a timer. -/
def onTimer (s : Client) (t : ℕ) : Client :=
  connect { s with
    timer := Function.update s.timer t none
    retryTimer := none }

/-- `close`. -/
def close (s : Client) : Client :=
  let s := { s with
    disposed := true
    timer := match s.retryTimer with
      | some t => Function.update s.timer t none
      | none => s.timer
    retryTimer := none
    queue := [] }
  let s := match s.socket with
    | some i => s.closeSocket i
    | none => s
  { s with
    socket := none
    connectionState := some .disconnected }

end Client

/-! ## Steps -/

/-- What the page or the browser does. -/
inductive Label
  | sendUserMessage (text : String) (route : AgentRoute)
  | interrupt (newInput : Option String) (route : AgentRoute)
  | connect
  | close
  /-- A socket becomes open, together with its event. -/
  | opened (i : ℕ)
  /-- A socket reports an error. -/
  | errored (i : ℕ)
  /-- The closing handshake of a socket is started by the other side. -/
  | closing (i : ℕ)
  /-- A socket becomes closed, together with its event; the jitter is drawn. -/
  | closed (i : ℕ) (random : ℚ)
  /-- A timer fires. -/
  | fire (t : ℕ)
  deriving DecidableEq, Repr

/-- The state after a step. -/
def next (s : Client) : Label → Option Client
  | .sendUserMessage text route => some (s.send (.userMessage s.sessionId text route))
  | .interrupt newInput route => some (s.send (.interruptRequested s.sessionId newInput route))
  | .connect => some s.connect
  | .close => some s.close
  | .opened i =>
    if s.readyState i = .connecting then some ((s.setReadyState i .open).onOpen i) else none
  | .errored i => if s.readyState i ≠ .closed then some (s.closeSocket i) else none
  | .closing i => if s.readyState i = .open then some (s.setReadyState i .closing) else none
  | .closed i random =>
    if s.readyState i ≠ .closed then some ((s.setReadyState i .closed).onClose i random) else none
  | .fire t => if s.timer t ≠ none then some (s.onTimer t) else none

/-- The client as a machine. -/
def machine : Machine Client Label := ⟨next⟩

/-! ## Frames -/

/-- The frames that were handed to sockets, in the order of time. -/
def Client.handed (s : Client) : List Frame := s.sent.map Prod.snd

/-- What is submitted is what was sent, and then the queue; a socket that is open leaves nothing in
the queue, and every socket that is not closed is the client's own.  After `close` nothing is
sent. -/
structure Sound (s : Client) : Prop where
  sent : s.handed <+: s.submitted
  frames : s.disposed = false → s.handed ++ s.queue = s.submitted
  flushed : s.disposed = false → ∀ i, s.socket = some i → s.readyState i = .open → s.queue = []
  owned : s.disposed = false → ∀ i, s.readyState i ≠ .closed → s.socket = some i
  disposed : s.disposed = true → s.socket = none
  single : ∀ i j, s.readyState i ≠ .closed → s.readyState j ≠ .closed → i = j
  fresh : ∀ i, s.sockets ≤ i → s.readyState i = .closed

theorem sound_start (sessionId : String) : Sound (start sessionId) :=
  ⟨List.prefix_rfl, fun _ => rfl, nofun, fun _ _ h => absurd rfl h, nofun,
    fun _ _ h => absurd rfl h, fun _ _ => rfl⟩

section

variable {s s' : Client} {i : ℕ} {x : ReadyState}

theorem readyState_setReadyState_self : (s.setReadyState i x).readyState i = x :=
  Function.update_self ..

theorem readyState_setReadyState_of_ne {j : ℕ} (h : j ≠ i) :
    (s.setReadyState i x).readyState j = s.readyState j := Function.update_of_ne h _ _

/-- A socket that is going down. -/
theorem Sound.setReadyState (h : Sound s) (hopen : x ≠ .open)
    (halive : x ≠ .closed → s.readyState i ≠ .closed) : Sound (s.setReadyState i x) := by
  -- a socket that is not closed was not closed before
  have hbefore (j : ℕ) (hj : (s.setReadyState i x).readyState j ≠ .closed) :
      s.readyState j ≠ .closed := by
    by_cases hji : j = i
    · subst hji
      rw [readyState_setReadyState_self] at hj
      exact halive hj
    · rwa [readyState_setReadyState_of_ne hji] at hj
  refine ⟨h.sent, h.frames, fun hon j hj hjopen => ?_, fun hon j hj => h.owned hon j (hbefore j hj),
    h.disposed, fun j k hj hk => h.single j k (hbefore j hj) (hbefore k hk), fun j hj => ?_⟩
  · by_cases hji : j = i
    · subst hji
      rw [readyState_setReadyState_self] at hjopen
      exact absurd hjopen hopen
    · rw [readyState_setReadyState_of_ne hji] at hjopen
      exact h.flushed hon j hj hjopen
  · by_contra hne
    exact hbefore j hne (h.fresh j hj)

theorem Sound.closeSocket (h : Sound s) (i : ℕ) : Sound (s.closeSocket i) := by
  unfold Client.closeSocket
  split
  case h_1 hi | h_2 hi =>
    refine h.setReadyState (by decide) fun _ => ?_
    rw [hi]
    decide
  case h_3 | h_4 => exact h

/-- A new socket is opened only when all others are closed. -/
theorem Sound.connect (h : Sound s) : Sound s.connect := by
  unfold Client.connect
  by_cases hstop : s.disposed = true ∨ s.socket ≠ none
  · rw [if_pos hstop]
    exact h
  rw [if_neg hstop]
  rw [not_or, Bool.not_eq_true, not_not] at hstop
  obtain ⟨hon, hnone⟩ := hstop
  have hclosed (j : ℕ) : s.readyState j = .closed := by
    by_contra hj
    have hsome := h.owned hon j hj
    rw [hnone] at hsome
    cases hsome
  have honly (j : ℕ) (hj : Function.update s.readyState s.sockets .connecting j ≠ .closed) :
      j = s.sockets := by
    by_contra hne
    rw [Function.update_of_ne hne] at hj
    exact hj (hclosed j)
  refine ⟨h.sent, h.frames, fun _ j hj hopen => ?_, fun _ j hj => ?_, fun hoff => ?_,
    fun j k hj hk => (honly j hj).trans (honly k hk).symm, fun j hj => ?_⟩
  · obtain rfl := Option.some.inj hj
    simp only [Function.update_self] at hopen
    cases hopen
  · exact congrArg some (honly j hj).symm
  · exact absurd (hon.symm.trans hoff) Bool.false_ne_true
  · have hne : j ≠ s.sockets := (Nat.lt_of_succ_le hj).ne'
    simp only [Function.update_of_ne hne]
    exact hclosed j

/-- The queue is flushed as soon as the socket is open. -/
theorem Sound.opened (h : Sound s) (hi : s.readyState i = .connecting) :
    Sound ((s.setReadyState i .open).onOpen i) := by
  have hbefore (j : ℕ) (hj : (s.setReadyState i .open).readyState j ≠ .closed) :
      s.readyState j ≠ .closed := by
    by_cases hji : j = i
    · subst hji
      rw [hi]
      decide
    · rwa [readyState_setReadyState_of_ne hji] at hj
  have hfresh (j : ℕ) (hj : s.sockets ≤ j) : (s.setReadyState i .open).readyState j = .closed := by
    by_contra hne
    exact hbefore j hne (h.fresh j hj)
  have hsingle (j k : ℕ) (hj : (s.setReadyState i .open).readyState j ≠ .closed)
      (hk : (s.setReadyState i .open).readyState k ≠ .closed) : j = k :=
    h.single j k (hbefore j hj) (hbefore k hk)
  cases hdisposed : s.disposed with
  | true =>
    have hnever {p : Prop} (hon : s.disposed = false) : p :=
      absurd (hdisposed.symm.trans hon) Bool.false_ne_true.symm
    rw [Client.onOpen, if_pos (.inr hdisposed)]
    exact ⟨h.sent, hnever, hnever, hnever, h.disposed, hsingle, hfresh⟩
  | false =>
    have hsocket : s.socket = some i := by
      refine h.owned hdisposed i ?_
      rw [hi]
      decide
    have hflushed : (s.sent ++ s.queue.map (i, ·)).map Prod.snd = s.submitted := by
      rw [List.map_append, List.map_map, ← h.frames hdisposed]
      exact congrArg (s.handed ++ ·) (List.map_id s.queue)
    have hgoes : ¬ ((s.setReadyState i .open).socket ≠ some i ∨
        (s.setReadyState i .open).disposed = true) := by
      rintro (hne | hoff)
      · exact hne hsocket
      · exact absurd (hdisposed.symm.trans hoff) Bool.false_ne_true
    rw [Client.onOpen, if_neg hgoes]
    refine ⟨hflushed ▸ List.prefix_rfl, fun _ => ?_, fun _ _ _ _ => rfl,
      fun hon j hj => h.owned hon j (hbefore j hj), h.disposed, hsingle, hfresh⟩
    rw [List.append_nil]
    exact hflushed

/-- A socket that is closed is given up, and another one is asked for. -/
theorem Sound.onClose (h : Sound s) (hi : s.readyState i = .closed) (random : ℚ) :
    Sound (s.onClose i random) := by
  have hgiven : Sound (if s.socket = some i then { s with socket := none } else s) := by
    split_ifs with hsocket
    · refine ⟨h.sent, h.frames, nofun, fun hon j hj => ?_, fun _ => rfl, h.single, h.fresh⟩
      have hji : i = j := Option.some.inj (hsocket.symm.trans (h.owned hon j hj))
      exact absurd (hji ▸ hi) hj
    · exact h
  unfold Client.onClose
  simp only
  generalize (if s.socket = some i then { s with socket := none } else s) = s' at hgiven ⊢
  split_ifs
  · exact ⟨hgiven.sent, hgiven.frames, hgiven.flushed, hgiven.owned, hgiven.disposed,
      hgiven.single, hgiven.fresh⟩
  · exact ⟨hgiven.sent, hgiven.frames, hgiven.flushed, hgiven.owned, hgiven.disposed,
      hgiven.single, hgiven.fresh⟩

/-- A frame that is queued comes behind those that were submitted before. -/
theorem Sound.push (h : Sound s) (frame : Frame)
    (hqueued : s.disposed = false → ∀ i, s.socket = some i → s.readyState i ≠ .open) :
    Sound { s with submitted := s.submitted ++ [frame], queue := s.queue ++ [frame] } := by
  refine ⟨h.sent.trans (List.prefix_append ..), fun hon => ?_,
    fun hon i hi hopen => absurd hopen (hqueued hon i hi), h.owned, h.disposed, h.single, h.fresh⟩
  rw [← h.frames hon, List.append_assoc]
  rfl

theorem Sound.send (h : Sound s) (frame : Frame) : Sound (s.send frame) := by
  unfold Client.send
  simp only
  cases hsocket : s.socket with
  | none =>
    have hpush := h.push frame fun _ i hi => absurd (hsocket.symm.trans hi) nofun
    rw [hsocket] at hpush
    exact hpush.connect
  | some i =>
    have hon : s.disposed = false := by
      by_contra hoff
      rw [h.disposed (Bool.not_eq_false _ ▸ hoff)] at hsocket
      cases hsocket
    simp only
    split_ifs with hopen
    · -- the socket that is open has taken the queue
      have hempty := h.flushed hon i hsocket hopen
      have hframes := h.frames hon
      rw [hempty, List.append_nil] at hframes
      have hhanded : (s.sent ++ [(i, frame)]).map Prod.snd = s.submitted ++ [frame] := by
        rw [List.map_append, ← hframes]
        rfl
      refine ⟨hhanded ▸ List.prefix_rfl, fun _ => ?_, fun _ _ _ _ => hempty, fun hon j hj => ?_,
        fun hoff => ?_, h.single, h.fresh⟩
      · simp only [Client.handed, hempty, List.append_nil]
        exact hhanded
      · exact hsocket.symm.trans (h.owned hon j hj)
      · exact absurd (hon.symm.trans hoff) Bool.false_ne_true
    · have hpush := h.push frame fun _ j hj => by
        rwa [← Option.some.inj (hsocket.symm.trans hj)]
      rw [hsocket] at hpush
      exact hpush.connect

/-- What closing a socket does to the sockets. -/
theorem exists_closeSocket_eq (s : Client) (i : ℕ) :
    ∃ readyState : ℕ → ReadyState, s.closeSocket i = { s with readyState := readyState } ∧
      ∀ j, readyState j ≠ .closed → s.readyState j ≠ .closed := by
  have hsame : ∃ readyState : ℕ → ReadyState, s = { s with readyState := readyState } ∧
      ∀ j, readyState j ≠ .closed → s.readyState j ≠ .closed := ⟨s.readyState, rfl, fun _ => id⟩
  unfold Client.closeSocket
  split
  case h_1 hi | h_2 hi =>
    refine ⟨_, rfl, fun j hj => ?_⟩
    by_cases hji : j = i
    · subst hji
      rw [hi]
      decide
    · rwa [Function.update_of_ne hji] at hj
  case h_3 | h_4 => exact hsame

/-- A disposed client closes its socket and gives it up. -/
theorem sound_closeSocket (hsent : s.handed <+: s.submitted) (hdisposed : s.disposed = true)
    (hsingle : ∀ i j, s.readyState i ≠ .closed → s.readyState j ≠ .closed → i = j)
    (hfresh : ∀ i, s.sockets ≤ i → s.readyState i = .closed) (i : ℕ)
    (state : Option ChatConnectionState) :
    Sound { s.closeSocket i with socket := none, connectionState := state } := by
  have hnever {p : Prop} (hon : s.disposed = false) : p :=
    absurd (hdisposed.symm.trans hon) Bool.false_ne_true.symm
  obtain ⟨readyState, hclose, halive⟩ := exists_closeSocket_eq s i
  rw [hclose]
  refine ⟨hsent, hnever, hnever, hnever, fun _ => rfl,
    fun j k hj hk => hsingle j k (halive j hj) (halive k hk), fun j hj => ?_⟩
  by_contra hne
  exact halive j hne (hfresh j hj)

/-- After `close` nothing is sent. -/
theorem Sound.close (h : Sound s) : Sound s.close := by
  unfold Client.close
  cases s.socket with
  | none =>
    have hnever {p : Prop} (hon : true = false) : p := absurd hon Bool.false_ne_true.symm
    exact ⟨h.sent, hnever, hnever, hnever, fun _ => rfl, h.single, h.fresh⟩
  | some i =>
    refine sound_closeSocket ?_ ?_ ?_ ?_ i _
    · exact h.sent
    · exact rfl
    · exact h.single
    · exact h.fresh

theorem Sound.next {l : Label} (h : Sound s) (hs : next s l = some s') : Sound s' := by
  cases l <;> simp only [SocketClient.next, Option.ite_none_right_eq_some, Option.some.injEq] at hs
  case sendUserMessage | interrupt =>
    subst hs
    exact h.send _
  case connect =>
    subst hs
    exact h.connect
  case close =>
    subst hs
    exact h.close
  case opened i =>
    obtain ⟨hi, rfl⟩ := hs
    exact h.opened hi
  case errored i =>
    obtain ⟨-, rfl⟩ := hs
    exact h.closeSocket i
  case closing i =>
    obtain ⟨hi, rfl⟩ := hs
    refine h.setReadyState (by decide) fun _ => ?_
    rw [hi]
    decide
  case closed i random =>
    obtain ⟨-, rfl⟩ := hs
    have hclosed := h.setReadyState (i := i) (x := .closed) (by decide) fun hne => absurd rfl hne
    exact hclosed.onClose readyState_setReadyState_self random
  case fire t =>
    obtain ⟨-, rfl⟩ := hs
    have htimer : Sound { s with timer := Function.update s.timer t none, retryTimer := none } :=
      ⟨h.sent, h.frames, h.flushed, h.owned, h.disposed, h.single, h.fresh⟩
    exact htimer.connect

/-- **Frames are sent in order and once, over one socket at a time.**  Whatever the sockets and the
timers do, the frames handed to sockets are a prefix of the frames submitted, and until `close` the
others are queued; no two sockets of the client are not closed. -/
theorem frames_in_order (sessionId : String) (h : machine.Reachable (start sessionId) s) :
    s.handed <+: s.submitted ∧ (s.disposed = false → s.handed ++ s.queue = s.submitted) ∧
    ∀ i j, s.readyState i ≠ .closed → s.readyState j ≠ .closed → i = j := by
  have hsound := h.invariant Sound (sound_start sessionId) fun _ _ _ hsound _ hs => hsound.next hs
  exact ⟨hsound.sent, hsound.frames, hsound.single⟩

end

/-- A message waits for the socket, another one goes straight through it, and a third one, sent
after the socket has closed, opens the next socket. -/
theorem frames_in_order_reconnect : ∃ s : Client,
    s.sent.map Prod.fst = [0, 0, 1] ∧ s.handed = s.submitted ∧
    ∀ i j, s.readyState i ≠ .closed → s.readyState j ≠ .closed → i = j := by
  obtain ⟨s, hs, hp⟩ := machine.exists_reachable (start "session-1")
    [.sendUserMessage "a" .auto, .opened 0, .interrupt (some "b") .ticket, .errored 0,
      .closed 0 (1 / 2), .sendUserMessage "c" .auto, .fire 0, .opened 1]
    (fun s => decide (s.sent.map Prod.fst = [0, 0, 1] ∧ s.queue = []) && !s.disposed)
    (by decide +kernel)
  simp only [Bool.and_eq_true, decide_eq_true_eq, Bool.not_eq_true'] at hp
  obtain ⟨⟨hsent, hqueue⟩, hon⟩ := hp
  obtain ⟨-, hframes, hsingle⟩ := frames_in_order "session-1" hs
  have hall := hframes hon
  rw [hqueue, List.append_nil] at hall
  exact ⟨s, hsent, hall, hsingle⟩

end SocketClient

end Chat

end TrackFlow
