import TrackFlow.LTS.Machine
import Mathlib.Data.List.Nodup

/-!
# The live RFP list

`useRfpTicketStream` of the backoffice client.  Every opening of the event stream, and every manual
refresh, requests a snapshot; events that arrive while a snapshot is under way are buffered, and
merged with it when it arrives.

* `stream` : the machine; requests overlap, and are answered in any order.
* `FailureCovered` : the condition on a step; a failure drops no event of a ticket that is not
  displayed.
* `Shown` : the invariant.
* `no_ticket_lost` : **the list over every run that meets the condition.**
* `failed_refresh_loses_ticket` : the run in which a failed refresh drops an event.
-/

namespace TrackFlow

namespace Realtime

/-- `RfpTicketStatus`. -/
inductive RfpTicketStatus
  | analyzing
  | waitingForApproval
  | drafting
  | underEvaluation
  | done
  | discarded
  deriving DecidableEq, Repr

/-- `RfpTicketSummary`. -/
structure RfpTicketSummary where
  id : String
  rfpId : String
  status : RfpTicketStatus
  clientName : Option String
  clientCountry : Option String
  currency : Option String
  departmentsNeeded : Option (List String)
  createdAt : String
  updatedAt : String
  deriving DecidableEq, Repr

/-- `RfpTicketCreatedEvent`. -/
structure RfpTicketCreatedEvent where
  ticketId : String
  rfpId : String
  clientName : Option String
  clientCountry : Option String
  servicesRequested : List String
  status : RfpTicketStatus
  createdAt : String
  deriving DecidableEq, Repr

/-- `eventToRfpSummary`. -/
def eventToRfpSummary (event : RfpTicketCreatedEvent) : RfpTicketSummary where
  id := event.ticketId
  rfpId := event.rfpId
  status := event.status
  clientName := event.clientName
  clientCountry := event.clientCountry
  currency := none
  departmentsNeeded := none
  createdAt := event.createdAt
  updatedAt := event.createdAt

/-- The loop of `mergeRfpSnapshot`: `unshift` puts the newest addition first. -/
def additions (seen : List String) :
    List RfpTicketCreatedEvent → List RfpTicketSummary → List RfpTicketSummary
  | [], acc => acc
  | event :: events, acc =>
    if event.ticketId ∈ seen then additions seen events acc
    else additions (event.ticketId :: seen) events (eventToRfpSummary event :: acc)

/-- `mergeRfpSnapshot`. -/
def mergeRfpSnapshot (snapshot : List RfpTicketSummary)
    (notifications : List RfpTicketCreatedEvent) : List RfpTicketSummary :=
  additions (snapshot.map RfpTicketSummary.id) notifications [] ++ snapshot

/-- What the list endpoint answers: rows with a primary key. -/
structure Snapshot where
  tickets : List RfpTicketSummary
  nodup : (tickets.map RfpTicketSummary.id).Nodup

/-! ## The merge -/

section

variable {snapshot acc : List RfpTicketSummary} {events : List RfpTicketCreatedEvent}
  {seen : List String} {ticketId : String}

theorem mem_ids_additions :
    ticketId ∈ (additions seen events acc).map RfpTicketSummary.id ↔
      ticketId ∈ acc.map RfpTicketSummary.id ∨
        (ticketId ∈ events.map RfpTicketCreatedEvent.ticketId ∧ ticketId ∉ seen) := by
  induction events generalizing seen acc with
  | nil => simp [additions]
  | cons event events ih =>
    rw [additions]
    split_ifs with hseen
    · rw [ih, List.map_cons, List.mem_cons]
      refine or_congr_right ⟨fun h => ⟨.inr h.1, h.2⟩, fun h => ⟨?_, h.2⟩⟩
      rcases h.1 with rfl | h'
      · exact (h.2 hseen).elim
      · exact h'
    · rw [ih, List.map_cons, List.map_cons, List.mem_cons, List.mem_cons, List.mem_cons]
      by_cases he : ticketId = event.ticketId
      · simp [he, hseen, eventToRfpSummary]
      · simp [he, eventToRfpSummary]

theorem nodup_ids_additions (h : (acc.map RfpTicketSummary.id).Nodup)
    (hseen : ∀ i ∈ acc.map RfpTicketSummary.id, i ∈ seen) :
    ((additions seen events acc).map RfpTicketSummary.id).Nodup := by
  induction events generalizing seen acc with
  | nil => exact h
  | cons event events ih =>
    rw [additions]
    split_ifs with hevent
    · exact ih h hseen
    · refine ih ?_ fun i hi => ?_
      · rw [List.map_cons]
        exact List.nodup_cons.2 ⟨fun hmem => hevent (hseen _ hmem), h⟩
      · rw [List.map_cons] at hi
        rcases List.mem_cons.1 hi with rfl | hi
        · exact List.mem_cons_self
        · exact List.mem_cons_of_mem _ (hseen i hi)

/-- The tickets of a merge. -/
theorem mem_ids_mergeRfpSnapshot :
    ticketId ∈ (mergeRfpSnapshot snapshot events).map RfpTicketSummary.id ↔
      ticketId ∈ snapshot.map RfpTicketSummary.id ∨
        ticketId ∈ events.map RfpTicketCreatedEvent.ticketId := by
  rw [mergeRfpSnapshot, List.map_append, List.mem_append, mem_ids_additions, List.map_nil]
  by_cases h : ticketId ∈ snapshot.map RfpTicketSummary.id
  · simp [h]
  · simp [h]

/-- **A merge shows every ticket once.** -/
theorem nodup_ids_mergeRfpSnapshot (h : (snapshot.map RfpTicketSummary.id).Nodup) :
    ((mergeRfpSnapshot snapshot events).map RfpTicketSummary.id).Nodup := by
  rw [mergeRfpSnapshot, List.map_append]
  refine List.Nodup.append (nodup_ids_additions List.nodup_nil fun i hi => ?_) h fun i hi hi' => ?_
  · exact (List.not_mem_nil hi).elim
  · rcases mem_ids_additions.1 hi with hi | ⟨-, hi⟩
    · exact List.not_mem_nil hi
    · exact hi hi'

end

/-! ## The machine -/

/-- The state of the hook, the requests under way, and what has happened so far. -/
structure ListState where
  /-- `tickets`; `none` before the first snapshot. -/
  tickets : Option (List RfpTicketSummary) := none
  error : Option String := none
  newTicketId : Option String := none
  buffering : Bool := true
  bufferedEvents : List RfpTicketCreatedEvent := []
  snapshotVersion : ℕ := 0
  /-- The versions of the requests that have not been answered. -/
  inFlight : List ℕ := []
  /-- Every event received, in order. -/
  received : List RfpTicketCreatedEvent := []
  /-- How many events had been received when the request of a version started. -/
  startedAt : ℕ → ℕ := fun _ => 0
  /-- How many events had been received when `buffering` was last set. -/
  bufferingFrom : ℕ := 0
  /-- The last snapshot that was displayed, and the version of its request. -/
  last : Option (ℕ × Snapshot) := none

/-- What the list shows. -/
def ListState.displayed (s : ListState) : List RfpTicketSummary := s.tickets.getD []

/-- What can happen to the list. -/
inductive ListEvent
  /-- The stream opens or reconnects, or the user refreshes: `refreshSnapshot`. -/
  | refresh
  /-- The request of a version succeeds. -/
  | succeed (version : ℕ) (snapshot : Snapshot)
  /-- The request of a version fails. -/
  | fail (version : ℕ) (message : String)
  /-- An `rfp_ticket_created` event arrives. -/
  | receive (event : RfpTicketCreatedEvent)

/-- The list after an event. -/
def ListState.next (s : ListState) : ListEvent → Option ListState
  | .refresh =>
    some { s with
      snapshotVersion := s.snapshotVersion + 1
      buffering := true
      bufferedEvents := []
      inFlight := s.inFlight ++ [s.snapshotVersion + 1]
      startedAt := fun v =>
        if v = s.snapshotVersion + 1 then s.received.length else s.startedAt v
      bufferingFrom := if s.buffering then s.bufferingFrom else s.received.length }
  | .succeed version snapshot =>
    if version ∈ s.inFlight then
      let answered := { s with inFlight := s.inFlight.erase version }
      -- a superseded response is dropped
      if version ≠ s.snapshotVersion then some answered
      else
        some { answered with
          tickets := some (mergeRfpSnapshot snapshot.tickets s.bufferedEvents)
          error := none
          buffering := false
          last := some (version, snapshot) }
    else none
  | .fail version message =>
    if version ∈ s.inFlight then
      let answered := { s with inFlight := s.inFlight.erase version }
      if version ≠ s.snapshotVersion then some answered
      else some { answered with error := some message, buffering := false }
    else none
  | .receive event =>
    let noticed :=
      { s with
        error := none
        newTicketId := some event.ticketId
        received := s.received ++ [event] }
    if s.buffering then
      some { noticed with bufferedEvents := s.bufferedEvents ++ [event] }
    else some { noticed with tickets := some (mergeRfpSnapshot s.displayed [event]) }

/-- The live list. -/
def stream : Machine ListState ListEvent := ⟨ListState.next⟩

/-- The condition on a step: when the latest request fails after a snapshot was displayed, every
event received since buffering began is about a ticket that is displayed. -/
def FailureCovered (s : ListState) : ListEvent → Prop
  | .fail version _ => version = s.snapshotVersion → s.last.isSome = true →
    ∀ event ∈ s.received.drop s.bufferingFrom,
      event.ticketId ∈ s.displayed.map RfpTicketSummary.id
  | _ => True

instance (s : ListState) (event : ListEvent) : Decidable (FailureCovered s event) := by
  cases event <;> unfold FailureCovered <;> infer_instance

/-! ## The invariant -/

/-- The invariant: after a snapshot was displayed, its tickets and those of the events since its
request started are displayed, or the event came while events are buffered. -/
structure Shown (s : ListState) : Prop where
  nodup : (s.displayed.map RfpTicketSummary.id).Nodup
  unique : s.inFlight.Nodup
  issued : ∀ v ∈ s.inFlight, v ≤ s.snapshotVersion
  starts : ∀ v, s.startedAt v ≤ s.received.length
  bufferingFrom : s.bufferingFrom ≤ s.received.length
  waits : s.buffering = true → s.snapshotVersion ∈ s.inFlight ∨ s.last = none
  buffers : s.snapshotVersion ∈ s.inFlight → s.buffering = true ∧
    s.bufferedEvents = s.received.drop (s.startedAt s.snapshotVersion)
  current : ∀ v snapshot, s.last = some (v, snapshot) → v ≤ s.snapshotVersion
  snapshot : ∀ v snapshot, s.last = some (v, snapshot) →
    ∀ i ∈ snapshot.tickets.map RfpTicketSummary.id, i ∈ s.displayed.map RfpTicketSummary.id
  events : ∀ v snapshot, s.last = some (v, snapshot) → ∀ event ∈ s.received.drop (s.startedAt v),
    event.ticketId ∈ s.displayed.map RfpTicketSummary.id ∨
      (s.buffering = true ∧ event ∈ s.received.drop s.bufferingFrom)

section

variable {s s' : ListState}

theorem Shown.start : Shown {} where
  nodup := List.nodup_nil
  unique := List.nodup_nil
  issued _ hv := (List.not_mem_nil hv).elim
  starts _ := Nat.zero_le _
  bufferingFrom := Nat.zero_le _
  waits _ := .inr rfl
  buffers hv := (List.not_mem_nil hv).elim
  current _ _ hlast := by cases hlast
  snapshot _ _ hlast := by cases hlast
  events _ _ hlast := by cases hlast

/-- A snapshot is requested. -/
theorem Shown.refresh (h : Shown s) (hnext : s.next .refresh = some s') : Shown s' := by
  cases hnext
  have hnew : s.snapshotVersion + 1 ∉ s.inFlight := by
    intro hv
    have hle := h.issued _ hv
    omega
  have hstart {v : ℕ} (hv : v ≤ s.snapshotVersion) :
      (if v = s.snapshotVersion + 1 then s.received.length else s.startedAt v) = s.startedAt v :=
    if_neg (by omega)
  refine ⟨h.nodup, ?_, fun v hv => ?_, fun v => ?_, ?_, fun _ => .inl ?_, fun _ => ⟨rfl, ?_⟩,
    fun v snapshot hlast => ?_, h.snapshot, fun v snapshot hlast event hevent => ?_⟩
  · exact h.unique.append (List.nodup_singleton _) fun v hv hv' =>
      hnew (List.mem_singleton.1 hv' ▸ hv)
  · show v ≤ s.snapshotVersion + 1
    rcases List.mem_append.1 hv with hv | hv
    · exact Nat.le_succ_of_le (h.issued v hv)
    · exact Nat.le_of_eq (List.mem_singleton.1 hv)
  · dsimp only
    split_ifs
    · exact Nat.le_refl _
    · exact h.starts v
  · dsimp only
    split_ifs
    · exact h.bufferingFrom
    · exact Nat.le_refl _
  · exact List.mem_append_right _ (List.mem_singleton_self _)
  · simp
  · exact Nat.le_succ_of_le (h.current v snapshot hlast)
  · dsimp only at hevent ⊢
    rw [hstart (h.current v snapshot hlast)] at hevent
    rcases h.events v snapshot hlast event hevent with hshown | ⟨hbuffering, hbuffered⟩
    · exact .inl hshown
    · rw [if_pos hbuffering]
      exact .inr ⟨rfl, hbuffered⟩

/-- A response that is superseded. -/
theorem Shown.superseded (h : Shown s) {version : ℕ} (hversion : version ≠ s.snapshotVersion) :
    Shown { s with inFlight := s.inFlight.erase version } := by
  have hmem {v : ℕ} (hv : v ≠ version) : v ∈ s.inFlight.erase version ↔ v ∈ s.inFlight :=
    List.mem_erase_of_ne hv
  exact { h with
    unique := h.unique.erase _
    issued := fun v hv => h.issued v (List.mem_of_mem_erase hv)
    waits := fun hb => (h.waits hb).imp_left (hmem hversion.symm).2
    buffers := fun hv => h.buffers ((hmem hversion.symm).1 hv) }

/-- A request that succeeds. -/
theorem Shown.succeed (h : Shown s) {version : ℕ} {snapshot : Snapshot}
    (hnext : s.next (.succeed version snapshot) = some s') : Shown s' := by
  simp only [ListState.next] at hnext
  split_ifs at hnext with hflight hversion
  · cases hnext
    exact h.superseded hversion
  · cases hnext
    obtain rfl := not_not.1 hversion
    obtain ⟨-, hbuffered⟩ := h.buffers hflight
    have hgone : s.snapshotVersion ∉ s.inFlight.erase s.snapshotVersion :=
      fun hv => (List.Nodup.mem_erase_iff h.unique).1 hv |>.1 rfl
    refine ⟨nodup_ids_mergeRfpSnapshot snapshot.nodup, h.unique.erase _,
      fun v hv => h.issued v (List.mem_of_mem_erase hv), h.starts, h.bufferingFrom,
      fun hb => (Bool.false_ne_true hb).elim, fun hv => (hgone hv).elim, ?_, ?_, ?_⟩
    · rintro v snapshot' hlast
      cases hlast
      exact Nat.le_refl _
    · rintro v snapshot' hlast i hi
      cases hlast
      exact mem_ids_mergeRfpSnapshot.2 (.inl hi)
    · rintro v snapshot' hlast event hevent
      cases hlast
      -- the events since the request started are those that were buffered
      rw [← hbuffered] at hevent
      exact .inl (mem_ids_mergeRfpSnapshot.2 (.inr (List.mem_map_of_mem hevent)))

/-- A request that fails without dropping a ticket. -/
theorem Shown.fail (h : Shown s) {version : ℕ} {message : String}
    (hcovered : FailureCovered s (.fail version message))
    (hnext : s.next (.fail version message) = some s') : Shown s' := by
  simp only [ListState.next] at hnext
  split_ifs at hnext with hflight hversion
  · cases hnext
    exact h.superseded hversion
  · cases hnext
    obtain rfl := not_not.1 hversion
    have hgone : s.snapshotVersion ∉ s.inFlight.erase s.snapshotVersion :=
      fun hv => (List.Nodup.mem_erase_iff h.unique).1 hv |>.1 rfl
    refine ⟨h.nodup, h.unique.erase _, fun v hv => h.issued v (List.mem_of_mem_erase hv), h.starts,
      h.bufferingFrom, fun hb => (Bool.false_ne_true hb).elim, fun hv => (hgone hv).elim,
      h.current, h.snapshot,
      fun v snapshot hlast event hevent => .inl ?_⟩
    rcases h.events v snapshot hlast event hevent with hshown | ⟨-, hbuffered⟩
    · exact hshown
    · exact hcovered rfl (by rw [show s.last = some (v, snapshot) from hlast]; rfl) event hbuffered

/-- An event arrives. -/
theorem Shown.receive (h : Shown s) {event : RfpTicketCreatedEvent}
    (hnext : s.next (.receive event) = some s') : Shown s' := by
  have hdrop {n : ℕ} (hn : n ≤ s.received.length) :
      (s.received ++ [event]).drop n = s.received.drop n ++ [event] :=
    List.drop_append_of_le_length hn
  have hlength : ∀ n, n ≤ s.received.length → n ≤ (s.received ++ [event]).length := by
    intro n hn
    rw [List.length_append]
    omega
  simp only [ListState.next] at hnext
  split_ifs at hnext with hbuffering
  · cases hnext
    refine ⟨h.nodup, h.unique, h.issued, fun v => hlength _ (h.starts v),
      hlength _ h.bufferingFrom, h.waits, fun hv => ⟨hbuffering, ?_⟩, h.current, h.snapshot, ?_⟩
    · dsimp only
      rw [hdrop (h.starts _), (h.buffers hv).2]
    · intro v snapshot hlast e he
      dsimp only at he ⊢
      rw [hdrop (h.starts v)] at he
      rw [hdrop h.bufferingFrom]
      rcases List.mem_append.1 he with he | he
      · exact (h.events v snapshot hlast e he).imp_right fun hb =>
          ⟨hb.1, List.mem_append_left _ hb.2⟩
      · exact .inr ⟨hbuffering, List.mem_append_right _ he⟩
  · cases hnext
    have hidle : s.snapshotVersion ∉ s.inFlight := fun hv => hbuffering (h.buffers hv).1
    have hkeep {i : String} (hi : i ∈ s.displayed.map RfpTicketSummary.id) :
        i ∈ (mergeRfpSnapshot s.displayed [event]).map RfpTicketSummary.id :=
      mem_ids_mergeRfpSnapshot.2 (.inl hi)
    refine ⟨nodup_ids_mergeRfpSnapshot h.nodup, h.unique, h.issued, fun v => hlength _ (h.starts v),
      hlength _ h.bufferingFrom, fun hb => (hbuffering hb).elim, fun hv => (hidle hv).elim,
      h.current, fun v snapshot hlast i hi => hkeep (h.snapshot v snapshot hlast i hi), ?_⟩
    intro v snapshot hlast e he
    dsimp only at he
    rw [hdrop (h.starts v)] at he
    rcases List.mem_append.1 he with he | he
    · rcases h.events v snapshot hlast e he with hshown | ⟨hb, -⟩
      · exact .inl (hkeep hshown)
      · exact (hbuffering hb).elim
    · rw [List.mem_singleton.1 he]
      exact .inl (mem_ids_mergeRfpSnapshot.2 (.inr List.mem_cons_self))

/-- **A step that meets the condition keeps the invariant.** -/
theorem Shown.next (h : Shown s) {event : ListEvent} (hcovered : FailureCovered s event)
    (hnext : stream.next s event = some s') : Shown s' := by
  cases event with
  | refresh => exact h.refresh hnext
  | succeed version snapshot => exact h.succeed hnext
  | fail version message => exact h.fail hcovered hnext
  | receive event => exact h.receive hnext

/-- **The live list loses no ticket.**  In a run in which the latest request never fails while an
event of a ticket that is not displayed was received since buffering began, whenever no request
is under way, every ticket of the last snapshot and of the events received since its request
started is displayed exactly once. -/
theorem no_ticket_lost (h : stream.Run FailureCovered {} s) (hquiet : s.inFlight = []) {v : ℕ}
    {snapshot : Snapshot} (hlast : s.last = some (v, snapshot)) {ticketId : String}
    (hticket : ticketId ∈ snapshot.tickets.map RfpTicketSummary.id ∨
      ticketId ∈ (s.received.drop (s.startedAt v)).map RfpTicketCreatedEvent.ticketId) :
    (s.displayed.map RfpTicketSummary.id).count ticketId = 1 := by
  have hs : Shown s := h.invariant Shown .start fun _ _ _ hI hg hnext => hI.next hg hnext
  -- nothing is buffered without a request
  have hbuffering : ¬s.buffering = true := by
    intro hb
    rcases hs.waits hb with hv | hnone
    · rw [hquiet] at hv
      exact List.not_mem_nil hv
    · cases hlast.symm.trans hnone
  refine List.count_eq_one_of_mem hs.nodup ?_
  rcases hticket with hi | hi
  · exact hs.snapshot v snapshot hlast ticketId hi
  · obtain ⟨event, hevent, rfl⟩ := List.mem_map.1 hi
    rcases hs.events v snapshot hlast event hevent with hshown | ⟨hb, -⟩
    · exact hshown
    · exact (hbuffering hb).elim

end

/-! ## Concrete runs -/

/-- The event of a new ticket. -/
def ticketCreated (ticketId : String) : RfpTicketCreatedEvent where
  ticketId
  rfpId := ticketId
  clientName := none
  clientCountry := none
  servicesRequested := []
  status := .analyzing
  createdAt := "2026-09-01T08:00:00Z"

/-- A list without tickets. -/
def noTickets : Snapshot := ⟨[], List.nodup_nil⟩

/-- An event while the snapshot is under way, and one after it. -/
theorem no_ticket_lost_two :
    ∃ s, stream.Run FailureCovered {} s ∧ s.received.length = 2 ∧
      (s.displayed.map RfpTicketSummary.id).count "a" = 1 := by
  obtain ⟨s, hrun, hs⟩ := stream.exists_run (fun s event => FailureCovered s event) {}
    [.refresh, .receive (ticketCreated "a"), .succeed 1 noTickets, .receive (ticketCreated "b"),
      .refresh, .fail 2 "The list is not available."]
    (fun s => s.inFlight = [] ∧ s.startedAt 1 = 0 ∧ s.last.any (fun last => last.1 = 1) = true ∧
      s.received.map RfpTicketCreatedEvent.ticketId = ["a", "b"]) (by decide)
  have hrun : stream.Run FailureCovered {} s := hrun.mono fun _ _ h => by simpa using h
  obtain ⟨hquiet, hstart, hlast, hreceived⟩ := of_decide_eq_true hs
  obtain ⟨⟨v, snapshot⟩, hsome, hv⟩ := (Option.any_eq_true _ _).1 hlast
  obtain rfl : v = 1 := by simpa using hv
  refine ⟨s, hrun, ?_, no_ticket_lost hrun hquiet hsome (.inr ?_)⟩
  · rw [← List.length_map RfpTicketCreatedEvent.ticketId, hreceived]
    rfl
  · rw [hstart, List.drop_zero, hreceived]
    exact List.mem_cons_self

/-- **A refresh that fails loses a ticket.**  The event arrives while the refresh is under way, so
it is buffered; the refresh fails, and the event is dropped. -/
theorem failed_refresh_loses_ticket :
    ¬∀ s, stream.Reachable {} s → s.inFlight = [] → ∀ v snapshot, s.last = some (v, snapshot) →
      ∀ ticketId, (ticketId ∈ snapshot.tickets.map RfpTicketSummary.id ∨
        ticketId ∈ (s.received.drop (s.startedAt v)).map RfpTicketCreatedEvent.ticketId) →
      (s.displayed.map RfpTicketSummary.id).count ticketId = 1 := by
  intro hclaim
  obtain ⟨s, hreach, hs⟩ := stream.exists_reachable {}
    [.refresh, .succeed 1 noTickets, .refresh, .receive (ticketCreated "a"),
      .fail 2 "The list is not available."]
    (fun s => s.inFlight = [] ∧ s.startedAt 1 = 0 ∧ s.last.any (fun last => last.1 = 1) = true ∧
      s.received.map RfpTicketCreatedEvent.ticketId = ["a"] ∧ s.displayed = []) (by decide)
  obtain ⟨hquiet, hstart, hlast, hreceived, hempty⟩ := of_decide_eq_true hs
  obtain ⟨⟨v, snapshot⟩, hsome, hv⟩ := (Option.any_eq_true _ _).1 hlast
  obtain rfl : v = 1 := by simpa using hv
  have hone := hclaim s hreach hquiet 1 snapshot hsome "a" (.inr ?_)
  · rw [hempty] at hone
    cases hone
  · rw [hstart, List.drop_zero, hreceived]
    exact List.mem_cons_self

end Realtime

end TrackFlow
