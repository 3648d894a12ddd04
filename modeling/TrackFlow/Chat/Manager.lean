import TrackFlow.Chat.Generation
import TrackFlow.LTS.Execution

/-!
# The generation manager of the chat

`ChatGenerationManager` and the socket requests it serves, over any number of sessions.  A
generation stays in the state after its task has ended, so that what it published can be told.

* `manager` : the machine; `start` and `interrupt` are requests, `run` is a step of one task.
* `Managed` : the invariant.
* `PersistsInterrupted` : the condition on a step; `_persist_interrupted` does not raise.
* `chat_generation_lifecycle` : **the lifecycle over every run that meets the condition.**
* `interrupted_without_event` : the run in which a generation ends with no terminal event.
-/

namespace TrackFlow

namespace Chat

/-- The manager, the rows of its sessions and what its bus has published, by session. -/
structure ChatGenerationManager where
  generations : String → Option ActiveGeneration
  active : String → Option String
  messages : String → List ChatMessage
  published : List (String × ChatEvent)

namespace ChatGenerationManager

/-- The manager of a process that has just started. -/
def initial (messages : String → List ChatMessage) : ChatGenerationManager where
  generations := fun _ => none
  active := fun _ => none
  messages := messages
  published := []

/-- The events that carry a generation's id. -/
def eventsOf (s : ChatGenerationManager) (generationId : String) : List ChatEvent :=
  (s.published.map Prod.snd).filter fun event => event.generationId = some generationId

/-- The session's entry, after a step of the generation `g`: the `finally` clause removes it if it
is still this generation's. -/
def release (active : String → Option String) (g : ActiveGeneration) : String → Option String :=
  if g.phase = .ended ∧ active g.sessionId = some g.generationId then
    Function.update active g.sessionId none
  else active

/-- The state after a step of the generation `generationId`. -/
def apply (s : ChatGenerationManager) (generationId : String) (e : Effect) :
    ChatGenerationManager where
  generations := Function.update s.generations generationId (some e.generation)
  active := release s.active e.generation
  messages := Function.update s.messages e.generation.sessionId e.messages
  published := s.published ++ e.events.map fun event => (e.generation.sessionId, event)

end ChatGenerationManager

open ChatGenerationManager

/-- What happens to the manager. -/
inductive Label
  | start (sessionId ownerUserId question generationId : String)
  | interrupt (sessionId ownerUserId : String)
  /-- The socket refuses a request, and says so on the session's topic. -/
  | reject (sessionId detail : String)
  | run (generationId : String) (step : RunStep)
  deriving DecidableEq, Repr

/-- `ChatGenerationManager` and `_receive_chat_events`. -/
def manager : Machine ChatGenerationManager Label where
  next s
    | .start sessionId ownerUserId question generationId =>
      if s.active sessionId = none ∧ s.generations generationId = none then
        some { s with
          generations := Function.update s.generations generationId
            (some (.new generationId sessionId ownerUserId question))
          active := Function.update s.active sessionId (some generationId) }
      else none
    | .interrupt sessionId ownerUserId => do
      let generationId ← s.active sessionId
      let g ← s.generations generationId
      if g.ownerUserId = ownerUserId then
        some { s with
          generations := Function.update s.generations generationId
            (some { g with cancel := true }) }
      else none
    | .reject sessionId detail =>
      some { s with published := s.published ++ [(sessionId, .generationFailed none detail)] }
    | .run generationId step => do
      let g ← s.generations generationId
      let e ← g.advance (s.messages g.sessionId) step
      some (s.apply generationId e)

/-- `_persist_interrupted` does not raise. -/
def PersistsInterrupted (_ : ChatGenerationManager) : Label → Prop
  | .run _ step => ActiveGeneration.Persists step
  | _ => True

instance (s : ChatGenerationManager) (l : Label) : Decidable (PersistsInterrupted s l) := by
  cases l <;> unfold PersistsInterrupted <;> infer_instance

/-! ## The invariant -/

/-- The registry of the generations: it holds after any steps. -/
structure Registered (s : ChatGenerationManager) : Prop where
  named : ∀ id g, s.generations id = some g → g.generationId = id
  active_iff : ∀ σ id, s.active σ = some id ↔
    ∃ g, s.generations id = some g ∧ g.sessionId = σ ∧ g.phase ≠ .ended
  unknown : ∀ id, s.generations id = none → s.eventsOf id = []

/-- What the generations have published. -/
structure Managed (s : ChatGenerationManager) : Prop extends Registered s where
  lifecycle : ∀ id g, s.generations id = some g → g.Lifecycle (s.eventsOf id)

theorem Registered.initial (messages : String → List ChatMessage) :
    Registered (ChatGenerationManager.initial messages) where
  named := nofun
  active_iff := fun _ _ => ⟨nofun, fun ⟨_, h, _⟩ => (nomatch h)⟩
  unknown := fun _ _ => rfl

section

variable {s s' : ChatGenerationManager} {id : String} {g : ActiveGeneration} {step : RunStep}
  {e : Effect}

/-- A step keeps the identity of its generation. -/
theorem advance_identity {messages : List ChatMessage} (h : g.advance messages step = some e) :
    e.generation.generationId = g.generationId ∧ e.generation.sessionId = g.sessionId ∧
      ∀ event ∈ e.events, event.generationId = some g.generationId := by
  cases ActiveGeneration.Advanced.of_advance h <;>
    exact ⟨rfl, rfl, by simp [ChatEvent.generationId]⟩

/-- A task that has ended takes no step. -/
theorem not_ended_of_advance {messages : List ChatMessage} (h : g.advance messages step = some e) :
    g.phase ≠ .ended := by
  intro hphase
  unfold ActiveGeneration.advance at h
  rw [hphase] at h
  cases h

/-- What a step of the task `id` adds to the events of a generation. -/
theorem eventsOf_apply (hevents : ∀ event ∈ e.events, event.generationId = some id) (id' : String) :
    (s.apply id e).eventsOf id' =
      if id' = id then s.eventsOf id ++ e.events else s.eventsOf id' := by
  unfold eventsOf apply
  rw [List.map_append, List.filter_append, List.map_map]
  have hmap : e.events.map (Prod.snd ∘ fun event => (e.generation.sessionId, event)) = e.events :=
    List.map_id _
  rw [hmap]
  split_ifs with hid
  · subst hid
    rw [List.filter_eq_self.2 fun event hevent => decide_eq_true (hevents event hevent)]
  · have hnone : e.events.filter (fun event => event.generationId = some id') = [] := by
      refine List.filter_eq_nil_iff.2 fun event hevent => ?_
      rw [hevents event hevent, decide_eq_true_eq, Option.some.injEq]
      exact fun he => hid he.symm
    rw [hnone, List.append_nil]

/-- The generations that are active after a step of the task `id`. -/
theorem active_apply (hs : Registered s) (hg : s.generations id = some g)
    (h : g.advance (s.messages g.sessionId) step = some e) (σ : String) (id' : String) :
    (s.apply id e).active σ = some id' ↔
      ∃ g', (s.apply id e).generations id' = some g' ∧ g'.sessionId = σ ∧ g'.phase ≠ .ended := by
  obtain ⟨hid, hsession, -⟩ := advance_identity h
  have hgid : g.generationId = id := hs.named id g hg
  have hactive : s.active g.sessionId = some id :=
    (hs.active_iff _ _).2 ⟨g, hg, rfl, not_ended_of_advance h⟩
  show release s.active e.generation σ = some id' ↔
    ∃ g', Function.update s.generations id (some e.generation) id' = some g' ∧ _
  unfold release
  rw [hid, hsession, hgid]
  by_cases hid' : id' = id
  · subst hid'
    rw [Function.update_self]
    simp only [Option.some.injEq, exists_eq_left', hsession]
    by_cases hended : e.generation.phase = .ended
    · rw [if_pos ⟨hended, hactive⟩]
      refine ⟨fun hσ => ?_, fun hσ => (hσ.2 hended).elim⟩
      by_cases hσ' : σ = g.sessionId
      · rw [hσ', Function.update_self] at hσ
        cases hσ
      · rw [Function.update_of_ne hσ'] at hσ
        obtain ⟨g', hg', hsession', -⟩ := (hs.active_iff _ _).1 hσ
        rw [hg] at hg'
        cases hg'
        exact (hσ' hsession'.symm).elim
    · rw [if_neg fun hc => hended hc.1]
      refine ⟨fun hσ => ?_, fun hσ => hσ.1 ▸ hactive⟩
      obtain ⟨g', hg', hsession', -⟩ := (hs.active_iff _ _).1 hσ
      rw [hg] at hg'
      cases hg'
      exact ⟨hsession', hended⟩
  · rw [Function.update_of_ne hid', ← hs.active_iff]
    split_ifs with hended
    · by_cases hσ : σ = g.sessionId
      · subst hσ
        rw [Function.update_self, hactive]
        exact ⟨nofun, fun he => (hid' (Option.some.inj he).symm).elim⟩
      · rw [Function.update_of_ne hσ]
    · exact Iff.rfl

/-! ## What a label does -/

theorem next_start_eq_some {sessionId ownerUserId question generationId : String}
    (h : manager.next s (.start sessionId ownerUserId question generationId) = some s') :
    s.active sessionId = none ∧ s.generations generationId = none ∧
      s' = { s with
        generations := Function.update s.generations generationId
          (some (.new generationId sessionId ownerUserId question))
        active := Function.update s.active sessionId (some generationId) } := by
  obtain ⟨⟨hactive, hnew⟩, h⟩ := Option.ite_none_right_eq_some.1 h
  exact ⟨hactive, hnew, (Option.some.inj h).symm⟩

theorem next_interrupt_eq_some {sessionId ownerUserId : String}
    (h : manager.next s (.interrupt sessionId ownerUserId) = some s') :
    ∃ id g, s.active sessionId = some id ∧ s.generations id = some g ∧
      s' = { s with
        generations := Function.update s.generations id (some { g with cancel := true }) } := by
  obtain ⟨id, hactive, h⟩ := Option.bind_eq_some_iff.1 h
  obtain ⟨g, hg, h⟩ := Option.bind_eq_some_iff.1 h
  obtain ⟨-, h⟩ := Option.ite_none_right_eq_some.1 h
  exact ⟨id, g, hactive, hg, (Option.some.inj h).symm⟩

theorem next_run_iff :
    manager.next s (.run id step) = some s' ↔
      ∃ g e, s.generations id = some g ∧ g.advance (s.messages g.sessionId) step = some e ∧
        s' = s.apply id e := by
  refine ⟨fun h => ?_, fun h => ?_⟩
  · obtain ⟨g, hg, h⟩ := Option.bind_eq_some_iff.1 h
    obtain ⟨e, he, h⟩ := Option.bind_eq_some_iff.1 h
    exact ⟨g, e, hg, he, (Option.some.inj h).symm⟩
  · obtain ⟨g, e, hg, he, rfl⟩ := h
    exact Option.bind_eq_some_iff.2 ⟨g, hg, Option.bind_eq_some_iff.2 ⟨e, he, rfl⟩⟩

theorem eventsOf_reject (sessionId detail : String) :
    eventsOf { s with
      published := s.published ++ [(sessionId, .generationFailed none detail)] } id =
        s.eventsOf id := by
  unfold eventsOf
  rw [List.map_append, List.filter_append]
  exact List.append_nil _

/-! ## What a step preserves -/

theorem update_eq_some_iff {f : String → Option ActiveGeneration} {id' : String}
    {g' : ActiveGeneration} :
    Function.update f id (some g) id' = some g' ↔
      id' = id ∧ g = g' ∨ id' ≠ id ∧ f id' = some g' := by
  by_cases hid : id' = id
  · subst hid
    simp
  · simp [hid]

theorem update_eq_none_iff {f : String → Option ActiveGeneration} {id' : String} :
    Function.update f id (some g) id' = none ↔ id' ≠ id ∧ f id' = none := by
  by_cases hid : id' = id
  · subst hid
    simp
  · simp [hid]

theorem Registered.start (hs : Registered s) {sessionId ownerUserId question : String}
    (hactive : s.active sessionId = none) (hnew : s.generations id = none) :
    Registered { s with
      generations := Function.update s.generations id
        (some (.new id sessionId ownerUserId question))
      active := Function.update s.active sessionId (some id) } where
  named id' g' hg' := by
    rcases update_eq_some_iff.1 hg' with ⟨rfl, rfl⟩ | ⟨-, hg'⟩
    · rfl
    · exact hs.named id' g' hg'
  active_iff σ id' := by
    show Function.update s.active sessionId (some id) σ = some id' ↔
      ∃ g', Function.update s.generations id _ id' = some g' ∧ _
    by_cases hid : id' = id
    · subst hid
      rw [Function.update_self]
      simp only [Option.some.injEq, exists_eq_left']
      by_cases hσ : σ = sessionId
      · subst hσ
        rw [Function.update_self]
        exact ⟨fun _ => ⟨rfl, nofun⟩, fun _ => rfl⟩
      · rw [Function.update_of_ne hσ, hs.active_iff, hnew]
        exact ⟨fun ⟨_, h, _⟩ => (nomatch h), fun h => (hσ h.1.symm).elim⟩
    · rw [Function.update_of_ne hid, ← hs.active_iff]
      by_cases hσ : σ = sessionId
      · subst hσ
        rw [Function.update_self, hactive]
        exact ⟨fun he => (hid (Option.some.inj he).symm).elim, nofun⟩
      · rw [Function.update_of_ne hσ]
  unknown id' hid' := hs.unknown id' (update_eq_none_iff.1 hid').2

theorem Registered.interrupt (hs : Registered s) (hg : s.generations id = some g) :
    Registered { s with
      generations := Function.update s.generations id (some { g with cancel := true }) } where
  named id' g' hg' := by
    rcases update_eq_some_iff.1 hg' with ⟨rfl, rfl⟩ | ⟨-, hg'⟩
    · exact hs.named id' g hg
    · exact hs.named id' g' hg'
  active_iff σ id' := by
    show s.active σ = some id' ↔ ∃ g', Function.update s.generations id _ id' = some g' ∧ _
    rw [hs.active_iff]
    by_cases hid : id' = id
    · subst hid
      rw [Function.update_self, hg]
      simp only [Option.some.injEq, exists_eq_left']
    · rw [Function.update_of_ne hid]
  unknown id' hid' := hs.unknown id' (update_eq_none_iff.1 hid').2

theorem Registered.run (hs : Registered s) (hg : s.generations id = some g)
    (h : g.advance (s.messages g.sessionId) step = some e) : Registered (s.apply id e) := by
  obtain ⟨hid, -, hevents⟩ := advance_identity h
  rw [hs.named id g hg] at hid hevents
  refine ⟨fun id' g' hg' => ?_, active_apply hs hg h, fun id' hid' => ?_⟩
  · rcases update_eq_some_iff.1 hg' with ⟨rfl, rfl⟩ | ⟨-, hg'⟩
    · exact hid
    · exact hs.named id' g' hg'
  · obtain ⟨hne, hid'⟩ := update_eq_none_iff.1 hid'
    rw [eventsOf_apply hevents, if_neg hne]
    exact hs.unknown id' hid'

theorem Registered.next {l : Label} (hs : Registered s) (h : manager.next s l = some s') :
    Registered s' := by
  cases l with
  | start sessionId ownerUserId question generationId =>
    obtain ⟨hactive, hnew, rfl⟩ := next_start_eq_some h
    exact hs.start hactive hnew
  | interrupt sessionId ownerUserId =>
    obtain ⟨id, g, -, hg, rfl⟩ := next_interrupt_eq_some h
    exact hs.interrupt hg
  | reject sessionId detail =>
    cases h
    exact ⟨hs.named, hs.active_iff, fun id hid => by
      rw [eventsOf_reject]; exact hs.unknown id hid⟩
  | run generationId step =>
    obtain ⟨g, e, hg, he, rfl⟩ := next_run_iff.1 h
    exact hs.run hg he

/-- A step keeps the lifecycles, unless it is the exception of `_persist_interrupted`. -/
theorem Managed.next {l : Label} (hs : Managed s) (hl : PersistsInterrupted s l)
    (h : manager.next s l = some s') : Managed s' := by
  refine ⟨hs.toRegistered.next h, fun id' g' hg' => ?_⟩
  cases l with
  | start sessionId ownerUserId question generationId =>
    obtain ⟨-, hnew, rfl⟩ := next_start_eq_some h
    rcases update_eq_some_iff.1 hg' with ⟨rfl, rfl⟩ | ⟨-, hg'⟩
    · show ActiveGeneration.Lifecycle _ (s.eventsOf id')
      rw [hs.unknown id' hnew]
      exact .new id' sessionId ownerUserId question
    · exact hs.lifecycle id' g' hg'
  | interrupt sessionId ownerUserId =>
    obtain ⟨id, g, -, hg, rfl⟩ := next_interrupt_eq_some h
    rcases update_eq_some_iff.1 hg' with ⟨rfl, rfl⟩ | ⟨-, hg'⟩
    · exact (hs.lifecycle id' g hg).interrupt
    · exact hs.lifecycle id' g' hg'
  | reject sessionId detail =>
    cases h
    rw [eventsOf_reject]
    exact hs.lifecycle id' g' hg'
  | run id step =>
    obtain ⟨g, e, hg, he, rfl⟩ := next_run_iff.1 h
    obtain ⟨-, -, hevents⟩ := advance_identity he
    rw [hs.named id g hg] at hevents
    rw [eventsOf_apply hevents]
    rcases update_eq_some_iff.1 hg' with ⟨rfl, rfl⟩ | ⟨hne, hg'⟩
    · rw [if_pos rfl]
      exact (hs.lifecycle id' g hg).advance hl he
    · rw [if_neg hne]
      exact hs.lifecycle id' g' hg'

/-- The invariant holds on every run that meets the condition. -/
theorem Managed.of_run {messages : String → List ChatMessage}
    (h : manager.Run PersistsInterrupted (.initial messages) s) : Managed s :=
  h.invariant Managed ⟨.initial messages, nofun⟩ fun _ _ _ hs hl h => hs.next hl h

/-! ## The end of a generation -/

/-- The generation has published an event of the kind `p`. -/
def Publishes (s : ChatGenerationManager) (id : String) (p : ChatEvent → Bool) : Prop :=
  ∃ event ∈ s.eventsOf id, p event = true

/-- The task of the generation is at a phase that meets `P`. -/
def At (s : ChatGenerationManager) (id : String) (P : Phase → Prop) : Prop :=
  ∃ g, s.generations id = some g ∧ P g.phase

/-- A task that is over stays over, and publishes nothing. -/
theorem silent_of_over {l : Label} {id' : String} (hs : Registered s)
    (hover : At s id' ActiveGeneration.Over) (h : manager.next s l = some s') :
    At s' id' ActiveGeneration.Over ∧ s'.eventsOf id' = s.eventsOf id' := by
  obtain ⟨g', hg', hover⟩ := hover
  cases l with
  | start sessionId ownerUserId question generationId =>
    obtain ⟨-, hnew, rfl⟩ := next_start_eq_some h
    refine ⟨⟨g', update_eq_some_iff.2 (.inr ⟨?_, hg'⟩), hover⟩, rfl⟩
    rintro rfl
    rw [hnew] at hg'
    cases hg'
  | interrupt sessionId ownerUserId =>
    obtain ⟨id, g, -, hg, rfl⟩ := next_interrupt_eq_some h
    refine ⟨?_, rfl⟩
    by_cases hid : id' = id
    · subst hid
      rw [hg'] at hg
      cases hg
      exact ⟨_, update_eq_some_iff.2 (.inl ⟨rfl, rfl⟩), hover⟩
    · exact ⟨g', update_eq_some_iff.2 (.inr ⟨hid, hg'⟩), hover⟩
  | reject sessionId detail =>
    cases h
    exact ⟨⟨g', hg', hover⟩, eventsOf_reject sessionId detail⟩
  | run id step =>
    obtain ⟨g, e, hg, he, rfl⟩ := next_run_iff.1 h
    obtain ⟨-, -, hevents⟩ := advance_identity he
    rw [hs.named id g hg] at hevents
    rw [eventsOf_apply hevents]
    by_cases hid : id' = id
    · subst hid
      rw [hg'] at hg
      cases hg
      rw [if_pos rfl, ActiveGeneration.events_of_over he hover, List.append_nil]
      exact ⟨⟨_, update_eq_some_iff.2 (.inl ⟨rfl, rfl⟩),
        ActiveGeneration.over_of_advance he hover⟩, rfl⟩
    · rw [if_neg hid]
      exact ⟨⟨g', update_eq_some_iff.2 (.inr ⟨hid, hg'⟩), hover⟩, rfl⟩

/-- What a task that is over has published is what it will ever publish. -/
theorem silent_of_run {G : ChatGenerationManager → Label → Prop} (hs : Registered s)
    (hover : At s id ActiveGeneration.Over) (h : manager.Run G s s') :
    s'.eventsOf id = s.eventsOf id := by
  have key : Registered s' ∧ At s' id ActiveGeneration.Over ∧ s'.eventsOf id = s.eventsOf id := by
    induction h with
    | refl => exact ⟨hs, hover, rfl⟩
    | tail _ _ hnext ih =>
      obtain ⟨hs', hover', he⟩ := ih
      obtain ⟨hover'', he'⟩ := silent_of_over hs' hover' hnext
      exact ⟨hs'.next hnext, hover'', he'.trans he⟩
  exact key.2.2

/-! ## The way to the end -/

/-- A generation stays known; every step of its task but a token brings it nearer to its end, and
no other step moves it. -/
theorem rank_next {l : Label} (hg : s.generations id = some g) (h : manager.next s l = some s') :
    ∃ g', s'.generations id = some g' ∧ ((∀ delta, l ≠ .run id (.token delta)) →
      ActiveGeneration.rank g'.phase ≤ ActiveGeneration.rank g.phase ∧
        ((∃ step, l = .run id step) →
          ActiveGeneration.rank g'.phase < ActiveGeneration.rank g.phase)) := by
  cases l with
  | start sessionId ownerUserId question generationId =>
    obtain ⟨-, hnew, rfl⟩ := next_start_eq_some h
    refine ⟨g, update_eq_some_iff.2 (.inr ⟨?_, hg⟩), fun _ => ⟨le_rfl, fun ⟨_, h⟩ => (nomatch h)⟩⟩
    rintro rfl
    rw [hnew] at hg
    cases hg
  | interrupt sessionId ownerUserId =>
    obtain ⟨id', g', -, hg', rfl⟩ := next_interrupt_eq_some h
    by_cases hid : id = id'
    · subst hid
      rw [hg] at hg'
      cases hg'
      exact ⟨_, update_eq_some_iff.2 (.inl ⟨rfl, rfl⟩),
        fun _ => ⟨le_rfl, fun ⟨_, h⟩ => (nomatch h)⟩⟩
    · exact ⟨g, update_eq_some_iff.2 (.inr ⟨hid, hg⟩),
        fun _ => ⟨le_rfl, fun ⟨_, h⟩ => (nomatch h)⟩⟩
  | reject sessionId detail =>
    cases h
    exact ⟨g, hg, fun _ => ⟨le_rfl, fun ⟨_, h⟩ => (nomatch h)⟩⟩
  | run id' step =>
    obtain ⟨g', e, hg', he, rfl⟩ := next_run_iff.1 h
    by_cases hid : id = id'
    · subst hid
      rw [hg] at hg'
      cases hg'
      refine ⟨e.generation, update_eq_some_iff.2 (.inl ⟨rfl, rfl⟩), fun hstep => ?_⟩
      have hlt : ActiveGeneration.rank e.generation.phase < ActiveGeneration.rank g.phase :=
        ActiveGeneration.rank_lt_of_advance he fun delta hdelta => hstep delta (hdelta ▸ rfl)
      exact ⟨hlt.le, fun _ => hlt⟩
    · refine ⟨g, update_eq_some_iff.2 (.inr ⟨hid, hg⟩), fun _ => ⟨le_rfl, fun ⟨step', h⟩ => ?_⟩⟩
      cases h
      exact (hid rfl).elim

/-- The event loop keeps running the task until it has ended, and the provider's stream is
finite. -/
structure Scheduled {s₀ : ChatGenerationManager} (x : manager.Execution PersistsInterrupted s₀)
    (id : String) : Prop where
  runs : ∀ n, At (x.state n) id (· ≠ .ended) → ∃ m, n ≤ m ∧ ∃ step, x.label m = .run id step
  streams : ∃ n, ∀ m, n ≤ m → ∀ delta, x.label m ≠ .run id (.token delta)

/-- How far the task of a generation is from its end. -/
def remaining (id : String) (s : ChatGenerationManager) : ℕ :=
  (s.generations id).elim 0 fun g => ActiveGeneration.rank g.phase

/-- **A scheduled task ends.** -/
theorem Scheduled.exists_ended {s₀ : ChatGenerationManager}
    {x : manager.Execution PersistsInterrupted s₀} (hx : Scheduled x id)
    (hg : s₀.generations id = some g) : ∃ n, At (x.state n) id (· = .ended) := by
  have hknown : ∀ n, ∃ g', (x.state n).generations id = some g' := by
    intro n
    induction n with
    | zero => exact ⟨g, by rw [x.start]; exact hg⟩
    | succ n ih =>
      obtain ⟨g', hg'⟩ := ih
      obtain ⟨g'', hg'', -⟩ := rank_next hg' (x.step n)
      exact ⟨g'', hg''⟩
  obtain ⟨start, hstart⟩ := hx.streams
  have hrank : ∀ n, start ≤ n → remaining id (x.state (n + 1)) ≤ remaining id (x.state n) ∧
      ((∃ step, x.label n = .run id step) →
        remaining id (x.state (n + 1)) < remaining id (x.state n)) := by
    intro n hn
    obtain ⟨g', hg'⟩ := hknown n
    obtain ⟨g'', hg'', hle⟩ := rank_next hg' (x.step n)
    unfold remaining
    rw [hg', hg'']
    exact hle (hstart n hn)
  obtain ⟨n, -, hn⟩ := x.eventually (remaining id) (fun l => ∃ step, l = .run id step)
    (fun s => At s id (· = .ended)) start (fun n hn _ => (hrank n hn).1)
    (fun n hn _ => (hrank n hn).2) fun n _ hend => by
      obtain ⟨g', hg'⟩ := hknown n
      exact hx.runs n ⟨g', hg', fun he => hend ⟨g', hg', he⟩⟩
  exact ⟨n, hn⟩

/-- A task that has not ended can take a step that is no token. -/
theorem exists_next_run (hg : s.generations id = some g) (hphase : g.phase ≠ .ended) :
    ∃ step s', (∀ delta, step ≠ .token delta) ∧ ActiveGeneration.Persists step ∧
      manager.next s (.run id step) = some s' := by
  obtain ⟨step, e, htoken, hpersists, he⟩ : ∃ step e, (∀ delta, step ≠ .token delta) ∧
      ActiveGeneration.Persists step ∧ g.advance (s.messages g.sessionId) step = some e :=
    ActiveGeneration.exists_advance hphase
  exact ⟨step, _, htoken, hpersists, next_run_iff.2 ⟨g, e, hg, he, rfl⟩⟩

/-- A free session accepts a question. -/
theorem exists_next_start {sessionId ownerUserId question generationId : String}
    (hfree : s.active sessionId = none) (hnew : s.generations generationId = none) :
    ∃ s', manager.next s (.start sessionId ownerUserId question generationId) = some s' ∧
      s'.active sessionId = some generationId :=
  ⟨_, if_pos ⟨hfree, hnew⟩, Function.update_self ..⟩

/-! ## The lifecycle -/

/-- At most one task of a session is under way. -/
theorem Registered.exclusive (hs : Registered s) {id' : String} {g' : ActiveGeneration}
    (hg : s.generations id = some g) (hg' : s.generations id' = some g') (hphase : g.phase ≠ .ended)
    (hphase' : g'.phase ≠ .ended) (hsession : g.sessionId = g'.sessionId) : id = id' := by
  have hactive : s.active g.sessionId = some id := (hs.active_iff _ _).2 ⟨g, hg, rfl, hphase⟩
  have hactive' : s.active g'.sessionId = some id' := (hs.active_iff _ _).2 ⟨g', hg', rfl, hphase'⟩
  rw [← hsession, hactive] at hactive'
  exact Option.some.inj hactive'

/-- The tokens of a generation carry the sequences `1..k`. -/
theorem Managed.filterMap_tokenSequence (hs : Managed s) (id : String) :
    ∃ k, (s.eventsOf id).filterMap ChatEvent.tokenSequence = List.range' 1 k := by
  cases hg : s.generations id with
  | none => exact ⟨0, by rw [hs.unknown id hg]; rfl⟩
  | some g => exact (hs.lifecycle id g hg).filterMap_tokenSequence

/-- A generation that has published something is known. -/
theorem Registered.known (hs : Registered s) {p : ChatEvent → Bool} (h : Publishes s id p) :
    ∃ g, s.generations id = some g := by
  obtain ⟨event, hevent, -⟩ := h
  cases hg : s.generations id with
  | none =>
    rw [hs.unknown id hg] at hevent
    cases hevent
  | some g => exact ⟨g, rfl⟩

/-- The task of a generation with a terminal event is over. -/
theorem Managed.over_of_terminal (hs : Managed s) (h : Publishes s id ChatEvent.terminal) :
    At s id ActiveGeneration.Over := by
  obtain ⟨g, hg⟩ := hs.known h
  refine ⟨g, hg, ?_⟩
  by_contra hover
  obtain ⟨event, hevent, hterminal⟩ := h
  have hnil := (hs.lifecycle id g hg).filter_terminal.2 hover
  have hmem : event ∈ (s.eventsOf id).filter ChatEvent.terminal :=
    List.mem_filter.2 ⟨hevent, hterminal⟩
  rw [hnil] at hmem
  cases hmem

/-- The `finally` clause frees the session. -/
theorem Managed.exists_next_finish (hs : Managed s) (hg : s.generations id = some g)
    (h : Publishes s id ChatEvent.terminal) (hactive : s.active g.sessionId = some id) :
    ∃ s', manager.next s (.run id .finish) = some s' ∧ s'.active g.sessionId = none := by
  obtain ⟨g', hg', hover⟩ := hs.over_of_terminal h
  obtain ⟨g'', hg'', -, hphase⟩ := (hs.active_iff _ _).1 hactive
  rw [hg] at hg' hg''
  cases hg'
  cases hg''
  have hending : g.phase = .ending := (ActiveGeneration.over_iff.1 hover).resolve_right hphase
  have he : g.advance (s.messages g.sessionId) .finish =
      some { generation := g.goto .ended, messages := s.messages g.sessionId } := by
    unfold ActiveGeneration.advance
    rw [hending]
  refine ⟨_, next_run_iff.2 ⟨g, _, hg, he, rfl⟩, ?_⟩
  show release s.active (g.goto .ended) g.sessionId = none
  unfold release
  rw [if_pos ⟨rfl, by rw [← hs.named id g hg] at hactive; exact hactive⟩]
  exact Function.update_self ..

/-- **The lifecycle of the chat's generations.**  On every run on which `_persist_interrupted`
never raises: a session has one generation under way at most; the tokens of a generation carry the
sequences `1..k`; behind its terminal event a generation publishes nothing; its task can always go
on, and, once it has published `user_message` and while it is scheduled, comes to publish exactly
one terminal event and to leave its session, which accepts the next question. -/
theorem chat_generation_lifecycle {messages : String → List ChatMessage}
    (h : manager.Run PersistsInterrupted (.initial messages) s) :
    (∀ id id' g g', s.generations id = some g → s.generations id' = some g' →
      g.phase ≠ .ended → g'.phase ≠ .ended → g.sessionId = g'.sessionId → id = id') ∧
    (∀ id, ∃ k, (s.eventsOf id).filterMap ChatEvent.tokenSequence = List.range' 1 k) ∧
    (∀ id s', Publishes s id ChatEvent.terminal → manager.Run PersistsInterrupted s s' →
      s'.eventsOf id = s.eventsOf id) ∧
    (∀ id g, s.generations id = some g → g.phase ≠ .ended →
      ∃ step s', (∀ delta, step ≠ .token delta) ∧ ActiveGeneration.Persists step ∧
        manager.next s (.run id step) = some s') ∧
    (∀ id, Publishes s id ChatEvent.opens → ∀ x : manager.Execution PersistsInterrupted s,
      Scheduled x id → ∃ n,
        (∃ event, ((x.state n).eventsOf id).filter ChatEvent.terminal = [event]) ∧
        (∀ m, n ≤ m → (x.state m).eventsOf id = (x.state n).eventsOf id) ∧
        ∀ sessionId, (x.state n).active sessionId ≠ some id) ∧
    (∀ id g, s.generations id = some g → Publishes s id ChatEvent.terminal →
      s.active g.sessionId = some id →
      ∃ s', manager.next s (.run id .finish) = some s' ∧ s'.active g.sessionId = none) ∧
    (∀ sessionId ownerUserId question generationId, s.active sessionId = none →
      s.generations generationId = none →
      ∃ s', manager.next s (.start sessionId ownerUserId question generationId) = some s' ∧
        s'.active sessionId = some generationId) := by
  have hs : Managed s := .of_run h
  refine ⟨fun id id' g g' => hs.exclusive, hs.filterMap_tokenSequence, fun id s' hterminal h' => ?_,
    fun id g hg hphase => exists_next_run hg hphase, fun id hopens x hx => ?_,
    fun id g hg => hs.exists_next_finish hg, fun _ _ _ _ => exists_next_start⟩
  · exact silent_of_run hs.toRegistered (hs.over_of_terminal hterminal) h'
  · obtain ⟨g, hg⟩ := hs.known hopens
    obtain ⟨n, g', hg', hended⟩ := hx.exists_ended hg
    have hn : Managed (x.state n) := .of_run (h.trans (x.run n))
    have hover : ActiveGeneration.Over g'.phase := ActiveGeneration.over_iff.2 (.inr hended)
    refine ⟨n, (hn.lifecycle id g' hg').filter_terminal.1 hover, fun m hm => ?_, fun σ hσ => ?_⟩
    · exact silent_of_run hn.toRegistered ⟨g', hg', hover⟩ (x.run_of_le hm)
    · obtain ⟨g'', hg'', -, hphase⟩ := (hn.active_iff _ _).1 hσ
      rw [hg'] at hg''
      cases hg''
      exact hphase hended

end

/-! ## Concrete runs -/

/-- A question, two tokens and an interrupt. -/
def interruptedTurn (outcome : Outcome) : List Label :=
  [.start "s" "u" "Where is it?" "g", .run "g" (.prepareTurn .returns "m1"), .run "g" .publish,
    .run "g" (.token "On "), .run "g" .publish, .run "g" (.token "its "), .interrupt "s" "u",
    .run "g" .publish, .run "g" .raiseCancelled, .run "g" (.persistInterrupted outcome "m2")]

/-- An interrupted turn, whose partial answer is stored. -/
theorem chat_generation_lifecycle_interrupted :
    ∃ s, manager.Run PersistsInterrupted (.initial fun _ => []) s ∧
      (s.eventsOf "g").filterMap ChatEvent.tokenSequence = [1, 2] ∧
      ∃ s', manager.next s (.run "g" .finish) = some s' ∧ s'.active "s" = none := by
  obtain ⟨s, hrun, hs⟩ := manager.exists_run (fun s l => PersistsInterrupted s l)
    (.initial fun _ => []) (interruptedTurn .returns ++ [.run "g" .publish])
    (fun s => (s.generations "g").any (fun g => g.sessionId = "s") = true ∧
      s.active "s" = some "g" ∧ (s.eventsOf "g").any ChatEvent.terminal = true ∧
      (s.eventsOf "g").filterMap ChatEvent.tokenSequence = [1, 2]) (by decide)
  have hrun : manager.Run PersistsInterrupted (.initial fun _ => []) s :=
    hrun.mono fun _ _ h => by simpa using h
  obtain ⟨hany, hactive, hterminal, htokens⟩ := of_decide_eq_true hs
  obtain ⟨g, hg, hsession⟩ := (Option.any_eq_true _ _).1 hany
  have hsession : g.sessionId = "s" := of_decide_eq_true hsession
  obtain ⟨-, -, -, -, -, hfinish, -⟩ := chat_generation_lifecycle hrun
  obtain ⟨s', hnext, hfree⟩ :=
    hfinish "g" g hg (List.any_eq_true.1 hterminal) (by rw [hsession]; exact hactive)
  rw [hsession] at hfree
  exact ⟨s, hrun, htokens, s', hnext, hfree⟩

/-- **An interrupted turn ends with no terminal event.**  `_persist_interrupted` raises inside the
handler of `GenerationCancelled`; the task ends, and nothing is ever published about it. -/
theorem interrupted_without_event :
    ¬∀ s, manager.Reachable (.initial fun _ => []) s → ∀ id, Publishes s id ChatEvent.opens →
      ∃ s', manager.Reachable s s' ∧ Publishes s' id ChatEvent.terminal := by
  intro hclaim
  obtain ⟨s, hreach, hs⟩ := manager.exists_reachable (.initial fun _ => [])
    (interruptedTurn .raises)
    (fun s => (s.generations "g").any (fun g => g.phase = .ending) = true ∧
      (s.eventsOf "g").any ChatEvent.opens = true ∧
      (s.eventsOf "g").any ChatEvent.terminal = false) (by decide)
  obtain ⟨hany, hopens, hterminal⟩ := of_decide_eq_true hs
  obtain ⟨g, hg, hphase⟩ := (Option.any_eq_true _ _).1 hany
  obtain ⟨s', hreach', event, hevent, hevent'⟩ :=
    hclaim s hreach "g" (List.any_eq_true.1 hopens)
  have hregistered : Registered s :=
    hreach.invariant Registered (.initial _) fun _ _ _ hs _ h => hs.next h
  have hover : At s "g" ActiveGeneration.Over :=
    ⟨g, hg, ActiveGeneration.over_iff.2 (.inl (of_decide_eq_true hphase))⟩
  rw [silent_of_run hregistered hover hreach'] at hevent
  exact List.any_eq_false.1 hterminal event hevent hevent'

end Chat

end TrackFlow
