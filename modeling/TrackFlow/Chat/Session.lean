import TrackFlow.Chat.Client
import TrackFlow.Chat.Manager

/-!
# The messages of one session

What the rows of a session and its active turn satisfy in every state, and how the session is one
of the sessions of the generation manager.

* `StoredBy` : what is stored of a turn, by the point its task has reached.
* `Sound` : the invariant; `Sound.next` is one step.
* `exists_serve` : a step of the manager, as its session takes it.
* `exists_chat` : **every run of the manager is a run of each of its sessions.**
-/

namespace TrackFlow

namespace Chat

open ActiveGeneration ChatGenerationManager

/-! ## The messages of a session -/

/-- The messages end with a question. -/
def EndsWithQuestion (messages : List ChatMessage) : Prop := ∃ m ∈ messages.getLast?, m.role = .user

/-- The row of a stored answer. -/
def answerRow (messageId content : String) (interrupted : Bool) : DisplayMessage :=
  ⟨.message messageId, .assistant, content, interrupted⟩

/-- The messages end with an answer, behind its question. -/
def EndsWithAnswer (messages : List ChatMessage) (row : DisplayMessage) : Prop :=
  ∃ front m, messages = front ++ [m] ∧ display m = row ∧ EndsWithQuestion front

/-- What is stored of the active turn, by the point its task has reached. -/
def StoredBy (messages : List ChatMessage) (g : ActiveGeneration) : Phase → Prop
  | .preparing => g.tokenParts = []
  | .prepared m => g.tokenParts = [] ∧ m.role = .user ∧
      ∃ front, messages = front ++ [m] ∧ Fresh m.messageId front
  | .answering (some (token, sequence)) => EndsWithQuestion messages ∧
      ∃ parts, g.tokenParts = parts ++ [token] ∧ sequence = parts.length + 1
  | .answering none | .answered _ | .completing _ | .cancelled => EndsWithQuestion messages
  | .completed messageId _ answer =>
    answer ≠ "" ∧ EndsWithAnswer messages (answerRow messageId answer false)
  | .interrupted (some messageId) =>
    EndsWithAnswer messages (answerRow messageId g.partialAnswer true)
  | .interrupted none | .failed | .ending => True
  | .ended => False

/-- What every state of the session satisfies. -/
structure Sound (ownerUserId : String) (s : ChatSession) : Prop where
  ordered : s.messages.Pairwise fun m m' => m.sequence < m'.sequence
  distinct : (s.messages.map ChatMessage.messageId).Nodup
  owner : ∀ g ∈ s.active, g.ownerUserId = ownerUserId
  drawn : ∀ g ∈ s.active, g.generationId ∈ s.drawn
  sequence : ∀ g ∈ s.active, g.tokenSequence = g.tokenParts.length
  nonempty : ∀ g ∈ s.active, "" ∉ g.tokenParts
  stored : ∀ g ∈ s.active, StoredBy s.messages g g.phase

/-- The steps of `serve`, one constructor for each branch. -/
inductive Served (sessionId ownerUserId : String) (s : ChatSession) :
    SessionLabel → ChatSession → List ChatEvent → Prop
  | start {question generationId : String} (active : s.active = none)
      (fresh : generationId ∉ s.drawn) :
      Served sessionId ownerUserId s (.start question generationId)
        { s with
          active := some (.new generationId sessionId ownerUserId question)
          drawn := generationId :: s.drawn } []
  | interrupt {g : ActiveGeneration} (active : s.active = some g) :
      Served sessionId ownerUserId s .interrupt
        { s with active := some { g with cancel := true } } []
  | reject {detail : String} :
      Served sessionId ownerUserId s (.reject detail) s [.generationFailed none detail]
  | run {step : RunStep} {g : ActiveGeneration} {e : Effect} (active : s.active = some g)
      (advance : g.advance s.messages step = some e) :
      Served sessionId ownerUserId s (.run step)
        { s with
          messages := e.messages
          active := if e.generation.phase = .ended then none else some e.generation } e.events

section

variable {sessionId ownerUserId : String} {s s' : ChatSession} {l : SessionLabel}
  {events : List ChatEvent} {messages : List ChatMessage} {g : ActiveGeneration} {e : Effect}
  {step : RunStep}

theorem Served.of_serve (h : serve sessionId ownerUserId s l = some (s', events)) :
    Served sessionId ownerUserId s l s' events := by
  cases l with
  | start question generationId =>
    obtain ⟨⟨hactive, hnew⟩, h⟩ := Option.ite_none_right_eq_some.1 h
    cases h
    exact .start hactive hnew
  | interrupt =>
    obtain ⟨g, hactive, h⟩ := Option.bind_eq_some_iff.1 h
    cases h
    exact .interrupt hactive
  | reject detail =>
    cases h
    exact .reject
  | run step =>
    obtain ⟨g, hactive, h⟩ := Option.bind_eq_some_iff.1 h
    obtain ⟨e, hadvance, h⟩ := Option.bind_eq_some_iff.1 h
    cases h
    exact .run hactive hadvance

theorem lt_nextSequence {m : ChatMessage} (hm : m ∈ messages) :
    m.sequence < nextSequence messages := by
  unfold nextSequence
  induction messages with
  | nil => cases hm
  | cons m' messages ih =>
    rw [List.map_cons, List.foldr_cons]
    rcases List.mem_cons.1 hm with rfl | hm
    · omega
    · have := ih hm
      omega

/-- What a step does to the messages. -/
theorem messages_of_advance (h : g.advance messages step = some e) :
    e.messages = messages ∨ ∃ messageId role content interrupted, Fresh messageId messages ∧
      e.messages = messages ++ [newMessage messages messageId role content interrupted] := by
  have hstore : ∀ {messageId : String} {role : ChatRole} {content : String} {interrupted : Bool}
      (outcome : Outcome), Fresh messageId messages →
      outcome.store messages (newMessage messages messageId role content interrupted) = messages ∨
        ∃ messageId' role' content' interrupted', Fresh messageId' messages ∧
          outcome.store messages (newMessage messages messageId role content interrupted) =
            messages ++ [newMessage messages messageId' role' content' interrupted'] := by
    intro messageId role content interrupted outcome hfresh
    cases outcome with
    | raises => exact .inl rfl
    | returns => exact .inr ⟨_, _, _, _, hfresh, rfl⟩
    | raisesCommitted => exact .inr ⟨_, _, _, _, hfresh, rfl⟩
  cases Advanced.of_advance h with
  | prepareTurn _ hfresh => exact hstore _ hfresh
  | interrupt _ _ hfresh => exact hstore _ hfresh
  | complete _ _ _ _ hfresh => exact .inr ⟨_, _, _, _, hfresh, rfl⟩
  | publishUser | token | publishToken | answer | cancel | raiseError | checkCancel
  | completeRaises | publishCompleted | interruptBlank | publishInterrupted | publishFailed
  | finish => exact .inl rfl

/-- The messages only grow. -/
theorem Served.prefix_messages (h : Served sessionId ownerUserId s l s' events) :
    s.messages <+: s'.messages := by
  cases h with
  | start | interrupt | reject => exact List.prefix_rfl
  | run _ hadvance =>
    rcases messages_of_advance hadvance with he | ⟨_, _, _, _, -, he⟩
    · show _ <+: Effect.messages _
      rw [he]
    · show _ <+: Effect.messages _
      rw [he]
      exact List.prefix_append _ _

theorem endsWithQuestion_concat {m : ChatMessage} (h : m.role = .user) :
    EndsWithQuestion (messages ++ [m]) := ⟨m, by simp, h⟩

/-- The phase behind a call that writes. -/
theorem storedBy_after {outcome : Outcome} {returned caught : Phase}
    (hr : outcome = .returns → StoredBy messages g returned) (hc : StoredBy messages g caught) :
    StoredBy messages g (after outcome returned caught) := by
  unfold after
  split_ifs with h
  · exact hr h
  · exact hc

/-- A step of the task keeps what is stored of its turn. -/
theorem storedBy_of_advance (hstored : StoredBy messages g g.phase)
    (hsequence : g.tokenSequence = g.tokenParts.length)
    (h : g.advance messages step = some e) (hphase : e.generation.phase ≠ .ended) :
    StoredBy e.messages e.generation e.generation.phase := by
  cases Advanced.of_advance h with
  | @prepareTurn outcome messageId hpreparing hfresh =>
    rw [hpreparing] at hstored
    refine storedBy_after (fun hr => ?_) trivial
    subst hr
    exact ⟨hstored, rfl, messages, rfl, hfresh⟩
  | publishUser hprepared =>
    rw [hprepared] at hstored
    obtain ⟨-, hrole, front, rfl, -⟩ := hstored
    exact endsWithQuestion_concat hrole
  | token hanswering =>
    rw [hanswering] at hstored
    exact ⟨hstored, g.tokenParts, rfl, congrArg (· + 1) hsequence⟩
  | publishToken hanswering =>
    rw [hanswering] at hstored
    exact hstored.1
  | answer hanswering =>
    rw [hanswering] at hstored
    exact hstored
  | cancel hcancel =>
    rcases hcancel with hcancel | ⟨result, hcancel⟩ <;> rw [hcancel] at hstored <;> exact hstored
  | raiseError => trivial
  | checkCancel hanswered =>
    rw [hanswered] at hstored
    exact hstored
  | completeRaises => trivial
  | complete hcompleting _ _ hnonempty =>
    rw [hcompleting] at hstored
    exact storedBy_after (fun _ => ⟨hnonempty, messages, _, rfl, rfl, hstored⟩) trivial
  | publishCompleted => trivial
  | interruptBlank => exact storedBy_after (fun _ => trivial) trivial
  | interrupt hcancelled =>
    rw [hcancelled] at hstored
    refine storedBy_after (fun hr => ?_) trivial
    subst hr
    exact ⟨messages, _, rfl, rfl, hstored⟩
  | publishInterrupted => trivial
  | publishFailed => trivial
  | finish => exact (hphase rfl).elim

/-- A step keeps the owner of its generation, counts its tokens, and records no empty one. -/
theorem tokens_of_advance (h : g.advance messages step = some e) :
    e.generation.ownerUserId = g.ownerUserId ∧
      (g.tokenSequence = g.tokenParts.length →
        e.generation.tokenSequence = e.generation.tokenParts.length) ∧
      ("" ∉ g.tokenParts → "" ∉ e.generation.tokenParts) := by
  cases Advanced.of_advance h with
  | @token delta _ _ hdelta =>
    refine ⟨rfl, fun hsequence => ?_, fun hparts hmem => ?_⟩
    · show g.tokenSequence + 1 = (g.tokenParts ++ [_]).length
      rw [hsequence, List.length_append, List.length_singleton]
    · rcases List.mem_append.1 hmem with hmem | hmem
      · exact hparts hmem
      · exact hdelta (List.mem_singleton.1 hmem).symm
  | prepareTurn | publishUser | publishToken | answer | cancel | raiseError | checkCancel
  | completeRaises | complete | publishCompleted | interruptBlank | interrupt
  | publishInterrupted | publishFailed | finish => exact ⟨rfl, id, id⟩

/-- The active generation after a step of its task. -/
theorem mem_active_run {g' : ActiveGeneration}
    (hg' : g' ∈ if e.generation.phase = .ended then none else some e.generation) :
    g' = e.generation ∧ e.generation.phase ≠ .ended := by
  split_ifs at hg' with hended
  · cases hg'
  · cases hg'
    exact ⟨rfl, hended⟩

/-- **One step of the session.** -/
theorem Sound.next (hs : Sound ownerUserId s) (h : Served sessionId ownerUserId s l s' events) :
    Sound ownerUserId s' := by
  cases h with
  | start hactive hnew =>
    refine ⟨hs.ordered, hs.distinct, ?_, ?_, ?_, ?_, ?_⟩ <;> rintro g hg <;> cases hg
    · rfl
    · exact List.mem_cons_self
    · rfl
    · exact List.not_mem_nil
    · rfl
  | @interrupt g hactive =>
    refine ⟨hs.ordered, hs.distinct, ?_, ?_, ?_, ?_, ?_⟩ <;> rintro g' hg' <;> cases hg'
    · exact hs.owner g hactive
    · exact hs.drawn g hactive
    · exact hs.sequence g hactive
    · exact hs.nonempty g hactive
    · exact hs.stored g hactive
  | reject => exact hs
  | @run step g e hactive hadvance =>
    obtain ⟨hid, -, -⟩ := advance_identity hadvance
    obtain ⟨howner, hsequence, hnonempty⟩ := tokens_of_advance hadvance
    refine ⟨?_, ?_, ?_, ?_, ?_, ?_, ?_⟩
    · show e.messages.Pairwise _
      rcases messages_of_advance hadvance with he | ⟨_, _, _, _, -, he⟩
      · rw [he]
        exact hs.ordered
      · rw [he]
        refine List.pairwise_append.2 ⟨hs.ordered, List.pairwise_singleton _ _, ?_⟩
        intro m hm m' hm'
        rw [List.mem_singleton.1 hm']
        exact lt_nextSequence hm
    · show (e.messages.map _).Nodup
      rcases messages_of_advance hadvance with he | ⟨messageId, _, _, _, hfresh, he⟩
      · rw [he]
        exact hs.distinct
      · rw [he, List.map_append]
        refine List.nodup_append.2 ⟨hs.distinct, List.nodup_singleton _, ?_⟩
        intro id hid id' hid'
        obtain ⟨m, hm, rfl⟩ := List.mem_map.1 hid
        rw [List.mem_singleton.1 hid']
        exact hfresh m hm
    · intro g' hg'
      obtain ⟨rfl, -⟩ := mem_active_run hg'
      rw [howner]
      exact hs.owner g hactive
    · intro g' hg'
      obtain ⟨rfl, -⟩ := mem_active_run hg'
      rw [hid]
      exact hs.drawn g hactive
    · intro g' hg'
      obtain ⟨rfl, -⟩ := mem_active_run hg'
      exact hsequence (hs.sequence g hactive)
    · intro g' hg'
      obtain ⟨rfl, -⟩ := mem_active_run hg'
      exact hnonempty (hs.nonempty g hactive)
    · intro g' hg'
      obtain ⟨rfl, hended⟩ := mem_active_run hg'
      exact storedBy_of_advance (hs.stored g hactive) (hs.sequence g hactive) hadvance hended

end

/-! ## A session of the manager -/

/-- What has been published on the session's topic. -/
def ChatGenerationManager.topic (m : ChatGenerationManager) (sessionId : String) :
    List ChatEvent :=
  (m.published.filter fun entry => entry.1 = sessionId).map Prod.snd

/-- The session is the manager's. -/
structure Holds (sessionId : String) (m : ChatGenerationManager) (s : ChatSession) : Prop where
  messages : s.messages = m.messages sessionId
  active : s.active = (m.active sessionId).bind m.generations
  drawn : ∀ id ∈ s.drawn, m.generations id ≠ none

/-- A turn of the session is started by its owner. -/
def StartedBy (sessionId ownerUserId : String) (_ : ChatGenerationManager) : Label → Prop
  | .start σ ownerUserId' _ _ => σ = sessionId → ownerUserId' = ownerUserId
  | _ => True

section

variable {sessionId ownerUserId σ id : String} {m m' : ChatGenerationManager} {s : ChatSession}
  {label : Label} {g : ActiveGeneration} {entries : List (String × ChatEvent)}

theorem topic_append (sessionId : String) (hpublished : m'.published = m.published ++ entries) :
    m'.topic sessionId = m.topic sessionId ++
      (entries.filter fun entry => entry.1 = sessionId).map Prod.snd := by
  unfold ChatGenerationManager.topic
  rw [hpublished, List.filter_append, List.map_append]

/-- The events of a step on the topic of its session. -/
theorem filter_topic (sessionId σ : String) (events : List ChatEvent) :
    ((events.map fun event => (σ, event)).filter fun entry => entry.1 = sessionId).map Prod.snd =
      if σ = sessionId then events else [] := by
  split_ifs with hσ
  · rw [List.filter_eq_self.2, List.map_map]
    · exact List.map_id events
    · intro entry hentry
      obtain ⟨event, -, rfl⟩ := List.mem_map.1 hentry
      exact decide_eq_true hσ
  · rw [List.filter_eq_nil_iff.2]
    · rfl
    · intro entry hentry
      obtain ⟨event, -, rfl⟩ := List.mem_map.1 hentry
      simpa using hσ

theorem ne_none_of_update {x : ActiveGeneration} {id' : String} (h : m.generations id' ≠ none) :
    Function.update m.generations id (some x) id' ≠ none := by
  by_cases hid : id' = id
  · subst hid
    rw [Function.update_self]
    exact nofun
  · rwa [Function.update_of_ne hid]

theorem bind_update_self (f : String → Option ActiveGeneration) (id : String)
    (x : Option ActiveGeneration) : (some id).bind (Function.update f id x) = x := by
  rw [Option.bind_some, Function.update_self]

/-- A step of another session. -/
theorem Holds.other {x : ActiveGeneration} (hs : Holds sessionId m s) (hm : Registered m)
    (hmessages : m'.messages sessionId = m.messages sessionId)
    (hactive : m'.active sessionId = m.active sessionId)
    (hgenerations : m'.generations = Function.update m.generations id (some x))
    (hid : ∀ g, m.generations id = some g → g.sessionId ≠ sessionId) : Holds sessionId m' s := by
  refine ⟨hs.messages.trans hmessages.symm, ?_, fun id' hid' => ?_⟩
  · rw [hs.active, hactive, hgenerations]
    cases hat : m.active sessionId with
    | none => rfl
    | some id' =>
      obtain ⟨g, hg, hsession, -⟩ := (hm.active_iff _ _).1 hat
      have hne : id' ≠ id := by
        rintro rfl
        exact hid g hg hsession
      exact (Function.update_of_ne hne (some x) m.generations).symm
  · rw [hgenerations]
    exact ne_none_of_update (hs.drawn id' hid')

/-- **A step of the manager, as its session takes it.**  It is a step of the session and publishes
the same events on its topic, or it is a step of another session. -/
theorem exists_serve (hm : Registered m) (hs : Holds sessionId m s)
    (howner : StartedBy sessionId ownerUserId m label) (h : manager.next m label = some m') :
    ∃ s' events, Holds sessionId m' s' ∧ m'.topic sessionId = m.topic sessionId ++ events ∧
      (s' = s ∧ events = [] ∨ ∃ l, serve sessionId ownerUserId s l = some (s', events)) := by
  cases label with
  | start σ ownerUserId' question generationId =>
    obtain ⟨hactive, hnew, rfl⟩ := next_start_eq_some h
    have htopic := (List.append_nil (m.topic sessionId)).symm
    by_cases hσ : σ = sessionId
    · subst hσ
      obtain rfl := howner rfl
      have hidle : s.active = none := by
        rw [hs.active, hactive]
        rfl
      have hfresh : generationId ∉ s.drawn := fun hdrawn => hs.drawn _ hdrawn hnew
      have hserve : serve σ ownerUserId' s (.start question generationId) =
          some ({ s with
            active := some (.new generationId σ ownerUserId' question)
            drawn := generationId :: s.drawn }, []) := if_pos ⟨hidle, hfresh⟩
      refine ⟨_, _, ?_, htopic, .inr ⟨_, hserve⟩⟩
      refine ⟨hs.messages, ?_, fun id hid => ?_⟩
      · show _ = (Function.update m.active σ (some generationId) σ).bind
          (Function.update m.generations generationId _)
        rw [Function.update_self, bind_update_self]
      · rcases List.mem_cons.1 hid with rfl | hid
        · show Function.update m.generations id _ id ≠ none
          rw [Function.update_self]
          exact nofun
        · exact ne_none_of_update (hs.drawn id hid)
    · refine ⟨s, [], hs.other hm rfl (Function.update_of_ne (Ne.symm hσ) ..) rfl fun g hg => ?_,
        htopic, .inl ⟨rfl, rfl⟩⟩
      rw [hnew] at hg
      cases hg
  | interrupt σ ownerUserId' =>
    obtain ⟨id, g, hactive, hg, rfl⟩ := next_interrupt_eq_some h
    have htopic := (List.append_nil (m.topic sessionId)).symm
    by_cases hσ : σ = sessionId
    · subst hσ
      have hgs : s.active = some g := by
        rw [hs.active, hactive]
        exact hg
      have hserve : serve σ ownerUserId s .interrupt =
          some ({ s with active := some { g with cancel := true } }, []) :=
        Option.bind_eq_some_iff.2 ⟨g, hgs, rfl⟩
      refine ⟨_, _, ?_, htopic, .inr ⟨_, hserve⟩⟩
      refine ⟨hs.messages, ?_, fun id hid => ne_none_of_update (hs.drawn id hid)⟩
      show _ = (m.active σ).bind (Function.update m.generations id _)
      rw [hactive, bind_update_self]
    · refine ⟨s, [], hs.other hm rfl rfl rfl fun g' hg' => ?_, htopic, .inl ⟨rfl, rfl⟩⟩
      obtain ⟨g'', hg'', hsession, -⟩ := (hm.active_iff _ _).1 hactive
      rw [hg'] at hg''
      cases hg''
      rw [hsession]
      exact hσ
  | reject σ detail =>
    cases h
    have hevents := filter_topic sessionId σ [.generationFailed none detail]
    rw [List.map_singleton] at hevents
    refine ⟨s, _, ⟨hs.messages, hs.active, hs.drawn⟩,
      (topic_append sessionId rfl).trans (congrArg _ hevents), ?_⟩
    split_ifs
    · exact .inr ⟨.reject detail, rfl⟩
    · exact .inl ⟨rfl, rfl⟩
  | run id step =>
    obtain ⟨g, e, hg, he, rfl⟩ := next_run_iff.1 h
    obtain ⟨hid, hsession, -⟩ := advance_identity he
    have hgid : g.generationId = id := hm.named id g hg
    have htopic : (m.apply id e).topic sessionId = m.topic sessionId ++ _ :=
      topic_append sessionId rfl
    rw [filter_topic, hsession] at htopic
    by_cases hσ : g.sessionId = sessionId
    · subst hσ
      rw [if_pos rfl] at htopic
      have hactive : m.active g.sessionId = some id :=
        (hm.active_iff _ _).2 ⟨g, hg, rfl, not_ended_of_advance he⟩
      have hgs : s.active = some g := by
        rw [hs.active, hactive]
        exact hg
      have hadvance : g.advance s.messages step = some e := by rwa [hs.messages]
      have hserve : serve g.sessionId ownerUserId s (.run step) =
          some ({ s with
            messages := e.messages
            active := if e.generation.phase = .ended then none else some e.generation },
            e.events) :=
        Option.bind_eq_some_iff.2 ⟨g, hgs, Option.bind_eq_some_iff.2 ⟨e, hadvance, rfl⟩⟩
      refine ⟨_, _, ?_, htopic, .inr ⟨_, hserve⟩⟩
      refine ⟨?_, ?_, fun id hid => ne_none_of_update (hs.drawn id hid)⟩
      · show e.messages = Function.update m.messages e.generation.sessionId e.messages g.sessionId
        rw [hsession, Function.update_self]
      · show _ = (release m.active e.generation g.sessionId).bind
          (Function.update m.generations id (some e.generation))
        unfold release
        rw [hsession, hid, hgid]
        split_ifs with hended hboth hboth
        · rw [Function.update_self]
          rfl
        · exact (hboth ⟨hended, hactive⟩).elim
        · exact (hended hboth.1).elim
        · rw [hactive, bind_update_self]
    · rw [if_neg hσ] at htopic
      refine ⟨s, [], hs.other hm (Function.update_of_ne ?_ ..) ?_ rfl fun g' hg' => ?_, htopic,
        .inl ⟨rfl, rfl⟩⟩
      · rw [hsession]
        exact Ne.symm hσ
      · show release m.active e.generation sessionId = m.active sessionId
        unfold release
        split_ifs
        · rw [hsession, Function.update_of_ne (Ne.symm hσ)]
        · rfl
      · rw [hg] at hg'
        cases hg'
        exact hσ

/-- **Every run of the manager is a run of each of its sessions**, whatever its client does. -/
theorem exists_chat {messages : String → List ChatMessage}
    (h : manager.Run (StartedBy sessionId ownerUserId) (.initial messages) m) :
    ∃ t, (chat sessionId ownerUserId).Reachable (.initial (messages sessionId)) t ∧
      Holds sessionId m t.toChatSession := by
  have sim : manager.Simulates (StartedBy sessionId ownerUserId) (chat sessionId ownerUserId)
      fun m t => Registered m ∧ Holds sessionId m t.toChatSession := by
    rintro m l m' t ⟨hm, ht⟩ howner hnext
    have hm' : Registered m' := hm.next hnext
    obtain ⟨s', events, hs', -, ⟨rfl, -⟩ | ⟨l', hserve⟩⟩ := exists_serve hm ht howner hnext
    · exact .inl ⟨hm', hs'⟩
    · exact .inr ⟨.server l', _, Option.bind_eq_some_iff.2 ⟨_, hserve, rfl⟩, hm', hs'⟩
  have h₀ : Holds sessionId (.initial messages)
      (ChatState.initial (messages sessionId)).toChatSession := ⟨rfl, rfl, nofun⟩
  obtain ⟨t, hreach, ht⟩ := Machine.Simulates.exists_reachable sim ⟨.initial messages, h₀⟩ h
  exact ⟨t, hreach, ht.2⟩

end

end Chat

end TrackFlow
