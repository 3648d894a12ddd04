import TrackFlow.Chat.Session

/-!
# What a client shows of a turn

The rows of a panel are the stored messages of the session and the draft of its active turn.  The
events that are queued behind a subscription are the last ones of the turn's story.

* `Queued` : what a queue holds of the events since the subscription.
* `Synced` : a panel that shows the session, but for tokens it has missed.
* `Synced.next` : a step that the client is told of.
* `Queued.tokens` : **the queued tokens are the published ones that were not missed.**
-/

namespace TrackFlow

namespace Chat

open ActiveGeneration

/-! ## The queue of a subscription -/

/-- A token is recorded and not yet published. -/
def holdsToken : Phase → Bool
  | .answering (some _) => true
  | _ => false

/-- The tokens of a generation that have been published. -/
def publishedParts (g : ActiveGeneration) : List String :=
  match g.phase with
  | .answering (some _) => g.tokenParts.dropLast
  | _ => g.tokenParts

/-- The text of a token. -/
def tokenText : ChatEvent → Option String
  | .tokenChunk _ token _ => some token
  | _ => none

/-- The event carries the generation's id. -/
def about (generationId : String) (event : ChatEvent) : Bool :=
  event.generationId = some generationId

/-- What a last event reports is what is stored. -/
def Recorded (messages : List ChatMessage) (g : ActiveGeneration) : ChatEvent → Prop
  | .generationCompleted _ messageId _ answer =>
    answer ≠ "" ∧ EndsWithAnswer messages (answerRow messageId answer false)
  | .generationInterrupted _ (some messageId) =>
    EndsWithAnswer messages (answerRow messageId g.partialAnswer true)
  | _ => True

/-- The last event of a generation. -/
def Ends (messages : List ChatMessage) (g : ActiveGeneration) (ends : List ChatEvent) : Prop :=
  ends = [] ∨ g.phase = .ending ∧
    ∃ event, ends = [event] ∧ event.terminal = true ∧ Recorded messages g event

/-- Events of a generation, from some moment on: its opening, its tokens and its last event. -/
def Story (messages : List ChatMessage) (g : ActiveGeneration) (events : List ChatEvent) : Prop :=
  ∃ opening ends, (∀ event ∈ opening, event.opens = true) ∧ Ends messages g ends ∧
    events <:+ opening ++ chunks g.generationId 0 (publishedParts g) ++ ends

/-- What a queue holds of the events since the subscription. -/
structure Queued (s : ChatSession) (queue : List ChatEvent) : Prop where
  users : ∀ g m, .userMessage g m ∈ queue → m ∈ s.messages ∧ m.role = .user
  drawn : ∀ event ∈ queue, ∀ id, event.generationId = some id → id ∈ s.drawn
  story : ∀ g ∈ s.active, Story s.messages g (queue.filter (about g.generationId))

section

variable {sessionId ownerUserId : String} {s s' : ChatSession} {l : SessionLabel}
  {queue events : List ChatEvent} {messages messages' : List ChatMessage} {g g' : ActiveGeneration}
  {e : Effect} {step : RunStep}

theorem suffix_append_right {front behind more : List ChatEvent} (h : front <:+ behind) :
    front ++ more <:+ behind ++ more := by
  obtain ⟨t, rfl⟩ := h
  exact ⟨t, (List.append_assoc ..).symm⟩

theorem publishedParts_eq (h : holdsToken g.phase = false) : publishedParts g = g.tokenParts := by
  unfold publishedParts
  split
  · next hphase => rw [hphase] at h; cases h
  · rfl

/-- The phase behind a call that writes. -/
theorem publishedParts_after {outcome : Outcome} {returned caught : Phase}
    (hr : holdsToken returned = false) (hc : holdsToken caught = false) :
    publishedParts (g.goto (after outcome returned caught)) = g.tokenParts := by
  refine publishedParts_eq ?_
  show holdsToken (after outcome returned caught) = false
  unfold after
  split_ifs
  · exact hr
  · exact hc

theorem publishedParts_record (g : ActiveGeneration) (delta : String) :
    publishedParts (g.record delta) = g.tokenParts := List.dropLast_concat

theorem publishedParts_of_pending {parts : List String} {token : String} {sequence : ℕ}
    (hphase : g.phase = .answering (some (token, sequence)))
    (hparts : g.tokenParts = parts ++ [token]) : publishedParts g = parts := by
  unfold publishedParts
  rw [hphase, hparts]
  exact List.dropLast_concat

/-- A turn that has not published its last event. -/
theorem Story.not_ending (h : Story messages g events) (hphase : g.phase ≠ .ending) :
    ∃ opening, (∀ event ∈ opening, event.opens = true) ∧
      events <:+ opening ++ chunks g.generationId 0 (publishedParts g) := by
  obtain ⟨opening, ends, hopening, rfl | ⟨hending, -⟩, hsuffix⟩ := h
  · exact ⟨opening, hopening, by rwa [List.append_nil] at hsuffix⟩
  · exact (hphase hending).elim

/-- A step that publishes nothing. -/
theorem Story.silent (h : Story messages g events) (hphase : g.phase ≠ .ending)
    (hid : g'.generationId = g.generationId) (hparts : publishedParts g' = publishedParts g) :
    Story messages' g' (events ++ []) := by
  obtain ⟨opening, hopening, hsuffix⟩ := h.not_ending hphase
  refine ⟨opening, [], hopening, .inl rfl, ?_⟩
  rw [hid, hparts, List.append_nil, List.append_nil]
  exact hsuffix

/-- The last event of a turn. -/
theorem Story.ends {event : ChatEvent} (h : Story messages g events)
    (hparts : publishedParts g = g.tokenParts) (hphase : g.phase ≠ .ending)
    (hterminal : event.terminal = true) (hrecorded : Recorded messages g event) :
    Story messages (g.goto .ending) (events ++ [event]) := by
  obtain ⟨opening, hopening, hsuffix⟩ := h.not_ending hphase
  rw [hparts] at hsuffix
  exact ⟨opening, [event], hopening, .inr ⟨rfl, event, rfl, hterminal, hrecorded⟩,
    suffix_append_right hsuffix⟩

/-- A step publishes the tokens that become published. -/
theorem publishedParts_of_advance (hstored : StoredBy messages g g.phase)
    (h : g.advance messages step = some e) :
    publishedParts e.generation = publishedParts g ++ e.events.filterMap tokenText := by
  have hnone : ∀ {phase : Phase}, g.phase = phase → holdsToken phase = false →
      publishedParts g = g.tokenParts := by
    rintro phase rfl hne
    exact publishedParts_eq hne
  cases Advanced.of_advance h with
  | prepareTurn hpreparing =>
    refine (publishedParts_after ?_ ?_).trans ?_
    · rfl
    · rfl
    · rw [hnone hpreparing rfl]
      exact (List.append_nil _).symm
  | token hanswering =>
    rw [publishedParts_record, hnone hanswering rfl]
    exact (List.append_nil _).symm
  | publishToken hanswering =>
    rw [hanswering] at hstored
    obtain ⟨-, parts, hparts, rfl⟩ := hstored
    rw [publishedParts_of_pending hanswering hparts]
    exact hparts
  | cancel hcancel =>
    rcases hcancel with hcancel | ⟨result, hcancel⟩ <;>
    · rw [hnone hcancel rfl]
      exact (List.append_nil _).symm
  | complete hphase | interruptBlank hphase | interrupt hphase =>
    refine (publishedParts_after ?_ ?_).trans ?_
    · rfl
    · rfl
    · rw [hnone hphase rfl]
      exact (List.append_nil _).symm
  | publishUser hphase | answer hphase | raiseError hphase | checkCancel hphase
  | completeRaises hphase | publishCompleted hphase | publishInterrupted hphase
  | publishFailed hphase | finish hphase =>
    rw [hnone hphase rfl]
    exact (List.append_nil _).symm

/-- A step of the task continues the story of its turn. -/
theorem Story.advance (hstory : Story messages g events) (hstored : StoredBy messages g g.phase)
    (h : g.advance messages step = some e) (hphase : e.generation.phase ≠ .ended) :
    Story e.messages e.generation (events ++ e.events) := by
  have hpublished := publishedParts_of_advance hstored h
  cases Advanced.of_advance h with
  | @publishUser m hprepared =>
    rw [hprepared] at hstored
    obtain ⟨opening, hopening, hsuffix⟩ := hstory.not_ending (by simp [hprepared])
    rw [publishedParts_eq (by rw [hprepared]; rfl), hstored.1] at hsuffix
    refine ⟨opening ++ [.userMessage g.generationId m], [], ?_, .inl rfl, ?_⟩
    · intro event hevent
      rcases List.mem_append.1 hevent with hevent | hevent
      · exact hopening event hevent
      · rw [List.mem_singleton.1 hevent]
        rfl
    · show _ <:+ _ ++ chunks g.generationId 0 g.tokenParts ++ []
      rw [hstored.1]
      simp only [chunks, List.append_nil] at hsuffix ⊢
      exact suffix_append_right hsuffix
  | @publishToken token sequence hanswering =>
    rw [hanswering] at hstored
    obtain ⟨-, parts, hparts, rfl⟩ := hstored
    obtain ⟨opening, hopening, hsuffix⟩ := hstory.not_ending (by simp [hanswering])
    rw [publishedParts_of_pending hanswering hparts] at hsuffix
    refine ⟨opening, [], hopening, .inl rfl, ?_⟩
    show _ <:+ _ ++ chunks g.generationId 0 g.tokenParts ++ []
    rw [hparts, chunks_append, Nat.zero_add, List.append_nil, ← List.append_assoc]
    exact suffix_append_right hsuffix
  | publishCompleted hcompleted =>
    rw [hcompleted] at hstored
    exact hstory.ends (publishedParts_eq (by rw [hcompleted]; rfl))
      (by simp [hcompleted]) rfl hstored
  | @publishInterrupted messageId hinterrupted =>
    rw [hinterrupted] at hstored
    refine hstory.ends (publishedParts_eq (by rw [hinterrupted]; rfl))
      (by simp [hinterrupted]) rfl ?_
    cases messageId with
    | none => trivial
    | some messageId => exact hstored
  | publishFailed hfailed =>
    exact hstory.ends (publishedParts_eq (by rw [hfailed]; rfl)) (by simp [hfailed])
      rfl trivial
  | cancel hcancel =>
    rcases hcancel with hcancel | ⟨result, hcancel⟩ <;>
      exact hstory.silent (by simp [hcancel]) rfl
        (hpublished.trans (List.append_nil _))
  | finish => exact (hphase rfl).elim
  | prepareTurn hat | token hat | answer hat | raiseError hat | checkCancel hat
  | completeRaises hat | complete hat | interruptBlank hat | interrupt hat =>
    exact hstory.silent (by simp [hat]) rfl (hpublished.trans (List.append_nil _))

/-- **A step of the session, and the queue.** -/
theorem Queued.next (hq : Queued s queue) (hs : Sound ownerUserId s)
    (h : Served sessionId ownerUserId s l s' events) : Queued s' (queue ++ events) := by
  have hmessages := h.prefix_messages.subset
  cases h with
  | @start question generationId hactive hnew =>
    rw [List.append_nil]
    refine ⟨hq.users, fun event he id hid => List.mem_cons_of_mem _ (hq.drawn event he id hid), ?_⟩
    rintro g hg
    cases hg
    have hnil : queue.filter (about generationId) = [] :=
      List.filter_eq_nil_iff.2 fun event he hid =>
        hnew (hq.drawn event he generationId (of_decide_eq_true hid))
    refine ⟨[], [], nofun, .inl rfl, ?_⟩
    show queue.filter (about generationId) <:+ _
    rw [hnil]
    exact List.nil_suffix
  | @interrupt g hactive =>
    rw [List.append_nil]
    refine ⟨hq.users, hq.drawn, ?_⟩
    rintro g' hg'
    cases hg'
    exact hq.story g hactive
  | @reject detail =>
    refine ⟨fun g m hm => ?_, fun event he id hid => ?_, fun g hg => ?_⟩
    · rcases List.mem_append.1 hm with hm | hm
      · exact hq.users g m hm
      · cases List.mem_singleton.1 hm
    · rcases List.mem_append.1 he with he | he
      · exact hq.drawn event he id hid
      · rw [List.mem_singleton.1 he] at hid
        cases hid
    · rw [List.filter_append]
      have hnil : [ChatEvent.generationFailed none detail].filter (about g.generationId) = [] := rfl
      rw [hnil, List.append_nil]
      exact hq.story g hg
  | @run step g e hactive hadvance =>
    obtain ⟨hid, -, habout⟩ := advance_identity hadvance
    refine ⟨fun g' m hm => ?_, fun event he id hid => ?_, fun g' hg' => ?_⟩
    · rcases List.mem_append.1 hm with hm | hm
      · exact (hq.users g' m hm).imp_left (hmessages ·)
      · cases Advanced.of_advance hadvance with
        | publishUser hprepared =>
          have hstored := hs.stored g hactive
          rw [hprepared] at hstored
          obtain ⟨-, hrole, front, hfront, -⟩ := hstored
          cases List.mem_singleton.1 hm
          refine ⟨?_, hrole⟩
          show _ ∈ s.messages
          rw [hfront]
          exact List.mem_append_right _ List.mem_cons_self
        | publishToken | publishCompleted | publishInterrupted | publishFailed =>
          cases List.mem_singleton.1 hm
        | prepareTurn | token | answer | cancel | raiseError | checkCancel | completeRaises
        | complete | interruptBlank | interrupt | finish => cases hm
    · rcases List.mem_append.1 he with he | he
      · exact hq.drawn event he id hid
      · rw [habout event he] at hid
        cases hid
        exact hs.drawn g hactive
    · obtain ⟨rfl, hended⟩ := mem_active_run hg'
      have hevents : e.events.filter (about g.generationId) = e.events :=
        List.filter_eq_self.2 fun event he => decide_eq_true (habout event he)
      rw [hid, List.filter_append, hevents]
      exact (hq.story g hactive).advance (hs.stored g hactive) hadvance hended

end

/-! ## The rows of a client -/

/-- The rows are the stored ones and the draft of the turn, but for the first `missed` tokens.  The
panel may know a token already that is recorded and not yet published. -/
def Follows (missed : ℕ) (rows : List DisplayMessage) (g : ActiveGeneration) (p : Panel) : Prop :=
  ∃ k, missed ≤ (publishedParts g).length ∧ (publishedParts g).length ≤ k ∧
    k ≤ g.tokenParts.length ∧
    p.tokenSequences g.generationId = (if k = missed then 0 else k) ∧
    p.rows = rows ++ Panel.draftOf g.generationId ((g.tokenParts.take k).drop missed)

/-- What the panel shows of the active turn, by the point its task has reached. -/
def Shows (missed : ℕ) (messages : List ChatMessage) (g : ActiveGeneration) (p : Panel) :
    Phase → Prop
  | .preparing => missed = 0 ∧ p.tokenSequences g.generationId = 0 ∧
      p.rows = messages.map display
  | .prepared m => missed = 0 ∧ p.tokenSequences g.generationId = 0 ∧
      (p.rows = messages.map display ∨ p.rows ++ [display m] = messages.map display)
  | .answering _ | .answered _ | .completing _ | .cancelled =>
    Follows missed (messages.map display) g p
  -- the answer is shown already, or the draft waits for it
  | .completed messageId _ answer => p.rows = messages.map display ∨
      ∃ rows content, p.rows = rows ++ [draft g.generationId content] ∧
        rows ++ [answerRow messageId answer false] = messages.map display
  | .interrupted (some messageId) => p.rows = messages.map display ∨
      ∃ rows, p.rows = rows ++ [draft g.generationId g.partialAnswer] ∧
        rows ++ [answerRow messageId g.partialAnswer true] = messages.map display
  | .interrupted none | .failed | .ending | .ended => p.rows = messages.map display

/-- The panel shows the session. -/
structure Synced (missed : ℕ) (s : ChatSession) (p : Panel) : Prop where
  undrawn : ∀ id, id ∉ s.drawn → p.tokenSequences id = 0
  idle : s.active = none → p.rows = s.messages.map display
  shows : ∀ g ∈ s.active, Shows missed s.messages g p g.phase

section

variable {missed : ℕ} {sessionId ownerUserId : String} {s s' : ChatSession} {l : SessionLabel}
  {events : List ChatEvent} {messages messages' : List ChatMessage} {g : ActiveGeneration}
  {e : Effect} {step : RunStep} {p : Panel} {rows : List DisplayMessage}

/-- A turn whose tokens are published. -/
theorem Follows.of_parts {g' : ActiveGeneration} (h : Follows missed rows g p)
    (hid : g'.generationId = g.generationId) (hparts : g'.tokenParts = g.tokenParts)
    (hpublished : publishedParts g' = publishedParts g) : Follows missed rows g' p := by
  obtain ⟨k, hk⟩ := h
  refine ⟨k, ?_⟩
  rw [hid, hparts, hpublished]
  exact hk

/-- Where all tokens are published, the draft holds them from the first that was not missed. -/
theorem Follows.published (h : Follows missed rows g p) (hparts : publishedParts g = g.tokenParts) :
    missed ≤ g.tokenParts.length ∧
      p.rows = rows ++ Panel.draftOf g.generationId (g.tokenParts.drop missed) := by
  obtain ⟨k, hmissed, hpublished, hle, -, hrows⟩ := h
  rw [hparts] at hpublished hmissed
  have hk : k = g.tokenParts.length := by omega
  subst hk
  exact ⟨hmissed, by rw [hrows, List.take_length]⟩

/-- A client without tokens shows the stored rows. -/
theorem Follows.rows_eq (h : Follows missed rows g p) (hparts : publishedParts g = g.tokenParts)
    (htokens : g.tokenParts.length - missed = 0) : p.rows = rows := by
  obtain ⟨-, hrows⟩ := h.published hparts
  rw [hrows, List.drop_eq_nil_of_le (by omega)]
  exact List.append_nil rows

/-- A client with tokens shows a draft. -/
theorem Follows.rows_eq_draft (h : Follows missed rows g p)
    (hparts : publishedParts g = g.tokenParts) (htokens : 0 < g.tokenParts.length - missed) :
    p.rows = rows ++ [draft g.generationId (String.join (g.tokenParts.drop missed))] := by
  obtain ⟨-, hrows⟩ := h.published hparts
  rw [hrows]
  have hne : g.tokenParts.drop missed ≠ [] := by
    intro hnil
    have := List.drop_eq_nil_iff.1 hnil
    omega
  exact congrArg (rows ++ ·) (if_neg hne)

/-- The panel handles a token of the turn. -/
theorem Follows.token {parts : List String} {token : String} (h : Follows missed rows g p)
    (hrows : Panel.Stored rows) (hphase : g.phase = .answering (some (token, parts.length + 1)))
    (hparts : g.tokenParts = parts ++ [token]) :
    Follows missed rows (g.goto (.answering none))
      (p.handleSocketEvent (.published (.tokenChunk g.generationId token (parts.length + 1)))) := by
  obtain ⟨k, hmissed, hpublished, hle, hsequence, hshown⟩ := h
  have hlength : g.tokenParts.length = parts.length + 1 := by
    rw [hparts, List.length_append, List.length_singleton]
  have hall : publishedParts (g.goto (.answering none)) = g.tokenParts := rfl
  rw [publishedParts_of_pending hphase hparts] at hpublished hmissed
  refine ⟨parts.length + 1, by rw [hall]; omega, by rw [hall, hlength], hlength.ge, ?_⟩
  show _ = (if parts.length + 1 = missed then 0 else parts.length + 1) ∧
    _ = rows ++ Panel.draftOf g.generationId ((g.tokenParts.take (parts.length + 1)).drop missed)
  rw [if_neg (by omega)]
  by_cases hk : k = parts.length + 1
  · -- the snapshot held the token
    subst hk
    rw [if_neg (by omega)] at hsequence
    have hsame : p.handleSocketEvent
        (.published (.tokenChunk g.generationId token (parts.length + 1))) = p := by
      unfold Panel.handleSocketEvent
      exact if_pos ⟨by omega, hsequence.ge⟩
    rw [hsame]
    exact ⟨hsequence, hshown⟩
  · have hk : k = parts.length := by omega
    subst hk
    have hfront : (g.tokenParts.take parts.length).drop missed = parts.drop missed := by
      rw [hparts, List.take_left]
    have hnext : (g.tokenParts.take (parts.length + 1)).drop missed =
        parts.drop missed ++ [token] := by
      rw [← hlength, List.take_length, hparts, List.drop_append_of_le_length hmissed]
    have hnew : p.handleSocketEvent
        (.published (.tokenChunk g.generationId token (parts.length + 1))) =
        ⟨rows ++ Panel.draftOf g.generationId (parts.drop missed ++ [token]),
          Function.update p.tokenSequences g.generationId (parts.length + 1)⟩ := by
      rw [hfront] at hshown
      unfold Panel.handleSocketEvent
      simp only
      have hle : p.tokenSequences g.generationId ≤ parts.length := by
        rw [hsequence]
        split_ifs <;> omega
      rw [if_neg (by omega), if_pos (by omega),
        Panel.appendToken_eq (hrows.noDraft g.generationId) hshown]
    rw [hnew, hnext]
    exact ⟨Function.update_self .., rfl⟩

/-- A new token is recorded. -/
theorem Follows.record (h : Follows missed rows g p) (hparts : publishedParts g = g.tokenParts)
    (delta : String) : Follows missed rows (g.record delta) p := by
  obtain ⟨k, hmissed, hpublished, hle, hsequence, hshown⟩ := h
  rw [hparts] at hmissed hpublished
  have hlength : (g.record delta).tokenParts = g.tokenParts ++ [delta] := rfl
  refine ⟨k, ?_, ?_, ?_, hsequence, ?_⟩
  · rw [publishedParts_record]
    exact hmissed
  · rw [publishedParts_record]
    exact hpublished
  · rw [hlength, List.length_append]
    omega
  · rw [hlength, List.take_append_of_le_length hle]
    exact hshown

/-- The opening event of a turn. -/
theorem Follows.opened {m : ChatMessage} (generationId : String)
    (hstored : StoredBy messages g (.prepared m))
    (hshows : Shows missed messages g p (.prepared m)) :
    Follows missed (messages.map display) (g.goto (.answering none))
      (p.handleSocketEvent (.published (.userMessage generationId m))) := by
  obtain ⟨hparts, -, front, rfl, hfresh⟩ := hstored
  obtain ⟨rfl, hsequence, hrows⟩ := hshows
  have hnil : (g.goto (.answering none)).tokenParts = [] := hparts
  have hshown : p.handleSocketEvent (.published (.userMessage generationId m)) =
      ⟨(front ++ [m]).map display, p.tokenSequences⟩ := by
    unfold Panel.handleSocketEvent
    simp only
    rw [List.map_append, List.map_singleton] at hrows ⊢
    rcases hrows with hrows | hrows
    · rw [if_pos, ← hrows]
      rw [hrows, List.any_append]
      simp [display]
    · have hfront := List.append_cancel_right hrows
      have hany : (p.rows.any fun row => row.id = .message m.messageId) = false := by
        rw [List.any_eq_false, hfront]
        intro row hrow
        obtain ⟨m', hm', rfl⟩ := List.mem_map.1 hrow
        simpa [display] using hfresh m' hm'
      rw [hany, if_neg Bool.false_ne_true, Panel.acknowledge_eq, hfront]
      rw [hfront]
      exact (Panel.stored_map_display front).noPending
  rw [hshown]
  refine ⟨0, ?_, ?_, Nat.zero_le _, ?_, ?_⟩
  · exact Nat.zero_le _
  · rw [publishedParts_eq rfl, hnil]
    exact le_rfl
  · rw [if_pos rfl]
    exact hsequence
  · rw [hnil]
    exact (List.append_nil _).symm

/-- The last event turns the draft into the stored row. -/
theorem changeDraft_eq {f : DisplayMessage → DisplayMessage} {content : String}
    {row : DisplayMessage} (hshown : p.rows = rows ++ [draft g.generationId content])
    (hrows : rows ++ [row] = messages.map display) (hf : f (draft g.generationId content) = row) :
    (p.changeDraft g.generationId f).rows = messages.map display := by
  have hstored : Panel.Stored rows := fun r hr =>
    Panel.stored_map_display messages r (hrows ▸ List.mem_append_left _ hr)
  rw [Panel.changeDraft_of_draft (hstored.noDraft _) hshown, hf, hrows]

theorem Told.complete {tokens : ℕ} {outcome : Outcome} {messageId : String}
    (h : Told g tokens (.completeTurn outcome messageId)) (hcommits : outcome ≠ .raises) :
    outcome = .returns ∧ 0 < tokens := by
  have h : if outcome = .raises then tokens = 0 else outcome = .returns ∧ 0 < tokens := h
  rwa [if_neg hcommits] at h

theorem Told.persist {tokens : ℕ} {outcome : Outcome} {messageId : String}
    (h : Told g tokens (.persistInterrupted outcome messageId)) :
    if Python.blank g.partialAnswer.toList = true ∨ outcome = .raises then tokens = 0
    else outcome = .returns ∧ tokens = g.tokenParts.length := h

/-- **A step of which the client is told.** -/
theorem Shows.advance (hshows : Shows missed messages g p g.phase)
    (hstored : StoredBy messages g g.phase) (h : g.advance messages step = some e)
    (hphase : e.generation.phase ≠ .ended) (htold : Told g (g.tokenParts.length - missed) step) :
    Shows missed e.messages e.generation (p.receive e.events) e.generation.phase := by
  have hrows : Panel.Stored (messages.map display) := Panel.stored_map_display messages
  cases Advanced.of_advance h with
  | @prepareTurn outcome messageId hpreparing hfresh =>
    rw [hpreparing] at hshows
    obtain ⟨hmissed, hsequence, hshown⟩ := hshows
    cases outcome with
    | returns =>
      refine ⟨hmissed, hsequence, .inr ?_⟩
      show p.rows ++ _ = (messages ++ [_]).map display
      rw [hshown, List.map_append, List.map_singleton]
    | raises => exact hshown
    | raisesCommitted => exact (htold rfl).elim
  | @publishUser m hprepared =>
    rw [hprepared] at hshows hstored
    exact Follows.opened g.generationId hstored hshows
  | token hanswering =>
    rw [hanswering] at hshows
    exact Follows.record hshows (publishedParts_eq (by rw [hanswering]; rfl)) _
  | publishToken hanswering =>
    rw [hanswering] at hshows hstored
    obtain ⟨-, parts, hparts, rfl⟩ := hstored
    exact Follows.token hshows hrows hanswering hparts
  | answer hanswering =>
    rw [hanswering] at hshows
    exact Follows.of_parts hshows rfl rfl (publishedParts_eq (by rw [hanswering]; rfl)).symm
  | cancel hcancel =>
    rcases hcancel with hcancel | ⟨result, hcancel⟩ <;> rw [hcancel] at hshows <;>
      exact Follows.of_parts hshows rfl rfl (publishedParts_eq (by rw [hcancel]; rfl)).symm
  | raiseError hanswering =>
    rw [hanswering] at hshows
    exact Follows.rows_eq hshows (publishedParts_eq (by rw [hanswering]; rfl)) htold
  | checkCancel hanswered =>
    rw [hanswered] at hshows
    exact Follows.of_parts hshows rfl rfl (publishedParts_eq (by rw [hanswered]; rfl)).symm
  | completeRaises hcompleting =>
    rw [hcompleting] at hshows
    exact Follows.rows_eq hshows (publishedParts_eq (by rw [hcompleting]; rfl)) htold
  | @complete result outcome messageId answer hcompleting hcommits =>
    rw [hcompleting] at hshows
    obtain ⟨rfl, htokens⟩ := htold.complete hcommits
    have hshown := Follows.rows_eq_draft hshows (publishedParts_eq (by rw [hcompleting]; rfl))
      htokens
    refine .inr ⟨_, _, hshown, ?_⟩
    show _ = (messages ++ [_]).map display
    rw [List.map_append]
    rfl
  | @publishCompleted messageId route answer hcompleted =>
    rw [hcompleted] at hshows hstored
    rcases hshows with hshown | ⟨rows, content, hshown, hanswer⟩
    · exact (Panel.changeDraft_of_noDraft (by rw [hshown]; exact hrows.noDraft _)).trans hshown
    · refine changeDraft_eq hshown hanswer ?_
      unfold Panel.complete
      rw [if_neg hstored.1]
      rfl
  | @interruptBlank outcome messageId hcancelled hblank =>
    rw [hcancelled] at hshows
    have htokens := htold.persist
    rw [if_pos (.inl hblank)] at htokens
    have hshown := Follows.rows_eq hshows (publishedParts_eq (by rw [hcancelled]; rfl)) htokens
    cases outcome <;> exact hshown
  | @interrupt outcome messageId hcancelled hblank =>
    rw [hcancelled] at hshows
    have hparts : publishedParts g = g.tokenParts := publishedParts_eq (by rw [hcancelled]; rfl)
    have htokens := htold.persist
    by_cases hraises : outcome = .raises
    · subst hraises
      rw [if_pos (.inr rfl)] at htokens
      exact Follows.rows_eq hshows hparts htokens
    · rw [if_neg (by rw [hblank]; simp [hraises])] at htokens
      obtain ⟨rfl, htokens⟩ := htokens
      have hpos : 0 < g.tokenParts.length := by
        rw [List.length_pos_iff]
        intro hnil
        rw [partialAnswer, hnil] at hblank
        cases hblank
      have hmissed : missed = 0 := by
        have := (Follows.published hshows hparts).1
        omega
      subst hmissed
      have hshown := Follows.rows_eq_draft hshows hparts (by omega)
      refine .inr ⟨_, hshown, ?_⟩
      show _ = (messages ++ [_]).map display
      rw [List.map_append]
      rfl
  | @publishInterrupted messageId hinterrupted =>
    rw [hinterrupted] at hshows
    cases messageId with
    | none =>
      have hshown : p.rows = messages.map display := hshows
      exact (Panel.changeDraft_of_noDraft (by rw [hshown]; exact hrows.noDraft _)).trans hshown
    | some messageId =>
      rcases hshows with hshown | ⟨rows, hshown, hanswer⟩
      · exact (Panel.changeDraft_of_noDraft (by rw [hshown]; exact hrows.noDraft _)).trans hshown
      · exact changeDraft_eq hshown hanswer rfl
  | publishFailed hfailed =>
    rw [hfailed] at hshows
    exact hshows
  | finish => exact (hphase rfl).elim

/-- The task has ended with its `finally` clause. -/
theorem eq_finish_of_ended (h : g.advance messages step = some e)
    (hended : e.generation.phase = .ended) :
    g.phase = .ending ∧ e = ⟨g.goto .ended, messages, []⟩ := by
  cases Advanced.of_advance h with
  | finish hending => exact ⟨hending, rfl⟩
  | prepareTurn | complete | interruptBlank | interrupt =>
    replace hended : after _ _ _ = Phase.ended := hended
    unfold after at hended
    split_ifs at hended
  | publishUser | token | publishToken | answer | cancel | raiseError | checkCancel
  | completeRaises | publishCompleted | publishInterrupted | publishFailed => cases hended

/-- **A step of the session, of which the client is told.** -/
theorem Synced.next {missed' : ℕ} (hp : Synced missed s p) (hs : Sound ownerUserId s)
    (h : Served sessionId ownerUserId s l s' events)
    (hnone : s.active = none → missed' = 0)
    (hsome : s.active ≠ none → s'.active ≠ none → missed' = missed)
    (htold : ∀ g ∈ s.active, ∀ step, l = .run step →
      Told g (g.tokenParts.length - missed) step) : Synced missed' s' (p.receive events) := by
  cases h with
  | @start question generationId hactive hnew =>
    refine ⟨fun id hid => hp.undrawn id fun h => hid (List.mem_cons_of_mem _ h), nofun, ?_⟩
    rintro g hg
    cases hg
    exact ⟨hnone hactive, hp.undrawn generationId hnew, hp.idle hactive⟩
  | @interrupt g hactive =>
    refine ⟨hp.undrawn, nofun, ?_⟩
    rintro g' hg'
    cases hg'
    rw [hsome (by rw [hactive]; exact nofun) nofun]
    exact hp.shows g hactive
  | reject =>
    refine ⟨hp.undrawn, hp.idle, fun g hg => ?_⟩
    have hne : s.active ≠ none := fun h => by rw [h] at hg; cases hg
    rw [hsome hne hne]
    exact hp.shows g hg
  | @run step g e hactive hadvance =>
    obtain ⟨-, -, habout⟩ := advance_identity hadvance
    refine ⟨fun id hid => ?_, fun hidle => ?_, fun g' hg' => ?_⟩
    · rw [Panel.tokenSequences_receive]
      · exact hp.undrawn id hid
      · intro event he hid'
        rw [habout event he] at hid'
        cases hid'
        exact hid (hs.drawn g hactive)
    · have hended : e.generation.phase = .ended := by
        by_contra hne
        have hidle : (if e.generation.phase = .ended then none else some e.generation) = none :=
          hidle
        rw [if_neg hne] at hidle
        cases hidle
      obtain ⟨hending, rfl⟩ := eq_finish_of_ended hadvance hended
      have hshows := hp.shows g hactive
      rw [hending] at hshows
      exact hshows
    · obtain ⟨rfl, hended⟩ := mem_active_run hg'
      rw [hsome (by rw [hactive]; exact nofun) fun h => by
        rw [h] at hg'
        cases hg']
      exact (hp.shows g hactive).advance (hs.stored g hactive) hadvance hended
        (htold g hactive step rfl)

end

/-! ## What is queued of the active turn -/

/-- The tokens of the active turn that were published before the subscription. -/
def missedTokens (s : ChatSession) (queue : List ChatEvent) : ℕ :=
  (s.active.map fun g =>
    (publishedParts g).length - queuedTokens g.generationId queue).getD 0

section

variable {sessionId ownerUserId generationId : String} {s s' : ChatSession} {l : SessionLabel}
  {queue events : List ChatEvent} {messages : List ChatMessage} {g : ActiveGeneration}
  {event : ChatEvent} {parts : List String} {n k : ℕ}

theorem missedTokens_eq (hg : g ∈ s.active) :
    missedTokens s queue = (publishedParts g).length - queuedTokens g.generationId queue := by
  unfold missedTokens
  rw [Option.mem_def.1 hg]
  rfl

theorem queuedTokens_append (generationId : String) (front behind : List ChatEvent) :
    queuedTokens generationId (front ++ behind) =
      queuedTokens generationId front + queuedTokens generationId behind := by
  unfold queuedTokens
  rw [List.filter_append, List.length_append]

theorem queuedTokens_eq (h : ∀ event ∈ events, event.generationId = some generationId) :
    queuedTokens generationId events = (events.filterMap tokenText).length := by
  induction events with
  | nil => rfl
  | cons event events ih =>
    obtain ⟨hevent, hevents⟩ := List.forall_mem_cons.1 h
    have hone : queuedTokens generationId [event] = ([event].filterMap tokenText).length := by
      cases event with
      | tokenChunk g token k =>
        cases hevent
        have hof : (ChatEvent.tokenChunk generationId token k).isTokenOf generationId = true :=
          decide_eq_true rfl
        unfold queuedTokens
        rw [List.filter_cons_of_pos hof]
        rfl
      | _ => rfl
    rw [← List.singleton_append, queuedTokens_append, hone, ih hevents, List.filterMap_append,
      List.length_append]

/-- While a turn is active, a client misses no more of it. -/
theorem missedTokens_next (hs : Sound ownerUserId s)
    (h : Served sessionId ownerUserId s l s' events) (hactive : s.active ≠ none)
    (hactive' : s'.active ≠ none) :
    missedTokens s' (queue ++ events) = missedTokens s queue := by
  cases h with
  | start hnone => exact (hactive hnone).elim
  | interrupt hg =>
    unfold missedTokens
    rw [hg, List.append_nil]
    rfl
  | reject =>
    unfold missedTokens
    obtain ⟨g, hg⟩ := Option.ne_none_iff_exists'.1 hactive
    rw [hg]
    simp only [Option.map_some, Option.getD_some, queuedTokens_append]
    rfl
  | @run step g e hg hadvance =>
    have hended : e.generation.phase ≠ .ended := fun hended => hactive' (if_pos hended)
    obtain ⟨hid, -, habout⟩ := advance_identity hadvance
    unfold missedTokens
    rw [hg]
    simp only [if_neg hended, Option.map_some, Option.getD_some]
    rw [publishedParts_of_advance (hs.stored g hg) hadvance, hid, queuedTokens_append,
      queuedTokens_eq habout, List.length_append, Nat.add_sub_add_right]

theorem length_chunks (generationId : String) (n : ℕ) (parts : List String) :
    (chunks generationId n parts).length = parts.length := by
  induction parts generalizing n with
  | nil => rfl
  | cons part parts ih => exact congrArg (· + 1) (ih (n + 1))

theorem drop_chunks (generationId : String) (n k : ℕ) (parts : List String) :
    (chunks generationId n parts).drop k = chunks generationId (n + k) (parts.drop k) := by
  induction k generalizing n parts with
  | zero => rfl
  | succ k ih =>
    cases parts with
    | nil => rfl
    | cons part parts =>
      rw [chunks, List.drop_succ_cons, ih, List.drop_succ_cons]
      congr 1
      omega

theorem of_mem_chunks (h : event ∈ chunks generationId n parts) :
    ∃ token k, event = .tokenChunk generationId token k ∧ n < k ∧ k ≤ n + parts.length := by
  induction parts generalizing n with
  | nil => cases h
  | cons part parts ih =>
    rcases List.mem_cons.1 h with rfl | h
    · exact ⟨part, n + 1, rfl, Nat.lt_succ_self n, by rw [List.length_cons]; omega⟩
    · obtain ⟨token, k, he, hlt, hle⟩ := ih h
      exact ⟨token, k, he, by omega, by rw [List.length_cons]; omega⟩

theorem filter_isTokenOf_chunks (generationId : String) (n : ℕ) (parts : List String) :
    (chunks generationId n parts).filter (ChatEvent.isTokenOf generationId) =
      chunks generationId n parts := by
  refine List.filter_eq_self.2 fun event hevent => ?_
  obtain ⟨token, k, rfl, -⟩ := of_mem_chunks hevent
  exact decide_eq_true rfl

/-- **The queued tokens of the active turn** are the published ones, but for the missed ones. -/
theorem Queued.tokens (hq : Queued s queue) (hg : g ∈ s.active) :
    queue.filter (ChatEvent.isTokenOf g.generationId) =
      chunks g.generationId (missedTokens s queue)
        ((publishedParts g).drop (missedTokens s queue)) := by
  obtain ⟨opening, ends, hopening, hends, hsuffix⟩ := hq.story g hg
  have hfilter : (queue.filter (about g.generationId)).filter
      (ChatEvent.isTokenOf g.generationId) = queue.filter (ChatEvent.isTokenOf g.generationId) := by
    rw [List.filter_filter]
    refine List.filter_congr fun event _ => ?_
    cases event with
    | tokenChunk g' token k => simp [ChatEvent.isTokenOf, about, ChatEvent.generationId]
    | _ => rfl
  have hopened : opening.filter (ChatEvent.isTokenOf g.generationId) = [] := by
    refine List.filter_eq_nil_iff.2 fun event hevent => ?_
    have hopens := hopening event hevent
    cases event with
    | tokenChunk => cases hopens
    | _ => exact Bool.false_ne_true
  have hended : ends.filter (ChatEvent.isTokenOf g.generationId) = [] := by
    rcases hends with rfl | ⟨-, event, rfl, hterminal, -⟩
    · rfl
    · cases event with
      | tokenChunk => cases hterminal
      | _ => rfl
  have hsuffix := hsuffix.filter (ChatEvent.isTokenOf g.generationId)
  rw [hfilter, List.filter_append, List.filter_append, hopened, hended, filter_isTokenOf_chunks,
    List.nil_append, List.append_nil] at hsuffix
  rw [List.suffix_iff_eq_drop.1 hsuffix, drop_chunks, length_chunks, Nat.zero_add,
    missedTokens_eq hg]
  rfl

/-- The last event of a turn is queued only when the turn has published it. -/
theorem Queued.not_terminal (hq : Queued s queue) (hg : g ∈ s.active) (hphase : g.phase ≠ .ending) :
    ∀ event ∈ queue, event.terminal = true → event.generationId ≠ some g.generationId := by
  intro event hevent hterminal hid
  obtain ⟨opening, hopening, hsuffix⟩ := (hq.story g hg).not_ending hphase
  have hmem := hsuffix.subset (List.mem_filter.2 ⟨hevent, decide_eq_true hid⟩)
  rcases List.mem_append.1 hmem with hmem | hmem
  · have hopens := hopening event hmem
    cases event with
    | userMessage => cases hterminal
    | _ => cases hopens
  · rw [terminal_of_mem_chunks hmem] at hterminal
    cases hterminal

end

end Chat

end TrackFlow
