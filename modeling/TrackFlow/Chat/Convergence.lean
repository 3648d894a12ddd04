import TrackFlow.Chat.Transcript

/-!
# The client's transcript converges

A client that connects in the middle of a turn gets to the stored messages from its snapshot and
from what was queued behind it.

* `Queued.synced` : a snapshot of the messages.
* `Queued.synced_resume` : a snapshot of the messages and of the draft.
* `Coherent` : the invariant; `Coherent.next` is one step.
* `chat_transcript_converges` : **the transcript over every run that meets the condition.**
* `unstreamed_answer_not_shown` : an answer that was not streamed.
-/

namespace TrackFlow

namespace Chat

open ActiveGeneration

/-! ## Snapshots -/

section

variable {ownerUserId : String} {s : ChatSession} {queue : List ChatEvent}
  {messages snapshot front : List ChatMessage} {g : ActiveGeneration} {p : Panel} {missed : ℕ}
  {phase : Phase}

theorem shows_of_open (hopen : Open phase = true)
    (h : Follows missed (messages.map display) g p) : Shows missed messages g p phase := by
  cases phase with
  | answering | answered | completing | cancelled => exact h
  | preparing | prepared | completed | interrupted | failed | ending | ended => cases hopen

/-- Between its question and its answer, a turn is shown by the stored rows. -/
theorem shows_of_rows (hopen : Open phase = false) (hstored : StoredBy messages g phase)
    (hmissed : g.tokenParts = [] → missed = 0) (hsequence : p.tokenSequences g.generationId = 0)
    (hrows : p.rows = messages.map display) : Shows missed messages g p phase := by
  cases phase with
  | preparing => exact ⟨hmissed hstored, hsequence, hrows⟩
  | prepared => exact ⟨hmissed hstored.1, hsequence, .inl hrows⟩
  | completed => exact .inl hrows
  | interrupted messageId =>
    cases messageId with
    | none => exact hrows
    | some messageId => exact .inl hrows
  | failed | ending => exact hrows
  | ended => exact hstored.elim
  | answering | answered | completing | cancelled => cases hopen

theorem take_publishedParts (g : ActiveGeneration) :
    g.tokenParts.take (publishedParts g).length = publishedParts g := by
  unfold publishedParts
  split
  · rw [List.length_dropLast, List.dropLast_eq_take]
  · exact List.take_length

theorem length_publishedParts_le (g : ActiveGeneration) :
    (publishedParts g).length ≤ g.tokenParts.length := by
  rw [← take_publishedParts, List.length_take]
  exact min_le_right _ _

/-- **A snapshot of the messages.**  When the queue holds tokens of the active turn only, and its
answer is not stored yet, the queue continues the stored rows. -/
theorem Queued.synced (hq : Queued s queue) (hs : Sound ownerUserId s)
    (hcurrent : Current s.active queue) :
    Synced (missedTokens s queue) s ((Panel.empty.showSnapshot s.messages none).receive queue) := by
  have hrows : (Panel.empty.showSnapshot s.messages none).rows = s.messages.map display :=
    (Panel.showSnapshot_rows Panel.noPending_empty ..).trans (List.append_nil _)
  have hsequences : ∀ id, (Panel.empty.showSnapshot s.messages none).tokenSequences id = 0 :=
    fun _ => rfl
  generalize Panel.empty.showSnapshot s.messages none = p at hrows hsequences ⊢
  have hstored : Panel.Stored (s.messages.map display) := Panel.stored_map_display s.messages
  have husers : ∀ g m, .userMessage g m ∈ queue → display m ∈ s.messages.map display :=
    fun g m hm => List.mem_map_of_mem (hq.users g m hm).1
  by_cases htokens : ∀ e ∈ queue, e.isToken = false
  · obtain ⟨hrows', hsequences'⟩ := Panel.receive_quiet (p := p) (by rw [hrows]; exact hstored)
      htokens (by rw [hrows]; exact husers)
    refine ⟨fun id _ => hsequences' id (hsequences id), fun _ => hrows'.trans hrows, ?_⟩
    intro g hg
    have hnone : queue.filter (ChatEvent.isTokenOf g.generationId) = [] := by
      refine List.filter_eq_nil_iff.2 fun e he hof => ?_
      have := htokens e he
      cases e with
      | tokenChunk => cases this
      | _ => cases hof
    have hall : (publishedParts g).length = missedTokens s queue := by
      rw [missedTokens_eq hg, queuedTokens, hnone]
      rfl
    by_cases hopen : Open g.phase = true
    · refine shows_of_open hopen ⟨(publishedParts g).length, hall.ge, le_rfl,
        length_publishedParts_le g, ?_, ?_⟩
      · rw [if_pos hall]
        exact hsequences' _ (hsequences _)
      · rw [take_publishedParts, List.drop_eq_nil_of_le hall.le, hrows', hrows]
        exact (List.append_nil _).symm
    · refine shows_of_rows (by simpa using hopen) (hs.stored g hg) (fun hnil => ?_)
        (hsequences' _ (hsequences _)) (hrows'.trans hrows)
      have hle := length_publishedParts_le g
      rw [hnil, List.length_nil] at hle
      rw [missedTokens_eq hg]
      omega
  · -- a token is queued, so the turn is open
    obtain ⟨e, he⟩ := not_forall.1 htokens
    obtain ⟨he, htoken⟩ := Classical.not_imp.1 he
    obtain ⟨g, hg, -, hopen⟩ := hcurrent e he (by simpa using htoken)
    have hactive : s.active = some g := hg
    have hphase : g.phase ≠ .ending := by
      intro hending
      rw [hending] at hopen
      cases hopen
    have hdraft : p.rows = s.messages.map display ++ Panel.draftOf g.generationId [] :=
      hrows.trans (List.append_nil _).symm
    obtain ⟨hrows', hsequence, hothers⟩ := Panel.receive_replay hstored hdraft
      (hsequences g.generationId) husers
      (fun e he htoken => by
        obtain ⟨g', hg', hof, -⟩ := hcurrent e he htoken
        cases Option.mem_unique hg hg'
        exact hof)
      (hq.not_terminal hg hphase) (hq.tokens hg)
    rw [List.nil_append] at hrows' hsequence
    refine ⟨fun id hid => hothers id (fun hid' => hid (hid' ▸ hs.drawn g hg)) (hsequences id),
      fun hnone => (Option.some_ne_none g (hactive.symm.trans hnone)).elim, ?_⟩
    intro g' hg'
    cases Option.mem_unique hg hg'
    have hle : missedTokens s queue ≤ (publishedParts g).length := by
      rw [missedTokens_eq hg]
      exact Nat.sub_le ..
    refine shows_of_open hopen ⟨(publishedParts g).length, hle, le_rfl,
      length_publishedParts_le g, ?_, ?_⟩
    · rw [hsequence, List.length_drop]
      by_cases hall : (publishedParts g).length = missedTokens s queue
      · rw [if_pos hall, if_pos (List.drop_eq_nil_of_le hall.le)]
      · rw [if_neg hall, if_neg (fun hnil => hall (by
          have := List.drop_eq_nil_iff.1 hnil
          omega))]
        omega
    · rw [take_publishedParts]
      exact hrows'

/-! ## Snapshots with a draft -/

/-- The messages that were read hold every stored question. -/
theorem Asked.mem {m : ChatMessage} (h : Asked snapshot messages) (hstarts : snapshot <+: messages)
    (hm : m ∈ messages) (hrole : m.role = .user) : m ∈ snapshot := by
  obtain ⟨since, rfl⟩ := hstarts
  rcases List.mem_append.1 hm with hm | hm
  · exact hm
  · exact (h.2 m (by rwa [List.drop_left]) hrole).elim

/-- No answer has been stored since the messages were read. -/
theorem Asked.eq (h : Asked snapshot messages) (hstarts : snapshot <+: messages)
    (hquestion : EndsWithQuestion messages) : snapshot = messages := by
  obtain ⟨since, rfl⟩ := hstarts
  obtain ⟨m, hm, hrole⟩ := hquestion
  cases since using List.reverseRecOn with
  | nil => exact (List.append_nil snapshot).symm
  | append_singleton since m' =>
    rw [← List.append_assoc, List.getLast?_concat] at hm
    cases hm
    exact (h.2 m (by rw [List.drop_left]; exact List.mem_append_right _ List.mem_cons_self)
      hrole).elim

/-- The answer has been stored since the messages were read. -/
theorem Asked.eq_front {m : ChatMessage} (h : Asked snapshot (front ++ [m]))
    (hstarts : snapshot <+: front ++ [m]) (hrole : m.role ≠ .user)
    (hquestion : EndsWithQuestion front) : snapshot = front := by
  rcases List.prefix_concat_iff.1 hstarts with rfl | hstarts
  · obtain ⟨m', hm', hrole'⟩ := h.1
    rw [List.getLast?_concat] at hm'
    cases hm'
    exact (hrole hrole').elim
  · refine Asked.eq ⟨h.1, fun m' hm' => h.2 m' ?_⟩ hstarts hquestion
    rw [List.drop_append_of_le_length hstarts.length_le]
    exact List.mem_append_left _ hm'

/-- A stored answer stands behind the messages that were read. -/
theorem Asked.answer {messageId content : String} {interrupted : Bool}
    (h : Asked snapshot messages) (hstarts : snapshot <+: messages)
    (hanswer : EndsWithAnswer messages (answerRow messageId content interrupted)) :
    snapshot.map display ++ [answerRow messageId content interrupted] = messages.map display := by
  obtain ⟨front, m, rfl, hrow, hquestion⟩ := hanswer
  have hrole : m.role ≠ .user := by
    have hassistant : m.role = .assistant := congrArg DisplayMessage.role hrow
    rw [hassistant]
    exact nofun
  rw [h.eq_front hstarts hrole hquestion, List.map_append, List.map_singleton, hrow]

theorem join_ne_empty {parts : List String} (hne : parts ≠ []) (hparts : "" ∉ parts) :
    String.join parts ≠ "" := by
  cases parts using List.reverseRecOn with
  | nil => exact (hne rfl).elim
  | append_singleton parts part =>
    rw [Panel.join_concat]
    intro hnil
    have hpart : part = "" := (String.append_eq_empty_iff.1 hnil).2
    exact hparts (hpart ▸ List.mem_append_right _ List.mem_cons_self)

/-- The report of a stored answer in the queue. -/
theorem Queued.report (hq : Queued s queue) (hg : g ∈ s.active)
    (hreported : ∃ event ∈ queue, event.reports g.generationId = true) :
    ∃ before event behind, queue = before ++ event :: behind ∧
      event.reports g.generationId = true ∧ Recorded s.messages g event ∧
      (∀ e ∈ before, e.terminal = true → e.generationId ≠ some g.generationId) ∧
      ∀ e ∈ behind, e.generationId ≠ some g.generationId := by
  obtain ⟨event, hevent, hreports⟩ := hreported
  have hterminal : event.terminal = true ∧ event.generationId = some g.generationId := by
    cases event with
    | generationCompleted => exact ⟨rfl, congrArg some (of_decide_eq_true hreports)⟩
    | generationInterrupted _ messageId =>
      cases messageId with
      | none => cases hreports
      | some => exact ⟨rfl, congrArg some (of_decide_eq_true hreports)⟩
    | userMessage | tokenChunk | generationFailed => cases hreports
  obtain ⟨opening, ends, hopening, hends, hsuffix⟩ := hq.story g hg
  have hquiet : ∀ e ∈ opening ++ chunks g.generationId 0 (publishedParts g),
      e.terminal = false := by
    intro e he
    rcases List.mem_append.1 he with he | he
    · have hopens := hopening e he
      cases e with
      | userMessage => rfl
      | _ => cases hopens
    · exact terminal_of_mem_chunks he
  have hin : event ∈ queue.filter (about g.generationId) :=
    List.mem_filter.2 ⟨hevent, decide_eq_true hterminal.2⟩
  have hmem := hsuffix.subset hin
  rcases hends with rfl | ⟨-, last, rfl, -, hrecorded⟩
  · rw [List.append_nil] at hmem
    rw [hquiet event hmem] at hterminal
    cases hterminal.1
  · have hlast : event = last := by
      rcases List.mem_append.1 hmem with hmem | hmem
      · rw [hquiet event hmem] at hterminal
        cases hterminal.1
      · exact List.mem_singleton.1 hmem
    subst hlast
    -- the queued events of the generation end with its report
    rcases List.suffix_concat_iff.1 hsuffix with hnil | ⟨story, hstory, hcontinues⟩
    · rw [hnil] at hin
      cases hin
    obtain ⟨before, rest, rfl, hbefore, hrest⟩ := List.filter_eq_append_iff.1 hstory
    obtain ⟨more, behind, rfl, hmore, -, hbehind⟩ := List.filter_eq_cons_iff.1 hrest
    refine ⟨before ++ more, event, behind, (List.append_assoc ..).symm, hreports, hrecorded, ?_, ?_⟩
    · intro e he hend hid
      rcases List.mem_append.1 he with he | he
      · have hin : e ∈ story := hbefore ▸ List.mem_filter.2 ⟨he, decide_eq_true hid⟩
        rw [hquiet e (hcontinues.subset hin)] at hend
        cases hend
      · exact hmore e he (decide_eq_true hid)
    · intro e he hid
      exact List.filter_eq_nil_iff.1 hbehind e he (decide_eq_true hid)

/-- The question of an open turn is the last message. -/
theorem StoredBy.question (hopen : Open phase = true) (h : StoredBy messages g phase) :
    EndsWithQuestion messages := by
  cases phase with
  | answering pending =>
    cases pending with
    | none => exact h
    | some => exact h.1
  | answered | completing | cancelled => exact h
  | preparing | prepared | completed | interrupted | failed | ending | ended => cases hopen

/-- The draft holds every token of the turn. -/
theorem shows_of_draft (hasked : Asked snapshot messages) (hstarts : snapshot <+: messages)
    (hparts : g.tokenParts ≠ []) (hstored : StoredBy messages g g.phase)
    (hreported : Reported g queue) (hphase : g.phase ≠ .ending)
    (hrows : p.rows = snapshot.map display ++ [draft g.generationId g.partialAnswer])
    (hsequence : p.tokenSequences g.generationId = g.tokenParts.length) :
    Shows 0 messages g p g.phase := by
  have hlength : g.tokenParts.length ≠ 0 := by simpa using hparts
  by_cases hopen : Open g.phase = true
  · refine shows_of_open hopen ⟨g.tokenParts.length, Nat.zero_le _, length_publishedParts_le g,
      le_rfl, ?_, ?_⟩
    · rw [if_neg hlength]
      exact hsequence
    · rw [hrows, hasked.eq hstarts (hstored.question hopen), List.take_length]
      exact congrArg (_ ++ ·) (if_neg hparts).symm
  · unfold Reported at hreported
    cases hat : g.phase with
    | completed messageId route answer =>
      rw [hat] at hstored
      exact .inr ⟨_, _, hrows, hasked.answer hstarts hstored.2⟩
    | interrupted messageId =>
      rw [hat] at hstored hreported
      cases messageId with
      | none => exact (hreported rfl).elim
      | some messageId => exact .inr ⟨_, hrows, hasked.answer hstarts hstored⟩
    | preparing | prepared | failed =>
      rw [hat] at hreported
      cases hreported
    | ending => exact (hphase hat).elim
    | ended =>
      rw [hat] at hstored
      exact hstored.elim
    | answering | answered | completing | cancelled =>
      rw [hat] at hopen
      exact (hopen rfl).elim

/-- A report turns the draft of the snapshot into the stored answer. -/
theorem report_rows {event : ChatEvent} (hasked : Asked snapshot messages)
    (hstarts : snapshot <+: messages) (hreports : event.reports g.generationId = true)
    (hrecorded : Recorded messages g event)
    (hrows : p.rows = snapshot.map display ++ [draft g.generationId g.partialAnswer]) :
    (p.handleSocketEvent (.published event)).rows = messages.map display ∧
      ∀ id, p.tokenSequences id = 0 →
        (p.handleSocketEvent (.published event)).tokenSequences id = 0 := by
  have hupdate : ∀ g id : String, p.tokenSequences id = 0 →
      Function.update p.tokenSequences g 0 id = 0 := by
    intro g id hid
    by_cases hg : id = g
    · subst hg
      exact Function.update_self ..
    · exact (Function.update_of_ne hg ..).trans hid
  cases event with
  | generationCompleted generationId messageId route answer =>
    cases of_decide_eq_true hreports
    refine ⟨changeDraft_eq hrows (hasked.answer hstarts hrecorded.2) ?_, hupdate _⟩
    unfold Panel.complete
    rw [if_neg hrecorded.1]
    rfl
  | generationInterrupted generationId messageId =>
    cases messageId with
    | none => cases hreports
    | some messageId =>
      cases of_decide_eq_true hreports
      exact ⟨changeDraft_eq hrows (hasked.answer hstarts hrecorded) rfl, hupdate _⟩
  | userMessage | tokenChunk | generationFailed => cases hreports

/-- **A snapshot in the middle of a turn.**  The draft holds the tokens that are queued already,
and the report of the answer, if it is queued, turns it into the stored row. -/
theorem Queued.synced_resume (hq : Queued s queue) (hs : Sound ownerUserId s) (hg : g ∈ s.active)
    (hparts : g.tokenParts ≠ []) (hstarts : snapshot <+: s.messages)
    (hresumes : Resumes g snapshot s.messages queue) :
    Synced 0 s ((Panel.empty.showSnapshot snapshot
      (some ⟨g.generationId, g.partialAnswer, g.tokenSequence⟩)).receive queue) := by
  obtain ⟨hforeign, hasked, hreported⟩ := hresumes
  have hactive : s.active = some g := hg
  have hrows : (Panel.empty.showSnapshot snapshot
      (some ⟨g.generationId, g.partialAnswer, g.tokenSequence⟩)).rows =
      snapshot.map display ++ [draft g.generationId g.partialAnswer] := by
    rw [Panel.showSnapshot_rows Panel.noPending_empty]
    exact congrArg (_ ++ ·) (if_neg (join_ne_empty hparts (hs.nonempty g hg)))
  have hsequence := (Panel.empty.showSnapshot_sequence snapshot
    ⟨g.generationId, g.partialAnswer, g.tokenSequence⟩).trans (hs.sequence g hg)
  have hothers := fun id => Panel.showSnapshot_sequence_of_ne (g := id) .empty snapshot
    ⟨g.generationId, g.partialAnswer, g.tokenSequence⟩
  generalize Panel.empty.showSnapshot snapshot
    (some ⟨g.generationId, g.partialAnswer, g.tokenSequence⟩) = p at hrows hsequence hothers ⊢
  have husers : ∀ g' m, .userMessage g' m ∈ queue → display m ∈ snapshot.map display := by
    intro g' m hm
    obtain ⟨hmem, hrole⟩ := hq.users g' m hm
    exact List.mem_map_of_mem (hasked.mem hstarts hmem hrole)
  have htokens : ∀ e ∈ queue, ∀ k, e.tokenSequence = some k →
      e.generationId = some g.generationId ∧ k ≠ 0 ∧ k ≤ p.tokenSequences g.generationId := by
    intro e he k hk
    cases e with
    | tokenChunk g' token k' =>
      cases hk
      have hmem := List.mem_filter.2 ⟨he, hforeign _ he rfl⟩
      rw [hq.tokens hg] at hmem
      obtain ⟨token, k, heq, hlt, hle⟩ := of_mem_chunks hmem
      cases heq
      have hpublished := length_publishedParts_le g
      rw [List.length_drop] at hle
      exact ⟨rfl, by omega, by rw [hsequence]; omega⟩
    | _ => cases hk
  have hstored : Panel.Stored (snapshot.map display) := Panel.stored_map_display snapshot
  have hundrawn : ∀ id, id ∉ s.drawn → id ≠ g.generationId :=
    fun id hid he => hid (he ▸ hs.drawn g hg)
  by_cases hphase : g.phase = .ending
  · -- the report of the answer is queued
    have hqueued : ∃ event ∈ queue, event.reports g.generationId = true := by
      unfold Reported at hreported
      rw [hphase] at hreported
      exact hreported
    obtain ⟨before, event, behind, rfl, hreports, hrecorded, hbefore, hbehind⟩ :=
      hq.report hg hqueued
    obtain ⟨hrows₁, -, hothers₁⟩ := Panel.receive_repeat hstored hrows
      (fun g' m hm => husers g' m (List.mem_append_left _ hm))
      (fun e he => htokens e (List.mem_append_left _ he)) hbefore
    obtain ⟨hrows₂, hothers₂⟩ := report_rows hasked hstarts hreports hrecorded
      (hrows₁.trans hrows)
    have hquiet : ∀ e ∈ behind, e.isToken = false := by
      intro e he
      cases e with
      | tokenChunk g' token k =>
        have hmem := List.mem_append_right before (List.mem_cons_of_mem event he)
        exact (hbehind _ he (htokens _ hmem k rfl).1).elim
      | _ => rfl
    obtain ⟨hrows₃, hothers₃⟩ := Panel.receive_quiet
      (p := (p.receive before).handleSocketEvent (.published event))
      (by rw [hrows₂]; exact Panel.stored_map_display s.messages) hquiet (fun g' m hm => by
        rw [hrows₂]
        exact List.mem_map_of_mem
          (hq.users g' m (List.mem_append_right _ (List.mem_cons_of_mem _ hm))).1)
    rw [Panel.receive_append, Panel.receive_cons]
    refine ⟨fun id hid => hothers₃ id (hothers₂ id (hothers₁ id (hothers id (hundrawn id hid)))),
      fun hnone => (Option.some_ne_none g (hactive.symm.trans hnone)).elim, ?_⟩
    intro g' hg'
    cases Option.mem_unique hg hg'
    rw [hphase]
    exact hrows₃.trans hrows₂
  · obtain ⟨hrows', hsequence', hothers'⟩ := Panel.receive_repeat hstored hrows husers htokens
      (hq.not_terminal hg hphase)
    refine ⟨fun id hid => hothers' id (hothers id (hundrawn id hid)),
      fun hnone => (Option.some_ne_none g (hactive.symm.trans hnone)).elim, ?_⟩
    intro g' hg'
    cases Option.mem_unique hg hg'
    exact shows_of_draft hasked hstarts hparts (hs.stored g hg) hreported hphase
      (hrows'.trans hrows) (hsequence'.trans hsequence)

end

/-! ## The connection -/

/-- What the socket of a client holds of the session. -/
def Linked (s : ChatSession) (p : Panel) : Connection → Prop
  | .offline => True
  | .subscribed queue => Queued s queue
  | .read messages queue lost => Queued s queue ∧ messages <+: s.messages ∧
      (lost = false →
        Synced (missedTokens s queue) s ((Panel.empty.showSnapshot messages none).receive queue))
  | .refreshing queue => Queued s queue ∧ missedTokens s queue = 0
  | .connected frames => Synced 0 s (p.handleAll frames)

/-- What every state of a run satisfies. -/
structure Coherent (ownerUserId : String) (s : ChatState) : Prop where
  sound : Sound ownerUserId s.toChatSession
  settled : Panel.NoPending s.panel.rows
  linked : s.messages.length ≤ snapshotLimit → Linked s.toChatSession s.panel s.connection

/-- The steps of `chat`, one constructor for each branch. -/
inductive Stepped (sessionId ownerUserId : String) (s : ChatState) : ChatLabel → ChatState → Prop
  | server {l : SessionLabel} {session : ChatSession} {events : List ChatEvent}
      (served : Served sessionId ownerUserId s.toChatSession l session events) :
      Stepped sessionId ownerUserId s (.server l)
        { s with
          toChatSession := session
          connection := (s.connection.observe s.active l).publish events }
  | subscribe (connection : s.connection = .offline) :
      Stepped sessionId ownerUserId s .subscribe { s with connection := .subscribed [] }
  | readMessages {queue : List ChatEvent} (connection : s.connection = .subscribed queue) :
      Stepped sessionId ownerUserId s .readMessages
        { s with
          connection :=
            .read (sessionSnapshot s.messages) queue (!decide (Current s.active queue)) }
  | readNothing {messages : List ChatMessage} {queue : List ChatEvent} {lost : Bool}
      (connection : s.connection = .read messages queue lost)
      (snapshot : activeSnapshot ownerUserId s.active = none) :
      Stepped sessionId ownerUserId s .readActive { s with connection := .refreshing queue }
  | readActive {messages : List ChatMessage} {queue : List ChatEvent} {lost : Bool}
      {active : ActiveSnapshot} (connection : s.connection = .read messages queue lost)
      (snapshot : activeSnapshot ownerUserId s.active = some active) :
      Stepped sessionId ownerUserId s .readActive
        { s with
          connection :=
            .connected (.sessionSnapshot messages (some active) :: queue.map .published) }
  | readAgain {queue : List ChatEvent} (connection : s.connection = .refreshing queue) :
      Stepped sessionId ownerUserId s .readAgain
        { s with
          connection := .connected
            (.sessionSnapshot (sessionSnapshot s.messages) none :: queue.map .published) }
  | handle {frame : ChatSocketEvent} {frames : List ChatSocketEvent}
      (connection : s.connection = .connected (frame :: frames)) :
      Stepped sessionId ownerUserId s .handle
        { s with
          connection := .connected frames
          panel := s.panel.handleSocketEvent frame }
  | disconnect : Stepped sessionId ownerUserId s .disconnect { s with connection := .offline }

section

variable {sessionId ownerUserId : String} {s s' : ChatSession} {t t' : ChatState}
  {l : SessionLabel} {label : ChatLabel} {events queue : List ChatEvent} {c : Connection}
  {p : Panel} {g : ActiveGeneration} {messages : List ChatMessage} {e : Effect} {step : RunStep}

theorem Stepped.of_next (h : (chat sessionId ownerUserId).next t label = some t') :
    Stepped sessionId ownerUserId t label t' := by
  cases label with
  | server l =>
    obtain ⟨⟨session, events⟩, hserve, h⟩ := Option.bind_eq_some_iff.1 h
    cases h
    exact .server (.of_serve hserve)
  | subscribe =>
    simp only [chat] at h
    split at h
    · next hconnection => cases h; exact .subscribe hconnection
    · cases h
  | readMessages =>
    simp only [chat] at h
    split at h
    · next hconnection => cases h; exact .readMessages hconnection
    · cases h
  | readActive =>
    simp only [chat] at h
    split at h
    · next hconnection =>
      split at h
      · next hsnapshot => cases h; exact .readNothing hconnection hsnapshot
      · next hsnapshot => cases h; exact .readActive hconnection hsnapshot
    · cases h
  | readAgain =>
    simp only [chat] at h
    split at h
    · next hconnection => cases h; exact .readAgain hconnection
    · cases h
  | handle =>
    simp only [chat] at h
    split at h
    · next hconnection => cases h; exact .handle hconnection
    · cases h
  | disconnect =>
    simp only [chat] at h
    split at h
    · cases h
    · cases h
      exact .disconnect

/-- A subscription starts with an empty queue. -/
theorem Queued.nil (s : ChatSession) : Queued s [] :=
  ⟨nofun, nofun, fun _ _ => ⟨[], [], nofun, .inl rfl, List.nil_suffix⟩⟩

theorem missedTokens_of_none (h : s.active = none) : missedTokens s queue = 0 := by
  unfold missedTokens
  rw [h]
  rfl

/-- A client that has missed no token misses none of the next turn. -/
theorem missedTokens_zero (hs : Sound ownerUserId s)
    (h : Served sessionId ownerUserId s l s' events) (hzero : missedTokens s queue = 0) :
    missedTokens s' (queue ++ events) = 0 := by
  by_cases hactive' : s'.active = none
  · exact missedTokens_of_none hactive'
  by_cases hactive : s.active = none
  · cases h with
    | start => exact Nat.zero_sub _
    | interrupt hg | run hg => exact (Option.some_ne_none _ (hg.symm.trans hactive)).elim
    | reject => exact (hactive' hactive).elim
  · exact (missedTokens_next hs h hactive hactive').trans hzero

/-- While a token is recorded and not published, the task can only publish it. -/
theorem told_of_holdsToken (h : g.advance messages step = some e)
    (hholds : holdsToken g.phase = true) (tokens : ℕ) : Told g tokens step := by
  cases Advanced.of_advance h with
  | publishUser | token | publishToken | answer | checkCancel | publishCompleted
  | publishInterrupted | publishFailed | finish => trivial
  | cancel hphase =>
    rcases hphase with hphase | ⟨result, hphase⟩ <;>
    · rw [hphase] at hholds
      cases hholds
  | prepareTurn hphase | raiseError hphase | completeRaises hphase | complete hphase
  | interruptBlank hphase | interrupt hphase =>
    rw [hphase] at hholds
    cases hholds

/-- The queued tokens and the missed ones are the tokens of the turn. -/
theorem Queued.told (hq : Queued s queue) (hg : g ∈ s.active)
    (h : g.advance s.messages step = some e)
    (htold : Told g (queuedTokens g.generationId queue) step) :
    Told g (g.tokenParts.length - missedTokens s queue) step := by
  by_cases hholds : holdsToken g.phase = true
  · exact told_of_holdsToken h hholds _
  · have hparts := publishedParts_eq (by simpa using hholds)
    have hqueued : queuedTokens g.generationId queue =
        (publishedParts g).length - missedTokens s queue := by
      rw [queuedTokens, hq.tokens hg, length_chunks, List.length_drop]
    rwa [hqueued, hparts] at htold

/-- **A step of the session, and the socket.** -/
theorem Linked.served (hl : Linked s p c) (hs : Sound ownerUserId s)
    (h : Served sessionId ownerUserId s l s' events)
    (htold : ∀ frames, c = .connected frames → ∀ g ∈ s.active, ∀ step, l = .run step →
      Told g g.tokenParts.length step) : Linked s' p ((c.observe s.active l).publish events) := by
  cases c with
  | offline => trivial
  | subscribed queue => exact Queued.next hl hs h
  | refreshing queue => exact ⟨hl.1.next hs h, missedTokens_zero hs h hl.2⟩
  | connected frames =>
    show Synced 0 s' (p.handleAll (frames ++ events.map .published))
    unfold Panel.handleAll
    rw [List.foldl_append]
    exact Synced.next hl hs h (fun _ => rfl) (fun _ _ => rfl) (htold frames rfl)
  | read messages queue lost =>
    obtain ⟨hq, hstarts, hsynced⟩ := hl
    have hnext : ∀ lost' : Bool, (lost' = false → lost = false ∧
        ∀ g ∈ s.active, ∀ step, l = .run step →
          Told g (queuedTokens g.generationId queue) step) →
        Linked s' p (.read messages (queue ++ events) lost') := by
      intro lost' hlost
      refine ⟨hq.next hs h, hstarts.trans h.prefix_messages, fun hfalse => ?_⟩
      obtain ⟨hfalse, htold⟩ := hlost hfalse
      rw [Panel.receive_append]
      refine (hsynced hfalse).next hs h (fun hnone => missedTokens_zero hs h
        (missedTokens_of_none hnone)) (missedTokens_next hs h) ?_
      rintro g hg step rfl
      cases h with
      | run hactive hadvance =>
        cases Option.mem_unique hg hactive
        exact hq.told hg hadvance (htold g hg step rfl)
    cases hactive : s.active with
    | none => exact hnext lost fun hfalse => ⟨hfalse, fun g hg => by rw [hactive] at hg; cases hg⟩
    | some g =>
      cases l with
      | start | interrupt | reject =>
        exact hnext lost fun hfalse => ⟨hfalse, fun _ _ _ hl => nomatch hl⟩
      | run step =>
        refine hnext _ fun hfalse => ?_
        obtain ⟨hfalse, htold⟩ := Bool.or_eq_false_iff.1 hfalse
        refine ⟨hfalse, fun g' hg' step' hstep => ?_⟩
        cases hstep
        cases Option.mem_unique hg' hactive
        simpa using htold

/-- A snapshot shows what the panel has added itself only where the panel shows it. -/
theorem showSnapshot_eq (h : Panel.NoPending p.rows) (messages : List ChatMessage)
    (active : Option ActiveSnapshot) :
    p.showSnapshot messages active = Panel.empty.showSnapshot messages active := by
  have hrows := (Panel.showSnapshot_rows h messages active).trans
    (Panel.showSnapshot_rows Panel.noPending_empty messages active).symm
  exact congrArg₂ Panel.mk hrows rfl

/-- The snapshot of a turn without tokens. -/
theorem showSnapshot_of_no_parts (p : Panel) (messages : List ChatMessage) (generationId : String) :
    p.showSnapshot messages (some ⟨generationId, "", 0⟩) = p.showSnapshot messages none := by
  have hsequences : (p.showSnapshot messages (some ⟨generationId, "", 0⟩)).tokenSequences =
      (p.showSnapshot messages none).tokenSequences := by
    funext id
    by_cases hid : id = generationId
    · subst hid
      exact p.showSnapshot_sequence messages ⟨id, "", 0⟩
    · exact p.showSnapshot_sequence_of_ne messages ⟨generationId, "", 0⟩ hid
  exact congrArg₂ Panel.mk rfl hsequences

theorem sessionSnapshot_eq (h : messages.length ≤ snapshotLimit) :
    sessionSnapshot messages = messages := List.take_of_length_le h

/-- The active generation is always the session owner's. -/
theorem activeSnapshot_eq (hs : Sound ownerUserId s) :
    activeSnapshot ownerUserId s.active =
      s.active.map fun g => ⟨g.generationId, g.partialAnswer, g.tokenSequence⟩ := by
  unfold activeSnapshot
  cases hactive : s.active with
  | none => rfl
  | some g => simp [Option.filter, hs.owner g hactive]

/-- **One step of the session or of its client.** -/
theorem Coherent.next (ht : Coherent ownerUserId t) (hc : Converges t label)
    (h : (chat sessionId ownerUserId).next t label = some t') : Coherent ownerUserId t' := by
  obtain ⟨hs, hsettled, hlinked⟩ := ht
  cases Stepped.of_next h with
  | @server l session events served =>
    refine ⟨hs.next served, hsettled, fun hlimit => ?_⟩
    refine (hlinked (served.prefix_messages.length_le.trans hlimit)).served hs served ?_
    rintro frames hframes g hg step rfl
    unfold Converges at hc
    simp only [hframes] at hc
    exact hc g hg
  | subscribe => exact ⟨hs, hsettled, fun _ => Queued.nil _⟩
  | @readMessages queue hconnection =>
    rw [hconnection] at hlinked
    refine ⟨hs, hsettled, fun hlimit => ⟨hlinked hlimit, List.take_prefix .., fun hfalse => ?_⟩⟩
    have hcurrent : Current t.active queue := by simpa using hfalse
    rw [sessionSnapshot_eq hlimit]
    exact Queued.synced (hlinked hlimit) hs hcurrent
  | readNothing hconnection hsnapshot =>
    rw [hconnection] at hlinked
    rw [activeSnapshot_eq hs] at hsnapshot
    exact ⟨hs, hsettled, fun hlimit =>
      ⟨(hlinked hlimit).1, missedTokens_of_none (Option.map_eq_none_iff.1 hsnapshot)⟩⟩
  | @readActive messages queue lost active hconnection hsnapshot =>
    rw [hconnection] at hlinked
    rw [activeSnapshot_eq hs] at hsnapshot
    obtain ⟨g, hg, rfl⟩ := Option.map_eq_some_iff.1 hsnapshot
    refine ⟨hs, hsettled, fun hlimit => ?_⟩
    obtain ⟨hq, hstarts, hsynced⟩ := hlinked hlimit
    unfold Converges at hc
    simp only [hconnection] at hc
    replace hc := hc g hg
    show Synced 0 t.toChatSession ((t.panel.showSnapshot messages _).receive queue)
    rw [showSnapshot_eq hsettled]
    by_cases hparts : g.tokenParts = []
    · -- the turn has no tokens, so the draft of the snapshot is empty
      rw [if_pos hparts] at hc
      have hmissed : missedTokens t.toChatSession queue = 0 := by
        have hle := length_publishedParts_le g
        rw [hparts, List.length_nil] at hle
        rw [missedTokens_eq hg]
        omega
      have hanswer : g.partialAnswer = "" := by
        unfold partialAnswer
        rw [hparts]
        rfl
      have hsequence : g.tokenSequence = 0 := by rw [hs.sequence g hg, hparts, List.length_nil]
      rw [hanswer, hsequence, showSnapshot_of_no_parts, ← hmissed]
      exact hsynced hc
    · rw [if_neg hparts] at hc
      exact hq.synced_resume hs hg hparts hstarts hc
  | @readAgain queue hconnection =>
    rw [hconnection] at hlinked
    refine ⟨hs, hsettled, fun hlimit => ?_⟩
    obtain ⟨hq, hmissed⟩ := hlinked hlimit
    unfold Converges at hc
    simp only [hconnection] at hc
    show Synced 0 t.toChatSession ((t.panel.showSnapshot (sessionSnapshot t.messages) none).receive
      queue)
    rw [showSnapshot_eq hsettled, sessionSnapshot_eq hlimit, ← hmissed]
    exact hq.synced hs hc
  | @handle frame frames hconnection =>
    rw [hconnection] at hlinked
    exact ⟨hs, hsettled.handleSocketEvent frame, hlinked⟩
  | disconnect => exact ⟨hs, hsettled, fun _ => trivial⟩

/-- The initial state of a session whose rows are in order. -/
theorem Coherent.initial (hordered : messages.Pairwise fun m m' => m.sequence < m'.sequence)
    (hdistinct : (messages.map ChatMessage.messageId).Nodup) :
    Coherent ownerUserId (.initial messages) :=
  ⟨⟨hordered, hdistinct, nofun, nofun, nofun, nofun, nofun⟩, Panel.noPending_empty,
    fun _ => trivial⟩

/-- **The client's transcript converges.**  In every run whose steps meet the condition, once the
client has handled every frame and no generation is active, its rows are the stored messages of
the session, each once, with their content, in the order of their sequence. -/
theorem chat_transcript_converges
    (hordered : messages.Pairwise fun m m' => m.sequence < m'.sequence)
    (hdistinct : (messages.map ChatMessage.messageId).Nodup)
    (h : (chat sessionId ownerUserId).Run Converges (.initial messages) t)
    (hlimit : t.messages.length ≤ snapshotLimit) (hhandled : t.connection = .connected [])
    (hidle : t.active = none) :
    t.panel.rows = t.messages.map display ∧ (t.panel.rows.map DisplayMessage.id).Nodup ∧
      t.messages.Pairwise fun m m' => m.sequence < m'.sequence := by
  have ht : Coherent ownerUserId t := h.invariant (Coherent ownerUserId)
    (.initial hordered hdistinct) fun _ _ _ ht hc hnext => ht.next hc hnext
  have hlinked := ht.linked hlimit
  rw [hhandled] at hlinked
  have hrows : t.panel.rows = t.messages.map display := Synced.idle hlinked hidle
  refine ⟨hrows, ?_, ht.sound.ordered⟩
  have hids : t.panel.rows.map DisplayMessage.id =
      (t.messages.map ChatMessage.messageId).map RowId.message := by
    rw [hrows, List.map_map, List.map_map]
    rfl
  rw [hids]
  exact ht.sound.distinct.map fun _ _ hid => RowId.message.inj hid

end

/-! ## Concrete runs -/

/-- A question, stored and published. -/
def asked : List ChatLabel :=
  [.server (.start "Where is it?" "g"), .server (.run (.prepareTurn .returns "m1")),
    .server (.run .publish)]

/-- The answer is returned, stored and published. -/
def answered (answer : String) : List ChatLabel :=
  [.server (.run (.answer ⟨some answer, "general"⟩)), .server (.run .checkCancel),
    .server (.run (.completeTurn .returns "m2")), .server (.run .publish), .server (.run .finish)]

/-- A client that connects between the tokens of an answer. -/
theorem chat_transcript_converges_midstream :
    ∃ s, (chat "s" "u").Run Converges (.initial []) s ∧ s.messages.length = 2 ∧
      s.panel.rows = s.messages.map display := by
  obtain ⟨s, hrun, hs⟩ := (chat "s" "u").exists_run (fun s l => Converges s l) (.initial [])
    (List.flatten [asked, [.server (.run (.token "On ")), .server (.run .publish), .subscribe,
      .server (.run (.token "its ")), .readMessages, .server (.run .publish),
      .server (.run (.token "way.")), .readActive, .server (.run .publish)],
      answered "On its way.", [.handle, .handle, .handle, .handle]])
    (fun s => s.messages.length = 2 ∧ s.connection = .connected [] ∧ s.active = none) (by decide)
  have hrun : (chat "s" "u").Run Converges (.initial []) s :=
    hrun.mono fun _ _ h => by simpa using h
  obtain ⟨hlength, hhandled, hidle⟩ := of_decide_eq_true hs
  have hlimit : s.messages.length ≤ snapshotLimit := by
    rw [hlength]
    decide
  exact ⟨s, hrun, hlength,
    (chat_transcript_converges .nil List.nodup_nil hrun hlimit hhandled hidle).1⟩

/-- **An answer that was not streamed is not shown.**  No token has made a draft, so
`generation_completed` changes no row, and the panel keeps the question alone. -/
theorem unstreamed_answer_not_shown :
    ¬∀ s, (chat "s" "u").Reachable (.initial []) s → s.messages.length ≤ snapshotLimit →
      s.connection = .connected [] → s.active = none →
      s.panel.rows = s.messages.map display := by
  intro hclaim
  obtain ⟨s, hreach, hs⟩ := (chat "s" "u").exists_reachable (.initial [])
    (List.flatten [[.subscribe, .readMessages, .readActive, .readAgain, .handle], asked,
      answered "I cannot help with that.", [.handle, .handle]])
    (fun s => s.messages.length = 2 ∧ s.connection = .connected [] ∧ s.active = none ∧
      s.panel.rows.length = 1) (by decide)
  obtain ⟨hlength, hhandled, hidle, hone⟩ := of_decide_eq_true hs
  have hlimit : s.messages.length ≤ snapshotLimit := by
    rw [hlength]
    decide
  rw [hclaim s hreach hlimit hhandled hidle, List.length_map, hlength] at hone
  cases hone

end Chat

end TrackFlow
