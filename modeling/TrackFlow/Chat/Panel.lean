import TrackFlow.Chat.Generation

/-!
# The transcript of the chat panel

`handleSocketEvent` of the backoffice client, as far as it changes the displayed rows.  A row is
a stored message, the draft of a generation that is streaming, or a question that the panel has
added itself and the server has not acknowledged.

* `Panel.handleSocketEvent` : what a frame of the socket does to the rows.
* `Panel.receive_quiet`, `Panel.receive_repeat` : queued events that a snapshot holds already.
* `Panel.receive_replay` : **queued events that continue a snapshot.**
-/

namespace TrackFlow

namespace Chat

/-- The `message_id` of a row: a stored message, `stream-…` or `pending-user-…`. -/
inductive RowId
  | message (messageId : String)
  | stream (generationId : String)
  | pendingUser (number : ℕ)
  deriving DecidableEq, Repr

/-- `DisplayMessage`. -/
structure DisplayMessage where
  id : RowId
  role : ChatRole
  content : String
  interrupted : Bool
  deriving DecidableEq, Repr

/-- A stored message as a row. -/
def display (m : ChatMessage) : DisplayMessage :=
  ⟨.message m.messageId, m.role, m.content, m.interrupted⟩

/-- The draft of a generation. -/
def draft (generationId content : String) : DisplayMessage :=
  ⟨.stream generationId, .assistant, content, false⟩

/-- What `active_snapshot` returns. -/
structure ActiveSnapshot where
  generationId : String
  content : String
  sequence : ℕ
  deriving DecidableEq, Repr

/-- The frames of the chat socket. -/
inductive ChatSocketEvent
  | sessionSnapshot (messages : List ChatMessage) (active : Option ActiveSnapshot)
  | published (event : ChatEvent)
  deriving DecidableEq, Repr

/-- The state of the panel: its rows, and the last sequence it has seen of each generation. -/
structure Panel where
  rows : List DisplayMessage
  tokenSequences : String → ℕ

/-- A row that the server has not acknowledged. -/
def DisplayMessage.isPending (row : DisplayMessage) : Bool :=
  match row.id with
  | .pendingUser _ => true
  | _ => false

/-- The message takes the place of the first row that waits for it, or comes last. -/
def acknowledge (message : DisplayMessage) : List DisplayMessage → List DisplayMessage
  | [] => [message]
  | row :: rows =>
    if row.role = .user ∧ row.isPending ∧ row.content = message.content then message :: rows
    else row :: acknowledge message rows

/-- The draft that a snapshot holds. -/
def ActiveSnapshot.draft (active : ActiveSnapshot) : List DisplayMessage :=
  if active.content = "" then [] else [Chat.draft active.generationId active.content]

namespace ChatEvent

/-- A token of a generation. -/
def isTokenOf (generationId : String) : ChatEvent → Bool
  | tokenChunk g _ _ => g = generationId
  | _ => false

/-- A token. -/
def isToken : ChatEvent → Bool
  | tokenChunk _ _ _ => true
  | _ => false

end ChatEvent

namespace Panel

/-- The panel before the first frame. -/
def empty : Panel := ⟨[], fun _ => 0⟩

/-- The rows of a snapshot, and those of the panel that it does not acknowledge. -/
def showSnapshot (p : Panel) (messages : List ChatMessage) (active : Option ActiveSnapshot) :
    Panel :=
  let base := messages.map display ++ (active.map ActiveSnapshot.draft).getD []
  let carried := p.rows.filter fun row =>
    row.isPending && !base.any fun other => other.role = .user && other.content = row.content
  { rows := base ++ carried
    tokenSequences := fun generationId =>
      ((active.filter fun a => a.generationId = generationId).map ActiveSnapshot.sequence).getD 0 }

/-- A token is appended to the draft of its generation, or starts it. -/
def appendToken (p : Panel) (generationId token : String) : List DisplayMessage :=
  if p.rows.any fun row => row.id = .stream generationId then
    p.rows.map fun row =>
      if row.id = .stream generationId then { row with content := row.content ++ token } else row
  else p.rows ++ [draft generationId token]

/-- The draft of a generation is changed, if there is one. -/
def changeDraft (p : Panel) (generationId : String) (f : DisplayMessage → DisplayMessage) :
    Panel where
  rows := p.rows.map fun row => if row.id = .stream generationId then f row else row
  tokenSequences := Function.update p.tokenSequences generationId 0

/-- What `generation_completed` makes of a draft. -/
def complete (messageId answer : String) (row : DisplayMessage) : DisplayMessage :=
  { row with
    id := .message messageId
    content := if answer = "" then row.content else answer }

/-- What `generation_interrupted` makes of a draft. -/
def interrupt (messageId : Option String) (row : DisplayMessage) : DisplayMessage :=
  { row with id := (messageId.map RowId.message).getD row.id, interrupted := true }

/-- `handleSocketEvent`. -/
def handleSocketEvent (p : Panel) : ChatSocketEvent → Panel
  | .sessionSnapshot messages active => p.showSnapshot messages active
  | .published (.userMessage _ message) =>
    if p.rows.any fun row => row.id = .message message.messageId then p
    else { p with rows := acknowledge (display message) p.rows }
  | .published (.tokenChunk generationId token sequence) =>
    if sequence ≠ 0 ∧ sequence ≤ p.tokenSequences generationId then p
    else
      { rows := p.appendToken generationId token
        tokenSequences :=
          if sequence ≠ 0 then Function.update p.tokenSequences generationId sequence
          else p.tokenSequences }
  | .published (.generationCompleted generationId messageId _ answer) =>
    p.changeDraft generationId (complete messageId answer)
  | .published (.generationInterrupted generationId messageId) =>
    p.changeDraft generationId (interrupt messageId)
  | .published (.generationFailed _ _) => p

/-- The frames in a row. -/
def handleAll (p : Panel) (frames : List ChatSocketEvent) : Panel :=
  frames.foldl handleSocketEvent p

/-- Published events in a row. -/
def receive (p : Panel) (events : List ChatEvent) : Panel :=
  p.handleAll (events.map .published)

/-! ## Frames one by one -/

/-- The rows hold no draft of the generation. -/
def NoDraft (generationId : String) (rows : List DisplayMessage) : Prop :=
  ∀ row ∈ rows, row.id ≠ .stream generationId

/-- The draft of the tokens received, if there are any. -/
def draftOf (generationId : String) (parts : List String) : List DisplayMessage :=
  if parts = [] then [] else [draft generationId (String.join parts)]

/-- The rows are stored messages. -/
def Stored (rows : List DisplayMessage) : Prop :=
  ∀ row ∈ rows, ∃ messageId, row.id = .message messageId

/-- The panel shows no question of its own. -/
def NoPending (rows : List DisplayMessage) : Prop := ∀ row ∈ rows, row.isPending = false

section

variable {p : Panel} {R : List DisplayMessage} {generationId g token c : String}
  {parts : List String} {f : DisplayMessage → DisplayMessage} {event : ChatEvent}

theorem join_concat (parts : List String) (token : String) :
    String.join (parts ++ [token]) = String.join parts ++ token := by
  simp [String.join]

theorem stored_map_display (messages : List ChatMessage) : Stored (messages.map display) := by
  intro row hrow
  obtain ⟨m, -, rfl⟩ := List.mem_map.1 hrow
  exact ⟨m.messageId, rfl⟩

theorem Stored.noDraft (h : Stored R) (generationId : String) : NoDraft generationId R := by
  intro row hrow he
  obtain ⟨messageId, hid⟩ := h row hrow
  rw [hid] at he
  cases he

theorem Stored.noPending (h : Stored R) : NoPending R := by
  intro row hrow
  obtain ⟨messageId, hid⟩ := h row hrow
  unfold DisplayMessage.isPending
  rw [hid]

theorem noPending_empty : NoPending empty.rows := fun _ hrow => by cases hrow

theorem NoPending.append {rows rows' : List DisplayMessage} (h : NoPending rows)
    (h' : NoPending rows') : NoPending (rows ++ rows') :=
  fun row hrow => (List.mem_append.1 hrow).elim (h row) (h' row)

theorem map_of_noDraft (h : NoDraft generationId R) :
    R.map (fun row => if row.id = .stream generationId then f row else row) = R := by
  rw [List.map_congr_left fun row hrow => if_neg (h row hrow)]
  exact List.map_id R

/-- A change of a draft that is not there. -/
theorem changeDraft_of_noDraft (h : NoDraft generationId p.rows) :
    (p.changeDraft generationId f).rows = p.rows := map_of_noDraft h

/-- A change of the draft in the last row. -/
theorem changeDraft_of_draft (hR : NoDraft generationId R)
    (hrows : p.rows = R ++ [draft generationId c]) :
    (p.changeDraft generationId f).rows = R ++ [f (draft generationId c)] := by
  show p.rows.map _ = _
  rw [hrows, List.map_append, map_of_noDraft hR, List.map_singleton]
  exact congrArg (fun row => R ++ [row]) (if_pos rfl)

/-- A new token. -/
theorem appendToken_eq (hR : NoDraft generationId R)
    (hrows : p.rows = R ++ draftOf generationId parts) :
    p.appendToken generationId token = R ++ draftOf generationId (parts ++ [token]) := by
  have hnew : draftOf generationId (parts ++ [token]) =
      [draft generationId (String.join parts ++ token)] := by
    unfold draftOf
    rw [if_neg (List.append_ne_nil_of_right_ne_nil _ (List.cons_ne_nil _ _)), join_concat]
  unfold appendToken
  rw [hnew, hrows]
  by_cases hparts : parts = []
  · subst hparts
    have hany : (R.any fun row => row.id = .stream generationId) = false := by
      rw [List.any_eq_false]
      exact fun row hrow => by simpa using hR row hrow
    have hnil : draftOf generationId [] = [] := if_pos rfl
    rw [hnil, List.append_nil, hany, if_neg Bool.false_ne_true]
    simp [String.join]
  · have hdraft : draftOf generationId parts = [draft generationId (String.join parts)] :=
      if_neg hparts
    rw [hdraft, List.any_append, List.map_append, map_of_noDraft hR, if_pos (by simp [draft]),
      List.map_singleton]
    exact congrArg (fun row => R ++ [row]) (if_pos rfl)

/-- A message that no row waits for comes last. -/
theorem acknowledge_eq {message : DisplayMessage} {rows : List DisplayMessage}
    (h : NoPending rows) : acknowledge message rows = rows ++ [message] := by
  induction rows with
  | nil => rfl
  | cons row rows ih =>
    obtain ⟨hrow, hrows⟩ := List.forall_mem_cons.1 h
    rw [acknowledge, if_neg (fun hc => by rw [hrow] at hc; exact Bool.false_ne_true hc.2.1),
      ih hrows]
    rfl

/-- The snapshot replaces the rows. -/
theorem showSnapshot_rows (h : NoPending p.rows) (messages : List ChatMessage)
    (active : Option ActiveSnapshot) :
    (p.showSnapshot messages active).rows =
      messages.map display ++ (active.map ActiveSnapshot.draft).getD [] := by
  unfold showSnapshot
  simp only
  rw [List.filter_eq_nil_iff.2 fun row hrow => by rw [h row hrow]; exact Bool.false_ne_true,
    List.append_nil]

/-- The snapshot counts the tokens of its draft. -/
theorem showSnapshot_sequence (p : Panel) (messages : List ChatMessage) (active : ActiveSnapshot) :
    (p.showSnapshot messages (some active)).tokenSequences active.generationId =
      active.sequence := by
  simp [showSnapshot, Option.filter]

/-- The snapshot forgets what the panel has seen of other generations. -/
theorem showSnapshot_sequence_of_ne (p : Panel) (messages : List ChatMessage)
    (active : ActiveSnapshot) (h : g ≠ active.generationId) :
    (p.showSnapshot messages (some active)).tokenSequences g = 0 := by
  simp [showSnapshot, Option.filter, h.symm]

/-- A frame leaves no question of the panel behind that was not there. -/
theorem NoPending.handleSocketEvent (h : NoPending p.rows) (frame : ChatSocketEvent) :
    NoPending (p.handleSocketEvent frame).rows := by
  have hchange : ∀ (generationId : String) (f : DisplayMessage → DisplayMessage),
      (∀ row, row.isPending = false → (f row).isPending = false) →
      NoPending (p.changeDraft generationId f).rows := by
    intro generationId f hf row hrow
    obtain ⟨row', hrow', rfl⟩ := List.mem_map.1 hrow
    split_ifs
    · exact hf row' (h row' hrow')
    · exact h row' hrow'
  cases frame with
  | sessionSnapshot messages active =>
    rw [Panel.handleSocketEvent, showSnapshot_rows h]
    refine (stored_map_display messages).noPending.append ?_
    cases active with
    | none => exact nofun
    | some active =>
      show NoPending active.draft
      unfold ActiveSnapshot.draft
      split_ifs
      · exact nofun
      · intro row hrow
        rw [List.mem_singleton.1 hrow]
        rfl
  | published event =>
    cases event with
    | userMessage _ message =>
      unfold Panel.handleSocketEvent
      simp only
      split_ifs
      · exact h
      · rw [acknowledge_eq h]
        refine h.append fun row hrow => ?_
        rw [List.mem_singleton.1 hrow]
        rfl
    | tokenChunk generationId token sequence =>
      have happend : NoPending (p.appendToken generationId token) := by
        unfold appendToken
        split_ifs
        · intro row hrow
          obtain ⟨row', hrow', rfl⟩ := List.mem_map.1 hrow
          split_ifs
          · exact h row' hrow'
          · exact h row' hrow'
        · refine h.append fun row hrow => ?_
          rw [List.mem_singleton.1 hrow]
          rfl
      unfold Panel.handleSocketEvent
      simp only
      split_ifs
      · exact h
      · exact happend
      · exact happend
    | generationCompleted generationId messageId _ answer => exact hchange _ _ fun _ _ => rfl
    | generationInterrupted generationId messageId =>
      refine hchange _ _ fun row hrow => ?_
      cases messageId with
      | none => exact hrow
      | some messageId => rfl
    | generationFailed _ _ => exact h

end

/-! ## Queued events -/

section

variable {p : Panel} {R : List DisplayMessage} {g c : String} {parts more : List String} {n : ℕ}
  {event : ChatEvent} {queue : List ChatEvent}

theorem receive_cons (p : Panel) (event : ChatEvent) (queue : List ChatEvent) :
    p.receive (event :: queue) = (p.handleSocketEvent (.published event)).receive queue := rfl

theorem receive_append (p : Panel) (front behind : List ChatEvent) :
    p.receive (front ++ behind) = (p.receive front).receive behind := by
  unfold receive handleAll
  rw [List.map_append, List.foldl_append]

/-- Events about other generations leave the sequence of a generation. -/
theorem tokenSequences_receive (h : ∀ e ∈ queue, e.generationId ≠ some g) :
    (p.receive queue).tokenSequences g = p.tokenSequences g := by
  induction queue generalizing p with
  | nil => rfl
  | cons event queue ih =>
    obtain ⟨hevent, hqueue⟩ := List.forall_mem_cons.1 h
    rw [receive_cons, ih hqueue]
    cases event with
    | userMessage _ m =>
      unfold handleSocketEvent
      simp only
      split_ifs <;> rfl
    | tokenChunk g' token k =>
      have hne : g ≠ g' := fun he => hevent (congrArg some he.symm)
      unfold handleSocketEvent
      simp only
      split_ifs
      · rfl
      · exact Function.update_of_ne hne ..
      · rfl
    | generationCompleted g' | generationInterrupted g' =>
      exact Function.update_of_ne (fun he => hevent (congrArg some he.symm)) ..
    | generationFailed => rfl

/-- An event that is no token, about messages and drafts that make no difference. -/
theorem handle_other (htoken : event.isToken = false)
    (huser : ∀ g m, event = .userMessage g m → ∃ row ∈ p.rows, row.id = .message m.messageId)
    (hterminal : ∀ g, event.terminal = true → event.generationId = some g → NoDraft g p.rows) :
    (p.handleSocketEvent (.published event)).rows = p.rows ∧
      ∀ g, (p.handleSocketEvent (.published event)).tokenSequences g = p.tokenSequences g ∨
        (p.handleSocketEvent (.published event)).tokenSequences g = 0 ∧ event.terminal = true ∧
          event.generationId = some g := by
  have hupdate : ∀ g g' : String, Function.update p.tokenSequences g' 0 g = p.tokenSequences g ∨
      Function.update p.tokenSequences g' 0 g = 0 ∧ some g' = some g := by
    intro g g'
    by_cases hg : g = g'
    · subst hg
      exact .inr ⟨Function.update_self .., rfl⟩
    · exact .inl (Function.update_of_ne hg ..)
  cases event with
  | userMessage g' m =>
    obtain ⟨row, hrow, hid⟩ := huser g' m rfl
    have hany : (p.rows.any fun row => row.id = .message m.messageId) = true :=
      List.any_eq_true.2 ⟨row, hrow, decide_eq_true hid⟩
    have hsame : p.handleSocketEvent (.published (.userMessage g' m)) = p := by
      unfold handleSocketEvent
      exact if_pos hany
    rw [hsame]
    exact ⟨rfl, fun g => .inl rfl⟩
  | tokenChunk g' token k => cases htoken
  | generationCompleted g' messageId route answer =>
    exact ⟨changeDraft_of_noDraft (hterminal g' rfl rfl), fun g =>
      (hupdate g g').imp_right fun h => ⟨h.1, rfl, h.2⟩⟩
  | generationInterrupted g' messageId =>
    exact ⟨changeDraft_of_noDraft (hterminal g' rfl rfl), fun g =>
      (hupdate g g').imp_right fun h => ⟨h.1, rfl, h.2⟩⟩
  | generationFailed g' detail => exact ⟨rfl, fun g => .inl rfl⟩

/-- **Events without tokens repeat what is shown.** -/
theorem receive_quiet (hrows : Stored p.rows) (htoken : ∀ e ∈ queue, e.isToken = false)
    (huser : ∀ g m, .userMessage g m ∈ queue → display m ∈ p.rows) :
    (p.receive queue).rows = p.rows ∧
      ∀ g, p.tokenSequences g = 0 → (p.receive queue).tokenSequences g = 0 := by
  induction queue generalizing p with
  | nil => exact ⟨rfl, fun _ h => h⟩
  | cons event queue ih =>
    obtain ⟨htoken, htokens⟩ := List.forall_mem_cons.1 htoken
    obtain ⟨hsame, hsequences⟩ := handle_other (p := p) htoken
      (fun g m he => ⟨_, huser g m (he ▸ List.mem_cons_self), rfl⟩)
      (fun g _ _ => hrows.noDraft g)
    obtain ⟨hrows', hsequences'⟩ := ih (p := p.handleSocketEvent (.published event))
      (by rw [hsame]; exact hrows) htokens
      (fun g m hm => by rw [hsame]; exact huser g m (List.mem_cons_of_mem _ hm))
    rw [receive_cons]
    refine ⟨hrows'.trans hsame, fun g hg => hsequences' g ?_⟩
    rcases hsequences g with h | ⟨h, -⟩
    · rw [h, hg]
    · exact h

theorem noDraft_append_draftOf {g' : String} (hR : Stored R) (hg : g ≠ g') :
    NoDraft g' (R ++ draftOf g parts) := by
  intro row hrow
  rcases List.mem_append.1 hrow with hrow | hrow
  · exact hR.noDraft g' row hrow
  · unfold draftOf at hrow
    split_ifs at hrow
    · cases hrow
    · rw [List.mem_singleton.1 hrow]
      exact fun he => hg (RowId.stream.inj he)

/-- **A queue that continues a draft.**  The tokens that a queue holds of a generation are
appended to what is shown of it, whatever else is queued about messages that are shown and about
other generations. -/
theorem receive_replay (hR : Stored R) (hrows : p.rows = R ++ draftOf g parts)
    (hsequence : p.tokenSequences g = if parts = [] then 0 else n)
    (huser : ∀ g' m, .userMessage g' m ∈ queue → display m ∈ R)
    (hforeign : ∀ e ∈ queue, e.isToken = true → e.isTokenOf g = true)
    (hterminal : ∀ e ∈ queue, e.terminal = true → e.generationId ≠ some g)
    (htokens : queue.filter (ChatEvent.isTokenOf g) = ActiveGeneration.chunks g n more) :
    (p.receive queue).rows = R ++ draftOf g (parts ++ more) ∧
      (p.receive queue).tokenSequences g =
        (if parts ++ more = [] then 0 else n + more.length) ∧
      ∀ g', g' ≠ g → p.tokenSequences g' = 0 → (p.receive queue).tokenSequences g' = 0 := by
  induction queue generalizing p parts more n with
  | nil =>
    cases more with
    | nil =>
      rw [List.append_nil]
      exact ⟨hrows, hsequence, fun _ _ h => h⟩
    | cons part more => cases htokens
  | cons event queue ih =>
    obtain ⟨hforeign, hforeigns⟩ := List.forall_mem_cons.1 hforeign
    obtain ⟨hterminal, hterminals⟩ := List.forall_mem_cons.1 hterminal
    have husers : ∀ g' m, .userMessage g' m ∈ queue → display m ∈ R :=
      fun g' m hm => huser g' m (List.mem_cons_of_mem _ hm)
    rw [receive_cons]
    by_cases htoken : event.isToken = true
    · -- the token is the next one of the draft
      have hof := hforeign htoken
      rw [List.filter_cons_of_pos hof] at htokens
      cases more with
      | nil => cases htokens
      | cons part more =>
        obtain ⟨rfl, htail⟩ := List.cons.inj htokens
        have hle : p.tokenSequences g ≤ n := by
          rw [hsequence]
          split_ifs <;> omega
        have hnew : p.handleSocketEvent (.published (.tokenChunk g part (n + 1))) =
            ⟨R ++ draftOf g (parts ++ [part]),
              Function.update p.tokenSequences g (n + 1)⟩ := by
          unfold handleSocketEvent
          simp only
          rw [if_neg (by omega), if_pos (by omega), appendToken_eq (hR.noDraft g) hrows]
        have hne : parts ++ [part] ≠ [] := by simp
        obtain ⟨hrows', hsequence', hothers⟩ := ih
          (p := p.handleSocketEvent (.published (.tokenChunk g part (n + 1))))
          (n := n + 1) (by rw [hnew])
          (by rw [hnew, if_neg hne]; exact Function.update_self ..) husers hforeigns hterminals
          htail
        rw [List.append_assoc] at hrows' hsequence'
        refine ⟨hrows', ?_, fun g' hg' h => hothers g' hg' ?_⟩
        · rw [hsequence', List.length_cons]
          simp only [List.singleton_append]
          congr 1
          omega
        · rw [hnew]
          exact (Function.update_of_ne hg' ..).trans h
    · have htoken : event.isToken = false := by simpa using htoken
      have hof : event.isTokenOf g = false := by
        cases event with
        | tokenChunk => cases htoken
        | _ => rfl
      rw [List.filter_cons_of_neg (by rw [hof]; exact Bool.false_ne_true)] at htokens
      obtain ⟨hsame, hsequences⟩ := handle_other (p := p) htoken
        (fun g' m he => ⟨display m, by
          rw [hrows]
          exact List.mem_append_left _ (huser g' m (he ▸ List.mem_cons_self)), rfl⟩)
        (fun g' hend hg' => by
          rw [hrows]
          exact noDraft_append_draftOf hR fun he => hterminal hend (he ▸ hg'))
      have hg : (p.handleSocketEvent (.published event)).tokenSequences g = p.tokenSequences g :=
        (hsequences g).resolve_right fun h => hterminal h.2.1 h.2.2
      obtain ⟨hrows', hsequence', hothers⟩ := ih (hsame.trans hrows) (hg.trans hsequence) husers
        hforeigns hterminals htokens
      refine ⟨hrows', hsequence', fun g' hg' h => hothers g' hg' ?_⟩
      rcases hsequences g' with h' | ⟨h', -⟩
      · rw [h', h]
      · exact h'

/-- **A queue that repeats a draft.**  The tokens that the queue holds are in the draft already. -/
theorem receive_repeat (hR : Stored R) (hrows : p.rows = R ++ [draft g c])
    (huser : ∀ g' m, .userMessage g' m ∈ queue → display m ∈ R)
    (htokens : ∀ e ∈ queue, ∀ k, e.tokenSequence = some k →
      e.generationId = some g ∧ k ≠ 0 ∧ k ≤ p.tokenSequences g)
    (hterminal : ∀ e ∈ queue, e.terminal = true → e.generationId ≠ some g) :
    (p.receive queue).rows = p.rows ∧
      (p.receive queue).tokenSequences g = p.tokenSequences g ∧
      ∀ g', p.tokenSequences g' = 0 → (p.receive queue).tokenSequences g' = 0 := by
  induction queue generalizing p with
  | nil => exact ⟨rfl, rfl, fun _ h => h⟩
  | cons event queue ih =>
    obtain ⟨htoken, htokens⟩ := List.forall_mem_cons.1 htokens
    obtain ⟨hterminal, hterminals⟩ := List.forall_mem_cons.1 hterminal
    have hdraft : [draft g c] = draftOf g [c] := by
      unfold draftOf
      simp [String.join]
    have hone : (p.handleSocketEvent (.published event)).rows = p.rows ∧
        (p.handleSocketEvent (.published event)).tokenSequences g = p.tokenSequences g ∧
        ∀ g', p.tokenSequences g' = 0 →
          (p.handleSocketEvent (.published event)).tokenSequences g' = 0 := by
      by_cases hevent : event.isToken = true
      · cases event with
        | tokenChunk g' token k =>
          obtain ⟨hg, hk⟩ := htoken k rfl
          cases hg
          have hsame : p.handleSocketEvent (.published (.tokenChunk g token k)) = p := by
            unfold handleSocketEvent
            exact if_pos hk
          rw [hsame]
          exact ⟨rfl, rfl, fun _ h => h⟩
        | _ => cases hevent
      · obtain ⟨hsame, hsequences⟩ := handle_other (p := p) (by simpa using hevent)
          (fun g' m he => ⟨display m, by
            rw [hrows]
            exact List.mem_append_left _ (huser g' m (he ▸ List.mem_cons_self)), rfl⟩)
          (fun g' hend hg' => by
            rw [hrows, hdraft]
            exact noDraft_append_draftOf hR fun he => hterminal hend (he ▸ hg'))
        refine ⟨hsame, (hsequences g).resolve_right fun h => hterminal h.2.1 h.2.2, fun g' h => ?_⟩
        rcases hsequences g' with h' | ⟨h', -⟩
        · rw [h', h]
        · exact h'
    obtain ⟨hsame, hg, hothers⟩ := hone
    obtain ⟨hrows', hsequence', hothers'⟩ := ih (p := p.handleSocketEvent (.published event))
      (hsame.trans hrows) (fun g' m hm => huser g' m (List.mem_cons_of_mem _ hm))
      (fun e he k hk => by rw [hg]; exact htokens e he k hk) hterminals
    rw [receive_cons]
    exact ⟨hrows'.trans hsame, hsequence'.trans hg, fun g' h => hothers' g' (hothers g' h)⟩

end

end Panel

end Chat

end TrackFlow
