import TrackFlow.Agents.Graph

/-!
# What a run of the agent does

The runs of the agent graph, whatever the providers bring.

* `FromTurn`, `Grounded` : what may be put before the generation model.
* `Effect.Ok` : what a provider is called with.
* `Arrived` : what holds when a node is visited.
* `calls_of_runAgent` : **what is called, with what, and when.**
* `answer_of_runAgent` : **what is answered.**
* `tokens_of_runAgent` : **what the client is sent.**
-/

namespace TrackFlow

namespace Agents

open Python

variable {κ : Type*} (t : Normalizer) (w : Providers κ) (input : AgentInput)

/-! ## Evidence and calls -/

/-- Evidence of the turn itself. -/
inductive FromTurn : Evidence → Prop
  /-- A policy of the jurisdiction, without instructions. -/
  | retrieved {chunk : Evidence} {jurisdiction : String}
      (hinput : input.jurisdiction = some jurisdiction)
      (hchunk : chunk.jurisdiction ∈ [jurisdiction, "GLOBAL"])
      (hsafe : evidenceIsSafe t chunk.text = true) : FromTurn chunk
  /-- What the ticket tool says of a ticket, without instructions. -/
  | ticket {id : ℤ} (hid : 0 < id)
      (hsafe : evidenceIsSafe t (ticketText id (w.lookup id)) = true) :
      FromTurn (ticketBlock ("ticket-" ++ toString id) (ticketText id (w.lookup id)))
  | missingId : FromTurn missingId
  | blocked : FromTurn blockedEvidence

/-- Evidence of the turn, and the memories that are usable beside it. -/
def Grounded (context : List Evidence) : Prop :=
  ∃ current : List Evidence, (∀ block ∈ current, FromTurn t w input block) ∧
    context = current ++ input.memoryEvidence.filter (isUsable t current)

/-- The question is answered by the providers. -/
structure Admitted : Prop where
  asked : blank input.question.toList = false
  allowed : (validateInput t w.elapsed input.question input.jurisdiction).action = .allow

/-- What a provider may be called with. -/
def Effect.Ok : Effect → Prop
  | .routingModel question => question = input.question ∧ input.routePreference = .auto
  | .retrieve question jurisdiction =>
    question = input.question ∧ input.jurisdiction = some jurisdiction ∧
      jurisdiction ∈ jurisdictions
  | .lookup ticketId => 0 < ticketId
  | .generate context => Grounded t w input context
  | .token _ => w.streaming = true

/-- The rank of the node that an effect is of. -/
def Effect.rank : Effect → ℕ
  | .routingModel _ => 5
  | .retrieve _ _ => 4
  | .lookup _ => 3
  | .generate _ => 2
  | .token _ => 2

/-- A call of a provider. -/
def Effect.isCall : Effect → Bool
  | .token _ => false
  | _ => true

/-- The calls of the providers. -/
def calls (effects : List Effect) : List Effect := effects.filter Effect.isCall

/-- The texts that the client is sent. -/
def tokens (effects : List Effect) : List (List Char) :=
  effects.filterMap fun effect =>
    match effect with
    | .token text => some text
    | _ => none

/-- What the output rules are told in a run. -/
structure RunContext (effects : List Effect) (ctx : OutputContext) : Prop where
  jurisdiction : ctx.jurisdiction = input.jurisdiction
  /-- The status of the ticket that was looked up. -/
  status : ∀ id, .lookup id ∈ effects → evidenceIsSafe t (ticketText id (w.lookup id)) = true →
    ctx.authoritativeStatus = (w.lookup id).ticket.map TicketStatus.status
  grounded : ∀ context, .generate context ∈ effects →
    ctx.hasGroundedEvidence = !context.isEmpty

/-- What the client is sent: texts that pass the output rules at every point, and the fixed answer
behind them if the stream was stopped. -/
def Sent (effects : List Effect) (stopped : Bool) : Prop :=
  ∃ sent, tokens effects = sent ++ (if stopped then [outputFallback.toList] else []) ∧
    ∀ front behind, sent = front ++ behind → front ≠ [] →
      ∃ ctx, RunContext t w input effects ctx ∧
        validateOutput t.toTables ctx front.flatten = none

/-! ## What holds at a node -/

/-- The effects of the nodes before one. -/
structure EffectsOk (rank : ℕ) (effects : List Effect) : Prop where
  ok : ∀ effect ∈ effects, effect.Ok t w input
  ordered : (calls effects).Pairwise fun a b => b.rank < a.rank
  above : ∀ effect ∈ effects, rank < effect.rank
  admitted : effects ≠ [] → Admitted t w input

/-- What holds when a node is visited. -/
structure Arrived (n : Node) (s : AgentState κ) (effects : List Effect) : Prop
    extends EffectsOk t w input n.rank effects where
  asked : n.rank < 7 → blank input.question.toList = false
  allowed : n.rank < 6 → Admitted t w input
  current : ∀ block ∈ s.current, FromTurn t w input block
  toolContext : 3 ≤ n.rank → s.toolContext = []
  retrieved : 4 ≤ n.rank → s.retrieved = none
  noContext : n = .noContext → s.current = []
  status : ∀ id, .lookup id ∈ effects → evidenceIsSafe t (ticketText id (w.lookup id)) = true →
    s.authoritativeStatus = (w.lookup id).ticket.map TicketStatus.status
  generated : ∀ context, .generate context ∈ effects →
    context = s.current ++ (usableMemory t input s).1
  unanswered : 2 ≤ n.rank → s.route ≠ .reject ∧ s.error = none ∧ s.answer = none
  asksModel : n.rank < 2 → ∃ context, .generate context ∈ effects
  sent : n.rank < 2 → ∃ stopped, Sent t w input effects stopped ∧
    (s.route = .reject ∧ s.answer = some outputFallback ∨
      stopped = false ∧ s.route ≠ .reject ∧ (s.error = none ∨ s.answer = none))
  passed : n = .memorySelfeval → s.route ≠ .reject ∧ s.error = none ∧ ∃ text,
    s.answer = some text ∧ validateOutput t.toTables
      (outputContext input s (!(s.current ++ (usableMemory t input s).1).isEmpty))
      text.toList = none

/-- How a run ends. -/
inductive Ending (s : AgentState κ) (effects : List Effect) : Prop
  | blank (hblank : blank input.question.toList = true) (hroute : s.route = .reject)
      (hanswer : s.answer = none)
  | refused {text : String} (htext : text ∈ fixedAnswers) (hroute : s.route = .reject)
      (hanswer : s.answer = some text)
  | failed (hroute : s.route ≠ .reject) (herror : s.error = some "retrieval_failed")
      (hanswer : s.answer = none) (hpoints : w.points = none)
  | answered {text : String} {ctx : OutputContext} (hroute : s.route ≠ .reject)
      (herror : s.error = none) (hanswer : s.answer = some text)
      (hcontext : ∃ context, .generate context ∈ effects) (hctx : RunContext t w input effects ctx)
      (hpasses : validateOutput t.toTables ctx text.toList = none)

/-- What holds at the end of a run. -/
structure Finished (r : Option (AgentState κ)) (effects : List Effect) : Prop where
  ok : ∀ effect ∈ effects, effect.Ok t w input
  ordered : (calls effects).Pairwise fun a b => b.rank < a.rank
  admitted : effects ≠ [] → Admitted t w input
  sent : ∃ stopped, Sent t w input effects stopped ∧
    (stopped = true → ∃ s, r = some s ∧ s.route = .reject ∧ s.answer = some outputFallback)
  ending : ∀ s, r = some s → Ending t w input s effects

/-- What a visit brings. -/
structure Lands (n : Node) (before : List Effect) (visit : Visit κ) : Prop where
  raised : visit.1 = none →
    Finished t w input (none : Option (AgentState κ)) (before ++ visit.2)
  ended : ∀ s, visit.1 = some s → n.next s = none → Finished t w input visit.1 (before ++ visit.2)
  moved : ∀ s m, visit.1 = some s → n.next s = some m → Arrived t w input m s (before ++ visit.2)

variable {t w input} {n m : Node} {s s' : AgentState κ} {before effects : List Effect}

theorem Lands.of_moved (hnext : n.next s = some m)
    (harrived : Arrived t w input m s (before ++ effects)) :
    Lands t w input n before (some s, effects) where
  raised h := by cases h
  ended s' hs' hnone := by
    cases hs'
    rw [hnext] at hnone
    cases hnone
  moved s' m' hs' hsome := by
    cases hs'
    rw [hnext] at hsome
    cases hsome
    exact harrived

theorem Lands.of_ended (hnext : n.next s = none)
    (hfinished : Finished t w input (some s) (before ++ effects)) :
    Lands t w input n before (some s, effects) where
  raised h := by cases h
  ended s' hs' _ := hfinished
  moved s' m' hs' hsome := by
    cases hs'
    rw [hnext] at hsome
    cases hsome

theorem Lands.of_raised
    (hfinished : Finished t w input (none : Option (AgentState κ)) (before ++ effects)) :
    Lands t w input n before ((none : Option (AgentState κ)), effects) where
  raised _ := hfinished
  ended s' hs' _ := by cases hs'
  moved s' m' hs' _ := by cases hs'

/-! ## Effects -/

theorem calls_append (effects effects' : List Effect) :
    calls (effects ++ effects') = calls effects ++ calls effects' := List.filter_append ..

theorem tokens_append (effects effects' : List Effect) :
    tokens (effects ++ effects') = tokens effects ++ tokens effects' := List.filterMap_append

theorem EffectsOk.append {rank rank' : ℕ} (h : EffectsOk t w input rank before)
    (hok : ∀ effect ∈ effects, effect.Ok t w input)
    (hrank : ∀ effect ∈ effects, effect.rank = rank) (hone : (calls effects).length ≤ 1)
    (hlt : rank' < rank) (hadmitted : Admitted t w input) :
    EffectsOk t w input rank' (before ++ effects) where
  ok effect heffect := by
    rcases List.mem_append.1 heffect with heffect | heffect
    · exact h.ok effect heffect
    · exact hok effect heffect
  ordered := by
    rw [calls_append, List.pairwise_append]
    refine ⟨h.ordered, ?_, fun a ha b hb => ?_⟩
    · -- at most one of the calls is new
      match hcalls : calls effects with
      | [] => exact .nil
      | [_] => exact List.pairwise_singleton _ _
      | _ :: _ :: _ => simp [hcalls] at hone
    · rw [hrank b (List.mem_of_mem_filter hb)]
      exact h.above a (List.mem_of_mem_filter ha)
  above effect heffect := by
    rcases List.mem_append.1 heffect with heffect | heffect
    · exact hlt.trans (h.above effect heffect)
    · rw [hrank effect heffect]
      exact hlt
  admitted _ := hadmitted

theorem EffectsOk.quiet {rank rank' : ℕ} (h : EffectsOk t w input rank before)
    (hlt : rank' < rank) : EffectsOk t w input rank' (before ++ []) where
  ok := by simpa using h.ok
  ordered := by simpa using h.ordered
  above effect heffect := hlt.trans (h.above effect (by simpa using heffect))
  admitted := by simpa using h.admitted

/-- A call of a later node has not been made. -/
theorem EffectsOk.not_mem {rank : ℕ} (h : EffectsOk t w input rank before) {effect : Effect}
    (hle : effect.rank ≤ rank) : effect ∉ before :=
  fun hmem => absurd (h.above effect hmem) (Nat.not_lt.2 hle)

/-- Nothing is called before the question is routed. -/
theorem EffectsOk.eq_nil {rank : ℕ} (h : EffectsOk t w input rank before) (hle : 5 ≤ rank) :
    before = [] := by
  refine List.eq_nil_iff_forall_not_mem.2 fun effect heffect => h.not_mem ?_ heffect
  refine le_trans ?_ hle
  cases effect <;> simp [Effect.rank]

/-- No token is sent before the generation. -/
theorem EffectsOk.tokens_eq_nil {rank : ℕ} (h : EffectsOk t w input rank before) (hle : 2 ≤ rank) :
    tokens before = [] := by
  refine List.eq_nil_iff_forall_not_mem.2 fun text htext => ?_
  obtain ⟨effect, heffect, htoken⟩ := List.mem_filterMap.1 htext
  refine h.not_mem ?_ heffect
  cases effect <;> simp_all [Effect.rank]

theorem Sent.of_nil (h : tokens effects = []) : Sent t w input effects false :=
  ⟨[], by simpa using h, fun front behind hsplit hne =>
    absurd (List.append_eq_nil_iff.1 hsplit.symm).1 hne⟩

theorem Finished.of_sent {rank : ℕ} (heffects : EffectsOk t w input rank effects) {stopped : Bool}
    (hsent : Sent t w input effects stopped)
    (hstopped : stopped = true → s.route = .reject ∧ s.answer = some outputFallback)
    (hending : Ending t w input s effects) : Finished t w input (some s) effects where
  ok := heffects.ok
  ordered := heffects.ordered
  admitted := heffects.admitted
  sent := ⟨stopped, hsent, fun h => ⟨s, rfl, hstopped h⟩⟩
  ending s' hs' := by
    cases hs'
    exact hending

/-- A run that ends before the generation. -/
theorem Finished.of_ending {rank : ℕ} (heffects : EffectsOk t w input rank effects)
    (hrank : 2 ≤ rank) (hending : Ending t w input s effects) :
    Finished t w input (some s) effects :=
  .of_sent heffects (.of_nil (heffects.tokens_eq_nil hrank)) nofun hending

/-! ## The nodes -/

/-- A node that is visited before there is an answer. -/
theorem Arrived.of_unanswered (heffects : EffectsOk t w input m.rank effects) (hm : 2 ≤ m.rank)
    (hasked : m.rank < 7 → blank input.question.toList = false)
    (hallowed : m.rank < 6 → Admitted t w input)
    (hcurrent : ∀ block ∈ s.current, FromTurn t w input block)
    (htool : 3 ≤ m.rank → s.toolContext = []) (hretrieved : 4 ≤ m.rank → s.retrieved = none)
    (hno : m = .noContext → s.current = [])
    (hstatus : ∀ id, .lookup id ∈ effects →
      evidenceIsSafe t (ticketText id (w.lookup id)) = true →
      s.authoritativeStatus = (w.lookup id).ticket.map TicketStatus.status)
    (hunanswered : s.route ≠ .reject ∧ s.error = none ∧ s.answer = none) :
    Arrived t w input m s effects where
  toEffectsOk := heffects
  asked := hasked
  allowed := hallowed
  current := hcurrent
  toolContext := htool
  retrieved := hretrieved
  noContext := hno
  status := hstatus
  generated context hcontext := absurd hcontext (heffects.not_mem hm)
  unanswered _ := hunanswered
  asksModel hlow := absurd hm (by omega)
  sent hlow := absurd hm (by omega)
  passed heq := by
    subst heq
    exact absurd hm (by decide)

/-- A step of a node that stands before the tool. -/
theorem Arrived.early (h : Arrived t w input n s before)
    (heffects : EffectsOk t w input m.rank (before ++ effects)) (hlt : m.rank < n.rank)
    (hm : 3 ≤ m.rank) (hasked : blank input.question.toList = false)
    (hallowed : m.rank < 6 → Admitted t w input) (hretrieved : s'.retrieved = s.retrieved)
    (htool : s'.toolContext = s.toolContext)
    (hunanswered : s'.route ≠ .reject ∧ s'.error = none ∧ s'.answer = none) :
    Arrived t w input m s' (before ++ effects) := by
  refine .of_unanswered heffects ((by decide : 2 ≤ 3).trans hm) (fun _ => hasked) hallowed ?_ ?_ ?_
    ?_ (fun id hid => absurd hid (heffects.not_mem hm)) hunanswered
  · rw [AgentState.current, hretrieved, htool]
    exact h.current
  · exact fun hle => htool.trans (h.toolContext (hle.trans hlt.le))
  · exact fun hle => hretrieved.trans (h.retrieved (hle.trans hlt.le))
  · rintro rfl
    exact absurd hm (by decide)

theorem lands_receiveQuestion (h : Arrived t w input .receiveQuestion s before) :
    Lands t w input .receiveQuestion before (receiveQuestion input s) := by
  have hunanswered := h.unanswered (by decide)
  unfold receiveQuestion
  split_ifs with hblank
  · have hquiet : EffectsOk t w input 6 (before ++ []) := h.quiet (by decide)
    refine .of_ended rfl (.of_ending hquiet (by decide) ?_)
    exact .blank hblank rfl hunanswered.2.2
  · have hasked := Bool.eq_false_iff.2 hblank
    refine .of_moved (if_neg hunanswered.1) (h.early (h.quiet (by decide)) (by decide) (by decide)
      hasked (fun hlow => absurd hlow (by decide)) rfl rfl hunanswered)

theorem lands_guardrailInput (h : Arrived t w input .guardrailInput s before) :
    Lands t w input .guardrailInput before (guardrailInputNode t w input s) := by
  have hunanswered := h.unanswered (by decide)
  unfold guardrailInputNode
  dsimp only
  split_ifs with haction
  · have hquiet : EffectsOk t w input 5 (before ++ []) := h.quiet (by decide)
    refine .of_ended rfl (.of_ending hquiet (by decide) ?_)
    rcases validateInput_cases with ⟨hallow, -⟩ | ⟨-, text, htext, hanswer⟩
    · rw [hallow] at haction
      exact absurd rfl haction
    · exact .refused htext rfl hanswer
  · have hadmitted : Admitted t w input := ⟨h.asked (by decide), not_not.1 haction⟩
    exact .of_moved (if_neg hunanswered.1) (h.early (h.quiet (by decide)) (by decide) (by decide)
      hadmitted.asked (fun _ => hadmitted) rfl rfl hunanswered)

theorem lands_route (h : Arrived t w input .route s before) :
    Lands t w input .route before (routeStateNode w input s) := by
  have hadmitted := h.allowed (by decide)
  have hunanswered := h.unanswered (by decide)
  unfold routeStateNode
  dsimp only
  have heffects : ∀ m : Node, m.rank < 5 → EffectsOk t w input m.rank (before ++
      if input.routePreference = .auto ∧ w.apiKey = true then
        [Effect.routingModel input.question] else []) := by
    intro m hlt
    split_ifs with hauto
    · refine h.append ?_ ?_ le_rfl hlt hadmitted
      · intro effect heffect
        rw [List.mem_singleton.1 heffect]
        exact ⟨rfl, hauto.1⟩
      · intro effect heffect
        rw [List.mem_singleton.1 heffect]
        rfl
    · exact h.quiet hlt
  by_cases hticket :
      (routeNode input.routePreference w.apiKey w.ticketInQuestion w.routing).1.route = .ticket
  · exact .of_moved (if_pos (congrArg RouteField.routed hticket)) (h.early (heffects _ (by decide))
      (by decide) (by decide) hadmitted.asked (fun _ => hadmitted) rfl rfl
      ⟨nofun, hunanswered.2⟩)
  · exact .of_moved (if_neg fun heq => hticket (RouteField.routed.inj heq))
      (h.early (heffects _ (by decide)) (by decide) (by decide) hadmitted.asked
        (fun _ => hadmitted) rfl rfl ⟨nofun, hunanswered.2⟩)

/-- The policies that are retrieved. -/
theorem fromTurn_of_retrieved {jurisdiction : String} {points : List ScoredPoint} {chunk : Evidence}
    (hinput : input.jurisdiction = some jurisdiction)
    (h : chunk ∈ (retrieveChunks w.minScore jurisdiction points).filter fun chunk =>
      evidenceIsSafe t chunk.text) : FromTurn t w input chunk := by
  obtain ⟨hchunk, hsafe⟩ := List.mem_filter.1 h
  exact .retrieved hinput (of_decide_eq_true (List.mem_filter.1 hchunk).2) hsafe

theorem lands_retrieve (h : Arrived t w input .retrieve s before) :
    Lands t w input .retrieve before (retrieveNode t w input s) := by
  have hadmitted := h.allowed (by decide)
  obtain ⟨hroute, herror, hanswer⟩ := h.unanswered (by decide)
  have htool := h.toolContext (by decide)
  unfold retrieveNode
  dsimp only
  split
  · have hquiet : EffectsOk t w input 3 (before ++ []) := h.quiet (by decide)
    refine .of_ended rfl (.of_ending hquiet (by decide) ?_)
    exact .refused (by simp [fixedAnswers]) rfl rfl
  · rename_i jurisdiction hjurisdiction
    obtain ⟨hinput, hmem⟩ := Option.filter_eq_some_iff.1 hjurisdiction
    have heffects : ∀ m : Node, m.rank < 4 → EffectsOk t w input m.rank
        (before ++ [.retrieve input.question jurisdiction]) := by
      intro m hlt
      refine h.append ?_ ?_ le_rfl hlt hadmitted
      · intro effect heffect
        rw [List.mem_singleton.1 heffect]
        exact ⟨rfl, hinput, of_decide_eq_true hmem⟩
      · intro effect heffect
        rw [List.mem_singleton.1 heffect]
        rfl
    split
    · rename_i hnone
      refine .of_ended ?_ (.of_ending (heffects .ticketTool (by decide)) (by decide) ?_)
      · exact (if_neg hroute).trans (if_pos rfl)
      · exact .failed hroute rfl hanswer (Option.map_eq_none_iff.1 hnone)
    · rename_i chunks hchunks
      obtain ⟨points, hpoints, rfl⟩ := Option.map_eq_some_iff.1 hchunks
      have hfrom : ∀ block ∈ (retrieveChunks w.minScore jurisdiction points).filter fun chunk =>
          evidenceIsSafe t chunk.text, FromTurn t w input block :=
        fun block hblock => fromTurn_of_retrieved hinput hblock
      generalize ((retrieveChunks w.minScore jurisdiction points).filter fun chunk =>
        evidenceIsSafe t chunk.text) = safeChunks at hfrom ⊢
      have harrived : ∀ (m : Node) (final : AgentState κ), m.rank < 4 → 2 ≤ m.rank →
          final.retrieved = some safeChunks → final.toolContext = [] →
          (m = .noContext → safeChunks = []) →
          (final.route ≠ .reject ∧ final.error = none ∧ final.answer = none) →
          Arrived t w input m final (before ++ [.retrieve input.question jurisdiction]) := by
        intro m final hlt hle hretrieved htool hno hunanswered
        have hcurrent : final.current = safeChunks := by
          simp [AgentState.current, hretrieved, htool]
        refine .of_unanswered (heffects m hlt) hle (fun _ => hadmitted.asked) (fun _ => hadmitted)
          (hcurrent ▸ hfrom) (fun _ => htool) (fun hle => absurd hlt (by omega))
          (fun heq => hcurrent.trans (hno heq)) ?_ hunanswered
        intro id hid
        rcases List.mem_append.1 hid with hid | hid
        · exact absurd hid (h.not_mem (show 3 ≤ 4 by decide))
        · cases List.mem_singleton.1 hid
      by_cases hboth : s.route = .routed .both
      · refine .of_moved (m := .ticketTool) (by simp [Node.next, herror, hboth]) ?_
        exact harrived _ _ (by decide) (by decide) rfl htool (fun heq => by cases heq)
          ⟨hroute, herror, hanswer⟩
      · by_cases hempty : safeChunks = []
        · refine .of_moved (m := .noContext) (by simp [Node.next, hroute, herror, hboth, hempty]) ?_
          exact harrived _ _ (by decide) (by decide) rfl htool (fun _ => hempty)
            ⟨hroute, herror, hanswer⟩
        · refine .of_moved (m := .generate) (by simp [Node.next, hroute, herror, hboth, hempty]) ?_
          exact harrived _ _ (by decide) (by decide) rfl htool (fun heq => by cases heq)
            ⟨hroute, herror, hanswer⟩

theorem lands_ticketTool (h : Arrived t w input .ticketTool s before) :
    Lands t w input .ticketTool before (ticketToolNode t w s) := by
  have hadmitted := h.allowed (by decide)
  have hunanswered := h.unanswered (by decide)
  have htool := h.toolContext (by decide)
  have hno : ∀ id, .lookup id ∉ before := fun id => h.not_mem (show 3 ≤ 3 by decide)
  -- a block is added to what has been retrieved
  have hcurrent : ∀ (final : AgentState κ) (block : Evidence), final.retrieved = s.retrieved →
      final.toolContext = s.toolContext ++ [block] → FromTurn t w input block →
      ∀ block' ∈ final.current, FromTurn t w input block' := by
    intro final block hretrieved htool' hblock block' hblock'
    rw [AgentState.current, hretrieved, htool', ← List.append_assoc] at hblock'
    rcases List.mem_append.1 hblock' with hblock' | hblock'
    · exact h.current block' hblock'
    · rw [List.mem_singleton.1 hblock']
      exact hblock
  unfold ticketToolNode
  dsimp only
  split
  · refine .of_moved rfl (.of_unanswered (h.quiet (by decide)) (by decide)
      (fun _ => hadmitted.asked) (fun _ => hadmitted) (hcurrent _ _ rfl rfl .missingId)
      (fun hle => absurd hle (by decide)) (fun hle => absurd hle (by decide)) nofun ?_ hunanswered)
    intro id hid
    exact absurd (by simpa using hid) (hno id)
  · rename_i ticketId hticket
    have hpos : 0 < ticketId := of_decide_eq_true (Option.filter_eq_some_iff.1 hticket).2
    have heffects : EffectsOk t w input 2 (before ++ [.lookup ticketId]) := by
      refine h.append ?_ ?_ le_rfl (by decide) hadmitted
      · intro effect heffect
        rw [List.mem_singleton.1 heffect]
        exact hpos
      · intro effect heffect
        rw [List.mem_singleton.1 heffect]
        rfl
    have hlookup : ∀ id, .lookup id ∈ before ++ [.lookup ticketId] → id = ticketId := by
      intro id hid
      rcases List.mem_append.1 hid with hid | hid
      · exact absurd hid (hno id)
      · exact Effect.lookup.inj (List.mem_singleton.1 hid)
    by_cases hsafe : evidenceIsSafe t (ticketText ticketId (w.lookup ticketId)) = true
    · rw [if_pos hsafe]
      refine .of_moved rfl (.of_unanswered heffects (by decide) (fun _ => hadmitted.asked)
        (fun _ => hadmitted) (hcurrent _ _ rfl rfl (.ticket hpos hsafe))
        (fun hle => absurd hle (by decide)) (fun hle => absurd hle (by decide)) nofun ?_
        hunanswered)
      intro id hid _
      rw [hlookup id hid]
      rfl
    · rw [if_neg hsafe]
      refine .of_moved rfl (.of_unanswered heffects (by decide) (fun _ => hadmitted.asked)
        (fun _ => hadmitted) (hcurrent _ _ rfl rfl .blocked)
        (fun hle => absurd hle (by decide)) (fun hle => absurd hle (by decide)) nofun ?_
        hunanswered)
      intro id hid hsafe'
      rw [hlookup id hid] at hsafe'
      exact absurd hsafe' hsafe

/-- What passes the guardrail passes the output rules at every point. -/
theorem validateOutput_of_emitted {t : Tables} {ctx : OutputContext} {streamed : List Char}
    {deltas front behind : List (List Char)}
    (h : (guardedStream t ctx streamed deltas).emitted = front ++ behind) (hne : front ≠ []) :
    validateOutput t ctx (streamed ++ front.flatten) = none := by
  induction deltas generalizing streamed front with
  | nil => exact absurd (List.append_eq_nil_iff.1 h.symm).1 hne
  | cons delta deltas ih =>
    rw [guardedStream] at h
    split_ifs at h with hdelta
    · exact ih h hne
    · cases hvalid : validateOutput t ctx (streamed ++ delta) with
      | some rule =>
        rw [hvalid] at h
        exact absurd (List.append_eq_nil_iff.1 h.symm).1 hne
      | none =>
        rw [hvalid] at h
        obtain ⟨first, front, rfl⟩ := List.exists_cons_of_ne_nil hne
        obtain ⟨rfl, hrest⟩ := List.cons.inj h
        rw [List.flatten_cons, ← List.append_assoc]
        by_cases hfront : front = []
        · rw [hfront, List.flatten_nil, List.append_nil]
          exact hvalid
        · exact ih hrest hfront

/-! ### The generation -/

/-- The effects of a generation that sends the texts. -/
def generationEffects (context : List Evidence) (sent : List (List Char)) : List Effect :=
  .generate context :: sent.map .token

section

variable {context : List Evidence} {sent : List (List Char)}

theorem not_mem_generationEffects {id : ℤ} : Effect.lookup id ∉ generationEffects context sent := by
  simp [generationEffects]

theorem eq_of_mem_generationEffects {context' : List Evidence}
    (h : .generate context' ∈ generationEffects context sent) : context' = context := by
  simpa [generationEffects] using h

theorem calls_generationEffects : calls (generationEffects context sent) = [.generate context] := by
  have hnone : calls (sent.map Effect.token) = [] := by
    refine List.filter_eq_nil_iff.2 fun effect heffect => ?_
    obtain ⟨text, -, rfl⟩ := List.mem_map.1 heffect
    exact Bool.false_ne_true
  exact congrArg (List.cons _) hnone

theorem tokens_generationEffects : tokens (generationEffects context sent) = sent := by
  rw [tokens, generationEffects, List.filterMap_cons_none rfl, List.filterMap_map]
  exact List.filterMap_some

/-- A generation with a context that is grounded. -/
theorem Arrived.generationOk (h : Arrived t w input n s before) (hrank : n.rank = 2)
    (hcontext : context = s.current ++ (usableMemory t input s).1)
    (hsent : sent ≠ [] → w.streaming = true) :
    EffectsOk t w input 1 (before ++ generationEffects context sent) := by
  have hgrounded : Grounded t w input context := ⟨s.current, h.current, hcontext⟩
  refine (hrank ▸ h.toEffectsOk).append ?_ ?_ (by simp [calls_generationEffects]) (by decide)
    (h.allowed (by omega))
  · intro effect heffect
    rcases List.mem_cons.1 heffect with rfl | heffect
    · exact hgrounded
    · obtain ⟨text, htext, rfl⟩ := List.mem_map.1 heffect
      exact hsent (List.ne_nil_of_mem htext)
  · intro effect heffect
    rcases List.mem_cons.1 heffect with rfl | heffect
    · rfl
    · obtain ⟨text, -, rfl⟩ := List.mem_map.1 heffect
      rfl

/-- What the output rules are told at a generation. -/
theorem Arrived.runContext (h : Arrived t w input n s before) (hrank : n.rank = 2) :
    RunContext t w input (before ++ generationEffects context sent)
      (outputContext input s (!context.isEmpty)) where
  jurisdiction := rfl
  status id hid hsafe :=
    h.status id ((List.mem_append.1 hid).resolve_right not_mem_generationEffects) hsafe
  grounded context' hcontext' := by
    have hbefore : .generate context' ∉ before := h.not_mem (hrank ▸ le_refl 2)
    rw [eq_of_mem_generationEffects ((List.mem_append.1 hcontext').resolve_left hbefore)]
    rfl

/-- A generation that sends texts that pass the output rules. -/
theorem Arrived.sentOk (h : Arrived t w input n s before) (hrank : n.rank = 2) {stopped : Bool}
    {passed : List (List Char)}
    (hsent : sent = passed ++ if stopped then [outputFallback.toList] else [])
    (hpassed : ∀ front behind, passed = front ++ behind → front ≠ [] →
      validateOutput t.toTables (outputContext input s (!context.isEmpty)) front.flatten = none) :
    Sent t w input (before ++ generationEffects context sent) stopped := by
  refine ⟨passed, ?_, fun front behind hsplit hne =>
    ⟨_, h.runContext hrank, hpassed front behind hsplit hne⟩⟩
  rw [tokens_append, h.tokens_eq_nil hrank.ge, tokens_generationEffects, hsent]
  rfl

/-- What is visited behind a generation. -/
theorem Arrived.guardrailOutput (h : Arrived t w input n s before) (hrank : n.rank = 2)
    (hcontext : context = s.current ++ (usableMemory t input s).1)
    (hstream : sent ≠ [] → w.streaming = true) (hcurrent : s'.current = s.current)
    (hstatus : s'.authoritativeStatus = s.authoritativeStatus)
    (hsent : ∃ stopped, Sent t w input (before ++ generationEffects context sent) stopped ∧
      (s'.route = .reject ∧ s'.answer = some outputFallback ∨
        stopped = false ∧ s'.route ≠ .reject ∧ (s'.error = none ∨ s'.answer = none))) :
    Arrived t w input .guardrailOutput s' (before ++ generationEffects context sent) where
  toEffectsOk := h.generationOk hrank hcontext hstream
  asked _ := (h.allowed (by omega)).asked
  allowed _ := h.allowed (by omega)
  current := hcurrent ▸ h.current
  toolContext hle := absurd hle (by decide)
  retrieved hle := absurd hle (by decide)
  noContext := nofun
  status id hid hsafe := hstatus.trans ((h.runContext hrank).status id hid hsafe)
  generated context' hcontext' := by
    have hbefore : .generate context' ∉ before := h.not_mem (hrank ▸ le_refl 2)
    rw [eq_of_mem_generationEffects ((List.mem_append.1 hcontext').resolve_left hbefore), hcontext,
      usableMemory, usableMemory, hcurrent]
  unanswered hle := absurd hle (by decide)
  asksModel _ := ⟨context, List.mem_append_right _ List.mem_cons_self⟩
  sent _ := hsent
  passed := nofun

end

/-- A generation, with a context that is grounded. -/
theorem lands_generation {nodeName notes : String} {context : List Evidence}
    {events : List GuardrailEvent} (h : Arrived t w input n s before)
    (hn : n = .generate ∨ n = .noContext)
    (hcontext : context = s.current ++ (usableMemory t input s).1) :
    Lands t w input n before (generationNode t w input s nodeName notes context events) := by
  have hrank : n.rank = 2 := by rcases hn with rfl | rfl <;> rfl
  have hnext (final : AgentState κ) : n.next final = some .guardrailOutput := by
    rcases hn with rfl | rfl <;> rfl
  obtain ⟨hroute, herror, hanswer⟩ := h.unanswered hrank.ge
  unfold generationNode
  dsimp only
  generalize hstreamed : (if w.streaming = true then
    guardedStream t.toTables (outputContext input s (!context.isEmpty)) []
      (w.generate context).deltas else (⟨none, []⟩ : Streamed)) = streamed
  have hstream : streamed ≠ ⟨none, []⟩ → w.streaming = true := by
    intro hne
    by_contra hno
    exact hne (hstreamed.symm.trans (if_neg hno))
  have hpassed : ∀ front behind, streamed.emitted = front ++ behind → front ≠ [] →
      validateOutput t.toTables (outputContext input s (!context.isEmpty)) front.flatten =
        none := by
    intro front behind hsplit hne
    subst hstreamed
    split_ifs at hsplit with hstream
    · exact validateOutput_of_emitted hsplit hne
    · exact absurd (List.append_eq_nil_iff.1 hsplit.symm).1 hne
  have hemitted : streamed.emitted ≠ [] → w.streaming = true := by
    intro hne
    refine hstream ?_
    rintro rfl
    exact hne rfl
  have hunstopped : Sent t w input (before ++ generationEffects context streamed.emitted) false :=
    h.sentOk hrank (List.append_nil _).symm hpassed
  split
  · rename_i ruleId hblocked
    have heffects : .generate context :: streamed.emitted.map Effect.token ++
        [.token outputFallback.toList] =
          generationEffects context (streamed.emitted ++ [outputFallback.toList]) := by
      simp [generationEffects]
    have hstreaming : w.streaming = true := by
      refine hstream ?_
      rintro rfl
      cases hblocked
    rw [heffects]
    exact .of_moved (hnext _) (h.guardrailOutput hrank hcontext (fun _ => hstreaming) rfl rfl
      ⟨true, h.sentOk hrank rfl hpassed, .inl ⟨rfl, rfl⟩⟩)
  · have heffects := h.generationOk hrank hcontext hemitted
    split
    · exact .of_raised ⟨heffects.ok, heffects.ordered, heffects.admitted,
        ⟨false, hunstopped, nofun⟩, nofun⟩
    · exact .of_moved (hnext _) (h.guardrailOutput hrank hcontext hemitted rfl rfl
        ⟨false, hunstopped, .inr ⟨rfl, hroute, .inr hanswer⟩⟩)
    · exact .of_moved (hnext _) (h.guardrailOutput hrank hcontext hemitted rfl rfl
        ⟨false, hunstopped, .inr ⟨rfl, hroute, .inl herror⟩⟩)

/-! ### The end of a run -/

/-- What the output rules are told at the end of a run. -/
theorem Arrived.finalContext (h : Arrived t w input n s effects) :
    RunContext t w input effects
      (outputContext input s (!(s.current ++ (usableMemory t input s).1).isEmpty)) where
  jurisdiction := rfl
  status := h.status
  grounded context hcontext := by
    rw [h.generated context hcontext]
    rfl

/-- The empty answer does not pass. -/
theorem exists_answer_of_passes {answer : Option String} {tables : Tables} {ctx : OutputContext}
    (h : validateOutput tables ctx (answer.getD "").toList = none) :
    ∃ text, answer = some text := by
  cases answer with
  | none => cases h
  | some text => exact ⟨text, rfl⟩

theorem lands_guardrailOutput (h : Arrived t w input .guardrailOutput s before) :
    Lands t w input .guardrailOutput before (guardrailOutputNode t w input s) := by
  obtain ⟨stopped, hsent, hstate⟩ := h.sent (by decide)
  have hquiet : EffectsOk t w input 0 (before ++ []) := h.quiet (by decide)
  have hsent' : Sent t w input (before ++ []) stopped := by rwa [List.append_nil]
  unfold guardrailOutputNode
  dsimp only
  split
  · refine .of_ended rfl (.of_sent hquiet hsent' (fun _ => ⟨rfl, rfl⟩) ?_)
    exact .refused (by simp [fixedAnswers]) rfl rfl
  · rename_i hpasses
    rcases hstate with ⟨hroute, hanswer⟩ | ⟨rfl, hroute, herror⟩
    · refine .of_ended (if_pos hroute) (.of_sent hquiet hsent' (fun _ => ⟨hroute, hanswer⟩) ?_)
      exact .refused (by simp [fixedAnswers]) hroute hanswer
    · obtain ⟨text, hanswer⟩ := exists_answer_of_passes hpasses
      have hnone : s.error = none := herror.resolve_right (by simp [hanswer])
      rw [hanswer] at hpasses
      refine .of_moved (m := .memorySelfeval) (if_neg hroute) ?_
      rw [List.append_nil] at hsent' ⊢
      exact
        { ok := h.ok
          ordered := h.ordered
          above := fun effect heffect => (Nat.zero_le _).trans_lt (h.above effect heffect)
          admitted := h.admitted
          asked := fun _ => h.asked (by decide)
          allowed := fun _ => h.allowed (by decide)
          current := h.current
          toolContext := fun hle => absurd hle (by decide)
          retrieved := fun hle => absurd hle (by decide)
          noContext := fun heq => by cases heq
          status := h.status
          generated := h.generated
          unanswered := fun hle => absurd hle (by decide)
          asksModel := fun _ => h.asksModel (by decide)
          sent := fun _ => ⟨false, hsent', .inr ⟨rfl, hroute, herror⟩⟩
          passed := fun _ => ⟨hroute, hnone, text, hanswer, hpasses⟩ }

theorem lands_memorySelfeval (h : Arrived t w input .memorySelfeval s before) :
    Lands t w input .memorySelfeval before (memorySelfevalNode s) := by
  obtain ⟨stopped, hsent, hstate⟩ := h.sent (by decide)
  obtain ⟨hroute, herror, text, hanswer, hpasses⟩ := h.passed rfl
  refine .of_ended rfl ?_
  rw [List.append_nil]
  refine .of_sent h.toEffectsOk hsent (fun hstopped => ?_) ?_
  · rcases hstate with hstate | ⟨rfl, -⟩
    · exact absurd hstate.1 hroute
    · cases hstopped
  · exact .answered hroute herror hanswer (h.asksModel (by decide)) h.finalContext hpasses

theorem lands (h : Arrived t w input n s before) :
    Lands t w input n before (n.visit t w input s) := by
  cases n with
  | receiveQuestion => exact lands_receiveQuestion h
  | guardrailInput => exact lands_guardrailInput h
  | route => exact lands_route h
  | retrieve => exact lands_retrieve h
  | ticketTool => exact lands_ticketTool h
  | generate => exact lands_generation h (.inl rfl) rfl
  | noContext =>
    refine lands_generation h (.inr rfl) ?_
    rw [h.noContext rfl, List.nil_append, usableMemory, h.noContext rfl]
  | guardrailOutput => exact lands_guardrailOutput h
  | memorySelfeval => exact lands_memorySelfeval h

theorem invariant_agentGraph :
    (agentGraph t w input).Invariant (Arrived t w input) (Finished t w input) where
  raised {n s before effects} hat hvisit := by
    have hlands := lands hat
    rw [show n.visit t w input s = (none, effects) from hvisit] at hlands
    exact hlands.raised rfl
  ended {n s s' before effects} hat hvisit hnext := by
    have hlands := lands hat
    rw [show n.visit t w input s = (some s', effects) from hvisit] at hlands
    exact hlands.ended s' rfl hnext
  moved {n s s' m before effects} hat hvisit hnext := by
    have hlands := lands hat
    rw [show n.visit t w input s = (some s', effects) from hvisit] at hlands
    exact hlands.moved s' m rfl hnext

theorem arrived_initial : Arrived t w input .receiveQuestion (.initial : AgentState κ) [] where
  ok := by simp
  ordered := List.Pairwise.nil
  above := by simp
  admitted := absurd rfl
  asked hlt := absurd hlt (by decide)
  allowed hlt := absurd hlt (by decide)
  current := by simp [AgentState.current, AgentState.initial]
  toolContext _ := rfl
  retrieved _ := rfl
  noContext := nofun
  status := by simp
  generated := by simp
  unanswered _ := ⟨nofun, rfl, rfl⟩
  asksModel hlt := absurd hlt (by decide)
  sent hlt := absurd hlt (by decide)
  passed := nofun

theorem finished_invoke : Finished t w input
    ((agentGraph t w input).invoke .receiveQuestion .initial).1
    ((agentGraph t w input).invoke .receiveQuestion .initial).2 :=
  invariant_agentGraph.invoke arrived_initial

/-! ## Runs -/

/-- **What is called, with what, and when.**  Nothing is called for a question that is not admitted;
otherwise the routing model, the knowledge base, the ticket tool and the generation model are called
at most once each, in this order, and the generation model with evidence that is grounded. -/
theorem calls_of_runAgent (t : Normalizer) (w : Providers κ) (input : AgentInput)
    (traceId : String) :
    ((runAgent t w input traceId).2 ≠ [] → Admitted t w input) ∧
      ((calls (runAgent t w input traceId).2).Pairwise fun a b => b.rank < a.rank) ∧
      ∀ effect ∈ (runAgent t w input traceId).2, effect.Ok t w input :=
  ⟨finished_invoke.admitted, finished_invoke.ordered, finished_invoke.ok⟩

theorem status_of_reject {traceId : String} (h : s.route = .reject) :
    (s.result traceId).status = .rejected := by
  simp [AgentState.result, h]

theorem status_of_error {traceId : String} (h : s.route ≠ .reject)
    (herror : s.error = some "retrieval_failed") : (s.result traceId).status = .error := by
  simp [AgentState.result, h, herror]

theorem status_of_answer {traceId : String} (h : s.route ≠ .reject) (herror : s.error = none) :
    (s.result traceId).status = .ok := by
  simp [AgentState.result, h, herror]

variable (t w input) in
/-- What a run answers: a text that passes the output rules, no answer if the knowledge base failed,
and a fixed answer otherwise. -/
def AnswerOk (effects : List Effect) (result : GraphResult κ) : Prop :=
  match result.status with
  | .ok => ∃ text ctx, result.answer = some text ∧ (∃ context, .generate context ∈ effects) ∧
      RunContext t w input effects ctx ∧ validateOutput t.toTables ctx text.toList = none
  | .error => result.answer = none ∧ w.points = none
  | .rejected => (result.answer = none ∧ blank input.question.toList = true) ∨
      ∃ text ∈ fixedAnswers, result.answer = some text

/-- Providers that answer every question in the same way. -/
def steadyProviders : Providers Unit where
  apiKey := false
  ticketInQuestion := some 4
  routing := .raised
  minScore := 0
  points := some []
  lookup _ := ⟨.notFound, none, 0⟩
  generate _ := ⟨["Not found.".toList], .answered "Not found." none none⟩
  streaming := true
  elapsed _ := 0

/-- **What the client is sent.** -/
theorem tokens_of_runAgent (t : Normalizer) (w : Providers κ) (input : AgentInput)
    (traceId : String) :
    ∃ stopped, Sent t w input (runAgent t w input traceId).2 stopped ∧
      (w.streaming = false → tokens (runAgent t w input traceId).2 = []) ∧
      (stopped = true → ∃ result, (runAgent t w input traceId).1 = some result ∧
        result.status = .rejected ∧ result.answer = some outputFallback) := by
  have hfinished : Finished t w input _ _ := finished_invoke
  obtain ⟨stopped, hsent, hstopped⟩ := hfinished.sent
  refine ⟨stopped, hsent, fun hstreaming => ?_, fun hstop => ?_⟩
  · refine List.eq_nil_iff_forall_not_mem.2 fun text htext => ?_
    obtain ⟨effect, heffect, htoken⟩ := List.mem_filterMap.1 htext
    have hok := hfinished.ok effect heffect
    cases effect with
    | token _ => exact absurd hstreaming (by simp [show w.streaming = true from hok])
    | routingModel _ | retrieve _ _ | lookup _ | generate _ => cases htoken
  · obtain ⟨final, hfinal, hroute, hanswer⟩ := hstopped hstop
    exact ⟨final.result traceId, congrArg (Option.map _) hfinal, status_of_reject hroute, hanswer⟩

end Agents

end TrackFlow
