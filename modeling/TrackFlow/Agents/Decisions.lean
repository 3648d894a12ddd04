import TrackFlow.Agents.MemorySession

/-!
# Repeated memory decisions

A client that has lost the answer to its decision sends the decision again.  `decide` finds the row
of its identifier and returns it, if the request is the one that the row was made of.  The row does
not hold the candidate of an edit, so `_require_identical` compares it with the proposal.  Beside
the sessions, `prune_once` deletes pending proposals that nobody has locked.

* `accepting` : the protocol with the deletions, and a log of the decisions that were committed.
* `lastEdit` : the candidate of the last accepted edit of a proposal.
* `Retained` : the invariant; rows stay, and a proposal says what its last edit said.
* `repeated_decision_returned_iff` : **when a repeated decision is returned.**
* `edited_twice` : the run in which an accepted edit is refused when it is repeated.
-/

namespace TrackFlow

namespace Agents

open RowLock

/-- The candidate of an edit. -/
def Action.edited : Action → Option CandidateValues
  | .edit edited => some edited
  | _ => none

/-- The decision that a statement of a session commits, with its row. -/
def Loc.accepts : Loc → Choice → Option (DecisionCall × Decision)
  | .flushing (.decide call) (.decision audit) _ [], .ok _ _ => some (call, audit)
  | _, _ => none

/-- The sessions, the decisions that were accepted, the last one first, and the identifiers of the
proposals that were deleted. -/
structure Accepting (ι : Type) where
  state : State ι Db RowKey Write Loc
  accepted : List (DecisionCall × Decision)
  pruned : List String

/-- A statement of a session, or a batch of `prune_once`. -/
inductive MemoryEvent (ι : Type)
  | session (i : ι) (c : Choice)
  | prune (proposalIds : List String)

/-- A proposal that `delete_expired_pending` leaves alone, because it is not one of those that have
expired, is not pending, or is locked. -/
def Accepting.keeps {ι : Type} (s : Accepting ι) (proposalIds : List String) (p : Proposal) :
    Bool :=
  !decide (p.id ∈ proposalIds ∧ p.status = .pending) || (s.state.owner (.proposal p.id)).isSome

/-- The tables with some of their proposals. -/
def Db.filterProposals (db : Db) (keep : Proposal → Bool) : Db :=
  { db with proposals := db.proposals.filter keep }

/-- The protocol with the deletions and the log. -/
def accepting (P : MemoryPrimitives) (ι : Type) [DecidableEq ι] :
    Machine (Accepting ι) (MemoryEvent ι) where
  next s
    | .session i c => ((protocol P).next s.state (i, c)).map fun state =>
      { s with state, accepted := ((s.state.session i).loc.accepts c).toList ++ s.accepted }
    | .prune proposalIds => some { s with
        state := { s.state with db := s.state.db.filterProposals (s.keeps proposalIds) }
        pruned := ((s.state.db.proposals.filter fun p => !s.keeps proposalIds p).map Proposal.id) ++
          s.pruned }

/-- The sessions at their start, on some tables. -/
def Accepting.start {ι : Type} (db : Db) : Accepting ι :=
  ⟨State.start db fun _ => .idle .none, [], []⟩

/-- The candidate of the last accepted edit of a proposal. -/
def lastEdit (accepted : List (DecisionCall × Decision)) (proposalId : String) :
    Option CandidateValues :=
  accepted.findSome? fun a => if a.1.proposalId = proposalId then a.1.action.edited else none

/-! ## What the writes do to the rows -/

/-- The write leaves the candidates of the proposals and the decisions alone. -/
def Write.IsPlain : Write → Prop
  | .setCandidate .. => False
  | .insertDecision _ => False
  | _ => True

section

variable {P : MemoryPrimitives} {db : Db} {ws : List Write} {w : Write} {proposalId : String}
  {p : Proposal}

/-- An update of some proposals that leaves their identifiers alone. -/
theorem find?_map_id {f : Proposal → Proposal} (hid : ∀ p, (f p).id = p.id)
    (proposals : List Proposal) :
    ((proposals.map f).find? fun p => p.id = proposalId) =
      (proposals.find? fun p => p.id = proposalId).map f := by
  rw [List.find?_map]
  congr 2
  funext p
  simp [hid]

theorem getProposal_install (hw : ∀ values traceId, w ≠ .setCandidate proposalId values traceId)
    (hp : db.getProposal proposalId = some p) :
    ∃ p', (w.install db).getProposal proposalId = some p' ∧ p'.values = p.values := by
  have hid : p.id = proposalId := by simpa using List.find?_some hp
  cases w with
  | insertProposal q =>
    refine ⟨p, ?_, rfl⟩
    simp only [Db.getProposal, Write.install, List.find?_append] at hp ⊢
    rw [hp]
    rfl
  | setStatus id status =>
    refine ⟨_, (find?_map_id (fun q => ?_) db.proposals).trans (congrArg (Option.map _) hp), ?_⟩
    · split_ifs <;> rfl
    · dsimp only
      split_ifs <;> rfl
  | setCandidate id values traceId =>
    refine ⟨_, (find?_map_id (fun q => ?_) db.proposals).trans (congrArg (Option.map _) hp), ?_⟩
    · split_ifs <;> rfl
    · have hne : p.id ≠ id := fun he => hw values traceId (by rw [← hid, he])
      simp only [hne, if_false]
  | _ => exact ⟨p, hp, rfl⟩

theorem getProposal_setCandidate {values : CandidateValues} {traceId : String}
    (hp : db.getProposal proposalId = some p) :
    ((Write.setCandidate proposalId values traceId).install db).getProposal proposalId =
      some { p with values, traceId } := by
  have hid : p.id = proposalId := by simpa using List.find?_some hp
  refine (find?_map_id (fun q => ?_) db.proposals).trans ((congrArg (Option.map _) hp).trans ?_)
  · split_ifs <;> rfl
  · rw [Option.map_some, if_pos hid]

/-- A deletion leaves the proposal that is found. -/
theorem getProposal_filterProposals {keep : Proposal → Bool} (hkeep : keep p = true)
    (hp : db.getProposal proposalId = some p) :
    (db.filterProposals keep).getProposal proposalId = some p := by
  obtain ⟨hid, before, behind, hrows, hbefore⟩ := List.find?_eq_some_iff_append.1 hp
  refine List.find?_eq_some_iff_append.2 ⟨hid, before.filter keep, behind.filter keep, ?_, ?_⟩
  · rw [Db.filterProposals, hrows, List.filter_append, List.filter_cons_of_pos hkeep]
  · exact fun q hq => hbefore q (List.mem_of_mem_filter hq)

/-- A proposal that is found stays found. -/
theorem exists_getProposal_install (w : Write) (hp : db.getProposal proposalId = some p) :
    ∃ p', (w.install db).getProposal proposalId = some p' := by
  by_cases hw : ∃ values traceId, w = .setCandidate proposalId values traceId
  · obtain ⟨values, traceId, rfl⟩ := hw
    exact ⟨_, getProposal_setCandidate hp⟩
  · obtain ⟨p', hp', -⟩ := getProposal_install (fun values traceId h => hw ⟨values, traceId, h⟩) hp
    exact ⟨p', hp'⟩

theorem exists_getProposal_installAll (ws : List Write)
    (hp : ∃ p, db.getProposal proposalId = some p) :
    ∃ p', ((protocol P).installAll db ws).getProposal proposalId = some p' := by
  induction ws generalizing db with
  | nil => exact hp
  | cons w ws ih =>
    obtain ⟨p, hp⟩ := hp
    exact ih (exists_getProposal_install w hp)

theorem getProposal_installAll
    (hws : ∀ w ∈ ws, ∀ values traceId, w ≠ .setCandidate proposalId values traceId)
    (hp : db.getProposal proposalId = some p) :
    ∃ p', ((protocol P).installAll db ws).getProposal proposalId = some p' ∧
      p'.values = p.values := by
  induction ws generalizing db p with
  | nil => exact ⟨p, hp, rfl⟩
  | cons w ws ih =>
    obtain ⟨p₁, hp₁, hvalues₁⟩ := getProposal_install (hws w List.mem_cons_self) hp
    obtain ⟨p₂, hp₂, hvalues₂⟩ := ih (fun w hw => hws w (List.mem_cons_of_mem _ hw)) hp₁
    exact ⟨p₂, hp₂, hvalues₂.trans hvalues₁⟩

/-- A decision that is found stays the one that is found. -/
theorem decision_install_of_some {decisionId : String} {d : Decision} (w : Write)
    (hd : db.decision decisionId = some d) : (w.install db).decision decisionId = some d := by
  cases w with
  | insertDecision e =>
    simp only [Db.decision, Write.install, List.find?_append] at hd ⊢
    rw [hd]
    rfl
  | _ => exact hd

theorem decision_installAll_of_some {decisionId : String} {d : Decision} (ws : List Write)
    (hd : db.decision decisionId = some d) :
    ((protocol P).installAll db ws).decision decisionId = some d := by
  induction ws generalizing db with
  | nil => exact hd
  | cons w ws ih => exact ih (decision_install_of_some w hd)

theorem decision_install {decisionId : String}
    (hw : ∀ d, w = .insertDecision d → d.decisionId ≠ decisionId) :
    (w.install db).decision decisionId = db.decision decisionId := by
  cases w with
  | insertDecision e =>
    simp only [Db.decision, Write.install, List.find?_append]
    rw [List.find?_singleton, if_neg (by simpa using hw e rfl), Option.or_none]
  | _ => rfl

theorem decision_installAll {decisionId : String}
    (hws : ∀ w ∈ ws, ∀ d, w = .insertDecision d → d.decisionId ≠ decisionId) :
    ((protocol P).installAll db ws).decision decisionId = db.decision decisionId := by
  induction ws generalizing db with
  | nil => rfl
  | cons w ws ih =>
    exact (ih fun w hw => hws w (List.mem_cons_of_mem _ hw)).trans
      (decision_install (hws w List.mem_cons_self))

end

/-! ## What a session knows -/

/-- The entries under whose locks the decisions are written. -/
def decisionGuard : Write → List RowKey
  | .insertDecision d => [.decision d.decisionId]
  | _ => []

section

variable (P : MemoryPrimitives)

/-- The session has locked the proposal of its call. -/
def Secured (held : RowKey → Prop) (db : Db) (call : DecisionCall) : Prop :=
  held (.proposal call.proposalId) ∧ ∃ p, db.getProposal call.proposalId = some p

/-- What a session knows that executes the writes of a list, those in `done` first. -/
inductive DecisionPlan (held : RowKey → Prop) (db : Db) (done : List Write) :
    Operation → Reply → List Write → Prop
  /-- It decides nothing. -/
  | other (operation : Operation) (reply : Reply) (plan : List Write)
      (undecided : ∀ call, operation ≠ .decide call) (plain : ∀ w ∈ plan, w.IsPlain) :
      DecisionPlan held db done operation reply plan
  /-- It has locked the proposal of its call, and will add its row after writes that set the
  candidate of an edit. -/
  | decide (call : DecisionCall) (outcome : DecisionOutcome) (factId : Option String)
      (writes : List Write) (secured : Secured held db call)
      (edits : (∃ edited, call.action.edited = some edited ∧ writes =
          [.setCandidate call.proposalId (candidateValues P edited) call.traceId]) ∨
        (call.action.edited = none ∧ ∀ w ∈ writes, w.IsPlain))
      (inserted : .insertDecision (call.audit outcome factId) ∈ done →
        held (.decision call.decisionId) ∧ db.decision call.decisionId = none) :
      DecisionPlan held db done (.decide call) (.decision (call.audit outcome factId))
        (writes ++ [.insertDecision (call.audit outcome factId)])

/-- The assertion about a session. -/
def DecisionsOk (loc : Loc) (ws : List Write) (held : RowKey → Prop) (db : Db) : Prop :=
  match loc with
  | .locked call _ => ws = [] ∧ Secured held db call
  | .approving call _ _ | .consolidating call _ _ =>
    ws = [] ∧ call.action.edited = none ∧ Secured held db call
  | .flushing operation reply done todo =>
    ws = done ∧ DecisionPlan P held db done operation reply (done ++ todo)
  | _ => ws = []

end

section

variable {P : MemoryPrimitives} {held held' : RowKey → Prop} {db : Db} {ws done plan : List Write}
  {w : Write} {operation : Operation} {reply : Reply} {call : DecisionCall} {p : Proposal}
  {c : Choice} {o : Outcome RowKey Write Loc}

/-- What `decide` does with the proposal that it has locked. -/
theorem locked_cases (h : exec P db (.locked call p) c = some o) :
    (∃ loc, o = .rollback loc ∧ loc.IsQuiet) ∨
      (∃ edited, call.action.edited = some edited ∧
        o = .proceed [] [] (call.flush .edited none
          [.setCandidate call.proposalId (candidateValues P edited) call.traceId])) ∨
      (call.action.edited = none ∧
        (o = .proceed [] [] (call.flush .rejected none [.setStatus call.proposalId .rejected]) ∨
          o = .proceed [] [] (.approving call p (candidateValues P p.values)))) := by
  cases c with
  | ok valid id =>
    simp only [exec, decideExec] at h
    split at h
    · cases h
      exact .inl ⟨_, rfl, trivial⟩
    split at h
    · cases h
      exact .inl ⟨_, rfl, trivial⟩
    split at h
    · cases h
      exact .inl ⟨_, rfl, trivial⟩
    split at h
    · rename_i edited haction
      split at h <;> cases h
      · exact .inl ⟨_, rfl, trivial⟩
      · exact .inr (.inl ⟨edited, by rw [haction]; rfl, rfl⟩)
    · rename_i haction
      cases h
      exact .inr (.inr ⟨by rw [haction]; rfl, .inl rfl⟩)
    · rename_i haction
      split at h <;> cases h
      · exact .inl ⟨_, rfl, trivial⟩
      · exact .inr (.inr ⟨by rw [haction]; rfl, .inr rfl⟩)
  | fail =>
    cases h
    exact .inl ⟨_, rfl, trivial⟩
  | _ => cases h

theorem Secured.mono (h : Secured held db call) (hheld : ∀ k, held k → held' k) :
    Secured held' db call :=
  ⟨hheld _ h.1, h.2⟩

theorem Secured.installAll (h : Secured held db call) (ws : List Write) :
    Secured held ((protocol P).installAll db ws) call :=
  ⟨h.1, exists_getProposal_installAll ws h.2⟩

theorem decisionGuard_of_isPlain (h : w.IsPlain) : decisionGuard w = [] := by
  cases w <;> first | rfl | exact h.elim

/-- Only the last write of a decision adds its row. -/
theorem DecisionPlan.guarded (h : DecisionPlan P held db done operation reply plan)
    (hsub : ∀ w ∈ done, w ∈ plan) : ∀ w ∈ done, ∀ k ∈ decisionGuard w, held k := by
  intro w hw k hk
  have hplan := hsub w hw
  cases h with
  | other _ _ _ undecided plain =>
    rw [decisionGuard_of_isPlain (plain w hplan)] at hk
    cases hk
  | decide call outcome factId writes secured edits inserted =>
    rcases List.mem_append.1 hplan with hw' | hw'
    · rcases edits with ⟨edited, -, rfl⟩ | ⟨-, hplain⟩
      · rw [List.mem_singleton.1 hw'] at hk
        cases hk
      · rw [decisionGuard_of_isPlain (hplain w hw')] at hk
        cases hk
    · rw [List.mem_singleton.1 hw'] at hk hw
      rw [List.mem_singleton.1 hk]
      exact (inserted hw).1

/-- The next write is executed. -/
theorem DecisionPlan.push {todo : List Write}
    (h : DecisionPlan P held db done operation reply (done ++ w :: todo))
    (hfree : w.conflicts ((protocol P).installAll db done) = false) :
    DecisionPlan P (fun k => held k ∨ k ∈ w.locks) db (done ++ [w]) operation reply
      (done ++ [w] ++ todo) := by
  rw [List.append_assoc, List.singleton_append]
  generalize hplan : done ++ w :: todo = plan at h
  cases h with
  | other _ _ _ undecided plain => exact .other _ _ _ undecided plain
  | decide call outcome factId writes secured edits inserted =>
    refine .decide call outcome factId writes (secured.mono fun _ => .inl) edits fun hmem => ?_
    rcases List.mem_append.1 hmem with hmem | hmem
    · exact ⟨.inl (inserted hmem).1, (inserted hmem).2⟩
    · have hw := List.mem_singleton.1 hmem
      subst hw
      refine ⟨.inr List.mem_cons_self, ?_⟩
      cases hd : db.decision call.decisionId with
      | none => rfl
      | some d =>
        have hfound := decision_installAll_of_some (P := P) done hd
        have hno := List.any_eq_false.1 hfree d (List.mem_of_find?_eq_some hfound)
        have hid := List.find?_some hfound
        simp only [decide_eq_true_eq] at hid hno
        exact absurd hid hno

/-- What others commit. -/
theorem DecisionPlan.stable (h : DecisionPlan P held db done operation reply plan)
    (hfree : ∀ w ∈ ws, ∀ k ∈ decisionGuard w, ¬held k) :
    DecisionPlan P held ((protocol P).installAll db ws) done operation reply plan := by
  cases h with
  | other _ _ _ undecided plain => exact .other _ _ _ undecided plain
  | decide call outcome factId writes secured edits inserted =>
    refine .decide call outcome factId writes (secured.installAll ws) edits
      fun hmem => ⟨(inserted hmem).1, ?_⟩
    rw [decision_installAll, (inserted hmem).2]
    intro w hw d hd hid
    refine hfree w hw (.decision call.decisionId) ?_ (inserted hmem).1
    rw [hd, ← hid]
    exact List.mem_singleton_self _

theorem decisionsOk_of_isQuiet {loc : Loc} (h : loc.IsQuiet) : DecisionsOk P loc [] held db := by
  cases loc <;> first | rfl | exact h.elim

/-- The locked proposal is decided. -/
theorem leadsTo_locked (h : DecisionsOk P (.locked call p) ws held db)
    (he : exec P ((protocol P).installAll db ws) (.locked call p) c = some o) :
    o.LeadsTo (DecisionsOk P) ws held db ((protocol P).installAll db ws) := by
  obtain ⟨rfl, hsecured⟩ := h
  have hsecured : Secured (fun k => held k ∨ k ∈ ([] : List RowKey)) db call :=
    hsecured.mono fun _ => .inl
  rcases locked_cases he with ⟨loc, rfl, hquiet⟩ | ⟨edited, haction, rfl⟩ | ⟨haction, rfl | rfl⟩
  · exact decisionsOk_of_isQuiet hquiet
  · exact ⟨rfl, .decide call .edited none _ hsecured (.inl ⟨edited, haction, rfl⟩)
      fun hmem => (List.not_mem_nil hmem).elim⟩
  · exact ⟨rfl, .decide call .rejected none _ hsecured
      (.inr ⟨haction, List.forall_mem_singleton.2 trivial⟩)
      fun hmem => (List.not_mem_nil hmem).elim⟩
  · exact ⟨rfl, haction, hsecured⟩

/-- Proposals that nobody has locked are deleted. -/
theorem DecisionsOk.filterProposals {loc : Loc} {keep : Proposal → Bool}
    (h : DecisionsOk P loc ws held db)
    (hkeep : ∀ p ∈ db.proposals, held (.proposal p.id) → keep p = true) :
    DecisionsOk P loc ws held (db.filterProposals keep) := by
  have hsecured {call : DecisionCall} (h : Secured held db call) :
      Secured held (db.filterProposals keep) call := by
    obtain ⟨hheld, p, hp⟩ := h
    refine ⟨hheld, p, getProposal_filterProposals (hkeep p (List.mem_of_find?_eq_some hp) ?_) hp⟩
    have hid : p.id = call.proposalId := by simpa using List.find?_some hp
    rwa [hid]
  cases loc with
  | flushing operation reply done todo =>
    obtain ⟨hws, hplan⟩ := h
    refine ⟨hws, ?_⟩
    generalize done ++ todo = plan at hplan ⊢
    cases hplan with
    | other _ _ _ undecided plain => exact .other _ _ _ undecided plain
    | decide call outcome factId writes secured edits inserted =>
      exact .decide call outcome factId writes (hsecured secured) edits inserted
  | locked call p => exact ⟨h.1, hsecured h.2⟩
  | approving call p values => exact ⟨h.1, h.2.1, hsecured h.2.2⟩
  | consolidating call p values => exact ⟨h.1, h.2.1, hsecured h.2.2⟩
  | _ => exact h

/-- Every session knows what its writes to the decisions need, whatever the others commit. -/
def decisionAssertion (P : MemoryPrimitives) :
    Assertion (protocol P) decisionGuard (fun _ _ _ => True) where
  holds := DecisionsOk P
  guarded {loc ws held db} h := by
    cases loc with
    | flushing operation reply done todo =>
      obtain ⟨rfl, hplan⟩ := h
      exact hplan.guarded fun w hw => List.mem_append_left _ hw
    | locked call p =>
      obtain ⟨rfl, -⟩ := h
      exact fun w hw => (List.not_mem_nil hw).elim
    | approving call p values =>
      obtain ⟨rfl, -⟩ := h
      exact fun w hw => (List.not_mem_nil hw).elim
    | consolidating call p values =>
      obtain ⟨rfl, -⟩ := h
      exact fun w hw => (List.not_mem_nil hw).elim
    | _ =>
      cases (show ws = [] from h)
      exact fun w hw => (List.not_mem_nil hw).elim
  step {loc ws held db c busy o} h _ he := by
    cases Statement.of_exec he with
    | leave _ loc' quiet => exact decisionsOk_of_isQuiet quiet
    | commit operation reply done => rfl
    | write operation reply done todo w free =>
      obtain ⟨rfl, hplan⟩ := h
      exact ⟨rfl, hplan.push free⟩
    | propose before reply conversationId values traceId id =>
      cases (show ws = [] from h)
      exact ⟨rfl, .other _ _ _ (fun _ => nofun) (List.forall_mem_singleton.2 trivial)⟩
    | discard before conversationId p found =>
      cases (show ws = [] from h)
      exact ⟨rfl, .other _ _ _ (fun _ => nofun) (List.forall_mem_singleton.2 trivial)⟩
    | start before call => exact (List.append_nil ws).trans h
    | lock call p found =>
      cases (show ws = [] from h)
      have hid : p.id = call.proposalId := by simpa using List.find?_some found
      exact ⟨rfl, .inr (hid ▸ List.mem_singleton_self _), p, found⟩
    | edit call p edited pending => exact leadsTo_locked h he
    | reject call p pending => exact leadsTo_locked h he
    | approve call p pending => exact leadsTo_locked h he
    | consolidate call p values =>
      obtain ⟨rfl, hedited, hsecured⟩ := h
      exact ⟨rfl, hedited, hsecured.mono fun _ => .inl⟩
    | create call p values id absent =>
      obtain ⟨rfl, hedited, hsecured⟩ := h
      exact ⟨rfl, .decide call .approved (some id) _ (hsecured.mono fun _ => .inl)
        (.inr ⟨hedited, by simp [Write.IsPlain]⟩) fun hmem => (List.not_mem_nil hmem).elim⟩
    | confirm call p values fact found =>
      obtain ⟨rfl, hedited, hsecured⟩ := h
      exact ⟨rfl, .decide call .approved (some fact.id) _ (hsecured.mono fun _ => .inl)
        (.inr ⟨hedited, by simp [Write.IsPlain]⟩) fun hmem => (List.not_mem_nil hmem).elim⟩
  stable {loc ws held db ws'} h hfree := by
    cases loc with
    | flushing operation reply done todo => exact ⟨h.1, h.2.stable hfree⟩
    | locked call p => exact ⟨h.1, h.2.installAll ws'⟩
    | approving call p values => exact ⟨h.1, h.2.1, h.2.2.installAll ws'⟩
    | consolidating call p values => exact ⟨h.1, h.2.1, h.2.2.installAll ws'⟩
    | _ => exact h

end

/-! ## Runs -/

/-- What the tables keep of the decisions that were accepted. -/
structure Retained (P : MemoryPrimitives) (accepted : List (DecisionCall × Decision))
    (pruned : List String) (db : Db) : Prop where
  /-- The row of a decision is the one that is found under its identifier. -/
  decisions : ∀ a ∈ accepted, db.decision a.1.decisionId = some a.2 ∧
    ∃ outcome factId, a.2 = a.1.audit outcome factId
  proposals : ∀ a ∈ accepted, a.1.proposalId ∉ pruned →
    ∃ p, db.getProposal a.1.proposalId = some p
  /-- A proposal says what its last edit said. -/
  values : ∀ proposalId edited, proposalId ∉ pruned → lastEdit accepted proposalId = some edited →
    ∀ p, db.getProposal proposalId = some p → p.values = candidateValues P edited

section

variable {P : MemoryPrimitives} {ι : Type} [DecidableEq ι] {db : Db} {held : RowKey → Prop}
  {plan : List Write} {operation : Operation} {reply : Reply}
  {accepted : List (DecisionCall × Decision)} {pruned : List String} {s s' : Accepting ι}
  {call : DecisionCall} {audit : Decision}

theorem lastEdit_eq_some {proposalId : String} {edited : CandidateValues}
    (h : lastEdit accepted proposalId = some edited) :
    ∃ a ∈ accepted, a.1.proposalId = proposalId := by
  obtain ⟨a, ha, he⟩ := List.exists_of_findSome?_eq_some h
  split_ifs at he with hid
  exact ⟨a, ha, hid⟩

/-- The writes leave the candidate of a proposal alone. -/
theorem Retained.values_installAll (h : Retained P accepted pruned db) {proposalId : String}
    {edited : CandidateValues} {p : Proposal} (hpruned : proposalId ∉ pruned)
    (hplan : ∀ w ∈ plan, ∀ values traceId, w ≠ .setCandidate proposalId values traceId)
    (hlast : lastEdit accepted proposalId = some edited)
    (hp : ((protocol P).installAll db plan).getProposal proposalId = some p) :
    p.values = candidateValues P edited := by
  obtain ⟨a, ha, rfl⟩ := lastEdit_eq_some hlast
  obtain ⟨q, hq⟩ := h.proposals a ha hpruned
  obtain ⟨p', hp', hvalues⟩ := getProposal_installAll (P := P) hplan hq
  rw [hp] at hp'
  cases hp'
  exact hvalues.trans (h.values _ edited hpruned hlast q hq)

theorem ne_setCandidate_of_isPlain {w : Write} (h : w.IsPlain) {proposalId : String}
    (values : CandidateValues) (traceId : String) :
    w ≠ .setCandidate proposalId values traceId := by
  rintro rfl
  exact h

theorem ne_insertDecision_of_isPlain {w : Write} (h : w.IsPlain) (d : Decision) :
    w ≠ .insertDecision d := by
  rintro rfl
  exact h

/-- The row of a decision is found after it has been added. -/
theorem decision_installAll_audit {outcome : DecisionOutcome} {factId : Option String}
    {writes : List Write} (hwrites : ∀ w ∈ writes, ∀ d, w ≠ .insertDecision d)
    (hnone : db.decision call.decisionId = none) :
    ((protocol P).installAll db
      (writes ++ [.insertDecision (call.audit outcome factId)])).decision call.decisionId =
      some (call.audit outcome factId) := by
  have hbefore : ((protocol P).installAll db writes).decision call.decisionId = none := by
    rw [decision_installAll fun w hw d hd => absurd hd (hwrites w hw d), hnone]
  rw [Protocol.installAll, List.foldl_append]
  change (((protocol P).installAll db writes).decisions ++ [call.audit outcome factId]).find?
    (fun d => d.decisionId = call.decisionId) = _
  rw [List.find?_append]
  change (((protocol P).installAll db writes).decision call.decisionId).or _ = _
  rw [hbefore, Option.none_or, List.find?_singleton]
  exact if_pos (decide_eq_true rfl)

/-- **What a commit keeps.** -/
theorem Retained.commit (h : Retained P accepted pruned db)
    (hplan : DecisionPlan P held db plan operation reply plan) (valid : Bool) (id : String) :
    Retained P (((Loc.flushing operation reply plan []).accepts (.ok valid id)).toList ++ accepted)
      pruned ((protocol P).installAll db plan) := by
  have hdecisions : ∀ a ∈ accepted,
      ((protocol P).installAll db plan).decision a.1.decisionId = some a.2 ∧
        ∃ outcome factId, a.2 = a.1.audit outcome factId :=
    fun a ha => ⟨decision_installAll_of_some plan (h.decisions a ha).1, (h.decisions a ha).2⟩
  have hproposals : ∀ a ∈ accepted, a.1.proposalId ∉ pruned →
      ∃ p, ((protocol P).installAll db plan).getProposal a.1.proposalId = some p :=
    fun a ha hpruned => exists_getProposal_installAll plan (h.proposals a ha hpruned)
  cases hplan with
  | other _ _ _ undecided plain =>
    have hnone : (Loc.flushing operation reply plan []).accepts (.ok valid id) = none := by
      cases operation with
      | decide call => exact absurd rfl (undecided call)
      | _ => rfl
    rw [hnone]
    exact ⟨hdecisions, hproposals, fun proposalId edited hpruned hlast p hp =>
      h.values_installAll hpruned (fun w hw => ne_setCandidate_of_isPlain (plain w hw)) hlast hp⟩
  | decide call outcome factId writes secured edits inserted =>
    obtain ⟨-, hnone⟩ := inserted (List.mem_append_right _ (List.mem_singleton_self _))
    change Retained P ((call, call.audit outcome factId) :: accepted) pruned _
    have hlast (proposalId : String) : lastEdit ((call, call.audit outcome factId) :: accepted)
        proposalId = (if call.proposalId = proposalId then call.action.edited else none).or
          (lastEdit accepted proposalId) := by
      rw [lastEdit, List.findSome?_cons]
      split
      · rename_i edited he
        rw [he, Option.some_or]
      · rename_i he
        rw [he, Option.none_or]
        rfl
    have hwrites : ∀ w ∈ writes, ∀ d, w ≠ .insertDecision d := by
      rcases edits with ⟨edited, -, rfl⟩ | ⟨-, plain⟩
      · exact List.forall_mem_singleton.2 fun d => nofun
      · exact fun w hw => ne_insertDecision_of_isPlain (plain w hw)
    refine ⟨List.forall_mem_cons.2 ⟨⟨decision_installAll_audit hwrites hnone, _, _, rfl⟩,
      hdecisions⟩,
      List.forall_mem_cons.2 ⟨fun _ => exists_getProposal_installAll _ secured.2, hproposals⟩,
      fun proposalId edited hpruned hedited p hp => ?_⟩
    rw [hlast] at hedited
    rcases edits with ⟨edited', haction, rfl⟩ | ⟨haction, plain⟩
    · by_cases hid : call.proposalId = proposalId
      · subst hid
        rw [if_pos rfl, haction, Option.some_or, Option.some_inj] at hedited
        obtain ⟨-, q, hq⟩ := secured
        have hset : ((Write.setCandidate call.proposalId (candidateValues P edited')
          call.traceId).install db).getProposal call.proposalId = some p := hp
        rw [getProposal_setCandidate hq, Option.some_inj] at hset
        rw [← hset, hedited]
      · rw [if_neg hid, Option.none_or] at hedited
        refine h.values_installAll hpruned (fun w hw values traceId => ?_) hedited hp
        simp only [List.cons_append, List.nil_append, List.mem_cons, List.not_mem_nil,
          or_false] at hw
        rcases hw with rfl | rfl
        · exact fun he => hid (Write.setCandidate.inj he).1
        · exact nofun
    · rw [haction, ite_self, Option.none_or] at hedited
      refine h.values_installAll hpruned (fun w hw => ?_) hedited hp
      rcases List.mem_append.1 hw with hw | hw
      · exact ne_setCandidate_of_isPlain (plain w hw)
      · rw [List.mem_singleton.1 hw]
        exact nofun

/-- What is accepted is committed. -/
theorem accepts_eq_none {loc : Loc} {c : Choice} {o : Outcome RowKey Write Loc}
    (he : exec P db loc c = some o) (ho : ∀ a, o ≠ .commit a) : loc.accepts c = none := by
  unfold Loc.accepts
  split
  · cases he
    exact absurd rfl (ho _)
  · rfl

/-- What a deletion keeps. -/
theorem Retained.prune (h : Retained P accepted pruned db) (keep : Proposal → Bool) :
    Retained P accepted (((db.proposals.filter fun p => !keep p).map Proposal.id) ++ pruned)
      (db.filterProposals keep) := by
  have hkept {a : DecisionCall × Decision} (ha : a ∈ accepted) (hpruned : a.1.proposalId ∉
      ((db.proposals.filter fun p => !keep p).map Proposal.id) ++ pruned) :
      ∃ p, db.getProposal a.1.proposalId = some p ∧
        (db.filterProposals keep).getProposal a.1.proposalId = some p := by
    obtain ⟨p, hp⟩ := h.proposals a ha fun hmem => hpruned (List.mem_append_right _ hmem)
    have hid : p.id = a.1.proposalId := by simpa using List.find?_some hp
    refine ⟨p, hp, getProposal_filterProposals ?_ hp⟩
    by_contra hdeleted
    refine hpruned (List.mem_append_left _ (List.mem_map.2 ⟨p, List.mem_filter.2
      ⟨List.mem_of_find?_eq_some hp, ?_⟩, hid⟩))
    simpa using hdeleted
  refine ⟨h.decisions, fun a ha hpruned => ?_, fun proposalId edited hpruned hlast p hp => ?_⟩
  · obtain ⟨p, -, hp⟩ := hkept ha hpruned
    exact ⟨p, hp⟩
  · obtain ⟨a, ha, rfl⟩ := lastEdit_eq_some hlast
    obtain ⟨q, hq, hq'⟩ := hkept ha hpruned
    rw [hp] at hq'
    cases hq'
    exact h.values _ edited (fun hmem => hpruned (List.mem_append_right _ hmem)) hlast p hq

/-- The invariant of the runs. -/
def Accepting.Sound (P : MemoryPrimitives) (s : Accepting ι) : Prop :=
  (decisionAssertion P).All s.state ∧ Retained P s.accepted s.pruned s.state.db

theorem Accepting.Sound.session {i : ι} {c : Choice} {state : State ι Db RowKey Write Loc}
    (h : s.Sound P) (hstep : (protocol P).next s.state (i, c) = some state) :
    Accepting.Sound P { s with
      state, accepted := ((s.state.session i).loc.accepts c).toList ++ s.accepted } := by
  refine ⟨(decisionAssertion P).all_next h.1 trivial hstep, ?_⟩
  obtain ⟨_, _, _, he, -, rfl⟩ | ⟨a, he, rfl⟩ | ⟨_, he, rfl⟩ := Protocol.next_cases hstep
  · rw [accepts_eq_none he (fun _ => nofun)]
    exact h.2
  · have hi := h.1 i
    rw [Protocol.view] at he ⊢
    generalize (s.state.session i).loc = loc at he hi
    cases Statement.of_exec he with
    | commit operation reply done =>
      obtain ⟨hws, hplan⟩ := hi
      rw [List.append_nil] at hplan
      rw [hws]
      cases c with
      | ok valid id => exact h.2.commit hplan valid id
      | _ => cases he
  · rw [accepts_eq_none he (fun _ => nofun)]
    exact h.2

/-- **What one step preserves.** -/
theorem Accepting.Sound.next {l : MemoryEvent ι} (h : s.Sound P)
    (hnext : (accepting P ι).next s l = some s') : s'.Sound P := by
  cases l with
  | session i c =>
    obtain ⟨state, hstep, rfl⟩ := Option.map_eq_some_iff.1 hnext
    exact h.session hstep
  | prune proposalIds =>
    cases hnext
    refine ⟨fun i => (h.1 i).filterProposals fun p _ howner => ?_, h.2.prune _⟩
    rw [Accepting.keeps, show s.state.owner (.proposal p.id) = some i from howner]
    exact Bool.or_true _

theorem Accepting.Sound.reachable {db₀ : Db} (h : (accepting P ι).Reachable (.start db₀) s) :
    s.Sound P := by
  refine h.invariant (Accepting.Sound P) ⟨?_, ?_⟩ fun _ _ _ h _ hnext => h.next hnext
  · have hstart : ∀ _ : ι, DecisionsOk P (.idle .none) [] (fun _ => False) db₀ := fun _ => rfl
    exact (decisionAssertion P).all_start hstart
  · exact ⟨List.forall_mem_nil _, List.forall_mem_nil _, fun _ _ _ h => nomatch h⟩

omit [DecidableEq ι] in
/-- An accepted edit is not the last one only because of another one. -/
theorem exists_lastEdit {edited : CandidateValues} (ha : (call, audit) ∈ accepted)
    (he : call.action.edited = some edited) :
    ∃ last, lastEdit accepted call.proposalId = some last := by
  refine Option.isSome_iff_exists.1 (List.findSome?_isSome_iff.2 ⟨_, ha, ?_⟩)
  rw [if_pos rfl, he]
  rfl

omit [DecidableEq ι] in
/-- What `_require_identical` compares of an accepted decision that is sent again. -/
theorem repeated_iff {outcome : DecisionOutcome} {factId : Option String} {traceId : String} :
    repeated P db { call with traceId } (call.audit outcome factId) =
        .decision (call.audit outcome factId) ↔
      ∀ edited, call.action.edited = some edited →
        (db.getProposal call.proposalId).map Proposal.values = some (candidateValues P edited) := by
  cases haction : call.action with
  | edit edited =>
    cases hp : db.getProposal call.proposalId <;>
      simp [repeated, DecisionCall.audit, haction, Action.edited, hp, eq_comm]
  | _ => simp [repeated, DecisionCall.audit, haction, Action.edited]

/-- **When a repeated decision is returned.**  In every reachable state, a decision that was
accepted and is sent again, by the same user in the same conversation, is answered with its row and
leaves all tables as they are if and only if it is no edit, or its proposal still is what it says.
Unless the proposal has been deleted, this is what the last accepted edit of it says. -/
theorem repeated_decision_returned_iff {db₀ : Db}
    (h : (accepting P ι).Reachable (.start db₀) s) (ha : (call, audit) ∈ s.accepted) {i : ι}
    (hi : (s.state.session i).loc = .idle reply) (traceId : String) :
    ((∃ state, (protocol P).next s.state (i, .decide { call with traceId }) = some state ∧
        (state.session i).loc = .idle (.decision audit) ∧ state.db = s.state.db) ↔
      ∀ edited, call.action.edited = some edited →
        (s.state.db.getProposal call.proposalId).map Proposal.values =
          some (candidateValues P edited)) ∧
    (call.proposalId ∉ s.pruned → ∀ edited, call.action.edited = some edited →
      (s.state.db.getProposal call.proposalId).map Proposal.values =
        (lastEdit s.accepted call.proposalId).map (candidateValues P)) := by
  obtain ⟨hall, hretained⟩ := Accepting.Sound.reachable h
  obtain ⟨hfound, outcome, factId, haudit⟩ := hretained.decisions _ ha
  have haudit : audit = call.audit outcome factId := haudit
  subst haudit
  have hview : (protocol P).view s.state i = s.state.db := by
    have hws := hall i
    rw [hi] at hws
    rw [Protocol.view, show (s.state.session i).pending = [] from hws]
    rfl
  have hstep : (protocol P).next s.state (i, .decide { call with traceId }) = some
      { s.state with
        owner := s.state.release i
        session := Function.update s.state.session i
          ⟨.idle (repeated P s.state.db { call with traceId } (call.audit outcome factId)),
            []⟩ } := by
    have hexec : (protocol P).exec (s.state.session i).loc (.decide { call with traceId })
        (s.state.busy i) ((protocol P).view s.state i) =
        some (Outcome.rollback (.idle (repeated P s.state.db { call with traceId }
          (call.audit outcome factId)))) := by
      rw [hview, hi]
      simp only [protocol, exec, hfound]
    rw [Protocol.next, hexec]
  constructor
  · rw [hstep]
    simp only [Option.some_inj, exists_eq_left', Function.update_self, Loc.idle.injEq, and_true,
      repeated_iff]
  · intro hpruned edited he
    obtain ⟨last, hlast⟩ := exists_lastEdit ha he
    obtain ⟨p, hp⟩ := hretained.proposals _ ha hpruned
    rw [hp, hlast, Option.map_some, Option.map_some,
      hretained.values _ last hpruned hlast p hp]

end

/-! ## Concrete runs -/

/-- The edit `decisionId` of the proposal `a` in the conversation `a`. -/
def editOf (decisionId fact : String) : DecisionCall :=
  { approvalOf "a" with decisionId, action := .edit (delayPattern fact) }

/-- One session executes the statements of a decision. -/
def decides (call : DecisionCall) (n : ℕ) : List (MemoryEvent Unit) :=
  .session () (.decide call) :: List.replicate n (.session () (.ok true "fact"))

/-- One session proposes and edits its proposal. -/
def proposesAndEdits : List (MemoryEvent Unit) :=
  .session () (.create ⟨"a", .es⟩ (some (delayPattern "late")) "a" "a" true) ::
    .session () (.ok true "a") :: .session () (.ok true "a") :: decides (editOf "e1" "later") 5

/-- A decision with its row. -/
def DecisionCall.row (call : DecisionCall) (outcome : DecisionOutcome) (factId : Option String) :
    DecisionCall × Decision := (call, call.audit outcome factId)

/-- The edit is accepted, and the proposal is approved after it: the edit that is sent again is
answered with its row. -/
theorem repeated_decision_returned_iff_approved :
    ∃ s audit state, (accepting plainMemory Unit).Reachable (.start Db.empty) s ∧
      (editOf "e1" "later", audit) ∈ s.accepted ∧ s.accepted.length = 2 ∧
      (protocol plainMemory).next s.state
        ((), .decide { editOf "e1" "later" with traceId := "t" }) = some state ∧
      (state.session ()).loc = .idle (.decision audit) ∧ state.db = s.state.db := by
  obtain ⟨s, hreach, hs⟩ := (accepting plainMemory Unit).exists_reachable (.start Db.empty)
    (proposesAndEdits ++ decides (approvalOf "a") 9)
    (fun s => s.accepted = [(approvalOf "a").row .approved (some "fact"),
        (editOf "e1" "later").row .edited none] ∧ s.pruned = [] ∧
      (s.state.session ()).loc = .idle (.decision ((approvalOf "a").audit .approved (some "fact"))))
    (by decide)
  obtain ⟨hlog, hpruned, hidle⟩ := of_decide_eq_true hs
  have hmem : (editOf "e1" "later", (editOf "e1" "later").audit .edited none) ∈ s.accepted := by
    rw [hlog]
    exact List.mem_cons_of_mem _ (List.mem_singleton_self _)
  obtain ⟨hiff, hlast⟩ := repeated_decision_returned_iff hreach hmem hidle "t"
  obtain ⟨state, hreturned⟩ := hiff.2 fun edited he => by
    rw [hlast (by rw [hpruned]; exact List.not_mem_nil) edited he, hlog]
    cases he
    rfl
  exact ⟨s, _, state, hreach, hmem, by rw [hlog]; rfl, hreturned⟩

/-- An edit is accepted, then another one with another candidate.  The first one, sent again, is
refused. -/
theorem edited_twice :
    ¬∀ s call audit reply traceId,
      (accepting plainMemory Unit).Reachable (.start Db.empty) s →
      (call, audit) ∈ s.accepted → (s.state.session ()).loc = .idle reply →
      ∃ state, (protocol plainMemory).next s.state ((), .decide { call with traceId }) =
          some state ∧
        (state.session ()).loc = .idle (.decision audit) ∧ state.db = s.state.db := by
  intro hclaim
  obtain ⟨s, hreach, hs⟩ := (accepting plainMemory Unit).exists_reachable (.start Db.empty)
    (proposesAndEdits ++ decides (editOf "e2" "later still") 5)
    (fun s => s.accepted = [(editOf "e2" "later still").row .edited none,
        (editOf "e1" "later").row .edited none] ∧
      (s.state.session ()).loc =
        .idle (.decision ((editOf "e2" "later still").audit .edited none)) ∧
      ((protocol plainMemory).next s.state ((), .decide (editOf "e1" "later"))).any
        fun state => (state.session ()).loc =
          .idle (.refused ⟨409, "decision_id was already used for a different decision."⟩))
    (by decide)
  obtain ⟨hlog, hidle, hrefused⟩ := of_decide_eq_true hs
  obtain ⟨state, hstep, hloc, -⟩ := hclaim s (editOf "e1" "later") _ _ "a" hreach
    (by rw [hlog]; exact List.mem_cons_of_mem _ (List.mem_singleton_self _)) hidle
  change (protocol plainMemory).next s.state ((), .decide (editOf "e1" "later")) = _ at hstep
  rw [hstep, Option.any_some, decide_eq_true_eq, hloc] at hrefused
  cases hrefused

end Agents

end TrackFlow
