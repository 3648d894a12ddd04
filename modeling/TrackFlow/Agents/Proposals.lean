import TrackFlow.Agents.Facts

/-!
# Proposals are decided once

A decision locks its proposal before it reads it.  `discard_pending` does not: it reads a pending
proposal and later updates the row, whatever has been decided in the meantime.

* `DiscardsOpen` : the condition on a step; a discard does not reach a proposal that was approved
  or rejected since it was read.
* `Approved` : the invariant; version rows come from approved proposals.
* `StatusPlan` : what a session knows that is about to commit writes to proposals.
* `memory_proposals_decided_once` : **proposals over every run that meets the condition.**
* `discard_overwrites_approval` : the run in which a discard reaches an approved proposal.
-/

namespace TrackFlow

namespace Agents

open RowLock

/-- A discard that executes its `UPDATE` finds the row pending, or discarded already. -/
def DiscardsOpen (db : Db) : Loc → Prop
  | .flushing _ _ _ (.setStatus proposalId .discarded :: _) =>
    ∀ q ∈ db.proposals, q.id = proposalId → q.status = .pending ∨ q.status = .discarded
  | _ => True

instance (db : Db) (loc : Loc) : Decidable (DiscardsOpen db loc) := by
  unfold DiscardsOpen
  split <;> infer_instance

/-- What the memory tables of every committed state satisfy. -/
structure Approved (db : Db) : Prop where
  ids : (db.proposals.map Proposal.id).Nodup
  versions : ∀ v ∈ db.versions, ∃ p ∈ db.proposals, p.id = v.proposalId ∧ p.status = .approved
  decisions : ∀ d ∈ db.decisions, d.factId ≠ none →
    ∃ p ∈ db.proposals, p.id = d.proposalId ∧ p.status = .approved

/-- Proposals stay, and those that are decided keep their status. -/
def Settled (db db' : Db) : Prop :=
  ∀ p ∈ db.proposals, ∃ p' ∈ db'.proposals, p'.id = p.id ∧
    (p.status ≠ .pending → p'.status = p.status)

theorem Approved.empty : Approved Db.empty where
  ids := List.nodup_nil
  versions _ hv := (List.not_mem_nil hv).elim
  decisions _ hd := (List.not_mem_nil hd).elim

section

variable {db db' db'' : Db} {p : Proposal}

theorem Settled.refl (db : Db) : Settled db db := fun p hp => ⟨p, hp, rfl, fun _ => rfl⟩

theorem Settled.trans (h : Settled db db') (h' : Settled db' db'') : Settled db db'' := by
  intro p hp
  obtain ⟨p', hp', hid, hstatus⟩ := h p hp
  obtain ⟨p'', hp'', hid', hstatus'⟩ := h' p' hp'
  refine ⟨p'', hp'', hid'.trans hid, fun hne => ?_⟩
  have hsame := hstatus hne
  exact (hstatus' (hsame ▸ hne)).trans hsame

/-- Tables whose proposals are settled, with rows that come from approved proposals. -/
theorem Approved.step (h : Approved db) (hids : (db'.proposals.map Proposal.id).Nodup)
    (hsettled : Settled db db')
    (hversions : ∀ v ∈ db'.versions, v ∈ db.versions ∨
      ∃ p ∈ db'.proposals, p.id = v.proposalId ∧ p.status = .approved)
    (hdecisions : ∀ d ∈ db'.decisions, d ∈ db.decisions ∨ (d.factId ≠ none →
      ∃ p ∈ db'.proposals, p.id = d.proposalId ∧ p.status = .approved)) : Approved db' := by
  have hkeep {proposalId : String}
      (hp : ∃ p ∈ db.proposals, p.id = proposalId ∧ p.status = .approved) :
      ∃ p ∈ db'.proposals, p.id = proposalId ∧ p.status = .approved := by
    obtain ⟨p, hp, hid, hstatus⟩ := hp
    obtain ⟨p', hp', hid', hstatus'⟩ := hsettled p hp
    exact ⟨p', hp', hid'.trans hid, (hstatus' (by simp [hstatus])).trans hstatus⟩
  refine ⟨hids, fun v hv => ?_, fun d hd hfact => ?_⟩
  · rcases hversions v hv with hv | hv
    · exact hkeep (h.versions v hv)
    · exact hv
  · rcases hdecisions d hd with hd | hd
    · exact hkeep (h.decisions d hd hfact)
    · exact hd hfact

/-- An update of one proposal that is pending, or has the status already. -/
theorem Approved.update (h : Approved db) {f : Proposal → Proposal} {proposalId : String}
    (hproposals : db'.proposals = db.proposals.map fun p => if p.id = proposalId then f p else p)
    (hid : ∀ p, (f p).id = p.id)
    (hopen : ∀ p ∈ db.proposals, p.id = proposalId → p.status = .pending ∨
      (f p).status = p.status)
    (hversions : ∀ v ∈ db'.versions, v ∈ db.versions ∨
      ∃ p ∈ db'.proposals, p.id = v.proposalId ∧ p.status = .approved)
    (hdecisions : ∀ d ∈ db'.decisions, d ∈ db.decisions ∨ (d.factId ≠ none →
      ∃ p ∈ db'.proposals, p.id = d.proposalId ∧ p.status = .approved)) :
    Approved db' ∧ Settled db db' := by
  have hids : db'.proposals.map Proposal.id = db.proposals.map Proposal.id := by
    rw [hproposals, List.map_map]
    refine List.map_congr_left fun p _ => ?_
    by_cases hp : p.id = proposalId
    · simp [hp, hid]
    · simp [hp]
  have hsettled : Settled db db' := by
    intro p hp
    refine ⟨_, hproposals ▸ List.mem_map_of_mem hp, ?_, fun hne => ?_⟩
    · split_ifs
      · exact hid p
      · rfl
    · split_ifs with hpid
      · exact (hopen p hp hpid).resolve_left hne
      · rfl
  exact ⟨h.step (hids ▸ h.ids) hsettled hversions hdecisions, hsettled⟩

end

/-! ## What a session knows -/

/-- The rows under whose locks the proposals are written. -/
def statusGuard : Write → List RowKey
  | .insertProposal p => [.proposal p.id]
  | .setStatus proposalId _ => [.proposal proposalId]
  | .setCandidate proposalId _ _ => [.proposal proposalId]
  | _ => []

/-- The session has locked the pending proposal of its call. -/
structure Owns (held : RowKey → Prop) (db : Db) (call : DecisionCall) (p : Proposal) : Prop where
  locked : held (.proposal call.proposalId)
  found : p ∈ db.proposals
  id : p.id = call.proposalId

/-- What a session knows that executes the writes of a list, those in `done` first. -/
inductive StatusPlan (held : RowKey → Prop) (db : Db) (done : List Write) : List Write → Prop
  | propose (p : Proposal) (pending : p.status = .pending)
      (inserted : done ≠ [] → held (.proposal p.id) ∧ ∀ q ∈ db.proposals, q.id ≠ p.id) :
      StatusPlan held db done [.insertProposal p]
  | discard (proposalId : String)
      (updated : done ≠ [] → held (.proposal proposalId) ∧ ∀ q ∈ db.proposals,
        q.id = proposalId → q.status = .pending ∨ q.status = .discarded) :
      StatusPlan held db done [.setStatus proposalId .discarded]
  | edit (call : DecisionCall) (p : Proposal) (owns : Owns held db call p)
      (values : CandidateValues) (traceId : String) :
      StatusPlan held db done [.setCandidate call.proposalId values traceId,
        .insertDecision (call.audit .edited none)]
  | reject (call : DecisionCall) (p : Proposal) (owns : Owns held db call p)
      (pending : p.status = .pending) :
      StatusPlan held db done [.setStatus call.proposalId .rejected,
        .insertDecision (call.audit .rejected none)]
  | approve (call : DecisionCall) (p : Proposal) (owns : Owns held db call p)
      (pending : p.status = .pending) (w : Write) (factId : String) (version : ℕ)
      (values : CandidateValues)
      (consolidates : w = .insertFact (newFact values factId) ∨
        ∃ count, w = .setFact factId values count version) :
      StatusPlan held db done [w, .setStatus call.proposalId .approved,
        .insertVersion (call.version factId version values),
        .insertDecision (call.audit .approved (some factId))]

/-- The assertion about a session. -/
def ProposalsOk (loc : Loc) (ws : List Write) (held : RowKey → Prop) (db : Db) : Prop :=
  match loc with
  | .locked call p => ws = [] ∧ Owns held db call p
  | .approving call p _ => ws = [] ∧ Owns held db call p ∧ p.status = .pending
  | .consolidating call p _ => ws = [] ∧ Owns held db call p ∧ p.status = .pending
  | .flushing _ _ done todo => ws = done ∧ StatusPlan held db done (done ++ todo)
  | _ => ws = []

section

variable {P : MemoryPrimitives} {held held' : RowKey → Prop} {db : Db} {ws done plan : List Write}
  {w : Write} {q : Proposal} {call : DecisionCall} {p : Proposal}

/-- A proposal whose row nobody writes. -/
theorem mem_proposals_installAll (h : ∀ w ∈ ws, RowKey.proposal q.id ∉ statusGuard w) :
    q ∈ ((protocol P).installAll db ws).proposals ↔ q ∈ db.proposals := by
  induction ws generalizing db with
  | nil => rfl
  | cons w ws ih =>
    rw [installAll_cons, ih fun w' hw' => h w' (List.mem_cons_of_mem _ hw')]
    have hw := h w List.mem_cons_self
    have hmap {f : Proposal → Proposal} {proposalId : String} (hid : ∀ p, (f p).id = p.id)
        (hne : q.id ≠ proposalId) :
        (q ∈ db.proposals.map fun p => if p.id = proposalId then f p else p) ↔
          q ∈ db.proposals := by
      refine ⟨fun hq => ?_, fun hq => List.mem_map.2 ⟨q, hq, if_neg hne⟩⟩
      obtain ⟨p, hp, rfl⟩ := List.mem_map.1 hq
      split_ifs at hne ⊢ with hpid
      · exact (hne ((hid p).trans hpid)).elim
      · exact hp
    cases w with
    | insertProposal p =>
      refine ⟨fun hq => ?_, List.mem_append_left _⟩
      rcases List.mem_append.1 hq with hq | hq
      · exact hq
      · rw [List.mem_singleton.1 hq] at hw
        exact (hw List.mem_cons_self).elim
    | setStatus proposalId status =>
      exact hmap (f := fun p => { p with status }) (fun _ => rfl)
        fun he => hw (he ▸ List.mem_cons_self)
    | setCandidate proposalId values traceId =>
      exact hmap (f := fun p => { p with values, traceId }) (fun _ => rfl)
        fun he => hw (he ▸ List.mem_cons_self)
    | _ => rfl

theorem Owns.mono (h : Owns held db call p) (hheld : ∀ k, held k → held' k) :
    Owns held' db call p :=
  ⟨hheld _ h.locked, h.found, h.id⟩

theorem Owns.stable (h : Owns held db call p) (hfree : ∀ w ∈ ws, ∀ k ∈ statusGuard w, ¬held k) :
    Owns held ((protocol P).installAll db ws) call p := by
  refine ⟨h.locked, (mem_proposals_installAll fun w hw hk => ?_).2 h.found, h.id⟩
  exact hfree w hw _ hk (h.id ▸ h.locked)

/-- The executed writes are guarded. -/
theorem StatusPlan.guarded (h : StatusPlan held db done plan) (hsub : ∀ w ∈ done, w ∈ plan) :
    ∀ w ∈ done, ∀ k ∈ statusGuard w, held k := by
  intro w hw k hk
  have hplan := hsub w hw
  have hne : done ≠ [] := List.ne_nil_of_mem hw
  cases h with
  | propose p pending inserted =>
    rw [List.mem_singleton.1 hplan] at hk
    rw [List.mem_singleton.1 hk]
    exact (inserted hne).1
  | discard proposalId updated =>
    rw [List.mem_singleton.1 hplan] at hk
    rw [List.mem_singleton.1 hk]
    exact (updated hne).1
  | edit call p owns values traceId =>
    simp only [List.mem_cons, List.not_mem_nil, or_false] at hplan
    rcases hplan with rfl | rfl
    · rw [List.mem_singleton.1 hk]
      exact owns.locked
    · exact (List.not_mem_nil hk).elim
  | reject call p owns pending =>
    simp only [List.mem_cons, List.not_mem_nil, or_false] at hplan
    rcases hplan with rfl | rfl
    · rw [List.mem_singleton.1 hk]
      exact owns.locked
    · exact (List.not_mem_nil hk).elim
  | approve call p owns pending w' factId version values consolidates =>
    simp only [List.mem_cons, List.not_mem_nil, or_false] at hplan
    rcases hplan with rfl | rfl | rfl | rfl
    · rcases consolidates with rfl | ⟨count, rfl⟩ <;> exact (List.not_mem_nil hk).elim
    · rw [List.mem_singleton.1 hk]
      exact owns.locked
    · exact (List.not_mem_nil hk).elim
    · exact (List.not_mem_nil hk).elim

/-- The next write is executed. -/
theorem StatusPlan.push {todo : List Write} (h : StatusPlan held db done (done ++ w :: todo))
    (hfree : w.conflicts ((protocol P).installAll db done) = false)
    (hopen : ∀ proposalId, w = .setStatus proposalId .discarded →
      ∀ q ∈ db.proposals, q.id = proposalId → q.status = .pending ∨ q.status = .discarded) :
    StatusPlan (fun k => held k ∨ k ∈ w.locks) db (done ++ [w]) (done ++ [w] ++ todo) := by
  rw [List.append_assoc, List.singleton_append]
  generalize hplan : done ++ w :: todo = plan at h
  cases h with
  | propose p pending inserted =>
    refine .propose p pending fun _ => ?_
    by_cases hdone : done = []
    · subst hdone
      cases List.head_eq_of_cons_eq hplan
      refine ⟨.inr List.mem_cons_self, fun q hq he => ?_⟩
      have hno := List.any_eq_false.1 hfree q hq
      simp [he] at hno
    · exact ⟨.inl (inserted hdone).1, (inserted hdone).2⟩
  | discard proposalId updated =>
    refine .discard proposalId fun _ => ?_
    by_cases hdone : done = []
    · subst hdone
      have hw := List.head_eq_of_cons_eq hplan
      rw [hw]
      exact ⟨.inr List.mem_cons_self, hopen proposalId hw⟩
    · exact ⟨.inl (updated hdone).1, (updated hdone).2⟩
  | edit call p owns values traceId => exact .edit call p (owns.mono fun _ => .inl) values traceId
  | reject call p owns pending => exact .reject call p (owns.mono fun _ => .inl) pending
  | approve call p owns pending w' factId version values consolidates =>
    exact .approve call p (owns.mono fun _ => .inl) pending w' factId version values consolidates

/-- What others commit. -/
theorem StatusPlan.stable (h : StatusPlan held db done plan)
    (hfree : ∀ w ∈ ws, ∀ k ∈ statusGuard w, ¬held k) :
    StatusPlan held ((protocol P).installAll db ws) done plan := by
  have hrow {proposalId : String} (hheld : held (.proposal proposalId)) {q : Proposal}
      (hq : q ∈ ((protocol P).installAll db ws).proposals) (hid : q.id = proposalId) :
      q ∈ db.proposals :=
    (mem_proposals_installAll fun w hw hk => hfree w hw _ hk (hid ▸ hheld)).1 hq
  cases h with
  | propose p pending inserted =>
    refine .propose p pending fun hne => ⟨(inserted hne).1, fun q hq he => ?_⟩
    exact (inserted hne).2 q (hrow (inserted hne).1 hq he) he
  | discard proposalId updated =>
    refine .discard proposalId fun hne => ⟨(updated hne).1, fun q hq he => ?_⟩
    exact (updated hne).2 q (hrow (updated hne).1 hq he) he
  | edit call p owns values traceId => exact .edit call p (owns.stable hfree) values traceId
  | reject call p owns pending => exact .reject call p (owns.stable hfree) pending
  | approve call p owns pending w' factId version values consolidates =>
    exact .approve call p (owns.stable hfree) pending w' factId version values consolidates

/-- The row that a decision has locked is the only one with its identifier. -/
theorem Owns.eq (h : Owns held db call p) (hdb : Approved db) (hq : q ∈ db.proposals)
    (hid : q.id = call.proposalId) : q = p :=
  List.inj_on_of_nodup_map hdb.ids hq h.found (hid.trans h.id.symm)

/-- **The commit of writes to proposals.** -/
theorem StatusPlan.commit (h : StatusPlan held db plan plan) (hdb : Approved db) :
    Approved ((protocol P).installAll db plan) ∧
      Settled db ((protocol P).installAll db plan) := by
  cases h with
  | propose p pending inserted =>
    obtain ⟨-, hfresh⟩ := inserted (List.cons_ne_nil _ _)
    have hsettled : Settled db ((protocol P).installAll db [.insertProposal p]) :=
      fun q hq => ⟨q, List.mem_append_left _ hq, rfl, fun _ => rfl⟩
    have hids : ((db.proposals ++ [p]).map Proposal.id).Nodup := by
      rw [List.map_append]
      refine hdb.ids.append (List.nodup_singleton _) fun k hk hk' => ?_
      obtain ⟨q, hq, rfl⟩ := List.mem_map.1 hk
      exact hfresh q hq (List.mem_singleton.1 hk')
    exact ⟨hdb.step hids hsettled (fun v => .inl) fun d => .inl, hsettled⟩
  | discard proposalId updated =>
    obtain ⟨-, hopen⟩ := updated (List.cons_ne_nil _ _)
    exact hdb.update (f := fun p => { p with status := .discarded }) rfl (fun _ => rfl)
      (fun q hq hid => (hopen q hq hid).imp_right Eq.symm) (fun v => .inl) fun d => .inl
  | edit call p owns values traceId =>
    refine hdb.update (f := fun p => { p with values, traceId }) rfl (fun _ => rfl)
      (fun _ _ _ => .inr rfl) (fun v => .inl) fun d hd => ?_
    rcases List.mem_append.1 hd with hd | hd
    · exact .inl hd
    · rw [List.mem_singleton.1 hd]
      exact .inr fun hne => (hne rfl).elim
  | reject call p owns pending =>
    refine hdb.update (f := fun p => { p with status := .rejected }) rfl (fun _ => rfl)
      (fun q hq hid => .inl (owns.eq hdb hq hid ▸ pending)) (fun v => .inl) fun d hd => ?_
    rcases List.mem_append.1 hd with hd | hd
    · exact .inl hd
    · rw [List.mem_singleton.1 hd]
      exact .inr fun hne => (hne rfl).elim
  | approve call p owns pending w' factId version values consolidates =>
    -- the proposal of the call is the approved one that the new rows come from
    have hnew : ∃ q ∈ db.proposals.map fun q =>
        if q.id = call.proposalId then { q with status := ProposalStatus.approved } else q,
        q.id = call.proposalId ∧ q.status = .approved := by
      refine ⟨_, List.mem_map_of_mem owns.found, ?_⟩
      rw [if_pos owns.id]
      exact ⟨owns.id, rfl⟩
    have hopen : ∀ q ∈ db.proposals, q.id = call.proposalId → q.status = .pending ∨
        ProposalStatus.approved = q.status :=
      fun q hq hid => .inl (owns.eq hdb hq hid ▸ pending)
    rcases consolidates with rfl | ⟨count, rfl⟩
    all_goals
      refine hdb.update (f := fun p => { p with status := .approved }) rfl (fun _ => rfl) hopen
        (fun v hv => ?_) fun d hd => ?_
      · rcases List.mem_append.1 hv with hv | hv
        · exact .inl hv
        · rw [List.mem_singleton.1 hv]
          exact .inr hnew
      · rcases List.mem_append.1 hd with hd | hd
        · exact .inl hd
        · rw [List.mem_singleton.1 hd]
          exact .inr fun _ => hnew

/-! ## Runs -/

/-- Every session knows what its writes to the proposals need, whatever the others commit, as long
as discards reach open proposals. -/
def proposalAssertion (P : MemoryPrimitives) :
    Assertion (protocol P) statusGuard (fun loc _ db => DiscardsOpen db loc) where
  holds := ProposalsOk
  guarded {loc ws held db} h := by
    cases loc with
    | flushing operation reply done todo =>
      obtain ⟨rfl, hplan⟩ := h
      exact hplan.guarded fun w hw => List.mem_append_left _ hw
    | locked call p =>
      obtain ⟨rfl, -⟩ := h
      exact fun w hw => (List.not_mem_nil hw).elim
    | approving call p values =>
      obtain ⟨rfl, -⟩ := h
      exact fun w hw => (List.not_mem_nil hw).elim
    | consolidating call p values =>
      obtain ⟨rfl, -⟩ := h
      exact fun w hw => (List.not_mem_nil hw).elim
    | _ =>
      cases (show ws = [] from h)
      exact fun w hw => (List.not_mem_nil hw).elim
  step {loc ws held db c busy o} h hside he := by
    cases Statement.of_exec he with
    | leave _ loc' quiet => cases loc' <;> first | rfl | exact quiet.elim
    | commit operation reply done => rfl
    | write operation reply done todo w free =>
      obtain ⟨rfl, hplan⟩ := h
      refine ⟨rfl, hplan.push free fun proposalId hw => ?_⟩
      rw [hw] at hside
      exact hside
    | propose before reply conversationId values traceId id =>
      cases (show ws = [] from h)
      exact ⟨rfl, .propose _ rfl fun hne => (hne rfl).elim⟩
    | discard before conversationId p found =>
      cases (show ws = [] from h)
      exact ⟨rfl, .discard _ fun hne => (hne rfl).elim⟩
    | start before call => exact (List.append_nil ws).trans h
    | lock call p found =>
      cases (show ws = [] from h)
      have hid : p.id = call.proposalId := by simpa using List.find?_some found
      exact ⟨rfl, .inr (hid ▸ List.mem_singleton_self _), List.mem_of_find?_eq_some found, hid⟩
    | edit call p edited pending =>
      obtain ⟨rfl, howns⟩ := h
      exact ⟨rfl, .edit call p (howns.mono fun _ => .inl) _ _⟩
    | reject call p pending =>
      obtain ⟨rfl, howns⟩ := h
      exact ⟨rfl, .reject call p (howns.mono fun _ => .inl) pending⟩
    | approve call p pending =>
      obtain ⟨rfl, howns⟩ := h
      exact ⟨rfl, howns.mono fun _ => .inl, pending⟩
    | consolidate call p values =>
      obtain ⟨rfl, howns, pending⟩ := h
      exact ⟨rfl, howns.mono fun _ => .inl, pending⟩
    | create call p values id absent =>
      obtain ⟨rfl, howns, pending⟩ := h
      exact ⟨rfl, .approve call p (howns.mono fun _ => .inl) pending _ id 1 values (.inl rfl)⟩
    | confirm call p values fact found =>
      obtain ⟨rfl, howns, pending⟩ := h
      exact ⟨rfl, .approve call p (howns.mono fun _ => .inl) pending _ fact.id (fact.version + 1)
        values (.inr ⟨_, rfl⟩)⟩
  stable {loc ws held db ws'} h hfree := by
    cases loc with
    | flushing operation reply done todo => exact ⟨h.1, h.2.stable hfree⟩
    | locked call p => exact ⟨h.1, h.2.stable hfree⟩
    | approving call p values => exact ⟨h.1, h.2.1.stable hfree, h.2.2⟩
    | consolidating call p values => exact ⟨h.1, h.2.1.stable hfree, h.2.2⟩
    | _ => exact h

variable {ι : Type} [DecidableEq ι] {s s' s₀ : State ι Db RowKey Write Loc}

/-- The invariant of runs in which discards reach open proposals. -/
def Proper (P : MemoryPrimitives) (s : State ι Db RowKey Write Loc) : Prop :=
  (proposalAssertion P).All s ∧ Approved s.db

/-- **What one step preserves.** -/
theorem Proper.next {i : ι} {c : Choice} (h : Proper P s)
    (hopen : DiscardsOpen s.db (s.session i).loc)
    (hnext : (protocol P).next s (i, c) = some s') : Proper P s' ∧ Settled s.db s'.db := by
  have hall := (proposalAssertion P).all_next h.1 hopen hnext
  rcases Protocol.db_next hnext with hsame | ⟨a, he, hview, -⟩
  · refine ⟨⟨hall, hsame ▸ h.2⟩, hsame ▸ Settled.refl _⟩
  · have hi := h.1 i
    rw [Protocol.view] at hview
    generalize (s.session i).loc = loc at he hi
    cases Statement.of_exec he with
    | commit operation reply done =>
      obtain ⟨hws, hplan⟩ := hi
      rw [List.append_nil] at hplan
      rw [hws] at hview
      have hcommit := hplan.commit (P := P) h.2
      exact ⟨⟨hall, hview ▸ hcommit.1⟩, hview ▸ hcommit.2⟩

/-- The run of discards that reach open proposals. -/
abbrev OpenRun (P : MemoryPrimitives) (s s' : State ι Db RowKey Write Loc) : Prop :=
  ((protocol P).machine ι).Run (fun s l => DiscardsOpen s.db (s.session l.1).loc) s s'

/-- Over a run, proposals settle. -/
theorem Proper.run (h : Proper P s) (hrun : OpenRun P s s') :
    Proper P s' ∧ Settled s.db s'.db := by
  refine hrun.invariant (fun s' => Proper P s' ∧ Settled s.db s'.db) ⟨h, Settled.refl _⟩ ?_
  rintro s₁ ⟨i, c⟩ s₂ ⟨h₁, hsettled⟩ hopen hnext
  obtain ⟨h₂, hsettled'⟩ := h₁.next hopen hnext
  exact ⟨h₂, hsettled.trans hsettled'⟩

omit [DecidableEq ι] in
theorem Proper.start {db₀ : Db} (h₀ : Approved db₀) :
    Proper P (State.start db₀ fun _ : ι => .idle .none) := by
  have hstart : ∀ _ : ι, ProposalsOk (.idle .none) [] (fun _ => False) db₀ := fun _ => rfl
  exact ⟨(proposalAssertion P).all_start hstart, h₀⟩

/-- **Proposals are decided once.**  In a run in which no discard executes its `UPDATE` on a
proposal that was approved or rejected, a proposal that is approved, rejected or discarded keeps
its status for ever; version rows and decisions with a fact come from approved proposals, and every
fact has such a version row. -/
theorem memory_proposals_decided_once
    (h : OpenRun P (State.start Db.empty fun _ : ι => .idle .none) s) :
    (∀ s', OpenRun P s s' → ∀ p ∈ s.db.proposals, p.status ≠ .pending →
      ∀ p' ∈ s'.db.proposals, p'.id = p.id → p'.status = p.status) ∧
    (∀ v ∈ s.db.versions, ∃ p ∈ s.db.proposals, p.id = v.proposalId ∧ p.status = .approved) ∧
    (∀ d ∈ s.db.decisions, d.factId ≠ none →
      ∃ p ∈ s.db.proposals, p.id = d.proposalId ∧ p.status = .approved) ∧
    ∀ f ∈ s.db.facts, ∃ v ∈ s.db.versionsOf f.id, ∃ p ∈ s.db.proposals,
      p.id = v.proposalId ∧ p.status = .approved := by
  obtain ⟨hs, -⟩ := (Proper.start Approved.empty).run h
  refine ⟨fun s' hrun p hp hne p' hp' hid => ?_, hs.2.versions, hs.2.decisions, fun f hf => ?_⟩
  · obtain ⟨hs', hsettled⟩ := hs.run hrun
    obtain ⟨p'', hp'', hid', hstatus⟩ := hsettled p hp
    have he : p' = p'' := List.inj_on_of_nodup_map hs'.2.ids hp' hp'' (hid.trans hid'.symm)
    rw [he]
    exact hstatus hne
  · have hloc : ∀ _ : ι, (Loc.idle .none).IsQuiet := fun _ => trivial
    have hfacts := consolidated_reachable hloc Consolidated.empty h.reachable
    obtain ⟨v, hv, -⟩ := hfacts.newest f hf
    exact ⟨v, hv, hs.2.versions v (List.mem_of_mem_filter hv)⟩

end

/-- One proposal is approved, and another one discarded. -/
theorem memory_proposals_decided_once_two :
    ∃ s, OpenRun plainMemory (State.start Db.empty fun _ : Bool => .idle .none) s ∧
      s.db.versions ≠ [] ∧
      ∀ v ∈ s.db.versions, ∃ p ∈ s.db.proposals, p.id = v.proposalId ∧ p.status = .approved := by
  obtain ⟨s, hrun, hs⟩ := ((protocol plainMemory).machine Bool).exists_run
    (fun s l => DiscardsOpen s.db (s.session l.1).loc) (State.start Db.empty fun _ => .idle .none)
    ((false, .create ⟨"a", .es⟩ (some (delayPattern "late")) "a" "a" true) ::
        statements false 2 "a" ++
      (true, .create ⟨"b", .es⟩ (some (delayPattern "later")) "b" "b" true) ::
        statements true 2 "b" ++
      (false, .decide (approvalOf "a")) :: statements false 9 "fact" ++
      (true, .discard "b") :: statements true 2 "b")
    (fun s => !s.db.versions.isEmpty && s.db.proposals.any fun p => p.status = .discarded)
    (by decide)
  have hrun : OpenRun plainMemory (State.start Db.empty fun _ : Bool => .idle .none) s :=
    hrun.mono fun _ _ h => by simpa using h
  refine ⟨s, hrun, fun hnil => ?_, (memory_proposals_decided_once hrun).2.1⟩
  simp [hnil] at hs

/-- **A discard overwrites an approval.**  The proposal is approved after `discard_pending` has
read it and before it updates the row: the approved proposal becomes discarded, and the version
row that the approval has left comes from a discarded proposal. -/
theorem discard_overwrites_approval :
    ¬∀ s s', ((protocol plainMemory).machine Bool).Reachable
        (State.start Db.empty fun _ => .idle .none) s →
      ((protocol plainMemory).machine Bool).Reachable s s' →
      (∀ p ∈ s.db.proposals, p.status ≠ .pending →
        ∀ p' ∈ s'.db.proposals, p'.id = p.id → p'.status = p.status) ∧
      ∀ v ∈ s'.db.versions, ∃ p ∈ s'.db.proposals, p.id = v.proposalId ∧ p.status = .approved := by
  intro hclaim
  obtain ⟨s, hreach, hs⟩ := ((protocol plainMemory).machine Bool).exists_reachable
    (State.start Db.empty fun _ => .idle .none)
    ((false, .create ⟨"a", .es⟩ (some (delayPattern "late")) "a" "a" true) ::
        statements false 2 "a" ++
      (true, .discard "a") :: (false, .decide (approvalOf "a")) :: statements false 9 "fact")
    (fun s => s.db.proposals.any (fun p => p.id = "a" ∧ p.status = .approved) &&
      (((protocol plainMemory).machine Bool).run s (statements true 2 "")).any fun s' =>
        s'.db.proposals.any fun p => p.id = "a" ∧ p.status = .discarded)
    (by decide)
  obtain ⟨happroved, hlater⟩ := Bool.and_eq_true_iff.1 hs
  obtain ⟨s', hreach', hs'⟩ :=
    ((protocol plainMemory).machine Bool).exists_reachable s (statements true 2 "") _ hlater
  obtain ⟨p, hp, hpa⟩ := List.any_eq_true.1 happroved
  obtain ⟨p', hp', hpd⟩ := List.any_eq_true.1 hs'
  simp only [decide_eq_true_eq] at hpa hpd
  have hkeep := (hclaim s s' hreach hreach').1 p hp (by simp [hpa.2]) p' hp'
    (hpd.1.trans hpa.1.symm)
  rw [hpa.2, hpd.2] at hkeep
  cases hkeep

end Agents

end TrackFlow
