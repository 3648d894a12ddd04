import TrackFlow.Rfp.Exclusive

/-!
# One call after the other

`start_ticket_approval` and `submit_decision` from their first step to their last, as functions of
the tables, and what holds of a ticket whose calls come one after the other.

* `Tables.startApproval`, `Tables.submitDecision` : whole calls.
* `stepsOf` : a call that takes some of its steps.
* `stepsOf_advanceStart`, `stepsOf_advanceDecision` : **the whole calls are what the steps add up
  to.**
* `Tables.after` : a sequence of calls.
* `Settled` : the invariant; `Settled.perform` : **every call keeps it.**
-/

namespace TrackFlow

namespace Rfp

/-- The tables and the phase after `n` steps of a call, or after as many as it has. -/
def stepsOf {T P : Type} (advance : T → P → Option (T × P)) : ℕ → T → P → T × P
  | 0, t, phase => (t, phase)
  | n + 1, t, phase =>
    match advance t phase with
    | none => (t, phase)
    | some (t', phase') => stepsOf advance n t' phase'

theorem stepsOf_of_eq_none {T P : Type} {advance : T → P → Option (T × P)} {t : T} {phase : P}
    (h : advance t phase = none) (n : ℕ) : stepsOf advance n t phase = (t, phase) := by
  cases n with
  | zero => rfl
  | succ n => rw [stepsOf, h]

theorem stepsOf_succ {T P : Type} {advance : T → P → Option (T × P)} {t t' : T} {phase phase' : P}
    (h : advance t phase = some (t', phase')) (n : ℕ) :
    stepsOf advance (n + 1) t phase = stepsOf advance n t' phase' := by
  rw [stepsOf, h]

/-- Where a machine takes the steps of a call, they are a run of it. -/
theorem reachable_stepsOf {S L T P : Type} (M : Machine S L) (l : L)
    (advance : T → P → Option (T × P)) (state : T → P → S)
    (hnext : ∀ t phase t' phase', advance t phase = some (t', phase') →
      M.next (state t phase) l = some (state t' phase')) (n : ℕ) (t : T) (phase : P) :
    M.Reachable (state t phase)
      (state (stepsOf advance n t phase).1 (stepsOf advance n t phase).2) := by
  induction n generalizing t phase with
  | zero => exact .refl
  | succ n ih =>
    cases hadvance : advance t phase with
    | none =>
      rw [stepsOf_of_eq_none hadvance]
      exact .refl
    | some p =>
      rw [stepsOf_succ hadvance]
      exact (Machine.Run.refl.tail trivial (hnext _ _ _ _ hadvance)).trans (ih p.1 p.2)

/-- What `invoke` makes of the values of a thread: the graph runs to its end or to the next
pause. -/
def invoke (action : Action) (redraft : Option (String × Evaluation)) (values : ApprovalState) :
    Node → ApprovalState × Option Node
  | .review =>
    runNode action redraft (runNode action redraft values .review).1 (routeAfterReview action)
  | node => runNode action redraft values node

section

variable {δ : Type}

/-- The node that a thread runs next, and the checkpoint before it. -/
def Tables.pending (t : Tables δ) (d : δ) : Option (Checkpoint × Node) :=
  (t.threads d).bind fun thread => thread.next.map fun node => (thread, node)

variable [DecidableEq δ]

/-- The checkpoints of an `invoke`. -/
def Tables.invoke (t : Tables δ) (d : δ) (action : Action)
    (redraft : Option (String × Evaluation)) (thread : Checkpoint) : Node → Tables δ
  | .review =>
    let reviewed := runNode action redraft thread.values .review
    (t.run d thread .review reviewed).run d ⟨t.checkpoints, reviewed.1, reviewed.2⟩
      (routeAfterReview action)
      (Rfp.invoke action redraft thread.values .review)
  | node => t.run d thread node (Rfp.invoke action redraft thread.values node)

/-- The thread has moved, and its section is saved. -/
def Tables.decided (t : Tables δ) (call : DecisionCall δ)
    (redraft : Option (String × Evaluation)) (thread : Checkpoint) (node : Node) : Tables δ :=
  let loaded := t.sections call.department
  let (values, next) := Rfp.invoke call.action redraft thread.values node
  (t.invoke call.department call.action redraft thread node).saveSection call.department loaded
    (recordDecision call.actor loaded values next)

variable (departments : List δ) (currency : Option Currency) (maxIterations : ℕ)

/-- `start_ticket_approval`. -/
def Tables.startApproval (t : Tables δ) : Tables δ :=
  if t.status = .underEvaluation then
    let data := departments.map fun d => (d, initialState maxIterations (t.sections d))
    let opened := data.foldl
      (fun t p => t.put p.1 (writeInput (t.threads p.1) p.2) (some .review)) t
    { opened with status := .waitingForApproval }
  else t

/-- `_maybe_finalize`, with the end of `submit_decision`. -/
def Tables.maybeFinalize (t : Tables δ) : Tables δ × DecisionPhase δ :=
  let rows := departments.map fun d => (d, t.sections d)
  if rows ≠ [] ∧ ∀ row ∈ rows, row.2.approvalStatus = .approved then
    if t.documents = [] then
      ({ t with
          documents := t.documents ++
            [⟨rows.map fun row => (row.1, row.2.text), currency.getD .usd⟩]
          status := .done },
        .recorded true)
    else (t, .conflict)
  else (t, .recorded false)

/-- `submit_decision`, with the response. -/
def Tables.submitDecision (call : DecisionCall δ) (redraft : Option (String × Evaluation))
    (t : Tables δ) : Tables δ × DecisionPhase δ :=
  if call.department ∈ departments then
    match t.pending call.department with
    | none => (t, .alreadyResolved)
    | some (thread, node) =>
      (t.decided call redraft thread node).maybeFinalize departments currency
  else (t, .notFound)

/-- A call. -/
inductive Call (δ : Type)
  | start
  | decide (call : DecisionCall δ) (redraft : Option (String × Evaluation))

/-- The tables after a call. -/
def Tables.perform (t : Tables δ) : Call δ → Tables δ
  | .start => t.startApproval departments maxIterations
  | .decide call redraft => (t.submitDecision departments currency call redraft).1

/-- The tables after a sequence of calls. -/
def Tables.after (t : Tables δ) (calls : List (Call δ)) : Tables δ :=
  calls.foldl (Tables.perform departments currency maxIterations) t

end

/-! ## The whole calls and their steps -/

section

variable {action : Action} {redraft : Option (String × Evaluation)} {values : ApprovalState}
  {node : Node}

/-- `invoke` stops where the graph ends, with the draft that it had, or in the next pause. -/
theorem invoke_cases (action : Action) (redraft : Option (String × Evaluation)) (node : Node)
    (houtcome : values.outcome = none) :
    (∃ outcome, (invoke action redraft values node).2 = none ∧
      (invoke action redraft values node).1.outcome = some outcome ∧
      (invoke action redraft values node).1.draft = values.draft) ∨
    ((invoke action redraft values node).2 = some .review ∧
      (invoke action redraft values node).1.outcome = none) := by
  have hone {values : ApprovalState} {node : Node} (hne : node ≠ .review)
      (houtcome : values.outcome = none) :
      (∃ outcome, (runNode action redraft values node).2 = none ∧
        (runNode action redraft values node).1.outcome = some outcome ∧
        (runNode action redraft values node).1.draft = values.draft) ∨
      ((runNode action redraft values node).2 = some .review ∧
        (runNode action redraft values node).1.outcome = none) := by
    rcases runNode_cases action redraft node houtcome with h | ⟨-, h⟩ | ⟨_, hreview, _⟩
    · exact .inl h
    · exact .inr h
    · exact (hne hreview).elim
  cases node with
  | review => exact hone (by cases action <;> decide) houtcome
  | approve => exact hone (by decide) houtcome
  | reject => exact hone (by decide) houtcome
  | revise => exact hone (by decide) houtcome

/-- `invoke` never stops before a node that decides. -/
theorem invoke_next (action : Action) (redraft : Option (String × Evaluation))
    (values : ApprovalState) (node : Node) :
    (invoke action redraft values node).2 = none ∨
      (invoke action redraft values node).2 = some .review := by
  have hrevise (values : ApprovalState) : (runNode action redraft values .revise).2 = none ∨
      (runNode action redraft values .revise).2 = some .review := by
    unfold runNode afterRevise
    dsimp only
    split_ifs
    · exact .inl rfl
    · exact .inr rfl
  cases node with
  | review =>
    cases action with
    | approve => exact .inl rfl
    | reject => exact .inl rfl
    | requestChanges => exact hrevise _
  | approve => exact .inl rfl
  | reject => exact .inl rfl
  | revise => exact hrevise _

end

section

variable {δ : Type} {t : Tables δ} {d : δ} {thread : Checkpoint} {node : Node}

theorem Tables.pending_eq_some :
    t.pending d = some (thread, node) ↔ t.threads d = some thread ∧ thread.next = some node := by
  unfold Tables.pending
  constructor
  · intro h
    obtain ⟨stored, hstored, h⟩ := Option.bind_eq_some_iff.1 h
    obtain ⟨further, hfurther, he⟩ := Option.map_eq_some_iff.1 h
    cases he
    exact ⟨hstored, hfurther⟩
  · rintro ⟨hstored, hnext⟩
    rw [hstored, Option.bind_some, hnext, Option.map_some]

theorem Tables.any_pending (t : Tables δ) (d : δ) :
    (t.threads d).any (fun thread => thread.next.isSome) = (t.pending d).isSome := by
  unfold Tables.pending
  cases t.threads d with
  | none => rfl
  | some thread => cases hnext : thread.next <;> simp [hnext]

variable [DecidableEq δ]

/-- An `invoke` leaves its thread where the graph has stopped. -/
theorem Tables.invoke_threads_self (t : Tables δ) (d : δ) (action : Action)
    (redraft : Option (String × Evaluation)) (thread : Checkpoint) (node : Node) :
    ∃ id, (t.invoke d action redraft thread node).threads d =
      some ⟨id, (Rfp.invoke action redraft thread.values node).1,
        (Rfp.invoke action redraft thread.values node).2⟩ := by
  cases node with
  | review => exact ⟨_, Tables.put_threads_self ..⟩
  | approve => exact ⟨_, Tables.put_threads_self ..⟩
  | reject => exact ⟨_, Tables.put_threads_self ..⟩
  | revise => exact ⟨_, Tables.put_threads_self ..⟩

/-- An `invoke` writes to its thread alone. -/
theorem Tables.invoke_frame (t : Tables δ) (d : δ) (action : Action)
    (redraft : Option (String × Evaluation)) (thread : Checkpoint) (node : Node) :
    (t.invoke d action redraft thread node).sections = t.sections ∧
      (t.invoke d action redraft thread node).documents = t.documents ∧
      (t.invoke d action redraft thread node).status = t.status ∧
      ∀ d', d' ≠ d → (t.invoke d action redraft thread node).threads d' = t.threads d' := by
  cases node with
  | review =>
    refine ⟨rfl, rfl, rfl, fun d' hd => ?_⟩
    exact (Tables.put_threads_of_ne _ _ _ _ hd).trans (Tables.put_threads_of_ne _ _ _ _ hd)
  | approve => exact ⟨rfl, rfl, rfl, fun d' hd => Tables.put_threads_of_ne _ _ _ _ hd⟩
  | reject => exact ⟨rfl, rfl, rfl, fun d' hd => Tables.put_threads_of_ne _ _ _ _ hd⟩
  | revise => exact ⟨rfl, rfl, rfl, fun d' hd => Tables.put_threads_of_ne _ _ _ _ hd⟩

variable {departments : List δ} {currency : Option Currency} {maxIterations : ℕ}
  {call : DecisionCall δ} {redraft : Option (String × Evaluation)} {loaded : Section} {n : ℕ}

omit [DecidableEq δ] in
/-- The end of a decision writes neither sections nor threads. -/
theorem Tables.maybeFinalize_frame :
    (t.maybeFinalize departments currency).1.sections = t.sections ∧
      (t.maybeFinalize departments currency).1.threads = t.threads := by
  unfold Tables.maybeFinalize
  dsimp only
  split_ifs <;> exact ⟨rfl, rfl⟩

/-- The steps after the section is saved. -/
theorem stepsOf_refreshed (h : 3 ≤ n) :
    stepsOf (advanceDecision departments currency call redraft) n t
      (.refreshed (t.sections call.department)) = t.maybeFinalize departments currency := by
  obtain ⟨n, rfl⟩ := Nat.exists_eq_add_of_le' h
  have hrows : (departments.map fun d =>
      (d, if d = call.department then t.sections call.department else t.sections d)) =
      departments.map fun d => (d, t.sections d) := by
    refine List.map_congr_left fun d _ => ?_
    split_ifs with hd
    · rw [hd]
    · rfl
  unfold Tables.maybeFinalize
  dsimp only
  by_cases hall : (departments.map fun d => (d, t.sections d)) ≠ [] ∧
      ∀ row ∈ departments.map fun d => (d, t.sections d), row.2.approvalStatus = .approved
  · have hread : advanceDecision departments currency call redraft t
        (.refreshed (t.sections call.department)) =
        some (t, .consolidating (departments.map fun d => (d, t.sections d))) := by
      rw [advanceDecision, hrows, if_pos hall]
    rw [if_pos hall, stepsOf_succ hread]
    by_cases hnil : t.documents = []
    · rw [if_pos hnil, stepsOf_succ (by rw [advanceDecision, if_pos hnil]), stepsOf_succ rfl,
        stepsOf_of_eq_none rfl]
    · rw [if_neg hnil, stepsOf_succ (by rw [advanceDecision, if_neg hnil]),
        stepsOf_of_eq_none rfl]
  · have hread : advanceDecision departments currency call redraft t
        (.refreshed (t.sections call.department)) = some (t, .recorded false) := by
      rw [advanceDecision, hrows, if_neg hall]
    rw [if_neg hall, stepsOf_succ hread, stepsOf_of_eq_none rfl]

/-- The steps after the thread was read again. -/
theorem stepsOf_resolved {values : ApprovalState} {next : Option Node} (h : 5 ≤ n) :
    stepsOf (advanceDecision departments currency call redraft) n t (.resolved loaded values next) =
      (t.saveSection call.department loaded
        (recordDecision call.actor loaded values next)).maybeFinalize departments currency := by
  obtain ⟨n, rfl⟩ := Nat.exists_eq_add_of_le' h
  rw [stepsOf_succ rfl, stepsOf_succ rfl]
  exact stepsOf_refreshed (Nat.le_add_left 3 n)

/-- A node of an `invoke`; the last one is followed by a read. -/
theorem stepsOf_node (hnext : thread.next = some node)
    (hstop : (runNode call.action redraft thread.values node).2 = none ∨
      (runNode call.action redraft thread.values node).2 = some .review) :
    stepsOf (advanceDecision departments currency call redraft) (n + 2) t
        (.resuming loaded thread) =
      stepsOf (advanceDecision departments currency call redraft) n
        (t.run call.department thread node (runNode call.action redraft thread.values node))
        (.resolved loaded (runNode call.action redraft thread.values node).1
          (runNode call.action redraft thread.values node).2) := by
  have hrun : advanceDecision departments currency call redraft t (.resuming loaded thread) =
      some (t.run call.department thread node (runNode call.action redraft thread.values node),
        .resumed loaded) := by
    rw [advanceDecision, hnext]
    dsimp only
    rw [if_pos hstop]
  rw [stepsOf_succ hrun, stepsOf_succ]
  rw [advanceDecision, Tables.run_threads, Tables.put_threads_self, Option.map_some]

variable (departments currency call redraft t loaded n) in
/-- The steps of an `invoke`, and the read after it. -/
theorem stepsOf_resuming (hnext : thread.next = some node) :
    ∃ m, n + 5 ≤ m ∧
      stepsOf (advanceDecision departments currency call redraft) (n + 8) t
          (.resuming loaded thread) =
        stepsOf (advanceDecision departments currency call redraft) m
          (t.invoke call.department call.action redraft thread node)
          (.resolved loaded (invoke call.action redraft thread.values node).1
            (invoke call.action redraft thread.values node).2) := by
  have hstop := invoke_next call.action redraft thread.values node
  cases node with
  | review =>
    refine ⟨n + 5, Nat.le_refl _, ?_⟩
    -- the first node is followed by the one that it leads to
    have hrun : advanceDecision departments currency call redraft t (.resuming loaded thread) =
        some (t.run call.department thread .review
            (runNode call.action redraft thread.values .review),
          .resuming loaded ⟨t.checkpoints, (runNode call.action redraft thread.values .review).1,
            (runNode call.action redraft thread.values .review).2⟩) := by
      rw [advanceDecision, hnext]
      cases call.action <;> rfl
    rw [stepsOf_succ hrun]
    exact stepsOf_node rfl hstop
  | approve => exact ⟨n + 6, Nat.le_succ _, stepsOf_node hnext hstop⟩
  | reject => exact ⟨n + 6, Nat.le_succ _, stepsOf_node hnext hstop⟩
  | revise => exact ⟨n + 6, Nat.le_succ _, stepsOf_node hnext hstop⟩

/-- **A decision is what its steps add up to.** -/
theorem stepsOf_advanceDecision (h : 11 ≤ n) :
    stepsOf (advanceDecision departments currency call redraft) n t .ready =
      t.submitDecision departments currency call redraft := by
  obtain ⟨n, rfl⟩ := Nat.exists_eq_add_of_le' h
  unfold Tables.submitDecision
  by_cases hmem : call.department ∈ departments
  · rw [if_pos hmem, stepsOf_succ (by rw [advanceDecision, if_pos hmem])]
    cases hpending : t.pending call.department with
    | none =>
      have hread : advanceDecision departments currency call redraft t
          (.submitted (t.sections call.department)) = some (t, .alreadyResolved) := by
        rw [advanceDecision, t.any_pending, hpending]
        rfl
      rw [stepsOf_succ hread, stepsOf_of_eq_none rfl]
    | some p =>
      obtain ⟨thread, node⟩ := p
      obtain ⟨hstored, hnext⟩ := Tables.pending_eq_some.1 hpending
      have hread : advanceDecision departments currency call redraft t
          (.submitted (t.sections call.department)) =
          some (t, .checked (t.sections call.department)) := by
        rw [advanceDecision, t.any_pending, hpending]
        rfl
      rw [stepsOf_succ hread, stepsOf_succ (by rw [advanceDecision, hstored, Option.map_some])]
      obtain ⟨m, hm, hsteps⟩ := stepsOf_resuming t departments currency call redraft
        (t.sections call.department) n hnext
      rw [hsteps, stepsOf_resolved (by omega)]
      rfl
  · rw [if_neg hmem, stepsOf_succ (by rw [advanceDecision, if_neg hmem])]
    exact stepsOf_of_eq_none rfl _

/-- The steps of a start from the opening of its threads. -/
theorem stepsOf_opening (rest : List (δ × ApprovalState)) (hstatus : t.status = .underEvaluation) :
    stepsOf (advanceStart departments maxIterations) (rest.length + n + 2) t (.opening rest) =
      ({ rest.foldl (fun t p => t.put p.1 (writeInput (t.threads p.1) p.2) (some .review)) t with
          status := .waitingForApproval }, .finished) := by
  induction rest generalizing t with
  | nil =>
    rw [List.length_nil, Nat.zero_add, stepsOf_succ (by rw [advanceStart, if_pos hstatus]),
      stepsOf_succ rfl, stepsOf_of_eq_none rfl]
    rfl
  | cons p rest ih =>
    rw [List.length_cons, Nat.add_right_comm _ 1, Nat.add_right_comm _ 1, stepsOf_succ rfl,
      List.foldl_cons]
    exact ih hstatus

/-- **A start is what its steps add up to.** -/
theorem stepsOf_advanceStart (h : departments.length + 3 ≤ n) :
    stepsOf (advanceStart departments maxIterations) n t .ready =
      (t.startApproval departments maxIterations, .finished) := by
  obtain ⟨n, rfl⟩ := Nat.exists_eq_add_of_le h
  rw [show departments.length + 3 + n = departments.length + n + 2 + 1 by omega]
  unfold Tables.startApproval
  by_cases hstatus : t.status = .underEvaluation
  · have hlength : departments.length =
        (departments.map fun d => (d, initialState maxIterations (t.sections d))).length :=
      (List.length_map _).symm
    rw [if_pos hstatus, stepsOf_succ (by rw [advanceStart, if_pos hstatus]), hlength,
      stepsOf_opening _ hstatus]
  · rw [if_neg hstatus, stepsOf_succ (by rw [advanceStart, if_neg hstatus]),
      stepsOf_of_eq_none rfl]

variable {σ ι : Type} [DecidableEq σ] [DecidableEq ι] {calls : ι → DecisionCall δ}
  {s : Desk δ σ ι}

/-- **A decision that nobody comes between is a run of the desk.** -/
theorem reachable_submitDecision {i : ι} (hready : s.decisions i = .ready) :
    (desk departments currency maxIterations calls).Reachable s
      { s with
        tables := (s.tables.submitDecision departments currency (calls i) redraft).1
        decisions := Function.update s.decisions i
          (s.tables.submitDecision departments currency (calls i) redraft).2 } := by
  have h := reachable_stepsOf (desk departments currency maxIterations calls) (.decide i redraft)
    (advanceDecision departments currency (calls i) redraft)
    (fun t phase => { s with tables := t, decisions := Function.update s.decisions i phase })
    (fun t phase t' phase' hadvance => by
      rw [desk]
      dsimp only
      rw [Function.update_self, hadvance, Option.map_some, Function.update_idem]) 11 s.tables .ready
  rw [stepsOf_advanceDecision (Nat.le_refl 11), ← hready, Function.update_eq_self] at h
  exact h

/-- **A start that nobody comes between is a run of the desk.** -/
theorem reachable_startApproval {i : σ} (hready : s.starts i = .ready) :
    (desk departments currency maxIterations calls).Reachable s
      { s with
        tables := s.tables.startApproval departments maxIterations
        starts := Function.update s.starts i .finished } := by
  have h := reachable_stepsOf (desk departments currency maxIterations calls) (.start i)
    (advanceStart departments maxIterations)
    (fun t phase => { s with tables := t, starts := Function.update s.starts i phase })
    (fun t phase t' phase' hadvance => by
      rw [desk]
      dsimp only
      rw [Function.update_self, hadvance, Option.map_some, Function.update_idem])
    (departments.length + 3) s.tables .ready
  rw [stepsOf_advanceStart (Nat.le_refl _), ← hready, Function.update_eq_self] at h
  exact h

end

/-! ## Sequences of calls -/

/-- A ticket before its approval. -/
structure Tables.Unopened {δ : Type} (t : Tables δ) : Prop where
  sections : ∀ d, (t.sections d).approvalStatus = .pending
  threads : ∀ d, t.threads d = none
  documents : t.documents = []
  status : t.status ≠ .done

/-- The invariant of sequences of calls. -/
structure Settled {δ : Type} (departments : List δ) (t : Tables δ) : Prop where
  opened : ∀ d thread, t.threads d = some thread →
    t.status = .waitingForApproval ∨ t.status = .done
  consistent : ∀ d, Consistent t d
  documented : t.documents ≠ [] →
    departments ≠ [] ∧ ∀ d ∈ departments, (t.sections d).approvalStatus = .approved
  finalized : departments ≠ [] → (∀ d ∈ departments, (t.sections d).approvalStatus = .approved) →
    t.documents ≠ []
  done : t.status = .done ↔ t.documents ≠ []

section

variable {δ : Type} {departments : List δ} {t : Tables δ} {d : δ} {thread : Checkpoint}
  {node : Node}

theorem Tables.Unopened.settled (h : t.Unopened) : Settled departments t where
  opened d thread hthread := by cases (h.threads d).symm.trans hthread
  consistent d := .unopened (h.threads d) (h.sections d)
  documented hne := (hne h.documents).elim
  finalized hne hall := by
    obtain ⟨d, hd⟩ := List.exists_mem_of_ne_nil _ hne
    have happroved := hall d hd
    rw [h.sections d] at happroved
    cases happroved
  done := iff_of_false h.status (not_not_intro h.documents)

/-- A thread that is pending waits in `review`, with the draft of its section. -/
theorem Consistent.paused_of_pending (h : Consistent t d)
    (hpending : t.pending d = some (thread, node)) :
    node = .review ∧ thread.values.outcome = none ∧ thread.values.draft = (t.sections d).text ∧
      (t.sections d).approvalStatus = .pending := by
  obtain ⟨hstored, hnext⟩ := Tables.pending_eq_some.1 hpending
  cases h with
  | unopened stored status => cases hstored.symm.trans stored
  | paused paused stored next outcome draft status =>
    cases hstored.symm.trans stored
    exact ⟨Option.some.inj (hnext.symm.trans next), outcome, draft, status⟩
  | ended ended outcome stored next values draft status =>
    cases hstored.symm.trans stored
    cases hnext.symm.trans next

/-- A ticket that has a pending thread waits for approval. -/
theorem Settled.of_pending (h : Settled departments t) (hmem : d ∈ departments)
    (hpending : t.pending d = some (thread, node)) :
    t.status = .waitingForApproval ∧ t.documents = [] := by
  have hnil : t.documents = [] := by
    by_contra hne
    have happroved := (h.documented hne).2 d hmem
    rw [((h.consistent d).paused_of_pending hpending).2.2.2] at happroved
    cases happroved
  refine ⟨?_, hnil⟩
  exact (h.opened d thread (Tables.pending_eq_some.1 hpending).1).resolve_right
    fun hdone => h.done.1 hdone hnil

theorem Settled.threads_eq_none (h : Settled departments t) (hstatus : t.status = .underEvaluation)
    (d : δ) : t.threads d = none := by
  cases hthread : t.threads d with
  | none => rfl
  | some thread =>
    have hopened := h.opened d thread hthread
    rw [hstatus] at hopened
    exact hopened.elim nofun nofun

variable [DecidableEq δ] {currency : Option Currency} {maxIterations : ℕ}

/-- A thread is opened for a section that is not decided. -/
theorem Consistent.put (h : ∀ d, Consistent t d)
    (hpending : ∀ d, (t.sections d).approvalStatus = .pending) (d d' : δ) :
    Consistent (t.put d (writeInput (t.threads d) (initialState maxIterations (t.sections d)))
      (some .review)) d' := by
  by_cases hd : d' = d
  · subst hd
    refine .paused _ (t.put_threads_self ..) rfl ?_ ?_ (hpending d')
    · cases h d' with
      | unopened stored status => rw [stored]; rfl
      | paused thread stored next outcome => rw [stored]; exact outcome
      | ended thread outcome stored next values draft status =>
        exact (outcome.status_ne_pending (status.symm.trans (hpending d'))).elim
    · cases t.threads d' <;> rfl
  · exact (h d').congr rfl (t.put_threads_of_ne d _ _ hd)

/-- The threads that a start opens. -/
theorem Consistent.opened (rest : List δ) (h : ∀ d, Consistent t d)
    (hpending : ∀ d, (t.sections d).approvalStatus = .pending) :
    let opened := (rest.map fun d => (d, initialState maxIterations (t.sections d))).foldl
      (fun t p => t.put p.1 (writeInput (t.threads p.1) p.2) (some .review)) t
    (∀ d, Consistent opened d) ∧ opened.sections = t.sections ∧ opened.documents = t.documents := by
  induction rest generalizing t with
  | nil => exact ⟨h, rfl, rfl⟩
  | cons d rest ih => exact ih (Consistent.put h hpending d) hpending

theorem Settled.startApproval (h : Settled departments t) :
    Settled departments (t.startApproval departments maxIterations) := by
  unfold Tables.startApproval
  split_ifs with hstatus
  · have hpending (d : δ) : (t.sections d).approvalStatus = .pending := by
      by_contra hne
      obtain ⟨thread, -, hstored, -⟩ := (h.consistent d).ended_of_ne_pending hne
      cases hstored.symm.trans (h.threads_eq_none hstatus d)
    have hnil : t.documents = [] := by
      by_contra hne
      cases hstatus.symm.trans (h.done.2 hne)
    obtain ⟨hconsistent, hsections, hdocuments⟩ :=
      Consistent.opened departments h.consistent hpending
    refine ⟨fun _ _ _ => .inl rfl, fun d => (hconsistent d).congr rfl rfl, ?_, ?_, ?_⟩
    · intro hne
      exact (hne (hdocuments.trans hnil)).elim
    · intro hne hall
      dsimp only at hall ⊢
      rw [hsections] at hall
      rw [hdocuments]
      exact h.finalized hne hall
    · exact iff_of_false nofun (not_not_intro (hdocuments.trans hnil))
  · exact h

omit [DecidableEq δ] in
/-- The end of a decision on a ticket that has no document. -/
theorem Tables.maybeFinalize_of_nil (hnil : t.documents = []) :
    t.maybeFinalize departments currency =
      if departments ≠ [] ∧ ∀ d ∈ departments, (t.sections d).approvalStatus = .approved then
        ({ t with
            documents := [⟨departments.map fun d => (d, (t.sections d).text), currency.getD .usd⟩]
            status := .done },
          .recorded true)
      else (t, .recorded false) := by
  unfold Tables.maybeFinalize
  simp only [hnil, ne_eq, List.map_eq_nil_iff, List.forall_mem_map, List.map_map, if_true,
    List.nil_append]
  rfl

omit [DecidableEq δ] in
theorem Settled.maybeFinalize (hstatus : t.status = .waitingForApproval) (hnil : t.documents = [])
    (hconsistent : ∀ d, Consistent t d) :
    Settled departments (t.maybeFinalize departments currency).1 := by
  rw [Tables.maybeFinalize_of_nil hnil]
  split_ifs with hall
  · exact ⟨fun _ _ _ => .inr rfl, fun d => (hconsistent d).congr rfl rfl, fun _ => hall,
      fun _ _ => List.cons_ne_nil _ _, iff_of_true rfl (List.cons_ne_nil _ _)⟩
  · exact ⟨fun _ _ _ => .inl hstatus, hconsistent, fun hne => (hne hnil).elim,
      fun hne happroved => (hall ⟨hne, happroved⟩).elim,
      iff_of_false (fun hdone => by cases hstatus.symm.trans hdone) (not_not_intro hnil)⟩

variable {call : DecisionCall δ} {redraft : Option (String × Evaluation)}

/-- A decision writes to its own department. -/
theorem Tables.decided_frame (t : Tables δ) (call : DecisionCall δ)
    (redraft : Option (String × Evaluation)) (thread : Checkpoint) (node : Node) :
    (t.decided call redraft thread node).status = t.status ∧
      (t.decided call redraft thread node).documents = t.documents ∧
      ∀ d, d ≠ call.department →
        (t.decided call redraft thread node).sections d = t.sections d ∧
          (t.decided call redraft thread node).threads d = t.threads d := by
  obtain ⟨hsections, hdocuments, hstatus, hthreads⟩ :=
    t.invoke_frame call.department call.action redraft thread node
  refine ⟨hstatus, hdocuments, fun d hd => ⟨?_, hthreads d hd⟩⟩
  exact (Tables.saveSection_sections_of_ne _ _ _ _ hd).trans (congrFun hsections d)

/-- The section and the thread of a decision. -/
theorem Tables.decided_self (t : Tables δ) (call : DecisionCall δ)
    (redraft : Option (String × Evaluation)) (thread : Checkpoint) (node : Node) :
    (t.decided call redraft thread node).sections call.department =
        recordDecision call.actor (t.sections call.department)
          (Rfp.invoke call.action redraft thread.values node).1
          (Rfp.invoke call.action redraft thread.values node).2 ∧
      ∃ id, (t.decided call redraft thread node).threads call.department =
        some ⟨id, (Rfp.invoke call.action redraft thread.values node).1,
          (Rfp.invoke call.action redraft thread.values node).2⟩ := by
  refine ⟨?_, t.invoke_threads_self call.department call.action redraft thread node⟩
  refine (Tables.saveSection_sections_self ..).trans ?_
  rw [(t.invoke_frame call.department call.action redraft thread node).1, Section.flush_self]
  rfl

/-- Section and thread agree after a decision. -/
theorem Consistent.decided (h : ∀ d, Consistent t d)
    (hpending : t.pending call.department = some (thread, node)) (d : δ) :
    Consistent (t.decided call redraft thread node) d := by
  obtain ⟨-, -, hother⟩ := t.decided_frame call redraft thread node
  by_cases hd : d = call.department
  · subst hd
    obtain ⟨-, houtcome, hdraft, -⟩ := (h call.department).paused_of_pending hpending
    obtain ⟨hsection, id, hstored⟩ := t.decided_self call redraft thread node
    have hmoved : Moved (t.sections call.department)
        (Rfp.invoke call.action redraft thread.values node).1
        (Rfp.invoke call.action redraft thread.values node).2 := by
      rcases invoke_cases call.action redraft node houtcome with
        ⟨outcome, hnext, hends, hkept⟩ | ⟨hnext, hnone⟩
      · exact .ended outcome hnext hends (hkept.trans hdraft)
      · exact .paused hnext hnone
    exact Moved.consistent hmoved hstored hsection
  · exact (h d).congr (hother d hd).1 (hother d hd).2

theorem Settled.submitDecision (h : Settled departments t) (currency : Option Currency)
    (call : DecisionCall δ) (redraft : Option (String × Evaluation)) :
    Settled departments (t.submitDecision departments currency call redraft).1 := by
  unfold Tables.submitDecision
  split_ifs with hmem
  · split
    · exact h
    · rename_i thread node hpending
      obtain ⟨hwaiting, hnil⟩ := h.of_pending hmem hpending
      obtain ⟨hstatus, hdocuments, -⟩ := t.decided_frame call redraft thread node
      exact .maybeFinalize (hstatus.trans hwaiting) (hdocuments.trans hnil)
        fun d => Consistent.decided h.consistent hpending d
  · exact h

/-- **Every call keeps the invariant.** -/
theorem Settled.perform (h : Settled departments t) (call : Call δ) :
    Settled departments (t.perform departments currency maxIterations call) := by
  cases call with
  | start => exact h.startApproval
  | decide call redraft => exact h.submitDecision currency call redraft

/-- **Sequences of calls keep the invariant.** -/
theorem Settled.after (h : Settled departments t) (calls : List (Call δ)) :
    Settled departments (t.after departments currency maxIterations calls) := by
  induction calls generalizing t with
  | nil => exact h
  | cons call calls ih => exact ih (h.perform call)

end

/-- The tables of a ticket whose warehouse section has a draft. -/
def draftedTables : Tables Department where
  status := .underEvaluation
  sections := fun _ => ⟨some "draft 1", none, 1, .pending, none⟩
  documents := []
  threads := fun _ => none
  checkpoints := 0
  resumed := []

theorem unopened_draftedTables : draftedTables.Unopened :=
  ⟨fun _ => rfl, fun _ => rfl, rfl, nofun⟩

end Rfp

end TrackFlow
