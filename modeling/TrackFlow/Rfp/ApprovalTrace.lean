import TrackFlow.Agents.RunCost
import TrackFlow.Rfp.Sequence

/-!
# The traces of an approval

Every node of the approval graph that decides adds a step to the channel `steps` of its thread,
which the checkpointer keeps from one decision to the next.  `submit_decision` records the whole
channel, with the steps of its own end.

* `Approvals` : a ticket with the steps of its threads, and the traces that were recorded.
* `Approvals.submitDecision` : a decision, with what it executes and what it records.
* `BooksKept` : the invariant.
* `recorded_once_iff` : **every step is in one trace exactly when no department has had two
  decisions.**
* `redraft_recorded_twice` : a redraft that is approved.
-/

namespace TrackFlow

namespace Rfp

open Agents

/-- A step of a trace that was executed; `number` stands for the time at which it was. -/
structure ExecutedStep where
  number : ℕ
  step : NodeStep
  deriving DecidableEq

/-- Steps that are executed one after the other, from the time `n` on. -/
def stamp (n : ℕ) (steps : List NodeStep) : List ExecutedStep :=
  (steps.zipIdx n).map fun p => ⟨p.2, p.1⟩

/-- A ticket, and what is kept of the steps of its approval. -/
structure Approvals (δ : Type) where
  tables : Tables δ
  /-- The channel `steps` of the threads. -/
  steps : δ → List ExecutedStep
  /-- Every step that was executed. -/
  executed : List ExecutedStep
  /-- The traces that `_record_trace` has passed to `persist_run`. -/
  recorded : List (List ExecutedStep)
  /-- The departments of the decisions that were accepted. -/
  accepted : List δ

/-- How a redraft ends; `usage` is what the call of the generator reports. -/
def reviseEnd (redraft : Option (String × Evaluation)) (usage : Option ModelUsage)
    (values : ApprovalState) : ReviseEnd :=
  if values.maxIterations ≤ values.iterations then .capReached
  else
    match redraft with
    | none => .generationError usage
    | some _ => .redrafted usage

/-- What a node adds to the channel `steps`. -/
def nodeSteps (redraft : Option (String × Evaluation)) (usage : Option ModelUsage)
    (values : ApprovalState) : Node → List NodeStep
  | .review => []
  | .approve => [.quiet "approve" .ok none]
  | .reject => [.quiet "reject" .ok none]
  | .revise => [(reviseNode (reviseEnd redraft usage values)).1]

/-- What the nodes of an `invoke` add to the channel. -/
def invokeSteps (action : Action) (redraft : Option (String × Evaluation))
    (usage : Option ModelUsage) (values : ApprovalState) : Node → List NodeStep
  | .review => nodeSteps redraft usage values .review ++
      nodeSteps redraft usage (runNode action redraft values .review).1 (routeAfterReview action)
  | node => nodeSteps redraft usage values node

/-- The steps that `_maybe_finalize` and `submit_decision` append for `n` sections. -/
def closingSteps {δ : Type} (n : ℕ) : DecisionPhase δ → List NodeStep
  | .recorded true => [.quiet "arbitration" .ok (some ("sections=" ++ toString n)),
      .quiet "finalize" .ok none]
  | .conflict => [.quiet "arbitration" .ok (some ("sections=" ++ toString n))]
  | _ => []

/-- `_record_trace`; a call that has raised does not come to it. -/
def recordTrace {δ : Type} (steps : List ExecutedStep) :
    DecisionPhase δ → List (List ExecutedStep)
  | .recorded _ => if steps = [] then [] else [steps]
  | _ => []

section

variable {δ : Type} [DecidableEq δ] (departments : List δ) (currency : Option Currency)
  (maxIterations : ℕ)

/-- `start_ticket_approval`; its input leaves the channel as it is. -/
def Approvals.startApproval (s : Approvals δ) : Approvals δ :=
  { s with tables := s.tables.startApproval departments maxIterations }

/-- `submit_decision`, with the steps that it executes and the trace that it records. -/
def Approvals.submitDecision (s : Approvals δ) (call : DecisionCall δ)
    (redraft : Option (String × Evaluation)) (usage : Option ModelUsage) : Approvals δ :=
  if call.department ∈ departments then
    match s.tables.pending call.department with
    | none => s
    | some (thread, node) =>
      let (tables, response) :=
        (s.tables.decided call redraft thread node).maybeFinalize departments currency
      let own := invokeSteps call.action redraft usage thread.values node
      let steps := s.steps call.department ++ stamp s.executed.length own
      let closing :=
        stamp (s.executed.length + own.length) (closingSteps departments.length response)
      { tables
        steps := Function.update s.steps call.department steps
        executed := s.executed ++ stamp s.executed.length own ++ closing
        recorded := s.recorded ++ recordTrace (steps ++ closing) response
        accepted := s.accepted ++ [call.department] }
  else s

/-- A call, with the usage that its redraft reports. -/
inductive TracedCall (δ : Type)
  | start
  | decide (call : DecisionCall δ) (redraft : Option (String × Evaluation))
      (usage : Option ModelUsage)

/-- The ticket after a call. -/
def Approvals.perform (s : Approvals δ) : TracedCall δ → Approvals δ
  | .start => s.startApproval departments maxIterations
  | .decide call redraft usage => s.submitDecision departments currency call redraft usage

/-- The ticket after a sequence of calls. -/
def Approvals.after (s : Approvals δ) (calls : List (TracedCall δ)) : Approvals δ :=
  calls.foldl (Approvals.perform departments currency maxIterations) s

end

/-- A ticket before its approval. -/
structure Approvals.Unopened {δ : Type} (s : Approvals δ) : Prop where
  tables : s.tables.Unopened
  steps : ∀ d, s.steps d = []
  executed : s.executed = []
  recorded : s.recorded = []
  accepted : s.accepted = []

/-- The usage that the steps tell of. -/
def usages (steps : List ExecutedStep) : List StepUsage := steps.map fun step => step.step.usage

/-- Every executed step is in one trace and once in it, nothing else is in a trace, and the totals
of the traces add up to those of the executed steps. -/
structure RecordedOnce {δ : Type} (s : Approvals δ) : Prop where
  once : ∀ step ∈ s.executed, s.recorded.flatten.count step = 1
  executed : ∀ step ∈ s.recorded.flatten, step ∈ s.executed
  tokens : sumKnown (s.recorded.map fun trace => (runTotals (usages trace)).1) =
    (runTotals (usages s.executed)).1
  costUsd : sumKnown (s.recorded.map fun trace => (runTotals (usages trace)).2) =
    (runTotals (usages s.executed)).2

/-- The invariant: the channel of a thread has one step for each decision, and the first of them is
in as many traces. -/
structure BooksKept {δ : Type} [DecidableEq δ] (departments : List δ) (s : Approvals δ) : Prop where
  settled : Settled departments s.tables
  numbered : ∀ step ∈ s.executed, step.number < s.executed.length
  nodup : s.executed.Nodup
  length : ∀ d, (s.steps d).length = s.accepted.count d
  steps : ∀ d, ∀ step ∈ s.steps d, step ∈ s.executed
  executed : ∀ step ∈ s.recorded.flatten, step ∈ s.executed
  repeated : ∀ d, ∀ step ∈ (s.steps d).head?, s.accepted.count d ≤ s.recorded.flatten.count step
  once : s.accepted.Nodup → s.recorded.flatten.Perm s.executed

theorem map_number_stamp (n : ℕ) (steps : List NodeStep) :
    (stamp n steps).map ExecutedStep.number = List.range' n steps.length := by
  rw [stamp, List.map_map]
  exact List.zipIdx_map_snd n steps

theorem number_of_mem_stamp {n : ℕ} {steps : List NodeStep} {step : ExecutedStep}
    (h : step ∈ stamp n steps) : n ≤ step.number ∧ step.number < n + steps.length := by
  have hmem := List.mem_map_of_mem (f := ExecutedStep.number) h
  rw [map_number_stamp] at hmem
  exact List.mem_range'_1.1 hmem

theorem nodup_stamp (n : ℕ) (steps : List NodeStep) : (stamp n steps).Nodup := by
  refine List.Nodup.of_map ExecutedStep.number ?_
  rw [map_number_stamp]
  exact List.nodup_range'

theorem length_stamp (n : ℕ) (steps : List NodeStep) : (stamp n steps).length = steps.length := by
  rw [stamp, List.length_map, List.length_zipIdx]

theorem stamp_cons (n : ℕ) (step : NodeStep) (rest : List NodeStep) :
    stamp n [step] ++ stamp (n + 1) rest = stamp n (step :: rest) := by
  rw [stamp, stamp, stamp, List.zipIdx_cons, List.map_cons]
  rfl

/-- An `invoke` executes one step. -/
theorem exists_invokeSteps (action : Action) (redraft : Option (String × Evaluation))
    (usage : Option ModelUsage) (values : ApprovalState) (node : Node) :
    ∃ step, invokeSteps action redraft usage values node = [step] := by
  cases node with
  | review => cases action <;> exact ⟨_, rfl⟩
  | approve => exact ⟨_, rfl⟩
  | reject => exact ⟨_, rfl⟩
  | revise => exact ⟨_, rfl⟩

theorem recordTrace_of_ne_nil {δ : Type} {steps : List ExecutedStep} {finalized : Bool}
    (h : steps ≠ []) :
    recordTrace steps (.recorded finalized : DecisionPhase δ) = [steps] := if_neg h

/-- Traces that have every step once add up to the total of the steps. -/
theorem sumKnown_traces {M : Type} [AddCommMonoid M] (f : StepUsage → Option M)
    {traces : List (List ExecutedStep)} {steps : List ExecutedStep}
    (h : traces.flatten.Perm steps) :
    sumKnown (traces.map fun trace => sumKnown ((usages trace).map f)) =
      sumKnown ((usages steps).map f) :=
  calc sumKnown (traces.map fun trace => sumKnown ((usages trace).map f))
      = sumKnown ((traces.map fun trace => (usages trace).map f).map sumKnown) := by
        rw [List.map_map]
        rfl
    _ = sumKnown (traces.map fun trace => (usages trace).map f).flatten :=
        sumKnown_map_sumKnown _
    _ = sumKnown ((usages traces.flatten).map f) := by
        simp only [usages, List.map_flatten, List.map_map, Function.comp_def]
    _ = sumKnown ((usages steps).map f) := sumKnown_perm ((h.map _).map f)

section

variable {δ : Type} [DecidableEq δ] {departments : List δ} {currency : Option Currency}
  {maxIterations : ℕ} {s : Approvals δ}

theorem Approvals.Unopened.booksKept (h : s.Unopened) : BooksKept departments s where
  settled := h.tables.settled
  numbered := by simp [h.executed]
  nodup := by simp [h.executed]
  length := by simp [h.steps, h.accepted]
  steps := by simp [h.steps]
  executed := by simp [h.recorded]
  repeated := by simp [h.steps]
  once := by simp [h.executed, h.recorded]

/-- A decision that is accepted executes a step and those of its end, and records them after the
steps that its thread has. -/
theorem BooksKept.accept (h : BooksKept departments s) {tables : Tables δ}
    (hsettled : Settled departments tables) (d : δ) (step : NodeStep) (closing : List NodeStep) :
    BooksKept departments
      { tables
        steps := Function.update s.steps d (s.steps d ++ stamp s.executed.length [step])
        executed := s.executed ++ stamp s.executed.length [step] ++
          stamp (s.executed.length + 1) closing
        recorded := s.recorded ++ [s.steps d ++ stamp s.executed.length [step] ++
          stamp (s.executed.length + 1) closing]
        accepted := s.accepted ++ [d] } where
  settled := hsettled
  numbered x hx := by
    rw [List.append_assoc, stamp_cons] at hx ⊢
    rw [List.length_append, length_stamp]
    rcases List.mem_append.1 hx with hx | hx
    · exact Nat.lt_add_right _ (h.numbered x hx)
    · exact (number_of_mem_stamp hx).2
  nodup := by
    rw [List.append_assoc, stamp_cons]
    refine h.nodup.append (nodup_stamp _ _) fun x hx hx' => ?_
    exact absurd (h.numbered x hx) (Nat.not_lt.2 (number_of_mem_stamp hx').1)
  length d' := by
    dsimp only
    by_cases hd : d' = d
    · subst hd
      rw [Function.update_self, List.length_append, h.length, length_stamp, List.count_append,
        List.count_singleton_self]
      rfl
    · rw [Function.update_of_ne hd, h.length, List.count_append, List.count_singleton,
        if_neg (by simpa using Ne.symm hd), Nat.add_zero]
  steps d' x hx := by
    dsimp only at hx ⊢
    rw [List.append_assoc, List.mem_append]
    by_cases hd : d' = d
    · subst hd
      rw [Function.update_self] at hx
      exact (List.mem_append.1 hx).imp (h.steps d' x) (List.mem_append_left _)
    · rw [Function.update_of_ne hd] at hx
      exact .inl (h.steps d' x hx)
  executed x hx := by
    dsimp only at hx ⊢
    rw [List.flatten_append, List.flatten_singleton, List.append_assoc] at hx
    rw [List.append_assoc]
    rcases List.mem_append.1 hx with hx | hx
    · exact List.mem_append_left _ (h.executed x hx)
    · rcases List.mem_append.1 hx with hx | hx
      · exact List.mem_append_left _ (h.steps d x hx)
      · exact List.mem_append_right _ hx
  repeated d' x hx := by
    dsimp only at hx ⊢
    rw [List.flatten_append, List.flatten_singleton, List.count_append, List.count_append]
    by_cases hd : d' = d
    · subst hd
      rw [Function.update_self] at hx
      -- the first step is in the new trace, and in the traces of the decisions before
      have hpos : 0 < (s.steps d' ++ stamp s.executed.length [step] ++
          stamp (s.executed.length + 1) closing).count x :=
        List.count_pos_iff.2 (List.mem_append_left _ (List.mem_of_mem_head? hx))
      have hbefore : s.accepted.count d' ≤ s.recorded.flatten.count x := by
        cases hsteps : s.steps d' with
        | nil =>
          rw [← h.length d', hsteps]
          exact Nat.zero_le _
        | cons first rest =>
          refine h.repeated d' x ?_
          rw [hsteps] at hx ⊢
          exact hx
      rw [List.count_singleton_self]
      omega
    · rw [Function.update_of_ne hd] at hx
      have hbefore := h.repeated d' x hx
      rw [List.count_singleton, if_neg (by simpa using Ne.symm hd)]
      omega
  once hnodup := by
    dsimp only at hnodup ⊢
    have hbefore := h.once (List.Nodup.of_append_left hnodup)
    -- the thread has had no decision before
    have hnil : s.steps d = [] := by
      refine List.length_eq_zero_iff.1 ((h.length d).trans (List.count_eq_zero.2 fun hmem => ?_))
      exact (List.disjoint_of_nodup_append hnodup) hmem (List.mem_singleton_self d)
    rw [List.flatten_append, List.flatten_singleton, hnil, List.nil_append, List.append_assoc]
    exact hbefore.append_right _

theorem BooksKept.submitDecision (h : BooksKept departments s) (call : DecisionCall δ)
    (redraft : Option (String × Evaluation)) (usage : Option ModelUsage) :
    BooksKept departments (s.submitDecision departments currency call redraft usage) := by
  unfold Approvals.submitDecision
  split_ifs with hmem
  · split
    · exact h
    · rename_i thread node hpending
      have hsettled := h.settled.submitDecision currency call redraft
      rw [Tables.submitDecision, if_pos hmem, hpending] at hsettled
      dsimp only at hsettled ⊢
      -- there is no document yet, so the call comes to its end
      obtain ⟨-, hnil⟩ := h.settled.of_pending hmem hpending
      obtain ⟨-, hdocuments, -⟩ := s.tables.decided_frame call redraft thread node
      obtain ⟨step, hstep⟩ := exists_invokeSteps call.action redraft usage thread.values node
      rw [Tables.maybeFinalize_of_nil (hdocuments.trans hnil)] at hsettled ⊢
      rw [hstep]
      split_ifs at hsettled ⊢ with hall
      · dsimp only
        rw [recordTrace_of_ne_nil (by simp [stamp])]
        exact h.accept hsettled call.department step _
      · dsimp only
        rw [recordTrace_of_ne_nil (by simp [stamp])]
        exact h.accept hsettled call.department step _
  · exact h

theorem BooksKept.perform (h : BooksKept departments s) (call : TracedCall δ) :
    BooksKept departments (s.perform departments currency maxIterations call) := by
  cases call with
  | start => exact { h with settled := h.settled.startApproval }
  | decide call redraft usage => exact h.submitDecision call redraft usage

/-- **Sequences of calls keep the books.** -/
theorem BooksKept.after (h : BooksKept departments s) (calls : List (TracedCall δ)) :
    BooksKept departments (s.after departments currency maxIterations calls) := by
  induction calls generalizing s with
  | nil => exact h
  | cons call calls ih => exact ih (h.perform call)

omit [DecidableEq δ] in
theorem RecordedOnce.of_perm (hnodup : s.executed.Nodup)
    (hperm : s.recorded.flatten.Perm s.executed) : RecordedOnce s where
  once step hmem := (hperm.count_eq step).trans (List.count_eq_one_of_mem hnodup hmem)
  executed _ hmem := hperm.subset hmem
  tokens := sumKnown_traces StepUsage.tokens hperm
  costUsd := sumKnown_traces StepUsage.costUsd hperm

/-- **Every step is in one trace exactly when no department has had two decisions.**  After every
sequence of calls, the executed steps are each in one recorded trace, and the totals add up, if and
only if no second decision was accepted for a department. -/
theorem recorded_once_iff (h : s.Unopened) (calls : List (TracedCall δ)) :
    RecordedOnce (s.after departments currency maxIterations calls) ↔
      (s.after departments currency maxIterations calls).accepted.Nodup := by
  have hkept : BooksKept departments (s.after departments currency maxIterations calls) :=
    h.booksKept.after calls
  refine ⟨fun hrecorded => ?_, fun hnodup => .of_perm hkept.nodup (hkept.once hnodup)⟩
  rw [List.nodup_iff_count_le_one]
  intro d
  have hlength := hkept.length d
  cases hsteps : (s.after departments currency maxIterations calls).steps d with
  | nil =>
    rw [hsteps] at hlength
    exact hlength.symm.trans_le (Nat.zero_le 1)
  | cons first rest =>
    have hmem : first ∈ (s.after departments currency maxIterations calls).steps d := by
      rw [hsteps]
      exact List.mem_cons_self
    have hrepeated := hkept.repeated d first (by rw [hsteps]; rfl)
    rwa [hrecorded.once first (hkept.steps d first hmem)] at hrepeated

end

/-! ### A redraft that is approved -/

/-- A ticket whose warehouse section has a draft, before its approval. -/
def draftedApproval : Approvals Department where
  tables := draftedTables
  steps := fun _ => []
  executed := []
  recorded := []
  accepted := []

theorem unopened_draftedApproval : draftedApproval.Unopened :=
  ⟨unopened_draftedTables, fun _ => rfl, rfl, rfl, rfl⟩

/-- The section is approved. -/
def approveWarehouse : TracedCall Department := .decide ⟨.warehouse, .approve, "owner"⟩ none none

/-- Changes are asked for, and the redraft reports 120 tokens. -/
def redraftWarehouse : TracedCall Department :=
  .decide ⟨.warehouse, .requestChanges, "owner"⟩ (some ("draft 2", ⟨true, []⟩))
    (usageOf "gpt-4o-mini")

/-- The redraft is in the trace of its own decision and in that of the approval, and its tokens are
counted twice. -/
theorem redraft_recorded_twice :
    let s := draftedApproval.after [.warehouse] (some .usd) 2
      [.start, redraftWarehouse, approveWarehouse]
    ¬RecordedOnce s ∧
      s.recorded.map (fun trace => trace.map fun step => step.step.nodeName) =
        [["revise"], ["revise", "approve", "arbitration", "finalize"]] ∧
      sumKnown (s.recorded.map fun trace => (runTotals (usages trace)).1) = some 240 ∧
      (runTotals (usages s.executed)).1 = some 120 := by
  have htraces : sumKnown ((draftedApproval.after [.warehouse] (some .usd) 2
      [.start, redraftWarehouse, approveWarehouse]).recorded.map
        fun trace => (runTotals (usages trace)).1) = some 240 := by decide
  have hsteps : (runTotals (usages (draftedApproval.after [.warehouse] (some .usd) 2
      [.start, redraftWarehouse, approveWarehouse]).executed)).1 = some 120 := by decide
  refine ⟨fun h => ?_, by decide, htraces, hsteps⟩
  have htokens := h.tokens
  rw [htraces, hsteps] at htokens
  exact absurd htokens (by decide)

/-- An approval without changes is recorded once. -/
theorem recorded_once_of_approval :
    RecordedOnce (draftedApproval.after [.warehouse] (some .usd) 2 [.start, approveWarehouse]) :=
  (recorded_once_iff unopened_draftedApproval [.start, approveWarehouse]).2 (by decide)

end Rfp

end TrackFlow
