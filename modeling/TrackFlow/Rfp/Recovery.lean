import TrackFlow.Rfp.Proposals
import TrackFlow.Rfp.Sequence

/-!
# Decisions that fail

`submit_decision` moves the thread first and saves the section afterwards, in another store.  A
call that fails in between has moved the thread, and its section says what it said before.

* `dictated` : the status that a thread asks of its section.
* `agrees_submitDecision_iff` : what a decision makes of section and thread.
* `retry_agrees_iff` : **when the same decision, taken again, brings them together.**
* `approval_is_stranded` : an approval that fails before it is saved.
-/

namespace TrackFlow

namespace Rfp

/-- The status that the outcome of a thread asks of its section. -/
def dictated : Option Checkpoint → ApprovalStatus
  | none => .pending
  | some thread => (thread.values.outcome.map Outcome.status).getD .pending

/-- The section has the status that its thread asks for. -/
def Tables.Agrees {δ : Type} (t : Tables δ) (d : δ) : Prop :=
  (t.sections d).approvalStatus = dictated (t.threads d)

/-- `invoke` stops without an outcome in the next pause alone. -/
theorem invoke_outcome (action : Action) (redraft : Option (String × Evaluation))
    (values : ApprovalState) (node : Node) :
    (invoke action redraft values node).2.isSome ↔
      (invoke action redraft values node).1.outcome = none := by
  have hrevise (values : ApprovalState) :
      (runNode action redraft values .revise).2.isSome ↔
        (runNode action redraft values .revise).1.outcome = none := by
    rw [runNode, afterRevise, ← Option.not_isSome_iff_eq_none]
    split_ifs with h <;> simp [h]
  cases node with
  | review =>
    cases action with
    | approve => exact iff_of_false Bool.false_ne_true (Option.some_ne_none _)
    | reject => exact iff_of_false Bool.false_ne_true (Option.some_ne_none _)
    | requestChanges => exact hrevise _
  | approve => exact iff_of_false Bool.false_ne_true (Option.some_ne_none _)
  | reject => exact iff_of_false Bool.false_ne_true (Option.some_ne_none _)
  | revise => exact hrevise values

/-- `submit_decision` writes what the thread asks for. -/
theorem recordDecision_status (actor : String) (row : Section) {values : ApprovalState}
    {next : Option Node} (h : next.isSome ↔ values.outcome = none) (id : ℕ) :
    (recordDecision actor row values next).approvalStatus = dictated (some ⟨id, values, next⟩) := by
  cases houtcome : values.outcome with
  | none =>
    rw [recordDecision, if_pos (h.2 houtcome), dictated, houtcome]
    rfl
  | some outcome =>
    have hnext : next = none := by
      by_contra hne
      cases houtcome.symm.trans (h.1 (Option.ne_none_iff_isSome.1 hne))
    rw [hnext, (recordDecision_ended actor row houtcome).1, dictated, houtcome]
    rfl

section

variable {δ : Type} [DecidableEq δ] {departments : List δ} {currency : Option Currency}
  {call : DecisionCall δ} {redraft redraft' : Option (String × Evaluation)} {t later : Tables δ}
  {n : ℕ}

/-- A decision that finds its thread pending brings section and thread together, and any other one
leaves them as they are. -/
theorem agrees_submitDecision_iff (hmem : call.department ∈ departments) :
    (t.submitDecision departments currency call redraft).1.Agrees call.department ↔
      (t.pending call.department).isSome ∨ t.Agrees call.department := by
  rw [Tables.submitDecision, if_pos hmem]
  cases hpending : t.pending call.department with
  | none => simp
  | some p =>
    obtain ⟨thread, node⟩ := p
    refine iff_of_true ?_ (.inl rfl)
    obtain ⟨hsection, id, hthread⟩ := t.decided_self call redraft thread node
    unfold Tables.Agrees
    dsimp only
    rw [Tables.maybeFinalize_frame.1, Tables.maybeFinalize_frame.2, hsection, hthread]
    exact recordDecision_status _ _ (invoke_outcome ..) id

/-- A step to a phase before the save leaves the sections as they are. -/
theorem sections_of_isActive {t' : Tables δ} {phase phase' : DecisionPhase δ}
    (h : advanceDecision departments currency call redraft t phase = some (t', phase'))
    (hactive : phase'.IsActive ∨ phase' = .ready) :
    t'.sections = t.sections ∧ (phase.IsActive ∨ phase = .ready) := by
  have hsections := (advanceDecision_eq_some h).1
  cases phase with
  | ready => exact ⟨hsections.resolve_right (by simp), .inr rfl⟩
  | submitted loaded => exact ⟨hsections.resolve_right (by simp), .inl trivial⟩
  | checked loaded => exact ⟨hsections.resolve_right (by simp), .inl trivial⟩
  | resuming loaded thread => exact ⟨hsections.resolve_right (by simp), .inl trivial⟩
  | resumed loaded => exact ⟨hsections.resolve_right (by simp), .inl trivial⟩
  | resolved loaded values next =>
    cases h
    exact absurd hactive (by simp [DecisionPhase.IsActive])
  | saved =>
    cases h
    exact absurd hactive (by simp [DecisionPhase.IsActive])
  | refreshed own =>
    rw [advanceDecision] at h
    split_ifs at h <;> cases h <;> exact absurd hactive (by simp [DecisionPhase.IsActive])
  | consolidating rows =>
    rw [advanceDecision] at h
    split_ifs at h <;> cases h <;> exact absurd hactive (by simp [DecisionPhase.IsActive])
  | documented =>
    cases h
    exact absurd hactive (by simp [DecisionPhase.IsActive])
  | _ => cases h

/-- A call that has not saved its section has left the sections as they are. -/
theorem sections_stepsOf {phase : DecisionPhase δ}
    (hactive : (stepsOf (advanceDecision departments currency call redraft) n t
      phase).2.IsActive) :
    (stepsOf (advanceDecision departments currency call redraft) n t phase).1.sections =
      t.sections ∧ (phase.IsActive ∨ phase = .ready) := by
  induction n generalizing t phase with
  | zero => exact ⟨rfl, .inl hactive⟩
  | succ n ih =>
    cases hadvance : advanceDecision departments currency call redraft t phase with
    | none =>
      rw [stepsOf_of_eq_none hadvance] at hactive ⊢
      exact ⟨rfl, .inl hactive⟩
    | some p =>
      rw [stepsOf_succ hadvance] at hactive ⊢
      obtain ⟨hrest, hphase⟩ := ih hactive
      obtain ⟨hstep, hbefore⟩ := sections_of_isActive hadvance hphase
      exact ⟨hrest.trans hstep, hbefore⟩

/-- A call that has not saved its section is one on a department of the ticket. -/
theorem mem_of_isActive
    (hactive : (stepsOf (advanceDecision departments currency call redraft) n t
      .ready).2.IsActive) : call.department ∈ departments := by
  cases n with
  | zero => exact hactive.elim
  | succ n =>
    by_contra hmem
    rw [stepsOf_succ (by rw [advanceDecision, if_neg hmem]), stepsOf_of_eq_none rfl] at hactive
    exact hactive

/-- **When the same decision, taken again, brings them together.**  A decision has failed after some
of its steps, before its section was saved.  Later, when the thread and the section are still as it
has left them, the same decision is taken again: section and thread agree afterwards if and only if
the failed call had not ended the thread, or the section already had the status that the thread has
ended with. -/
theorem retry_agrees_iff
    (hactive : (stepsOf (advanceDecision departments currency call redraft) n t
      .ready).2.IsActive)
    (hthread : later.threads call.department =
      (stepsOf (advanceDecision departments currency call redraft) n t .ready).1.threads
        call.department)
    (hsection : later.sections call.department =
      (stepsOf (advanceDecision departments currency call redraft) n t .ready).1.sections
        call.department) :
    (later.submitDecision departments currency call redraft').1.Agrees call.department ↔
      ((stepsOf (advanceDecision departments currency call redraft) n t .ready).1.pending
        call.department).isSome ∨
      (t.sections call.department).approvalStatus =
        dictated ((stepsOf (advanceDecision departments currency call redraft) n t
          .ready).1.threads call.department) := by
  rw [agrees_submitDecision_iff (mem_of_isActive hactive), Tables.Agrees, Tables.pending, hthread,
    hsection, (sections_stepsOf hactive).1]
  rfl

end

/-! ### One department -/

/-- The thread of the warehouse section waits in its first pause. -/
def openTables : Tables Department :=
  draftedTables.after [.warehouse] (some .usd) 2 [.start]

/-- The tables and the phase of a decision on the warehouse section that fails after `n` steps. -/
def failedDecision (action : Action) (n : ℕ) : Tables Department × DecisionPhase Department :=
  stepsOf (advanceDecision [.warehouse] (some .usd) ⟨.warehouse, action, "owner"⟩
    (some ("draft 2", ⟨true, []⟩))) n openTables .ready

/-- An approval fails after its last checkpoint: the thread is approved, the section is pending, and
the approval is refused from then on. -/
theorem approval_is_stranded :
    (failedDecision .approve 5).2.IsActive ∧
      ((failedDecision .approve 5).1.threads .warehouse).map (·.values.outcome) =
        some (some .approved) ∧
      ((failedDecision .approve 5).1.submitDecision [.warehouse] (some .usd)
        ⟨.warehouse, .approve, "owner"⟩ none).2 = .alreadyResolved ∧
      ((failedDecision .approve 5).1.submitDecision [.warehouse] (some .usd)
        ⟨.warehouse, .approve, "owner"⟩ none).1.sections .warehouse =
          ⟨some "draft 1", none, 1, .pending, none⟩ ∧
      ¬((failedDecision .approve 5).1.submitDecision [.warehouse] (some .usd)
        ⟨.warehouse, .approve, "owner"⟩ none).1.Agrees .warehouse := by
  refine ⟨trivial, rfl, rfl, rfl, fun h => ?_⟩
  exact absurd (show ApprovalStatus.pending = .approved from h) (by decide)

/-- A request for changes fails after the redraft is in the thread; asked for again, the changes are
exhausted, and the section says so. -/
theorem retried_changes_agree :
    (failedDecision .requestChanges 5).2.IsActive ∧
      ((failedDecision .requestChanges 5).1.submitDecision [.warehouse] (some .usd)
        ⟨.warehouse, .requestChanges, "owner"⟩ none).1.Agrees .warehouse :=
  have hactive : (failedDecision .requestChanges 5).2.IsActive := trivial
  ⟨hactive, (retry_agrees_iff hactive rfl rfl).2 (.inl rfl)⟩

end Rfp

end TrackFlow
