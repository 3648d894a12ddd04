import TrackFlow.LTS.Machine
import TrackFlow.Rfp.Models

/-!
# The approval of a ticket

`start_ticket_approval` and `submit_decision` on one ticket, any number of calls at once.  Every
call goes from one durable step to the next: a statement that it commits, a read, or one node of
the graph with the checkpoint that is written after it.  Between two steps of a call the others
may take theirs; the checkpointer holds no lock, and neither do the reads.

* `advanceStart`, `advanceDecision` : the next step of a call.
* `desk` : the machine.
-/

namespace TrackFlow

namespace Rfp

/-- The rows of one ticket and the threads of its departments. -/
structure Tables (δ : Type) where
  status : TicketStatus
  sections : δ → Section
  documents : List (FinalDocument δ)
  threads : δ → Option Checkpoint
  /-- The identifier of the next checkpoint. -/
  checkpoints : ℕ
  /-- The pauses that decisions have resumed, by the identifiers of their checkpoints. -/
  resumed : List ℕ

/-- A call of `submit_decision`. -/
structure DecisionCall (δ : Type) where
  department : δ
  action : Action
  actor : String
  deriving DecidableEq, Repr

/-- How far a call of `start_ticket_approval` is. -/
inductive StartPhase (δ : Type)
  | ready
  /-- The threads that are still to be opened, with their inputs. -/
  | opening (rest : List (δ × ApprovalState))
  /-- The second session has read `under_evaluation`. -/
  | waiting
  | finished
  deriving DecidableEq, Repr

/-- How far a call of `submit_decision` is. -/
inductive DecisionPhase (δ : Type)
  | ready
  /-- The ticket and the section are loaded. -/
  | submitted (loaded : Section)
  /-- The thread was found to be pending. -/
  | checked (loaded : Section)
  /-- `invoke` runs from the checkpoint that it has in memory. -/
  | resuming (loaded : Section) (thread : Checkpoint)
  | resumed (loaded : Section)
  /-- The thread was read again. -/
  | resolved (loaded : Section) (values : ApprovalState) (next : Option Node)
  | saved
  /-- The session has read its own section back. -/
  | refreshed (own : Section)
  /-- `_maybe_finalize` has read the sections, and all are approved. -/
  | consolidating (sections : List (δ × Section))
  | documented
  | notFound
  | alreadyResolved
  /-- The unique key of the document was violated. -/
  | conflict
  | recorded (finalized : Bool)
  deriving DecidableEq, Repr

section

variable {δ : Type} [DecidableEq δ] (departments : List δ) (currency : Option Currency)
  (maxIterations : ℕ)

/-- The checkpointer stores a new checkpoint of the thread. -/
def Tables.put (t : Tables δ) (d : δ) (values : ApprovalState) (next : Option Node) : Tables δ :=
  { t with
    threads := Function.update t.threads d (some ⟨t.checkpoints, values, next⟩)
    checkpoints := t.checkpoints + 1 }

/-- The next step of `start_ticket_approval`. -/
def advanceStart (t : Tables δ) : StartPhase δ → Option (Tables δ × StartPhase δ)
  | .ready =>
    if t.status = .underEvaluation then
      some (t, .opening (departments.map fun d => (d, initialState maxIterations (t.sections d))))
    else some (t, .finished)
  | .opening ((d, input) :: rest) =>
    -- the graph runs from its start to the pause in `review`
    some (t.put d (writeInput (t.threads d) input) (some .review), .opening rest)
  | .opening [] =>
    -- a second session reads the status again
    if t.status = .underEvaluation then some (t, .waiting) else some (t, .finished)
  | .waiting => some ({ t with status := .waitingForApproval }, .finished)
  | .finished => none

/-- The thread after a node that `invoke` has run, and the pause that the node consumed. -/
def Tables.run (t : Tables δ) (d : δ) (thread : Checkpoint) (node : Node)
    (result : ApprovalState × Option Node) : Tables δ :=
  { t.put d result.1 result.2 with
    resumed := if node = .review then t.resumed ++ [thread.id] else t.resumed }

/-- `save_section`: the section that was read as `loaded` is committed as `changed`. -/
def Tables.saveSection (t : Tables δ) (d : δ) (loaded changed : Section) : Tables δ :=
  { t with sections := Function.update t.sections d (Section.flush loaded changed (t.sections d)) }

/-- The next step of `submit_decision`; `redraft` is what the generator returns if it is asked. -/
def advanceDecision (call : DecisionCall δ) (redraft : Option (String × Evaluation))
    (t : Tables δ) : DecisionPhase δ → Option (Tables δ × DecisionPhase δ)
  | .ready =>
    if call.department ∈ departments then some (t, .submitted (t.sections call.department))
    else some (t, .notFound)
  | .submitted loaded =>
    if (t.threads call.department).any (fun thread => thread.next.isSome) then
      some (t, .checked loaded)
    else some (t, .alreadyResolved)
  | .checked loaded =>
    (t.threads call.department).map fun thread => (t, .resuming loaded thread)
  | .resuming loaded thread =>
    match thread.next with
    | none => some (t, .resumed loaded)
    | some node =>
      let result := runNode call.action redraft thread.values node
      -- `invoke` returns when the graph has ended or pauses in `review`
      some (t.run call.department thread node result,
        if result.2 = none ∨ result.2 = some .review then .resumed loaded
        else .resuming loaded ⟨t.checkpoints, result.1, result.2⟩)
  | .resumed loaded =>
    (t.threads call.department).map fun thread => (t, .resolved loaded thread.values thread.next)
  | .resolved loaded values next =>
    let changed := recordDecision call.actor loaded values next
    some (t.saveSection call.department loaded changed, .saved)
  | .saved => some (t, .refreshed (t.sections call.department))
  | .refreshed own =>
    -- the query does not overwrite the section that the session has loaded already
    let rows := departments.map fun d => (d, if d = call.department then own else t.sections d)
    if rows ≠ [] ∧ ∀ row ∈ rows, row.2.approvalStatus = .approved then
      some (t, .consolidating rows)
    else some (t, .recorded false)
  | .consolidating rows =>
    if t.documents = [] then
      some
        ({ t with
            documents := t.documents ++
              [⟨rows.map fun row => (row.1, row.2.text), currency.getD .usd⟩] },
          .documented)
    else some (t, .conflict)
  | .documented => some ({ t with status := .done }, .recorded true)
  | _ => none

end

section

variable {δ : Type} [DecidableEq δ] (t : Tables δ) (d : δ) (values : ApprovalState)
  (next : Option Node)

@[simp] theorem Tables.put_threads_self :
    (t.put d values next).threads d = some ⟨t.checkpoints, values, next⟩ :=
  Function.update_self ..

@[simp] theorem Tables.put_threads_of_ne {d' : δ} (h : d' ≠ d) :
    (t.put d values next).threads d' = t.threads d' :=
  Function.update_of_ne h ..

@[simp] theorem Tables.saveSection_sections_self (loaded changed : Section) :
    (t.saveSection d loaded changed).sections d = Section.flush loaded changed (t.sections d) :=
  Function.update_self ..

@[simp] theorem Tables.saveSection_sections_of_ne (loaded changed : Section) {d' : δ} (h : d' ≠ d) :
    (t.saveSection d loaded changed).sections d' = t.sections d' :=
  Function.update_of_ne h ..

@[simp] theorem Tables.run_threads (thread : Checkpoint) (node : Node)
    (result : ApprovalState × Option Node) :
    (t.run d thread node result).threads = (t.put d result.1 result.2).threads := rfl

end

/-- A ticket and the calls on it. -/
structure Desk (δ σ ι : Type) where
  tables : Tables δ
  starts : σ → StartPhase δ
  decisions : ι → DecisionPhase δ

/-- Which call takes its next step. -/
inductive Turn (σ ι : Type)
  | start (call : σ)
  | decide (call : ι) (redraft : Option (String × Evaluation))

section

variable {δ σ ι : Type} [DecidableEq δ] [DecidableEq σ] [DecidableEq ι] (departments : List δ)
  (currency : Option Currency) (maxIterations : ℕ) (calls : ι → DecisionCall δ)

/-- The calls take their steps in any order. -/
def desk : Machine (Desk δ σ ι) (Turn σ ι) where
  next s
    | .start i =>
      (advanceStart departments maxIterations s.tables (s.starts i)).map fun (tables, phase) =>
        { s with tables, starts := Function.update s.starts i phase }
    | .decide i redraft =>
      (advanceDecision departments currency (calls i) redraft s.tables (s.decisions i)).map
        fun (tables, phase) =>
          { s with tables, decisions := Function.update s.decisions i phase }

end

/-- A ticket before its approval: every section is pending and no thread is open. -/
structure Unstarted {δ σ ι : Type} (s : Desk δ σ ι) : Prop where
  sections : ∀ d, (s.tables.sections d).approvalStatus = .pending
  threads : ∀ d, s.tables.threads d = none
  documents : s.tables.documents = []
  resumed : s.tables.resumed = []
  starts : ∀ i, s.starts i = .ready
  decisions : ∀ i, s.decisions i = .ready

/-- The call has its section loaded and not saved yet. -/
def DecisionPhase.IsActive {δ : Type} : DecisionPhase δ → Prop
  | .submitted _ => True
  | .checked _ => True
  | .resuming _ _ => True
  | .resumed _ => True
  | .resolved _ _ _ => True
  | _ => False

/-- The call has not begun, or has returned. -/
def DecisionPhase.IsIdle {δ : Type} : DecisionPhase δ → Prop
  | .ready => True
  | .notFound => True
  | .alreadyResolved => True
  | .conflict => True
  | .recorded _ => True
  | _ => False

/-- No call is in flight. -/
def Desk.Quiet {δ σ ι : Type} (s : Desk δ σ ι) : Prop :=
  (∀ i, s.starts i = .ready ∨ s.starts i = .finished) ∧ ∀ i, (s.decisions i).IsIdle

instance {δ : Type} (phase : DecisionPhase δ) : Decidable phase.IsActive := by
  cases phase <;> unfold DecisionPhase.IsActive <;> infer_instance

instance {δ : Type} (phase : DecisionPhase δ) : Decidable phase.IsIdle := by
  cases phase <;> unfold DecisionPhase.IsIdle <;> infer_instance

end Rfp

end TrackFlow
