import TrackFlow.LTS.Machine
import TrackFlow.LTS.Tickets
import TrackFlow.Queue.Models

/-!
# The guard of the database size

`scripts/db_size_guard.py` pauses the feed when the database is large, and truncates the ledger
when it is too large and the owner has approved that.  The owner approves by writing a note into the
control row of the feed; a guard consumes the note, asks for a reporting run as a checkpoint, and
truncates once it has seen the run succeed.  Several guards may be under way, the owner writes the
control row at any time, and every statement can fail.

* `guardStep` : one statement of `guard_once`.
* `Sound` : the invariant; approvals and checkpoints are tickets.
* `reset_needs_own_approval` : **every truncation has consumed an approval of its own and has seen
  a checkpoint of its own succeed; an approval whose guard has ended without one is void.**
* `guard_keeps_feed_paused` : the feed is switched on by the owner, or after a truncation.
-/

namespace TrackFlow

namespace SizeGuard

open Queue (RunStatus)

/-! ## The control row -/

/-- `operations_feed_control`. -/
structure FeedControl where
  enabled : Bool
  note : Option String
  deriving DecidableEq, Repr

/-- `RESET_APPROVAL_NOTE`. -/
def resetApprovalNote : String := "owner-approved-db-size-reset"

/-- `RESET_APPROVAL_CONSUMED_NOTE`. -/
def resetApprovalConsumedNote : String := "db_size_guard: owner approval consumed"

/-- The note of a guard that has reset the ledger. -/
def resetCompleteNote : String := "db_size_guard: owner-approved reset complete"

/-- What `_row` inserts. -/
def autoCreated : FeedControl := ⟨true, some "auto-created"⟩

/-- The row has the owner's note. -/
def FeedControl.approves (row : FeedControl) : Bool := decide (row.note = some resetApprovalNote)

/-- The `UPDATE` of `set_feed_enabled` sets the columns that differ from the row as loaded. -/
def FeedControl.flush (loaded : FeedControl) (enabled : Bool) (note : String)
    (current : FeedControl) : FeedControl where
  enabled := if loaded.enabled = enabled then current.enabled else enabled
  note := if loaded.note = some note then current.note else some note

/-! ## A guard -/

/-- `db_size_soft_limit_mb` and `db_size_hard_limit_mb`. -/
structure Limits where
  soft : ℕ
  hard : ℕ

/-- `_BYTES_PER_MB`. -/
def bytesPerMb : ℕ := 1024 * 1024

/-- The limit that is reached. -/
inductive Level
  | soft
  | hard
  deriving DecidableEq, Repr

/-- The note of a pause. -/
def Level.note : Level → String
  | .soft => "db_size_guard: soft limit reached"
  | .hard => "db_size_guard: hard limit reached; owner approval required"

/-- The level of a database size. -/
def Limits.level (limits : Limits) (sizeBytes : ℕ) : Option Level :=
  if limits.hard * bytesPerMb ≤ sizeBytes then some .hard
  else if limits.soft * bytesPerMb ≤ sizeBytes then some .soft
  else none

/-- The columns of a reporting run that the guard reads. -/
structure CheckpointRow where
  status : RunStatus
  finishedAt : Option ℕ
  deriving DecidableEq, Repr

/-- `row["status"] == "succeeded" and row["finished_at"] is not None` -/
def CheckpointRow.succeeded (row : CheckpointRow) : Bool :=
  decide (row.status = .succeeded) && row.finishedAt.isSome

/-- A truncation: which approval and which run it rests on. -/
structure Reset where
  approval : ℕ
  run : ℕ
  deriving DecidableEq, Repr

/-- Where a guard is. -/
inductive Pc
  | idle
  | reading (level : Level)
  | pausing (level : Level) (loaded : FeedControl)
  | consuming
  | approved (approval : ℕ)
  | polling (approval run : ℕ)
  | confirmed (approval run : ℕ)
  | rebuilding (reset : Reset)
  | resuming (reset : Reset) (loaded : FeedControl)
  deriving DecidableEq, Repr

/-- What decides a statement of a guard. -/
inductive GuardChoice
  | measure (sizeBytes : ℕ)
  | ok
  /-- The deadline of the checkpoint has passed. -/
  | timeout
  /-- An exception. -/
  | fail
  deriving DecidableEq, Repr

/-- The database, as far as the guards see it.  The last three fields are its history: how often the
owner has written the note, how often a guard has consumed it, and which runs have succeeded. -/
structure Shared where
  control : Option FeedControl
  /-- The reporting runs that guards have asked for; a run that was pruned is `none`. -/
  runs : List (Option CheckpointRow)
  /-- The truncations, oldest first. -/
  resets : List Reset
  approvals : ℕ
  consumed : ℕ
  succeeded : List ℕ
  deriving DecidableEq, Repr

/-- `_row`: the control row, which is inserted when there is none. -/
def Shared.row (s : Shared) : Shared × FeedControl :=
  match s.control with
  | some row => (s, row)
  | none => ({ s with control := some autoCreated }, autoCreated)

/-- The database after the `UPDATE` of `set_feed_enabled`; it fails when the row is gone. -/
def Shared.flush (s : Shared) (loaded : FeedControl) (enabled : Bool) (note : String) :
    Option Shared :=
  s.control.map fun current => { s with control := some (loaded.flush enabled note current) }

/-- After the feed is off. -/
def Level.next : Level → Pc
  | .soft => .idle
  | .hard => .consuming

/-- The next statement of a guard. -/
def guardStep (limits : Limits) (pc : Pc) (c : GuardChoice) (s : Shared) : Option (Shared × Pc) :=
  match pc, c with
  | _, .fail => some (s, .idle)
  | .idle, .measure sizeBytes =>
    match limits.level sizeBytes with
    | none => some (s, .idle)
    | some level => some (s, .reading level)
  | .reading level, .ok =>
    if s.row.2.enabled then some (s.row.1, .pausing level s.row.2)
    else some (s.row.1, level.next)
  | .pausing level loaded, .ok =>
    match s.flush loaded false level.note with
    | none => some (s, .idle)
    | some s' => some (s', level.next)
  | .consuming, .ok =>
    -- the `WHERE` clause of `consume_reset_approval`
    if s.control = some ⟨false, some resetApprovalNote⟩ then
      some ({ s with
        control := some ⟨false, some resetApprovalConsumedNote⟩
        consumed := s.consumed + 1 }, .approved s.consumed)
    else some (s, .idle)
  | .approved approval, .ok =>
    some ({ s with runs := s.runs ++ [some ⟨.requested, none⟩] }, .polling approval s.runs.length)
  | .polling approval run, .ok =>
    match s.runs[run]? with
    | some (some row) =>
      if row.succeeded then some (s, .confirmed approval run)
      else if row.status = .failed then some (s, .idle)
      else some (s, .polling approval run)
    | _ => some (s, .idle)
  | .polling _ _, .timeout => some (s, .idle)
  | .confirmed approval run, .ok =>
    some ({ s with resets := s.resets ++ [⟨approval, run⟩] }, .rebuilding ⟨approval, run⟩)
  | .rebuilding reset, .ok => some (s.row.1, .resuming reset s.row.2)
  | .resuming _ loaded, .ok =>
    match s.flush loaded true resetCompleteNote with
    | none => some (s, .idle)
    | some s' => some (s', .idle)
  | _, _ => none

/-- The guards and the database. -/
structure State (ι : Type*) where
  shared : Shared
  pc : ι → Pc

/-- What happens next. -/
inductive Label (ι : Type*)
  | guard (i : ι) (c : GuardChoice)
  /-- The owner writes the control row, or deletes it. -/
  | owner (row : Option FeedControl)
  /-- A worker or the retention of the runs. -/
  | work (run : ℕ) (row : Option CheckpointRow)
  deriving DecidableEq, Repr

/-- The database after the owner's write. -/
def Shared.write (s : Shared) (row : Option FeedControl) : Shared :=
  { s with
    control := row
    approvals := s.approvals + if row.any FeedControl.approves then 1 else 0 }

/-- The database after a run was worked on. -/
def Shared.work (s : Shared) (run : ℕ) (row : Option CheckpointRow) : Shared :=
  { s with
    runs := s.runs.set run row
    succeeded := s.succeeded ++ if row.any CheckpointRow.succeeded then [run] else [] }

/-- The state after a label. -/
def next {ι : Type*} [DecidableEq ι] (limits : Limits) (s : State ι) : Label ι → Option (State ι)
  | .guard i c => (guardStep limits (s.pc i) c s.shared).map fun r =>
      ⟨r.1, Function.update s.pc i r.2⟩
  | .owner row => some { s with shared := s.shared.write row }
  | .work run row =>
    if run < s.shared.runs.length then some { s with shared := s.shared.work run row } else none

/-- The guards, the owner and the workers. -/
def machine (ι : Type*) [DecidableEq ι] (limits : Limits) : Machine (State ι) (Label ι) :=
  ⟨next limits⟩

/-- No guard is under way, and nothing is approved. -/
def start (ι : Type*) (control : Option FeedControl) : State ι :=
  ⟨⟨control, [], [], 0, 0, []⟩, fun _ => .idle⟩

/-! ## What a statement does -/

/-- The approval that a guard has consumed and may still use. -/
def Pc.approval : Pc → Option ℕ
  | .approved approval => some approval
  | .polling approval _ => some approval
  | .confirmed approval _ => some approval
  | _ => none

/-- The checkpoint that a guard has asked for and may still use. -/
def Pc.run : Pc → Option ℕ
  | .polling _ run => some run
  | .confirmed _ run => some run
  | _ => none

/-- The truncation after which a guard is. -/
def Pc.reset : Pc → Option Reset
  | .rebuilding reset => some reset
  | .resuming reset _ => some reset
  | _ => none

/-- The owner's note is in the control row. -/
def Shared.approved (s : Shared) : Bool := s.control.any FeedControl.approves

/-- What a statement of a guard does. -/
inductive Effect : Shared → Pc → Shared → Pc → Prop
  /-- The guard writes no approval, holds none afterwards, and has truncated only if it had. -/
  | quiet {s : Shared} {pc pc' : Pc} {control : Option FeedControl}
      (happroves : ({ s with control := control } : Shared).approved = true → s.approved = true)
      (happroval : pc'.approval = none) (hrun : pc'.run = none)
      (hreset : pc'.reset = none ∨ pc'.reset = pc.reset) :
      Effect s pc { s with control := control } pc'
  | consume {s : Shared} (h : s.control = some ⟨false, some resetApprovalNote⟩) :
      Effect s .consuming
        { s with
          control := some ⟨false, some resetApprovalConsumedNote⟩
          consumed := s.consumed + 1 }
        (.approved s.consumed)
  | request {s : Shared} {approval : ℕ} :
      Effect s (.approved approval) { s with runs := s.runs ++ [some ⟨.requested, none⟩] }
        (.polling approval s.runs.length)
  | wait {s : Shared} {approval run : ℕ} :
      Effect s (.polling approval run) s (.polling approval run)
  | confirm {s : Shared} {approval run : ℕ} {row : CheckpointRow}
      (hrow : s.runs[run]? = some (some row)) (h : row.succeeded = true) :
      Effect s (.polling approval run) s (.confirmed approval run)
  | truncate {s : Shared} {approval run : ℕ} :
      Effect s (.confirmed approval run) { s with resets := s.resets ++ [⟨approval, run⟩] }
        (.rebuilding ⟨approval, run⟩)

section

variable {limits : Limits} {s s' : Shared} {pc pc' : Pc} {c : GuardChoice} {level : Level}

theorem approval_next : level.next.approval = none := by cases level <;> rfl

theorem run_next : level.next.run = none := by cases level <;> rfl

theorem reset_next : level.next.reset = none := by cases level <;> rfl

/-- A statement that leaves the database alone. -/
theorem Effect.same (happroval : pc'.approval = none) (hrun : pc'.run = none)
    (hreset : pc'.reset = none ∨ pc'.reset = pc.reset) : Effect s pc s pc' := by
  have hsame : s.approved = true → s.approved = true := id
  exact .quiet hsame happroval hrun hreset

theorem Shared.row_eq (s : Shared) :
    s.row.1 = { s with control := s.row.1.control } ∧
      (s.row.1.approved = true → s.approved = true) := by
  obtain ⟨_ | row, runs, resets, approvals, consumed, succeeded⟩ := s
  · have hauto : autoCreated.approves = false := by decide
    exact ⟨rfl, fun happroves => by cases hauto.symm.trans happroves⟩
  · exact ⟨rfl, id⟩

theorem FeedControl.approves_iff {row : FeedControl} :
    row.approves = true ↔ row.note = some resetApprovalNote := decide_eq_true_iff

/-- The notes of the guard are no approvals. -/
theorem FeedControl.approves_flush {loaded current : FeedControl} {enabled : Bool} {note : String}
    (hnote : note ≠ resetApprovalNote)
    (h : (loaded.flush enabled note current).approves = true) : current.approves = true := by
  rw [FeedControl.approves_iff] at h ⊢
  dsimp only [FeedControl.flush] at h
  by_cases hsame : loaded.note = some note
  · rwa [if_pos hsame] at h
  · rw [if_neg hsame] at h
    exact absurd (Option.some.inj h) hnote

theorem Shared.flush_eq {loaded : FeedControl} {enabled : Bool} {note : String}
    (hnote : note ≠ resetApprovalNote) (h : s.flush loaded enabled note = some s') :
    s' = { s with control := s'.control } ∧ (s'.approved = true → s.approved = true) := by
  obtain ⟨current, hcurrent, rfl⟩ := Option.map_eq_some_iff.1 h
  refine ⟨rfl, fun happroves => ?_⟩
  rw [Shared.approved, hcurrent]
  exact FeedControl.approves_flush hnote happroves

theorem Level.note_ne (level : Level) : level.note ≠ resetApprovalNote := by
  cases level <;> decide

/-- **Everything a statement of a guard can do.** -/
theorem effect_of_guardStep :
    guardStep limits pc c s = some (s', pc') → Effect s pc s' pc' := by
  fun_cases guardStep limits pc c s <;> intro h
  case case1 | case2 | case3 | case6 | case9 | case12 | case14 | case15 | case18 =>
    -- the shared state is as it was
    cases h
    exact .same rfl rfl (.inl rfl)
  case case4 =>
    -- the feed is on
    obtain ⟨hrow, happroves⟩ := s.row_eq
    cases h
    rw [hrow]
    exact .quiet happroves rfl rfl (.inl rfl)
  case case5 =>
    -- the feed is off
    obtain ⟨hrow, happroves⟩ := s.row_eq
    cases h
    rw [hrow]
    exact .quiet happroves approval_next run_next (.inl reset_next)
  case case7 hflush =>
    -- the pause
    cases h
    obtain ⟨hs', happroves⟩ := Shared.flush_eq (Level.note_ne _) hflush
    rw [hs']
    exact .quiet happroves approval_next run_next (.inl reset_next)
  case case8 happroved =>
    -- the approval
    cases h
    exact .consume happroved
  case case10 =>
    -- the checkpoint is asked for
    cases h
    exact .request
  case case11 hrow hsucceeded =>
    -- the checkpoint is observed
    cases h
    exact .confirm hrow hsucceeded
  case case13 =>
    -- the wait for the checkpoint
    cases h
    exact .wait
  case case16 =>
    -- the ledger is truncated
    cases h
    exact .truncate
  case case17 =>
    -- the ledger has been rebuilt
    obtain ⟨hrow, happroves⟩ := s.row_eq
    cases h
    rw [hrow]
    exact .quiet happroves rfl rfl (.inr rfl)
  case case19 hflush =>
    -- the feed is switched on
    cases h
    obtain ⟨hs', happroves⟩ := Shared.flush_eq (by decide) hflush
    rw [hs']
    exact .quiet happroves rfl rfl (.inl rfl)
  case case20 => cases h

/-- A guard that finds the feed off and leaves it on has truncated the ledger. -/
theorem resuming_of_guardStep {row row' : FeedControl}
    (hstep : guardStep limits pc c s = some (s', pc')) (hrow : s.control = some row)
    (hoff : row.enabled = false) (hrow' : s'.control = some row') (hon : row'.enabled = true) :
    ∃ reset loaded, pc = .resuming reset loaded := by
  have hkeep : s'.control = s.control → False := by
    intro hsame
    rw [hsame, hrow] at hrow'
    cases hrow'
    rw [hoff] at hon
    cases hon
  have hload : s.row = (s, row) := by
    unfold Shared.row
    rw [hrow]
  revert hstep
  fun_cases guardStep limits pc c s <;> intro h
  case case4 | case5 | case17 =>
    rw [hload] at h
    cases h
    exact (hkeep rfl).elim
  case case7 hflush =>
    -- a pause never switches the feed on
    obtain ⟨current, hcurrent, rfl⟩ := Option.map_eq_some_iff.1 hflush
    cases h
    rw [hrow] at hcurrent
    cases hcurrent
    cases hrow'
    simp only [FeedControl.flush, hoff] at hon
    split_ifs at hon
  case case8 =>
    cases h
    cases hrow'
    cases hon
  case case18 | case19 => exact ⟨_, _, rfl⟩
  case case20 => cases h
  all_goals
    cases h
    exact (hkeep rfl).elim

end

/-! ## The invariant -/

/-- Approvals and checkpoints are tickets; a guard past its checkpoint has seen it succeed, and one
past its truncation has truncated. -/
structure Sound {ι : Type*} (s : State ι) : Prop where
  approvals : s.shared.consumed + (if s.shared.approved = true then 1 else 0) ≤ s.shared.approvals
  approval : Tickets s.shared.consumed (fun i => (s.pc i).approval)
    (s.shared.resets.map Reset.approval)
  run : Tickets s.shared.runs.length (fun i => (s.pc i).run) (s.shared.resets.map Reset.run)
  observed : ∀ run row, s.shared.runs[run]? = some (some row) → row.succeeded = true →
    run ∈ s.shared.succeeded
  confirmed : ∀ i approval run, s.pc i = .confirmed approval run → run ∈ s.shared.succeeded
  reset : ∀ reset ∈ s.shared.resets, reset.run ∈ s.shared.succeeded
  done : ∀ i reset, (s.pc i).reset = some reset → reset ∈ s.shared.resets

section

variable {ι : Type*} [DecidableEq ι] {limits : Limits} {s s' : State ι} {l : Label ι} {i : ι}
  {shared : Shared} {pc : Pc} {n : ℕ}

/-- A guard moves: what holds of the new position, and of those of the others. -/
theorem forall_update {p : ι → Pc → Prop} {f : ι → Pc} (hi : p i pc) (hf : ∀ j, p j (f j)) (j : ι) :
    p j (Function.update f i pc j) := by
  by_cases hj : j = i
  · subst hj
    rwa [Function.update_self]
  · rw [Function.update_of_ne hj]
    exact hf j

theorem approval_update (f : ι → Pc) :
    (fun j => (Function.update f i pc j).approval) =
      Function.update (fun j => (f j).approval) i pc.approval := by
  funext j
  by_cases hj : j = i
  · subst hj
    simp
  · simp [hj]

theorem run_update (f : ι → Pc) :
    (fun j => (Function.update f i pc j).run) =
      Function.update (fun j => (f j).run) i pc.run := by
  funext j
  by_cases hj : j = i
  · subst hj
    simp
  · simp [hj]

omit [DecidableEq ι] in
theorem Sound.start {control : Option FeedControl}
    (h : control.any FeedControl.approves = false) : Sound (start ι control) where
  approvals := by
    have happroved : (SizeGuard.start ι control).shared.approved = false := h
    rw [happroved]
    exact Nat.zero_le _
  approval := Tickets.start
  run := Tickets.start
  observed run row hrow := by simp [SizeGuard.start] at hrow
  confirmed i approval run hpc := by cases hpc
  reset reset hreset := by cases hreset
  done i reset hpc := by cases hpc

theorem Sound.confirmed_update (h : Sound s)
    (hpc : ∀ approval run, pc = .confirmed approval run → run ∈ s.shared.succeeded) :
    ∀ j approval run, Function.update s.pc i pc j = .confirmed approval run →
      run ∈ s.shared.succeeded :=
  forall_update (p := fun _ pc => ∀ approval run, pc = .confirmed approval run →
    run ∈ s.shared.succeeded) hpc h.confirmed

theorem Sound.done_update (h : Sound s) {resets : List Reset}
    (hsub : ∀ reset ∈ s.shared.resets, reset ∈ resets)
    (hpc : ∀ reset, pc.reset = some reset → reset ∈ resets) :
    ∀ j reset, (Function.update s.pc i pc j).reset = some reset → reset ∈ resets :=
  forall_update (p := fun _ pc => ∀ reset, pc.reset = some reset → reset ∈ resets) hpc
    fun j reset hj => hsub reset (h.done j reset hj)

/-- A guard that holds no approval and no checkpoint afterwards. -/
theorem Sound.quiet (h : Sound s) {control : Option FeedControl}
    (happroves : ({ s.shared with control := control } : Shared).approved = true →
      s.shared.approved = true)
    (happroval : pc.approval = none) (hrun : pc.run = none)
    (hreset : pc.reset = none ∨ pc.reset = (s.pc i).reset) :
    Sound (⟨{ s.shared with control := control }, Function.update s.pc i pc⟩ : State ι) where
  approvals := by
    refine le_trans (Nat.add_le_add_left ?_ _) h.approvals
    split_ifs with hnew hold
    · exact le_rfl
    · exact absurd (happroves hnew) hold
    · exact Nat.zero_le _
    · exact le_rfl
  approval := by
    rw [approval_update, happroval]
    exact h.approval.drop i
  run := by
    rw [run_update, hrun]
    exact h.run.drop i
  observed := h.observed
  confirmed := h.confirmed_update fun approval run hpc => by subst hpc; cases hrun
  reset := h.reset
  done := by
    refine h.done_update (fun _ => id) fun reset hpc => ?_
    rcases hreset with hnone | hsame
    · rw [hnone] at hpc
      cases hpc
    · exact h.done i reset (hsame.symm.trans hpc)

/-- A guard moves on with the tickets that it holds. -/
theorem Sound.hold (h : Sound s) (happroval : pc.approval = (s.pc i).approval)
    (hrun : pc.run = (s.pc i).run) (hreset : pc.reset = none)
    (hconfirmed : ∀ approval run, pc = .confirmed approval run → run ∈ s.shared.succeeded) :
    Sound (⟨s.shared, Function.update s.pc i pc⟩ : State ι) where
  approvals := h.approvals
  approval := by
    rw [approval_update, happroval, Function.update_eq_self_iff.2 rfl]
    exact h.approval
  run := by
    rw [run_update, hrun, Function.update_eq_self_iff.2 rfl]
    exact h.run
  observed := h.observed
  confirmed := h.confirmed_update hconfirmed
  reset := h.reset
  done := h.done_update (fun _ => id) fun reset hpc => by rw [hreset] at hpc; cases hpc

/-- **Every statement of a guard keeps the invariant.** -/
theorem Sound.guard (h : Sound s) (he : Effect s.shared (s.pc i) shared pc) :
    Sound (⟨shared, Function.update s.pc i pc⟩ : State ι) := by
  generalize hpc : s.pc i = pc₀ at he
  cases he with
  | quiet happroves happroval hrun hreset => exact h.quiet happroves happroval hrun (hpc ▸ hreset)
  | consume hcontrol =>
    have happroved : s.shared.approved = true := by
      rw [Shared.approved, hcontrol]
      decide
    exact {
      approvals := by
        have hle := h.approvals
        rw [if_pos happroved] at hle
        exact hle
      approval := by
        rw [approval_update]
        exact h.approval.draw i
      run := by
        rw [run_update]
        exact h.run.drop i
      observed := h.observed
      confirmed := h.confirmed_update fun approval run hpc => by cases hpc
      reset := h.reset
      done := h.done_update (fun _ => id) fun reset hpc => by cases hpc }
  | @request approval =>
    have hsame : Pc.approval (.polling approval s.shared.runs.length) = (s.pc i).approval := by
      rw [hpc]
      rfl
    exact {
      approvals := h.approvals
      approval := by
        rw [approval_update, hsame, Function.update_eq_self_iff.2 rfl]
        exact h.approval
      run := by
        rw [run_update, List.length_append]
        exact h.run.draw i
      observed := by
        intro run row hrow hsucceeded
        rcases Nat.lt_or_ge run s.shared.runs.length with hlt | hge
        · rw [List.getElem?_append_left hlt] at hrow
          exact h.observed run row hrow hsucceeded
        · -- a new run has not succeeded
          rw [List.getElem?_append_right hge, List.getElem?_singleton] at hrow
          split_ifs at hrow
          cases hrow
          cases hsucceeded
      confirmed := h.confirmed_update fun approval run hpc => by cases hpc
      reset := h.reset
      done := h.done_update (fun _ => id) fun reset hpc => by cases hpc }
  | wait =>
    exact h.hold (by rw [hpc]) (by rw [hpc]) rfl fun approval run hpc => by cases hpc
  | confirm hrow hsucceeded =>
    refine h.hold (by rw [hpc]; rfl) (by rw [hpc]; rfl) rfl fun approval run hpc => ?_
    cases hpc
    exact h.observed _ _ hrow hsucceeded
  | @truncate approval run =>
    have hheld : (s.pc i).approval = some approval ∧ (s.pc i).run = some run := by
      rw [hpc]
      exact ⟨rfl, rfl⟩
    exact {
      approvals := h.approvals
      approval := by
        rw [approval_update, List.map_append]
        exact h.approval.spend hheld.1
      run := by
        rw [run_update, List.map_append]
        exact h.run.spend hheld.2
      observed := h.observed
      confirmed := h.confirmed_update fun approval run hpc => by cases hpc
      reset := by
        intro reset hmem
        rcases List.mem_append.1 hmem with hmem | hmem
        · exact h.reset reset hmem
        · rw [List.mem_singleton.1 hmem]
          exact h.confirmed i approval run hpc
      done := by
        refine h.done_update (fun reset => List.mem_append_left _) fun reset hpc => ?_
        cases hpc
        exact List.mem_append_right _ (List.mem_singleton_self _) }

/-- **Every step keeps the invariant.** -/
theorem Sound.next (h : Sound s) (hnext : next limits s l = some s') : Sound s' := by
  cases l with
  | guard i c =>
    obtain ⟨⟨shared, pc⟩, hstep, rfl⟩ := Option.map_eq_some_iff.1 hnext
    exact h.guard (effect_of_guardStep hstep)
  | owner row =>
    cases hnext
    refine { h with approvals := ?_ }
    have hle := h.approvals
    change s.shared.consumed + (if row.any FeedControl.approves = true then 1 else 0) ≤
      s.shared.approvals + (if row.any FeedControl.approves = true then 1 else 0)
    omega
  | work run row =>
    simp only [SizeGuard.next] at hnext
    split_ifs at hnext
    cases hnext
    have hmem : ∀ {run' : ℕ}, run' ∈ s.shared.succeeded →
        run' ∈ (s.shared.work run row).succeeded := fun hrun' => List.mem_append_left _ hrun'
    refine { h with
      run := ?_
      observed := fun run' row' hrow hsucceeded => ?_
      confirmed := fun i approval run' hpc => hmem (h.confirmed i approval run' hpc)
      reset := fun reset hreset => hmem (h.reset reset hreset) }
    · have hlength : (s.shared.work run row).runs.length = s.shared.runs.length :=
        List.length_set
      rw [hlength]
      exact h.run
    · have hset : (s.shared.runs.set run row)[run']? = some (some row') := hrow
      by_cases hrun : run = run'
      · subst hrun
        rw [List.getElem?_set_self'] at hset
        have hrow' : row = some row' := by
          cases hold : s.shared.runs[run]? with
          | none => rw [hold] at hset; cases hset
          | some old => rw [hold] at hset; exact Option.some.inj hset
        refine List.mem_append_right _ ?_
        rw [hrow']
        simp [hsucceeded]
      · rw [List.getElem?_set_ne hrun] at hset
        exact hmem (h.observed run' row' hset hsucceeded)

end

/-! ## Runs -/

section

variable {ι : Type*} [DecidableEq ι] {limits : Limits} {s s' : State ι} {l : Label ι} {i : ι}
  {n : ℕ}

theorem sound_run {control : Option FeedControl} (h₀ : control.any FeedControl.approves = false)
    (h : (machine ι limits).Reachable (start ι control) s) : Sound s :=
  h.invariant Sound (.start h₀) fun _ _ _ hs _ hnext => hs.next hnext

/-- The approval was consumed by a guard that has ended without a truncation. -/
def Void (s : State ι) (n : ℕ) : Prop :=
  Lost s.shared.consumed (fun i => (s.pc i).approval) (s.shared.resets.map Reset.approval) n

/-- What is void stays void. -/
theorem Void.next (h : Void s n) (hnext : next limits s l = some s') : Void s' n := by
  unfold Void at *
  cases l with
  | guard i c =>
    obtain ⟨⟨shared, pc⟩, hstep, rfl⟩ := Option.map_eq_some_iff.1 hnext
    have he := effect_of_guardStep hstep
    dsimp only
    rw [approval_update]
    generalize hpc : s.pc i = pc₀ at he
    -- a guard that keeps its approval
    have hkeep : ∀ {approval : Option ℕ}, approval = (s.pc i).approval →
        Lost s.shared.consumed (Function.update (fun j => (s.pc j).approval) i approval)
          (s.shared.resets.map Reset.approval) n := by
      rintro approval rfl
      rw [Function.update_eq_self_iff.2 rfl]
      exact h
    cases he with
    | quiet _ happroval _ _ =>
      rw [happroval]
      exact h.drop i
    | consume _ => exact h.draw i
    | request => exact hkeep (by rw [hpc]; rfl)
    | wait => exact hkeep (by rw [hpc])
    | confirm _ _ => exact hkeep (by rw [hpc]; rfl)
    | @truncate approval run =>
      rw [List.map_append]
      exact h.spend (m := approval) (by rw [hpc]; rfl)
  | owner row =>
    cases hnext
    exact h
  | work run row =>
    simp only [SizeGuard.next] at hnext
    split_ifs at hnext
    cases hnext
    exact h

end

/-- **A truncation needs an approval of its own and a checkpoint of its own.**  Start with any
control row without the owner's note, and let any guards run, with failures anywhere, while the
owner writes the row and workers work on the runs in any order.  No two truncations rest on one
approval or on one checkpoint; each checkpoint has succeeded; and there are no more truncations than
approvals consumed, nor more of these than notes that the owner has written.  An approval whose
guard has ended without a truncation never leads to one. -/
theorem reset_needs_own_approval {ι : Type*} [DecidableEq ι] {limits : Limits}
    {control : Option FeedControl} (h₀ : control.any FeedControl.approves = false) {s : State ι}
    (h : (machine ι limits).Reachable (start ι control) s) :
    (s.shared.resets.map Reset.approval).Nodup ∧ (s.shared.resets.map Reset.run).Nodup ∧
    (∀ reset ∈ s.shared.resets, reset.run ∈ s.shared.succeeded) ∧
    s.shared.resets.length ≤ s.shared.consumed ∧ s.shared.consumed ≤ s.shared.approvals ∧
    ∀ n < s.shared.consumed, (∀ i, (s.pc i).approval ≠ some n) →
      n ∉ s.shared.resets.map Reset.approval →
      ∀ s', (machine ι limits).Reachable s s' → n ∉ s'.shared.resets.map Reset.approval := by
  have hsound := sound_run h₀ h
  refine ⟨hsound.approval.nodup, hsound.run.nodup, hsound.reset, ?_,
    (Nat.le_add_right _ _).trans hsound.approvals, fun n hn hheld hspent s' hs' => ?_⟩
  · have hle := hsound.approval.length_spent_le
    rwa [List.length_map] at hle
  · have hvoid : Void s' n := hs'.invariant (fun s => Void s n) ⟨hn, hheld, hspent⟩
      fun _ _ _ hs _ hnext => hs.next hnext
    exact hvoid.not_spent

/-- **A guard does not switch the feed on**, except at the end of a reset: when the feed is off
before a statement of a guard and on after it, that guard has truncated the ledger. -/
theorem guard_keeps_feed_paused {ι : Type*} [DecidableEq ι] {limits : Limits}
    {control : Option FeedControl} (h₀ : control.any FeedControl.approves = false) {s s' : State ι}
    (h : (machine ι limits).Reachable (start ι control) s) {i : ι} {c : GuardChoice}
    (hnext : next limits s (.guard i c) = some s') {row row' : FeedControl}
    (hrow : s.shared.control = some row) (hoff : row.enabled = false)
    (hrow' : s'.shared.control = some row') (hon : row'.enabled = true) :
    ∃ reset ∈ s.shared.resets, (s.pc i).reset = some reset := by
  obtain ⟨⟨shared, pc⟩, hstep, rfl⟩ := Option.map_eq_some_iff.1 hnext
  obtain ⟨reset, loaded, hpc⟩ := resuming_of_guardStep hstep hrow hoff hrow' hon
  have hreset : (s.pc i).reset = some reset := by
    rw [hpc]
    rfl
  exact ⟨reset, (sound_run h₀ h).done i reset hreset, hreset⟩

/-! ### Two guards and one approval -/

local instance neZero_two : NeZero 2 := ⟨by decide⟩

/-- The default limits. -/
def defaultLimits : Limits := ⟨400, 450⟩

/-- Both guards find the database too large; the owner approves once, and the second guard finds the
note consumed. -/
def oneApproval : List (Label (Fin 2)) :=
  [.guard 0 (.measure (500 * bytesPerMb)), .guard 1 (.measure (500 * bytesPerMb)), .guard 0 .ok,
    .guard 0 .ok, .guard 1 .ok, .owner (some ⟨false, some resetApprovalNote⟩), .guard 0 .ok,
    .guard 1 .ok, .guard 0 .ok, .work 0 (some ⟨.succeeded, some 7⟩), .guard 0 .ok, .guard 0 .ok,
    .guard 0 .ok, .guard 0 .ok]

theorem reset_needs_own_approval_of_two :
    ∃ s, (machine (Fin 2) defaultLimits).Reachable (start (Fin 2) (some ⟨true, none⟩)) s ∧
      (s.shared.resets = [⟨0, 0⟩] ∧ s.shared.control = some ⟨true, some resetCompleteNote⟩ ∧
        s.pc 1 = .idle) ∧
      s.shared.resets.length ≤ s.shared.consumed ∧ s.shared.consumed ≤ s.shared.approvals := by
  obtain ⟨s, hrun⟩ : ∃ s, (machine (Fin 2) defaultLimits).run
      (start (Fin 2) (some ⟨true, none⟩)) oneApproval = some s :=
    Option.isSome_iff_exists.1 (by decide)
  have hs : (machine (Fin 2) defaultLimits).Reachable (start (Fin 2) (some ⟨true, none⟩)) s :=
    Machine.runIf_eq_some (fun _ _ _ _ => trivial) .refl hrun
  have hlast : ((machine (Fin 2) defaultLimits).run (start (Fin 2) (some ⟨true, none⟩))
      oneApproval).map (fun s => (s.shared.resets, s.shared.control, s.pc 1)) =
        some ([⟨0, 0⟩], some ⟨true, some resetCompleteNote⟩, .idle) := rfl
  rw [hrun] at hlast
  obtain ⟨hresets, hrest⟩ := Prod.mk.inj (Option.some_injective _ hlast)
  obtain ⟨hcontrol, hpc⟩ := Prod.mk.inj hrest
  have hmain := reset_needs_own_approval (by decide) hs
  exact ⟨s, hs, ⟨hresets, hcontrol, hpc⟩, hmain.2.2.2.1, hmain.2.2.2.2.1⟩

/-- The last statement of the first guard switches the feed on. -/
theorem guard_keeps_feed_paused_until_reset :
    ∃ s s', (machine (Fin 2) defaultLimits).Reachable (start (Fin 2) (some ⟨true, none⟩)) s ∧
      next defaultLimits s (.guard 0 .ok) = some s' ∧
      ∃ reset ∈ s.shared.resets, (s.pc 0).reset = some reset := by
  obtain ⟨s, hrun⟩ : ∃ s, (machine (Fin 2) defaultLimits).run
      (start (Fin 2) (some ⟨true, none⟩)) oneApproval.dropLast = some s :=
    Option.isSome_iff_exists.1 (by decide)
  have hs : (machine (Fin 2) defaultLimits).Reachable (start (Fin 2) (some ⟨true, none⟩)) s :=
    Machine.runIf_eq_some (fun _ _ _ _ => trivial) .refl hrun
  have hoff : ((machine (Fin 2) defaultLimits).run (start (Fin 2) (some ⟨true, none⟩))
      oneApproval.dropLast).map (fun s => s.shared.control) =
        some (some ⟨false, some resetApprovalConsumedNote⟩) := rfl
  have hon : (((machine (Fin 2) defaultLimits).run (start (Fin 2) (some ⟨true, none⟩))
      oneApproval.dropLast).bind fun s => next defaultLimits s (.guard 0 .ok)).map
        (fun s => s.shared.control) = some (some ⟨true, some resetCompleteNote⟩) := rfl
  rw [hrun] at hoff hon
  obtain ⟨s', hnext, hon⟩ := Option.map_eq_some_iff.1 hon
  exact ⟨s, s', hs, hnext,
    guard_keeps_feed_paused (by decide) hs hnext (Option.some_injective _ hoff) rfl hon rfl⟩

end SizeGuard

end TrackFlow
