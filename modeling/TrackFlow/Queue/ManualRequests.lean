import TrackFlow.Queue.Enqueue
import Mathlib.Data.Fintype.Basic

/-!
# Manual requests get a run

`enqueue_manual` inserts, and when the index has an entry for its week it selects the run that the
entry is of.  In between a worker may claim that run and commit.

* `TameOutcome`, `tame_exec` : no statement of a worker queues a run, and only a claim takes one
  out of the queue.
* `Keeps`, `New` : what the writes of a worker and of a request do to the queued runs.
* `asking` : the assertion about one session, which relies on the claims of the others.
* `Overtakes`, `MeetsAnotherWeek` : the two ways in which the `SELECT` finds nothing.
* `manual_request_gets_run` : **in every run without them, a manual request gets its run.**
* `manual_request_overtaken` : a run in which one does not.
-/

namespace TrackFlow

namespace Queue

open RowLock

variable {β : Type*}

/-! ## What the workers write -/

/-- An update that leaves alone who asked for a run and for which week, and queues no run; unless it
takes a slot, a queued run stays queued. -/
structure RunUpdate.Tame (u : RunUpdate) : Prop where
  triggerType_set : ∀ r, (u.set r).triggerType = r.triggerType
  week_set : ∀ r, (u.set r).requestedWeekStart = r.requestedWeekStart
  requested_set : ∀ r, u.cond r = true → (u.set r).status = .requested → r.status = .requested
  queued_set : u.slot = none → ∀ r, u.cond r = true → r.status = .requested →
    (u.set r).status = .requested

/-- A session is in an operation of `queue.py`. -/
def Loc.InOperation : Loc → Prop
  | .idle _ => False
  | .transitioning t _ => ∃ M, Operation M t
  | _ => True

/-- A statement of an operation: it writes tamely, and the transaction ends with the operation. -/
def TameOutcome : Outcome RowKey (RowWrite β) Loc → Prop
  | .proceed _ ws a => a.InOperation ∧ ∀ id u, RowWrite.updateRun id u ∈ ws → u.Tame
  | .commit a => ∃ r, a = .idle r
  | .rollback a => ∃ r, a = .idle r

section Workers

variable {busy : RowKey → Bool} {v : Db β} {o : Outcome RowKey (RowWrite β) Loc} {c : Choice β}

/-- An operation of a claimed run finds a running row. -/
theorem tame_update {t : Transition}
    (h : ∀ r, (t.set r).triggerType = r.triggerType ∧
      (t.set r).requestedWeekStart = r.requestedWeekStart ∧
      (r.status = .running → (t.set r).status ≠ .requested)) : t.update.Tame where
  triggerType_set r := (h r).1
  week_set r := (h r).2.1
  requested_set r hc hs := absurd hs ((h r).2.2 (RunClaim.owns_iff.1 hc).2.2)
  queued_set _ r hc hs := by
    rw [(RunClaim.owns_iff.1 hc).2.2] at hs
    cases hs

theorem giveUp_status_ne {now n maxAttempts backoffSeconds : ℕ} {code : ErrorCode}
    {r : PipelineRun} : (giveUp now n maxAttempts backoffSeconds code r).status ≠ .requested := by
  unfold giveUp
  dsimp only
  split <;> simp

theorem Operation.tame {M : ℕ} {t : Transition} (h : Operation M t) : t.update.Tame := by
  refine tame_update fun r => ?_
  cases h with
  | heartbeat => exact ⟨rfl, rfl, fun hr => by simp [Queue.heartbeat, hr]⟩
  | recordStage h =>
    unfold Queue.recordStage at h
    split_ifs at h
    cases h
    exact ⟨rfl, rfl, fun hr => by simp [hr]⟩
  | finalizeSuccess => exact ⟨rfl, rfl, fun _ => by simp [Queue.finalizeSuccess]⟩
  | releaseRetryable => exact ⟨rfl, rfl, fun _ => giveUp_status_ne⟩
  | finalizeFailure => exact ⟨rfl, rfl, fun _ => by simp [Queue.finalizeFailure, fail]⟩

theorem tame_reject (q : ClaimRequest) (row : PipelineRun) : (q.reject row).update.Tame :=
  tame_update fun _ => ⟨rfl, rfl, fun _ => by simp [ClaimRequest.reject, fail]⟩

/-- The `UPDATE` of `claim_next` takes the slot. -/
theorem tame_claim (q : ClaimRequest) : q.update.Tame where
  triggerType_set _ := rfl
  week_set _ := rfl
  requested_set _ _ hs := by simp [ClaimRequest.update] at hs
  queued_set h := by simp [ClaimRequest.update] at h

theorem tame_setTargetWeeks (weeks : List ℕ) : (setTargetWeeks weeks).Tame :=
  ⟨fun _ => rfl, fun _ => rfl, fun _ _ hs => hs, fun _ _ _ hs => hs⟩

theorem tame_sweep (q : SweepRequest) (row : PipelineRun) : (q.update row).Tame where
  triggerType_set _ := rfl
  week_set _ := rfl
  requested_set _ _ hs := absurd hs giveUp_status_ne
  queued_set _ r hc hs := by
    have hrun : r.status = .running := of_decide_eq_true hc
    rw [hrun] at hs
    cases hs

theorem tame_of_writes {t : Transition} (h : t.update.Tame) {id : UUID} {u : RunUpdate}
    (hu : RowWrite.updateRun id u ∈ t.writes v) : u.Tame := by
  unfold Transition.writes at hu
  split_ifs at hu
  · cases List.mem_singleton.1 hu
    exact h
  · cases hu

theorem tame_recordOutcome {id : UUID} {n : ℕ} {e : Evidence} {a : Loc} (h : a.InOperation) :
    TameOutcome (recordOutcome (recordAttempt v id n e) a) := by
  unfold recordOutcome
  split
  · rename_i ws hws
    refine ⟨h, fun id' u hu => ?_⟩
    obtain ⟨t, ht, -⟩ := recordAttempt_eq_some hws _ hu
    cases ht
  · exact ⟨_, rfl⟩

theorem tame_claimExec {q : ClaimRequest} {pc : ClaimPc} (h : claimExec q busy v pc c = some o) :
    TameOutcome o := by
  have hread : ∀ {ks pc'}, TameOutcome (β := β) (.proceed ks [] (.claiming q pc')) :=
    ⟨trivial, by simp⟩
  unfold claimExec at h
  split at h
  · split at h
    · cases h
    · split_ifs at h
      cases h
      exact hread
  · split_ifs at h
    cases h
    exact hread
  · split at h
    · cases h
    · split_ifs at h <;> cases h
      · exact ⟨_, rfl⟩
      · refine ⟨trivial, fun id u hu => ?_⟩
        cases List.mem_singleton.1 hu
        exact tame_claim q
  · cases h
    exact hread
  · split at h <;> cases h
    · refine ⟨trivial, fun id u hu => ?_⟩
      cases List.mem_singleton.1 hu
      exact tame_setTargetWeeks _
    · exact ⟨trivial, fun id u hu => tame_of_writes (tame_reject q _) hu⟩
    · exact ⟨_, rfl⟩
  · split at h
    · cases h
    · cases h
      exact tame_recordOutcome trivial
  · cases h
    exact ⟨_, rfl⟩
  · cases h

theorem tame_transitionExec {t : Transition} {pc : TransitionPc} (ht : ∃ M, Operation M t)
    (h : transitionExec t v pc c = some o) : TameOutcome o := by
  have htame : t.update.Tame := ht.elim fun _ h => h.tame
  unfold transitionExec at h
  split at h
  · split_ifs at h <;> cases h
    · exact ⟨ht, fun id u hu => tame_of_writes htame hu⟩
    · exact ⟨ht, by simp⟩
  · cases h
    exact tame_recordOutcome ht
  · cases h
    exact ⟨_, rfl⟩
  · cases h

theorem tame_publishExec {claim : RunClaim} {pc : PublishPc}
    (h : publishExec claim v pc c = some o) : TameOutcome o := by
  unfold publishExec at h
  split at h
  · split_ifs at h <;> cases h
    · exact ⟨trivial, by simp⟩
    · exact ⟨_, rfl⟩
  · cases h
    exact ⟨trivial, by simp⟩
  · cases h
    exact ⟨_, rfl⟩
  · cases h

theorem tame_sweepExec {q : SweepRequest} {pc : SweepPc} (h : sweepExec q busy v pc c = some o) :
    TameOutcome o := by
  unfold sweepExec at h
  split at h
  · cases h
    exact ⟨trivial, by simp⟩
  · cases h
    exact ⟨_, rfl⟩
  · cases h
    refine ⟨trivial, fun id u hu => ?_⟩
    cases List.mem_singleton.1 hu
    exact tame_sweep q _
  · split_ifs at h
    · cases h
      exact ⟨_, rfl⟩
    · cases h
      exact tame_recordOutcome trivial
  · cases h

/-- **The statements of the workers are tame.** -/
theorem tame_exec {a : Loc} (h : exec a c busy v = some o) (ha : (∃ r, a = .idle r) ∨ a.InOperation)
    (hc : ∀ op, c = .call op → ∃ M, op.Proper M) : TameOutcome o := by
  unfold exec at h
  split at h
  · -- a call
    rename_i op
    cases h
    refine ⟨?_, by simp⟩
    have hop := hc op rfl
    cases op with
    | transition t => exact hop
    | _ => exact trivial
  · cases h
  · cases h
    exact ⟨_, rfl⟩
  · exact tame_claimExec h
  · refine tame_transitionExec (ha.resolve_left ?_) h
    rintro ⟨r, hr⟩
    cases hr
  · exact tame_publishExec h
  · exact tame_sweepExec h

end Workers

/-! ## What the writes of a session do -/

/-- The same request: by the same trigger and for the same week. -/
structure SameRequest (r r' : PipelineRun) : Prop where
  id : r'.id = r.id
  pipelineName : r'.pipelineName = r.pipelineName
  triggerType : r'.triggerType = r.triggerType
  week : r'.requestedWeekStart = r.requestedWeekStart

/-- The index `uq_pipeline_runs_pending_manual`: no two queued manual requests have one entry. -/
def Requests.Distinct (db : Requests β) : Prop :=
  ∀ r ∈ db.queue.runs.rows, ∀ r' ∈ db.queue.runs.rows, db.pendingManual r = true →
    db.pendingManual r' = true →
      weekEntry r.requestedWeekStart = weekEntry r'.requestedWeekStart → r = r'

instance (db : Requests β) : Decidable db.Distinct :=
  inferInstanceAs (Decidable (∀ r ∈ db.queue.runs.rows, _))

/-- A write of a worker. -/
def RequestWrite.Tame : RequestWrite β → Prop
  | .queue (.updateRun _ u) => u.Tame
  | .queue _ => True
  | .insertRun _ _ => False

/-- The write takes the run out of the queue. -/
def RequestWrite.claims (id : UUID) : RequestWrite β → Bool
  | .queue (.updateRun id' u) => decide (id' = id) && u.slot.isSome
  | _ => false

/-- A new run has an entry in `uq_pipeline_runs_pending_manual`. -/
def entersIndex (run : PipelineRun) (columns : RunRequest) : Bool :=
  decide (run.pipelineName = pipelineName) && decide (run.status = .requested) &&
    decide (run.triggerType = .manual) && columns.cacheNonce.isNone

/-- The run that a session inserts: its id is new and locked, and so is its entry. -/
structure New (run : PipelineRun) (columns : RunRequest) (held : EntryKey → Prop)
    (db : Requests β) : Prop where
  same_id : columns.id = run.id
  locked : held (.row (.run run.id))
  fresh : run.id ∉ db.queue.runs.rows.map (·.id)
  entry : entersIndex run columns = true →
    held (.pendingManual (weekEntry run.requestedWeekStart)) ∧
      db.hasEntry (weekEntry run.requestedWeekStart) = false

/-- The writes of a session: those of a worker, or the run of a request. -/
def Written (ws : List (RequestWrite β)) (held : EntryKey → Prop) (db : Requests β) : Prop :=
  (∀ w ∈ ws, w.Tame) ∨
    ∃ run columns, ws = [RequestWrite.insertRun run columns] ∧ New run columns held db

/-- The same requests, and none of them queued that was not. -/
structure Keeps (db db' : Requests β) : Prop where
  forth : ∀ r ∈ db.queue.runs.rows, ∃ r' ∈ db'.queue.runs.rows, SameRequest r r'
  back : ∀ r' ∈ db'.queue.runs.rows, ∃ r ∈ db.queue.runs.rows, SameRequest r r' ∧
    (r'.status = .requested → r.status = .requested)
  requests : db'.requests = db.requests
  lastResetAt : db'.queue.lastResetAt = db.queue.lastResetAt

section Writes

variable {db db' : Requests β} {ws : List (RequestWrite β)} {held held' : EntryKey → Prop}
  {r r' : PipelineRun} {run : PipelineRun} {columns : RunRequest} {id : UUID} {entry : ℕ}

theorem SameRequest.rfl : SameRequest r r := ⟨.refl _, .refl _, .refl _, .refl _⟩

theorem SameRequest.trans {r'' : PipelineRun} (h : SameRequest r r') (h' : SameRequest r' r'') :
    SameRequest r r'' :=
  ⟨h'.id.trans h.id, h'.pipelineName.trans h.pipelineName, h'.triggerType.trans h.triggerType,
    h'.week.trans h.week⟩

theorem Requests.pendingManual_iff : db.pendingManual r = true ↔
    r.pipelineName = Queue.pipelineName ∧ r.status = .requested ∧ r.triggerType = .manual ∧
      db.cacheNonce r.id = none := by
  simp [Requests.pendingManual, and_assoc]

theorem entersIndex_iff : entersIndex run columns = true ↔
    run.pipelineName = pipelineName ∧ run.status = .requested ∧ run.triggerType = .manual ∧
      columns.cacheNonce = none := by
  simp [entersIndex, and_assoc]

theorem Requests.hasEntry_eq_false_iff : db.hasEntry entry = false ↔
    ∀ r ∈ db.queue.runs.rows, db.pendingManual r = true →
      weekEntry r.requestedWeekStart ≠ entry := by
  simp [Requests.hasEntry]

theorem Requests.mem_queuedFor_iff {week : Option ℕ} : r ∈ db.queuedFor week ↔
    r ∈ db.queue.runs.rows ∧ db.pendingManual r = true ∧ r.requestedWeekStart = week := by
  simp [Requests.queuedFor]

theorem RunUpdate.Tame.same {u : RunUpdate} (h : u.Tame) (r : PipelineRun) :
    SameRequest r (u.apply r) := by
  unfold RunUpdate.apply
  split_ifs
  · exact ⟨u.id_set r, u.pipelineName_set r, h.triggerType_set r, h.week_set r⟩
  · exact .rfl

theorem RunUpdate.Tame.requested {u : RunUpdate} (h : u.Tame)
    (hs : (u.apply r).status = .requested) : r.status = .requested := by
  unfold RunUpdate.apply at hs
  split_ifs at hs with hc
  · exact h.requested_set r hc hs
  · exact hs

theorem RunUpdate.Tame.queued {u : RunUpdate} (h : u.Tame) (hu : u.slot = none)
    (hr : r.status = .requested) : (u.apply r).status = .requested := by
  unfold RunUpdate.apply
  split_ifs with hc
  · exact h.queued_set hu r hc hr
  · exact hr

/-! ### Writes of a worker -/

theorem Keeps.refl (db : Requests β) : Keeps db db :=
  ⟨fun r hr => ⟨r, hr, .rfl⟩, fun r hr => ⟨r, hr, .rfl, fun h => h⟩, rfl, rfl⟩

theorem Keeps.trans {db'' : Requests β} (h : Keeps db db') (h' : Keeps db' db'') :
    Keeps db db'' where
  forth r hr := by
    obtain ⟨r', hr', hsame⟩ := h.forth r hr
    obtain ⟨r'', hr'', hsame'⟩ := h'.forth r' hr'
    exact ⟨r'', hr'', hsame.trans hsame'⟩
  back r'' hr'' := by
    obtain ⟨r', hr', hsame', hs'⟩ := h'.back r'' hr''
    obtain ⟨r, hr, hsame, hs⟩ := h.back r' hr'
    exact ⟨r, hr, hsame.trans hsame', fun hq => hs (hs' hq)⟩
  requests := h'.requests.trans h.requests
  lastResetAt := h'.lastResetAt.trans h.lastResetAt

theorem keeps_install {w : RequestWrite β} (hw : w.Tame) :
    Keeps db (RequestWrite.install db w) := by
  cases w with
  | insertRun run columns => exact hw.elim
  | queue w =>
    cases w with
    | insertAttempt a => exact ⟨(Keeps.refl db).forth, (Keeps.refl db).back, rfl, rfl⟩
    | publish write => exact ⟨(Keeps.refl db).forth, (Keeps.refl db).back, rfl, rfl⟩
    | updateRun id u =>
      have hu : u.Tame := hw
      have hsame (r : PipelineRun) : SameRequest r (if r.id = id then u.apply r else r) := by
        split_ifs
        · exact hu.same r
        · exact .rfl
      refine ⟨fun r hr => ⟨_, List.mem_map_of_mem hr, hsame r⟩, fun r' hr' => ?_, rfl, rfl⟩
      obtain ⟨r, hr, rfl⟩ := List.mem_map.1 hr'
      refine ⟨r, hr, hsame r, fun hs => ?_⟩
      split_ifs at hs
      · exact hu.requested hs
      · exact hs

theorem keeps_installAll (h : ∀ w ∈ ws, w.Tame) : Keeps db ((requests β).installAll db ws) := by
  induction ws generalizing db with
  | nil => exact .refl db
  | cons w ws ih =>
    exact (keeps_install (h w List.mem_cons_self)).trans
      (ih fun w' hw' => h w' (List.mem_cons_of_mem w hw'))

theorem Keeps.pendingManual (h : Keeps db db') (hr' : r' ∈ db'.queue.runs.rows)
    (hp : db'.pendingManual r' = true) :
    ∃ r ∈ db.queue.runs.rows, SameRequest r r' ∧ db.pendingManual r = true := by
  obtain ⟨r, hr, hsame, hs⟩ := h.back r' hr'
  obtain ⟨hname, hq, ht, hn⟩ := Requests.pendingManual_iff.1 hp
  refine ⟨r, hr, hsame, Requests.pendingManual_iff.2 ⟨hsame.pipelineName ▸ hname, hs hq,
    hsame.triggerType ▸ ht, ?_⟩⟩
  rw [← hsame.id, Requests.cacheNonce, ← h.requests]
  exact hn

theorem Keeps.distinct (h : Keeps db db') (hd : db.Distinct) : db'.Distinct := by
  intro r₁' hr₁' r₂' hr₂' hp₁ hp₂ hweek
  obtain ⟨r₁, hr₁, hsame₁, hp₁⟩ := h.pendingManual hr₁' hp₁
  obtain ⟨r₂, hr₂, hsame₂, hp₂⟩ := h.pendingManual hr₂' hp₂
  rw [hsame₁.week, hsame₂.week] at hweek
  obtain rfl := hd r₁ hr₁ r₂ hr₂ hp₁ hp₂ hweek
  exact db'.queue.runs.eq_of_key_eq hr₁' hr₂' (hsame₁.id.trans hsame₂.id.symm)

theorem Keeps.hasEntry (h : Keeps db db') (he : db.hasEntry entry = false) :
    db'.hasEntry entry = false := by
  rw [Requests.hasEntry_eq_false_iff] at he ⊢
  intro r' hr' hp
  obtain ⟨r, hr, hsame, hp⟩ := h.pendingManual hr' hp
  rw [hsame.week]
  exact he r hr hp

theorem Keeps.fresh (h : Keeps db db') (hid : id ∉ db.queue.runs.rows.map (·.id)) :
    id ∉ db'.queue.runs.rows.map (·.id) := by
  intro hmem
  obtain ⟨r', hr', rfl⟩ := List.mem_map.1 hmem
  obtain ⟨r, hr, hsame, -⟩ := h.back r' hr'
  exact hid (List.mem_map.2 ⟨r, hr, hsame.id.symm⟩)

/-- The `UPDATE` of another run, or one that takes no slot, leaves a run in the queue. -/
theorem queued_install {w : RequestWrite β} (hw : w.Tame) {week : Option ℕ}
    (hr : r ∈ db.queuedFor week) (hc : w.claims r.id = false) :
    ∃ r' ∈ (RequestWrite.install db w).queuedFor week, r'.id = r.id := by
  cases w with
  | insertRun run columns => exact hw.elim
  | queue w =>
    cases w with
    | insertAttempt a => exact ⟨r, hr, rfl⟩
    | publish write => exact ⟨r, hr, rfl⟩
    | updateRun id u =>
      have hu : u.Tame := hw
      obtain ⟨hmem, hp, hweek⟩ := Requests.mem_queuedFor_iff.1 hr
      obtain ⟨hname, hq, ht, hn⟩ := Requests.pendingManual_iff.1 hp
      have hmem' := List.mem_map_of_mem (f := fun r => if r.id = id then u.apply r else r) hmem
      by_cases hid : r.id = id
      · have hslot : u.slot = none := by simpa [RequestWrite.claims, hid.symm] using hc
        rw [if_pos hid] at hmem'
        have hsame := hu.same r
        exact ⟨u.apply r, Requests.mem_queuedFor_iff.2 ⟨hmem', Requests.pendingManual_iff.2
          ⟨hsame.pipelineName.trans hname, hu.queued hslot hq, hsame.triggerType.trans ht,
            (congrArg db.cacheNonce hsame.id).trans hn⟩, hsame.week.trans hweek⟩, hsame.id⟩
      · rw [if_neg hid] at hmem'
        exact ⟨r, Requests.mem_queuedFor_iff.2 ⟨hmem', hp, hweek⟩, rfl⟩

theorem queued_installAll (h : ∀ w ∈ ws, w.Tame) {week : Option ℕ}
    (hr : ∃ r ∈ db.queuedFor week, r.id = id) (hc : ∀ w ∈ ws, w.claims id = false) :
    ∃ r ∈ ((requests β).installAll db ws).queuedFor week, r.id = id := by
  induction ws generalizing db with
  | nil => exact hr
  | cons w ws ih =>
    obtain ⟨r, hr, rfl⟩ := hr
    exact ih (fun w' hw' => h w' (List.mem_cons_of_mem w hw'))
      (queued_install (h w List.mem_cons_self) hr (hc w List.mem_cons_self))
      fun w' hw' => hc w' (List.mem_cons_of_mem w hw')

/-! ### The run of a request -/

theorem New.rows (h : New run columns held db) :
    (RequestWrite.install db (.insertRun run columns)).queue.runs.rows =
      db.queue.runs.rows ++ [run] := by
  have hnew : db.queue.runs.insert run = some ⟨db.queue.runs.rows ++ [run], _⟩ :=
    dif_neg h.fresh
  change ((db.queue.runs.insert run).getD db.queue.runs).rows = _
  rw [hnew, Option.getD_some]

theorem New.mem_iff (h : New run columns held db) :
    r ∈ (RequestWrite.install db (.insertRun run columns)).queue.runs.rows ↔
      r ∈ db.queue.runs.rows ∨ r = run := by
  rw [h.rows, List.mem_append, List.mem_singleton]

theorem New.ne (h : New run columns held db) (hr : r ∈ db.queue.runs.rows) : r.id ≠ run.id :=
  fun hid => h.fresh (hid ▸ List.mem_map_of_mem hr)

theorem New.pendingManual_old (h : New run columns held db) (hr : r ∈ db.queue.runs.rows) :
    (RequestWrite.install db (.insertRun run columns)).pendingManual r = db.pendingManual r := by
  have hne : r.id ≠ columns.id := h.same_id ▸ h.ne hr
  have hnonce : (RequestWrite.install db (.insertRun run columns)).cacheNonce r.id =
      db.cacheNonce r.id := by
    change ((db.requests.upsert columns).lookup r.id).bind _ = _
    rw [Table.lookup_upsert_of_ne hne]
    rfl
  rw [Requests.pendingManual, Requests.pendingManual, hnonce]

theorem New.pendingManual_new (h : New run columns held db) :
    (RequestWrite.install db (.insertRun run columns)).pendingManual run =
      entersIndex run columns := by
  have hnonce : (RequestWrite.install db (.insertRun run columns)).cacheNonce run.id =
      columns.cacheNonce := by
    change ((db.requests.upsert columns).lookup run.id).bind _ = _
    rw [← h.same_id, Table.lookup_upsert_self]
    rfl
  rw [Requests.pendingManual, entersIndex, hnonce]

theorem New.distinct (h : New run columns held db) (hd : db.Distinct) :
    (RequestWrite.install db (.insertRun run columns)).Distinct := by
  -- the entry of the new run was free
  have hnew {r} (hr : r ∈ db.queue.runs.rows) (hp : db.pendingManual r = true)
      (hrun : entersIndex run columns = true) :
      weekEntry r.requestedWeekStart ≠ weekEntry run.requestedWeekStart :=
    Requests.hasEntry_eq_false_iff.1 (h.entry hrun).2 r hr hp
  intro r₁ hr₁ r₂ hr₂ hp₁ hp₂ hweek
  rcases h.mem_iff.1 hr₁ with hold₁ | rfl <;> rcases h.mem_iff.1 hr₂ with hold₂ | rfl
  · rw [h.pendingManual_old hold₁] at hp₁
    rw [h.pendingManual_old hold₂] at hp₂
    exact hd r₁ hold₁ r₂ hold₂ hp₁ hp₂ hweek
  · rw [h.pendingManual_old hold₁] at hp₁
    rw [h.pendingManual_new] at hp₂
    exact absurd hweek (hnew hold₁ hp₁ hp₂)
  · rw [h.pendingManual_new] at hp₁
    rw [h.pendingManual_old hold₂] at hp₂
    exact absurd hweek.symm (hnew hold₂ hp₂ hp₁)
  · rfl

theorem New.queuedFor (h : New run columns held db) {week : Option ℕ}
    (hr : r ∈ db.queuedFor week) :
    r ∈ (RequestWrite.install db (.insertRun run columns)).queuedFor week := by
  obtain ⟨hmem, hp, hweek⟩ := Requests.mem_queuedFor_iff.1 hr
  exact Requests.mem_queuedFor_iff.2
    ⟨h.mem_iff.2 (.inl hmem), (h.pendingManual_old hmem).trans hp, hweek⟩

/-! ### Commits -/

theorem Written.distinct (h : Written ws held db) (hd : db.Distinct) :
    ((requests β).installAll db ws).Distinct := by
  rcases h with h | ⟨run, columns, rfl, hnew⟩
  · exact (keeps_installAll h).distinct hd
  · exact hnew.distinct hd

theorem Written.lastResetAt (h : Written ws held db) :
    ((requests β).installAll db ws).queue.lastResetAt = db.queue.lastResetAt := by
  rcases h with h | ⟨run, columns, rfl, -⟩
  · exact (keeps_installAll h).lastResetAt
  · rfl

/-- No request is lost. -/
theorem Written.forth (h : Written ws held db) (hr : r ∈ db.queue.runs.rows) :
    ∃ r' ∈ ((requests β).installAll db ws).queue.runs.rows, SameRequest r r' := by
  rcases h with h | ⟨run, columns, rfl, hnew⟩
  · exact (keeps_installAll h).forth r hr
  · exact ⟨r, hnew.mem_iff.2 (.inl hr), .rfl⟩

/-- Of two new runs, each is still new when the other is committed. -/
theorem Written.new (h : Written ws held' db) (hdisjoint : ∀ k, held k → ¬ held' k)
    (hnew : New run columns held db) : New run columns held ((requests β).installAll db ws) := by
  -- the other session has written no new run, or one whose id and entry it had locked
  rcases h with h | ⟨run', columns', rfl, hnew'⟩
  · exact ⟨hnew.same_id, hnew.locked, (keeps_installAll h).fresh hnew.fresh, fun he =>
      ⟨(hnew.entry he).1, (keeps_installAll h).hasEntry (hnew.entry he).2⟩⟩
  · refine ⟨hnew.same_id, hnew.locked, fun hmem => ?_, fun he => ⟨(hnew.entry he).1, ?_⟩⟩
    · obtain ⟨r, hr, hid⟩ := List.mem_map.1 hmem
      rcases hnew'.mem_iff.1 hr with hr | rfl
      · exact hnew.ne hr hid
      · exact hdisjoint _ hnew.locked (hid ▸ hnew'.locked)
    · refine Requests.hasEntry_eq_false_iff.2 fun r hr hp hweek => ?_
      rcases hnew'.mem_iff.1 hr with hr | rfl
      · have hold := (hnew'.pendingManual_old hr).symm.trans hp
        exact Requests.hasEntry_eq_false_iff.1 (hnew.entry he).2 r hr hold hweek
      · have hentry := (hnew'.entry (hnew'.pendingManual_new.symm.trans hp)).1
        exact hdisjoint _ (hnew.entry he).1 (hweek ▸ hentry)

/-- A run that no write claims stays queued. -/
theorem Written.queued (h : Written ws held db) {week : Option ℕ} (hr : r ∈ db.queuedFor week)
    (hc : ∀ w ∈ ws, w.claims r.id = false) :
    ((requests β).installAll db ws).queuedFor week ≠ [] := by
  rcases h with h | ⟨run, columns, rfl, hnew⟩
  · obtain ⟨r', hr', -⟩ := queued_installAll h ⟨r, hr, rfl⟩ hc
    exact List.ne_nil_of_mem hr'
  · exact List.ne_nil_of_mem (hnew.queuedFor hr)

end Writes

/-! ## The assertion about a session -/

/-- The answer is the id of a manual run for the week, or the arguments are not valid, or a
statement has failed. -/
def ManualRequest.Answered (q : ManualRequest) (db : Requests β) : Answer → Prop
  | .run id => ∃ r ∈ db.queue.runs.rows, r.id = id ∧ r.pipelineName = pipelineName ∧
      r.triggerType = .manual ∧ r.requestedWeekStart = q.requestedWeekStart
  | .invalid e => q.validated db.queue.lastResetAt = .error e
  | .raised => True
  | _ => False

/-- The manual requests are answered. -/
def Request.Answered (db : Requests β) : Request → Answer → Prop
  | .manual q, answer => q.Answered db answer
  | _, _ => True

/-- The run is what the request asks for, and the answer is its id. -/
def Request.AsksFor (run : PipelineRun) : Request → Answer → Prop
  | .manual q, answer => answer = .run run.id ∧ run.pipelineName = pipelineName ∧
      run.triggerType = .manual ∧ run.requestedWeekStart = q.requestedWeekStart
  | _, _ => True

/-- What the next statement relies on. -/
def AskingAt (ws : List (RequestWrite β)) (held : EntryKey → Prop) (db : Requests β) :
    RequestLoc → Prop
  | .worker (.idle _) => ws = []
  | .worker a => a.InOperation ∧ ∀ w ∈ ws, w.Tame
  | .manual q .selecting => ws = [] ∧ db.queuedFor q.requestedWeekStart ≠ []
  | .manual _ _ => ws = []
  | .scheduled _ => ws = []
  | .cli _ => ws = []
  | .finishing q answer => (ws = [] ∧ q.Answered db answer) ∨ ∃ run columns,
      ws = [.insertRun run columns] ∧ New run columns held db ∧ q.AsksFor run answer
  | .returned q answer => ws = [] ∧ q.Answered db answer

/-- The assertion about one session. -/
structure Asking (a : RequestLoc) (ws : List (RequestWrite β)) (held : EntryKey → Prop)
    (db : Requests β) : Prop where
  distinct : db.Distinct
  loc : AskingAt ws held db a

/-- A queued manual request has the entry of the week, but is for another one: `NULL` and
`0001-01-01` have the same entry. -/
def Requests.hasOtherWeek (db : Requests β) (week : Option ℕ) : Bool :=
  db.queue.runs.rows.any fun r => db.pendingManual r &&
    decide (weekEntry r.requestedWeekStart = weekEntry week) &&
      decide (r.requestedWeekStart ≠ week)

/-- What a statement relies on: a worker calls the operations of `queue.py`, and an `INSERT`
conflicts with requests for its own week only. -/
def SameWeek (a : RequestLoc) (c : RequestChoice β) (db : Requests β) : Prop :=
  (∀ op, c = .worker (.call op) → ∃ M, op.Proper M) ∧
    ∀ q id, a = .manual q .inserting → c = .insert id → q.nonce = none →
      db.hasOtherWeek q.requestedWeekStart = false

/-- What a session that has found a conflict relies on: no request for its week is claimed. -/
def Unclaimed (a : RequestLoc) (ws : List (RequestWrite β)) (db : Requests β) : Prop :=
  ∀ q, a = .manual q .selecting → ∀ r ∈ db.queuedFor q.requestedWeekStart,
    ∀ w ∈ ws, w.claims r.id = false

section Assertion

variable {db : Requests β} {ws ws' : List (RequestWrite β)} {held held' : EntryKey → Prop}
  {a : RequestLoc} {c : RequestChoice β} {busy : EntryKey → Bool}
  {o : Outcome EntryKey (RequestWrite β) RequestLoc}

theorem Request.Answered.of_row {q : Request} {answer : Answer} {run : PipelineRun}
    (h : q.AsksFor run answer) (hrun : run ∈ db.queue.runs.rows) : q.Answered db answer := by
  cases q with
  | manual q =>
    obtain ⟨rfl, hname, ht, hweek⟩ := h
    exact ⟨run, hrun, rfl, hname, ht, hweek⟩
  | _ => trivial

/-- An answer stays right. -/
theorem Request.Answered.installAll {q : Request} {answer : Answer} (h : q.Answered db answer)
    (hw : Written ws held db) : q.Answered ((requests β).installAll db ws) answer := by
  match q, answer, h with
  | .manual q, .run id, ⟨r, hr, hid, hname, ht, hweek⟩ =>
    obtain ⟨r', hr', hsame⟩ := hw.forth hr
    exact ⟨r', hr', hsame.id.trans hid, hsame.pipelineName.trans hname,
      hsame.triggerType.trans ht, hsame.week.trans hweek⟩
  | .manual q, .invalid e, h =>
    exact (congrArg q.validated hw.lastResetAt).trans h
  | .manual q, .raised, _ => trivial
  | .scheduled _, _, _ => trivial
  | .cli _, _, _ => trivial

theorem askingAt_worker {a : Loc} (ha : a.InOperation) (h : ∀ w ∈ ws, w.Tame) :
    AskingAt ws held db (.worker a) := by
  cases a with
  | idle r => exact ha.elim
  | _ => exact ⟨ha, h⟩

theorem AskingAt.worker {a : Loc} (h : AskingAt ws held db (.worker a)) :
    ((∃ r, a = .idle r) ∨ a.InOperation) ∧ ∀ w ∈ ws, w.Tame := by
  cases a with
  | idle r =>
    obtain rfl : ws = [] := h
    exact ⟨.inl ⟨r, rfl⟩, by simp⟩
  | _ => exact ⟨.inr h.1, h.2⟩

theorem written_nil : Written ([] : List (RequestWrite β)) held db := .inl (by simp)

theorem Asking.written (h : Asking a ws held db) : Written ws held db := by
  obtain ⟨-, h⟩ := h
  cases a with
  | worker a => exact .inl h.worker.2
  | manual q pc =>
    cases pc with
    | selecting => exact h.1 ▸ written_nil
    | _ =>
      obtain rfl : ws = [] := h
      exact written_nil
  | scheduled q =>
    obtain rfl : ws = [] := h
    exact written_nil
  | cli q =>
    obtain rfl : ws = [] := h
    exact written_nil
  | finishing q answer =>
    rcases h with ⟨rfl, -⟩ | ⟨run, columns, hws, hnew, -⟩
    · exact written_nil
    · exact .inr ⟨run, columns, hws, hnew⟩
  | returned q answer => exact h.1 ▸ written_nil

/-- A commit of another session. -/
theorem Asking.stable (h : Asking a ws held db) (hw : Written ws' held' db)
    (hdisjoint : ∀ k, held k → ¬ held' k) (hrely : Unclaimed a ws' db) :
    Asking a ws held ((requests β).installAll db ws') := by
  refine ⟨hw.distinct h.distinct, ?_⟩
  have hloc := h.loc
  cases a with
  | worker a =>
    cases a with
    | idle r => exact hloc
    | _ => exact hloc
  | manual q pc =>
    cases pc with
    | selecting =>
      -- only here is the reliance used: the run of the conflict has not been claimed
      obtain ⟨r, hr⟩ := List.exists_mem_of_ne_nil _ hloc.2
      exact ⟨hloc.1, hw.queued hr (hrely q rfl r hr)⟩
    | _ => exact hloc
  | scheduled q => exact hloc
  | cli q => exact hloc
  | finishing q answer =>
    rcases hloc with ⟨hws, hanswer⟩ | ⟨run, columns, hws, hnew, hasks⟩
    · exact .inl ⟨hws, hanswer.installAll hw⟩
    · exact .inr ⟨run, columns, hws, hw.new hdisjoint hnew, hasks⟩
  | returned q answer => exact ⟨hloc.1, hloc.2.installAll hw⟩

/-! ### Statements of the session itself -/

/-- A statement of a worker. -/
theorem worker_asking {a : Loc} {c : Choice β} (h : Asking (.worker a) ws held db)
    (hc : ∀ op, c = .call op → ∃ M, op.Proper M)
    {o : Outcome RowKey (RowWrite β) Loc} {v : Requests β}
    (he : exec a c (fun k => busy (.row k)) v.queue = some o) :
    (v.lift o).LeadsTo Asking ws held db ((requests β).installAll db ws) := by
  obtain ⟨ha, hws⟩ := h.loc.worker
  have htame := tame_exec he ha hc
  cases o with
  | proceed ks ws₁ a' =>
    refine ⟨h.distinct, askingAt_worker htame.1 fun w hw => ?_⟩
    rcases List.mem_append.1 hw with hw | hw
    · exact hws w hw
    · obtain ⟨w, hmem, rfl⟩ := List.mem_map.1 hw
      cases w with
      | updateRun id u => exact htame.2 id u hmem
      | _ => exact trivial
  | commit a' =>
    obtain ⟨r, rfl⟩ := htame
    exact ⟨h.written.distinct h.distinct, rfl⟩
  | rollback a' =>
    obtain ⟨r, rfl⟩ := htame
    exact ⟨h.distinct, rfl⟩

/-- The `INSERT` of a run, with its entry if it has one. -/
theorem leadsTo_insertRun {q : Request} {entries : List EntryKey} {run : PipelineRun}
    {columns : RunRequest} (hd : db.Distinct) (hid : columns.id = run.id)
    (hentry : entersIndex run columns = true →
      .pendingManual (weekEntry run.requestedWeekStart) ∈ entries ∧
        db.hasEntry (weekEntry run.requestedWeekStart) = false)
    (hasks : q.AsksFor run (.run run.id)) :
    (db.insertRun q entries run columns).LeadsTo Asking [] held db db := by
  unfold Requests.insertRun
  split_ifs with hfresh
  · refine ⟨hd, rfl, ?_⟩
    cases q <;> exact trivial
  · refine ⟨hd, .inr ⟨run, columns, rfl, ⟨hid, .inr List.mem_cons_self, hfresh, fun he => ?_⟩,
      hasks⟩⟩
    exact ⟨.inr (List.mem_cons_of_mem _ (hentry he).1), (hentry he).2⟩

/-- A conflict is with a request for the same week. -/
theorem queuedFor_ne_nil {week : Option ℕ} (he : db.hasEntry (weekEntry week) = true)
    (ho : db.hasOtherWeek week = false) : db.queuedFor week ≠ [] := by
  obtain ⟨r, hr, hp⟩ := List.any_eq_true.1 he
  simp only [Bool.and_eq_true, decide_eq_true_eq] at hp
  have hsame : r.requestedWeekStart = week := by
    have := List.any_eq_false.1 ho r hr
    simpa [hp.1, hp.2] using this
  exact List.ne_nil_of_mem (Requests.mem_queuedFor_iff.2 ⟨hr, hp.1, hsame⟩)

/-- A week has one queued request. -/
theorem Requests.Distinct.queuedFor_eq (hd : db.Distinct) {week : Option ℕ} {r r' : PipelineRun}
    {rs : List PipelineRun} : db.queuedFor week ≠ r :: r' :: rs := by
  intro h
  have hmem {x} (hx : x ∈ r :: r' :: rs) := Requests.mem_queuedFor_iff.1 (h ▸ hx)
  obtain ⟨hr, hp, hweek⟩ := hmem List.mem_cons_self
  obtain ⟨hr', hp', hweek'⟩ := hmem (List.mem_cons_of_mem _ List.mem_cons_self)
  have heq : r = r' := hd r hr r' hr' hp hp' (by rw [hweek, hweek'])
  have hnodup : (db.queuedFor week).Nodup := (List.Nodup.of_map _ db.queue.runs.nodup).filter _
  rw [h, heq] at hnodup
  simp at hnodup

theorem manual_asking {q : ManualRequest} {pc : ManualPc} (h : Asking (.manual q pc) ws held db)
    (hside : SameWeek (.manual q pc) c db)
    (he : manualExec q busy ((requests β).installAll db ws) pc c = some o) :
    o.LeadsTo Asking ws held db ((requests β).installAll db ws) := by
  obtain ⟨hd, hloc⟩ := h
  obtain rfl : ws = [] := by
    cases pc with
    | selecting => exact hloc.1
    | _ => exact hloc
  unfold manualExec at he
  split at he
  · -- the checks
    split at he <;> cases he
    · rename_i e hinvalid
      exact ⟨hd, rfl, hinvalid⟩
    · exact ⟨hd, rfl⟩
  · -- the INSERT
    rename_i id
    dsimp only at he
    split_ifs at he with hnonce hbusy hentry <;> cases he
    · -- a run with a nonce stays out of the partial index
      refine leadsTo_insertRun hd rfl (fun henters => ?_) ⟨rfl, rfl, rfl, rfl⟩
      have hnone : q.nonce = none := (entersIndex_iff.1 henters).2.2.2
      rw [hnone] at hnonce
      cases hnonce
    · -- `ON CONFLICT DO NOTHING`
      have hnone : q.nonce = none := Option.not_isSome_iff_eq_none.1 hnonce
      exact ⟨hd, rfl, queuedFor_ne_nil hentry (hside.2 q id rfl rfl hnone)⟩
    · exact leadsTo_insertRun hd rfl
        (fun _ => ⟨List.mem_singleton.2 rfl, Bool.eq_false_iff.2 hentry⟩) ⟨rfl, rfl, rfl, rfl⟩
  · -- the SELECT
    split at he
    · rename_i hnone
      exact absurd hnone hloc.2
    · rename_i r hone
      cases he
      obtain ⟨hr, hp, hweek⟩ := Requests.mem_queuedFor_iff.1 (hone ▸ List.mem_singleton.2 rfl)
      obtain ⟨hname, -, ht, -⟩ := Requests.pendingManual_iff.1 hp
      exact ⟨hd, .inl ⟨rfl, r, hr, rfl, hname, ht, hweek⟩⟩
    · -- several rows, which `scalar_one_or_none` refuses
      rename_i hnone hone
      cases hrows : db.queuedFor q.requestedWeekStart with
      | nil => exact absurd hrows hnone
      | cons r rs =>
        cases rs with
        | nil => exact absurd hrows (hone r)
        | cons r' rs => exact absurd hrows hd.queuedFor_eq
  · cases he
    exact ⟨hd, rfl, trivial⟩
  · cases he

end Assertion

/-- The requests and the workers, each of whom relies on the claims of the others. -/
def asking (β : Type*) : Reliance (requests β) SameWeek Unclaimed where
  holds := Asking
  step {a ws held db c busy o} h hside he := by
    obtain ⟨hd, hloc⟩ := h
    change requestExec a c busy _ = some o at he
    unfold requestExec at he
    split at he
    · -- calls
      rename_i r q
      cases he
      obtain rfl : ws = [] := hloc
      cases q <;> exact ⟨hd, rfl⟩
    · rename_i q answer q'
      cases he
      obtain ⟨rfl, -⟩ := hloc
      cases q' <;> exact ⟨hd, rfl⟩
    · rename_i q answer op
      cases he
      obtain ⟨rfl, -⟩ := hloc
      refine ⟨hd, askingAt_worker ?_ (by simp)⟩
      have hop := hside.1 op rfl
      cases op with
      | transition t => exact hop
      | _ => exact trivial
    · cases he
    · -- the workers
      obtain ⟨o, ho, rfl⟩ := Option.map_eq_some_iff.1 he
      exact worker_asking ⟨hd, hloc⟩ (fun op hop => hside.1 op (congrArg _ hop)) ho
    · cases he
    · exact manual_asking ⟨hd, hloc⟩ hside he
    · -- `enqueue_scheduled`
      obtain rfl : ws = [] := hloc
      unfold scheduledExec at he
      split at he
      · dsimp only at he
        split_ifs at he <;> cases he
        · exact ⟨hd, rfl, trivial⟩
        · exact ⟨hd, .inl ⟨rfl, trivial⟩⟩
        · exact leadsTo_insertRun hd rfl (fun h => by cases (entersIndex_iff.1 h).2.2.1) trivial
      · cases he
        exact ⟨hd, rfl, trivial⟩
      · cases he
    · -- `enqueue_cli`
      obtain rfl : ws = [] := hloc
      unfold cliExec at he
      split at he
      · split at he <;> cases he
        · exact ⟨hd, rfl, trivial⟩
        · exact leadsTo_insertRun hd rfl (fun h => by cases (entersIndex_iff.1 h).2.2.1) trivial
      · cases he
        exact ⟨hd, rfl, trivial⟩
      · cases he
    · -- the COMMIT of a request
      rename_i q answer
      cases he
      have hw := Asking.written ⟨hd, hloc⟩
      refine ⟨hw.distinct hd, rfl, ?_⟩
      rcases hloc with ⟨rfl, hanswer⟩ | ⟨run, columns, rfl, hnew, hasks⟩
      · exact hanswer
      · exact .of_row hasks (hnew.mem_iff.2 (.inr rfl))
    · rename_i q answer
      cases he
      refine ⟨hd, rfl, ?_⟩
      cases q <;> exact trivial
    · cases he
  stable h h' hdisjoint hrely := h.stable h'.written hdisjoint hrely

/-! ## Runs -/

/-- The week of the `SELECT` that follows a conflict. -/
def RequestLoc.selects : RequestLoc → Option (Option ℕ)
  | .manual q .selecting => some q.requestedWeekStart
  | _ => none

/-- The week whose entry an `INSERT` may conflict with. -/
def RequestLoc.inserts : RequestLoc → Option (Option ℕ)
  | .manual q .inserting => if q.nonce.isNone then some q.requestedWeekStart else none
  | _ => none

/-- The manual request of a call that has not returned. -/
def RequestLoc.asks : RequestLoc → Option ManualRequest
  | .manual q _ => some q
  | .finishing (.manual q) _ => some q
  | _ => none

/-- The answer that a manual request has been given. -/
def RequestLoc.answer : RequestLoc → Option (ManualRequest × Answer)
  | .returned (.manual q) answer => some (q, answer)
  | _ => none

/-- The statements that a manual request has left. -/
def RequestLoc.remaining : RequestLoc → ℕ
  | .manual _ .start => 4
  | .manual _ .inserting => 3
  | .manual _ .selecting => 2
  | .finishing _ _ => 1
  | _ => 0

/-- The statement is an `INSERT`. -/
def RequestChoice.isInsert : RequestChoice β → Bool
  | .insert _ => true
  | _ => false

/-- The choice with which the next statement of a manual request succeeds. -/
def RequestLoc.statement (id : UUID) : RequestLoc → RequestChoice β
  | .manual _ .inserting => .insert id
  | _ => .ok

section Runs

variable {ι : Type*} [DecidableEq ι]
  {s s' : State ι (Requests β) EntryKey (RequestWrite β) RequestLoc}

/-- A session commits the claim of a run that another one's `INSERT` has conflicted with and that
its `SELECT` has yet to find. -/
def Overtakes (s : State ι (Requests β) EntryKey (RequestWrite β) RequestLoc)
    (l : ι × RequestChoice β) : Prop :=
  (requests β).commits s l = true ∧ ∃ j : ι, j ≠ l.1 ∧ ∃ week ∈ (s.session j).loc.selects,
    ∃ r ∈ s.db.queuedFor week, ∃ w ∈ (s.session l.1).pending, w.claims r.id = true

/-- An `INSERT` for `NULL` conflicts with a request for `0001-01-01`, or the other way round. -/
def MeetsOtherWeek (s : State ι (Requests β) EntryKey (RequestWrite β) RequestLoc)
    (l : ι × RequestChoice β) : Prop :=
  l.2.isInsert = true ∧ ∃ week ∈ (s.session l.1).loc.inserts, s.db.hasOtherWeek week = true

/-- A step in which workers call the operations of `queue.py`, no request overtakes another call's
`SELECT`, and no `INSERT` meets a request for another week. -/
structure Settled (s : State ι (Requests β) EntryKey (RequestWrite β) RequestLoc)
    (l : ι × RequestChoice β) : Prop where
  proper : ∀ op, l.2 = .worker (.call op) → ∃ M, op.Proper M
  not_overtakes : ¬ Overtakes s l
  not_meets : ¬ MeetsOtherWeek s l

/-- Another session makes the index entry of a manual request, or takes it away. -/
def Waits (s : State ι (Requests β) EntryKey (RequestWrite β) RequestLoc) (i : ι) : Prop :=
  ∃ week ∈ (s.session i).loc.inserts, s.busy i (.pendingManual (weekEntry week)) = true

theorem asking_next {l : ι × RequestChoice β} (hA : (asking β).All s) (hl : Settled s l)
    (hs : (requests β).next s l = some s') : (asking β).All s' := by
  refine (asking β).all_next (i := l.1) (c := l.2) hA ⟨hl.proper, fun q id hloc hc hnone => ?_⟩
    (fun a hcommit j hj q hloc r hr w hw => ?_) hs
  · refine Bool.eq_false_iff.2 fun hother => hl.not_meets
      ⟨congrArg _ hc, q.requestedWeekStart, ?_, hother⟩
    simp [hloc, RequestLoc.inserts, hnone]
  · refine Bool.eq_false_iff.2 fun hclaims => hl.not_overtakes
      ⟨Protocol.commits_of_exec hcommit, j, hj, q.requestedWeekStart, ?_, r, hr, w, hw, hclaims⟩
    simp [hloc, RequestLoc.selects]

theorem asking_run {db₀ : Requests β} (h₀ : db₀.Distinct)
    (h : ((requests β).machine ι).Run Settled (State.start db₀ fun _ => .worker (.idle none)) s) :
    (asking β).All s :=
  h.invariant (asking β).All ((asking β).all_start fun _ => ⟨h₀, rfl⟩)
    fun _ _ _ hA hl hs => asking_next hA hl hs

/-- The next statement of `enqueue_manual` locks what nobody else has. -/
theorem exists_manualExec {q : ManualRequest} {pc : ManualPc} {id : UUID} {busy : EntryKey → Bool}
    {v : Requests β} (hid : busy (.row (.run id)) = false)
    (hw : ∀ week ∈ (RequestLoc.manual q pc).inserts,
      busy (.pendingManual (weekEntry week)) = false) :
    ∃ o, manualExec q busy v pc ((RequestLoc.manual q pc).statement id) = some o ∧
      ∀ k ∈ o.locks, busy k = false := by
  have hinsert {entries : List EntryKey} {columns : RunRequest} {run : PipelineRun}
      (hrun : run.id = id) (hfree : ∀ k ∈ entries, busy k = false) :
      ∀ k ∈ (v.insertRun (.manual q) entries run columns).locks, busy k = false := by
    intro k hk
    unfold Requests.insertRun at hk
    split_ifs at hk
    · cases hk
    · rcases List.mem_cons.1 hk with rfl | hk
      · exact hrun ▸ hid
      · exact hfree k hk
  cases pc with
  | start =>
    simp only [RequestLoc.statement, manualExec]
    split <;> exact ⟨_, rfl, by simp [Outcome.locks]⟩
  | selecting =>
    simp only [RequestLoc.statement, manualExec]
    split <;> exact ⟨_, rfl, by simp [Outcome.locks]⟩
  | inserting =>
    simp only [RequestLoc.statement, manualExec]
    by_cases hnonce : q.nonce.isSome = true
    · rw [if_pos hnonce]
      exact ⟨_, rfl, hinsert rfl (by simp)⟩
    · have hbusy : busy (.pendingManual (weekEntry q.requestedWeekStart)) = false :=
        hw _ (by simp [RequestLoc.inserts, Option.not_isSome_iff_eq_none.1 hnonce])
      rw [if_neg hnonce, hbusy, if_neg (by simp)]
      split_ifs
      · exact ⟨_, rfl, by simp [Outcome.locks]⟩
      · exact ⟨_, rfl, hinsert rfl (by simpa using hbusy)⟩

/-- A manual request that has not returned can go on, unless it waits. -/
theorem exists_next_of_asks {i : ι} {q : ManualRequest} {id : UUID}
    (hq : (s.session i).loc.asks = some q) (hid : s.busy i (.row (.run id)) = false)
    (hw : ¬ Waits s i) :
    ∃ s', (requests β).next s (i, (s.session i).loc.statement id) = some s' := by
  suffices hexec : ∃ o, requestExec (s.session i).loc ((s.session i).loc.statement id) (s.busy i)
      ((requests β).view s i) = some o ∧ ∀ k ∈ o.locks, s.busy i k = false by
    obtain ⟨o, ho, hfree⟩ := hexec
    exact Protocol.exists_next ho hfree
  have hfree : ∀ week ∈ (s.session i).loc.inserts,
      s.busy i (.pendingManual (weekEntry week)) = false :=
    fun week hweek => Bool.eq_false_iff.2 fun hbusy => hw ⟨week, hweek, hbusy⟩
  revert hq hfree
  cases (s.session i).loc with
  | manual q' pc => exact fun _ hfree => exists_manualExec hid hfree
  | finishing q' answer => exact fun _ _ => ⟨_, rfl, by simp [Outcome.locks]⟩
  | worker a => exact fun hq => by cases hq
  | scheduled q' => exact fun hq => by cases hq
  | cli q' => exact fun hq => by cases hq
  | returned q' answer => exact fun hq => by cases hq

theorem remaining_manualExec {q : ManualRequest} {pc : ManualPc} {c : RequestChoice β}
    {busy : EntryKey → Bool} {v : Requests β} {o : Outcome EntryKey (RequestWrite β) RequestLoc}
    (h : manualExec q busy v pc c = some o) :
    o.loc.remaining < (RequestLoc.manual q pc).remaining := by
  have hinsert {entries : List EntryKey} {columns : RunRequest} {run : PipelineRun} :
      (v.insertRun (.manual q) entries run columns).loc.remaining < 3 := by
    unfold Requests.insertRun
    split_ifs <;> simp [Outcome.loc, RequestLoc.remaining]
  unfold manualExec at h
  split at h
  · split at h <;> cases h <;> simp [Outcome.loc, RequestLoc.remaining]
  · dsimp only at h
    split_ifs at h <;> cases h
    · exact hinsert
    · simp [Outcome.loc, RequestLoc.remaining]
    · exact hinsert
  · split at h <;> cases h <;> simp [Outcome.loc, RequestLoc.remaining]
  · cases h
    cases pc <;> simp [Outcome.loc, RequestLoc.remaining]
  · cases h

/-- Every statement of a manual request brings it nearer to its return. -/
theorem remaining_next {i : ι} {c : RequestChoice β} {q : ManualRequest}
    (hq : (s.session i).loc.asks = some q) (hs : (requests β).next s (i, c) = some s') :
    (s'.session i).loc.remaining < (s.session i).loc.remaining := by
  obtain ⟨o, he, hloc⟩ := Protocol.session_next_self hs
  rw [hloc]
  change requestExec (s.session i).loc c _ _ = some o at he
  revert hq he
  cases (s.session i).loc with
  | manual q' pc => exact fun _ he => remaining_manualExec he
  | finishing q' answer =>
    intro _ he
    unfold requestExec at he
    cases c <;> cases he <;> simp [Outcome.loc, RequestLoc.remaining]
  | worker a => exact fun hq => by cases hq
  | scheduled q' => exact fun hq => by cases hq
  | cli q' => exact fun hq => by cases hq
  | returned q' answer => exact fun hq => by cases hq

/-- The run that a call settles on is queued: it is the call's own, or the one it conflicts with. -/
theorem finishing_manualExec {q : ManualRequest} {pc : ManualPc} {c : RequestChoice β}
    {busy : EntryKey → Bool} {v : Requests β} {o : Outcome EntryKey (RequestWrite β) RequestLoc}
    {id : UUID} (hnone : q.nonce = none) (h : manualExec q busy v pc c = some o)
    (hloc : o.loc = .finishing (.manual q) (.run id)) :
    ∃ ks ws, o = .proceed ks ws (.finishing (.manual q) (.run id)) ∧
      ∃ r ∈ ((requests β).installAll v ws).queuedFor q.requestedWeekStart, r.id = id := by
  unfold manualExec at h
  split at h
  · split at h <;> cases h <;> cases hloc
  · rename_i id'
    dsimp only at h
    rw [hnone] at h
    split_ifs at h with _ hbusy hentry
    · contradiction
    · cases h
      cases hloc
    · obtain rfl := Option.some.inj h
      unfold Requests.insertRun at hloc ⊢
      split_ifs at hloc ⊢ with hfresh
      · cases hloc
      · obtain rfl : id' = id := by
          simpa [Outcome.loc, newRun] using hloc
        have hnew : New (newRun id' .manual q.requestedWeekStart q.now)
            ⟨id', q.requestedBy, none, none, none⟩ (fun _ => True) v :=
          ⟨rfl, trivial, hfresh, fun _ => ⟨trivial, Bool.eq_false_iff.2 hentry⟩⟩
        exact ⟨_, _, rfl, _, Requests.mem_queuedFor_iff.2 ⟨hnew.mem_iff.2 (.inr rfl),
          hnew.pendingManual_new.trans (entersIndex_iff.2 ⟨rfl, rfl, rfl, rfl⟩), rfl⟩, rfl⟩
  · split at h
    · cases h
      cases hloc
    · rename_i r hone
      cases h
      cases hloc
      exact ⟨_, _, rfl, r, hone ▸ List.mem_singleton.2 rfl, rfl⟩
    · cases h
      cases hloc
  · cases h
    cases hloc
  · cases h

theorem queued_of_next {i : ι} {q : ManualRequest} {pc : ManualPc} {c : RequestChoice β} {id : UUID}
    (hloc : (s.session i).loc = .manual q pc) (hnone : q.nonce = none)
    (hs : (requests β).next s (i, c) = some s')
    (hloc' : (s'.session i).loc = .finishing (.manual q) (.run id)) :
    ∃ r ∈ ((requests β).view s' i).queuedFor q.requestedWeekStart, r.id = id := by
  have hexec {o} (he : (requests β).exec (s.session i).loc c (s.busy i) ((requests β).view s i) =
      some o) : manualExec q (s.busy i) ((requests β).view s i) pc c = some o := by
    rw [hloc] at he
    exact he
  obtain ⟨ks, ws, a, he, -, rfl⟩ | ⟨a, he, rfl⟩ | ⟨a, he, rfl⟩ := Protocol.next_cases hs
  · -- a call settles on its run in a statement, and not in a `COMMIT` or a `ROLLBACK`
    obtain rfl : a = _ := by simpa using hloc'
    obtain ⟨ks', ws', ho, hr⟩ := finishing_manualExec hnone (hexec he) rfl
    cases ho
    simpa [Protocol.view, Protocol.installAll, List.foldl_append] using hr
  · obtain rfl : a = _ := by simpa using hloc'
    obtain ⟨ks', ws', ho, -⟩ := finishing_manualExec hnone (hexec he) rfl
    cases ho
  · obtain rfl : a = _ := by simpa using hloc'
    obtain ⟨ks', ws', ho, -⟩ := finishing_manualExec hnone (hexec he) rfl
    cases ho

/-- **A manual request gets a run.**  In every run without overtaking: a manual request that has
returned has the id of a manual run for its week, or invalid arguments, or a failed statement; the
run that a call settles on is queued when it does; and a call that has not returned can go on unless
it waits for another transaction to end, and has at most four statements. -/
theorem manual_request_gets_run (db₀ : Requests β) (h₀ : db₀.Distinct)
    (s : State ι (Requests β) EntryKey (RequestWrite β) RequestLoc)
    (h : ((requests β).machine ι).Run Settled (State.start db₀ fun _ => .worker (.idle none)) s) :
    (∀ i q answer, (s.session i).loc = .returned (.manual q) answer → q.Answered s.db answer) ∧
      (∀ i q pc c s' id, (s.session i).loc = .manual q pc → q.nonce = none →
        (requests β).next s (i, c) = some s' →
          (s'.session i).loc = .finishing (.manual q) (.run id) →
            ∃ r ∈ ((requests β).view s' i).queuedFor q.requestedWeekStart, r.id = id) ∧
      ∀ i q, (s.session i).loc.asks = some q →
        (∀ c s', (requests β).next s (i, c) = some s' →
          (s'.session i).loc.remaining < (s.session i).loc.remaining) ∧
        (¬ Waits s i → ∀ id, s.busy i (.row (.run id)) = false →
          ∃ s', (requests β).next s (i, (s.session i).loc.statement id) = some s') := by
  refine ⟨fun i q answer hloc => ?_, fun i q pc c s' id hloc hnone hs hloc' =>
    queued_of_next hloc hnone hs hloc', fun i q hq => ⟨fun c s' hs => remaining_next hq hs,
    fun hw id hid => exists_next_of_asks hq hid hw⟩⟩
  have hat := (asking_run h₀ h i).loc
  rw [hloc] at hat
  exact hat.2

end Runs

/-! ### A claim between the `INSERT` and the `SELECT` -/

instance {ι : Type*} [DecidableEq ι] [Fintype ι]
    (s : State ι (Requests β) EntryKey (RequestWrite β) RequestLoc) (l : ι × RequestChoice β) :
    Decidable (Overtakes s l) :=
  inferInstanceAs (Decidable (_ ∧ ∃ j, j ≠ l.1 ∧ ∃ week ∈ (s.session j).loc.selects,
    ∃ r ∈ s.db.queuedFor week, ∃ w ∈ (s.session l.1).pending, w.claims r.id = true))

instance {ι : Type*} [DecidableEq ι]
    (s : State ι (Requests β) EntryKey (RequestWrite β) RequestLoc) (l : ι × RequestChoice β) :
    Decidable (MeetsOtherWeek s l) :=
  inferInstanceAs (Decidable (_ ∧ ∃ week ∈ (s.session l.1).loc.inserts, _))

/-- The workers call `claim_next` only. -/
def claimsOnly {ι : Type*} (l : ι × RequestChoice β) : Bool :=
  match l.2 with
  | .worker (.call (.claimNext _)) => true
  | .worker (.call _) => false
  | _ => true

theorem proper_of_claimsOnly {ι : Type*} {l : ι × RequestChoice β} (h : claimsOnly l = true)
    {op : Op} (hop : l.2 = .worker (.call op)) : ∃ M, op.Proper M := by
  unfold claimsOnly at h
  rw [hop] at h
  cases op with
  | claimNext q => exact ⟨0, trivial⟩
  | _ => cases h

/-- A queue without requests. -/
def noRequests : Requests Unit := ⟨⟨.empty, .empty, none, ()⟩, .empty⟩

/-- A manager asks for the current weeks. -/
def managerRequest : ManualRequest := { requestedBy := "manager", now := beginningOfTime }

/-- A request for the current weeks, up to its `INSERT`. -/
def ask (i : Fin 3) (id : UUID) : List (Fin 3 × RequestChoice Unit) :=
  [(i, .request (.manual managerRequest)), (i, .ok), (i, .insert id)]

/-- Worker 2 claims the run of the first request. -/
def claimFirst : List (Fin 3 × RequestChoice Unit) :=
  [(2, .worker (.call (.claimNext { now := beginningOfTime, token := 11 }))),
    (2, .worker (.pick 1)), (2, .worker .ok), (2, .worker .ok), (2, .worker .ok), (2, .worker .ok)]

/-- Two requests coalesce, and then the run is claimed. -/
theorem manual_request_coalesces :
    ∃ s, ((requests Unit).machine (Fin 3)).Run Settled
        (State.start noRequests fun _ => .worker (.idle none)) s ∧
      ((s.session 0).loc.answer = some (managerRequest, .run 1) ∧
        (s.session 1).loc.answer = some (managerRequest, .run 1) ∧
        (s.db.queue.runs.rows.map fun r => (r.id, r.status)) = [(1, .running)]) ∧
      ∀ i q answer, (s.session i).loc = .returned (.manual q) answer → q.Answered s.db answer := by
  obtain ⟨s, hs, hp⟩ := ((requests Unit).machine (Fin 3)).exists_run
    (fun s l => claimsOnly l && !decide (Overtakes s l) && !decide (MeetsOtherWeek s l))
    (State.start noRequests fun _ => .worker (.idle none))
    (ask 0 1 ++ [(0, .ok)] ++ ask 1 2 ++ [(1, .ok), (1, .ok)] ++ claimFirst)
    (fun s => decide ((s.session 0).loc.answer = some (managerRequest, .run 1) ∧
      (s.session 1).loc.answer = some (managerRequest, .run 1) ∧
      (s.db.queue.runs.rows.map fun r => (r.id, r.status)) = [(1, .running)]))
    (by decide)
  have hrun : ((requests Unit).machine (Fin 3)).Run Settled
      (State.start noRequests fun _ => .worker (.idle none)) s := hs.mono fun s l hl => by
    simp only [Bool.and_eq_true, Bool.not_eq_true', decide_eq_false_iff_not] at hl
    exact ⟨fun op hop => proper_of_claimsOnly hl.1.1 hop, hl.1.2, hl.2⟩
  exact ⟨s, hrun, of_decide_eq_true hp, (manual_request_gets_run noRequests (by decide) s hrun).1⟩

/-- The second request conflicts with the first, whose run is claimed before the `SELECT`. -/
theorem manual_request_overtaken :
    ∃ s, ((requests Unit).machine (Fin 3)).Run (fun _ l => claimsOnly l = true)
        (State.start noRequests fun _ => .worker (.idle none)) s ∧
      (s.session 1).loc = .returned (.manual managerRequest) .noResultFound ∧
      ¬ managerRequest.Answered s.db .noResultFound := by
  obtain ⟨s, hs, hp⟩ := ((requests Unit).machine (Fin 3)).exists_run (fun _ l => claimsOnly l)
    (State.start noRequests fun _ => .worker (.idle none))
    (ask 0 1 ++ [(0, .ok)] ++ ask 1 2 ++ claimFirst ++ [(1, .ok)])
    (fun s => decide ((s.session 1).loc.answer = some (managerRequest, .noResultFound)))
    (by decide)
  refine ⟨s, hs, ?_, id⟩
  have hanswer := of_decide_eq_true hp
  revert hanswer
  cases (s.session 1).loc with
  | returned q answer =>
    cases q with
    | manual q =>
      intro h
      cases h
      rfl
    | _ => exact fun h => by cases h
  | _ => exact fun h => by cases h

end Queue

end TrackFlow
