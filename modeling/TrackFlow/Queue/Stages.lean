import TrackFlow.Queue.Evidence

/-!
# The stage in the evidence

`record_stage` sets `current_stage`, and `_record_attempt` takes the stage of the evidence from
there when none is named.  `claim_next` starts an attempt and leaves `current_stage` as it is, so
it may still be a stage of the attempt before.

`Staged` adds the operations that have taken effect to the state.

* `Entered` : the stages that an attempt has entered.
* `prepared` : the assertion about the writes of a session.
* `StagedSound.next` : what is kept by every step that inserts no stage that is left over.
* `evidence_names_own_stage` : **then the evidence of an attempt names a stage of that attempt.**
* `evidence_names_left_over_stage` : an attempt that ends before its first stage.
-/

namespace TrackFlow

namespace Queue

open RowLock

variable {β : Type*}

/-! ## Stages that were entered -/

/-- The operation that takes effect with the next statement, a `COMMIT`. -/
def Loc.applies : Loc → Choice β → List Transition
  | .transitioning t (.finishing true), .ok => [t]
  | _, _ => []

/-- The queue and the operations of claimed runs that have taken effect. -/
structure Staged (ι β : Type*) where
  tracked : Tracked ι β
  applied : List Transition

variable {ι : Type*}

/-- The queue with its tokens, claims and operations. -/
def staged (β ι : Type*) [DecidableEq ι] : Machine (Staged ι β) (ι × Choice β) where
  next t l := ((tracked β ι).next t.tracked l).map fun t' =>
    ⟨t', t.applied ++ (t.tracked.state.session l.1).loc.applies l.2⟩

/-- No session has begun. -/
def Staged.start (db : Db β) : Staged ι β := ⟨Tracked.start db, []⟩

/-- `record_stage` has taken effect for the attempt `n` of the run `id`. -/
def Entered (applied : List Transition) (id : UUID) (n : ℕ) (stage : Stage) : Prop :=
  ∃ t ∈ applied, t.claim.runId = id ∧ t.claim.attempt = n ∧
    ∃ now, recordStage t.claim stage now = .ok t

/-- A stage that the evidence of the attempt may name. -/
def OwnStage (applied : List Transition) (id : UUID) (n : ℕ) (stage : Stage) : Prop :=
  stage = .orchestration ∨ Entered applied id n stage

/-- An operation whose evidence names no stage but one that its attempt has entered. -/
def NamesOwnStage (applied : List Transition) (t : Transition) : Prop :=
  ∀ e stage, t.evidence = some e → e.stage = some stage →
    OwnStage applied t.claim.runId t.claim.attempt stage

/-- A step of the workers: they name the stages that they have entered. -/
def Staged.Lawful (M : ℕ) (t : Staged ι β) (l : ι × Choice β) : Prop :=
  Queue.Lawful M t.tracked l ∧
    ∀ tr, l.2 = .call (.transition tr) → NamesOwnStage t.applied tr

/-- The run has no stage, or its attempt `n` has entered one. -/
def Staged.Current (t : Staged ι β) (id : UUID) (n : ℕ) : Prop :=
  (∀ r ∈ t.tracked.state.db.runs.rows, r.id = id → r.currentStage = none) ∨
    ∃ stage, Entered t.applied id n stage

/-- Evidence that names no stage, as that of an expired lease, does not take a stage that is left
over. -/
def Staged.NotLeftOver (t : Staged ι β) (l : ι × Choice β) : Prop :=
  match (t.tracked.state.session l.1).loc with
  | .transitioning tr (.updated e) =>
    e.stage = none → t.Current tr.claim.runId tr.claim.attempt
  | .sweeping _ (.recording row _ _) => t.Current row.id row.attempt
  | _ => True

section Stages

variable {applied applied' : List Transition} {id : UUID} {n : ℕ} {stage : Stage}

theorem Entered.append (h : Entered applied id n stage) (more : List Transition) :
    Entered (applied ++ more) id n stage := by
  obtain ⟨t, ht, h⟩ := h
  exact ⟨t, List.mem_append_left _ ht, h⟩

theorem entered_append : Entered (applied ++ applied') id n stage ↔
    Entered applied id n stage ∨ Entered applied' id n stage := by
  constructor
  · rintro ⟨t, ht, h⟩
    exact (List.mem_append.1 ht).imp (fun ht => ⟨t, ht, h⟩) fun ht => ⟨t, ht, h⟩
  · rintro (h | ⟨t, ht, h⟩)
    · exact h.append _
    · exact ⟨t, List.mem_append_right _ ht, h⟩

theorem OwnStage.append (h : OwnStage applied id n stage) (more : List Transition) :
    OwnStage (applied ++ more) id n stage := h.imp_right fun h => h.append more

/-- What `record_stage` sets. -/
theorem recordStage_eq_ok {claim : RunClaim} {now : ℕ} {t : Transition}
    (h : recordStage claim stage now = .ok t) :
    t.evidence = none ∧
      ∀ r, (t.set r).currentStage = some stage ∧ (t.set r).attempt = r.attempt := by
  unfold recordStage at h
  split_ifs at h
  cases h
  exact ⟨rfl, fun r => ⟨rfl, rfl⟩⟩

/-- The other operations set no stage, and none sets the attempt. -/
theorem Operation.keeps {M : ℕ} {t : Transition} (h : Operation M t)
    (hno : ∀ stage now, Queue.recordStage t.claim stage now ≠ .ok t) (r : PipelineRun) :
    (t.set r).currentStage = r.currentStage ∧ (t.set r).attempt = r.attempt := by
  cases h with
  | heartbeat => exact ⟨rfl, rfl⟩
  | @recordStage claim stage now _ h =>
    have hclaim : t.claim = claim := by
      unfold Queue.recordStage at h
      split_ifs at h
      cases h
      rfl
    exact absurd (hclaim ▸ h) (hno stage now)
  | finalizeSuccess => exact ⟨rfl, rfl⟩
  | releaseRetryable => exact ⟨rfl, rfl⟩
  | finalizeFailure => exact ⟨rfl, rfl⟩

end Stages

/-! ## Writes that keep the stage -/

/-- A write that sets no stage, takes back no attempt, and inserts evidence with a stage of its
attempt. -/
def RowWrite.Keeps (applied : List Transition) : RowWrite β → Prop
  | .updateRun _ u =>
    ∀ r, (u.set r).currentStage = r.currentStage ∧ r.attempt ≤ (u.set r).attempt
  | .insertAttempt x => OwnStage applied x.runId x.attempt x.stage
  | .publish _ => True

/-- The stage of the run of a cell. -/
def Cell.stage (c : Cell) : Option Stage := c.run.bind (·.currentStage)

section Keeps

variable {applied : List Transition} {db : Db β} {ws : List (RowWrite β)} {w : RowWrite β}
  {id : UUID}

theorem RowWrite.Keeps.append (h : w.Keeps applied) (more : List Transition) :
    w.Keeps (applied ++ more) := by
  cases w with
  | updateRun id u => exact h
  | insertAttempt x => exact OwnStage.append h more
  | publish write => exact trivial

theorem keeps_apply {u : RunUpdate} (h : RowWrite.Keeps applied (.updateRun (β := β) id u))
    (r : PipelineRun) :
    (u.apply r).currentStage = r.currentStage ∧ r.attempt ≤ (u.apply r).attempt := by
  unfold RunUpdate.apply
  split_ifs
  · exact h r
  · exact ⟨rfl, le_rfl⟩

/-- What such a write makes of the run of a cell. -/
theorem run_apply (h : w.Keeps applied) (c : Cell) :
    (w.apply c).stage = c.stage ∧
      ∀ r, c.run = some r → ∃ r', (w.apply c).run = some r' ∧ r.attempt ≤ r'.attempt := by
  cases w with
  | updateRun id u =>
    refine ⟨?_, fun r hr => ⟨u.apply r, congrArg (Option.map u.apply) hr, (keeps_apply h r).2⟩⟩
    unfold Cell.stage RowWrite.apply
    cases c.run with
    | none => rfl
    | some r => exact (keeps_apply h r).1
  | insertAttempt x => exact ⟨rfl, fun r hr => ⟨r, hr, le_rfl⟩⟩
  | publish write => exact ⟨rfl, fun r hr => ⟨r, hr, le_rfl⟩⟩

theorem run_installAll (h : ∀ w ∈ ws, w.Keeps applied) :
    (((protocol β).installAll db ws).cell id).stage = (db.cell id).stage ∧
      ∀ r, (db.cell id).run = some r →
        ∃ r', (((protocol β).installAll db ws).cell id).run = some r' ∧
          r.attempt ≤ r'.attempt := by
  induction ws generalizing db with
  | nil => exact ⟨rfl, fun r hr => ⟨r, hr, le_rfl⟩⟩
  | cons w ws ih =>
    obtain ⟨hw, hws⟩ := List.forall_mem_cons.1 h
    obtain ⟨hstage, hrun⟩ := @ih (RowWrite.install db w) hws
    have hone : ((RowWrite.install db w).cell id).stage = (db.cell id).stage ∧
        ∀ r, (db.cell id).run = some r →
          ∃ r', ((RowWrite.install db w).cell id).run = some r' ∧ r.attempt ≤ r'.attempt := by
      by_cases habout : w.about = some id
      · rw [cell_install_of_about habout]
        exact run_apply hw _
      · rw [cell_install_of_not_about habout]
        exact ⟨rfl, fun r hr => ⟨r, hr, le_rfl⟩⟩
    refine ⟨hstage.trans hone.1, fun r hr => ?_⟩
    obtain ⟨r₁, hr₁, hle₁⟩ := hone.2 r hr
    obtain ⟨r₂, hr₂, hle₂⟩ := hrun r₁ hr₁
    exact ⟨r₂, hr₂, hle₁.trans hle₂⟩

/-- Every evidence row names a stage of its attempt. -/
def Named (applied : List Transition) (db : Db β) : Prop :=
  ∀ x ∈ db.attempts.rows, OwnStage applied x.runId x.attempt x.stage

theorem Named.installAll (hdb : Named applied db) (h : ∀ w ∈ ws, w.Keeps applied) :
    Named applied ((protocol β).installAll db ws) := by
  induction ws generalizing db with
  | nil => exact hdb
  | cons w ws ih =>
    obtain ⟨hw, hws⟩ := List.forall_mem_cons.1 h
    refine @ih (RowWrite.install db w) ?_ hws
    cases w with
    | updateRun id u => exact hdb
    | publish write => exact hdb
    | insertAttempt x =>
      intro y hy
      change y ∈ ((db.attempts.insert x).getD db.attempts).rows at hy
      cases hi : db.attempts.insert x with
      | none =>
        rw [hi] at hy
        exact hdb y hy
      | some attempts =>
        rw [hi, Option.getD_some, (Table.insert_eq_some hi).2] at hy
        rcases List.mem_append.1 hy with hy | hy
        · exact hdb y hy
        · exact List.mem_singleton.1 hy ▸ hw

/-- `_record_attempt` inserts a stage of the attempt. -/
theorem keeps_record {v : Db β} {n : ℕ} {e : Evidence}
    (hnamed : ∀ stage, e.stage = some stage → OwnStage applied id n stage)
    (hstage : e.stage = none → ∀ stage, (v.cell id).stage = some stage →
      OwnStage applied id n stage)
    (h : recordAttempt v id n e = some ws) : ∀ w ∈ ws, w.Keeps applied := by
  unfold recordAttempt at h
  split at h
  · cases h
    exact fun w hw => absurd hw List.not_mem_nil
  · rename_i r hr
    split_ifs at h
    cases h
    refine List.forall_mem_singleton.2 ?_
    have hid : r.id = id := (Table.lookup_eq_some_iff.1 hr).2
    have hcell : (v.cell id).stage = r.currentStage := by
      show (v.runs.lookup id).bind _ = _
      rw [hr]
      rfl
    show OwnStage applied r.id n ((e.stage.or r.currentStage).getD .orchestration)
    rw [hid]
    cases he : e.stage with
    | some stage => exact hnamed stage he
    | none =>
      rw [Option.none_or]
      cases hcurrent : r.currentStage with
      | some stage => exact hstage he stage (hcell.trans hcurrent)
      | none => exact .inl rfl

end Keeps

/-! ## The writes of a session -/

/-- The pending writes of a session. -/
def Prepared (M : ℕ) (applied : List Transition) : Loc → List (RowWrite β) → Prop
  | .idle _, ws => ws = []
  | .claiming _ .start, ws => ws = []
  | .claiming _ (.picked _), ws => ws = []
  | .claiming q (.claimed row), ws => ws = [.updateRun row.id q.update]
  | .claiming q (.resolving row _), ws => ws = [.updateRun row.id q.update]
  | .claiming q (.finishing (some c)), ws =>
    ∃ weeks, ws = [.updateRun c.runId q.update, .updateRun c.runId (setTargetWeeks weeks)]
  | .transitioning t .start, ws => Operation M t ∧ NamesOwnStage applied t ∧ ws = []
  | .transitioning t (.updated e), ws =>
    Operation M t ∧ NamesOwnStage applied t ∧ t.evidence = some e ∧
      ws = [.updateRun t.claim.runId t.update]
  | .transitioning t (.finishing true), ws =>
    Operation M t ∧
      if t.evidence = none then ws = [.updateRun t.claim.runId t.update]
      else ∀ w ∈ ws, w.Keeps applied
  | _, ws => ∀ w ∈ ws, w.Keeps applied

/-- What a session may rely on: an operation names the stages of its attempt, and so does the
evidence that it inserts. -/
def Recordable (M : ℕ) (applied : List Transition) (a : Loc) (c : Choice β) (db : Db β) : Prop :=
  (∀ t, c = .call (.transition t) → Operation M t ∧ NamesOwnStage applied t) ∧
    match a with
    | .transitioning t (.updated e) => e.stage = none →
      ∀ stage, (db.cell t.claim.runId).stage = some stage →
        OwnStage applied t.claim.runId t.claim.attempt stage
    | .sweeping _ (.recording row _ _) => row.claimToken ≠ none →
      row.currentStage = (db.cell row.id).stage ∧
        ∀ stage, row.currentStage = some stage → OwnStage applied row.id row.attempt stage
    | _ => True

section Prepared

variable {M : ℕ} {applied : List Transition} {a : Loc} {ws : List (RowWrite β)} {db v : Db β}
  {held : RowKey → Prop} {busy : RowKey → Bool} {c : Choice β}
  {o : Outcome RowKey (RowWrite β) Loc}

theorem NamesOwnStage.append {t : Transition} (h : NamesOwnStage applied t)
    (more : List Transition) : NamesOwnStage (applied ++ more) t :=
  fun e stage he hstage => (h e stage he hstage).append more

theorem Prepared.append (h : Prepared M applied a ws) (more : List Transition) :
    Prepared M (applied ++ more) a ws := by
  have hkeeps (h : ∀ w ∈ ws, w.Keeps applied) : ∀ w ∈ ws, w.Keeps (applied ++ more) :=
    fun w hw => (h w hw).append more
  cases a with
  | idle => exact h
  | claiming q pc =>
    cases pc with
    | rejected row => exact hkeeps h
    | finishing result =>
      cases result with
      | none => exact hkeeps h
      | some claim => exact h
    | _ => exact h
  | transitioning t pc =>
    cases pc with
    | start => exact ⟨h.1, h.2.1.append more, h.2.2⟩
    | updated e => exact ⟨h.1, h.2.1.append more, h.2.2⟩
    | finishing owned =>
      cases owned with
      | false => exact hkeeps h
      | true =>
        refine ⟨h.1, ?_⟩
        have hws := h.2
        split_ifs at hws ⊢
        · exact hws
        · exact hkeeps hws
  | publishing claim pc => exact hkeeps h
  | sweeping q pc => exact hkeeps h

/-- A statement that leaves the transaction open. -/
theorem leadsTo_prepared {ks : List RowKey} {ws' : List (RowWrite β)}
    (h : Prepared M applied a (ws ++ ws')) :
    (Outcome.proceed ks ws' a).LeadsTo (fun a ws _ _ => Prepared M applied a ws) ws held db v := h

/-- `_record_attempt`. -/
theorem leadsTo_prepared_record {id : UUID} {n : ℕ} {e : Evidence}
    (hws : ∀ w ∈ ws, w.Keeps applied)
    (hnamed : ∀ stage, e.stage = some stage → OwnStage applied id n stage)
    (hstage : e.stage = none → ∀ stage, (v.cell id).stage = some stage →
      OwnStage applied id n stage)
    (ha : ∀ ws : List (RowWrite β), (∀ w ∈ ws, w.Keeps applied) → Prepared M applied a ws) :
    (recordOutcome (recordAttempt v id n e) a).LeadsTo
      (fun a ws _ _ => Prepared M applied a ws) ws held db v := by
  cases hrecord : recordAttempt v id n e with
  | none => exact rfl
  | some ws' =>
    exact ha _ (List.forall_mem_append.2 ⟨hws, keeps_record hnamed hstage hrecord⟩)

theorem keeps_claim (q : ClaimRequest) (id : UUID) :
    RowWrite.Keeps applied (.updateRun (β := β) id q.update) :=
  fun _ => ⟨rfl, Nat.le_succ _⟩

theorem claim_prepared {q : ClaimRequest} {pc : ClaimPc}
    (h : Prepared M applied (.claiming q pc) ws) (he : claimExec q busy v pc c = some o) :
    o.LeadsTo (fun a ws _ _ => Prepared M applied a ws) ws held db v := by
  unfold claimExec at he
  split at he
  · -- the candidate
    obtain rfl : ws = [] := h
    split at he
    · cases he
    · split_ifs at he
      cases he
      exact leadsTo_prepared rfl
  · -- no candidate
    obtain rfl : ws = [] := h
    split_ifs at he
    cases he
    exact leadsTo_prepared fun w hw => absurd hw List.not_mem_nil
  · -- the update
    rename_i id
    obtain rfl : ws = [] := h
    split at he
    · cases he
    · rename_i row hrow
      have hid : (q.update.apply row).id = id :=
        (RunUpdate.id_apply _ _).trans (Table.lookup_eq_some_iff.1 hrow).2
      split_ifs at he
      · cases he
        exact rfl
      · cases he
        exact leadsTo_prepared (by rw [Prepared, hid]; rfl)
  · -- the reset boundary
    cases he
    exact leadsTo_prepared (by rwa [List.append_nil])
  · -- the target weeks
    rename_i row lastResetAt
    obtain rfl : ws = [.updateRun row.id q.update] := h
    split at he
    · rename_i weeks _
      cases he
      exact leadsTo_prepared ⟨weeks, rfl⟩
    · cases he
      refine leadsTo_prepared (List.forall_mem_append.2
        ⟨List.forall_mem_singleton.2 (keeps_claim q row.id), ?_⟩)
      unfold Transition.writes
      split_ifs
      · exact List.forall_mem_singleton.2 fun r => ⟨rfl, le_rfl⟩
      · exact fun w hw => absurd hw List.not_mem_nil
    · cases he
      exact rfl
  · -- the evidence of a rejected request
    split at he
    · cases he
    · rename_i e hevidence
      cases he
      obtain rfl := Option.some.inj hevidence
      refine leadsTo_prepared_record h (fun stage hstage => ?_) nofun fun ws hws => hws
      exact .inl (Option.some.inj hstage).symm
  · cases he
    exact rfl
  · cases he

theorem transition_prepared {t : Transition} {pc : TransitionPc}
    (hside : Recordable M applied (.transitioning t pc) c db)
    (h : Prepared M applied (.transitioning t pc) ws)
    (he : transitionExec t ((protocol β).installAll db ws) pc c = some o) :
    o.LeadsTo (fun a ws _ _ => Prepared M applied a ws) ws held db
      ((protocol β).installAll db ws) := by
  unfold transitionExec at he
  split at he
  · -- the fenced update
    obtain ⟨hop, hnames, rfl⟩ := h
    split_ifs at he with howned
    · cases he
      rw [Transition.writes, if_pos howned]
      cases hevidence : t.evidence with
      | none => exact leadsTo_prepared ⟨hop, if_pos hevidence ▸ rfl⟩
      | some e => exact leadsTo_prepared ⟨hop, hnames, hevidence, rfl⟩
    · cases he
      exact leadsTo_prepared fun w hw => absurd hw List.not_mem_nil
  · -- the evidence
    rename_i e
    cases he
    obtain ⟨hop, hnames, hevidence, rfl⟩ := h
    have hkeeps : RowWrite.Keeps applied (.updateRun (β := β) t.claim.runId t.update) := fun r =>
      have hset := hop.keeps (fun stage now hrecord => by
        rw [(recordStage_eq_ok hrecord).1] at hevidence
        cases hevidence) r
      ⟨hset.1, hset.2.ge⟩
    have hws : ∀ w ∈ [RowWrite.updateRun (β := β) t.claim.runId t.update], w.Keeps applied :=
      List.forall_mem_singleton.2 hkeeps
    refine leadsTo_prepared_record hws (fun stage => hnames e stage hevidence)
      (fun hnone stage hstage => ?_) fun ws hws => ⟨hop, ?_⟩
    · rw [(run_installAll hws).1] at hstage
      exact hside.2 hnone stage hstage
    · rw [if_neg (by rw [hevidence]; exact Option.some_ne_none e)]
      exact hws
  · cases he
    exact rfl
  · cases he

theorem publish_prepared {claim : RunClaim} {pc : PublishPc}
    (h : Prepared M applied (.publishing claim pc) ws) (he : publishExec claim v pc c = some o) :
    o.LeadsTo (fun a ws _ _ => Prepared M applied a ws) ws held db v := by
  unfold publishExec at he
  split at he
  · split_ifs at he
    · cases he
      exact leadsTo_prepared (by rwa [List.append_nil])
    · cases he
      exact rfl
  · cases he
    exact leadsTo_prepared (List.forall_mem_append.2 ⟨h, List.forall_mem_singleton.2 trivial⟩)
  · cases he
    exact rfl
  · cases he

theorem sweep_prepared {q : SweepRequest} {pc : SweepPc}
    (hside : Recordable M applied (.sweeping q pc) c db)
    (h : Prepared M applied (.sweeping q pc) ws)
    (he : sweepExec q busy ((protocol β).installAll db ws) pc c = some o) :
    o.LeadsTo (fun a ws _ _ => Prepared M applied a ws) ws held db
      ((protocol β).installAll db ws) := by
  have hws : ∀ w ∈ ws, w.Keeps applied := h
  unfold sweepExec at he
  split at he
  · -- the expired leases
    cases he
    exact leadsTo_prepared (by rwa [List.append_nil])
  · cases he
    exact rfl
  · -- the update of the next row
    cases he
    exact leadsTo_prepared (List.forall_mem_append.2
      ⟨hws, List.forall_mem_singleton.2 fun r => ⟨rfl, le_rfl⟩⟩)
  · -- its evidence
    rename_i row rows n
    split_ifs at he with htoken
    · cases he
      exact rfl
    · cases he
      obtain ⟨hcurrent, hown⟩ := hside.2 fun hnone => htoken (by rw [hnone]; rfl)
      refine leadsTo_prepared_record hws hown (fun hnone stage hstage => ?_) fun ws hws => hws
      rw [(run_installAll hws).1, ← hcurrent] at hstage
      exact hown stage hstage
  · cases he

/-- The queue prepares its writes so. -/
def prepared (M : ℕ) (applied : List Transition) (β : Type*) :
    Assertion (protocol β) (fun _ => []) (Recordable M applied) where
  holds a ws _ _ := Prepared M applied a ws
  guarded _ _ _ _ hk := absurd hk List.not_mem_nil
  step {a ws held db c busy o} h hside he := by
    change exec a c busy _ = some o at he
    unfold exec at he
    split at he
    · -- a call
      rename_i op
      cases he
      obtain rfl : ws = [] := h
      cases op with
      | transition t => exact ⟨(hside.1 t rfl).1, (hside.1 t rfl).2, rfl⟩
      | claimNext q => exact rfl
      | publish claim => exact fun w hw => absurd hw List.not_mem_nil
      | recoverStaleRuns q => exact fun w hw => absurd hw List.not_mem_nil
    · cases he
    · cases he
      exact rfl
    · exact claim_prepared h he
    · exact transition_prepared hside h he
    · exact publish_prepared h he
    · exact sweep_prepared hside h he
  stable h _ := h

end Prepared

section Commit

variable {M : ℕ} {applied : List Transition} {a a' : Loc} {ws : List (RowWrite β)} {v : Db β}
  {busy : RowKey → Bool} {c : Choice β} {o : Outcome RowKey (RowWrite β) Loc}

/-- An operation takes effect with a `COMMIT`. -/
theorem applies_eq_nil (he : exec a c busy v = some o) (hno : ∀ a', o ≠ .commit a') :
    a.applies c = [] := by
  unfold Loc.applies
  split
  · cases he
    exact absurd rfl (hno _)
  · rfl

/-- What a session commits: writes that keep the stages, or a stage that its attempt enters. -/
theorem Prepared.of_commit (h : Prepared M applied a ws)
    (he : exec a c busy v = some (.commit a')) :
    ((∀ w ∈ ws, w.Keeps applied) ∧ ∀ id n stage, ¬Entered (a.applies c) id n stage) ∨
      ∃ t stage now, recordStage t.claim stage now = .ok t ∧
        a = .transitioning t (.finishing true) ∧ a.applies c = [t] ∧
        ws = [.updateRun t.claim.runId t.update] := by
  have hnil (id : UUID) (n : ℕ) (stage : Stage) : ¬Entered [] id n stage := by
    rintro ⟨t, ht, -⟩
    exact absurd ht List.not_mem_nil
  obtain ⟨rfl, ⟨q, result, rfl, -⟩ | ⟨t, owned, rfl, -⟩ | ⟨claim, rfl, -⟩ | ⟨q, n, rfl, -⟩⟩ :=
    commit_cases he
  · refine .inl ⟨?_, hnil⟩
    cases result with
    | none => exact h
    | some claim =>
      obtain ⟨weeks, rfl⟩ := h
      have htarget : RowWrite.Keeps applied
          (.updateRun (β := β) claim.runId (setTargetWeeks weeks)) := fun _ => ⟨rfl, le_rfl⟩
      exact List.forall_mem_cons.2 ⟨keeps_claim q _, List.forall_mem_singleton.2 htarget⟩
  · cases owned with
    | false => exact .inl ⟨h, hnil⟩
    | true =>
      by_cases hrecord : ∃ stage now, recordStage t.claim stage now = .ok t
      · -- `record_stage` writes nothing but the stage
        obtain ⟨stage, now, hrecord⟩ := hrecord
        have hws := h.2
        rw [if_pos (recordStage_eq_ok hrecord).1] at hws
        exact .inr ⟨t, stage, now, hrecord, rfl, rfl, hws⟩
      · -- every other operation keeps the stage
        push Not at hrecord
        refine .inl ⟨?_, ?_⟩
        · have hws := h.2
          split_ifs at hws
          · rw [hws]
            refine List.forall_mem_singleton.2 fun r => ?_
            have hset := h.1.keeps hrecord r
            exact ⟨hset.1, hset.2.ge⟩
          · exact hws
        · rintro id n stage ⟨t', ht', -, -, now, hnow⟩
          obtain rfl := List.mem_singleton.1 ht'
          exact hrecord stage now hnow
  · exact .inl ⟨h, hnil⟩
  · exact .inl ⟨h, hnil⟩

end Commit

/-! ## The assertion about the whole -/

/-- The stages of the evidence and of the runs. -/
structure Stages (applied : List Transition) (db : Db β) : Prop where
  named : Named applied db
  /-- A running attempt that has entered a stage is in one of its own. -/
  current : ∀ id token n stage, (db.cell id).Active token n → Entered applied id n stage →
    ∃ stage, (db.cell id).stage = some stage ∧ Entered applied id n stage
  /-- Stages are entered by attempts that have begun. -/
  begun : ∀ id n stage, Entered applied id n stage → ∃ r, (db.cell id).run = some r ∧ n ≤ r.attempt

theorem Stages.append {applied more : List Transition} {db : Db β} (h : Stages applied db)
    (hno : ∀ id n stage, ¬Entered more id n stage) : Stages (applied ++ more) db := by
  have hold {id : UUID} {n : ℕ} {stage : Stage} (hin : Entered (applied ++ more) id n stage) :
      Entered applied id n stage := (entered_append.1 hin).resolve_right (hno id n stage)
  refine ⟨fun x hx => (h.named x hx).append more, fun id token n stage ha hin => ?_,
    fun id n stage hin => h.begun id n stage (hold hin)⟩
  obtain ⟨current, hcurrent, hown⟩ := h.current id token n stage ha (hold hin)
  exact ⟨current, hcurrent, hown.append more⟩

/-- The sessions and the stages. -/
structure StagedSound (M : ℕ) (t : Staged ι β) : Prop where
  tracked : TrackedSound M t.tracked
  prepared : (prepared M t.applied β).All t.tracked.state
  stages : Stages t.applied t.tracked.state.db

section Next

variable {M : ℕ} {t t' : Staged ι β} {i : ι} {c : Choice β}

/-- The stage of a running attempt, unless it is left over. -/
theorem StagedSound.own (h : StagedSound M t) {id token : UUID} {n : ℕ}
    (ha : (t.tracked.state.db.cell id).Active token n) (hc : t.Current id n) (stage : Stage)
    (hstage : (t.tracked.state.db.cell id).stage = some stage) : OwnStage t.applied id n stage := by
  rcases hc with hnone | ⟨entered, hentered⟩
  · obtain ⟨r, hr, -⟩ := ha
    obtain ⟨hmem, hid⟩ := Table.lookup_eq_some_iff.1 hr
    rw [Cell.stage, hr, Option.bind_some, hnone r hmem hid] at hstage
    cases hstage
  · -- the stage of the run is the last one that this attempt has entered
    obtain ⟨current, hcurrent, hown⟩ := h.stages.current id token n entered ha hentered
    rw [hcurrent] at hstage
    exact .inr (Option.some.inj hstage ▸ hown)

/-- What a session may rely on. -/
theorem StagedSound.recordable (h : StagedSound M t) (hl : t.Lawful M (i, c))
    (hleft : t.NotLeftOver (i, c)) :
    Recordable M t.applied (t.tracked.state.session i).loc c t.tracked.state.db := by
  refine ⟨fun tr htr => ⟨(hl.1 _ htr).1, hl.2 tr htr⟩, ?_⟩
  obtain ⟨⟨-, -, hat⟩, -⟩ := h.tracked.all i
  unfold Staged.NotLeftOver at hleft
  cases hloc : (t.tracked.state.session i).loc with
  | idle => exact trivial
  | claiming q pc => exact trivial
  | publishing claim pc => exact trivial
  | transitioning tr pc =>
    cases pc with
    | start => exact trivial
    | finishing owned => exact trivial
    | updated e =>
      intro hnone
      rw [hloc] at hleft hat
      -- the claim owns its run, so this is the attempt of the claim
      obtain ⟨-, r, hr, howns⟩ := hat
      obtain ⟨hid, htoken, hs⟩ := RunClaim.owns_iff.1 howns
      have hattempt := (h.tracked.reliable hl.1).2.1 tr _ hloc r hr howns
      have ha : (t.tracked.state.db.cell tr.claim.runId).Active tr.claim.claimToken
          tr.claim.attempt := ⟨r, Table.lookup_eq_some_iff.2 ⟨hr, hid⟩, hs, htoken, hattempt⟩
      exact h.own ha (hleft hnone)
  | sweeping q pc =>
    cases pc with
    | start => exact trivial
    | sweeping rows n => exact trivial
    | recording row rows n =>
      intro htoken
      rw [hloc] at hleft hat
      -- the row is locked, so it is still as it was read
      obtain ⟨⟨-, hrow, hs⟩, -⟩ := hat
      have hcell : (t.tracked.state.db.cell row.id).run = some row :=
        Table.lookup_eq_some_iff.2 ⟨hrow, rfl⟩
      have hstage : (t.tracked.state.db.cell row.id).stage = row.currentStage := by
        rw [Cell.stage, hcell]
        rfl
      obtain ⟨token, htoken⟩ := Option.ne_none_iff_exists'.1 htoken
      have ha : (t.tracked.state.db.cell row.id).Active token row.attempt :=
        ⟨row, hcell, hs, htoken, rfl⟩
      exact ⟨hstage.symm, fun stage hcurrent => h.own ha hleft stage (hstage.trans hcurrent)⟩

variable [DecidableEq ι] {s' : State ι (Db β) RowKey (RowWrite β) Loc} {a' : Loc}

/-- The parts of a step. -/
theorem staged_next (h : (staged β ι).next t (i, c) = some t') :
    (tracked β ι).next t.tracked (i, c) = some t'.tracked ∧
      t'.applied = t.applied ++ (t.tracked.state.session i).loc.applies c := by
  obtain ⟨s, hs, rfl⟩ := Option.map_eq_some_iff.1 h
  exact ⟨hs, rfl⟩

/-- A new claim is for an attempt that has not begun before. -/
theorem StagedSound.lt_given (h : StagedSound M t)
    (he : exec (t.tracked.state.session i).loc c (t.tracked.state.busy i)
      ((protocol β).view t.tracked.state i) = some (.commit a')) {claim : RunClaim}
    (hgiven : claim ∈ a'.given)
    (ha : (((protocol β).view t.tracked.state i).cell claim.runId).Active claim.claimToken
      claim.attempt) {r : PipelineRun}
    (hr : (t.tracked.state.db.cell claim.runId).run = some r) : r.attempt < claim.attempt := by
  obtain ⟨-, ⟨q, result, hloc, rfl⟩ | ⟨_, _, -, rfl⟩ | ⟨_, -, rfl⟩ | ⟨_, _, -, rfl⟩⟩ :=
    commit_cases he
  · cases result with
    | none => cases hgiven
    | some claim' =>
      obtain rfl : claim = claim' := List.mem_singleton.1 hgiven
      have htoken := (h.tracked.all i).2.pc
      have hpending := h.prepared i
      rw [hloc] at htoken
      change Prepared M t.applied (t.tracked.state.session i).loc _ at hpending
      rw [hloc] at hpending
      obtain ⟨weeks, hpending⟩ := hpending
      have hview : (protocol β).view t.tracked.state i =
          RowWrite.install (RowWrite.install t.tracked.state.db
            (.updateRun claim.runId q.update)) (.updateRun claim.runId (setTargetWeeks weeks)) := by
        rw [Protocol.view, hpending]
        rfl
      have hrun : (((protocol β).view t.tracked.state i).cell claim.runId).run =
          some ((setTargetWeeks weeks).apply (q.update.apply r)) := by
        rw [hview, cell_install_of_about rfl, cell_install_of_about rfl, RowWrite.apply,
          RowWrite.apply, hr]
        rfl
      obtain ⟨r', hr', hs, ht, hn⟩ := ha
      obtain rfl := Option.some.inj (hrun.symm.trans hr')
      by_cases hcond : q.update.cond r = true
      · have happly : q.update.apply r = q.update.set r := if_pos hcond
        rw [happly] at hn
        exact hn ▸ Nat.lt_succ_self _
      · -- the token would be known already
        have happly : q.update.apply r = r := if_neg hcond
        rw [happly] at hs ht hn
        have hactive : (t.tracked.state.db.cell claim.runId).Active q.token claim.attempt :=
          ⟨r, hr, hs, ht.trans (congrArg some htoken), hn⟩
        exact absurd (.inr hactive) (h.tracked.unknown i q _ hloc claim.runId claim.attempt)
  · cases hgiven
  · cases hgiven
  · cases hgiven

/-- A commit of writes that keep the stages. -/
theorem StagedSound.stages_of_keeps (h : StagedSound M t)
    (hs : (protocol β).next t.tracked.state (i, c) = some s')
    (he : exec (t.tracked.state.session i).loc c (t.tracked.state.busy i)
      ((protocol β).view t.tracked.state i) = some (.commit a'))
    (hdb : s'.db = (protocol β).view t.tracked.state i) (hloc : (s'.session i).loc = a')
    (hkeeps : ∀ w ∈ (t.tracked.state.session i).pending, w.Keeps t.applied) :
    Stages t.applied s'.db := by
  refine ⟨?_, fun id token n stage ha hentered => ?_, fun id n stage hentered => ?_⟩
  · rw [hdb]
    exact h.stages.named.installAll hkeeps
  · rcases h.tracked.active_next hs ha with hold | ⟨claim, hgiven, rfl, rfl, rfl⟩
    · obtain ⟨current, hcurrent, hown⟩ := h.stages.current id token n stage hold hentered
      refine ⟨current, ?_, hown⟩
      rw [hdb]
      exact (run_installAll hkeeps).1.trans hcurrent
    · -- no stage has been entered by an attempt that begins with this commit
      obtain ⟨r, hr, hle⟩ := h.stages.begun _ _ _ hentered
      rw [hdb] at ha
      rw [hloc] at hgiven
      exact absurd (h.lt_given he hgiven ha hr) (Nat.not_lt.2 hle)
  · obtain ⟨r, hr, hle⟩ := h.stages.begun id n stage hentered
    obtain ⟨r', hr', hle'⟩ := (run_installAll hkeeps).2 r hr
    refine ⟨r', ?_, hle.trans hle'⟩
    rw [hdb]
    exact hr'

omit [DecidableEq ι] in
/-- `record_stage` takes effect. -/
theorem StagedSound.stages_of_record (h : StagedSound M t) (hl : t.Lawful M (i, c))
    {tr : Transition} {stage : Stage} {now : ℕ} (hrecord : recordStage tr.claim stage now = .ok tr)
    (hloc : (t.tracked.state.session i).loc = .transitioning tr (.finishing true))
    (hpending : (t.tracked.state.session i).pending = [.updateRun tr.claim.runId tr.update]) :
    Stages (t.applied ++ [tr]) ((protocol β).view t.tracked.state i) := by
  obtain ⟨-, hset⟩ := recordStage_eq_ok hrecord
  have hentered : Entered (t.applied ++ [tr]) tr.claim.runId tr.claim.attempt stage :=
    ⟨tr, by simp, rfl, rfl, now, hrecord⟩
  obtain ⟨-, r, hr, howns⟩ : Holds tr.claim _ t.tracked.state.db :=
    (h.tracked.all i).1.2.1 tr.claim (by rw [hloc]; rfl) (by simp [hpending])
  have hcell : (t.tracked.state.db.cell tr.claim.runId).run = some r :=
    Table.lookup_eq_some_iff.2 ⟨hr, (RunClaim.owns_iff.1 howns).1⟩
  have hattempt : r.attempt = tr.claim.attempt :=
    (h.tracked.reliable hl.1).2.1 tr _ hloc r hr howns
  have hview : (protocol β).view t.tracked.state i =
      RowWrite.install t.tracked.state.db (.updateRun tr.claim.runId tr.update) := by
    rw [Protocol.view, hpending]
    rfl
  have hself : (RowWrite.install t.tracked.state.db
      (.updateRun tr.claim.runId tr.update)).cell tr.claim.runId =
        ⟨some (tr.set r), (t.tracked.state.db.cell tr.claim.runId).evidence⟩ := by
    rw [cell_install_of_about rfl]
    exact apply_updateRun tr.claim.runId hcell howns
  have hother {id : UUID} (hid : tr.claim.runId ≠ id) : (RowWrite.install t.tracked.state.db
      (.updateRun tr.claim.runId tr.update)).cell id = t.tracked.state.db.cell id :=
    cell_install_of_not_about fun h => hid (Option.some.inj h)
  have hnew {id : UUID} {n : ℕ} {stage : Stage} (h : Entered [tr] id n stage) :
      tr.claim.runId = id ∧ tr.claim.attempt = n := by
    obtain ⟨tr', htr, hid, hn, -⟩ := h
    exact List.mem_singleton.1 htr ▸ ⟨hid, hn⟩
  rw [hview]
  refine ⟨fun x hx => (h.stages.named x hx).append _, fun id token n stage' ha hin => ?_,
    fun id n stage' hin => ?_⟩
  · by_cases hid : tr.claim.runId = id
    · subst hid
      rw [hself] at ha ⊢
      obtain ⟨r', hr', -, -, hn⟩ := ha
      obtain rfl := Option.some.inj hr'
      rw [(hset r).2, hattempt] at hn
      exact ⟨stage, (hset r).1, hn ▸ hentered⟩
    · rw [hother hid] at ha ⊢
      rcases entered_append.1 hin with hin | hin
      · obtain ⟨current, hcurrent, hown⟩ := h.stages.current id token n stage' ha hin
        exact ⟨current, hcurrent, hown.append _⟩
      · exact absurd (hnew hin).1 hid
  · have hbegun : ∃ r, (t.tracked.state.db.cell id).run = some r ∧ n ≤ r.attempt := by
      rcases entered_append.1 hin with hin | hin
      · exact h.stages.begun id n stage' hin
      · obtain ⟨rfl, rfl⟩ := hnew hin
        exact ⟨r, hcell, hattempt.ge⟩
    obtain ⟨r₀, hr₀, hle⟩ := hbegun
    by_cases hid : tr.claim.runId = id
    · subst hid
      obtain rfl := Option.some.inj (hcell.symm.trans hr₀)
      rw [hself]
      exact ⟨tr.set r, rfl, (hset r).2 ▸ hle⟩
    · rw [hother hid]
      exact ⟨r₀, hr₀, hle⟩

/-- **The step.** -/
theorem StagedSound.next (h : StagedSound M t) (hl : t.Lawful M (i, c))
    (hleft : t.NotLeftOver (i, c)) (hs : (staged β ι).next t (i, c) = some t') :
    StagedSound M t' := by
  obtain ⟨htracked, happlied⟩ := staged_next hs
  obtain ⟨hs', -, -⟩ := tracked_next htracked
  have hprepared := (Queue.prepared M t.applied β).all_next h.prepared (h.recordable hl hleft) hs'
  refine ⟨h.tracked.next hl.1 htracked, fun j => ?_, ?_⟩
  · have hj : Prepared M t.applied (t'.tracked.state.session j).loc
        (t'.tracked.state.session j).pending := hprepared j
    rw [happlied]
    exact hj.append _
  · rw [happlied]
    obtain ⟨o, he, hloc⟩ := Protocol.session_next_self hs'
    change exec _ _ _ _ = _ at he
    by_cases hcommit : ∃ a, o = .commit a
    · obtain ⟨a, rfl⟩ := hcommit
      have hdb := Protocol.db_next_of_commit hs' he
      rcases Prepared.of_commit (h.prepared i) he with ⟨hkeeps, hno⟩ |
        ⟨tr, stage, now, hrecord, htr, happlies, hpending⟩
      · exact (h.stages_of_keeps hs' he hdb hloc hkeeps).append hno
      · rw [happlies, hdb]
        exact h.stages_of_record hl hrecord htr hpending
    · -- without a commit neither the data nor the log changes
      push Not at hcommit
      rw [applies_eq_nil he hcommit, List.append_nil]
      rcases Protocol.db_next hs' with hdb | ⟨a, ha, -⟩
      · rw [hdb]
        exact h.stages
      · exact absurd (Option.some.inj (he.symm.trans ha)) (hcommit a)

end Next

/-! ## Runs -/

section Runs

variable {M : ℕ} {db : Db β}

theorem stagedSound_start (hM : 0 < M) (h : Requested db) :
    StagedSound M (Staged.start db : Staged ι β) := by
  have hnone {id : UUID} {n : ℕ} {stage : Stage} : ¬Entered [] id n stage := by
    rintro ⟨t, ht, -⟩
    exact absurd ht List.not_mem_nil
  refine ⟨trackedSound_start hM h, (prepared M [] β).all_start fun _ => rfl, fun x hx => ?_,
    fun _ _ _ _ _ hin => absurd hin hnone, fun _ _ _ hin => absurd hin hnone⟩
  change x ∈ db.attempts.rows at hx
  rw [h.2] at hx
  exact absurd hx List.not_mem_nil

variable [DecidableEq ι]

/-- **The evidence of an attempt names a stage of that attempt**, `orchestration` or one that it has
entered, in every run whose steps record no stage that is left over. -/
theorem evidence_names_own_stage (hM : 0 < M) (db₀ : Db β) (h₀ : Requested db₀) (t : Staged ι β)
    (h : (staged β ι).Run (fun t l => t.Lawful M l ∧ t.NotLeftOver l) (Staged.start db₀) t) :
    ∀ x ∈ t.tracked.state.db.attempts.rows, OwnStage t.applied x.runId x.attempt x.stage := by
  have hsound : StagedSound M t := h.invariant (StagedSound M) (stagedSound_start hM h₀)
    fun s l s' hI hl hs => StagedSound.next (i := l.1) (c := l.2) hI hl.1 hl.2 hs
  exact hsound.stages.named

end Runs

/-- A check of calls that enter no stage. -/
def enterNone (M : ℕ) (t : Staged ι β) (l : ι × Choice β) : Bool :=
  lawful M t.tracked l && t.tracked.state.db.runs.rows.all fun r => r.currentStage.isNone

theorem enterNone_spec {M : ℕ} {t : Staged ι β} {l : ι × Choice β} (h : enterNone M t l = true) :
    t.Lawful M l ∧ t.NotLeftOver l := by
  obtain ⟨hl, hrows⟩ := Bool.and_eq_true_iff.1 h
  have hcurrent (id : UUID) (n : ℕ) : t.Current id n :=
    .inl fun r hr _ => Option.isNone_iff_eq_none.1 (List.all_eq_true.1 hrows r hr)
  refine ⟨⟨lawful_spec hl, fun tr htr => ?_⟩, ?_⟩
  · unfold lawful at hl
    rw [htr] at hl
    cases hl
  · unfold Staged.NotLeftOver
    split
    · exact fun _ => hcurrent _ _
    · exact hcurrent _ _
    · exact trivial

/-- Two leases expire before the first stage. -/
theorem evidence_names_own_stage_two_leases :
    ∃ t : Staged ℕ (List ℕ),
      (t.tracked.state.db.attempts.rows.map fun x => (x.attempt, x.stage)) =
        [(1, .orchestration), (2, .orchestration)] ∧
      ∀ x ∈ t.tracked.state.db.attempts.rows, OwnStage t.applied x.runId x.attempt x.stage := by
  obtain ⟨t, ht, hp⟩ := (staged (List ℕ) ℕ).exists_run (enterNone 2) (Staged.start oneRequest)
    twoLeases
    (fun t => decide ((t.tracked.state.db.attempts.rows.map fun x => (x.attempt, x.stage)) =
      [(1, .orchestration), (2, .orchestration)]))
    (by decide)
  exact ⟨t, of_decide_eq_true hp, evidence_names_own_stage (M := 2) (by decide) oneRequest
    (by decide) t (ht.mono fun _ _ => enterNone_spec)⟩

/-! ### A stage that is left over -/

/-- What `claim_next` gives the first worker of `twoLeases`. -/
def extractClaim : RunClaim :=
  ⟨1, 11, .scheduled, none, [2, 1, 0].map fun k => isoWeekStart beginningOfTime - k * week, 1⟩

/-- The calls of `record_stage` by worker 0. -/
def enters (claim : RunClaim) (stage : Stage) (now : ℕ) : List (ℕ × Choice (List ℕ)) :=
  match recordStage claim stage now with
  | .ok t => [(0, .call (.transition t)), (0, .ok), (0, .ok)]
  | .error _ => []

/-- The first worker of `twoLeases` enters a stage before it stalls, the second one does not. -/
def leftOver : List (ℕ × Choice (List ℕ)) :=
  twoLeases.take 6 ++ enters extractClaim .extract (beginningOfTime + 10 * second) ++
    twoLeases.drop 6

/-- A check of calls that are operations of claims that were given. -/
def presented (M : ℕ) (t : Staged ι β) (l : ι × Choice β) : Bool :=
  match l.2 with
  | .call (.transition tr) => decide (tr.claim ∈ t.tracked.issued)
  | _ => lawful M t.tracked l

theorem presented_spec {M : ℕ} {t : Staged ι β} {l : ι × Choice β}
    (hop : ∀ tr, l.2 = .call (.transition tr) → Operation M tr ∧ tr.evidence = none)
    (h : presented M t l = true) : t.Lawful M l := by
  refine ⟨fun op hcall => ?_, fun tr hcall e stage he => ?_⟩
  · cases op with
    | transition tr =>
      unfold presented at h
      rw [hcall] at h
      exact ⟨(hop tr hcall).1, of_decide_eq_true h⟩
    | _ =>
      unfold presented at h
      rw [hcall] at h
      exact lawful_spec h _ hcall
  · rw [(hop tr hcall).2] at he
    cases he

theorem operation_of_mem_leftOver {M : ℕ} {l : ℕ × Choice (List ℕ)} (hl : l ∈ leftOver)
    {tr : Transition} (h : l.2 = .call (.transition tr)) : Operation M tr ∧ tr.evidence = none := by
  have hno : ∀ l ∈ twoLeases, ∀ tr, l.2 ≠ .call (.transition tr) := by simp [twoLeases]
  have henters (claim : RunClaim) (stage : Stage) (now : ℕ) (hl : l ∈ enters claim stage now) :
      recordStage claim stage now = .ok tr := by
    unfold enters at hl
    split at hl
    · rename_i t hrecord
      simp only [List.mem_cons, List.not_mem_nil, or_false] at hl
      rcases hl with rfl | rfl | rfl
      · cases h
        exact hrecord
      · cases h
      · cases h
    · exact absurd hl List.not_mem_nil
  rcases List.mem_append.1 hl with hl | hl
  · rcases List.mem_append.1 hl with hl | hl
    · exact absurd h (hno l (List.mem_of_mem_take hl) tr)
    · have hrecord := henters _ _ _ hl
      exact ⟨.recordStage hrecord, (recordStage_eq_ok hrecord).1⟩
  · exact absurd h (hno l (List.mem_of_mem_drop hl) tr)

/-- The evidence of the second attempt names the stage of the first one. -/
theorem evidence_names_left_over_stage :
    ¬∀ (M : ℕ) (db₀ : Db (List ℕ)) (t : Staged ℕ (List ℕ)), 0 < M → Requested db₀ →
      (staged (List ℕ) ℕ).Run (Staged.Lawful M) (Staged.start db₀) t →
        ∀ x ∈ t.tracked.state.db.attempts.rows, OwnStage t.applied x.runId x.attempt x.stage := by
  intro h
  obtain ⟨t, ht, hp⟩ := (staged (List ℕ) ℕ).exists_run_of (presented 2) (G := Staged.Lawful 2)
    (Staged.start oneRequest) leftOver
    (fun t l hl hcheck => presented_spec (fun _ => operation_of_mem_leftOver hl) hcheck)
    (fun t => decide ((t.tracked.state.db.attempts.rows.any fun x =>
      decide (x.attempt = 2 ∧ x.stage = .extract)) = true ∧
        (t.applied.map fun tr => tr.claim.attempt) = [1]))
    (by decide)
  obtain ⟨hrow, happlied⟩ := of_decide_eq_true hp
  obtain ⟨x, hx, hstage⟩ := List.any_eq_true.1 hrow
  obtain ⟨hattempt, hextract⟩ := of_decide_eq_true hstage
  rcases h 2 oneRequest t (by decide) (by decide) ht x hx with horchestration | ⟨tr, htr, -, hn, -⟩
  · rw [hextract] at horchestration
    cases horchestration
  · -- only the first attempt has entered a stage
    have hmem : tr.claim.attempt ∈ t.applied.map fun tr => tr.claim.attempt :=
      List.mem_map_of_mem htr
    rw [happlied, hn, hattempt] at hmem
    exact absurd hmem (by decide)

end Queue

end TrackFlow
