import TrackFlow.Queue.Books

/-!
# Attempt evidence

Whatever the interleaving, the rows of `pipeline_run_attempts` of a run are the attempts it has
finished, each of them once, and a row is committed with the transition that finishes its attempt.

An evidence row is inserted with the attempt number of a claim, so claims have to be the ones that
`claim_next` has returned, and their tokens drawn once each (`uuid4`): `Tracked` adds the tokens
drawn and the claims returned to the state.

* `Lawful` : the calls of the workers.
* `loc_exec`, `owes_of_commit` : where the statements of a session lead.
* `TrackedSound` : the assertion about all sessions, the committed runs and the claims.
* `TrackedSound.next` : it is kept by every step.
* `attempt_evidence_complete` : **the evidence is complete in every committed state.**
-/

namespace TrackFlow

namespace Queue

open RowLock

variable {β : Type*}

/-! ## Tokens and claims -/

/-- The tokens that a choice draws. -/
def Choice.draws : Choice β → List UUID
  | .call (.claimNext q) => [q.token]
  | _ => []

/-- The claim that a session has just been given. -/
def Loc.given : Loc → List RunClaim
  | .idle (some (.claim (some c))) => [c]
  | _ => []

/-- The queue, the tokens drawn and the claims that `claim_next` has returned. -/
structure Tracked (ι β : Type*) where
  state : State ι (Db β) RowKey (RowWrite β) Loc
  drawn : List UUID
  issued : List RunClaim

variable {ι : Type*}

/-- The queue with its tokens and claims. -/
def tracked (β ι : Type*) [DecidableEq ι] : Machine (Tracked ι β) (ι × Choice β) where
  next t l := ((protocol β).next t.state l).map fun s =>
    ⟨s, t.drawn ++ l.2.draws, t.issued ++ (s.session l.1).loc.given⟩

/-- No session has begun, and no token is drawn. -/
def Tracked.start (db : Db β) : Tracked ι β := ⟨State.start db fun _ => .idle none, [], []⟩

/-- A call of a worker: `claim_next` draws a new token, an operation is called with a claim that
`claim_next` has returned, and `max_attempts` is `M`. -/
def Op.Lawful (M : ℕ) (t : Tracked ι β) : Op → Prop
  | .claimNext q => q.token ∉ t.drawn
  | .transition tr => Operation M tr ∧ tr.claim ∈ t.issued
  | .publish _ => True
  | .recoverStaleRuns q => q.maxAttempts = M

/-- A step of the workers. -/
def Lawful (M : ℕ) (t : Tracked ι β) (l : ι × Choice β) : Prop :=
  ∀ op, l.2 = .call op → op.Lawful M t

theorem Op.Lawful.proper {M : ℕ} {t : Tracked ι β} {op : Op} (h : op.Lawful M t) :
    op.Proper M := by
  cases op with
  | transition tr => exact h.1
  | recoverStaleRuns q => exact h
  | claimNext q => exact trivial
  | publish claim => exact trivial

/-- The token stands for the attempt `n` of the run `id`: a claim says so, or the run itself. -/
def Known (t : Tracked ι β) (token id : UUID) (n : ℕ) : Prop :=
  (∃ c ∈ t.issued, c.claimToken = token ∧ c.runId = id ∧ c.attempt = n) ∨
    (t.state.db.cell id).Active token n

/-- The sessions, the committed runs and the claims. -/
structure TrackedSound (M : ℕ) (t : Tracked ι β) : Prop where
  all : (books M β).All t.state
  complete : Complete M t.state.db
  presents : ∀ i tr pc, (t.state.session i).loc = .transitioning tr pc → tr.claim ∈ t.issued
  /-- A token that is being installed is known to nobody else. -/
  drawn : ∀ i q pc, (t.state.session i).loc = .claiming q pc → q.token ∈ t.drawn
  unknown : ∀ i q pc, (t.state.session i).loc = .claiming q pc → ∀ id n, ¬ Known t q.token id n
  distinct : ∀ i q pc j q' pc', (t.state.session i).loc = .claiming q pc →
    (t.state.session j).loc = .claiming q' pc' → q.token = q'.token → i = j
  known_drawn : ∀ token id n, Known t token id n → token ∈ t.drawn
  known_unique : ∀ token id n id' n', Known t token id n → Known t token id' n' →
    id = id' ∧ n = n'

section Exec

variable {a a' : Loc} {c : Choice β} {busy : RowKey → Bool} {v : Db β}
  {o : Outcome RowKey (RowWrite β) Loc} {q : ClaimRequest}

theorem loc_recordOutcome (writes : Option (List (RowWrite β))) (next : Loc) :
    (recordOutcome writes next).loc = next ∨
      (recordOutcome writes next).loc = .idle (some .raised) := by
  cases writes
  · exact .inr rfl
  · exact .inl rfl

/-- Where a statement of `claim_next` leads. -/
theorem loc_claimExec {pc : ClaimPc} (h : claimExec q busy v pc c = some o) :
    (∃ pc', o.loc = .claiming q pc') ∨ o.loc = .idle (some .raised) ∨
      o.loc = .idle (some (.claim none)) ∨
      ∃ claim, pc = .finishing (some claim) ∧ o = .commit (.idle (some (.claim (some claim)))) := by
  unfold claimExec at h
  split at h
  · split at h
    · cases h
    · split_ifs at h
      cases h
      exact .inl ⟨_, rfl⟩
  · split_ifs at h
    cases h
    exact .inl ⟨_, rfl⟩
  · split at h
    · cases h
    · split_ifs at h
      · cases h
        exact .inr (.inr (.inl rfl))
      · cases h
        exact .inl ⟨_, rfl⟩
  · cases h
    exact .inl ⟨_, rfl⟩
  · split at h <;> cases h
    · exact .inl ⟨_, rfl⟩
    · exact .inl ⟨_, rfl⟩
    · exact .inr (.inl rfl)
  · split at h
    · cases h
    · cases h
      rcases loc_recordOutcome _ _ with hloc | hloc
      · exact .inl ⟨_, hloc⟩
      · exact .inr (.inl hloc)
  · rename_i result
    cases h
    cases result with
    | none => exact .inr (.inr (.inl rfl))
    | some claim => exact .inr (.inr (.inr ⟨claim, rfl, rfl⟩))
  · cases h

theorem loc_transitionExec {t : Transition} {pc : TransitionPc}
    (h : transitionExec t v pc c = some o) :
    (∃ pc', o.loc = .transitioning t pc') ∨ ∃ r, o.loc = .idle (some r) ∧ o.loc.given = [] := by
  unfold transitionExec at h
  split at h
  · split_ifs at h <;> cases h <;> exact .inl ⟨_, rfl⟩
  · cases h
    rcases loc_recordOutcome _ _ with hloc | hloc
    · exact .inl ⟨_, hloc⟩
    · exact .inr ⟨_, hloc, by rw [hloc]; rfl⟩
  · cases h
    exact .inr ⟨_, rfl, rfl⟩
  · cases h

theorem loc_publishExec {claim : RunClaim} {pc : PublishPc}
    (h : publishExec claim v pc c = some o) :
    (∃ pc', o.loc = .publishing claim pc') ∨ ∃ r, o.loc = .idle (some r) ∧ o.loc.given = [] := by
  unfold publishExec at h
  split at h
  · split_ifs at h <;> cases h
    · exact .inl ⟨_, rfl⟩
    · exact .inr ⟨_, rfl, rfl⟩
  · cases h
    exact .inl ⟨_, rfl⟩
  · cases h
    exact .inr ⟨_, rfl, rfl⟩
  · cases h

theorem loc_sweepExec {q : SweepRequest} {pc : SweepPc} (h : sweepExec q busy v pc c = some o) :
    (∃ pc', o.loc = .sweeping q pc') ∨ ∃ r, o.loc = .idle (some r) ∧ o.loc.given = [] := by
  unfold sweepExec at h
  split at h
  · cases h
    exact .inl ⟨_, rfl⟩
  · cases h
    exact .inr ⟨_, rfl, rfl⟩
  · cases h
    exact .inl ⟨_, rfl⟩
  · split_ifs at h
    · cases h
      exact .inr ⟨_, rfl, rfl⟩
    · cases h
      rcases loc_recordOutcome _ _ with hloc | hloc
      · exact .inl ⟨_, hloc⟩
      · exact .inr ⟨_, hloc, by rw [hloc]; rfl⟩
  · cases h

/-- Where a statement leads: a call begins its operation; a session stays with its operation or is
done with it; and a claim is given by the `COMMIT` of the `claim_next` that has made it. -/
theorem loc_exec (h : exec a c busy v = some o) :
    (∃ op, c = .call op ∧ o.loc = op.start) ∨
      (∃ q pc pc', a = .claiming q pc ∧ o.loc = .claiming q pc') ∨
      (∃ t pc pc', a = .transitioning t pc ∧ o.loc = .transitioning t pc') ∨
      (o.loc.given = [] ∧ (∀ q pc, o.loc ≠ .claiming q pc) ∧ ∀ t pc, o.loc ≠ .transitioning t pc) ∨
      ∃ q claim, a = .claiming q (.finishing (some claim)) ∧
        o = .commit (.idle (some (.claim (some claim)))) := by
  unfold exec at h
  split at h
  · cases h
    exact .inl ⟨_, rfl, rfl⟩
  · cases h
  · cases h
    exact .inr (.inr (.inr (.inl ⟨rfl, by simp [Outcome.loc], by simp [Outcome.loc]⟩)))
  · rename_i q pc c
    rcases loc_claimExec h with ⟨pc', hloc⟩ | hloc | hloc | ⟨claim, rfl, rfl⟩
    · exact .inr (.inl ⟨q, pc, pc', rfl, hloc⟩)
    · exact .inr (.inr (.inr (.inl (by rw [hloc]; exact ⟨rfl, by simp, by simp⟩))))
    · exact .inr (.inr (.inr (.inl (by rw [hloc]; exact ⟨rfl, by simp, by simp⟩))))
    · exact .inr (.inr (.inr (.inr ⟨q, claim, rfl, rfl⟩)))
  · rename_i t pc c
    rcases loc_transitionExec h with ⟨pc', hloc⟩ | ⟨r, hloc, hgiven⟩
    · exact .inr (.inr (.inl ⟨t, pc, pc', rfl, hloc⟩))
    · exact .inr (.inr (.inr (.inl ⟨hgiven, by simp [hloc], by simp [hloc]⟩)))
  · rcases loc_publishExec h with ⟨pc', hloc⟩ | ⟨r, hloc, hgiven⟩
    · exact .inr (.inr (.inr (.inl (by rw [hloc]; exact ⟨rfl, by simp, by simp⟩))))
    · exact .inr (.inr (.inr (.inl ⟨hgiven, by simp [hloc], by simp [hloc]⟩)))
  · rcases loc_sweepExec h with ⟨pc', hloc⟩ | ⟨r, hloc, hgiven⟩
    · exact .inr (.inr (.inr (.inl (by rw [hloc]; exact ⟨rfl, by simp, by simp⟩))))
    · exact .inr (.inr (.inr (.inl ⟨hgiven, by simp [hloc], by simp [hloc]⟩)))

/-- The statements that are a `COMMIT`. -/
theorem commit_cases (h : exec a c busy v = some (.commit a')) : c = .ok ∧
    ((∃ q result, a = .claiming q (.finishing result) ∧ a' = .idle (some (.claim result))) ∨
      (∃ t owned, a = .transitioning t (.finishing owned) ∧ a' = .idle (some (.owned owned))) ∨
      (∃ claim, a = .publishing claim .finishing ∧ a' = .idle (some .published)) ∨
      ∃ q n, a = .sweeping q (.sweeping [] n) ∧ a' = .idle (some (.recovered n))) := by
  have hrecord {writes : Option (List (RowWrite β))} {next : Loc} :
      recordOutcome writes next ≠ .commit a' := by
    cases writes <;> exact nofun
  unfold exec at h
  split at h
  · cases h
  · cases h
  · cases h
  · rename_i q pc c
    unfold claimExec at h
    split at h
    · split at h
      · cases h
      · split_ifs at h
        cases h
    · split_ifs at h
      cases h
    · split at h
      · cases h
      · split_ifs at h <;> cases h
    · cases h
    · split at h <;> cases h
    · split at h
      · cases h
      · exact absurd (Option.some.inj h) hrecord
    · rename_i result
      cases h
      exact ⟨rfl, .inl ⟨q, result, rfl, rfl⟩⟩
    · cases h
  · rename_i t pc c
    unfold transitionExec at h
    split at h
    · split_ifs at h <;> cases h
    · exact absurd (Option.some.inj h) hrecord
    · rename_i owned
      cases h
      exact ⟨rfl, .inr (.inl ⟨t, owned, rfl, rfl⟩)⟩
    · cases h
  · rename_i claim pc c
    unfold publishExec at h
    split at h
    · split_ifs at h <;> cases h
    · cases h
    · cases h
      exact ⟨rfl, .inr (.inr (.inl ⟨claim, rfl, rfl⟩))⟩
    · cases h
  · rename_i q pc c
    unfold sweepExec at h
    split at h
    · cases h
    · rename_i n
      cases h
      exact ⟨rfl, .inr (.inr (.inr ⟨q, n, rfl, rfl⟩))⟩
    · cases h
    · split_ifs at h
      · cases h
      · exact absurd (Option.some.inj h) hrecord
    · cases h

/-- What a session owes or has claimed when it commits. -/
theorem owes_of_commit (h : exec a c busy v = some (.commit a')) :
    a.owes = none ∧ ∀ s, a.starts = some s →
      ∃ claim, a'.given = [claim] ∧ s = (claim.claimToken, claim.runId, claim.attempt) := by
  obtain ⟨-, ⟨q, result, rfl, rfl⟩ | ⟨t, owned, rfl, rfl⟩ | ⟨claim, rfl, rfl⟩ | ⟨q, n, rfl, rfl⟩⟩ :=
    commit_cases h
  · cases result with
    | none => exact ⟨rfl, nofun⟩
    | some claim => exact ⟨rfl, fun s hs => ⟨claim, rfl, (Option.some.inj hs).symm⟩⟩
  · exact ⟨rfl, nofun⟩
  · exact ⟨rfl, nofun⟩
  · exact ⟨rfl, nofun⟩

end Exec

/-! ## The assertion about the whole -/

section Next

variable {M : ℕ} {t t' : Tracked ι β} {i : ι} {c : Choice β}

/-- What a session may rely on. -/
theorem TrackedSound.reliable (h : TrackedSound M t) (hl : Lawful M t (i, c)) :
    Reliable M (t.state.session i).loc c t.state.db := by
  refine ⟨h.complete, fun tr pc hloc r hr howns => ?_, fun op hop => (hl op hop).proper⟩
  obtain ⟨hid, ht, hs⟩ := RunClaim.owns_iff.1 howns
  have hcell : (t.state.db.cell tr.claim.runId).run = some r := Table.lookup_eq_some_iff.2 ⟨hr, hid⟩
  exact (h.known_unique tr.claim.claimToken _ _ _ _ (.inr ⟨r, hcell, hs, ht, rfl⟩)
    (.inl ⟨tr.claim, h.presents i tr pc hloc, rfl, rfl, rfl⟩)).2

variable [DecidableEq ι]

/-- The parts of a step. -/
theorem tracked_next (h : (tracked β ι).next t (i, c) = some t') :
    (protocol β).next t.state (i, c) = some t'.state ∧ t'.drawn = t.drawn ++ c.draws ∧
      t'.issued = t.issued ++ (t'.state.session i).loc.given := by
  obtain ⟨s, hs, rfl⟩ := Option.map_eq_some_iff.1 h
  exact ⟨hs, rfl, rfl⟩

variable {s' : State ι (Db β) RowKey (RowWrite β) Loc}

/-- A step changes the cell of a run only if its session commits and has locked the run. -/
theorem TrackedSound.cell_next (h : TrackedSound M t)
    (hs : (protocol β).next t.state (i, c) = some s') (id : UUID) :
    s'.db.cell id = t.state.db.cell id ∨
      ∃ a', exec (t.state.session i).loc c (t.state.busy i) ((protocol β).view t.state i) =
          some (.commit a') ∧ (s'.session i).loc = a' ∧
        t.state.owner (.run id) = some i ∧
        s'.db.cell id = ((protocol β).view t.state i).cell id := by
  rcases Protocol.db_next hs with hdb | ⟨a', he, hdb, hloc⟩
  · exact .inl (by rw [hdb])
  · by_cases hheld : t.state.owner (.run id) = some i
    · exact .inr ⟨a', he, hloc, hheld, by rw [hdb]⟩
    · refine .inl ?_
      rw [hdb]
      exact cell_installAll_of_not_about fun w hw habout =>
        hheld ((books M β).guarded (h.all i) w hw _ (mem_guard_of_about habout))

theorem TrackedSound.complete_next (h : TrackedSound M t)
    (hs : (protocol β).next t.state (i, c) = some s') : Complete M s'.db := by
  intro id
  rcases h.cell_next hs id with hcell | ⟨a', he, -, hheld, hcell⟩
  · rw [hcell]
    exact h.complete id
  · rw [hcell]
    refine (h.all i).2.settled id hheld ?_
    rw [(owes_of_commit he).1]
    simp

/-- A run that is running with a token was so before, or its claim is given by this step. -/
theorem TrackedSound.active_next (h : TrackedSound M t)
    (hs : (protocol β).next t.state (i, c) = some s') {token id : UUID} {n : ℕ}
    (ha : (s'.db.cell id).Active token n) : (t.state.db.cell id).Active token n ∨
      ∃ claim ∈ (s'.session i).loc.given,
        claim.claimToken = token ∧ claim.runId = id ∧ claim.attempt = n := by
  rcases h.cell_next hs id with hcell | ⟨a', he, hloc, hheld, hcell⟩
  · rw [hcell] at ha
    exact .inl ha
  · rw [hcell] at ha
    refine ((h.all i).2.active id token n hheld ha).imp_right fun hstarts => ?_
    obtain ⟨claim, hgiven, heq⟩ := (owes_of_commit he).2 _ hstarts
    obtain ⟨rfl, rfl, rfl⟩ : token = claim.claimToken ∧ id = claim.runId ∧ n = claim.attempt := by
      simpa using heq
    exact ⟨claim, by simp [hloc, hgiven], rfl, rfl, rfl⟩

/-- A claim is given by the `claim_next` that has drawn its token. -/
theorem TrackedSound.given_next (h : TrackedSound M t)
    (hs : (protocol β).next t.state (i, c) = some s') {claim : RunClaim}
    (hclaim : claim ∈ (s'.session i).loc.given) :
    (s'.session i).loc.given = [claim] ∧
      ∃ q pc, (t.state.session i).loc = .claiming q pc ∧ claim.claimToken = q.token := by
  obtain ⟨o, he, hloc⟩ := Protocol.session_next_self hs
  rw [hloc] at hclaim ⊢
  rcases loc_exec he with ⟨op, -, ho⟩ | ⟨q, pc, pc', -, ho⟩ | ⟨tr, pc, pc', -, ho⟩ | ⟨ho, -⟩ |
    ⟨q, claim', ha, rfl⟩
  · rw [ho] at hclaim
    cases op <;> cases hclaim
  · rw [ho] at hclaim
    cases hclaim
  · rw [ho] at hclaim
    cases hclaim
  · rw [ho] at hclaim
    cases hclaim
  · obtain rfl : claim = claim' := List.mem_singleton.1 hclaim
    have hpc := (h.all i).2.pc
    rw [ha] at hpc
    exact ⟨rfl, q, _, ha, hpc⟩

/-- What is known after a step was known before, or is the claim that this step gives. -/
theorem TrackedSound.known_next (h : TrackedSound M t)
    (hs : (tracked β ι).next t (i, c) = some t') {token id : UUID} {n : ℕ}
    (hk : Known t' token id n) : Known t token id n ∨
      ∃ claim ∈ (t'.state.session i).loc.given,
        claim.claimToken = token ∧ claim.runId = id ∧ claim.attempt = n := by
  obtain ⟨hs', -, hissued⟩ := tracked_next hs
  rcases hk with ⟨claim, hclaim, hsame⟩ | ha
  · rw [hissued] at hclaim
    rcases List.mem_append.1 hclaim with hclaim | hclaim
    · exact .inl (.inl ⟨claim, hclaim, hsame⟩)
    · exact .inr ⟨claim, hclaim, hsame⟩
  · exact (h.active_next hs' ha).imp_left .inr

/-- A session is in `claim_next` because it was, or because it has just drawn a new token. -/
theorem claiming_next (hs : (protocol β).next t.state (i, c) = some s') (hl : Lawful M t (i, c))
    {j : ι} {q : ClaimRequest} {pc : ClaimPc} (hloc : (s'.session j).loc = .claiming q pc) :
    (∃ pc, (t.state.session j).loc = .claiming q pc) ∨
      j = i ∧ q.token ∉ t.drawn ∧ q.token ∈ c.draws := by
  by_cases hj : j = i
  · subst hj
    obtain ⟨o, he, ho⟩ := Protocol.session_next_self hs
    rw [hloc] at ho
    rcases loc_exec he with ⟨op, rfl, hop⟩ | ⟨q', pc₀, pc', ha, ho'⟩ | ⟨tr, pc₀, pc', -, ho'⟩ |
      ⟨-, hno, -⟩ | ⟨q', claim, -, rfl⟩
    · rw [← ho] at hop
      cases op with
      | claimNext q' =>
        cases hop
        exact .inr ⟨rfl, hl _ rfl, List.mem_singleton.2 rfl⟩
      | transition tr => cases hop
      | publish claim => cases hop
      | recoverStaleRuns q' => cases hop
    · rw [← ho] at ho'
      cases ho'
      exact .inl ⟨pc₀, ha⟩
    · rw [← ho] at ho'
      cases ho'
    · exact absurd ho.symm (hno q pc)
    · cases ho
  · rw [Protocol.session_next_of_ne hs hj] at hloc
    exact .inl ⟨pc, hloc⟩

/-- An operation is called with a claim that was given. -/
theorem transitioning_next (hs : (protocol β).next t.state (i, c) = some s')
    (hl : Lawful M t (i, c)) {j : ι} {tr : Transition} {pc : TransitionPc}
    (hloc : (s'.session j).loc = .transitioning tr pc) :
    (∃ pc, (t.state.session j).loc = .transitioning tr pc) ∨ tr.claim ∈ t.issued := by
  by_cases hj : j = i
  · subst hj
    obtain ⟨o, he, ho⟩ := Protocol.session_next_self hs
    rw [hloc] at ho
    rcases loc_exec he with ⟨op, rfl, hop⟩ | ⟨q', pc₀, pc', -, ho'⟩ | ⟨tr', pc₀, pc', ha, ho'⟩ |
      ⟨-, -, hno⟩ | ⟨q', claim, -, rfl⟩
    · rw [← ho] at hop
      cases op with
      | transition tr' =>
        cases hop
        exact .inr (hl _ rfl).2
      | claimNext q' => cases hop
      | publish claim => cases hop
      | recoverStaleRuns q' => cases hop
    · rw [← ho] at ho'
      cases ho'
    · rw [← ho] at ho'
      cases ho'
      exact .inl ⟨pc₀, ha⟩
    · exact absurd ho.symm (hno tr pc)
    · cases ho
  · rw [Protocol.session_next_of_ne hs hj] at hloc
    exact .inl ⟨pc, hloc⟩

/-- Nobody knows the token of another session's `claim_next`, nor does this step tell it. -/
theorem TrackedSound.unknown_next (h : TrackedSound M t)
    (hs : (tracked β ι).next t (i, c) = some t') {j : ι} {q : ClaimRequest} {pc pc' : ClaimPc}
    (hbefore : (t.state.session j).loc = .claiming q pc)
    (hafter : (t'.state.session j).loc = .claiming q pc') (id : UUID) (n : ℕ) :
    ¬ Known t' q.token id n := by
  intro hk
  obtain ⟨hs', -, -⟩ := tracked_next hs
  rcases h.known_next hs hk with hk | ⟨claim, hgiven, ht, -⟩
  · exact h.unknown j q pc hbefore id n hk
  · obtain ⟨-, q', pc₀, hq', ht'⟩ := h.given_next hs' hgiven
    obtain rfl : j = i := h.distinct j q pc i q' pc₀ hbefore hq' (by rw [← ht, ht'])
    rw [hafter] at hgiven
    cases hgiven

/-- **The step.** -/
theorem TrackedSound.next (h : TrackedSound M t) (hl : Lawful M t (i, c))
    (hs : (tracked β ι).next t (i, c) = some t') : TrackedSound M t' := by
  obtain ⟨hs', hdrawn, hissued⟩ := tracked_next hs
  have hkeep {token : UUID} (ht : token ∈ t.drawn) : token ∈ t'.drawn := by
    rw [hdrawn]
    exact List.mem_append_left _ ht
  refine ⟨(books M β).all_next h.all (h.reliable hl) hs', h.complete_next hs', ?_, ?_, ?_, ?_, ?_,
    ?_⟩
  · intro j tr pc hloc
    rw [hissued]
    rcases transitioning_next hs' hl hloc with ⟨pc₀, hloc₀⟩ | hclaim
    · exact List.mem_append_left _ (h.presents j tr pc₀ hloc₀)
    · exact List.mem_append_left _ hclaim
  · intro j q pc hloc
    rcases claiming_next hs' hl hloc with ⟨pc₀, hloc₀⟩ | ⟨-, -, hdraws⟩
    · exact hkeep (h.drawn j q pc₀ hloc₀)
    · rw [hdrawn]
      exact List.mem_append_right _ hdraws
  · intro j q pc hloc id n hk
    rcases claiming_next hs' hl hloc with ⟨pc₀, hloc₀⟩ | ⟨rfl, hfresh, -⟩
    · exact h.unknown_next hs hloc₀ hloc id n hk
    · rcases h.known_next hs hk with hk | ⟨claim, hgiven, -⟩
      · exact hfresh (h.known_drawn _ _ _ hk)
      · rw [hloc] at hgiven
        cases hgiven
  · intro j q pc k q' pc' hj hk htoken
    rcases claiming_next hs' hl hj with ⟨pc₁, hj₁⟩ | ⟨rfl, hfresh, -⟩
    · rcases claiming_next hs' hl hk with ⟨pc₂, hk₂⟩ | ⟨rfl, hfresh, -⟩
      · exact h.distinct j q pc₁ k q' pc₂ hj₁ hk₂ htoken
      · exact absurd (htoken ▸ h.drawn j q pc₁ hj₁) hfresh
    · rcases claiming_next hs' hl hk with ⟨pc₂, hk₂⟩ | ⟨rfl, -, -⟩
      · exact absurd (htoken ▸ h.drawn k q' pc₂ hk₂) hfresh
      · rfl
  · intro token id n hk
    rcases h.known_next hs hk with hk | ⟨claim, hgiven, rfl, -⟩
    · exact hkeep (h.known_drawn token id n hk)
    · obtain ⟨-, q, pc, hq, ht⟩ := h.given_next hs' hgiven
      exact ht ▸ hkeep (h.drawn i q pc hq)
  · intro token id n id' n' hk hk'
    rcases h.known_next hs hk with hk | ⟨claim, hgiven, rfl, rfl, rfl⟩
    · rcases h.known_next hs hk' with hk' | ⟨claim, hgiven, rfl, rfl, rfl⟩
      · exact h.known_unique token id n id' n' hk hk'
      · -- the token of the new claim was known to nobody
        obtain ⟨-, q, pc, hq, ht⟩ := h.given_next hs' hgiven
        exact absurd (ht ▸ hk) (h.unknown i q pc hq id n)
    · obtain ⟨hone, q, pc, hq, ht⟩ := h.given_next hs' hgiven
      rcases h.known_next hs hk' with hk' | ⟨claim', hgiven', -, rfl, rfl⟩
      · exact absurd (ht ▸ hk') (h.unknown i q pc hq id' n')
      · rw [hone] at hgiven'
        rw [List.mem_singleton.1 hgiven']
        exact ⟨rfl, rfl⟩

end Next

/-! ## Runs -/

/-- A queue of new requests: no run has been tried, and there is no evidence. -/
def Requested (db : Db β) : Prop :=
  (∀ r ∈ db.runs.rows, r.status = .requested ∧ r.attempt = 0) ∧ db.attempts.rows = []

instance (db : Db β) : Decidable (Requested db) := inferInstanceAs (Decidable (_ ∧ _))

/-- The attempts of the evidence rows of a run. -/
def Db.evidence (db : Db β) (id : UUID) : List ℕ :=
  (db.attempts.rows.filter fun a => decide (a.runId = id)).map PipelineRunAttempt.attempt

section Runs

variable {M : ℕ} {db : Db β} {t t' : Tracked ι β}

theorem mem_evidence_iff {id : UUID} {k : ℕ} : k ∈ db.evidence id ↔ k ∈ (db.cell id).evidence := by
  simp only [Db.evidence, List.mem_map, List.mem_filter, decide_eq_true_eq, Db.cell,
    Set.mem_ofPred_eq, PipelineRunAttempt.key, Prod.mk.injEq, and_assoc]

theorem nodup_evidence (id : UUID) : (db.evidence id).Nodup := by
  have hsub : ((db.attempts.rows.filter fun a => decide (a.runId = id)).map
      PipelineRunAttempt.key).Nodup := db.attempts.nodup.sublist (List.filter_sublist.map _)
  have hkey : (db.attempts.rows.filter fun a => decide (a.runId = id)).map
      PipelineRunAttempt.key = (db.evidence id).map fun k => (id, k) := by
    rw [Db.evidence, List.map_map]
    refine List.map_congr_left fun a ha => ?_
    have : a.runId = id := of_decide_eq_true (List.mem_filter.1 ha).2
    simp [PipelineRunAttempt.key, this]
  rw [hkey] at hsub
  exact List.Nodup.of_map _ hsub

/-- Complete evidence, as the rows of the table. -/
theorem Complete.perm (h : Complete M db) {r : PipelineRun} (hr : r ∈ db.runs.rows) :
    (db.evidence r.id).Perm (List.range' 1 r.finished) := by
  have hcomplete := h r.id r (Table.lookup_eq_some_iff.2 ⟨hr, rfl⟩)
  refine (List.perm_ext_iff_of_nodup (nodup_evidence r.id) (List.nodup_range')).2 fun k => ?_
  rw [mem_evidence_iff, hcomplete.evidence_iff, List.mem_range'_1]
  omega

theorem Complete.finished_le (h : Complete M db) {r : PipelineRun} (hr : r ∈ db.runs.rows) :
    r.finished ≤ M := by
  have hw := (h r.id r (Table.lookup_eq_some_iff.2 ⟨hr, rfl⟩)).within
  unfold Within at hw
  unfold PipelineRun.finished
  split at hw <;> simp_all <;> omega

theorem trackedSound_start (hM : 0 < M) (h : Requested db) :
    TrackedSound M (Tracked.start db : Tracked ι β) := by
  have hrun {id : UUID} {r : PipelineRun} (hr : (db.cell id).run = some r) :
      r.status = .requested ∧ r.attempt = 0 := h.1 r (Table.lookup_eq_some_iff.1 hr).1
  have hcomplete : Complete M db := by
    intro id r hr
    obtain ⟨hs, ha⟩ := hrun hr
    refine ⟨fun k => ?_, by simpa [Within, hs, ha] using hM⟩
    have hno : k ∉ (db.cell id).evidence := by simp [Db.cell, h.2]
    simp only [hno, PipelineRun.finished, hs, ha, false_iff]
    simp
    omega
  have hknown (token id : UUID) (n : ℕ) : ¬ Known (Tracked.start db : Tracked ι β) token id n := by
    rintro (⟨c, hc, -⟩ | ⟨r, hr, hs, -⟩)
    · cases hc
    · rw [(hrun hr).1] at hs
      cases hs
  refine ⟨(books M β).all_start fun _ => ⟨sound_idle, books_released⟩, hcomplete, ?_, ?_, ?_, ?_,
    fun token id n hk => absurd hk (hknown token id n),
    fun token id n _ _ hk => absurd hk (hknown token id n)⟩
  all_goals simp [Tracked.start, State.start]

variable [DecidableEq ι]

theorem trackedSound_run (hM : 0 < M) (h : Requested db)
    (hrun : (tracked β ι).Run (Lawful M) (Tracked.start db) t) : TrackedSound M t :=
  hrun.invariant (TrackedSound M) (trackedSound_start hM h) fun _ l _ hI hl hs =>
    TrackedSound.next (i := l.1) (c := l.2) hI hl hs

/-- **Attempt evidence is complete.**  In every committed state the evidence rows of a run are its
finished attempts `1..n`, each of them once, and `n` is at most `max_attempts`; and a step, which is
at most one `COMMIT`, adds the row of an attempt if and only if it finishes the attempt. -/
theorem attempt_evidence_complete (hM : 0 < M) (db₀ : Db β) (h₀ : Requested db₀)
    (t : Tracked ι β) (h : (tracked β ι).Run (Lawful M) (Tracked.start db₀) t) :
    (∀ r ∈ t.state.db.runs.rows,
      (t.state.db.evidence r.id).Perm (List.range' 1 r.finished) ∧ r.finished ≤ M) ∧
      ∀ l t', Lawful M t l → (tracked β ι).next t l = some t' →
        ∀ r ∈ t.state.db.runs.rows, ∀ r' ∈ t'.state.db.runs.rows, r'.id = r.id → ∀ k,
          k ∈ t'.state.db.evidence r.id ∧ k ∉ t.state.db.evidence r.id ↔
            r.finished < k ∧ k ≤ r'.finished := by
  have hsound := trackedSound_run hM h₀ h
  refine ⟨fun r hr => ⟨hsound.complete.perm hr, hsound.complete.finished_le hr⟩, ?_⟩
  intro l t' hl hs r hr r' hr' hid k
  have hsound' := TrackedSound.next (i := l.1) (c := l.2) hsound hl hs
  have hperm' := hsound'.complete.perm hr'
  rw [hid] at hperm'
  rw [hperm'.mem_iff, (hsound.complete.perm hr).mem_iff, List.mem_range'_1, List.mem_range'_1]
  omega

end Runs

/-! ### Two leases that expire -/

/-- A check of the calls of `claim_next` and `recover_stale_runs`. -/
def lawful (M : ℕ) (t : Tracked ι β) (l : ι × Choice β) : Bool :=
  match l.2 with
  | .call (.claimNext q) => decide (q.token ∉ t.drawn)
  | .call (.transition _) => false
  | .call (.recoverStaleRuns q) => decide (q.maxAttempts = M)
  | _ => true

theorem lawful_spec {M : ℕ} {t : Tracked ι β} {l : ι × Choice β} (h : lawful M t l = true) :
    Lawful M t l := by
  intro op hop
  unfold lawful at h
  rw [hop] at h
  cases op with
  | claimNext q =>
    have hfresh : q.token ∉ t.drawn := of_decide_eq_true h
    exact hfresh
  | transition tr => cases h
  | publish claim => exact trivial
  | recoverStaleRuns q =>
    have hM : q.maxAttempts = M := of_decide_eq_true h
    exact hM

/-- Two workers claim the run one after the other and stall; a third one sweeps up. -/
def twoLeases : List (ℕ × Choice (List ℕ)) :=
  let claim (i token now : ℕ) : List (ℕ × Choice (List ℕ)) :=
    [(i, .call (.claimNext { now := beginningOfTime + now * second, token := token })),
      (i, .pick 1), (i, .ok), (i, .ok), (i, .ok), (i, .ok)]
  let sweep (now : ℕ) : List (ℕ × Choice (List ℕ)) :=
    [(2, .call (.recoverStaleRuns { now := beginningOfTime + now * second, maxAttempts := 2 })),
      (2, .ok), (2, .ok), (2, .ok), (2, .ok)]
  claim 0 11 0 ++ sweep 1000 ++ claim 1 12 2000 ++ sweep 4000

/-- Both attempts have their evidence, and the run has failed. -/
theorem attempt_evidence_two_leases :
    ∃ t : Tracked ℕ (List ℕ),
      ((t.state.db.runs.rows.map fun r => (r.status, r.attempt)) = [(.failed, 2)] ∧
        t.state.db.evidence 1 = [1, 2]) ∧
      ∀ r ∈ t.state.db.runs.rows,
        (t.state.db.evidence r.id).Perm (List.range' 1 r.finished) ∧ r.finished ≤ 2 := by
  obtain ⟨t, ht, hp⟩ := (tracked (List ℕ) ℕ).exists_run (lawful 2)
    (Tracked.start oneRequest) twoLeases
    (fun t => decide ((t.state.db.runs.rows.map fun r => (r.status, r.attempt)) = [(.failed, 2)] ∧
      t.state.db.evidence 1 = [1, 2]))
    (by decide)
  exact ⟨t, of_decide_eq_true hp, (attempt_evidence_complete (M := 2) (by decide) oneRequest
    (by decide) t (ht.mono fun _ _ => lawful_spec)).1⟩

end Queue

end TrackFlow
