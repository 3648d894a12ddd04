import TrackFlow.Queue.Session

/-!
# Fencing

Whatever the interleaving of workers, at most one run per pipeline is running, an operation
whose claim is no longer the current one changes nothing, and a finished run stays as it is
(`queue_fencing`).

The assertion about one session has three parts: its pending writes touch only locked rows of
unfinished runs (`Pending`), an operation that presents a claim has written something only if it
still holds the row that the claim owns (`Fenced`), and what its next statement relies on
(`At`).
-/

namespace TrackFlow

namespace Queue

open RowLock

variable {β : Type*}

section Install

variable {db : Db β} {ws : List (RowWrite β)}

/-- A run that no write names stays as it is. -/
theorem mem_installAll {r : PipelineRun} (hr : r ∈ db.runs.rows)
    (h : ∀ u, RowWrite.updateRun r.id u ∉ ws) : r ∈ ((protocol β).installAll db ws).runs.rows := by
  induction ws generalizing db with
  | nil => exact hr
  | cons w ws ih =>
    refine ih ?_ fun u hu => h u (List.mem_cons_of_mem w hu)
    cases w with
    | updateRun id u =>
      refine List.mem_map.2 ⟨r, hr, if_neg ?_⟩
      rintro rfl
      exact h u List.mem_cons_self
    | insertAttempt a => exact hr
    | publish write => exact hr

/-- Where a run comes from, and how it came to be running. -/
theorem exists_of_mem_installAll {r' : PipelineRun}
    (h : r' ∈ ((protocol β).installAll db ws).runs.rows) :
    ∃ r ∈ db.runs.rows, r.id = r'.id ∧ r.pipelineName = r'.pipelineName ∧
      (r'.status = .running → r.status = .running ∨
        ∃ u, RowWrite.updateRun r.id u ∈ ws ∧ u.slot = some r.pipelineName) := by
  induction ws generalizing db with
  | nil => exact ⟨r', h, rfl, rfl, .inl⟩
  | cons w ws ih =>
    obtain ⟨r₁, hr₁, hid, hname, hrun⟩ := ih h
    have hlater : r'.status = .running → r₁.status = .running ∨
        ∃ u, RowWrite.updateRun r₁.id u ∈ w :: ws ∧ u.slot = some r₁.pipelineName := fun hr =>
      (hrun hr).imp_right fun ⟨u, hu, hs⟩ => ⟨u, List.mem_cons_of_mem w hu, hs⟩
    cases w with
    | insertAttempt a => exact ⟨r₁, hr₁, hid, hname, hlater⟩
    | publish write => exact ⟨r₁, hr₁, hid, hname, hlater⟩
    | updateRun id u =>
      obtain ⟨r, hr, rfl⟩ := List.mem_map.1 hr₁
      by_cases hk : r.id = id
      · subst hk
        simp only [if_true, RunUpdate.id_apply, RunUpdate.pipelineName_apply] at hid hname hlater
        refine ⟨r, hr, hid, hname, fun hrun' => ?_⟩
        rcases hlater hrun' with h₁ | h₁
        · exact (RunUpdate.running_apply h₁).imp_right fun hs => ⟨u, List.mem_cons_self, hs⟩
        · exact .inr h₁
      · rw [if_neg hk] at hid hname hlater
        exact ⟨r, hr, hid, hname, hlater⟩

end Install

/-! ## What a session may rely on -/

/-- The pending writes of a session with locks `held`. -/
structure Pending (ws : List (RowWrite β)) (held : RowKey → Prop) (db : Db β) : Prop where
  guarded : ∀ w ∈ ws, ∀ k ∈ w.guard, held k
  /-- Only unfinished runs are updated. -/
  unfinished : ∀ id u, RowWrite.updateRun id u ∈ ws → ∃ r ∈ db.runs.rows, r.id = id ∧ ¬ r.Terminal
  /-- A run is made running only where none is, and no other one is made running. -/
  activates : ∀ id u p, RowWrite.updateRun id u ∈ ws → u.slot = some p →
    (∀ r ∈ db.runs.rows, r.pipelineName = p → r.status ≠ .running) ∧
      ∀ id' u' p', RowWrite.updateRun id' u' ∈ ws → u'.slot = some p' → id' = id

/-- A claim that owns its run, which is locked. -/
def Holds (c : RunClaim) (held : RowKey → Prop) (db : Db β) : Prop :=
  held (.run c.runId) ∧ c.Owned db.runs

/-- An operation that presents a claim writes only while the claim owns its run. -/
def Fenced (a : Loc) (ws : List (RowWrite β)) (held : RowKey → Prop) (db : Db β) : Prop :=
  ∀ c, a.presents = some c → ws ≠ [] → Holds c held db

/-- The run `id` is written by the open transaction. -/
def Writes (id : UUID) (ws : List (RowWrite β)) : Prop := ∃ u, RowWrite.updateRun id u ∈ ws

/-- A row that is locked and running. -/
def Locked (row : PipelineRun) (held : RowKey → Prop) (db : Db β) : Prop :=
  held (.run row.id) ∧ row ∈ db.runs.rows ∧ row.status = .running

/-- What the next statement relies on. -/
def At (ws : List (RowWrite β)) (held : RowKey → Prop) (db : Db β) : Loc → Prop
  | .idle _ => ws = []
  | .claiming _ .start => ws = []
  | .claiming q (.picked id) =>
    ws = [] ∧ held (.run id) ∧ ∃ r ∈ db.runs.rows, r.id = id ∧ q.eligible r = true
  | .claiming _ (.claimed row) => Writes row.id ws
  | .claiming _ (.resolving row _) => Writes row.id ws
  | .claiming _ (.rejected row) => Writes row.id ws
  | .claiming _ (.finishing _) => True
  | .transitioning _ .start => ws = []
  | .transitioning t (.updated _) => Holds t.claim held db
  | .transitioning _ (.finishing _) => True
  | .publishing _ .start => ws = []
  | .publishing c .verified => Holds c held db
  | .publishing _ .finishing => True
  | .sweeping _ .start => ws = []
  | .sweeping _ (.sweeping rows _) => ∀ r ∈ rows, Locked r held db
  | .sweeping _ (.recording row rows _) =>
    Locked row held db ∧ ∀ r ∈ rows, Locked r held db

/-- The assertion about one session. -/
def Sound (a : Loc) (ws : List (RowWrite β)) (held : RowKey → Prop) (db : Db β) : Prop :=
  Pending ws held db ∧ Fenced a ws held db ∧ At ws held db a

section Lemmas

variable {db : Db β} {ws ws₁ : List (RowWrite β)} {held held' : RowKey → Prop} {a : Loc}

theorem Pending.nil : Pending ([] : List (RowWrite β)) held db :=
  ⟨by simp, by simp, by simp⟩

theorem Fenced.nil : Fenced a ([] : List (RowWrite β)) held db := fun _ _ h => absurd rfl h

theorem Fenced.of_presents_none (h : a.presents = none) : Fenced a ws held db := by
  intro c hc
  simp [h] at hc

theorem sound_idle {r : Option Result} : Sound (β := β) (.idle r) [] held db :=
  ⟨.nil, .nil, rfl⟩

/-- Further writes to rows that are locked and unfinished. -/
theorem Pending.append (h : Pending ws held db) (h₁ : Pending ws₁ held db)
    (hq : ∀ id u, RowWrite.updateRun id u ∈ ws₁ → u.slot = none) :
    Pending (ws ++ ws₁) held db where
  guarded w hw := (List.mem_append.1 hw).elim (h.guarded w) (h₁.guarded w)
  unfinished id u hu := (List.mem_append.1 hu).elim (h.unfinished id u) (h₁.unfinished id u)
  activates id u p hu hp := by
    have hold {id u p} (hu : RowWrite.updateRun id u ∈ ws ++ ws₁) (hp : u.slot = some p) :
        RowWrite.updateRun id u ∈ ws := by
      refine (List.mem_append.1 hu).resolve_right fun hu' => ?_
      simp [hq id u hu'] at hp
    obtain ⟨hnone, hone⟩ := h.activates id u p (hold hu hp) hp
    exact ⟨hnone, fun id' u' p' hu' hp' => hone id' u' p' (hold hu' hp') hp'⟩

theorem Pending.update {id : UUID} {u : RunUpdate} {r : PipelineRun} (hk : held (.run id))
    (hr : r ∈ db.runs.rows) (hid : r.id = id) (ht : ¬ r.Terminal) (hs : u.slot = none) :
    Pending [RowWrite.updateRun (β := β) id u] held db where
  guarded w hw k hk' := by
    rw [List.mem_singleton.1 hw] at hk'
    simp only [RowWrite.guard, hs, Option.toList_none, List.map_nil, List.mem_singleton] at hk'
    exact hk' ▸ hk
  unfinished id' u' hu := by
    cases List.mem_singleton.1 hu
    exact ⟨r, hr, hid, ht⟩
  activates id' u' p hu hp := by
    cases List.mem_singleton.1 hu
    simp [hs] at hp

/-- Writes that are not about runs. -/
theorem Pending.of_no_update (hg : ∀ w ∈ ws, ∀ k ∈ w.guard, held k)
    (hn : ∀ id u, RowWrite.updateRun id u ∉ ws) : Pending ws held db :=
  ⟨hg, fun id u hu => absurd hu (hn id u), fun id u _ hu => absurd hu (hn id u)⟩

theorem Pending.append_of_no_update (h : Pending ws held db)
    (hg : ∀ w ∈ ws₁, ∀ k ∈ w.guard, held k) (hn : ∀ id u, RowWrite.updateRun id u ∉ ws₁) :
    Pending (ws ++ ws₁) held db :=
  h.append (.of_no_update hg hn) fun id u hu => absurd hu (hn id u)

/-- More locks do no harm. -/
theorem Sound.mono (h : Sound a ws held db) (hk : ∀ k, held k → held' k) :
    Sound a ws held' db := by
  obtain ⟨hp, hf, ha⟩ := h
  have hlocked : ∀ {r}, Locked r held db → Locked r held' db := fun hr => ⟨hk _ hr.1, hr.2⟩
  refine ⟨⟨fun w hw k hk' => hk k (hp.guarded w hw k hk'), hp.unfinished, hp.activates⟩,
    fun c hc hw => ⟨hk _ (hf c hc hw).1, (hf c hc hw).2⟩, ?_⟩
  cases a with
  | idle => exact ha
  | claiming q pc =>
    cases pc with
    | picked id => exact ⟨ha.1, hk _ ha.2.1, ha.2.2⟩
    | _ => exact ha
  | transitioning t pc =>
    cases pc with
    | updated e => exact ⟨hk _ ha.1, ha.2⟩
    | _ => exact ha
  | publishing c pc =>
    cases pc with
    | verified => exact ⟨hk _ ha.1, ha.2⟩
    | _ => exact ha
  | sweeping q pc =>
    cases pc with
    | start => exact ha
    | sweeping rows n => exact fun r hr => hlocked (ha r hr)
    | recording row rows n => exact ⟨hlocked ha.1, fun r hr => hlocked (ha.2 r hr)⟩

end Lemmas

/-! ## Commits of other sessions -/

section Stable

variable {db : Db β} {ws ws' : List (RowWrite β)} {held : RowKey → Prop} {a : Loc}

/-- A locked run is not touched. -/
theorem mem_installAll_of_held (hws : ∀ w ∈ ws', ∀ k ∈ w.guard, ¬ held k) {r : PipelineRun}
    (hr : r ∈ db.runs.rows) (hk : held (.run r.id)) :
    r ∈ ((protocol β).installAll db ws').runs.rows :=
  mem_installAll hr fun u hu => hws _ hu (.run r.id) (by simp [RowWrite.guard]) hk

theorem Holds.stable (hws : ∀ w ∈ ws', ∀ k ∈ w.guard, ¬ held k) {c : RunClaim}
    (h : Holds c held db) : Holds c held ((protocol β).installAll db ws') := by
  obtain ⟨hk, r, hr, ho⟩ := h
  exact ⟨hk, r, mem_installAll_of_held hws hr ((RunClaim.owns_iff.1 ho).1 ▸ hk), ho⟩

theorem Locked.stable (hws : ∀ w ∈ ws', ∀ k ∈ w.guard, ¬ held k) {r : PipelineRun}
    (h : Locked r held db) : Locked r held ((protocol β).installAll db ws') :=
  ⟨h.1, mem_installAll_of_held hws h.2.1 h.1, h.2.2⟩

theorem Pending.stable (hws : ∀ w ∈ ws', ∀ k ∈ w.guard, ¬ held k) (h : Pending ws held db) :
    Pending ws held ((protocol β).installAll db ws') where
  guarded := h.guarded
  unfinished id u hu := by
    obtain ⟨r, hr, rfl, ht⟩ := h.unfinished id u hu
    have hk := h.guarded _ hu (.run r.id) (by simp [RowWrite.guard])
    exact ⟨r, mem_installAll_of_held hws hr hk, rfl, ht⟩
  activates id u p hu hp := by
    obtain ⟨hnone, hone⟩ := h.activates id u p hu hp
    refine ⟨fun r' hr' hname hrun => ?_, hone⟩
    obtain ⟨r, hr, -, hname', hact⟩ := exists_of_mem_installAll hr'
    rcases hact hrun with hr₁ | ⟨u', hu', hs'⟩
    · exact hnone r hr (hname'.trans hname) hr₁
    -- the slot of the pipeline is locked, so nobody else makes one of its runs running
    · have hk : held (.slot p) := h.guarded _ hu _ (by simp [RowWrite.guard, hp])
      exact hws _ hu' (.slot p) (by simp [RowWrite.guard, hs', hname', hname]) hk

theorem Sound.stable (hws : ∀ w ∈ ws', ∀ k ∈ w.guard, ¬ held k) (h : Sound a ws held db) :
    Sound a ws held ((protocol β).installAll db ws') := by
  obtain ⟨hp, hf, ha⟩ := h
  refine ⟨hp.stable hws, fun c hc hw => (hf c hc hw).stable hws, ?_⟩
  cases a with
  | idle => exact ha
  | claiming q pc =>
    cases pc with
    | picked id =>
      obtain ⟨hw, hk, r, hr, rfl, he⟩ := ha
      exact ⟨hw, hk, r, mem_installAll_of_held hws hr hk, rfl, he⟩
    | _ => exact ha
  | transitioning t pc =>
    cases pc with
    | updated e => exact Holds.stable hws ha
    | _ => exact ha
  | publishing c pc =>
    cases pc with
    | verified => exact Holds.stable hws ha
    | _ => exact ha
  | sweeping q pc =>
    cases pc with
    | start => exact ha
    | sweeping rows n => exact fun r hr => (ha r hr).stable hws
    | recording row rows n => exact ⟨ha.1.stable hws, fun r hr => (ha.2 r hr).stable hws⟩

end Stable

/-! ## Statements of the session itself -/

section Step

variable {db : Db β} {ws : List (RowWrite β)} {held : RowKey → Prop} {busy : RowKey → Bool}
  {c : Choice β} {o : Outcome RowKey (RowWrite β) Loc}

/-- A statement that locks rows and writes nothing. -/
theorem leadsTo_lock {a : Loc} {ks : List RowKey} {view : Db β}
    (h : Sound a ws (fun k => held k ∨ k ∈ ks) db) :
    (Outcome.proceed ks [] a).LeadsTo Sound ws held db view := by
  simpa only [Outcome.LeadsTo, List.append_nil] using h

/-- A statement that writes rows locked before. -/
theorem leadsTo_write {a : Loc} {ws₁ : List (RowWrite β)} {view : Db β}
    (h : Sound a (ws ++ ws₁) held db) :
    (Outcome.proceed [] ws₁ a).LeadsTo Sound ws held db view :=
  h.mono fun _ => .inl

/-- `_record_attempt` inserts attempts of its run only. -/
theorem recordAttempt_eq_some {v : Db β} {id : UUID} {n : ℕ} {e : Evidence}
    {ws₁ : List (RowWrite β)} (h : recordAttempt v id n e = some ws₁) :
    ∀ w ∈ ws₁, ∃ t, w = .insertAttempt t ∧ t.runId = id := by
  unfold recordAttempt at h
  split at h
  · cases h
    simp
  · rename_i r hr
    split_ifs at h
    cases h
    intro w hw
    exact ⟨_, List.mem_singleton.1 hw, (Table.lookup_eq_some_iff.1 hr).2⟩

theorem leadsTo_record {v view : Db β} {id : UUID} {n : ℕ} {e : Evidence} {a : Loc}
    (hp : Pending ws held db) (hk : held (.run id)) (hf : ∀ ws₁, Fenced a (ws ++ ws₁) held db)
    (ha : ∀ ws₁, At (ws ++ ws₁) held db a) :
    (recordOutcome (recordAttempt v id n e) a).LeadsTo Sound ws held db view := by
  unfold recordOutcome
  split
  · rename_i ws₁ hr
    have hins := recordAttempt_eq_some hr
    refine leadsTo_write ⟨hp.append_of_no_update ?_ ?_, hf ws₁, ha ws₁⟩
    · intro w hw k hk'
      obtain ⟨t, rfl, rfl⟩ := hins w hw
      rw [RowWrite.guard, List.mem_singleton] at hk'
      exact hk' ▸ hk
    · intro id' u hu
      obtain ⟨t, ht, -⟩ := hins _ hu
      cases ht
  · exact sound_idle

/-- The run of an open transaction's update. -/
theorem Pending.exists_of_writes (h : Pending ws held db) {id : UUID} (hw : Writes id ws) :
    held (.run id) ∧ ∃ r ∈ db.runs.rows, r.id = id ∧ ¬ r.Terminal := by
  obtain ⟨u, hu⟩ := hw
  exact ⟨h.guarded _ hu _ (by simp [RowWrite.guard]), h.unfinished id u hu⟩

theorem Writes.append {id : UUID} {ws₁ : List (RowWrite β)} (h : Writes id ws) :
    Writes id (ws ++ ws₁) :=
  h.imp fun _ => List.mem_append_left _

theorem eligible_iff {q : ClaimRequest} {r : PipelineRun} (h : q.eligible r = true) :
    r.pipelineName = pipelineName ∧ r.status ≠ .running ∧ ¬ r.Terminal := by
  simp only [ClaimRequest.eligible, Bool.and_eq_true, Bool.or_eq_true, decide_eq_true_eq] at h
  obtain ⟨hn, hs | ⟨hs, -⟩⟩ := h <;> simp [hn, hs, PipelineRun.Terminal]

theorem claim_step {q : ClaimRequest} {pc : ClaimPc} (h : Sound (.claiming q pc) ws held db)
    (he : claimExec q busy ((protocol β).installAll db ws) pc c = some o) :
    o.LeadsTo Sound ws held db ((protocol β).installAll db ws) := by
  obtain ⟨hp, -, ha⟩ := h
  have hfence : ∀ {pc ws held}, Fenced (.claiming q pc) ws held db :=
    fun {_ _ _} => .of_presents_none rfl
  unfold claimExec at he
  split at he
  · -- the candidate
    rename_i id
    obtain rfl : ws = [] := ha
    split at he
    · cases he
    · rename_i row hrow
      obtain ⟨hr, hid⟩ := Table.lookup_eq_some_iff.1 hrow
      split_ifs at he with hc
      cases he
      simp only [Bool.and_eq_true] at hc
      exact leadsTo_lock ⟨.nil, hfence, rfl, by simp, row, hr, hid, hc.1.1⟩
  · -- no candidate
    split_ifs at he
    cases he
    obtain rfl : ws = [] := ha
    exact leadsTo_lock ⟨.nil, hfence, trivial⟩
  · -- the update
    rename_i id
    obtain ⟨rfl, hk, r, hr, rfl, hel⟩ := ha
    split at he
    · cases he
    · rename_i row hrow
      obtain ⟨hr', hid⟩ := Table.lookup_eq_some_iff.1 hrow
      obtain rfl : row = r := db.runs.eq_of_key_eq hr' hr hid
      obtain ⟨hname, -, ht⟩ := eligible_iff hel
      split_ifs at he with hc
      · cases he
        exact sound_idle
      · cases he
        have hnone : ∀ r' ∈ db.runs.rows,
            r'.pipelineName = pipelineName → r'.status ≠ .running := by
          intro r' hr₁ hn hs
          exact hc (List.any_eq_true.2 ⟨r', hr₁, by simp [hn, hs, hname]⟩)
        refine ⟨⟨?_, ?_, ?_⟩, hfence, ⟨q.update, ?_⟩⟩
        · rintro w hw k hk'
          cases List.mem_singleton.1 hw
          simp only [RowWrite.guard, ClaimRequest.update, Option.toList_some, List.map_cons,
            List.map_nil, List.mem_cons, List.not_mem_nil, or_false] at hk'
          rcases hk' with rfl | rfl
          · exact .inl hk
          · exact .inr (by simp)
        · rintro id u hu
          cases List.mem_singleton.1 hu
          exact ⟨row, hr, rfl, ht⟩
        · rintro id u p hu hs
          cases List.mem_singleton.1 hu
          cases hs
          refine ⟨hnone, fun id' u' p' hu' _ => ?_⟩
          cases List.mem_singleton.1 hu'
          rfl
        · simp
  · -- the reset boundary
    cases he
    exact leadsTo_write ⟨by simpa using hp, hfence, by simpa [At] using ha⟩
  · -- the target weeks
    rename_i row lastResetAt
    obtain ⟨hk, r, hr, hid, ht⟩ := hp.exists_of_writes ha
    split at he
    · cases he
      exact leadsTo_write
        ⟨hp.append (.update hk hr hid ht rfl) (by simp [setTargetWeeks]), hfence, trivial⟩
    · cases he
      refine leadsTo_write ⟨?_, hfence, Writes.append ha⟩
      unfold Transition.writes
      split_ifs
      · exact hp.append (.update hk hr hid ht rfl) (by simp [Transition.update])
      · simpa using hp
    · cases he
      exact sound_idle
  · -- the evidence of a rejected request
    split at he
    · cases he
    · cases he
      exact leadsTo_record hp (hp.exists_of_writes ha).1 (fun _ => hfence) fun _ => trivial
  · cases he
    exact sound_idle
  · cases he

/-- An owned run is unfinished. -/
theorem not_terminal_of_owns {claim : RunClaim} {r : PipelineRun} (h : claim.owns r = true) :
    r.id = claim.runId ∧ ¬ r.Terminal := by
  obtain ⟨hid, -, hs⟩ := RunClaim.owns_iff.1 h
  exact ⟨hid, by simp [PipelineRun.Terminal, hs]⟩

theorem transition_step {t : Transition} {pc : TransitionPc}
    (h : Sound (.transitioning t pc) ws held db)
    (he : transitionExec t ((protocol β).installAll db ws) pc c = some o) :
    o.LeadsTo Sound ws held db ((protocol β).installAll db ws) := by
  obtain ⟨hp, hf, ha⟩ := h
  unfold transitionExec at he
  split at he
  · -- the fenced update
    obtain rfl : ws = [] := ha
    split_ifs at he with ho
    · cases he
      have hholds : Holds t.claim (fun k => held k ∨ k ∈ [RowKey.run t.claim.runId]) db :=
        ⟨.inr (List.mem_singleton.2 rfl), ho⟩
      obtain ⟨r, hr, hr'⟩ := ho
      obtain ⟨hid, ht⟩ := not_terminal_of_owns hr'
      refine ⟨?_, ?_, ?_⟩
      · unfold Transition.writes
        split_ifs
        · exact Pending.update hholds.1 hr hid ht rfl
        · exact Pending.nil
      · intro c' hc' _
        cases hc'
        exact hholds
      · cases t.evidence with
        | none => exact trivial
        | some e => exact hholds
    · cases he
      exact leadsTo_lock ⟨.nil, .nil, trivial⟩
  · -- the evidence
    cases he
    obtain ⟨hk, ho⟩ : Holds t.claim held db := ha
    exact leadsTo_record hp hk (fun _ c' hc' _ => by cases hc'; exact ⟨hk, ho⟩) fun _ => trivial
  · cases he
    exact sound_idle
  · cases he

theorem publish_step {claim : RunClaim} {pc : PublishPc}
    (h : Sound (.publishing claim pc) ws held db)
    (he : publishExec claim ((protocol β).installAll db ws) pc c = some o) :
    o.LeadsTo Sound ws held db ((protocol β).installAll db ws) := by
  obtain ⟨hp, hf, ha⟩ := h
  unfold publishExec at he
  split at he
  · -- verify_claim_for_publication
    obtain rfl : ws = [] := ha
    split_ifs at he with ho
    · cases he
      exact leadsTo_lock ⟨.nil, .nil, .inr (List.mem_singleton.2 rfl), ho⟩
    · cases he
      exact sound_idle
  · -- the body
    rename_i write
    cases he
    have hholds : Holds claim held db := ha
    refine leadsTo_write ⟨hp.append_of_no_update ?_ (by simp), ?_, trivial⟩
    · intro w hw k hk
      rw [List.mem_singleton.1 hw] at hk
      cases hk
    · intro c' hc' _
      cases hc'
      exact hholds
  · cases he
    exact sound_idle
  · cases he

theorem sweep_step {q : SweepRequest} {pc : SweepPc} (h : Sound (.sweeping q pc) ws held db)
    (he : sweepExec q busy ((protocol β).installAll db ws) pc c = some o) :
    o.LeadsTo Sound ws held db ((protocol β).installAll db ws) := by
  obtain ⟨hp, -, ha⟩ := h
  have hfence : ∀ {pc ws held}, Fenced (.sweeping q pc) ws held db :=
    fun {_ _ _} => .of_presents_none rfl
  unfold sweepExec at he
  split at he
  · -- the expired leases
    obtain rfl : ws = [] := ha
    cases he
    refine leadsTo_lock ⟨.nil, hfence, fun r hr => ?_⟩
    have hr' : r ∈ db.runs.rows ∧ q.stale r = true := by
      have := List.mem_filter.1 hr
      simp only [Bool.and_eq_true] at this
      exact ⟨this.1, this.2.1⟩
    have hs : r.status = .running := by
      simp only [SweepRequest.stale, Bool.and_eq_true, decide_eq_true_eq] at hr'
      exact hr'.2.1.2
    exact ⟨.inr (List.mem_map_of_mem hr), hr'.1, hs⟩
  · cases he
    exact sound_idle
  · -- the update of the next row
    rename_i row rows n
    cases he
    obtain ⟨hk, hr, hs⟩ := ha row List.mem_cons_self
    have ht : ¬ row.Terminal := by simp [PipelineRun.Terminal, hs]
    exact leadsTo_write ⟨hp.append (.update hk hr rfl ht rfl) (by simp [SweepRequest.update]),
      hfence, ⟨hk, hr, hs⟩, fun r hr => ha r (List.mem_cons_of_mem _ hr)⟩
  · -- its evidence
    split_ifs at he
    · cases he
      exact sound_idle
    · cases he
      exact leadsTo_record hp ha.1.1 (fun _ => hfence) fun _ => ha.2
  · cases he

end Step

/-- The queue keeps `Sound`. -/
def soundness (β : Type*) : Assertion (protocol β) RowWrite.guard (fun _ _ _ => True) where
  holds := Sound
  guarded h := h.1.guarded
  step {a ws held db c busy o} h _ he := by
    change exec a c busy _ = some o at he
    unfold exec at he
    split at he
    · -- a call
      rename_i op
      cases he
      obtain rfl : ws = [] := h.2.2
      cases op <;> exact leadsTo_lock ⟨.nil, .nil, rfl⟩
    · cases he
    · cases he
      exact sound_idle
    · exact claim_step h he
    · exact transition_step h he
    · exact publish_step h he
    · exact sweep_step h he
  stable h hws := h.stable hws

/-! ## What a commit does -/

section Commit

variable {db : Db β} {ws : List (RowWrite β)} {held : RowKey → Prop}

/-- A commit keeps the single running row of a pipeline. -/
theorem Pending.singleActive (h : Pending ws held db) (hs : SingleActive db.runs) :
    SingleActive ((protocol β).installAll db ws).runs := by
  intro r₁' h₁' r₂' h₂' hname hrun₁ hrun₂
  obtain ⟨r₁, h₁, hid₁, hn₁, hact₁⟩ := exists_of_mem_installAll h₁'
  obtain ⟨r₂, h₂, hid₂, hn₂, hact₂⟩ := exists_of_mem_installAll h₂'
  have hn : r₁.pipelineName = r₂.pipelineName := by rw [hn₁, hn₂, hname]
  refine Table.eq_of_key_eq _ h₁' h₂' ?_
  rw [← hid₁, ← hid₂]
  rcases hact₁ hrun₁ with hr₁ | ⟨u₁, hu₁, hp₁⟩
  · rcases hact₂ hrun₂ with hr₂ | ⟨u₂, hu₂, hp₂⟩
    · exact congrArg _ (hs r₁ h₁ r₂ h₂ hn hr₁ hr₂)
    · exact absurd hr₁ ((h.activates _ _ _ hu₂ hp₂).1 r₁ h₁ hn)
  · rcases hact₂ hrun₂ with hr₂ | ⟨u₂, hu₂, hp₂⟩
    · exact absurd hr₂ ((h.activates _ _ _ hu₁ hp₁).1 r₂ h₂ hn.symm)
    · exact (h.activates _ _ _ hu₂ hp₂).2 _ _ _ hu₁ hp₁

/-- A commit leaves finished runs alone. -/
theorem Pending.mem_of_terminal (h : Pending ws held db) {r : PipelineRun}
    (hr : r ∈ db.runs.rows) (ht : r.Terminal) :
    r ∈ ((protocol β).installAll db ws).runs.rows := by
  refine mem_installAll hr fun u hu => ?_
  obtain ⟨r', hr', hid, ht'⟩ := h.unfinished _ _ hu
  exact ht' (db.runs.eq_of_key_eq hr' hr hid ▸ ht)

end Commit

section Runs

variable {ι : Type*} [DecidableEq ι] {s s' : State ι (Db β) RowKey (RowWrite β) Loc}

theorem singleActive_next {l : ι × Choice β} (hA : (soundness β).All s)
    (hs : SingleActive s.db.runs) (h : (protocol β).next s l = some s') :
    SingleActive s'.db.runs := by
  rcases Protocol.db_next h with he | ⟨-, -, he, -⟩
  · rwa [he]
  · rw [he]
    exact (hA l.1).1.singleActive hs

theorem mem_next_of_terminal {l : ι × Choice β} (hA : (soundness β).All s)
    (h : (protocol β).next s l = some s') {r : PipelineRun} (hr : r ∈ s.db.runs.rows)
    (ht : r.Terminal) : r ∈ s'.db.runs.rows := by
  rcases Protocol.db_next h with he | ⟨-, -, he, -⟩
  · rwa [he]
  · rw [he]
    exact (hA l.1).1.mem_of_terminal hr ht

/-- A session whose claim does not own its run changes nothing. -/
theorem db_next_of_not_owned {i : ι} {c : Choice β} {claim : RunClaim} (hA : (soundness β).All s)
    (hp : (s.session i).loc.presents = some claim) (ho : ¬ claim.Owned s.db.runs)
    (h : (protocol β).next s (i, c) = some s') : s'.db = s.db := by
  rcases Protocol.db_next h with he | ⟨-, -, he, -⟩
  · exact he
  · by_cases hw : (s.session i).pending = []
    · rw [he, Protocol.view, hw]
      rfl
    · exact absurd ((hA i).2.1 claim hp hw).2 ho

theorem soundness_reachable {db₀ : Db β}
    (h : ((protocol β).machine ι).Reachable (State.start db₀ fun _ => .idle none) s) :
    (soundness β).All s :=
  (soundness β).invariant h (fun _ _ _ _ => trivial) ((soundness β).all_start fun _ => sound_idle)

/-- **Queue fencing.**  In every committed state at most one run per pipeline is running; a step
of an operation whose claim token is not the current one of its run changes neither runs nor
attempts nor published data; and a run that has succeeded or failed never changes again. -/
theorem queue_fencing (db₀ : Db β) (h₀ : SingleActive db₀.runs)
    (s : State ι (Db β) RowKey (RowWrite β) Loc)
    (h : ((protocol β).machine ι).Reachable (State.start db₀ fun _ => .idle none) s) :
    SingleActive s.db.runs ∧
      (∀ i c s' claim, (s.session i).loc.presents = some claim → ¬ claim.Owned s.db.runs →
        (protocol β).next s (i, c) = some s' → s'.db = s.db) ∧
      ∀ s', ((protocol β).machine ι).Reachable s s' →
        ∀ r ∈ s.db.runs.rows, r.Terminal → r ∈ s'.db.runs.rows := by
  have hall : ∀ s', ((protocol β).machine ι).Reachable s s' → (soundness β).All s' :=
    fun s' hs' => soundness_reachable (h.trans hs')
  refine ⟨?_, fun i c s' claim hp ho hs' => db_next_of_not_owned (hall s .refl) hp ho hs', ?_⟩
  · induction h with
    | refl => exact h₀
    | tail h₁ _ hs ih =>
      have hall₁ := soundness_reachable h₁
      exact singleActive_next hall₁ (ih fun s' hs' => soundness_reachable (h₁.trans hs')) hs
  · intro s' hs' r hr ht
    induction hs' with
    | refl => exact hr
    | tail h₁ _ hs ih => exact mem_next_of_terminal (hall _ h₁) hs ih ht

/-! ### A worker that stalls -/

/-- A scheduled run, requested at the epoch. -/
def scheduledRun : PipelineRun where
  id := 1
  pipelineName := pipelineName
  pipelineVersion := none
  triggerType := .scheduled
  requestedWeekStart := none
  targetWeeks := none
  requestedAt := beginningOfTime
  startedAt := none
  finishedAt := none
  status := .requested
  attempt := 0
  nextAttemptAt := none
  claimToken := none
  heartbeatAt := none
  leaseExpiresAt := none
  currentStage := none
  stageStartedAt := none
  rowsExtracted := none
  rowsTransformed := none
  rowsLoaded := none
  sourceWatermark := none
  errorCode := none
  errorSummary := none

/-- The queue holds one request, and nothing is published. -/
def oneRequest : Db (List ℕ) := ⟨⟨[scheduledRun], by decide⟩, .empty, none, []⟩

/-- The claim of the first attempt at `scheduledRun`. -/
def firstClaim : RunClaim := ⟨1, 11, .scheduled, none, [], 1⟩

/-- The claim of the second attempt. -/
def secondClaim : RunClaim := ⟨1, 12, .scheduled, none, [], 2⟩

/-- Worker 0 claims the run and stalls; worker 1 recovers the run, claims it again, publishes
and finalizes.  In between worker 0 wakes up: it sends a heartbeat and starts to publish. -/
def stalledWorker : List (ℕ × Choice (List ℕ)) :=
  let claim (i token now : ℕ) : List (ℕ × Choice (List ℕ)) :=
    [(i, .call (.claimNext { now := beginningOfTime + now * second, token := token })),
      (i, .pick 1), (i, .ok), (i, .ok), (i, .ok), (i, .ok)]
  let recovery : List (ℕ × Choice (List ℕ)) :=
    [(1, .call (.recoverStaleRuns { now := beginningOfTime + 1000 * second })),
      (1, .ok), (1, .ok), (1, .ok), (1, .ok)]
  let publication : List (ℕ × Choice (List ℕ)) :=
    [(0, .call (.transition (heartbeat firstClaim (beginningOfTime + 2001 * second)))),
      (0, .ok), (0, .ok),
      (0, .call (.publish firstClaim)),
      (1, .call (.publish secondClaim)), (1, .ok), (1, .body fun rows => 7 :: rows), (1, .ok),
      (1, .call (.transition (finalizeSuccess secondClaim ⟨3, 2, 1, none, none, none, none⟩
        (beginningOfTime + 2100 * second)))),
      (1, .ok), (1, .ok), (1, .ok)]
  claim 0 11 0 ++ recovery ++ claim 1 12 2000 ++ publication

/-- The stalled worker is about to publish a finished run, and changes nothing. -/
theorem queue_fencing_stalled_worker :
    ∃ s, ((protocol (List ℕ)).machine ℕ).Reachable (State.start oneRequest fun _ => .idle none) s ∧
      ((s.db.runs.rows.map fun r => (r.status, r.attempt)) = [(.succeeded, 2)] ∧
        (s.db.attempts.rows.map fun a => (a.attempt, a.retryOutcome)) =
          [(1, .leaseLost), (2, .succeeded)] ∧
        s.db.published = [7] ∧ (s.session 0).loc.presents = some firstClaim ∧
        ¬ firstClaim.Owned s.db.runs) ∧
      SingleActive s.db.runs ∧
      (∀ i c s' claim, (s.session i).loc.presents = some claim → ¬ claim.Owned s.db.runs →
        (protocol (List ℕ)).next s (i, c) = some s' → s'.db = s.db) ∧
      ∀ s', ((protocol (List ℕ)).machine ℕ).Reachable s s' →
        ∀ r ∈ s.db.runs.rows, r.Terminal → r ∈ s'.db.runs.rows := by
  obtain ⟨s, hs, hp⟩ := ((protocol (List ℕ)).machine ℕ).exists_reachable
    (State.start oneRequest fun _ => .idle none) stalledWorker
    (fun s => decide ((s.db.runs.rows.map fun r => (r.status, r.attempt)) = [(.succeeded, 2)] ∧
      (s.db.attempts.rows.map fun a => (a.attempt, a.retryOutcome)) =
        [(1, .leaseLost), (2, .succeeded)] ∧
      s.db.published = [7] ∧ (s.session 0).loc.presents = some firstClaim ∧
      ¬ firstClaim.Owned s.db.runs))
    (by decide)
  exact ⟨s, hs, of_decide_eq_true hp, queue_fencing oneRequest (by decide) s hs⟩

end Runs

end Queue

end TrackFlow
