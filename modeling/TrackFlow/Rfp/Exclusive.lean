import Mathlib.Data.Fintype.Basic
import TrackFlow.Rfp.Approval

/-!
# One decision at a time

What holds of a ticket as long as a department takes one decision after the other: a decision is
submitted when no other one on the department is between loading its section and saving it, and a
thread is opened once.

* `OneAtATime` : the condition on a step.
* `Consistent` : a department between two decisions; its section shows what its thread has.
* `Exclusive` : the invariant.
* `Exclusive.next` : **a step that meets the condition keeps the invariant.**
-/

namespace TrackFlow

namespace Rfp

/-- The condition on a step: a decision is submitted when no other one on its department is on its
way, and the thread of a department is opened only once. -/
def OneAtATime {δ σ ι : Type} (calls : ι → DecisionCall δ) (s : Desk δ σ ι) : Turn σ ι → Prop
  | .start i =>
    match s.starts i with
    | .opening ((d, _) :: _) => s.tables.threads d = none
    | _ => True
  | .decide i _ =>
    match s.decisions i with
    | .ready => ∀ j, (s.decisions j).IsActive → (calls j).department ≠ (calls i).department
    | _ => True

instance {δ σ ι : Type} [DecidableEq δ] [Fintype ι] (calls : ι → DecisionCall δ) (s : Desk δ σ ι)
    (turn : Turn σ ι) : Decidable (OneAtATime calls s turn) := by
  cases turn <;> unfold OneAtATime <;> dsimp only <;> split <;> infer_instance

/-- A department between two decisions. -/
inductive Consistent {δ : Type} (t : Tables δ) (d : δ) : Prop
  | unopened (stored : t.threads d = none) (status : (t.sections d).approvalStatus = .pending)
  | paused (thread : Checkpoint) (stored : t.threads d = some thread)
      (next : thread.next = some .review) (outcome : thread.values.outcome = none)
      (draft : thread.values.draft = (t.sections d).text)
      (status : (t.sections d).approvalStatus = .pending)
  | ended (thread : Checkpoint) (outcome : Outcome) (stored : t.threads d = some thread)
      (next : thread.next = none) (values : thread.values.outcome = some outcome)
      (draft : thread.values.draft = (t.sections d).text)
      (status : (t.sections d).approvalStatus = outcome.status)

/-- How `invoke` leaves a thread: in a new pause, or ended with the draft that it had. -/
inductive Moved (loaded : Section) (values : ApprovalState) (next : Option Node) : Prop
  | paused (next : next = some .review) (outcome : values.outcome = none)
  | ended (outcome : Outcome) (next : next = none) (ends : values.outcome = some outcome)
      (draft : values.draft = loaded.text)

/-- What a call on the department `d` knows in a phase. -/
def DecisionOk {δ : Type} (departments : List δ) (t : Tables δ) (d : δ) : DecisionPhase δ → Prop
  | .submitted loaded => loaded = t.sections d ∧ Consistent t d
  | .checked loaded => loaded = t.sections d ∧ Consistent t d ∧
      (t.threads d).any (fun thread => thread.next.isSome) = true
  | .resuming loaded thread => loaded = t.sections d ∧ loaded.approvalStatus = .pending ∧
      t.threads d = some thread ∧ thread.next.isSome = true ∧ thread.values.outcome = none ∧
      thread.values.draft = loaded.text
  | .resumed loaded => loaded = t.sections d ∧ loaded.approvalStatus = .pending ∧
      ∃ thread, t.threads d = some thread ∧ Moved loaded thread.values thread.next
  | .resolved loaded values next => loaded = t.sections d ∧ loaded.approvalStatus = .pending ∧
      Moved loaded values next ∧
      ∃ thread, t.threads d = some thread ∧ thread.values = values ∧ thread.next = next
  | .refreshed own => own.approvalStatus = .approved → own = t.sections d
  | .consolidating rows => rows = departments.map (fun d => (d, t.sections d)) ∧
      ∀ d ∈ departments, (t.sections d).approvalStatus = .approved
  | .documented => t.documents ≠ []
  | _ => True

/-- The inputs of a start are those of the departments that are not open. -/
def StartOk {δ : Type} (maxIterations : ℕ) (t : Tables δ) : StartPhase δ → Prop
  | .opening rest => ∀ p ∈ rest, t.threads p.1 = none →
      p.2 = initialState maxIterations (t.sections p.1)
  | _ => True

/-- Checkpoints have identifiers of their own, and a pause is resumed once. -/
structure Numbered {δ : Type} (t : Tables δ) : Prop where
  bound : ∀ d thread, t.threads d = some thread → thread.id < t.checkpoints
  injective : ∀ d d' thread thread', t.threads d = some thread → t.threads d' = some thread' →
    thread.id = thread'.id → d = d'
  logged : ∀ k ∈ t.resumed, k < t.checkpoints
  fresh : ∀ d thread, t.threads d = some thread → thread.next = some .review →
    thread.id ∉ t.resumed
  nodup : t.resumed.Nodup

/-- The document has the sections as they are, and all are approved. -/
def Documented {δ : Type} (departments : List δ) (t : Tables δ) : Prop :=
  ∀ document ∈ t.documents,
    document.sections = departments.map (fun d => (d, (t.sections d).text)) ∧
      ∀ d ∈ departments, (t.sections d).approvalStatus = .approved

section

variable {δ σ ι : Type} (departments : List δ) (maxIterations : ℕ) (calls : ι → DecisionCall δ)

/-- The invariant of runs with one decision at a time. -/
structure Exclusive (s : Desk δ σ ι) : Prop where
  alone : ∀ i j, (s.decisions i).IsActive → (s.decisions j).IsActive →
    (calls i).department = (calls j).department → i = j
  consistent : ∀ d, (∀ i, (s.decisions i).IsActive → (calls i).department ≠ d) →
    Consistent s.tables d
  decisions : ∀ i, DecisionOk departments s.tables (calls i).department (s.decisions i)
  starts : ∀ i, StartOk maxIterations s.tables (s.starts i)
  documented : Documented departments s.tables
  one : s.tables.documents.length ≤ 1
  numbered : Numbered s.tables

end

section

variable {δ σ ι : Type} {departments : List δ} {maxIterations : ℕ} {calls : ι → DecisionCall δ}
  {t t' : Tables δ} {d : δ}

theorem Consistent.congr (h : Consistent t d) (hsections : t'.sections d = t.sections d)
    (hthreads : t'.threads d = t.threads d) : Consistent t' d := by
  cases h with
  | unopened stored status => exact .unopened (hthreads.trans stored) (hsections ▸ status)
  | paused thread stored next outcome draft status =>
    exact .paused thread (hthreads.trans stored) next outcome (hsections ▸ draft)
      (hsections ▸ status)
  | ended thread outcome stored next values draft status =>
    exact .ended thread outcome (hthreads.trans stored) next values (hsections ▸ draft)
      (hsections ▸ status)

/-- A department whose section is not pending has an ended thread. -/
theorem Consistent.ended_of_ne_pending (h : Consistent t d)
    (hne : (t.sections d).approvalStatus ≠ .pending) :
    ∃ thread outcome, t.threads d = some thread ∧ thread.values.outcome = some outcome ∧
      thread.values.draft = (t.sections d).text ∧
      (t.sections d).approvalStatus = outcome.status := by
  cases h with
  | unopened stored status => exact (hne status).elim
  | paused thread stored next outcome draft status => exact (hne status).elim
  | ended thread outcome stored next values draft status =>
    exact ⟨thread, outcome, stored, values, draft, status⟩

/-- A section that is saved as `recordDecision` has it shows what its thread has. -/
theorem Moved.consistent {loaded : Section} {thread : Checkpoint} {actor : String}
    (h : Moved loaded thread.values thread.next) (hthread : t.threads d = some thread)
    (hsaved : t.sections d = recordDecision actor loaded thread.values thread.next) :
    Consistent t d := by
  cases h with
  | paused next outcome =>
    refine .paused thread hthread next outcome ?_ ?_ <;> rw [hsaved, next] <;> rfl
  | ended outcome next ends draft =>
    obtain ⟨hstatus, hcontent⟩ := recordDecision_ended actor loaded ends
    refine .ended thread outcome hthread next ends ?_ ?_
    · rw [hsaved, next, Section.text, hcontent]
      exact draft
    · rw [hsaved, next]
      exact hstatus

/-- What a call knows stays true while nobody else writes to its department; a call that is past
its save only needs that approved sections and documents stay. -/
theorem DecisionOk.mono {phase : DecisionPhase δ} (h : DecisionOk departments t d phase)
    (hown : phase.IsActive → t'.sections d = t.sections d ∧ t'.threads d = t.threads d)
    (happroved : ∀ d, (t.sections d).approvalStatus = .approved → t'.sections d = t.sections d)
    (hdocuments : t.documents ≠ [] → t'.documents ≠ []) :
    DecisionOk departments t' d phase := by
  cases phase with
  | submitted loaded =>
    obtain ⟨hs, ht⟩ := hown trivial
    exact ⟨h.1.trans hs.symm, h.2.congr hs ht⟩
  | checked loaded =>
    obtain ⟨hs, ht⟩ := hown trivial
    exact ⟨h.1.trans hs.symm, h.2.1.congr hs ht, ht ▸ h.2.2⟩
  | resuming loaded thread =>
    obtain ⟨hs, ht⟩ := hown trivial
    exact ⟨h.1.trans hs.symm, h.2.1, ht.trans h.2.2.1, h.2.2.2⟩
  | resumed loaded =>
    obtain ⟨hs, ht⟩ := hown trivial
    obtain ⟨hloaded, hpending, thread, hthread, hmoved⟩ := h
    exact ⟨hloaded.trans hs.symm, hpending, thread, ht.trans hthread, hmoved⟩
  | resolved loaded values next =>
    obtain ⟨hs, ht⟩ := hown trivial
    obtain ⟨hloaded, hpending, hmoved, thread, hthread, hvalues⟩ := h
    exact ⟨hloaded.trans hs.symm, hpending, hmoved, thread, ht.trans hthread, hvalues⟩
  | refreshed own =>
    intro hown
    have hsame := h hown
    exact hsame.trans (happroved d (hsame ▸ hown)).symm
  | consolidating rows =>
    obtain ⟨hrows, hall⟩ := h
    refine ⟨hrows.trans (List.map_congr_left fun d hd => ?_), fun d hd => ?_⟩
    · rw [happroved d (hall d hd)]
    · rw [happroved d (hall d hd)]
      exact hall d hd
  | documented => exact hdocuments h
  | _ => trivial

theorem StartOk.mono {phase : StartPhase δ} (h : StartOk maxIterations t phase)
    (hopen : ∀ d, t'.threads d = none → t.threads d = none ∧ t'.sections d = t.sections d) :
    StartOk maxIterations t' phase := by
  cases phase with
  | opening rest =>
    intro p hp hnone
    obtain ⟨hbefore, hsections⟩ := hopen p.1 hnone
    rw [hsections]
    exact h p hp hbefore
  | _ => trivial

/-- A new checkpoint of a thread. -/
theorem Numbered.put [DecidableEq δ] (h : Numbered t) (d : δ) (values : ApprovalState)
    (next : Option Node) : Numbered (t.put d values next) where
  bound d' thread hthread := by
    show thread.id < t.checkpoints + 1
    by_cases hd : d' = d
    · subst hd
      cases (t.put_threads_self d' values next).symm.trans hthread
      exact Nat.lt_succ_self _
    · rw [t.put_threads_of_ne d values next hd] at hthread
      exact Nat.lt_succ_of_lt (h.bound d' thread hthread)
  injective d₁ d₂ thread₁ thread₂ h₁ h₂ hid := by
    by_cases hd₁ : d₁ = d <;> by_cases hd₂ : d₂ = d
    · exact hd₁.trans hd₂.symm
    · subst hd₁
      cases (t.put_threads_self d₁ values next).symm.trans h₁
      rw [t.put_threads_of_ne d₁ values next hd₂] at h₂
      have hlt := h.bound d₂ thread₂ h₂
      dsimp only at hid
      omega
    · subst hd₂
      cases (t.put_threads_self d₂ values next).symm.trans h₂
      rw [t.put_threads_of_ne d₂ values next hd₁] at h₁
      have hlt := h.bound d₁ thread₁ h₁
      dsimp only at hid
      omega
    · rw [t.put_threads_of_ne d values next hd₁] at h₁
      rw [t.put_threads_of_ne d values next hd₂] at h₂
      exact h.injective d₁ d₂ thread₁ thread₂ h₁ h₂ hid
  logged k hk := Nat.lt_succ_of_lt (h.logged k hk)
  fresh d' thread hthread hnext := by
    show thread.id ∉ t.resumed
    by_cases hd : d' = d
    · subst hd
      cases (t.put_threads_self d' values next).symm.trans hthread
      exact fun hk => Nat.lt_irrefl _ (h.logged _ hk)
    · rw [t.put_threads_of_ne d values next hd] at hthread
      exact h.fresh d' thread hthread hnext
  nodup := h.nodup

/-- A pause that is resumed is logged, and its thread goes on to a new checkpoint. -/
theorem Numbered.run [DecidableEq δ] (h : Numbered t) {thread : Checkpoint} {node : Node}
    (hthread : t.threads d = some thread) (hnext : thread.next = some node)
    (result : ApprovalState × Option Node) : Numbered (t.run d thread node result) := by
  have hput := h.put d result.1 result.2
  have hlt := h.bound d thread hthread
  by_cases hnode : node = .review
  · subst hnode
    refine ⟨hput.bound, hput.injective, ?_, ?_, ?_⟩
    · intro k hk
      rcases List.mem_append.1 hk with hk | hk
      · exact hput.logged k hk
      · rw [List.mem_singleton.1 hk]
        exact Nat.lt_succ_of_lt hlt
    · intro d' thread' hthread' hnext' hk
      rcases List.mem_append.1 hk with hk | hk
      · exact hput.fresh d' thread' hthread' hnext' hk
      · -- the thread that was resumed has a new checkpoint, the others have other identifiers
        have hid := List.mem_singleton.1 hk
        by_cases hd : d' = d
        · subst hd
          cases (t.put_threads_self d' result.1 result.2).symm.trans hthread'
          dsimp only at hid
          omega
        · rw [t.run_threads, t.put_threads_of_ne d _ _ hd] at hthread'
          exact hd (h.injective d' d thread' thread hthread' hthread hid)
    · refine h.nodup.append (List.nodup_singleton _) fun k hk hk' => ?_
      rw [List.mem_singleton.1 hk'] at hk
      exact h.fresh d thread hthread hnext hk
  · have hsame : (t.run d thread node result).resumed = t.resumed := if_neg hnode
    exact ⟨hput.bound, hput.injective, hsame ▸ hput.logged, hsame ▸ hput.fresh, hsame ▸ hput.nodup⟩

/-- A section that is not pending has an ended thread, whoever is looking at it. -/
theorem Exclusive.ended {s : Desk δ σ ι} (h : Exclusive departments maxIterations calls s)
    (hne : (s.tables.sections d).approvalStatus ≠ .pending) :
    ∃ thread outcome, s.tables.threads d = some thread ∧ thread.values.outcome = some outcome ∧
      thread.values.draft = (s.tables.sections d).text ∧
      (s.tables.sections d).approvalStatus = outcome.status := by
  by_cases hactive : ∃ i, (s.decisions i).IsActive ∧ (calls i).department = d
  · obtain ⟨i, hi, rfl⟩ := hactive
    have hok := h.decisions i
    cases hphase : s.decisions i with
    | submitted loaded =>
      rw [hphase] at hok
      exact hok.2.ended_of_ne_pending hne
    | checked loaded =>
      rw [hphase] at hok
      exact hok.2.1.ended_of_ne_pending hne
    | resuming loaded thread =>
      rw [hphase] at hok
      exact (hne (hok.1 ▸ hok.2.1)).elim
    | resumed loaded =>
      rw [hphase] at hok
      exact (hne (hok.1 ▸ hok.2.1)).elim
    | resolved loaded values next =>
      rw [hphase] at hok
      exact (hne (hok.1 ▸ hok.2.1)).elim
    | _ =>
      rw [hphase] at hi
      exact hi.elim
  · exact (h.consistent d fun i hi hd => hactive ⟨i, hi, hd⟩).ended_of_ne_pending hne

variable [DecidableEq δ] [DecidableEq ι] {currency : Option Currency} {s s' : Desk δ σ ι} {i : ι}
  {phase : DecisionPhase δ} {turn : Turn σ ι}

/-- A decision takes a step that writes to its own department, if it is active, and keeps what
approved sections and documents say. -/
theorem Exclusive.update (h : Exclusive departments maxIterations calls s)
    (hothers : ∀ d, d ≠ (calls i).department ∨ ¬(s.decisions i).IsActive →
      t.sections d = s.tables.sections d ∧ t.threads d = s.tables.threads d)
    (happroved : ∀ d, (s.tables.sections d).approvalStatus = .approved →
      t.sections d = s.tables.sections d)
    (hdocuments : s.tables.documents ≠ [] → t.documents ≠ [])
    (hopen : ∀ d, t.threads d = none →
      s.tables.threads d = none ∧ t.sections d = s.tables.sections d)
    (hphase : DecisionOk departments t (calls i).department phase)
    (halone : phase.IsActive → ∀ j, j ≠ i → (s.decisions j).IsActive →
      (calls j).department ≠ (calls i).department)
    (hconsistent : ¬phase.IsActive → (∀ j, j ≠ i → (s.decisions j).IsActive →
      (calls j).department ≠ (calls i).department) → Consistent t (calls i).department)
    (hdocumented : Documented departments t) (hone : t.documents.length ≤ 1)
    (hnumbered : Numbered t) :
    Exclusive departments maxIterations calls
      { s with tables := t, decisions := Function.update s.decisions i phase } where
  alone j k hj hk hjk := by
    dsimp only at hj hk
    by_cases hji : j = i <;> by_cases hki : k = i
    · exact hji.trans hki.symm
    · subst hji
      rw [Function.update_self] at hj
      rw [Function.update_of_ne hki] at hk
      exact (halone hj k hki hk hjk.symm).elim
    · subst hki
      rw [Function.update_self] at hk
      rw [Function.update_of_ne hji] at hj
      exact (halone hk j hji hj hjk).elim
    · rw [Function.update_of_ne hji] at hj
      rw [Function.update_of_ne hki] at hk
      exact h.alone j k hj hk hjk
  consistent d hd := by
    dsimp only at hd ⊢
    have hrest : ∀ j, j ≠ i → (s.decisions j).IsActive → (calls j).department ≠ d := by
      intro j hj hactive
      refine hd j ?_
      rwa [Function.update_of_ne hj]
    by_cases hdi : d = (calls i).department
    · subst hdi
      refine hconsistent (fun hactive => ?_) hrest
      refine hd i ?_ rfl
      rwa [Function.update_self]
    · obtain ⟨hsections, hthreads⟩ := hothers d (.inl hdi)
      refine (h.consistent d fun j hactive => ?_).congr hsections hthreads
      by_cases hj : j = i
      · subst hj
        exact Ne.symm hdi
      · exact hrest j hj hactive
  decisions j := by
    dsimp only
    by_cases hj : j = i
    · subst hj
      rwa [Function.update_self]
    · rw [Function.update_of_ne hj]
      refine (h.decisions j).mono (fun hactive => hothers _ ?_) happroved hdocuments
      by_cases hdi : (calls j).department = (calls i).department
      · exact .inr fun hactive' => hj (h.alone j i hactive hactive' hdi)
      · exact .inl hdi
  starts j := (h.starts j).mono hopen
  documented := hdocumented
  one := hone
  numbered := hnumbered

/-- A decision moves on without writing. -/
theorem Exclusive.quiet (h : Exclusive departments maxIterations calls s)
    (hphase : DecisionOk departments s.tables (calls i).department phase)
    (halone : phase.IsActive → ¬(s.decisions i).IsActive → ∀ j, (s.decisions j).IsActive →
      (calls j).department ≠ (calls i).department)
    (hconsistent : ¬phase.IsActive → (s.decisions i).IsActive →
      Consistent s.tables (calls i).department) :
    Exclusive departments maxIterations calls
      { s with decisions := Function.update s.decisions i phase } := by
  refine h.update (fun _ _ => ⟨rfl, rfl⟩) (fun _ _ => rfl) id (fun _ hd => ⟨hd, rfl⟩) hphase ?_ ?_
    h.documented h.one h.numbered
  · intro hactive j hj hj'
    by_cases hi : (s.decisions i).IsActive
    · exact fun hdi => hj (h.alone j i hj' hi hdi)
    · exact halone hactive hi j hj'
  · intro hinactive hrest
    by_cases hi : (s.decisions i).IsActive
    · exact hconsistent hinactive hi
    · refine h.consistent _ fun j hj => ?_
      by_cases hji : j = i
      · exact (hi (hji ▸ hj)).elim
      · exact hrest j hji hj

/-- `invoke` runs a node: the call stays the only one on its department. -/
theorem Exclusive.run (h : Exclusive departments maxIterations calls s) {loaded : Section}
    {thread : Checkpoint} {node : Node} (hphase : s.decisions i = .resuming loaded thread)
    (hnode : thread.next = some node) (redraft : Option (String × Evaluation)) :
    let result := runNode (calls i).action redraft thread.values node
    Exclusive departments maxIterations calls
      { s with
        tables := s.tables.run (calls i).department thread node result
        decisions := Function.update s.decisions i
          (if result.2 = none ∨ result.2 = some .review then .resumed loaded
          else .resuming loaded ⟨s.tables.checkpoints, result.1, result.2⟩) } := by
  intro result
  have hok := h.decisions i
  rw [hphase] at hok
  obtain ⟨rfl, hpending, hthread, -, houtcome, hdraft⟩ := hok
  have hactive : (s.decisions i).IsActive := by
    rw [hphase]
    trivial
  have hstored := s.tables.put_threads_self (calls i).department result.1 result.2
  refine h.update ?_ (fun _ _ => rfl) id ?_ ?_ ?_ ?_ h.documented h.one
    (h.numbered.run hthread hnode result)
  · intro d hd
    have hdi := hd.resolve_right (not_not_intro hactive)
    exact ⟨rfl, s.tables.put_threads_of_ne _ _ _ hdi⟩
  · intro d hnone
    by_cases hd : d = (calls i).department
    · subst hd
      cases hstored.symm.trans hnone
    · exact ⟨(s.tables.put_threads_of_ne _ _ _ hd).symm.trans hnone, rfl⟩
  · rcases runNode_cases (calls i).action redraft node houtcome with
      ⟨outcome, hnext, hends, hkeeps⟩ | ⟨-, hnext, hopen⟩ |
        ⟨further, -, hfurther, hnext, hopen, hkeeps⟩
    · rw [if_pos (.inl hnext)]
      exact ⟨rfl, hpending, _, hstored, .ended outcome hnext hends (hkeeps.trans hdraft)⟩
    · rw [if_pos (.inr hnext)]
      exact ⟨rfl, hpending, _, hstored, .paused hnext hopen⟩
    · have hgoes : ¬(result.2 = none ∨ result.2 = some .review) := by
        rw [show result.2 = some further from hnext]
        rintro (hnone | hreview)
        · cases hnone
        · exact hfurther (Option.some_injective _ hreview)
      rw [if_neg hgoes]
      exact ⟨rfl, hpending, hstored, by rw [show result.2 = some further from hnext]; rfl, hopen,
        hkeeps.trans hdraft⟩
  · intro _ j hj hj' hdi
    exact hj (h.alone j i hj' hactive hdi)
  · intro hinactive
    refine (hinactive ?_).elim
    split_ifs <;> trivial

/-- The section is saved: it shows what the thread has. -/
theorem Exclusive.save (h : Exclusive departments maxIterations calls s) {loaded : Section}
    {values : ApprovalState} {next : Option Node}
    (hphase : s.decisions i = .resolved loaded values next) :
    Exclusive departments maxIterations calls
      { s with
        tables := s.tables.saveSection (calls i).department loaded
          (recordDecision (calls i).actor loaded values next)
        decisions := Function.update s.decisions i .saved } := by
  have hok := h.decisions i
  rw [hphase] at hok
  obtain ⟨rfl, hpending, hmoved, thread, hthread, rfl, rfl⟩ := hok
  have hactive : (s.decisions i).IsActive := by
    rw [hphase]
    trivial
  -- an approved section is not the one that is saved
  have hother : ∀ d, (s.tables.sections d).approvalStatus = .approved →
      d ≠ (calls i).department := by
    rintro d hd rfl
    rw [hpending] at hd
    cases hd
  have hself := s.tables.saveSection_sections_self (calls i).department
    (s.tables.sections (calls i).department)
    (recordDecision (calls i).actor (s.tables.sections (calls i).department) thread.values
      thread.next)
  rw [Section.flush_self] at hself
  have hne {d : δ} (hd : d ≠ (calls i).department) :=
    s.tables.saveSection_sections_of_ne (calls i).department
      (s.tables.sections (calls i).department)
      (recordDecision (calls i).actor (s.tables.sections (calls i).department) thread.values
        thread.next) hd
  refine h.update ?_ (fun d hd => hne (hother d hd)) id ?_ trivial
    (fun hsaved => hsaved.elim) (fun _ _ => ?_) ?_ h.one
    ⟨h.numbered.bound, h.numbered.injective, h.numbered.logged, h.numbered.fresh, h.numbered.nodup⟩
  · intro d hd
    exact ⟨hne (hd.resolve_right (not_not_intro hactive)), rfl⟩
  · intro d hnone
    refine ⟨hnone, hne ?_⟩
    rintro rfl
    cases hthread.symm.trans hnone
  · exact hmoved.consistent hthread hself
  · -- while a section is pending there is no document that it belongs to
    intro document hmem
    obtain ⟨hsections, hall⟩ := h.documented document hmem
    have hkeep : ∀ d ∈ departments, _ := fun d hd => hne (hother d (hall d hd))
    refine ⟨hsections.trans (List.map_congr_left fun d hd => ?_), fun d hd => ?_⟩
    · rw [hkeep d hd]
    · rw [hkeep d hd]
      exact hall d hd

omit [DecidableEq δ] in
/-- An inactive decision leaves its department consistent, if no other decision on it is active. -/
theorem Exclusive.consistent_of_rest (h : Exclusive departments maxIterations calls s)
    (hinactive : ¬(s.decisions i).IsActive)
    (hrest : ∀ j, j ≠ i → (s.decisions j).IsActive → (calls j).department ≠ (calls i).department) :
    Consistent s.tables (calls i).department := by
  refine h.consistent _ fun j hj => ?_
  by_cases hji : j = i
  · exact (hinactive (hji ▸ hj)).elim
  · exact hrest j hji hj

/-- The sections that a decision finds approved are those in the table, its own included. -/
theorem eq_sections_of_approved {tables : Tables δ} {d : δ} {own : Section}
    (hown : own.approvalStatus = .approved → own = tables.sections d)
    (hall : ∀ d' ∈ departments,
      (if d' = d then own else tables.sections d').approvalStatus = .approved) :
    ∀ d' ∈ departments, (if d' = d then own else tables.sections d') = tables.sections d' ∧
      (tables.sections d').approvalStatus = .approved := by
  intro d' hd'
  have happroved := hall d' hd'
  by_cases hsame : d' = d
  · rw [if_pos hsame] at happroved ⊢
    rw [hsame, ← hown happroved]
    exact ⟨rfl, happroved⟩
  · rw [if_neg hsame] at happroved ⊢
    exact ⟨rfl, happroved⟩

/-- A step of a decision keeps the invariant. -/
theorem Exclusive.advanceDecision (h : Exclusive departments maxIterations calls s)
    {redraft : Option (String × Evaluation)} (hone : OneAtATime calls s (.decide i redraft))
    (hadvance : advanceDecision departments currency (calls i) redraft s.tables (s.decisions i) =
      some (t, phase)) :
    Exclusive departments maxIterations calls
      { s with tables := t, decisions := Function.update s.decisions i phase } := by
  have hok := h.decisions i
  cases hphase : s.decisions i with
  | ready =>
    simp only [OneAtATime, hphase] at hone
    rw [hphase, Rfp.advanceDecision] at hadvance
    split_ifs at hadvance with hmem <;> cases hadvance
    · exact h.quiet ⟨rfl, h.consistent _ hone⟩ (fun _ _ => hone)
        fun hinactive => (hinactive trivial).elim
    · refine h.quiet trivial (fun hactive => hactive.elim) fun _ hactive => ?_
      rw [hphase] at hactive
      exact hactive.elim
  | submitted loaded =>
    rw [hphase] at hok
    rw [hphase, Rfp.advanceDecision] at hadvance
    split_ifs at hadvance with hnext <;> cases hadvance
    · exact h.quiet ⟨hok.1, hok.2, hnext⟩
        (fun _ hinactive => (hinactive (by rw [hphase]; trivial)).elim)
        fun hinactive => (hinactive trivial).elim
    · exact h.quiet trivial (fun hactive => hactive.elim) fun _ _ => hok.2
  | checked loaded =>
    rw [hphase] at hok
    obtain ⟨hloaded, hconsistent, hnext⟩ := hok
    rw [hphase, Rfp.advanceDecision] at hadvance
    obtain ⟨thread, hthread, he⟩ := Option.map_eq_some_iff.1 hadvance
    cases he
    rw [hthread] at hnext
    refine h.quiet ?_ (fun _ hinactive => (hinactive (by rw [hphase]; trivial)).elim)
      fun hinactive => (hinactive trivial).elim
    cases hconsistent with
    | unopened stored status => cases hthread.symm.trans stored
    | paused paused stored next outcome draft status =>
      cases hthread.symm.trans stored
      exact ⟨hloaded, hloaded ▸ status, hthread, hnext, outcome, hloaded ▸ draft⟩
    | ended ended outcome stored next values draft status =>
      cases hthread.symm.trans stored
      simp [next] at hnext
  | resuming loaded thread =>
    rw [hphase] at hok
    obtain ⟨node, hnode⟩ := Option.isSome_iff_exists.1 hok.2.2.2.1
    rw [hphase, Rfp.advanceDecision, hnode] at hadvance
    cases hadvance
    exact h.run hphase hnode redraft
  | resumed loaded =>
    rw [hphase] at hok
    obtain ⟨hloaded, hpending, thread, hthread, hmoved⟩ := hok
    rw [hphase, Rfp.advanceDecision, hthread] at hadvance
    cases hadvance
    exact h.quiet ⟨hloaded, hpending, hmoved, thread, hthread, rfl, rfl⟩
      (fun _ hinactive => (hinactive (by rw [hphase]; trivial)).elim)
      fun hinactive => (hinactive trivial).elim
  | resolved loaded values next =>
    rw [hphase] at hadvance
    cases hadvance
    exact h.save hphase
  | saved =>
    rw [hphase] at hadvance
    cases hadvance
    refine h.quiet (fun _ => rfl) (fun hactive => hactive.elim) fun _ hactive => ?_
    rw [hphase] at hactive
    exact hactive.elim
  | refreshed own =>
    rw [hphase] at hok
    rw [hphase, Rfp.advanceDecision] at hadvance
    have hquiet {phase : DecisionPhase δ} (hinactive : ¬phase.IsActive)
        (hphase' : DecisionOk departments s.tables (calls i).department phase) :=
      h.quiet (i := i) hphase' (fun hactive => (hinactive hactive).elim) fun _ hactive => by
        rw [hphase] at hactive
        exact hactive.elim
    split_ifs at hadvance with hall <;> cases hadvance
    · -- the section that was loaded is approved, so it is still the one in the table
      have hrows := eq_sections_of_approved hok fun d hd => hall.2 _ (List.mem_map_of_mem hd)
      refine hquiet id ⟨List.map_congr_left fun d hd => ?_, fun d hd => (hrows d hd).2⟩
      rw [(hrows d hd).1]
    · exact hquiet id trivial
  | consolidating rows =>
    rw [hphase] at hok
    obtain ⟨rfl, hall⟩ := hok
    rw [hphase, Rfp.advanceDecision] at hadvance
    have hinactive : ¬(s.decisions i).IsActive := by
      rw [hphase]
      exact id
    split_ifs at hadvance with hempty <;> cases hadvance
    · refine h.update (fun _ _ => ⟨rfl, rfl⟩) (fun _ _ => rfl) (fun hne => (hne hempty).elim)
        (fun _ hd => ⟨hd, rfl⟩) ?_ (fun hactive => hactive.elim) (fun _ hrest => ?_) ?_ ?_
        { h.numbered with }
      · exact List.append_ne_nil_of_right_ne_nil _ (List.cons_ne_nil _ _)
      · exact (h.consistent_of_rest hinactive hrest).congr rfl rfl
      · intro document hmem
        dsimp only at hmem
        rw [hempty] at hmem
        cases List.mem_singleton.1 hmem
        exact ⟨by simp [Function.comp_def], hall⟩
      · dsimp only
        rw [hempty]
        exact Nat.le_refl 1
    · exact h.quiet trivial (fun hactive => hactive.elim) fun _ hactive => (hinactive hactive).elim
  | documented =>
    rw [hphase] at hadvance
    cases hadvance
    refine h.update (fun _ _ => ⟨rfl, rfl⟩) (fun _ _ => rfl) id (fun _ hd => ⟨hd, rfl⟩) trivial
      (fun hactive => hactive.elim) (fun _ hrest => ?_) h.documented h.one
      { h.numbered with }
    exact (h.consistent_of_rest (by rw [hphase]; exact id) hrest).congr rfl rfl
  | _ =>
    rw [hphase] at hadvance
    cases hadvance

variable [DecidableEq σ]

omit [DecidableEq ι] in
/-- A step of a start keeps the invariant. -/
theorem Exclusive.advanceStart (h : Exclusive departments maxIterations calls s) {i : σ}
    {phase : StartPhase δ} (hone : OneAtATime calls s (.start i))
    (hadvance : advanceStart departments maxIterations s.tables (s.starts i) = some (t, phase)) :
    Exclusive departments maxIterations calls
      { s with tables := t, starts := Function.update s.starts i phase } := by
  have hstarts {t : Tables δ} {phase : StartPhase δ}
      (hopen : ∀ d, t.threads d = none →
        s.tables.threads d = none ∧ t.sections d = s.tables.sections d)
      (hphase : StartOk maxIterations t phase) :
      ∀ j, StartOk maxIterations t (Function.update s.starts i phase j) := by
    intro j
    by_cases hj : j = i
    · subst hj
      rwa [Function.update_self]
    · rw [Function.update_of_ne hj]
      exact (h.starts j).mono hopen
  have hquiet {phase : StartPhase δ} (hphase : StartOk maxIterations s.tables phase) :
      Exclusive departments maxIterations calls
        { s with starts := Function.update s.starts i phase } :=
    { h with starts := hstarts (fun _ hd => ⟨hd, rfl⟩) hphase }
  have hok := h.starts i
  cases hphase : s.starts i with
  | ready =>
    rw [hphase, Rfp.advanceStart] at hadvance
    split_ifs at hadvance <;> cases hadvance
    · refine hquiet fun p hp _ => ?_
      obtain ⟨d, -, rfl⟩ := List.mem_map.1 hp
      rfl
    · exact hquiet trivial
  | opening rest =>
    cases rest with
    | nil =>
      rw [hphase, Rfp.advanceStart] at hadvance
      split_ifs at hadvance <;> cases hadvance <;> exact hquiet trivial
    | cons first rest =>
      obtain ⟨d, input⟩ := first
      simp only [OneAtATime, hphase] at hone
      rw [hphase] at hok
      rw [hphase, Rfp.advanceStart, hone] at hadvance
      cases hadvance
      have hinput : input = initialState maxIterations (s.tables.sections d) :=
        hok (d, input) List.mem_cons_self hone
      have hstored := s.tables.put_threads_self d input (some .review)
      have hother {d' : δ} (hd : d' ≠ d) :=
        s.tables.put_threads_of_ne d input (some .review) hd
      have hopen : ∀ d', (s.tables.put d input (some .review)).threads d' = none →
          s.tables.threads d' = none ∧
            (s.tables.put d input (some .review)).sections d' = s.tables.sections d' := by
        intro d' hnone
        by_cases hd : d' = d
        · subst hd
          cases hstored.symm.trans hnone
        · exact ⟨(hother hd).symm.trans hnone, rfl⟩
      -- the department was not open, so it is pending; now it is in its first pause
      have hpaused (hconsistent : Consistent s.tables d) :
          Consistent (s.tables.put d input (some .review)) d := by
        cases hconsistent with
        | unopened stored status => exact .paused _ hstored rfl (hinput ▸ rfl) (hinput ▸ rfl) status
        | paused thread stored => cases hone.symm.trans stored
        | ended thread outcome stored => cases hone.symm.trans stored
      refine ⟨h.alone, fun d' hd' => ?_, fun j => ?_, hstarts hopen ?_, h.documented, h.one,
        h.numbered.put d input _⟩
      · by_cases hd : d' = d
        · subst hd
          exact hpaused (h.consistent d' hd')
        · exact (h.consistent d' hd').congr rfl (hother hd)
      · by_cases hd : (calls j).department = d
        · -- a call on this department has found no thread yet
          have hj := h.decisions j
          rw [hd] at hj ⊢
          cases hdecision : s.decisions j with
          | submitted loaded =>
            rw [hdecision] at hj
            dsimp only
            exact ⟨hj.1, hpaused hj.2⟩
          | checked loaded =>
            rw [hdecision] at hj
            have hnext := hj.2.2
            rw [hone] at hnext
            cases hnext
          | resuming loaded thread =>
            rw [hdecision] at hj
            cases hone.symm.trans hj.2.2.1
          | resumed loaded =>
            rw [hdecision] at hj
            obtain ⟨-, -, thread, hthread, -⟩ := hj
            cases hone.symm.trans hthread
          | resolved loaded values next =>
            rw [hdecision] at hj
            obtain ⟨-, -, -, thread, hthread, -⟩ := hj
            cases hone.symm.trans hthread
          | _ =>
            rw [hdecision] at hj
            dsimp only
            exact hj.mono (fun hactive => hactive.elim) (fun _ _ => rfl) id
        · exact (h.decisions j).mono (fun _ => ⟨rfl, hother hd⟩) (fun _ _ => rfl) id
      · intro p hp hnone
        exact hok p (List.mem_cons_of_mem _ hp) (hopen p.1 hnone).1
  | waiting =>
    rw [hphase] at hadvance
    cases hadvance
    refine ⟨h.alone, fun d hd => (h.consistent d hd).congr rfl rfl, fun j => ?_,
      hstarts (fun _ hd => ⟨hd, rfl⟩) trivial, h.documented, h.one,
      ⟨h.numbered.bound, h.numbered.injective, h.numbered.logged, h.numbered.fresh,
        h.numbered.nodup⟩⟩
    exact (h.decisions j).mono (fun _ => ⟨rfl, rfl⟩) (fun _ _ => rfl) id
  | finished =>
    rw [hphase] at hadvance
    cases hadvance

/-- **A step that meets the condition keeps the invariant.** -/
theorem Exclusive.next (h : Exclusive departments maxIterations calls s)
    (hone : OneAtATime calls s turn)
    (hnext : (desk departments currency maxIterations calls).next s turn = some s') :
    Exclusive departments maxIterations calls s' := by
  cases turn with
  | start i =>
    obtain ⟨⟨t, phase⟩, hadvance, rfl⟩ := Option.map_eq_some_iff.1 hnext
    exact h.advanceStart hone hadvance
  | decide i redraft =>
    obtain ⟨⟨t, phase⟩, hadvance, rfl⟩ := Option.map_eq_some_iff.1 hnext
    exact h.advanceDecision hone hadvance

omit [DecidableEq δ] [DecidableEq ι] [DecidableEq σ] in
theorem Unstarted.exclusive (h : Unstarted s) : Exclusive departments maxIterations calls s where
  alone i j hi := by
    rw [h.decisions i] at hi
    exact hi.elim
  consistent d _ := .unopened (h.threads d) (h.sections d)
  decisions i := by
    rw [h.decisions i]
    trivial
  starts i := by
    rw [h.starts i]
    trivial
  documented document hmem := by
    rw [h.documents] at hmem
    cases hmem
  one := by
    rw [h.documents]
    exact Nat.zero_le _
  numbered := by
    refine ⟨?_, ?_, ?_, ?_, ?_⟩
    · intro d thread hthread
      cases (h.threads d).symm.trans hthread
    · intro d d' thread thread' hthread
      cases (h.threads d).symm.trans hthread
    · rw [h.resumed]
      exact fun k hk => (List.not_mem_nil hk).elim
    · intro d thread hthread
      cases (h.threads d).symm.trans hthread
    · rw [h.resumed]
      exact List.nodup_nil

end

end Rfp

end TrackFlow
