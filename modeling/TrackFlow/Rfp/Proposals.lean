import TrackFlow.Rfp.Exclusive

/-!
# What a proposal ends with

The final document, the status of its ticket, and the drafts that it is made of.

* `document_agrees` : **the document, the sections and the status agree**, in runs that take one
  decision at a time and whose starts do not write over a newer status.
* `start_overwrites_done` : a start that has read the status before the document exists.
* `one_decision_per_pause` : **a pause takes one decision and a decided section stays**, in runs
  that take one decision at a time.
* `late_save_changes_draft` : a section that is saved late changes an approved draft.
-/

namespace TrackFlow

namespace Rfp

section

variable {δ σ ι : Type} [DecidableEq δ] [DecidableEq σ] [DecidableEq ι] (departments : List δ)
  (currency : Option Currency) (maxIterations : ℕ) (calls : ι → DecisionCall δ)

/-- The condition on the last step of a start: the status is still the one that it has read. -/
def StatusInTurn (s : Desk δ σ ι) : Turn σ ι → Prop
  | .start i =>
    match s.starts i with
    | .waiting => s.tables.status = .underEvaluation
    | _ => True
  | .decide _ _ => True

instance (s : Desk δ σ ι) : (turn : Turn σ ι) → Decidable (StatusInTurn s turn)
  | .start i => decidable_of_iff (s.starts i = .waiting → s.tables.status = .underEvaluation) (by
      rw [StatusInTurn]
      cases s.starts i <;> simp)
  | .decide _ _ => inferInstanceAs (Decidable True)

/-- There is one document at most, and only when all sections are approved; once it exists and no
call is in flight, the ticket is done, whatever comes later. -/
def DocumentAgrees (G : Desk δ σ ι → Turn σ ι → Prop) (s : Desk δ σ ι) : Prop :=
  (s.tables.documents ≠ [] → ∀ d ∈ departments, (s.tables.sections d).approvalStatus = .approved) ∧
  s.tables.documents.length ≤ 1 ∧
  (s.tables.documents ≠ [] → s.Quiet →
    ∀ s', (desk departments currency maxIterations calls).Run G s s' → s'.tables.status = .done)

/-- A pause has been resumed once at most; a section that is approved or rejected keeps its status
and its draft, whatever comes later; and the texts of a document are the drafts that the threads
had when they were approved. -/
def OneDecisionPerPause (G : Desk δ σ ι → Turn σ ι → Prop) (s : Desk δ σ ι) : Prop :=
  s.tables.resumed.Nodup ∧
  (∀ s', (desk departments currency maxIterations calls).Run G s s' → ∀ d,
    (s.tables.sections d).approvalStatus = .approved ∨
      (s.tables.sections d).approvalStatus = .rejected →
    (s'.tables.sections d).approvalStatus = (s.tables.sections d).approvalStatus ∧
      (s'.tables.sections d).draftContent = (s.tables.sections d).draftContent) ∧
  ∀ document ∈ s.tables.documents, document.sections.map Prod.fst = departments ∧
    ∀ p ∈ document.sections, p.2 = (s.tables.sections p.1).text ∧
      ∃ thread, s.tables.threads p.1 = some thread ∧ thread.values.outcome = some .approved ∧
        thread.values.draft = p.2

end

section

variable {δ σ ι : Type} [DecidableEq δ] {departments : List δ} {currency : Option Currency}
  {maxIterations : ℕ} {calls : ι → DecisionCall δ} {t t' : Tables δ}

/-- A start writes neither sections nor documents, and the status only at its end. -/
theorem advanceStart_eq_some {phase phase' : StartPhase δ}
    (h : advanceStart departments maxIterations t phase = some (t', phase')) :
    t'.sections = t.sections ∧ t'.documents = t.documents ∧
      (t'.status = t.status ∨ phase = .waiting) := by
  cases phase with
  | ready =>
    rw [advanceStart] at h
    split_ifs at h <;> cases h <;> exact ⟨rfl, rfl, .inl rfl⟩
  | opening rest =>
    cases rest with
    | nil =>
      rw [advanceStart] at h
      split_ifs at h <;> cases h <;> exact ⟨rfl, rfl, .inl rfl⟩
    | cons first rest =>
      cases h
      exact ⟨rfl, rfl, .inl rfl⟩
  | waiting =>
    cases h
    exact ⟨rfl, rfl, .inr rfl⟩
  | finished => cases h

/-- A decision writes its section when it is saved, the document when it consolidates, and the
status after the document. -/
theorem advanceDecision_eq_some {call : DecisionCall δ}
    {redraft : Option (String × Evaluation)} {phase phase' : DecisionPhase δ}
    (h : advanceDecision departments currency call redraft t phase = some (t', phase')) :
    (t'.sections = t.sections ∨ ∃ loaded values next, phase = .resolved loaded values next ∧
      ∀ d, d ≠ call.department → t'.sections d = t.sections d) ∧
    (t.documents ≠ [] → t'.documents ≠ []) ∧ (t'.documents = t.documents ∨ phase' = .documented) ∧
    (t'.status = t.status ∧ phase ≠ .documented ∨ t'.status = .done) := by
  cases phase with
  | ready =>
    rw [advanceDecision] at h
    split_ifs at h <;> cases h <;> exact ⟨.inl rfl, id, .inl rfl, .inl ⟨rfl, by simp⟩⟩
  | submitted loaded =>
    rw [advanceDecision] at h
    split_ifs at h <;> cases h <;> exact ⟨.inl rfl, id, .inl rfl, .inl ⟨rfl, by simp⟩⟩
  | checked loaded =>
    obtain ⟨thread, -, he⟩ := Option.map_eq_some_iff.1 h
    cases he
    exact ⟨.inl rfl, id, .inl rfl, .inl ⟨rfl, by simp⟩⟩
  | resuming loaded thread =>
    rw [advanceDecision] at h
    dsimp only at h
    split at h <;> cases h <;> exact ⟨.inl rfl, id, .inl rfl, .inl ⟨rfl, by simp⟩⟩
  | resumed loaded =>
    obtain ⟨thread, -, he⟩ := Option.map_eq_some_iff.1 h
    cases he
    exact ⟨.inl rfl, id, .inl rfl, .inl ⟨rfl, by simp⟩⟩
  | resolved loaded values next =>
    cases h
    exact ⟨.inr ⟨_, _, _, rfl, fun d hd => t.saveSection_sections_of_ne _ _ _ hd⟩, id, .inl rfl,
      .inl ⟨rfl, by simp⟩⟩
  | saved =>
    cases h
    exact ⟨.inl rfl, id, .inl rfl, .inl ⟨rfl, by simp⟩⟩
  | refreshed own =>
    rw [advanceDecision] at h
    split_ifs at h <;> cases h <;> exact ⟨.inl rfl, id, .inl rfl, .inl ⟨rfl, by simp⟩⟩
  | consolidating rows =>
    rw [advanceDecision] at h
    split_ifs at h <;> cases h
    · refine ⟨.inl rfl, fun _ => ?_, .inr rfl, .inl ⟨rfl, by simp⟩⟩
      exact List.append_ne_nil_of_right_ne_nil _ (List.cons_ne_nil _ _)
    · exact ⟨.inl rfl, id, .inl rfl, .inl ⟨rfl, by simp⟩⟩
  | documented =>
    cases h
    exact ⟨.inl rfl, id, .inl rfl, .inr rfl⟩
  | _ => cases h

variable [DecidableEq σ] [DecidableEq ι] {start s s' : Desk δ σ ι} {turn : Turn σ ι}

/-- A step keeps the sections that are decided. -/
theorem Exclusive.sections_next (h : Exclusive departments maxIterations calls s)
    (hnext : (desk departments currency maxIterations calls).next s turn = some s') {d : δ}
    (hne : (s.tables.sections d).approvalStatus ≠ .pending) :
    s'.tables.sections d = s.tables.sections d := by
  cases turn with
  | start i =>
    obtain ⟨⟨t, phase⟩, hadvance, rfl⟩ := Option.map_eq_some_iff.1 hnext
    exact congrFun (advanceStart_eq_some hadvance).1 d
  | decide i redraft =>
    obtain ⟨⟨t, phase⟩, hadvance, rfl⟩ := Option.map_eq_some_iff.1 hnext
    rcases (advanceDecision_eq_some hadvance).1 with hsame | ⟨loaded, values, next, hphase, hother⟩
    · exact congrFun hsame d
    · -- the section that is saved is pending
      refine hother d ?_
      rintro rfl
      have hok := h.decisions i
      rw [hphase] at hok
      exact hne (hok.1 ▸ hok.2.1)

/-- **Decided sections stay**, over whole runs. -/
theorem Exclusive.sections_run (h : Exclusive departments maxIterations calls s)
    {G : Desk δ σ ι → Turn σ ι → Prop} (hG : ∀ s turn, G s turn → OneAtATime calls s turn)
    (hrun : (desk departments currency maxIterations calls).Run G s s') {d : δ}
    (hne : (s.tables.sections d).approvalStatus ≠ .pending) :
    s'.tables.sections d = s.tables.sections d := by
  have key := hrun.invariant
    (fun s' => Exclusive departments maxIterations calls s' ∧
      s'.tables.sections d = s.tables.sections d) ⟨h, rfl⟩ ?_
  · exact key.2
  · rintro s₁ turn s₂ ⟨hexclusive, hsame⟩ hg hnext
    refine ⟨hexclusive.next (hG _ _ hg) hnext, ?_⟩
    exact (hexclusive.sections_next hnext (hsame ▸ hne)).trans hsame

omit [DecidableEq δ] [DecidableEq σ] [DecidableEq ι] in
/-- The texts of a document are the drafts of ended threads. -/
theorem Exclusive.texts (h : Exclusive departments maxIterations calls s)
    {document : FinalDocument δ} (hmem : document ∈ s.tables.documents) :
    document.sections.map Prod.fst = departments ∧
      ∀ p ∈ document.sections, p.2 = (s.tables.sections p.1).text ∧
        ∃ thread, s.tables.threads p.1 = some thread ∧ thread.values.outcome = some .approved ∧
          thread.values.draft = p.2 := by
  obtain ⟨hsections, hall⟩ := h.documented document hmem
  rw [hsections]
  refine ⟨by simp [Function.comp_def], fun p hp => ?_⟩
  obtain ⟨d, hd, rfl⟩ := List.mem_map.1 hp
  refine ⟨rfl, ?_⟩
  have happroved := hall d hd
  have hne : (s.tables.sections d).approvalStatus ≠ .pending := by
    rw [happroved]
    decide
  obtain ⟨thread, outcome, hthread, hends, hdraft, hstatus⟩ := h.ended hne
  have houtcome : outcome = .approved := by
    rw [happroved] at hstatus
    cases outcome <;> first | rfl | cases hstatus
  exact ⟨thread, hthread, houtcome ▸ hends, hdraft⟩

/-- **One decision per pause.**  In every run that takes one decision at a time, a pause is resumed
once, a section that is approved or rejected keeps its status and its draft, and the document has
the drafts that were approved. -/
theorem one_decision_per_pause (hstart : Unstarted start)
    (h : (desk departments currency maxIterations calls).Run (OneAtATime calls) start s) :
    OneDecisionPerPause departments currency maxIterations calls (OneAtATime calls) s := by
  have hexclusive : Exclusive departments maxIterations calls s :=
    h.invariant _ hstart.exclusive fun _ _ _ hI hg hnext => hI.next hg hnext
  refine ⟨hexclusive.numbered.nodup, fun s' hrun d hdecided => ?_, fun document hmem =>
    hexclusive.texts hmem⟩
  have hne : (s.tables.sections d).approvalStatus ≠ .pending := by
    rcases hdecided with hd | hd <;> rw [hd] <;> decide
  have hsame := hexclusive.sections_run (fun _ _ => id) hrun hne
  exact ⟨congrArg _ hsame, congrArg _ hsame⟩

/-- While no start overwrites it, the status is done once a document exists, or the call that has
written the document is about to set it. -/
structure StatusFollows (s : Desk δ σ ι) : Prop where
  done : s.tables.documents ≠ [] → s.tables.status = .done ∨ ∃ i, s.decisions i = .documented

theorem StatusFollows.next (h : StatusFollows s) (hstatus : StatusInTurn s turn)
    (hnext : (desk departments currency maxIterations calls).next s turn = some s') :
    StatusFollows s' := by
  constructor
  cases turn with
  | start i =>
    obtain ⟨⟨t, phase⟩, hadvance, rfl⟩ := Option.map_eq_some_iff.1 hnext
    obtain ⟨-, hdocuments, hkeeps⟩ := advanceStart_eq_some hadvance
    intro hne
    rcases h.done (hdocuments ▸ hne) with hdone | hcall
    · rcases hkeeps with hsame | hwaiting
      · exact .inl (hsame.trans hdone)
      · simp only [StatusInTurn, hwaiting] at hstatus
        rw [hstatus] at hdone
        cases hdone
    · exact .inr hcall
  | decide i redraft =>
    obtain ⟨⟨t, phase⟩, hadvance, rfl⟩ := Option.map_eq_some_iff.1 hnext
    obtain ⟨-, -, hdocuments, hkeeps⟩ := advanceDecision_eq_some hadvance
    intro hne
    dsimp only at hne ⊢
    rcases hdocuments with hsame | hwritten
    · rcases hkeeps with ⟨hstatus', hother⟩ | hdone
      · rcases h.done (hsame ▸ hne) with hdone | ⟨j, hj⟩
        · exact .inl (hstatus'.trans hdone)
        · -- another call has written the document
          have hji : j ≠ i := fun he => hother (he ▸ hj)
          exact .inr ⟨j, (Function.update_of_ne hji _ _).trans hj⟩
      · exact .inl hdone
    · exact .inr ⟨i, (Function.update_self ..).trans hwritten⟩

/-- A ticket that is done stays so. -/
theorem done_next (hdone : s.tables.status = .done) (hstatus : StatusInTurn s turn)
    (hnext : (desk departments currency maxIterations calls).next s turn = some s') :
    s'.tables.status = .done := by
  cases turn with
  | start i =>
    obtain ⟨⟨t, phase⟩, hadvance, rfl⟩ := Option.map_eq_some_iff.1 hnext
    rcases (advanceStart_eq_some hadvance).2.2 with hsame | hwaiting
    · exact hsame.trans hdone
    · simp only [StatusInTurn, hwaiting] at hstatus
      rw [hstatus] at hdone
      cases hdone
  | decide i redraft =>
    obtain ⟨⟨t, phase⟩, hadvance, rfl⟩ := Option.map_eq_some_iff.1 hnext
    rcases (advanceDecision_eq_some hadvance).2.2.2 with ⟨hsame, -⟩ | hdone'
    · exact hsame.trans hdone
    · exact hdone'

/-- **Document and status agree.**  In every run that takes one decision at a time, and whose
starts write the status only while it is the one that they have read, there is one document at most
and only with all sections approved, and a ticket with a document is done once the calls in flight
have finished, for ever. -/
theorem document_agrees (hstart : Unstarted start)
    (h : (desk departments currency maxIterations calls).Run
      (fun s turn => OneAtATime calls s turn ∧ StatusInTurn s turn) start s) :
    DocumentAgrees departments currency maxIterations calls
      (fun s turn => OneAtATime calls s turn ∧ StatusInTurn s turn) s := by
  obtain ⟨hexclusive, hfollows⟩ := h.invariant
    (fun s => Exclusive departments maxIterations calls s ∧ StatusFollows s)
    ⟨hstart.exclusive, ⟨fun hne => (hne hstart.documents).elim⟩⟩
    fun _ _ _ hI hg hnext => ⟨hI.1.next hg.1 hnext, hI.2.next hg.2 hnext⟩
  refine ⟨fun hne d hd => ?_, hexclusive.one, fun hne hquiet s' hrun => ?_⟩
  · obtain ⟨document, hmem⟩ := List.exists_mem_of_ne_nil _ hne
    exact (hexclusive.documented document hmem).2 d hd
  · have hdone : s.tables.status = .done := by
      refine (hfollows.done hne).resolve_right fun ⟨i, hi⟩ => ?_
      have hidle := hquiet.2 i
      rw [hi] at hidle
      exact hidle
    exact hrun.invariant (fun s => s.tables.status = .done) hdone
      fun _ _ _ hI hg hnext => done_next hI hg.2 hnext

end

/-! ## One department -/

/-- A ticket whose warehouse section has a draft. -/
def warehouseTicket (ι : Type) : Desk Department Unit ι where
  tables :=
    { status := .underEvaluation
      sections := fun _ => ⟨some "draft 1", none, 1, .pending, none⟩
      documents := []
      threads := fun _ => none
      checkpoints := 0
      resumed := [] }
  starts := fun _ => .ready
  decisions := fun _ => .ready

theorem unstarted_warehouseTicket (ι : Type) : Unstarted (warehouseTicket ι) :=
  ⟨fun _ => rfl, fun _ => rfl, rfl, rfl, fun _ => rfl, fun _ => rfl⟩

/-- `false` asks for changes, `true` approves. -/
def warehouseCalls (approves : Bool) : DecisionCall Department :=
  ⟨.warehouse, if approves then .approve else .requestChanges, "owner"⟩

/-- What the generator returns. -/
def secondDraft : Option (String × Evaluation) := some ("draft 2", ⟨true, []⟩)

/-- The start, from its first read to its last. -/
def openWarehouse {ι : Type} : List (Turn Unit ι) := List.replicate 3 (.start ())

/-- A number of steps of one decision. -/
def decideSteps (n : ℕ) (call : Bool) : List (Turn Unit Bool) :=
  List.replicate n (.decide call secondDraft)

/-- The approval machine of the ticket. -/
abbrev warehouseDesk : Machine (Desk Department Unit Bool) (Turn Unit Bool) :=
  desk [.warehouse] (some .usd) 2 warehouseCalls

/-- The start reads `under_evaluation`, the section is approved and the proposal is finalized, and
the start writes `waiting_for_approval`. -/
theorem start_overwrites_done :
    ¬∀ s, warehouseDesk.Reachable (warehouseTicket Bool) s →
      DocumentAgrees [.warehouse] (some .usd) 2 warehouseCalls (fun _ _ => True) s := by
  intro hall
  obtain ⟨s, hreach, hs⟩ := warehouseDesk.exists_reachable (warehouseTicket Bool)
    (openWarehouse ++ decideSteps 11 true ++ [.start ()])
    (fun s => s.tables.documents ≠ [] ∧ s.starts () = .finished ∧
      (∀ i, (s.decisions i).IsIdle) ∧ s.tables.status = .waitingForApproval) (by decide)
  obtain ⟨hdocument, hstarts, hdecisions, hstatus⟩ := of_decide_eq_true hs
  have hdone := (hall s hreach).2.2 hdocument ⟨fun _ => .inr hstarts, hdecisions⟩ s .refl
  rw [hstatus] at hdone
  cases hdone

/-- Changes are asked for and drafted; before they are saved, the new draft is approved with the
old text; then the new text is saved. -/
theorem late_save_changes_draft :
    ¬∀ s, warehouseDesk.Reachable (warehouseTicket Bool) s →
      OneDecisionPerPause [.warehouse] (some .usd) 2 warehouseCalls (fun _ _ => True) s := by
  intro hall
  obtain ⟨s, hreach, hs⟩ := warehouseDesk.exists_reachable (warehouseTicket Bool)
    (openWarehouse ++ [.start ()] ++ decideSteps 6 false ++ decideSteps 11 true)
    (fun s => (s.tables.sections .warehouse).approvalStatus = .approved ∧
      (s.tables.sections .warehouse).draftContent = some "draft 1" ∧
      (warehouseDesk.next s (.decide false none)).any fun s' =>
        (s'.tables.sections .warehouse).draftContent = some "draft 2") (by decide)
  obtain ⟨happroved, hbefore, hnext⟩ := of_decide_eq_true hs
  obtain ⟨s', hnext, hafter⟩ := (Option.any_eq_true _ _).1 hnext
  have hsame := ((hall s hreach).2.1 s' (.tail .refl trivial hnext) .warehouse (.inl happroved)).2
  rw [hbefore, of_decide_eq_true hafter] at hsame
  exact absurd hsame (by decide)

theorem document_agrees_after_changes :
    ∃ s, s.tables.documents.length = 1 ∧ s.tables.status = .done ∧
      DocumentAgrees [.warehouse] (some .usd) 2 warehouseCalls
        (fun s turn => OneAtATime warehouseCalls s turn ∧ StatusInTurn s turn)
        (s : Desk Department Unit Bool) := by
  obtain ⟨s, hrun, hs⟩ := warehouseDesk.exists_run
    (fun s turn => decide (OneAtATime warehouseCalls s turn ∧ StatusInTurn s turn))
    (warehouseTicket Bool)
    (openWarehouse ++ [.start ()] ++ decideSteps 8 false ++ decideSteps 11 true)
    (fun s => s.tables.documents.length = 1 ∧ s.tables.status = .done) (by decide)
  obtain ⟨hdocuments, hstatus⟩ := of_decide_eq_true hs
  exact ⟨s, hdocuments, hstatus, document_agrees (unstarted_warehouseTicket Bool)
    (hrun.mono fun _ _ => of_decide_eq_true)⟩

theorem one_decision_per_pause_after_changes :
    ∃ s, s.tables.resumed.length = 2 ∧ s.tables.documents.length = 1 ∧
      OneDecisionPerPause [.warehouse] (some .usd) 2 warehouseCalls (OneAtATime warehouseCalls)
        (s : Desk Department Unit Bool) := by
  obtain ⟨s, hrun, hs⟩ := warehouseDesk.exists_run
    (fun s turn => decide (OneAtATime warehouseCalls s turn)) (warehouseTicket Bool)
    (openWarehouse ++ [.start ()] ++ decideSteps 8 false ++ decideSteps 11 true)
    (fun s => s.tables.resumed.length = 2 ∧ s.tables.documents.length = 1) (by decide)
  obtain ⟨hresumed, hdocuments⟩ := of_decide_eq_true hs
  exact ⟨s, hresumed, hdocuments, one_decision_per_pause (unstarted_warehouseTicket Bool)
    (hrun.mono fun _ _ => of_decide_eq_true)⟩

end Rfp

end TrackFlow
