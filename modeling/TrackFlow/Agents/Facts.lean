import TrackFlow.Agents.MemorySession

/-!
# Facts and their versions

Approvals of one natural key run one after the other, because each takes the advisory lock of the
key before it looks for the fact.

* `Consolidated` : what the fact tables of every committed state satisfy.
* `FactPlan` : what a session that is about to commit an approval knows.
* `factAssertion` : every session knows what its writes need, whatever the others commit.
* `memory_fact_versions` : **facts and versions in every committed state.**
-/

namespace TrackFlow

namespace Agents

open RowLock

/-- `agent_memory_versions` of one fact, oldest first. -/
def Db.versionsOf (db : Db) (factId : String) : List Version :=
  db.versions.filter fun v => v.factId = factId

/-- What the fact tables of every committed state satisfy. -/
structure Consolidated (db : Db) : Prop where
  /-- A natural key has one fact at most. -/
  keys : (db.facts.map fun f => f.values.key).Nodup
  ids : (db.facts.map Fact.id).Nodup
  confirmed : ∀ f ∈ db.facts, f.confirmationCount = f.version
  /-- The version rows are numbered `1..n`, where `n` is the version of the fact. -/
  numbered : ∀ f ∈ db.facts,
    (db.versionsOf f.id).map Version.version = List.range' 1 f.version
  newest : ∀ f ∈ db.facts, ∃ v ∈ db.versionsOf f.id, v.version = f.version ∧ v.values = f.values
  /-- `agent_memory_versions.fact_id` is a foreign key. -/
  owned : ∀ v ∈ db.versions, ∃ f ∈ db.facts, f.id = v.factId

theorem Consolidated.empty : Consolidated Db.empty where
  keys := List.nodup_nil
  ids := List.nodup_nil
  confirmed _ hf := (List.not_mem_nil hf).elim
  numbered _ hf := (List.not_mem_nil hf).elim
  newest _ hf := (List.not_mem_nil hf).elim
  owned _ hv := (List.not_mem_nil hv).elim

section

variable {db db' : Db} {f : Fact} {v : Version}

theorem Consolidated.congr (h : Consolidated db) (hfacts : db'.facts = db.facts)
    (hversions : db'.versions = db.versions) : Consolidated db' := by
  obtain ⟨keys, ids, confirmed, numbered, newest, owned⟩ := h
  simp only [Db.versionsOf] at numbered newest
  constructor <;> simpa only [hfacts, hversions, Db.versionsOf]

/-- The version rows after one more. -/
theorem versionsOf_append (hversions : db'.versions = db.versions ++ [v]) (factId : String) :
    db'.versionsOf factId =
      if v.factId = factId then db.versionsOf factId ++ [v] else db.versionsOf factId := by
  unfold Db.versionsOf
  rw [hversions, List.filter_append]
  split_ifs with h
  · rw [List.filter_cons_of_pos (by simp [h]), List.filter_nil]
  · rw [List.filter_cons_of_neg (by simp [h]), List.filter_nil, List.append_nil]

/-- A new fact with its first version. -/
theorem Consolidated.create (h : Consolidated db) (hfacts : db'.facts = db.facts ++ [f])
    (hversions : db'.versions = db.versions ++ [v])
    (hkey : ∀ g ∈ db.facts, g.values.key ≠ f.values.key) (hid : ∀ g ∈ db.facts, g.id ≠ f.id)
    (hcount : f.confirmationCount = 1) (hversion : f.version = 1) (hfact : v.factId = f.id)
    (hfirst : v.version = 1) (hvalues : v.values = f.values) : Consolidated db' := by
  have hnodup {κ : Type} (key : Fact → κ) (hn : (db.facts.map key).Nodup)
      (hfresh : ∀ g ∈ db.facts, key g ≠ key f) : (db'.facts.map key).Nodup := by
    rw [hfacts, List.map_append]
    refine hn.append (List.nodup_singleton _) fun k hk hk' => ?_
    obtain ⟨g, hg, rfl⟩ := List.mem_map.1 hk
    exact hfresh g hg (List.mem_singleton.1 hk')
  -- the identifier is new, so no version row has it
  have hnone : db.versionsOf f.id = [] := by
    refine List.filter_eq_nil_iff.2 fun w hw => ?_
    obtain ⟨g, hg, hgw⟩ := h.owned w hw
    simpa [← hgw] using hid g hg
  have hnew : db'.versionsOf f.id = [v] := by
    rw [versionsOf_append hversions, if_pos hfact, hnone, List.nil_append]
  have hold {g : Fact} (hg : g ∈ db.facts) : db'.versionsOf g.id = db.versionsOf g.id := by
    rw [versionsOf_append hversions, if_neg]
    exact fun he => hid g hg (he.symm.trans hfact)
  refine ⟨hnodup _ h.keys hkey, hnodup _ h.ids hid, ?_, ?_, ?_, ?_⟩
  · intro g hg
    rcases List.mem_append.1 (hfacts ▸ hg) with hg | hg
    · exact h.confirmed g hg
    · rw [List.mem_singleton.1 hg, hcount, hversion]
  · intro g hg
    rcases List.mem_append.1 (hfacts ▸ hg) with hg | hg
    · rw [hold hg]
      exact h.numbered g hg
    · rw [List.mem_singleton.1 hg, hnew, hversion, List.map_singleton, hfirst]
      rfl
  · intro g hg
    rcases List.mem_append.1 (hfacts ▸ hg) with hg | hg
    · rw [hold hg]
      exact h.newest g hg
    · rw [List.mem_singleton.1 hg, hnew]
      exact ⟨v, List.mem_singleton_self v, hfirst.trans hversion.symm, hvalues⟩
  · intro w hw
    rw [hfacts]
    rcases List.mem_append.1 (hversions ▸ hw) with hw | hw
    · obtain ⟨g, hg, hgw⟩ := h.owned w hw
      exact ⟨g, List.mem_append_left _ hg, hgw⟩
    · rw [List.mem_singleton.1 hw]
      exact ⟨f, List.mem_append_right _ (List.mem_singleton_self f), hfact.symm⟩

/-- A fact that is confirmed, with its next version. -/
theorem Consolidated.confirm (h : Consolidated db) (hf : f ∈ db.facts) {f' : Fact}
    (hfacts : db'.facts = db.facts.map fun g => if g.id = f.id then f' else g)
    (hversions : db'.versions = db.versions ++ [v]) (hid : f'.id = f.id)
    (hkey : f'.values.key = f.values.key) (hcount : f'.confirmationCount = f.confirmationCount + 1)
    (hversion : f'.version = f.version + 1) (hfact : v.factId = f.id)
    (hnext : v.version = f'.version) (hvalues : v.values = f'.values) : Consolidated db' := by
  have hkeep {κ : Type} (key : Fact → κ) (hsame : key f' = key f) :
      db'.facts.map key = db.facts.map key := by
    rw [hfacts, List.map_map]
    refine List.map_congr_left fun g hg => ?_
    by_cases hgf : g.id = f.id
    · have he : g = f := List.inj_on_of_nodup_map h.ids hg hf hgf
      simp [he, hsame]
    · simp [hgf]
  have hcases {g : Fact} (hg : g ∈ db'.facts) : g = f' ∨ g ∈ db.facts ∧ g.id ≠ f.id := by
    rw [hfacts] at hg
    obtain ⟨g₀, hg₀, rfl⟩ := List.mem_map.1 hg
    split_ifs with hgf
    · exact .inl rfl
    · exact .inr ⟨hg₀, hgf⟩
  have hnew : db'.versionsOf f'.id = db.versionsOf f.id ++ [v] := by
    rw [hid, versionsOf_append hversions, if_pos hfact]
  have hold {g : Fact} (hg : g.id ≠ f.id) : db'.versionsOf g.id = db.versionsOf g.id := by
    rw [versionsOf_append hversions, if_neg]
    exact fun he => hg (he.symm.trans hfact)
  refine ⟨(hkeep (fun g => g.values.key) hkey).symm ▸ h.keys, (hkeep _ hid).symm ▸ h.ids,
    ?_, ?_, ?_, ?_⟩
  · intro g hg
    rcases hcases hg with rfl | ⟨hg, -⟩
    · rw [hcount, hversion, h.confirmed f hf]
    · exact h.confirmed g hg
  · intro g hg
    rcases hcases hg with rfl | ⟨hg, hne⟩
    · rw [hnew, List.map_append, h.numbered f hf, List.map_singleton, hnext, hversion,
        List.range'_concat, Nat.one_mul, Nat.add_comm]
    · rw [hold hne]
      exact h.numbered g hg
  · intro g hg
    rcases hcases hg with rfl | ⟨hg, hne⟩
    · rw [hnew]
      exact ⟨v, List.mem_append_right _ (List.mem_singleton_self v), hnext, hvalues⟩
    · rw [hold hne]
      exact h.newest g hg
  · intro w hw
    have hpresent {g : Fact} (hg : g ∈ db.facts) : ∃ g' ∈ db'.facts, g'.id = g.id := by
      have hmem : g.id ∈ db'.facts.map Fact.id := by
        rw [hkeep Fact.id hid]
        exact List.mem_map_of_mem hg
      exact List.mem_map.1 hmem
    rcases List.mem_append.1 (hversions ▸ hw) with hw | hw
    · obtain ⟨g, hg, hgw⟩ := h.owned w hw
      obtain ⟨g', hg', he⟩ := hpresent hg
      exact ⟨g', hg', he.trans hgw⟩
    · rw [List.mem_singleton.1 hw]
      obtain ⟨g', hg', he⟩ := hpresent hf
      exact ⟨g', hg', he.trans hfact.symm⟩

end

/-! ## What an approval knows -/

section

variable (P : MemoryPrimitives)

/-- The locks under which the fact tables are written. -/
def factGuard : Write → List RowKey
  | .insertFact f => [.fact f.id, consolidationKey P f.values.key]
  | .setFact factId _ _ _ => [.fact factId]
  | .insertVersion v => [.fact v.factId]
  | _ => []

/-- What a session knows that executes the writes of a list, those in `done` first. -/
inductive FactPlan (held : RowKey → Prop) (db : Db) (done : List Write) : List Write → Prop
  /-- It writes no fact. -/
  | other (plan : List Write) (quiet : ∀ w ∈ plan, factGuard P w = []) : FactPlan held db done plan
  /-- It holds the lock of a natural key that has no fact, and will insert one. -/
  | create (call : DecisionCall) (values : CandidateValues) (id : String) (audit : Decision)
      (locked : held (consolidationKey P values.key))
      (absent : ∀ g ∈ db.facts, g.values.key ≠ values.key)
      (inserted : done ≠ [] → held (.fact id) ∧ ∀ g ∈ db.facts, g.id ≠ id) :
      FactPlan held db done [.insertFact (newFact values id),
        .setStatus call.proposalId .approved, .insertVersion (call.version id 1 values),
        .insertDecision audit]
  /-- It holds the row of a fact, and will confirm it. -/
  | confirm (call : DecisionCall) (values : CandidateValues) (f : Fact) (audit : Decision)
      (locked : held (.fact f.id)) (found : f ∈ db.facts) (key : f.values.key = values.key) :
      FactPlan held db done
        [.setFact f.id values (f.confirmationCount + 1) (f.version + 1),
          .setStatus call.proposalId .approved,
          .insertVersion (call.version f.id (f.version + 1) values), .insertDecision audit]

/-- The assertion about a session. -/
def FactsOk (loc : Loc) (ws : List Write) (held : RowKey → Prop) (db : Db) : Prop :=
  match loc with
  | .consolidating _ _ values => ws = [] ∧ held (consolidationKey P values.key)
  | .flushing _ _ done todo => ws = done ∧ FactPlan P held db done (done ++ todo)
  | _ => ws = []

end

section

variable {P : MemoryPrimitives} {held held' : RowKey → Prop} {db : Db} {ws done plan : List Write}
  {w : Write} {f : Fact}

@[simp] theorem installAll_nil (db : Db) : (protocol P).installAll db [] = db := rfl

@[simp] theorem installAll_cons (db : Db) (w : Write) (ws : List Write) :
    (protocol P).installAll db (w :: ws) = (protocol P).installAll (w.install db) ws := rfl

/-- A fact after some writes was there before, or is inserted by one of them. -/
theorem mem_facts_installAll (h : f ∈ ((protocol P).installAll db ws).facts) :
    (∃ g ∈ db.facts, g.id = f.id ∧ g.values.key = f.values.key) ∨
      ∃ g, .insertFact g ∈ ws ∧ g.id = f.id ∧ g.values.key = f.values.key := by
  induction ws generalizing db with
  | nil => exact .inl ⟨f, h, rfl, rfl⟩
  | cons w ws ih =>
    rw [installAll_cons] at h
    rcases ih h with ⟨g, hg, hid, hkey⟩ | ⟨g, hg, hid, hkey⟩
    · cases w with
      | insertFact f' =>
        rcases List.mem_append.1 hg with hg | hg
        · exact .inl ⟨g, hg, hid, hkey⟩
        · refine .inr ⟨g, ?_, hid, hkey⟩
          rw [List.mem_singleton.1 hg]
          exact List.mem_cons_self
      | setFact factId values confirmationCount version =>
        obtain ⟨g₀, hg₀, rfl⟩ := List.mem_map.1 hg
        refine .inl ⟨g₀, hg₀, ?_, ?_⟩
        · rw [← hid]
          split_ifs <;> rfl
        · rw [← hkey]
          split_ifs <;> rfl
      | _ => exact .inl ⟨g, hg, hid, hkey⟩
    · exact .inr ⟨g, List.mem_cons_of_mem _ hg, hid, hkey⟩

/-- A fact whose row nobody writes stays as it is. -/
theorem mem_facts_installAll_of_notMem (hf : f ∈ db.facts)
    (h : ∀ w ∈ ws, RowKey.fact f.id ∉ factGuard P w) :
    f ∈ ((protocol P).installAll db ws).facts := by
  induction ws generalizing db with
  | nil => exact hf
  | cons w ws ih =>
    rw [installAll_cons]
    refine ih ?_ fun w' hw' => h w' (List.mem_cons_of_mem _ hw')
    have hw := h w List.mem_cons_self
    cases w with
    | insertFact f' => exact List.mem_append_left _ hf
    | setFact factId values confirmationCount version =>
      have hne : f.id ≠ factId := by
        rintro rfl
        exact hw List.mem_cons_self
      exact List.mem_map.2 ⟨f, hf, if_neg hne⟩
    | _ => exact hf

theorem FactPlan.mono (h : FactPlan P held db done plan) (hheld : ∀ k, held k → held' k) :
    FactPlan P held' db done plan := by
  cases h with
  | other plan quiet => exact .other plan quiet
  | create call values id audit locked absent inserted =>
    refine .create call values id audit (hheld _ locked) absent fun hdone => ?_
    exact ⟨hheld _ (inserted hdone).1, (inserted hdone).2⟩
  | confirm call values f audit locked found key =>
    exact .confirm call values f audit (hheld _ locked) found key

/-- The executed writes are guarded. -/
theorem FactPlan.guarded (h : FactPlan P held db done plan) (hsub : ∀ w ∈ done, w ∈ plan) :
    ∀ w ∈ done, ∀ k ∈ factGuard P w, held k := by
  intro w hw k hk
  have hplan := hsub w hw
  cases h with
  | other plan quiet =>
    rw [quiet w hplan] at hk
    exact (List.not_mem_nil hk).elim
  | create call values id audit locked absent inserted =>
    obtain ⟨hid, -⟩ := inserted (List.ne_nil_of_mem hw)
    simp only [List.mem_cons, List.not_mem_nil, or_false] at hplan
    rcases hplan with rfl | rfl | rfl | rfl
    · simp only [factGuard, List.mem_cons, List.not_mem_nil, or_false] at hk
      rcases hk with rfl | rfl
      · exact hid
      · exact locked
    · exact (List.not_mem_nil hk).elim
    · rw [List.mem_singleton.1 hk]
      exact hid
    · exact (List.not_mem_nil hk).elim
  | confirm call values f audit locked found key =>
    simp only [List.mem_cons, List.not_mem_nil, or_false] at hplan
    rcases hplan with rfl | rfl | rfl | rfl
    · rw [List.mem_singleton.1 hk]
      exact locked
    · exact (List.not_mem_nil hk).elim
    · rw [List.mem_singleton.1 hk]
      exact locked
    · exact (List.not_mem_nil hk).elim

/-- The next write is executed. -/
theorem FactPlan.push {todo : List Write} (h : FactPlan P held db done (done ++ w :: todo))
    (hfree : w.conflicts ((protocol P).installAll db done) = false) :
    FactPlan P (fun k => held k ∨ k ∈ w.locks) db (done ++ [w]) (done ++ [w] ++ todo) := by
  rw [List.append_assoc, List.singleton_append]
  generalize hplan : done ++ w :: todo = plan at h
  cases h with
  | other plan quiet => exact .other plan quiet
  | create call values id audit locked absent inserted =>
    refine .create call values id audit (.inl locked) absent fun _ => ?_
    by_cases hdone : done = []
    · -- the first write is the new fact, and no row has its identifier
      subst hdone
      cases List.head_eq_of_cons_eq hplan
      refine ⟨.inr List.mem_cons_self, fun g hg he => ?_⟩
      have hno := List.any_eq_false.1 hfree g hg
      simp [newFact, he] at hno
    · obtain ⟨hid, hfresh⟩ := inserted hdone
      exact ⟨.inl hid, hfresh⟩
  | confirm call values f audit locked found key =>
    exact .confirm call values f audit (.inl locked) found key

/-- What others commit. -/
theorem FactPlan.stable (h : FactPlan P held db done plan)
    (hfree : ∀ w ∈ ws, ∀ k ∈ factGuard P w, ¬held k) :
    FactPlan P held ((protocol P).installAll db ws) done plan := by
  cases h with
  | other plan quiet => exact .other plan quiet
  | create call values id audit locked absent inserted =>
    refine .create call values id audit locked (fun g hg he => ?_) fun hdone => ?_
    · rcases mem_facts_installAll hg with ⟨g₀, hg₀, -, hkey⟩ | ⟨g₀, hg₀, -, hkey⟩
      · exact absent g₀ hg₀ (hkey.trans he)
      · refine hfree _ hg₀ (consolidationKey P g₀.values.key) ?_ (hkey.trans he ▸ locked)
        exact List.mem_cons_of_mem _ List.mem_cons_self
    · obtain ⟨hid, hfresh⟩ := inserted hdone
      refine ⟨hid, fun g hg he => ?_⟩
      rcases mem_facts_installAll hg with ⟨g₀, hg₀, hgid, -⟩ | ⟨g₀, hg₀, hgid, -⟩
      · exact hfresh g₀ hg₀ (hgid.trans he)
      · exact hfree _ hg₀ (.fact g₀.id) List.mem_cons_self (hgid.trans he ▸ hid)
  | confirm call values f audit locked found key =>
    refine .confirm call values f audit locked ?_ key
    exact mem_facts_installAll_of_notMem found fun w hw hk => hfree w hw _ hk locked

/-- **The commit of an approval.** -/
theorem FactPlan.commit (h : FactPlan P held db plan plan) (hdb : Consolidated db) :
    Consolidated ((protocol P).installAll db plan) := by
  cases h with
  | other plan quiet =>
    have hquiet : ((protocol P).installAll db plan).facts = db.facts ∧
        ((protocol P).installAll db plan).versions = db.versions := by
      clear hdb
      induction plan generalizing db with
      | nil => exact ⟨rfl, rfl⟩
      | cons w ws ih =>
        have hrest : ((protocol P).installAll (w.install db) ws).facts = (w.install db).facts ∧
            ((protocol P).installAll (w.install db) ws).versions = (w.install db).versions :=
          ih fun w' hw' => quiet w' (List.mem_cons_of_mem _ hw')
        have hw := quiet w List.mem_cons_self
        rw [installAll_cons, hrest.1, hrest.2]
        cases w with
        | insertFact f => cases hw
        | setFact factId values confirmationCount version => cases hw
        | insertVersion v => cases hw
        | _ => exact ⟨rfl, rfl⟩
    exact hdb.congr hquiet.1 hquiet.2
  | create call values id audit locked absent inserted =>
    obtain ⟨-, hfresh⟩ := inserted (List.cons_ne_nil _ _)
    exact hdb.create rfl rfl absent hfresh rfl rfl rfl rfl rfl
  | confirm call values f audit locked found key =>
    have hsame : { values with key := f.values.key } = values := by rw [key]
    let f' : Fact :=
      { f with
        values
        confirmationCount := f.confirmationCount + 1
        version := f.version + 1
        active := true }
    have hfacts : ((protocol P).installAll db [.setFact f.id values (f.confirmationCount + 1)
        (f.version + 1), .setStatus call.proposalId .approved,
        .insertVersion (call.version f.id (f.version + 1) values), .insertDecision audit]).facts =
        db.facts.map fun g => if g.id = f.id then f' else g := by
      refine List.map_congr_left fun g hg => ?_
      by_cases hgf : g.id = f.id
      · rw [if_pos hgf, if_pos hgf, List.inj_on_of_nodup_map hdb.ids hg found hgf, hsame]
      · rw [if_neg hgf, if_neg hgf]
    have hkey : f'.values.key = f.values.key := key.symm
    exact hdb.confirm found hfacts rfl rfl hkey rfl rfl rfl rfl rfl

end

/-! ## Runs -/

section

variable {P : MemoryPrimitives} {held : RowKey → Prop} {db : Db} {ws : List Write}

theorem FactsOk.leave {loc : Loc} (h : loc.IsQuiet) : FactsOk P loc [] held db := by
  cases loc with
  | idle reply => rfl
  | conflicted operation => rfl
  | _ => exact h.elim

/-- Every session knows what its writes to the fact tables need, whatever the others commit. -/
def factAssertion (P : MemoryPrimitives) :
    Assertion (protocol P) (factGuard P) (fun _ _ _ => True) where
  holds := FactsOk P
  guarded {loc ws held db} h := by
    cases loc with
    | flushing operation reply done todo =>
      obtain ⟨rfl, hplan⟩ := h
      exact hplan.guarded fun w hw => List.mem_append_left _ hw
    | consolidating call p values =>
      obtain ⟨rfl, -⟩ := h
      exact fun w hw => (List.not_mem_nil hw).elim
    | _ =>
      cases (show ws = [] from h)
      exact fun w hw => (List.not_mem_nil hw).elim
  step {loc ws held db c busy o} h _ he := by
    cases Statement.of_exec he with
    | leave _ loc' quiet =>
      show FactsOk P loc' [] (fun _ => False) db
      exact FactsOk.leave quiet
    | commit operation reply done => rfl
    | write operation reply done todo w free =>
      obtain ⟨rfl, hplan⟩ := h
      exact ⟨rfl, hplan.push free⟩
    | propose before reply conversationId values traceId id =>
      cases (show ws = [] from h)
      exact ⟨rfl, .other _ fun w hw => by rw [List.mem_singleton.1 hw]; rfl⟩
    | discard before conversationId p found =>
      cases (show ws = [] from h)
      exact ⟨rfl, .other _ fun w hw => by rw [List.mem_singleton.1 hw]; rfl⟩
    | start before call => exact (List.append_nil ws).trans h
    | lock call p found => exact (List.append_nil ws).trans h
    | edit call p edited pending =>
      cases (show ws = [] from h)
      refine ⟨rfl, .other _ fun w hw => ?_⟩
      simp only [List.nil_append, List.cons_append, List.mem_cons, List.not_mem_nil,
        or_false] at hw
      rcases hw with rfl | rfl <;> rfl
    | reject call p pending =>
      cases (show ws = [] from h)
      refine ⟨rfl, .other _ fun w hw => ?_⟩
      simp only [List.nil_append, List.cons_append, List.mem_cons, List.not_mem_nil,
        or_false] at hw
      rcases hw with rfl | rfl <;> rfl
    | approve call p pending => exact (List.append_nil ws).trans h
    | consolidate call p values =>
      cases (show ws = [] from h)
      exact ⟨rfl, .inr (List.mem_singleton_self _)⟩
    | create call p values id absent =>
      obtain ⟨rfl, hlock⟩ := h
      refine ⟨rfl, .create call values id _ (.inl hlock) (fun g hg => ?_) fun hne => (hne rfl).elim⟩
      simpa using List.find?_eq_none.1 absent g hg
    | confirm call p values fact found =>
      obtain ⟨rfl, -⟩ := h
      have hkey : fact.values.key = values.key := by simpa using List.find?_some found
      exact ⟨rfl, .confirm call values fact _ (.inr (List.mem_singleton_self _))
        (List.mem_of_find?_eq_some found) hkey⟩
  stable {loc ws held db ws'} h hfree := by
    cases loc with
    | flushing operation reply done todo => exact ⟨h.1, h.2.stable hfree⟩
    | consolidating call p values => exact h
    | _ => exact h

variable {ι : Type} [DecidableEq ι] {s₀ s : State ι Db RowKey Write Loc}

/-- **What one step preserves.** -/
theorem consolidated_next {s' : State ι Db RowKey Write Loc} {i : ι} {c : Choice}
    (hA : (factAssertion P).All s) (hdb : Consolidated s.db)
    (h : (protocol P).next s (i, c) = some s') : Consolidated s'.db := by
  rcases Protocol.db_next h with hsame | ⟨a, he, hview, -⟩
  · rwa [hsame]
  · have hi := hA i
    rw [hview, Protocol.view]
    generalize (s.session i).loc = loc at he hi
    cases Statement.of_exec he with
    | commit operation reply done =>
      obtain ⟨hws, hplan⟩ := hi
      rw [List.append_nil] at hplan
      rw [hws]
      exact hplan.commit hdb

/-- The versions of the facts in every committed state: any number of sessions, any order. -/
theorem consolidated_reachable {db₀ : Db} {loc : ι → Loc} (hloc : ∀ i, (loc i).IsQuiet)
    (h₀ : Consolidated db₀) (h : ((protocol P).machine ι).Reachable (State.start db₀ loc) s) :
    Consolidated s.db := by
  have hinv : (factAssertion P).All s ∧ Consolidated s.db := by
    refine h.invariant (fun s => (factAssertion P).All s ∧ Consolidated s.db) ?_ ?_
    · have hstart : ∀ i, FactsOk P (loc i) [] (fun _ => False) db₀ :=
        fun i => FactsOk.leave (hloc i)
      exact ⟨(factAssertion P).all_start hstart, h₀⟩
    · rintro s ⟨i, c⟩ s' ⟨hA, hdb⟩ - hnext
      exact ⟨(factAssertion P).all_next hA trivial hnext, consolidated_next hA hdb hnext⟩
  exact hinv.2

/-- **Facts and versions in every committed state.**  Any number of sessions create, decide and
discard proposals in any order, from tables without facts.  Then a natural key has one fact at
most; the version of a fact is the number of its confirmations and of its version rows, these are
numbered `1..n`, and the newest has the values of the fact. -/
theorem memory_fact_versions {proposals : List Proposal} {decisions : List Decision}
    (h : ((protocol P).machine ι).Reachable
      (State.start ⟨proposals, [], [], decisions⟩ fun _ => .idle .none) s) :
    (∀ f ∈ s.db.facts, ∀ g ∈ s.db.facts, f.values.key = g.values.key → f = g) ∧
    ∀ f ∈ s.db.facts,
      f.version = f.confirmationCount ∧ (s.db.versionsOf f.id).length = f.version ∧
      (s.db.versionsOf f.id).map Version.version = List.range' 1 f.version ∧
      ∃ v ∈ s.db.versionsOf f.id, (∀ w ∈ s.db.versionsOf f.id, w.version ≤ v.version) ∧
        v.values = f.values := by
  have h₀ : Consolidated ⟨proposals, [], [], decisions⟩ := Consolidated.empty.congr rfl rfl
  have hloc : ∀ _ : ι, (Loc.idle .none).IsQuiet := fun _ => trivial
  have hdb := consolidated_reachable hloc h₀ h
  refine ⟨fun f hf g hg he => List.inj_on_of_nodup_map hdb.keys hf hg he, fun f hf => ?_⟩
  have hnumbered := hdb.numbered f hf
  have hlength : (s.db.versionsOf f.id).length = f.version := by
    rw [← List.length_map Version.version, hnumbered, List.length_range']
  obtain ⟨v, hv, hversion, hvalues⟩ := hdb.newest f hf
  refine ⟨(hdb.confirmed f hf).symm, hlength, hnumbered, v, hv, fun w hw => ?_, hvalues⟩
  have hmem : w.version ∈ List.range' 1 f.version := hnumbered ▸ List.mem_map_of_mem hw
  have hbound := (List.mem_range'_1.1 hmem).2
  omega

end

/-- Two sessions approve proposals about one natural key at the same time. -/
theorem memory_fact_versions_concurrent :
    ∃ s, ((protocol plainMemory).machine Bool).Reachable
        (State.start ⟨[], [], [], []⟩ fun _ => .idle .none) s ∧
      ∃ f ∈ s.db.facts, f.version = 2 ∧ (s.db.versionsOf f.id).length = f.version := by
  obtain ⟨s, hreach, hs⟩ := ((protocol plainMemory).machine Bool).exists_reachable
    (State.start ⟨[], [], [], []⟩ fun _ => .idle .none)
    ((false, .create ⟨"a", .es⟩ (some (delayPattern "late")) "a" "a" true) ::
        statements false 2 "a" ++
      (true, .create ⟨"b", .es⟩ (some (delayPattern "later")) "b" "b" true) ::
        statements true 2 "b" ++
      (false, .decide (approvalOf "a")) :: statements false 3 "a" ++
      (true, .decide (approvalOf "b")) :: statements true 2 "b" ++
      statements false 6 "fact" ++ statements true 7 "b")
    (fun s => s.db.facts.any fun f => f.version = 2) (by decide)
  obtain ⟨f, hf, hversion⟩ := List.any_eq_true.1 hs
  exact ⟨s, hreach, f, hf, by simpa using hversion, ((memory_fact_versions hreach).2 f hf).2.1⟩

end Agents

end TrackFlow
