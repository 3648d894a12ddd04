import Mathlib.Algebra.Order.Field.Rat
import Mathlib.Tactic.NormNum
import Mathlib.Tactic.Positivity
import TrackFlow.Sums.Optional

/-!
# Tokens and costs

`pricing.py`, and the totals of `persist_run`.  Costs are exact rationals.

* `buildUsage` : the usage of one provider call.
* `combineUsage` : the usage of several calls; a cost only if every call is priced.
* `runTotals` : the totals of a run, from its steps.
* `runTotals_eq_combineUsage_iff` : **when the totals of a run are those of all its calls.**
-/

namespace TrackFlow

namespace Agents

/-- `ModelPrice`, in USD per million tokens. -/
structure ModelPrice where
  inputPerMillion : ℚ
  cachedInputPerMillion : ℚ
  outputPerMillion : ℚ
  deriving DecidableEq

/-- `ModelUsage`. -/
structure ModelUsage where
  inputTokens : ℕ
  outputTokens : ℕ
  totalTokens : ℕ
  cachedInputTokens : ℕ
  costUsd : Option ℚ
  deriving DecidableEq

/-- `MODEL_PRICES`. -/
def modelPrices (model : String) : Option ModelPrice :=
  if model = "gpt-4o-mini" then some ⟨15 / 100, 75 / 1000, 60 / 100⟩
  else if model = "gpt-4o-mini-2024-07-18" then some ⟨15 / 100, 75 / 1000, 60 / 100⟩
  else none

/-- The counters that a provider reports, each `none` if `_counter` refuses it; a cache counter that
is absent is 0. -/
structure Counters where
  inputTokens : Option ℕ
  outputTokens : Option ℕ
  totalTokens : Option ℕ
  cached : Option ℕ

/-- What the tokens of a call cost. -/
def ModelPrice.cost (price : ModelPrice) (input cached output : ℕ) : ℚ :=
  (((input - cached : ℕ) : ℚ) * price.inputPerMillion + cached * price.cachedInputPerMillion +
    output * price.outputPerMillion) / 1000000

/-- `_build_usage`. -/
def buildUsage (counters : Counters) (model : String) : Option ModelUsage :=
  match counters.inputTokens, counters.outputTokens with
  | some input, some output =>
    let expectedTotal := input + output
    let totalTokens := counters.totalTokens.getD expectedTotal
    if totalTokens ≠ expectedTotal then none
    else
      match counters.cached with
      | none => none
      | some cached =>
        if cached > input then none
        else some ⟨input, output, totalTokens, cached,
          (modelPrices model).map fun price => price.cost input cached output⟩
  | _, _ => none

/-- `combine_usage`. -/
def combineUsage (usages : List (Option ModelUsage)) : Option ℕ × Option ℚ :=
  (sumKnown (usages.reduceOption.map fun usage => some usage.totalTokens),
    sumComplete (usages.reduceOption.map ModelUsage.costUsd))

/-- What a step of a trace tells of usage. -/
structure StepUsage where
  tokens : Option ℕ
  costUsd : Option ℚ
  deriving DecidableEq

/-- The status of a step. -/
inductive StepStatus
  | ok
  | error
  deriving DecidableEq, Repr

/-- A step of a trace. -/
structure NodeStep where
  nodeName : String
  status : StepStatus
  notes : Option String
  usage : StepUsage
  deriving DecidableEq

/-- A step that tells nothing of usage. -/
def NodeStep.quiet (nodeName : String) (status : StepStatus) (notes : Option String) : NodeStep :=
  ⟨nodeName, status, notes, ⟨none, none⟩⟩

/-- The totals that `persist_run` stores: the sums of what the steps tell. -/
def runTotals (steps : List StepUsage) : Option ℕ × Option ℚ :=
  (sumKnown (steps.map StepUsage.tokens), sumKnown (steps.map StepUsage.costUsd))

/-! ### Steps and their calls -/

/-- The provider calls of a step, each with the usage that it reported, and whether the step ends
on a path that drops them. -/
structure StepCalls where
  calls : List (Option ModelUsage)
  dropped : Bool

/-- What a step tells of its calls. -/
def StepCalls.usage (step : StepCalls) : StepUsage :=
  if step.dropped then ⟨none, none⟩
  else ⟨(combineUsage step.calls).1, (combineUsage step.calls).2⟩

/-- A step, with the provider calls behind it. -/
abbrev TracedStep := NodeStep × StepCalls

/-- The step tells of all its calls, or of none. -/
def TracedStep.Tells (traced : TracedStep) : Prop := traced.1.usage = traced.2.usage

/-- What a step tells of one call. -/
def usageFields : Option ModelUsage → StepUsage
  | none => ⟨none, none⟩
  | some usage => ⟨some usage.totalTokens, usage.costUsd⟩

theorem usage_of_single_call (usage : Option ModelUsage) :
    usageFields usage = StepCalls.usage ⟨[usage], false⟩ := by
  cases usage with
  | none => rfl
  | some u =>
    rcases u with ⟨i, o, t, c, _ | cost⟩
    · rfl
    · simp [usageFields, StepCalls.usage, combineUsage, sumComplete, sumKnown, List.reduceOption]

theorem tells_quiet (nodeName : String) (status : StepStatus) (notes : Option String)
    (dropped : Bool) :
    TracedStep.Tells (.quiet nodeName status notes, ⟨[], dropped⟩) := by
  cases dropped <;> rfl

/-- The usages of the steps that drop nothing, step by step. -/
def keptUsages (steps : List StepCalls) : List (List ModelUsage) :=
  (steps.filter fun step => !step.dropped).map fun step => step.calls.reduceOption

/-- The usages that are dropped. -/
def droppedUsages (steps : List StepCalls) : List ModelUsage :=
  ((steps.filter StepCalls.dropped).map fun step => step.calls.reduceOption).flatten

/-- Nothing of weight is dropped, and either every call is priced or no step is priced alone. -/
structure Accounted (steps : List StepCalls) : Prop where
  /-- The dropped tokens are none. -/
  tokens : ((droppedUsages steps).map ModelUsage.totalTokens).sum = 0
  /-- A run that reported usage keeps some. -/
  some_kept : (keptUsages steps).flatten = [] → droppedUsages steps = []
  /-- If every call is priced, the dropped ones cost nothing. -/
  priced : (∀ u ∈ (keptUsages steps).flatten ++ droppedUsages steps, u.costUsd.isSome) →
    ((droppedUsages steps).map fun u => u.costUsd.getD 0).sum = 0
  /-- If a call is unpriced, so is one of every step that keeps usage. -/
  unpriced : (∃ u ∈ (keptUsages steps).flatten ++ droppedUsages steps, u.costUsd = none) →
    ∀ us ∈ keptUsages steps, us = [] ∨ ∃ u ∈ us, u.costUsd = none

section

variable {steps : List StepCalls}

@[simp] theorem keptUsages_nil : keptUsages [] = [] := rfl

@[simp] theorem droppedUsages_nil : droppedUsages [] = [] := rfl

theorem keptUsages_cons (step : StepCalls) : keptUsages (step :: steps) =
    if step.dropped then keptUsages steps else step.calls.reduceOption :: keptUsages steps := by
  unfold keptUsages
  rw [List.filter_cons]
  cases step.dropped <;> rfl

theorem droppedUsages_cons (step : StepCalls) : droppedUsages (step :: steps) =
    if step.dropped then step.calls.reduceOption ++ droppedUsages steps
    else droppedUsages steps := by
  unfold droppedUsages
  rw [List.filter_cons]
  cases step.dropped <;> rfl

/-- The usages of all calls are the kept and the dropped ones. -/
theorem reduceOption_calls_perm (steps : List StepCalls) :
    (steps.flatMap StepCalls.calls).reduceOption.Perm
      ((keptUsages steps).flatten ++ droppedUsages steps) := by
  induction steps with
  | nil => rfl
  | cons step steps ih =>
    rw [List.flatMap_cons, List.reduceOption_append, keptUsages_cons, droppedUsages_cons]
    split_ifs with h
    · exact (ih.append_left _).trans (List.perm_append_comm_assoc _ _ _)
    · rw [List.flatten_cons, List.append_assoc]
      exact ih.append_left _

/-- What the steps tell of tokens. -/
theorem reduceOption_tokens (steps : List StepCalls) :
    ((steps.map StepCalls.usage).map StepUsage.tokens).reduceOption =
      ((keptUsages steps).map fun us =>
        sumKnown (us.map fun u => some u.totalTokens)).reduceOption := by
  induction steps with
  | nil => rfl
  | cons step steps ih =>
    rw [List.map_cons, List.map_cons, keptUsages_cons, StepCalls.usage]
    split_ifs with h
    · rw [List.reduceOption_cons_of_none, ih]
    · rw [List.map_cons, ← List.singleton_append, List.reduceOption_append, ih,
        ← List.reduceOption_append]
      rfl

/-- What the steps tell of costs. -/
theorem reduceOption_costs (steps : List StepCalls) :
    ((steps.map StepCalls.usage).map StepUsage.costUsd).reduceOption =
      ((keptUsages steps).map fun us => sumComplete (us.map ModelUsage.costUsd)).reduceOption := by
  induction steps with
  | nil => rfl
  | cons step steps ih =>
    rw [List.map_cons, List.map_cons, keptUsages_cons, StepCalls.usage]
    split_ifs with h
    · rw [List.reduceOption_cons_of_none, ih]
    · rw [List.map_cons, ← List.singleton_append, List.reduceOption_append, ih,
        ← List.reduceOption_append]
      rfl

theorem totalTokens_eq_iff (steps : List StepCalls) :
    (runTotals (steps.map StepCalls.usage)).1 =
        (combineUsage (steps.flatMap StepCalls.calls)).1 ↔
      ((keptUsages steps).flatten = [] → droppedUsages steps = []) ∧
        ((droppedUsages steps).map ModelUsage.totalTokens).sum = 0 := by
  have hrun : (runTotals (steps.map StepCalls.usage)).1 =
      sumKnown ((keptUsages steps).flatten.map fun u => some u.totalTokens) := by
    rw [List.map_flatten, ← sumKnown_map_sumKnown, List.map_map]
    exact sumKnown_congr (reduceOption_tokens steps)
  have hall : (combineUsage (steps.flatMap StepCalls.calls)).1 =
      sumKnown (((keptUsages steps).flatten.map fun u => some u.totalTokens) ++
        (droppedUsages steps).map fun u => some u.totalTokens) := by
    rw [← List.map_append]
    exact sumKnown_perm ((reduceOption_calls_perm steps).map _)
  rw [hrun, hall, sumKnown_eq_append_iff, reduceOption_map_some, reduceOption_map_some,
    List.map_eq_nil_iff, List.map_eq_nil_iff]

theorem totalCost_eq_iff (steps : List StepCalls)
    (hkept : (keptUsages steps).flatten = [] → droppedUsages steps = []) :
    (runTotals (steps.map StepCalls.usage)).2 =
        (combineUsage (steps.flatMap StepCalls.calls)).2 ↔
      ((∀ u ∈ (keptUsages steps).flatten ++ droppedUsages steps, u.costUsd.isSome) →
        ((droppedUsages steps).map fun u => u.costUsd.getD 0).sum = 0) ∧
      ((∃ u ∈ (keptUsages steps).flatten ++ droppedUsages steps, u.costUsd = none) →
        ∀ us ∈ keptUsages steps, us = [] ∨ ∃ u ∈ us, u.costUsd = none) := by
  set kept := keptUsages steps
  set dropped := droppedUsages steps
  have hrun : (runTotals (steps.map StepCalls.usage)).2 =
      sumKnown ((kept.map (List.map ModelUsage.costUsd)).map sumComplete) := by
    rw [List.map_map]
    exact sumKnown_congr (reduceOption_costs steps)
  have hall : (combineUsage (steps.flatMap StepCalls.calls)).2 =
      sumComplete ((kept.flatten ++ dropped).map ModelUsage.costUsd) :=
    sumComplete_perm ((reduceOption_calls_perm steps).map _)
  rw [hrun, hall]
  by_cases hunpriced : ∃ u ∈ kept.flatten ++ dropped, u.costUsd = none
  · -- the complete sum is unknown
    have hnone : none ∈ (kept.flatten ++ dropped).map ModelUsage.costUsd := List.mem_map.2 hunpriced
    have hnotall : ¬∀ u ∈ kept.flatten ++ dropped, u.costUsd.isSome := by
      obtain ⟨u, hu, hcost⟩ := hunpriced
      intro hall
      simpa [hcost] using hall u hu
    have hgroups : (∀ x ∈ (kept.map (List.map ModelUsage.costUsd)).map sumComplete, x = none) ↔
        ∀ us ∈ kept, us = [] ∨ ∃ u ∈ us, u.costUsd = none := by
      simp [sumComplete_eq_none_iff]
    rw [sumComplete_of_unknown hnone, sumKnown_eq_none_iff, hgroups]
    exact ⟨fun h => ⟨fun hall => absurd hall hnotall, fun _ => h⟩, fun h => h.2 hunpriced⟩
  · -- every call is priced
    have hknown : none ∉ (kept.flatten ++ dropped).map ModelUsage.costUsd :=
      fun hnone => hunpriced (List.mem_map.1 hnone)
    have hpriced : ∀ u ∈ kept.flatten ++ dropped, u.costUsd.isSome := by
      intro u hu
      rw [Option.isSome_iff_ne_none]
      exact fun hcost => hunpriced ⟨u, hu, hcost⟩
    rw [List.map_append] at hknown ⊢
    obtain ⟨hk, hd⟩ := not_or.1 (mt List.mem_append.2 hknown)
    have hgroups : sumKnown ((kept.map (List.map ModelUsage.costUsd)).map sumComplete) =
        sumKnown (kept.flatten.map ModelUsage.costUsd) := by
      rw [← sumComplete_of_known hk, List.map_flatten]
      refine (sumKnown_map_sumComplete_iff _).2 (.inl ?_)
      rwa [← List.map_flatten]
    have hempty {us : List ModelUsage} (h : none ∉ us.map ModelUsage.costUsd) :
        (us.map ModelUsage.costUsd).reduceOption = [] ↔ us = [] := by
      rw [reduceOption_eq_nil_iff_all]
      refine ⟨fun hall => ?_, fun hnil => by simp [hnil]⟩
      refine List.eq_nil_iff_forall_not_mem.2 fun u hu => h ?_
      have hmem := List.mem_map_of_mem (f := ModelUsage.costUsd) hu
      exact hall _ hmem ▸ hmem
    rw [hgroups, sumComplete_of_known hknown, sumKnown_eq_append_iff, hempty hk, hempty hd,
      sum_reduceOption_of_known hd, List.map_map]
    exact ⟨fun h => ⟨fun _ => h.2, fun hu => absurd hu hunpriced⟩,
      fun h => ⟨hkept, h.1 hpriced⟩⟩

/-- **When the totals of a run are those of all its calls.** -/
theorem runTotals_eq_combineUsage_iff (steps : List StepCalls) :
    runTotals (steps.map StepCalls.usage) = combineUsage (steps.flatMap StepCalls.calls) ↔
      Accounted steps := by
  rw [Prod.ext_iff, totalTokens_eq_iff]
  constructor
  · rintro ⟨⟨hkept, htokens⟩, hcost⟩
    obtain ⟨hpriced, hunpriced⟩ := (totalCost_eq_iff steps hkept).1 hcost
    exact ⟨htokens, hkept, hpriced, hunpriced⟩
  · intro h
    exact ⟨⟨h.some_kept, h.tokens⟩, (totalCost_eq_iff steps h.some_kept).2 ⟨h.priced, h.unpriced⟩⟩

end

end Agents

end TrackFlow
