import Mathlib.Data.Int.Basic
import Mathlib.Data.List.Basic
import TrackFlow.Python.Raise

/-!
# Features of the sales forecast

`features.py` and `modeling.py` of the sales forecast: the feature vectors of the training months,
and the recursive forecast, in which every tree of the forest goes on with its own predictions.
The numbers are of any type with the operations that the code calls, and trees are any functions of
one feature vector.

* `featureValues` : a feature vector.
* `buildTrainingFeatures` : those of a series.
* `recursiveEnsembleForecast` : the forecast, tree by tree.
* `recursiveEnsembleForecast_congr` : **of the test rows it reads the months alone.**
* `vectors_eq_of_right` : **a tree that is right has been asked what it was trained on.**
-/

namespace TrackFlow

namespace SalesForecasting

/-! ## Data -/

/-- `date`. -/
structure Date where
  year : ℕ
  month : ℕ
  day : ℕ
  deriving DecidableEq, Repr

/-- Dates in the order of the calendar. -/
def Date.Before (d d' : Date) : Prop :=
  d.year < d'.year ∨ d.year = d'.year ∧ (d.month < d'.month ∨ d.month = d'.month ∧ d.day < d'.day)

instance (d d' : Date) : Decidable (d.Before d') :=
  inferInstanceAs (Decidable (_ ∨ _ ∧ (_ ∨ _ ∧ _)))

/-- A row of the dataset. -/
structure MonthlySales (F : Type) where
  month : Date
  revenueEur : F
  shipmentsProcessed : ℤ
  avgRevenuePerShipmentEur : F
  market : String
  deriving DecidableEq, Repr

/-- What is raised. -/
inductive Raised
  /-- `SalesDataError`. -/
  | salesData (message : String)
  /-- `MetricError`. -/
  | metric (message : String)
  /-- `IndexError`. -/
  | index
  /-- What the forest raises. -/
  | forest
  deriving DecidableEq, Repr

/-- What the code calls of `float`, `math` and NumPy. -/
structure Numerics (F : Type) where
  ofNat : ℕ → F
  mul : F → F → F
  div : F → F → F
  sub : F → F → F
  pi : F
  sin : F → F
  cos : F → F
  sqrt : F → F
  abs : F → F
  square : F → F
  isFinite : F → Bool
  mean : List F → F
  std : List F → F
  /-- `np.mean` and `np.percentile` along the first axis. -/
  meanAxis0 : List (List F) → List F
  percentileAxis0 : List (List F) → ℕ → List F

/-! ## `features.py` -/

/-- `MAX_LAG`. -/
def maxLag : ℕ := 12

/-- `BANNED_CONTEMPORANEOUS_SOURCES`. -/
def bannedContemporaneousSources : List String :=
  ["revenue_eur", "shipments_processed", "avg_revenue_per_shipment_eur"]

/-- `FeatureDefinition`. -/
structure FeatureDefinition where
  name : String
  source : String
  lagMonths : Option ℤ
  knowableInAdvance : Bool
  deriving DecidableEq, Repr

/-- `FEATURE_DEFINITIONS`. -/
def featureDefinitions : List FeatureDefinition :=
  [⟨"month_sin", "calendar_month", none, true⟩,
    ⟨"month_cos", "calendar_month", none, true⟩,
    ⟨"quarter", "calendar_month", none, true⟩,
    ⟨"is_peak_month", "calendar_month", none, true⟩,
    ⟨"is_february_trough", "calendar_month", none, true⟩,
    ⟨"time_index", "calendar_sequence", none, true⟩,
    ⟨"revenue_lag_1_eur", "revenue_eur", some 1, true⟩,
    ⟨"revenue_lag_12_eur", "revenue_eur", some 12, true⟩]

/-- `FEATURE_NAMES`. -/
def featureNames : List String := featureDefinitions.map FeatureDefinition.name

/-- The check of one definition. -/
def checkDefinition (definition : FeatureDefinition) : Except Raised Unit :=
  if definition.knowableInAdvance = false then
    .error (.salesData ("feature " ++ definition.name ++ " is not knowable in advance"))
  else if definition.source ∈ bannedContemporaneousSources then
    match definition.lagMonths with
    | none =>
      .error (.salesData ("feature " ++ definition.name ++ " uses a contemporaneous companion"))
    | some lagMonths =>
      if definition.source ≠ "revenue_eur" then
        .error (.salesData ("feature " ++ definition.name ++ " uses a contemporaneous companion"))
      else if lagMonths < 1 then
        .error (.salesData ("feature " ++ definition.name ++ " leaks the same-month target"))
      else .ok ()
  else .ok ()

/-- `assert_causal_feature_contract`. -/
def assertCausalFeatureContract : Except Raised Unit := featureDefinitions.forM checkDefinition

/-- The declared features pass. -/
theorem assertCausalFeatureContract_eq : assertCausalFeatureContract = .ok () := by
  decide +kernel

/-- `FeatureMatrix`. -/
structure FeatureMatrix (F : Type) where
  values : List (List F)
  targets : List F
  months : List Date
  names : List String := featureNames
  deriving DecidableEq, Repr

section

variable {F : Type} (num : Numerics F)

/-- `feature_values`. -/
def featureValues (month : Date) (timeIndex : ℕ) (revenueHistory : List F) :
    Except Raised (List F) := do
  assertCausalFeatureContract
  if timeIndex ≠ revenueHistory.length then
    .error (.salesData "feature time index must equal the available revenue-history length")
  else if h : revenueHistory.length < maxLag then
    .error (.salesData "at least 12 prior revenue months are required")
  else
    have hlag : 12 ≤ revenueHistory.length := Nat.le_of_not_lt h
    let angle := num.div (num.mul (num.mul (num.ofNat 2) num.pi) (num.ofNat (month.month - 1)))
      (num.ofNat 12)
    .ok [num.sin angle, num.cos angle, num.ofNat ((month.month - 1) / 3 + 1),
      num.ofNat (if month.month ∈ [11, 12] then 1 else 0),
      num.ofNat (if month.month = 2 then 1 else 0), num.ofNat timeIndex,
      revenueHistory.get ⟨revenueHistory.length - 1, by omega⟩,
      revenueHistory.get ⟨revenueHistory.length - 12, by omega⟩]

/-- The loop of `build_training_features`: the vectors of the rows from `index` on. -/
def trainingLoop : ℕ → List F → List (MonthlySales F) → Except Raised (List (List F))
  | _, _, [] => .ok []
  | index, history, row :: rows => do
    let vector ← featureValues num row.month index history
    let matrix ← trainingLoop (index + 1) (history ++ [row.revenueEur]) rows
    return vector :: matrix

/-- `build_training_features`. -/
def buildTrainingFeatures (rows : List (MonthlySales F)) : Except Raised (FeatureMatrix F) :=
  if rows.length ≤ maxLag then
    .error (.salesData "training requires more than 12 chronological months")
  else if (rows.zip rows.tail).any fun pair => !decide (pair.1.month.Before pair.2.month) then
    .error (.salesData "training rows must be strictly chronological")
  else do
    let history := (rows.take maxLag).map MonthlySales.revenueEur
    let matrix ← trainingLoop num maxLag history (rows.drop maxLag)
    return {
      values := matrix
      targets := (rows.drop maxLag).map MonthlySales.revenueEur
      months := (rows.drop maxLag).map MonthlySales.month }

/-! ## `modeling.py` -/

variable (F) in
/-- A tree, as a function of one feature vector. -/
abbrev Tree := List F → Except Raised F

variable (F) in
/-- A fitted forest. -/
structure Forest where
  estimators : List (Tree F)
  predict : List (List F) → Except Raised (List F)

variable (F) in
/-- `Forecast`. -/
structure Forecast where
  point : List F
  lowerP10 : List F
  upperP90 : List F
  perTree : List (List F)
  deriving DecidableEq, Repr

variable (F) in
/-- A call of a tree. -/
structure TreeCall where
  vector : List F
  prediction : F
  deriving DecidableEq, Repr

/-- The path of a tree: each prediction goes on to the history. -/
def treeCalls (tree : Tree F) : List F → List (MonthlySales F) → Except Raised (List (TreeCall F))
  | _, [] => .ok []
  | history, row :: rows => do
    let vector ← featureValues num row.month history.length history
    let prediction ← tree vector
    let calls ← treeCalls tree (history ++ [prediction]) rows
    return ⟨vector, prediction⟩ :: calls

/-- The path of a tree behind the training rows. -/
def forecastTree (trainRows testRows : List (MonthlySales F)) (tree : Tree F) :
    Except Raised (List (TreeCall F)) :=
  treeCalls num tree (trainRows.map MonthlySales.revenueEur) testRows

/-- The partitions of a forecast: both have rows, and the first ends before the second. -/
def Chronological (trainRows testRows : List (MonthlySales F)) : Prop :=
  ∃ last ∈ trainRows.getLast?, ∃ first ∈ testRows.head?, last.month.Before first.month

instance (trainRows testRows : List (MonthlySales F)) :
    Decidable (Chronological trainRows testRows) :=
  inferInstanceAs (Decidable (∃ last ∈ trainRows.getLast?, ∃ first ∈ testRows.head?, _))

/-- `recursive_ensemble_forecast`. -/
def recursiveEnsembleForecast (model : Forest F) (trainRows testRows : List (MonthlySales F)) :
    Except Raised (Forecast F) :=
  if model.estimators.isEmpty then
    .error (.salesData "the Random Forest must be fitted before forecasting")
  else if ¬Chronological trainRows testRows then
    .error (.salesData "forecast partitions must be non-empty and chronological")
  else do
    let paths ← model.estimators.mapM (forecastTree num trainRows testRows)
    let perTree := paths.map fun calls => calls.map TreeCall.prediction
    return {
      point := num.meanAxis0 perTree
      lowerP10 := num.percentileAxis0 perTree 10
      upperP90 := num.percentileAxis0 perTree 90
      perTree := perTree }

/-! ## What the forecast reads -/

variable {num} {rows testRows testRows' trainRows : List (MonthlySales F)} {tree : Tree F}
  {history : List F} {index : ℕ}

/-- A vector is built of a history of at least twelve months. -/
theorem maxLag_le_of_featureValues {month : Date} {vector : List F}
    (h : featureValues num month index history = .ok vector) : maxLag ≤ history.length := by
  unfold featureValues at h
  rw [assertCausalFeatureContract_eq, except_bind_eq_ok] at h
  obtain ⟨_, -, h⟩ := h
  split at h
  · cases h
  · split at h
    · cases h
    · exact Nat.le_of_not_lt ‹_›

/-- The path of a tree depends on the months of the test rows alone. -/
theorem treeCalls_congr (h : testRows.map MonthlySales.month = testRows'.map MonthlySales.month)
    (history : List F) :
    treeCalls num tree history testRows = treeCalls num tree history testRows' := by
  induction testRows generalizing testRows' history with
  | nil =>
    obtain rfl : testRows' = [] := List.map_eq_nil_iff.1 h.symm
    rfl
  | cons row testRows ih =>
    obtain ⟨row', rest', rfl, hmonth, hrest⟩ := List.map_eq_cons_iff.1 h.symm
    rw [treeCalls, treeCalls, hmonth]
    simp only [ih hrest.symm]

/-- **Of the test rows the forecast reads the months alone.** -/
theorem recursiveEnsembleForecast_congr (model : Forest F)
    (h : testRows.map MonthlySales.month = testRows'.map MonthlySales.month) :
    recursiveEnsembleForecast num model trainRows testRows =
      recursiveEnsembleForecast num model trainRows testRows' := by
  have htree : forecastTree num trainRows testRows = forecastTree num trainRows testRows' := by
    funext tree
    exact treeCalls_congr h _
  have hmonths (rows : List (MonthlySales F)) : Chronological trainRows rows ↔
      ∃ last ∈ trainRows.getLast?, ∃ month ∈ (rows.map MonthlySales.month).head?,
        last.month.Before month := by
    cases rows <;> simp [Chronological]
  unfold recursiveEnsembleForecast
  simp only [htree, hmonths, h]

/-! ## What a tree is asked -/

/-- The loop over a series is the loop over its front, and then over the rest. -/
theorem trainingLoop_append {rows' : List (MonthlySales F)} {matrix : List (List F)}
    (h : trainingLoop num index history (rows ++ rows') = .ok matrix) :
    ∃ front behind, trainingLoop num index history rows = .ok front ∧
      trainingLoop num (index + rows.length) (history ++ rows.map MonthlySales.revenueEur) rows' =
        .ok behind ∧ front.length = rows.length ∧ matrix = front ++ behind := by
  induction rows generalizing index history matrix with
  | nil => exact ⟨[], matrix, rfl, by simpa using h, rfl, rfl⟩
  | cons row rows ih =>
    rw [List.cons_append, trainingLoop] at h
    obtain ⟨vector, hvector, h⟩ := except_bind_eq_ok.1 h
    obtain ⟨rest, hrest, h⟩ := except_bind_eq_ok.1 h
    obtain rfl := except_pure_eq_ok.1 h
    obtain ⟨front, behind, hfront, hbehind, hlength, rfl⟩ := ih hrest
    refine ⟨vector :: front, behind, ?_, ?_, congrArg (· + 1) hlength, rfl⟩
    · rw [trainingLoop]
      exact except_bind_eq_ok.2 ⟨vector, hvector, except_bind_eq_ok.2 ⟨front, hfront, rfl⟩⟩
    · have hindex : index + 1 + rows.length = index + (row :: rows).length := by
        rw [List.length_cons]
        omega
      rwa [hindex, List.append_assoc] at hbehind

/-- A tree whose predictions are right is asked the vectors of the training loop. -/
theorem vectors_eq_of_trainingLoop {calls : List (TreeCall F)} {matrix : List (List F)}
    (hcalls : treeCalls num tree history testRows = .ok calls)
    (hright : calls.map TreeCall.prediction = testRows.map MonthlySales.revenueEur)
    (hmatrix : trainingLoop num history.length history testRows = .ok matrix) :
    calls.map TreeCall.vector = matrix := by
  induction testRows generalizing history calls matrix with
  | nil =>
    obtain rfl := Except.ok.inj hcalls
    exact Except.ok.inj hmatrix
  | cons row testRows ih =>
    rw [treeCalls] at hcalls
    obtain ⟨vector, hvector, hcalls⟩ := except_bind_eq_ok.1 hcalls
    obtain ⟨prediction, -, hcalls⟩ := except_bind_eq_ok.1 hcalls
    obtain ⟨rest, hrest, hcalls⟩ := except_bind_eq_ok.1 hcalls
    obtain rfl := except_pure_eq_ok.1 hcalls
    rw [trainingLoop] at hmatrix
    obtain ⟨vector', hvector', hmatrix⟩ := except_bind_eq_ok.1 hmatrix
    obtain rfl := Except.ok.inj (hvector.symm.trans hvector')
    obtain ⟨behind, hbehind, hmatrix⟩ := except_bind_eq_ok.1 hmatrix
    obtain rfl := except_pure_eq_ok.1 hmatrix
    obtain ⟨rfl, hrest'⟩ := List.cons.inj hright
    have hlength : (history ++ [row.revenueEur]).length = history.length + 1 := by simp
    rw [← hlength] at hbehind
    exact congrArg (vector :: ·) (ih hrest hrest' hbehind)

/-- What `build_training_features` returns. -/
theorem buildTrainingFeatures_eq_ok {features : FeatureMatrix F}
    (h : buildTrainingFeatures num rows = .ok features) :
    maxLag < rows.length ∧
      trainingLoop num maxLag ((rows.take maxLag).map MonthlySales.revenueEur)
        (rows.drop maxLag) = .ok features.values ∧
      features.months = (rows.drop maxLag).map MonthlySales.month := by
  unfold buildTrainingFeatures at h
  split_ifs at h with hlength hordered
  obtain ⟨matrix, hmatrix, h⟩ := except_bind_eq_ok.1 h
  obtain rfl := except_pure_eq_ok.1 h
  exact ⟨Nat.lt_of_not_le hlength, hmatrix, rfl⟩

/-- **A tree that is right has been asked what it was trained on**: the vectors of its calls are
those of the same months in the features of the whole series. -/
theorem vectors_eq_of_right {calls : List (TreeCall F)} {features : FeatureMatrix F}
    (hcalls : forecastTree num trainRows testRows tree = .ok calls)
    (hright : calls.map TreeCall.prediction = testRows.map MonthlySales.revenueEur)
    (hfeatures : buildTrainingFeatures num (trainRows ++ testRows) = .ok features) :
    calls.map TreeCall.vector = features.values.drop (trainRows.length - maxLag) ∧
      testRows.map MonthlySales.month = features.months.drop (trainRows.length - maxLag) := by
  obtain ⟨hlength, hmatrix, hmonths⟩ := buildTrainingFeatures_eq_ok hfeatures
  have hlag : maxLag ≤ trainRows.length := by
    cases testRows with
    | nil =>
      rw [List.append_nil] at hlength
      exact Nat.le_of_lt hlength
    | cons row testRows =>
      rw [forecastTree, treeCalls] at hcalls
      obtain ⟨vector, hvector, -⟩ := except_bind_eq_ok.1 hcalls
      have hhistory := maxLag_le_of_featureValues hvector
      rwa [List.length_map] at hhistory
  rw [List.take_append_of_le_length hlag, List.drop_append_of_le_length hlag] at hmatrix
  obtain ⟨front, behind, -, hbehind, hfront, hvalues⟩ := trainingLoop_append hmatrix
  -- the history at the first test row is that of all training rows
  have hindex : maxLag + (trainRows.drop maxLag).length =
      (trainRows.map MonthlySales.revenueEur).length := by
    rw [List.length_drop, List.length_map, Nat.add_sub_cancel' hlag]
  rw [← List.map_append, List.take_append_drop, hindex] at hbehind
  rw [List.length_drop] at hfront
  constructor
  · rw [hvalues, ← hfront, List.drop_left]
    exact vectors_eq_of_trainingLoop hcalls hright hbehind
  · rw [hmonths, List.drop_append_of_le_length hlag, List.map_append, ← hfront, List.drop_left']
    rw [List.length_map, List.length_drop, hfront]

end

end SalesForecasting

end TrackFlow
