import Mathlib.Algebra.GroupWithZero.Nat
import Mathlib.Data.List.MinMax
import Mathlib.Data.List.Sort
import TrackFlow.SalesForecasting.Features

/-!
# Chronological cross-validation

`evaluation.py` of the sales forecast.  The splitter and the fit are any functions; whatever the
splitter returns, the checks of `chronological_fold_indices` let a fold through only if its training
indices precede its validation indices, and a fold is evaluated on the rows of these indices alone.

* `chronologicalFoldIndices` : the folds, as they pass the checks.
* `evaluateFold`, `evaluateChronologicalCv` : the evaluation.
* `evaluateFold_congr` : **a fold depends on its own rows.**
* `forecasts_use_no_future` : **nothing later than what is forecast is used, and the trees are asked
  what they were trained on.**
-/

namespace TrackFlow

namespace SalesForecasting

/-! ## Folds -/

/-- The training and the validation indices of a fold. -/
abbrev Fold := List ℕ × List ℕ

/-- The checks of one fold, behind the validation window that ends at `previousValidationEnd`. -/
def checkFold (previousValidationEnd : ℤ) (fold : Fold) : Except Raised Unit :=
  if fold.1.isEmpty || fold.2.isEmpty then
    .error (.salesData "cross-validation folds must be non-empty")
  else if fold.1.insertionSort (· ≤ ·) ≠ fold.1 then
    .error (.salesData "cross-validation training indices must be ordered")
  else if fold.2.insertionSort (· ≤ ·) ≠ fold.2 then
    .error (.salesData "cross-validation validation indices must be ordered")
  else if fold.1.any fun index => decide (index ∈ fold.2) then
    .error (.salesData "cross-validation fold indices overlap")
  else if fold.2.min?.getD 0 ≤ fold.1.max?.getD 0 then
    .error (.salesData "every training index must precede validation")
  else if (fold.2.min?.getD 0 : ℤ) ≤ previousValidationEnd then
    .error (.salesData "validation windows must advance without overlap")
  else .ok ()

/-- The loop over the folds. -/
def checkFolds : ℤ → List Fold → Except Raised Unit
  | _, [] => .ok ()
  | previousValidationEnd, fold :: folds => do
    checkFold previousValidationEnd fold
    checkFolds (fold.2.max?.getD 0) folds

/-- `chronological_fold_indices`, with what the splitter yields for a number of splits and of
rows. -/
def chronologicalFoldIndices (split : ℕ → ℕ → List Fold) (rowCount nSplits : ℕ) :
    Except Raised (List Fold) :=
  if nSplits < 5 then
    .error (.salesData "time-aware evaluation requires at least five folds")
  else if rowCount ≤ maxLag + nSplits then
    .error (.salesData "not enough chronological rows for cross-validation")
  else do
    let folds := split nSplits rowCount
    checkFolds (-1) folds
    return folds

/-- There is a validation window, and the training indices precede it. -/
def Precedes (fold : Fold) : Prop := fold.2 ≠ [] ∧ ∀ i ∈ fold.1, ∀ j ∈ fold.2, i < j

theorem precedes_of_checkFold {previousValidationEnd : ℤ} {fold : Fold}
    (h : checkFold previousValidationEnd fold = .ok ()) : Precedes fold := by
  unfold checkFold at h
  split_ifs at h with hempty htrain hvalidation hoverlap hprecede
  refine ⟨fun hnil => hempty (by simp [hnil]), fun i hi j hj => ?_⟩
  have hmax : i ≤ fold.1.max?.getD 0 := List.le_max?_getD_of_mem hi
  have hmin : fold.2.min?.getD 0 ≤ j := List.min?_getD_le_of_mem hj
  omega

theorem precedes_of_checkFolds {previousValidationEnd : ℤ} {folds : List Fold}
    (h : checkFolds previousValidationEnd folds = .ok ()) : ∀ fold ∈ folds, Precedes fold := by
  induction folds generalizing previousValidationEnd with
  | nil => exact fun fold hfold => nomatch hfold
  | cons fold folds ih =>
    obtain ⟨_, hfold, hrest⟩ := except_bind_eq_ok.1 h
    exact List.forall_mem_cons.2 ⟨precedes_of_checkFold hfold, ih hrest⟩

/-- Whatever the splitter yields, what passes the checks is chronological. -/
theorem precedes_of_chronologicalFoldIndices {split : ℕ → ℕ → List Fold} {rowCount nSplits : ℕ}
    {folds : List Fold} (h : chronologicalFoldIndices split rowCount nSplits = .ok folds) :
    ∀ fold ∈ folds, Precedes fold := by
  unfold chronologicalFoldIndices at h
  split_ifs at h with hsplits hrows
  obtain ⟨_, hchecked, h⟩ := except_bind_eq_ok.1 h
  obtain rfl := except_pure_eq_ok.1 h
  exact precedes_of_checkFolds hchecked

/-! ## Metrics -/

section

variable {F : Type} (num : Numerics F)

/-- `_one_dimensional`. -/
def oneDimensional (values : List F) (name : String) : Except Raised (List F) :=
  if values.isEmpty then
    .error (.metric (name ++ " must be a non-empty one-dimensional sample"))
  else if !values.all num.isFinite then
    .error (.metric (name ++ " must contain only finite values"))
  else .ok values

/-- The mean of a function of the residuals. -/
def meanError (f : F → F) (actual predicted : List F) : Except Raised F := do
  let actualArray ← oneDimensional num actual "actual"
  let predictedArray ← oneDimensional num predicted "predicted"
  if actualArray.length ≠ predictedArray.length then
    .error (.metric "actual and predicted must have identical shapes")
  else .ok (num.mean (List.zipWith (fun a p => f (num.sub a p)) actualArray predictedArray))

/-- `mean_squared_error`. -/
def meanSquaredError : List F → List F → Except Raised F := meanError num num.square

/-- `mean_absolute_error`. -/
def meanAbsoluteError : List F → List F → Except Raised F := meanError num num.abs

/-! ## Evaluation -/

variable (F) in
/-- `FoldEvaluation`. -/
structure FoldEvaluation where
  fold : ℕ
  trainIndices : List ℕ
  validationIndices : List ℕ
  trainStart : Date
  trainEnd : Date
  validationStart : Date
  validationEnd : Date
  trainSourceRows : ℕ
  trainPostLagRows : ℕ
  validationRows : ℕ
  trainMaeEur : F
  trainRmseEur : F
  validationMaeEur : F
  validationRmseEur : F
  deriving DecidableEq, Repr

variable (F) in
/-- `MetricSummary`. -/
structure MetricSummary where
  meanEur : F
  standardDeviationEur : F
  deriving DecidableEq, Repr

variable (F) in
/-- `CrossValidationEvaluation`. -/
structure CrossValidationEvaluation where
  folds : List (FoldEvaluation F)
  trainMae : MetricSummary F
  trainRmse : MetricSummary F
  validationMae : MetricSummary F
  validationRmse : MetricSummary F
  standardDeviationConvention : String := "population_ddof_0"
  deriving DecidableEq, Repr

/-- `_summary`. -/
def summary (values : List F) : MetricSummary F := ⟨num.mean values, num.std values⟩

/-- The rows of some indices. -/
def selectRows (rows : List (MonthlySales F)) (indices : List ℕ) :
    Except Raised (List (MonthlySales F)) :=
  indices.mapM fun index =>
    match rows[index]? with
    | some row => .ok row
    | none => .error .index

/-- The month of a row that has to be there. -/
def monthOf : Option (MonthlySales F) → Except Raised Date
  | some row => .ok row.month
  | none => .error .index

variable (fit : List (List F) → List F → Except Raised (Forest F))

/-- The body of the loop of `evaluate_chronological_cv`. -/
def evaluateFold (trainingRows : List (MonthlySales F)) (foldNumber : ℕ) (fold : Fold) :
    Except Raised (FoldEvaluation F) := do
  let trainRows ← selectRows trainingRows fold.1
  let validationRows ← selectRows trainingRows fold.2
  let features ← buildTrainingFeatures num trainRows
  let model ← fit features.values features.targets
  let trainPredictions ← model.predict features.values
  let validationForecast ← recursiveEnsembleForecast num model trainRows validationRows
  let validationActual := validationRows.map MonthlySales.revenueEur
  let trainStart ← monthOf trainRows.head?
  let trainEnd ← monthOf trainRows.getLast?
  let validationStart ← monthOf validationRows.head?
  let validationEnd ← monthOf validationRows.getLast?
  let trainMae ← meanAbsoluteError num features.targets trainPredictions
  let trainMse ← meanSquaredError num features.targets trainPredictions
  let validationMae ← meanAbsoluteError num validationActual validationForecast.point
  let validationMse ← meanSquaredError num validationActual validationForecast.point
  return {
    fold := foldNumber
    trainIndices := fold.1
    validationIndices := fold.2
    trainStart := trainStart
    trainEnd := trainEnd
    validationStart := validationStart
    validationEnd := validationEnd
    trainSourceRows := trainRows.length
    trainPostLagRows := features.targets.length
    validationRows := validationRows.length
    trainMaeEur := trainMae
    trainRmseEur := num.sqrt trainMse
    validationMaeEur := validationMae
    validationRmseEur := num.sqrt validationMse }

variable (split : ℕ → ℕ → List Fold)

/-- `evaluate_chronological_cv`. -/
def evaluateChronologicalCv (trainingRows : List (MonthlySales F)) (nSplits : ℕ := 5) :
    Except Raised (CrossValidationEvaluation F) := do
  let indices ← chronologicalFoldIndices split trainingRows.length nSplits
  let folds ← (indices.zipIdx 1).mapM fun entry =>
    evaluateFold num fit trainingRows entry.2 entry.1
  return {
    folds := folds
    trainMae := summary num (folds.map FoldEvaluation.trainMaeEur)
    trainRmse := summary num (folds.map FoldEvaluation.trainRmseEur)
    validationMae := summary num (folds.map FoldEvaluation.validationMaeEur)
    validationRmse := summary num (folds.map FoldEvaluation.validationRmseEur) }

/-- A forecast from the first `count` rows of a dataset. -/
def forecastFrom (count : ℕ) (rows : List (MonthlySales F)) : Except Raised (Forecast F) := do
  let features ← buildTrainingFeatures num (rows.take count)
  let model ← fit features.values features.targets
  recursiveEnsembleForecast num model (rows.take count) (rows.drop count)

/-! ## What a fold depends on -/

variable {num fit split} {rows rows' : List (MonthlySales F)} {fold : Fold}

theorem selectRows_congr {indices : List ℕ} (h : ∀ i ∈ indices, rows[i]? = rows'[i]?) :
    selectRows rows indices = selectRows rows' indices := by
  unfold selectRows
  induction indices with
  | nil => rfl
  | cons index indices ih =>
    rw [List.mapM_cons, List.mapM_cons, h index List.mem_cons_self,
      ih fun i hi => h i (List.mem_cons_of_mem _ hi)]

/-- **A fold depends on its own rows.** -/
theorem evaluateFold_congr (number : ℕ) (h : ∀ i ∈ fold.1 ++ fold.2, rows[i]? = rows'[i]?) :
    evaluateFold num fit rows number fold = evaluateFold num fit rows' number fold := by
  have htrain : selectRows rows fold.1 = selectRows rows' fold.1 :=
    selectRows_congr fun i hi => h i (List.mem_append_left _ hi)
  have hvalidation : selectRows rows fold.2 = selectRows rows' fold.2 :=
    selectRows_congr fun i hi => h i (List.mem_append_right _ hi)
  rw [evaluateFold, evaluateFold, htrain, hvalidation]

/-- The evaluation of a fold in the result. -/
theorem getElem?_folds {nSplits : ℕ} {folds : List Fold} {k : ℕ}
    {result : CrossValidationEvaluation F}
    (hfolds : chronologicalFoldIndices split rows.length nSplits = .ok folds)
    (hk : folds[k]? = some fold)
    (h : evaluateChronologicalCv num fit split rows nSplits = .ok result) :
    ∃ evaluation, evaluateFold num fit rows (k + 1) fold = .ok evaluation ∧
      result.folds[k]? = some evaluation := by
  obtain ⟨indices, hindices, h⟩ := except_bind_eq_ok.1 h
  obtain rfl := Except.ok.inj (hfolds.symm.trans hindices)
  obtain ⟨evaluations, hevaluations, h⟩ := except_bind_eq_ok.1 h
  obtain rfl := except_pure_eq_ok.1 h
  have hall := forall₂_of_mapM_eq_ok hevaluations
  have hentry : (folds.zipIdx 1)[k]? = some (fold, k + 1) := by
    rw [List.getElem?_zipIdx, hk, Nat.add_comm]
    rfl
  obtain ⟨hlt, hget⟩ := List.getElem?_eq_some_iff.1 hentry
  have hlt' : k < evaluations.length := by rwa [← hall.length_eq]
  have heval := hall.get hlt hlt'
  rw [List.get_eq_getElem, hget] at heval
  exact ⟨evaluations[k], heval, List.getElem?_eq_getElem hlt'⟩

/-- **Forecasts use no future information, and no other features than the training.**  A forecast
is the same on datasets with the same months and the same training prefix; a fold of the
cross-validation is the same on datasets that agree up to the end of its validation window; and a
tree whose predictions are the actual revenues has been asked the vectors that the features of the
whole series have for these months. -/
theorem forecasts_use_no_future (num : Numerics F)
    (fit : List (List F) → List F → Except Raised (Forest F)) (split : ℕ → ℕ → List Fold) :
    (∀ (count : ℕ) (rows rows' : List (MonthlySales F)),
      rows.map MonthlySales.month = rows'.map MonthlySales.month →
      rows.take count = rows'.take count →
        (∀ model, recursiveEnsembleForecast num model (rows.take count) (rows.drop count) =
          recursiveEnsembleForecast num model (rows'.take count) (rows'.drop count)) ∧
        forecastFrom num fit count rows = forecastFrom num fit count rows') ∧
    (∀ (rows rows' : List (MonthlySales F)) (nSplits k : ℕ) (folds : List Fold) (fold : Fold),
      rows.length = rows'.length →
      chronologicalFoldIndices split rows.length nSplits = .ok folds → folds[k]? = some fold →
      (∀ last ∈ fold.2, ∀ i ≤ last, rows[i]? = rows'[i]?) →
        evaluateFold num fit rows (k + 1) fold = evaluateFold num fit rows' (k + 1) fold ∧
        ∀ result result', evaluateChronologicalCv num fit split rows nSplits = .ok result →
          evaluateChronologicalCv num fit split rows' nSplits = .ok result' →
          ∃ evaluation, result.folds[k]? = some evaluation ∧
            result'.folds[k]? = some evaluation) ∧
    ∀ (trainRows testRows : List (MonthlySales F)) (tree : Tree F) (calls : List (TreeCall F))
      (features : FeatureMatrix F), forecastTree num trainRows testRows tree = .ok calls →
      calls.map TreeCall.prediction = testRows.map MonthlySales.revenueEur →
      buildTrainingFeatures num (trainRows ++ testRows) = .ok features →
        testRows.map MonthlySales.month = features.months.drop (trainRows.length - maxLag) ∧
        calls.map TreeCall.vector = features.values.drop (trainRows.length - maxLag) := by
  refine ⟨fun count rows rows' hmonths htake => ?_,
    fun rows rows' nSplits k folds fold hlength hfolds hk hagree => ?_,
    fun trainRows testRows tree calls features hcalls hright hfeatures => ?_⟩
  · have hdrop : (rows.drop count).map MonthlySales.month =
        (rows'.drop count).map MonthlySales.month := by
      rw [List.map_drop, List.map_drop, hmonths]
    have hforecast (model : Forest F) :
        recursiveEnsembleForecast num model (rows.take count) (rows.drop count) =
          recursiveEnsembleForecast num model (rows'.take count) (rows'.drop count) := by
      rw [htake]
      exact recursiveEnsembleForecast_congr model hdrop
    refine ⟨hforecast, ?_⟩
    unfold forecastFrom
    simp only [htake, recursiveEnsembleForecast_congr _ hdrop]
  · obtain ⟨hne, hprecede⟩ :=
      precedes_of_chronologicalFoldIndices hfolds fold (List.mem_of_getElem? hk)
    have heq :
        evaluateFold num fit rows (k + 1) fold = evaluateFold num fit rows' (k + 1) fold := by
      refine evaluateFold_congr _ fun i hi => ?_
      rcases List.mem_append.1 hi with hi | hi
      · obtain ⟨last, hlast⟩ := List.exists_mem_of_ne_nil _ hne
        exact hagree last hlast i (hprecede i hi last hlast).le
      · exact hagree i hi i le_rfl
    refine ⟨heq, fun result result' hresult hresult' => ?_⟩
    obtain ⟨evaluation, hevaluation, hget⟩ := getElem?_folds hfolds hk hresult
    obtain ⟨evaluation', hevaluation', hget'⟩ :=
      getElem?_folds (hlength ▸ hfolds) hk hresult'
    obtain rfl := Except.ok.inj (hevaluation.symm.trans (heq.trans hevaluation'))
    exact ⟨evaluation, hget, hget'⟩
  · exact (vectors_eq_of_right hcalls hright hfeatures).symm

end

/-- The folds that `TimeSeriesSplit` yields. -/
def timeSeriesSplit (nSplits rowCount : ℕ) : List Fold :=
  let size := rowCount / (nSplits + 1)
  (List.range nSplits).map fun k =>
    let start := rowCount - nSplits * size + k * size
    (List.range start, List.range' start size)

/-- Numbers without fractions. -/
def naturals : Numerics ℕ where
  ofNat := id
  mul := (· * ·)
  div := (· / ·)
  sub := (· - ·)
  pi := 3
  sin := id
  cos := id
  sqrt := Nat.sqrt
  abs := id
  square n := n * n
  isFinite _ := true
  mean values := values.sum / values.length
  std _ := 0
  meanAxis0 := List.headI
  percentileAxis0 paths _ := paths.headI

/-- Two years of the same revenue each month, and a tree that repeats what was a year ago. -/
theorem forecasts_use_no_future_constant :
    let rows : List (MonthlySales ℕ) :=
      (List.range 24).map fun n => ⟨⟨2020 + n / 12, n % 12 + 1, 1⟩, 7, 1, 7, "consolidated"⟩
    let tree : Tree ℕ := fun vector => .ok (vector.getD 7 0)
    (∃ folds, chronologicalFoldIndices timeSeriesSplit rows.length 5 = .ok folds ∧
      folds.length = 5) ∧
    ∃ calls features, forecastTree naturals (rows.take 18) (rows.drop 18) tree = .ok calls ∧
      calls.length = 6 ∧
      buildTrainingFeatures naturals (rows.take 18 ++ rows.drop 18) = .ok features ∧
      calls.map TreeCall.vector = features.values.drop ((rows.take 18).length - maxLag) := by
  intro rows tree
  refine ⟨⟨timeSeriesSplit 5 24, by decide +kernel, rfl⟩, ?_⟩
  have htree : (forecastTree naturals (rows.take 18) (rows.drop 18) tree).toOption.any
      (fun calls => decide (calls.length = 6 ∧ calls.map TreeCall.prediction =
        (rows.drop 18).map MonthlySales.revenueEur)) = true := by decide +kernel
  have hbuild : (buildTrainingFeatures naturals (rows.take 18 ++ rows.drop 18)).toOption.isSome =
      true := by decide +kernel
  have hok {α : Type} {x : Except Raised α} {a : α} (h : x.toOption = some a) : x = .ok a := by
    cases x with
    | error e => cases h
    | ok b => exact congrArg Except.ok (Option.some.inj h)
  obtain ⟨calls, hcalls, hmeets⟩ := (Option.any_eq_true _ _).1 htree
  obtain ⟨features, hfeatures⟩ := Option.isSome_iff_exists.1 hbuild
  obtain ⟨hlength, hright⟩ := of_decide_eq_true hmeets
  exact ⟨calls, features, hok hcalls, hlength, hok hfeatures,
    ((forecasts_use_no_future naturals (fun _ _ => .error .forest) timeSeriesSplit).2.2 _ _ tree
      calls features (hok hcalls) hright (hok hfeatures)).2⟩

end SalesForecasting

end TrackFlow
