import TrackFlow.Decimal.Context
import TrackFlow.Rfp.Models

/-!
# The cost estimate of a proposal

`pricing.py`: three lines, each rounded to cents, and a volume discount on the first two, rounded
again.  `buildCostBreakdown` computes in the decimals of the default context and fails where
`quantize` signals.

* `Amounts` : the same computation in whole units, hundredths of a cubic metre and cents.
* `buildCostBreakdown_eq` : as long as those amounts fit the context, the estimate is theirs.
* `cost_breakdown_consistent` : **the printed figures add up, the discount never reaches storage,
  and within a tier a larger volume never has the smaller total.**
-/

namespace TrackFlow

namespace Rfp

open Decimal (Dec FitsContext halfUp roundHalfUp)

/-! ## The rate card -/

/-- `LAST_MILE_STANDARD`. -/
def lastMileStandard : Currency → Dec
  | .usd => ⟨640, -2⟩
  | .eur => ⟨580, -2⟩

/-- `RETURNS_PROCESSING`. -/
def returnsProcessing : Currency → Dec
  | .usd => ⟨390, -2⟩
  | .eur => ⟨350, -2⟩

/-- `STORAGE_PER_CUBIC_METER`. -/
def storagePerCubicMeter : Currency → Dec
  | .usd => ⟨1800, -2⟩
  | .eur => ⟨1600, -2⟩

/-- `CUBIC_METERS_PER_ORDER`. -/
def cubicMetersPerOrder : Dec := ⟨12, -3⟩

/-- `RETURN_RATE`. -/
def returnRate : Dec := ⟨6, -2⟩

/-- `DISCOUNT_TIERS`. -/
def discountTiers : List (ℤ × Dec × String) :=
  [(20000, ⟨12, -2⟩, "20,000+ orders / month"),
    (5000, ⟨8, -2⟩, "5,000-19,999 orders / month"),
    (1000, ⟨5, -2⟩, "1,000-4,999 orders / month"),
    (0, ⟨0, -2⟩, "Up to 999 orders / month")]

/-- `CURRENCY_SYMBOLS`. -/
def currencySymbols : Currency → String
  | .usd => "$"
  | .eur => "€"

/-- The keys of `CURRENCY_SYMBOLS`. -/
def currencyOf (key : String) : Option Currency :=
  if key = "USD" then some .usd else if key = "EUR" then some .eur else none

/-- `FALLBACK_MONTHLY_VOLUME`. -/
def fallbackMonthlyVolume : ℤ := 1000

/-! ## The estimate -/

/-- `CostLine`. -/
structure CostLine where
  label : String
  quantity : Dec
  unit : String
  unitPrice : Dec
  lineTotal : Dec
  deriving DecidableEq

/-- `CostBreakdown`. -/
structure CostBreakdown where
  currency : Currency
  symbol : String
  monthlyVolume : ℤ
  volumeAssumed : Bool
  lines : List CostLine
  subtotal : Dec
  discountRate : Dec
  discountTierLabel : String
  discountAmount : Dec
  total : Dec
  assumptions : List String
  deriving DecidableEq

/-- `_money`. -/
def money (value : Dec) : Option Dec := value.quantize (-2)

/-- `resolve_currency`. -/
def resolveCurrency (currency : Option String) : Currency :=
  (currency.bind currencyOf).getD .usd

/-- `discount_for_volume`. -/
def discountForVolume (monthlyVolume : ℤ) : Dec × String :=
  match discountTiers.find? fun tier => decide (tier.1 ≤ monthlyVolume) with
  | some (_, rate, label) => (rate, label)
  | none => (⟨0, -2⟩, (discountTiers.getLast (by decide)).2.2)

/-- `volume_assumed`. -/
def isVolumeAssumed : Option ℤ → Bool
  | none => true
  | some monthlyVolume => decide (monthlyVolume ≤ 0)

/-- The volume that is quoted. -/
def quotedVolume (monthlyVolume : Option ℤ) : ℤ :=
  if isVolumeAssumed monthlyVolume then fallbackMonthlyVolume else monthlyVolume.getD 0

/-- The assumptions that the estimate states. -/
def costAssumptions (volumeAssumed : Bool) : List String :=
  (if volumeAssumed then
    ["The RFP did not state a monthly volume; 1,000 orders " ++
      "per month is used as an illustrative figure."]
  else []) ++
  ["Storage estimated at 0.012 m³ per monthly order; to be " ++
      "confirmed once real product dimensions are known.",
    "Returns estimated at 6% of monthly orders.",
    "Standard delivery service assumed for all shipments.",
    "Volume discount applies to last-mile and returns processing only. Storage " ++
      "discounts require account-management approval and are not included here."]

/-- `build_cost_breakdown`; `none` if an operation signals. -/
def buildCostBreakdown (currency : Option String) (monthlyVolume : Option ℤ) :
    Option CostBreakdown := do
  let code := resolveCurrency currency
  let volume := quotedVolume monthlyVolume
  let orders : Dec := ⟨volume, 0⟩
  let returnedUnits ← (orders.mul returnRate).quantize 0
  let cubicMeters ← (orders.mul cubicMetersPerOrder).quantize (-2)
  let lastMileTotal ← money (orders.mul (lastMileStandard code))
  let lastMile : CostLine :=
    { label := "Last-mile delivery (standard)", quantity := orders, unit := "shipments / month"
      unitPrice := lastMileStandard code, lineTotal := lastMileTotal }
  let returnsTotal ← money (returnedUnits.mul (returnsProcessing code))
  let returns : CostLine :=
    { label := "Returns processing", quantity := returnedUnits, unit := "units / month"
      unitPrice := returnsProcessing code, lineTotal := returnsTotal }
  let storageTotal ← money (cubicMeters.mul (storagePerCubicMeter code))
  let storage : CostLine :=
    { label := "Storage (estimated)", quantity := cubicMeters, unit := "m³ / month"
      unitPrice := storagePerCubicMeter code, lineTotal := storageTotal }
  -- the tier applies to fulfilment only; storage is added back after it
  let discountable := lastMile.lineTotal.add returns.lineTotal
  let (rate, tierLabel) := discountForVolume volume
  let discountAmount ← money (discountable.mul rate)
  let subtotal ← money (discountable.add storage.lineTotal)
  let total ← money (subtotal.sub discountAmount)
  return {
    currency := code, symbol := currencySymbols code, monthlyVolume := volume
    volumeAssumed := isVolumeAssumed monthlyVolume, lines := [lastMile, returns, storage]
    subtotal := subtotal, discountRate := rate, discountTierLabel := tierLabel
    discountAmount := discountAmount, total := total
    assumptions := costAssumptions (isVolumeAssumed monthlyVolume) }

/-! ## The estimate in whole numbers -/

/-- The amounts of an estimate: units, hundredths of a cubic metre, and cents. -/
structure Amounts where
  returnedUnits : ℤ
  cubicMeters : ℤ
  lastMile : ℤ
  returns : ℤ
  storage : ℤ
  discount : ℤ

/-- The amounts for a volume, under a rate card. -/
def amounts (code : Currency) (volume : ℤ) : Amounts :=
  let returnedUnits := halfUp (volume * returnRate.coefficient) 2
  let cubicMeters := halfUp (volume * cubicMetersPerOrder.coefficient) 1
  let lastMile := volume * (lastMileStandard code).coefficient
  let returns := returnedUnits * (returnsProcessing code).coefficient
  { returnedUnits := returnedUnits, cubicMeters := cubicMeters
    lastMile := lastMile, returns := returns
    storage := halfUp (cubicMeters * (storagePerCubicMeter code).coefficient) 2
    discount := halfUp ((lastMile + returns) * (discountForVolume volume).1.coefficient) 2 }

/-- What the tier applies to. -/
def Amounts.discountable (a : Amounts) : ℤ := a.lastMile + a.returns

/-- The monthly total. -/
def Amounts.total (a : Amounts) : ℤ := a.discountable + a.storage - a.discount

/-- Every number that the estimate for a volume forms fits the 28 digits of the context: the
products before they are rounded, the amounts and their sums. -/
def AmountsFit (code : Currency) (volume : ℤ) : Prop :=
  let a := amounts code volume
  ∀ c ∈ [volume * returnRate.coefficient, a.returnedUnits,
    volume * cubicMetersPerOrder.coefficient, a.cubicMeters, a.lastMile, a.returns,
    a.cubicMeters * (storagePerCubicMeter code).coefficient, a.storage, a.discountable,
    a.discountable * (discountForVolume volume).1.coefficient, a.discount,
    a.discountable + a.storage, a.total], FitsContext c

instance (code : Currency) (volume : ℤ) : Decidable (AmountsFit code volume) :=
  inferInstanceAs (Decidable (∀ c ∈ _, FitsContext c))

/-- The estimate that the amounts make up. -/
def estimate (code : Currency) (monthlyVolume : Option ℤ) : CostBreakdown :=
  let volume := quotedVolume monthlyVolume
  let a := amounts code volume
  { currency := code, symbol := currencySymbols code, monthlyVolume := volume
    volumeAssumed := isVolumeAssumed monthlyVolume
    lines := [
      ⟨"Last-mile delivery (standard)", ⟨volume, 0⟩, "shipments / month",
        lastMileStandard code, ⟨a.lastMile, -2⟩⟩,
      ⟨"Returns processing", ⟨a.returnedUnits, 0⟩, "units / month",
        returnsProcessing code, ⟨a.returns, -2⟩⟩,
      ⟨"Storage (estimated)", ⟨a.cubicMeters, -2⟩, "m³ / month",
        storagePerCubicMeter code, ⟨a.storage, -2⟩⟩]
    subtotal := ⟨a.discountable + a.storage, -2⟩
    discountRate := (discountForVolume volume).1
    discountTierLabel := (discountForVolume volume).2
    discountAmount := ⟨a.discount, -2⟩, total := ⟨a.total, -2⟩
    assumptions := costAssumptions (isVolumeAssumed monthlyVolume) }

variable {currency : Option String} {code : Currency} {monthlyVolume : Option ℤ} {volume v v' : ℤ}

theorem lastMileStandard_eq (code : Currency) :
    lastMileStandard code = ⟨(lastMileStandard code).coefficient, -2⟩ := by
  cases code <;> rfl

theorem returnsProcessing_eq (code : Currency) :
    returnsProcessing code = ⟨(returnsProcessing code).coefficient, -2⟩ := by
  cases code <;> rfl

theorem storagePerCubicMeter_eq (code : Currency) :
    storagePerCubicMeter code = ⟨(storagePerCubicMeter code).coefficient, -2⟩ := by
  cases code <;> rfl

/-- What `discount_for_volume` returns is one of the published tiers. -/
theorem discountForVolume_mem (volume : ℤ) :
    discountForVolume volume ∈ discountTiers.map Prod.snd := by
  unfold discountForVolume
  split
  · rename_i tier rate label h
    exact List.mem_map_of_mem (List.mem_of_find?_eq_some h)
  · decide

/-- Every published rate is a whole percentage, up to the whole. -/
theorem discount_rate (volume : ℤ) :
    (discountForVolume volume).1.exponent = -2 ∧
      0 ≤ (discountForVolume volume).1.coefficient ∧
      (discountForVolume volume).1.coefficient ≤ 10 ^ 2 := by
  have hall : ∀ tier ∈ discountTiers.map Prod.snd,
      tier.1.exponent = -2 ∧ 0 ≤ tier.1.coefficient ∧ tier.1.coefficient ≤ 10 ^ 2 := by decide
  exact hall _ (discountForVolume_mem volume)

/-- The label of a tier tells its rate. -/
theorem discountForVolume_eq_of_label
    (h : (discountForVolume v).2 = (discountForVolume v').2) :
    discountForVolume v = discountForVolume v' := by
  have hall : ∀ tier ∈ discountTiers.map Prod.snd, ∀ tier' ∈ discountTiers.map Prod.snd,
      tier.2 = tier'.2 → tier = tier' := by decide
  exact hall _ (discountForVolume_mem v) _ (discountForVolume_mem v') h

/-- **As long as the amounts fit, they are the estimate.** -/
theorem buildCostBreakdown_eq
    (h : AmountsFit (resolveCurrency currency) (quotedVolume monthlyVolume)) :
    buildCostBreakdown currency monthlyVolume =
      some (estimate (resolveCurrency currency) monthlyVolume) := by
  unfold buildCostBreakdown
  simp only [estimate]
  generalize resolveCurrency currency = code at h ⊢
  generalize quotedVolume monthlyVolume = volume at h ⊢
  have hrate := (discount_rate volume).1
  obtain ⟨hreturned, hunits, hcubic, hmeters, hlast, hreturns, hstored, hstorage, hdiscountable,
    hshare, hdiscount, hsubtotal, htotal⟩ := by
    simpa only [AmountsFit, List.forall_mem_cons, List.not_mem_nil, false_implies, implies_true,
      and_true] using h
  have h₁ : (Dec.mul ⟨volume, 0⟩ returnRate).quantize 0 =
      some ⟨(amounts code volume).returnedUnits, 0⟩ :=
    Dec.quantize_mul (by decide) (by decide) hreturned hunits
  have h₂ : (Dec.mul ⟨volume, 0⟩ cubicMetersPerOrder).quantize (-2) =
      some ⟨(amounts code volume).cubicMeters, -2⟩ :=
    Dec.quantize_mul (by decide) (by decide) hcubic hmeters
  have h₃ : money (Dec.mul ⟨volume, 0⟩ (lastMileStandard code)) =
      some ⟨(amounts code volume).lastMile, -2⟩ := by
    rw [lastMileStandard_eq]
    exact Dec.quantize_mul_self (by decide) hlast
  have h₄ : money (Dec.mul ⟨(amounts code volume).returnedUnits, 0⟩ (returnsProcessing code)) =
      some ⟨(amounts code volume).returns, -2⟩ := by
    rw [returnsProcessing_eq]
    exact Dec.quantize_mul_self (by decide) hreturns
  have h₅ : money (Dec.mul ⟨(amounts code volume).cubicMeters, -2⟩ (storagePerCubicMeter code)) =
      some ⟨(amounts code volume).storage, -2⟩ := by
    rw [storagePerCubicMeter_eq]
    exact Dec.quantize_mul (by decide) (by decide) hstored hstorage
  have h₆ : Dec.add ⟨(amounts code volume).lastMile, -2⟩ ⟨(amounts code volume).returns, -2⟩ =
      ⟨(amounts code volume).discountable, -2⟩ := Dec.add_mk hdiscountable
  have h₇ : money (Dec.mul ⟨(amounts code volume).discountable, -2⟩
      (discountForVolume volume).1) = some ⟨(amounts code volume).discount, -2⟩ := by
    have heq : (discountForVolume volume).1 = ⟨(discountForVolume volume).1.coefficient, -2⟩ :=
      Dec.ext rfl hrate
    rw [heq]
    exact Dec.quantize_mul (by decide) (by decide) hshare hdiscount
  have h₈ : money (Dec.add ⟨(amounts code volume).discountable, -2⟩
      ⟨(amounts code volume).storage, -2⟩) =
      some ⟨(amounts code volume).discountable + (amounts code volume).storage, -2⟩ :=
    Dec.quantize_add hsubtotal
  have h₉ : money (Dec.sub
      ⟨(amounts code volume).discountable + (amounts code volume).storage, -2⟩
      ⟨(amounts code volume).discount, -2⟩) = some ⟨(amounts code volume).total, -2⟩ :=
    Dec.quantize_add htotal
  simp only [h₁, h₂, h₃, h₄, h₅, h₆, h₇, h₈, h₉, Option.bind_eq_bind, Option.bind_some,
    Option.pure_def]

/-! ## The figures -/

theorem quotedVolume_pos (monthlyVolume : Option ℤ) : 0 < quotedVolume monthlyVolume := by
  cases monthlyVolume with
  | none => decide
  | some v =>
    by_cases hv : v ≤ 0
    · simp [quotedVolume, isVolumeAssumed, hv, fallbackMonthlyVolume]
    · have hquoted : quotedVolume (some v) = v := by simp [quotedVolume, isVolumeAssumed, hv]
      rw [hquoted]
      omega

theorem unit_prices_nonneg (code : Currency) :
    0 ≤ (lastMileStandard code).coefficient ∧ 0 ≤ (returnsProcessing code).coefficient ∧
      0 ≤ (storagePerCubicMeter code).coefficient := by
  cases code <;> decide

theorem amounts_nonneg (code : Currency) (hv : 0 ≤ v) :
    0 ≤ (amounts code v).returnedUnits ∧ 0 ≤ (amounts code v).cubicMeters ∧
      0 ≤ (amounts code v).lastMile ∧ 0 ≤ (amounts code v).returns := by
  obtain ⟨hlast, hreturns, -⟩ := unit_prices_nonneg code
  have hunits : 0 ≤ (amounts code v).returnedUnits :=
    Decimal.halfUp_nonneg (mul_nonneg hv (by decide)) 2
  exact ⟨hunits, Decimal.halfUp_nonneg (mul_nonneg hv (by decide)) 1, mul_nonneg hv hlast,
    mul_nonneg hunits hreturns⟩

/-- Every line grows with the volume. -/
theorem lines_mono (code : Currency) (hv : 0 ≤ v) (hle : v ≤ v') :
    (amounts code v).discountable ≤ (amounts code v').discountable ∧
      (amounts code v).storage ≤ (amounts code v').storage := by
  obtain ⟨hlast, hreturns, hstorage⟩ := unit_prices_nonneg code
  obtain ⟨-, hmeters, -, -⟩ := amounts_nonneg code hv
  have hunits : (amounts code v).returnedUnits ≤ (amounts code v').returnedUnits :=
    Decimal.halfUp_le_halfUp (mul_nonneg hv (by decide))
      (mul_le_mul_of_nonneg_right hle (by decide)) 2
  have hcubic : (amounts code v).cubicMeters ≤ (amounts code v').cubicMeters :=
    Decimal.halfUp_le_halfUp (mul_nonneg hv (by decide))
      (mul_le_mul_of_nonneg_right hle (by decide)) 1
  constructor
  · exact add_le_add (mul_le_mul_of_nonneg_right hle hlast)
      (mul_le_mul_of_nonneg_right hunits hreturns)
  · exact Decimal.halfUp_le_halfUp (mul_nonneg hmeters hstorage)
      (mul_le_mul_of_nonneg_right hcubic hstorage) 2

theorem discountable_nonneg (code : Currency) (hv : 0 ≤ v) :
    0 ≤ (amounts code v).discountable := by
  obtain ⟨-, -, hlast, hreturns⟩ := amounts_nonneg code hv
  exact add_nonneg hlast hreturns

/-- The discount is at most what it applies to. -/
theorem storage_le_total (code : Currency) (hv : 0 ≤ v) :
    (amounts code v).storage ≤ (amounts code v).total := by
  obtain ⟨-, hrate, hrate'⟩ := discount_rate v
  have hle : (amounts code v).discount ≤ (amounts code v).discountable :=
    Decimal.halfUp_mul_le (discountable_nonneg code hv) hrate hrate'
  unfold Amounts.total
  omega

/-- Within a tier the total grows with the volume. -/
theorem total_mono (code : Currency) (hv : 0 ≤ v) (hle : v ≤ v')
    (htier : discountForVolume v = discountForVolume v') :
    (amounts code v).total ≤ (amounts code v').total := by
  obtain ⟨hdiscountable, hstorage⟩ := lines_mono code hv hle
  obtain ⟨-, hrate, hrate'⟩ := discount_rate v
  have hnet : (amounts code v).discountable - (amounts code v).discount ≤
      (amounts code v').discountable - (amounts code v').discount := by
    have hdiscount : (amounts code v').discount = halfUp
        ((amounts code v').discountable * (discountForVolume v).1.coefficient) 2 := by
      rw [htier]
      rfl
    rw [hdiscount]
    exact Decimal.sub_halfUp_le_sub_halfUp (discountable_nonneg code hv) hdiscountable hrate hrate'
  unfold Amounts.total
  omega

/-- Only volumes from 1,000 on are in the tier of the fallback volume. -/
theorem fallback_le_of_label
    (h : (discountForVolume fallbackMonthlyVolume).2 = (discountForVolume v).2) :
    fallbackMonthlyVolume ≤ v := by
  by_contra hlt
  have hv : v < 1000 := by simpa [fallbackMonthlyVolume] using hlt
  have hlabel : (discountForVolume v).2 = "Up to 999 orders / month" := by
    have h₁ : ¬20000 ≤ v := by omega
    have h₂ : ¬5000 ≤ v := by omega
    have h₃ : ¬1000 ≤ v := by omega
    by_cases h₄ : 0 ≤ v
    · simp [discountForVolume, discountTiers, h₁, h₂, h₃, h₄]
    · simp [discountForVolume, discountTiers, h₁, h₂, h₃, h₄]
  rw [hlabel] at h
  exact absurd h (by decide)

/-- Of two volumes that are quoted in one tier, the smaller is quoted for no more. -/
theorem quotedVolume_le (hle : v ≤ v') (h : (discountForVolume (quotedVolume (some v))).2 =
    (discountForVolume (quotedVolume (some v'))).2) :
    quotedVolume (some v) ≤ quotedVolume (some v') := by
  by_cases hv' : v' ≤ 0
  · have hv : v ≤ 0 := hle.trans hv'
    simp [quotedVolume, isVolumeAssumed, hv, hv']
  · have hquoted' : quotedVolume (some v') = v' := by simp [quotedVolume, isVolumeAssumed, hv']
    rw [hquoted'] at h ⊢
    by_cases hv : v ≤ 0
    · have hquoted : quotedVolume (some v) = fallbackMonthlyVolume := by
        simp [quotedVolume, isVolumeAssumed, hv]
      rw [hquoted] at h ⊢
      exact fallback_le_of_label h
    · simpa [quotedVolume, isVolumeAssumed, hv] using hle

/-- A request for no more than another: it asks for no more, or it is quoted for no more. -/
def AtMost (monthlyVolume monthlyVolume' : Option ℤ) : Prop :=
  quotedVolume monthlyVolume ≤ quotedVolume monthlyVolume' ∨
    ∃ v v', monthlyVolume = some v ∧ monthlyVolume' = some v' ∧ v ≤ v'

theorem AtMost.quotedVolume_le {monthlyVolume' : Option ℤ} (h : AtMost monthlyVolume monthlyVolume')
    (hlabel : (discountForVolume (quotedVolume monthlyVolume)).2 =
      (discountForVolume (quotedVolume monthlyVolume')).2) :
    quotedVolume monthlyVolume ≤ quotedVolume monthlyVolume' := by
  rcases h with h | ⟨v, v', rfl, rfl, hle⟩
  · exact h
  · exact Rfp.quotedVolume_le hle hlabel

/-- The value of a number of cents. -/
theorem value_cents (c : ℤ) : (⟨c, -2⟩ : Dec).value = c / 100 := by
  rw [Dec.value]
  norm_num [zpow_neg, div_eq_mul_inv]

/-- The discount is the tier's share of the discountable cents, rounded to cents. -/
theorem value_discount (code : Currency) (hv : 0 ≤ v) :
    (⟨(amounts code v).discount, -2⟩ : Dec).value =
      roundHalfUp ((discountForVolume v).1.value *
        ((⟨(amounts code v).lastMile, -2⟩ : Dec).value +
          (⟨(amounts code v).returns, -2⟩ : Dec).value) * 100) / 100 := by
  obtain ⟨hexponent, hrate, -⟩ := discount_rate v
  have hshare : 0 ≤ (amounts code v).discountable * (discountForVolume v).1.coefficient :=
    mul_nonneg (discountable_nonneg code hv) hrate
  have hrounded := Decimal.halfUp_eq_roundHalfUp hshare 2
  have hvalue : (discountForVolume v).1.value = (discountForVolume v).1.coefficient / 100 := by
    rw [← value_cents]
    exact congrArg Dec.value (Dec.ext rfl hexponent)
  have hcents : (discountForVolume v).1.value *
      ((⟨(amounts code v).lastMile, -2⟩ : Dec).value +
        (⟨(amounts code v).returns, -2⟩ : Dec).value) * 100 =
      ((amounts code v).discountable * (discountForVolume v).1.coefficient : ℤ) / 10 ^ 2 := by
    rw [hvalue, value_cents, value_cents, Amounts.discountable]
    push_cast
    ring
  rw [value_cents, hcents, ← hrounded]
  rfl

/-- **The printed figures of an estimate.**  They are whole cents; the total is the sum of the
lines less the discount; the discount is the tier's rate of last mile and returns, rounded half up,
so that the total covers storage; and a request in the same tier for at least as much has at least
that total. -/
theorem cost_breakdown_consistent
    (h : AmountsFit (resolveCurrency currency) (quotedVolume monthlyVolume)) :
    ∃ b lastMile returns storage, buildCostBreakdown currency monthlyVolume = some b ∧
      b.lines = [lastMile, returns, storage] ∧
      (lastMile.label, returns.label, storage.label) =
        ("Last-mile delivery (standard)", "Returns processing", "Storage (estimated)") ∧
      (b.discountRate, b.discountTierLabel) = discountForVolume b.monthlyVolume ∧
      (∀ amount ∈ [lastMile.lineTotal, returns.lineTotal, storage.lineTotal, b.discountAmount,
        b.total], amount.exponent = -2) ∧
      b.total.value =
        (b.lines.map fun line => line.lineTotal.value).sum - b.discountAmount.value ∧
      b.discountAmount.value = roundHalfUp (b.discountRate.value *
        (lastMile.lineTotal.value + returns.lineTotal.value) * 100) / 100 ∧
      storage.lineTotal.value ≤ b.total.value ∧
      ∀ monthlyVolume' b', AtMost monthlyVolume monthlyVolume' →
        AmountsFit (resolveCurrency currency) (quotedVolume monthlyVolume') →
        buildCostBreakdown currency monthlyVolume' = some b' →
        b.discountTierLabel = b'.discountTierLabel → b.total.value ≤ b'.total.value := by
  have hpos := (quotedVolume_pos monthlyVolume).le
  refine ⟨estimate (resolveCurrency currency) monthlyVolume, _, _, _, buildCostBreakdown_eq h,
    rfl, rfl, rfl, ?_, ?_, value_discount _ hpos, ?_, ?_⟩
  · simp [estimate]
  · simp only [estimate, List.map_cons, List.map_nil, List.sum_cons, List.sum_nil, value_cents,
      Amounts.total, Amounts.discountable]
    push_cast
    ring
  · have hle := storage_le_total (resolveCurrency currency) hpos
    simp only [estimate, value_cents]
    gcongr
  · intro monthlyVolume' b' hmost hfit hb htier
    obtain rfl := Option.some.inj ((buildCostBreakdown_eq hfit).symm.trans hb)
    have hle := total_mono (resolveCurrency currency) hpos (hmost.quotedVolume_le htier)
      (discountForVolume_eq_of_label htier)
    simp only [estimate, value_cents]
    gcongr

/-- 1,500 orders a month, quoted in euros, and 2,000 orders in the same tier. -/
theorem cost_breakdown_consistent_euros :
    ∃ b b', buildCostBreakdown (some "EUR") (some 1500) = some b ∧
      buildCostBreakdown (some "EUR") (some 2000) = some b' ∧
      b.total.value = (b.lines.map fun line => line.lineTotal.value).sum -
        b.discountAmount.value ∧
      (b.discountAmount, b.total) = (⟨45075, -2⟩, ⟨885225, -2⟩) ∧
      b.total.value ≤ b'.total.value := by
  have hfit : AmountsFit (resolveCurrency (some "EUR")) (quotedVolume (some 1500)) := by decide
  have hfit' : AmountsFit (resolveCurrency (some "EUR")) (quotedVolume (some 2000)) := by decide
  obtain ⟨b, _, _, _, hb, -, -, -, -, hsum, -, -, hmono⟩ := cost_breakdown_consistent hfit
  have hb' := buildCostBreakdown_eq hfit'
  obtain rfl := Option.some.inj ((buildCostBreakdown_eq hfit).symm.trans hb)
  exact ⟨_, _, hb, hb', hsum, by decide,
    hmono (some 2000) _ (.inl (by decide)) hfit' hb' (by decide)⟩

end Rfp

end TrackFlow
