import Mathlib.Algebra.Order.Floor.Ring
import Mathlib.Data.Rat.Floor
import TrackFlow.Decimal.Division

/-!
# Decimals in a context

The finite numbers of Python's `decimal`: a coefficient and an exponent, so that `5.80` and `5.8`
are different decimals of one value.  Sums and products are formed exactly and then fitted to the
28 digits of the default context; `quantize` rescales, and signals when 28 digits are not enough.

* `mul_eq_times`, `add_eq_plus` : an operation whose exact result fits is exact.
* `quantize_eq_rescale` : `quantize` rescales whatever fits.
* `value_rescale` : what rescaling does to the value of a decimal that is not negative.
* `halfUp_le_halfUp`, `sub_halfUp_le_sub_halfUp` : rounding keeps the order of two numbers, and the
  order of what remains of them after a rounded share of at most the whole.
-/

namespace TrackFlow

namespace Decimal

/-- A finite decimal.  A zero has no sign here. -/
@[ext]
structure Dec where
  coefficient : ℤ
  exponent : ℤ
  deriving DecidableEq, Repr

/-- The digits that the default context keeps. -/
def precision : ℕ := 28

/-- A coefficient that the context keeps as it is. -/
def FitsContext (c : ℤ) : Prop := c.natAbs < 10 ^ precision

instance (c : ℤ) : Decidable (FitsContext c) := inferInstanceAs (Decidable (_ < _))

/-- `c` in units of `10 ^ k`; ties away from zero (`ROUND_HALF_UP`). -/
def halfUp (c : ℤ) (k : ℕ) : ℤ := c.sign * divHalfUp c.natAbs (10 ^ k) 0

/-- The whole number nearest to `q`; ties up. -/
def roundHalfUp (q : ℚ) : ℤ := ⌊q + 1 / 2⌋

namespace Dec

/-- The number that a decimal denotes. -/
def value (d : Dec) : ℚ := d.coefficient * 10 ^ d.exponent

/-- A decimal in units of `10 ^ e`, for an `e` up to its exponent. -/
def units (d : Dec) (e : ℤ) : ℤ := d.coefficient * 10 ^ (d.exponent - e).toNat

/-- The exact product. -/
def times (x y : Dec) : Dec := ⟨x.coefficient * y.coefficient, x.exponent + y.exponent⟩

/-- The exact sum. -/
def plus (x y : Dec) : Dec :=
  let e := min x.exponent y.exponent
  ⟨x.units e + y.units e, e⟩

/-- The decimal with the sign changed. -/
def neg (x : Dec) : Dec := ⟨-x.coefficient, x.exponent⟩

/-- `_fix`: a coefficient that is too long is rounded, ties to even.  Rounding `99…9` up makes one
digit too many, a zero that is dropped as well. -/
def fix (d : Dec) : Dec :=
  if FitsContext d.coefficient then d
  else
    let drop := Nat.log 10 d.coefficient.natAbs + 1 - precision
    let q := divHalfEven d.coefficient.natAbs (10 ^ drop) 0
    if q = 10 ^ precision then
      ⟨d.coefficient.sign * 10 ^ (precision - 1), d.exponent + drop + 1⟩
    else ⟨d.coefficient.sign * q, d.exponent + drop⟩

/-- `x * y`. -/
def mul (x y : Dec) : Dec := (x.times y).fix

/-- `x + y`. -/
def add (x y : Dec) : Dec := (x.plus y).fix

/-- `x - y`. -/
def sub (x y : Dec) : Dec := x.add y.neg

/-- The decimal with exponent `e` that is nearest to `d`; ties away from zero. -/
def rescale (d : Dec) (e : ℤ) : Dec :=
  if e ≤ d.exponent then ⟨d.units e, e⟩
  else ⟨halfUp d.coefficient (e - d.exponent).toNat, e⟩

/-- `d.quantize(Decimal(1).scaleb(e), rounding=ROUND_HALF_UP)`; `none` is `InvalidOperation`. -/
def quantize (d : Dec) (e : ℤ) : Option Dec :=
  if FitsContext (d.rescale e).coefficient then some (d.rescale e) else none

end Dec

/-! ## Results that fit -/

variable {x y d : Dec} {e : ℤ} {c c' : ℤ} {k : ℕ}

namespace Dec

theorem fix_of_fits (h : FitsContext d.coefficient) : d.fix = d := if_pos h

theorem mul_eq_times (h : FitsContext (x.times y).coefficient) : x.mul y = x.times y :=
  fix_of_fits h

theorem add_eq_plus (h : FitsContext (x.plus y).coefficient) : x.add y = x.plus y :=
  fix_of_fits h

theorem quantize_eq_rescale (h : FitsContext (d.rescale e).coefficient) :
    d.quantize e = some (d.rescale e) := if_pos h

@[simp] theorem plus_mk (a b : ℤ) : plus ⟨a, e⟩ ⟨b, e⟩ = ⟨a + b, e⟩ := by
  simp [plus, units]

@[simp] theorem times_mk (a b e e' : ℤ) : times ⟨a, e⟩ ⟨b, e'⟩ = ⟨a * b, e + e'⟩ := rfl

@[simp] theorem neg_mk (a e : ℤ) : neg ⟨a, e⟩ = ⟨-a, e⟩ := rfl

@[simp] theorem rescale_mk (a e : ℤ) : rescale ⟨a, e⟩ e = ⟨a, e⟩ := by
  simp [rescale, units]

theorem rescale_mk_add (a e : ℤ) (k : ℕ) (hk : 0 < k) :
    rescale ⟨a, e⟩ (e + k) = ⟨halfUp a k, e + k⟩ := by
  have hlt : ¬e + k ≤ e := by omega
  have hsub : (e + k - e).toNat = k := by omega
  simp only [rescale, hlt, if_false, hsub]

/-- A product, and its rounding by `k` places. -/
theorem quantize_mul {a b e' t : ℤ} (hk : 0 < k) (ht : e + e' + k = t)
    (h : FitsContext (a * b)) (h' : FitsContext (halfUp (a * b) k)) :
    (mul ⟨a, e⟩ ⟨b, e'⟩).quantize t = some ⟨halfUp (a * b) k, t⟩ := by
  subst ht
  have hrescale := rescale_mk_add (a * b) (e + e') k hk
  have hmul : mul ⟨a, e⟩ ⟨b, e'⟩ = ⟨a * b, e + e'⟩ := mul_eq_times h
  rw [hmul, quantize_eq_rescale (by rw [hrescale]; exact h'), hrescale]

/-- A product that has the wanted exponent. -/
theorem quantize_mul_self {a b e' t : ℤ} (ht : e + e' = t) (h : FitsContext (a * b)) :
    (mul ⟨a, e⟩ ⟨b, e'⟩).quantize t = some ⟨a * b, t⟩ := by
  subst ht
  have hmul : mul ⟨a, e⟩ ⟨b, e'⟩ = ⟨a * b, e + e'⟩ := mul_eq_times h
  rw [hmul, quantize_eq_rescale (by rw [rescale_mk]; exact h), rescale_mk]

theorem add_mk {a b : ℤ} (h : FitsContext (a + b)) : add ⟨a, e⟩ ⟨b, e⟩ = ⟨a + b, e⟩ := by
  rw [add_eq_plus (by rw [plus_mk]; exact h), plus_mk]

theorem quantize_add {a b : ℤ} (h : FitsContext (a + b)) :
    (add ⟨a, e⟩ ⟨b, e⟩).quantize e = some ⟨a + b, e⟩ := by
  rw [add_mk h, quantize_eq_rescale (by rw [rescale_mk]; exact h), rescale_mk]

end Dec

/-! ## Rounding -/

theorem halfUp_of_nonneg (h : 0 ≤ c) (k : ℕ) :
    halfUp c k = (2 * c + 10 ^ k) / (2 * 10 ^ k) := by
  obtain ⟨n, rfl⟩ := Int.eq_ofNat_of_zero_le h
  rcases Nat.eq_zero_or_pos n with rfl | hn
  · have hpow : (0 : ℤ) < 10 ^ k := by positivity
    simp only [halfUp, Nat.cast_zero, Int.sign_zero, zero_mul, mul_zero, zero_add]
    exact (Int.ediv_eq_zero_of_lt hpow.le (by omega)).symm
  · have hsign : (n : ℤ).sign = 1 := Int.sign_eq_one_of_pos (by omega)
    simp only [halfUp, divHalfUp, hsign, one_mul, Int.natAbs_natCast, pow_zero, mul_one]
    push_cast
    rfl

theorem halfUp_nonneg (h : 0 ≤ c) (k : ℕ) : 0 ≤ halfUp c k := by
  rw [halfUp_of_nonneg h]
  positivity

theorem halfUp_le_halfUp (h : 0 ≤ c) (hc : c ≤ c') (k : ℕ) : halfUp c k ≤ halfUp c' k := by
  rw [halfUp_of_nonneg h, halfUp_of_nonneg (h.trans hc)]
  exact Int.ediv_le_ediv (by positivity) (by omega)

/-- The share `r / 10 ^ k` of `c`, rounded, grows no faster than `c`. -/
theorem sub_halfUp_le_sub_halfUp {r : ℤ} (h : 0 ≤ c) (hc : c ≤ c') (hr : 0 ≤ r)
    (hr' : r ≤ 10 ^ k) : c - halfUp (c * r) k ≤ c' - halfUp (c' * r) k := by
  have hpow : (0 : ℤ) < 10 ^ k := by positivity
  have hshare : (c' - c) * r ≤ (c' - c) * 10 ^ k := mul_le_mul_of_nonneg_left hr' (by omega)
  have hle : 2 * (c' * r) + 10 ^ k ≤ 2 * (c * r) + 10 ^ k + (c' - c) * (2 * 10 ^ k) := by
    linarith only [hshare, sub_mul c' c r]
  have hdiv := Int.ediv_le_ediv (show (0 : ℤ) < 2 * 10 ^ k by omega) hle
  rw [Int.add_mul_ediv_right _ _ (by omega)] at hdiv
  rw [halfUp_of_nonneg (mul_nonneg h hr), halfUp_of_nonneg (mul_nonneg (h.trans hc) hr)]
  omega

/-- A rounded share of at most the whole is at most the whole. -/
theorem halfUp_mul_le {r : ℤ} (h : 0 ≤ c) (hr : 0 ≤ r) (hr' : r ≤ 10 ^ k) :
    halfUp (c * r) k ≤ c := by
  have hmono := sub_halfUp_le_sub_halfUp (c := 0) le_rfl h hr hr'
  have hzero : halfUp (0 * r) k = 0 := by simp [halfUp]
  omega

/-- `halfUp` is the nearest whole number of units, ties up, of a number that is not negative. -/
theorem halfUp_eq_roundHalfUp (h : 0 ≤ c) (k : ℕ) :
    halfUp c k = roundHalfUp (c / 10 ^ k) := by
  have hpow : (0 : ℚ) < 2 * 10 ^ k := by positivity
  have hsum : (c : ℚ) / 10 ^ k + 1 / 2 = ((2 * c + 10 ^ k : ℤ) : ℚ) / ((2 * 10 ^ k : ℕ) : ℚ) := by
    push_cast
    field_simp
  rw [halfUp_of_nonneg h, roundHalfUp, hsum, Rat.floor_intCast_div_natCast]
  push_cast
  rfl

/-- Rescaling to cents, say, rounds the number of cents. -/
theorem Dec.value_rescale (h : 0 ≤ d.coefficient) (e : ℤ) :
    (d.rescale e).value = roundHalfUp (d.value / 10 ^ e) * 10 ^ e := by
  have hten : (10 : ℚ) ≠ 0 := by norm_num
  unfold Dec.rescale
  split_ifs with he
  · -- no digit is dropped: the value is a whole number of units
    have hpow : d.value / 10 ^ e = (d.units e : ℚ) := by
      have hsplit : d.exponent = (d.exponent - e).toNat + e := by omega
      rw [value, units, div_eq_iff (zpow_ne_zero e hten)]
      conv_lhs => rw [hsplit, zpow_add₀ hten, zpow_natCast]
      push_cast
      ring
    have hfloor : roundHalfUp (d.units e) = d.units e := by
      rw [roundHalfUp, Int.floor_eq_iff]
      constructor <;> linarith
    rw [hpow, hfloor, value]
  · have hpow : d.value / 10 ^ e = d.coefficient / 10 ^ (e - d.exponent).toNat := by
      have hsplit : e = (e - d.exponent).toNat + d.exponent := by omega
      rw [value, div_eq_div_iff (zpow_ne_zero e hten) (pow_ne_zero _ hten)]
      conv_rhs => rw [hsplit, zpow_add₀ hten, zpow_natCast]
      ring
    rw [hpow, ← halfUp_eq_roundHalfUp h, value]

end Decimal

end TrackFlow
