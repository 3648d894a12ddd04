import Mathlib.Algebra.Order.Field.Basic
import Mathlib.Algebra.Order.Field.Rat
import Mathlib.Data.Nat.Log
import Mathlib.Tactic.FieldSimp
import Mathlib.Tactic.Linarith
import Mathlib.Tactic.Positivity

/-!
# Decimal quotients

The quotient of two natural numbers in two decimal arithmetics, both of which choose a number of
decimals and round to it:

* `numericDiv` : the division of PostgreSQL's `numeric`, for operands without decimals.  The
  scale is estimated from the base-10000 digits of the operands, ties round up.
* `decimalDiv` : the division of Python's `decimal` in its default context, for quotients below
  `10 ^ 28`.  Twenty-eight significant digits are kept, ties round to even.

`IsNearest` is what a rounding to `s` decimals has to satisfy; everything below follows from it
and from bounds on the two scales.
-/

namespace TrackFlow

namespace Decimal

/-! ## Rounding to a number of decimals -/

/-- `n` units of `10 ^ (-s)` are nearest to `a / b`. -/
def IsNearest (a b s n : ℕ) : Prop :=
  2 * (a * 10 ^ s) ≤ 2 * (b * n) + b ∧ 2 * (b * n) ≤ 2 * (a * 10 ^ s) + b

/-- `a / b` in units of `10 ^ (-s)`; ties round up. -/
def divHalfUp (a b s : ℕ) : ℕ := (2 * (a * 10 ^ s) + b) / (2 * b)

/-- `a / b` in units of `10 ^ (-s)`; ties round to even. -/
def divHalfEven (a b s : ℕ) : ℕ :=
  let q := a * 10 ^ s / b
  let r := a * 10 ^ s % b
  if 2 * r < b ∨ (2 * r = b ∧ q % 2 = 0) then q else q + 1

/-- `n` units of `10 ^ (-s)`. -/
def ofUnits (n s : ℕ) : ℚ := n / 10 ^ s

variable {a b s n : ℕ}

theorem divHalfUp_isNearest (hb : 0 < b) : IsNearest a b s (divHalfUp a b s) := by
  have hdiv := Nat.div_add_mod (2 * (a * 10 ^ s) + b) (2 * b)
  have hmod := Nat.mod_lt (2 * (a * 10 ^ s) + b) (show 0 < 2 * b by omega)
  have hassoc := Nat.mul_assoc 2 b ((2 * (a * 10 ^ s) + b) / (2 * b))
  unfold IsNearest divHalfUp
  omega

theorem divHalfEven_isNearest (hb : 0 < b) : IsNearest a b s (divHalfEven a b s) := by
  have hdiv := Nat.div_add_mod (a * 10 ^ s) b
  have hmod := Nat.mod_lt (a * 10 ^ s) hb
  unfold IsNearest divHalfEven
  simp only
  split_ifs with h
  · omega
  · rw [Nat.mul_add, Nat.mul_one]
    omega

theorem ofUnits_nonneg (n s : ℕ) : 0 ≤ ofUnits n s := by
  unfold ofUnits
  positivity

/-- The error of a rounding is at most half a unit. -/
theorem IsNearest.abs_sub_le (h : IsNearest a b s n) (hb : 0 < b) :
    |ofUnits n s - a / b| ≤ 1 / (2 * 10 ^ s) := by
  have hb' : (0 : ℚ) < b := by exact_mod_cast hb
  have hs : (0 : ℚ) < 10 ^ s := by positivity
  have h₁ : (2 : ℚ) * (a * 10 ^ s) ≤ 2 * (b * n) + b := by exact_mod_cast h.1
  have h₂ : (2 : ℚ) * (b * n) ≤ 2 * (a * 10 ^ s) + b := by exact_mod_cast h.2
  have hsub : ofUnits n s - a / b = (2 * (b * n) - 2 * (a * 10 ^ s)) / (b * (2 * 10 ^ s)) := by
    unfold ofUnits
    field_simp
  have hbound : (1 : ℚ) / (2 * 10 ^ s) = b / (b * (2 * 10 ^ s)) := by field_simp
  rw [hsub, hbound, abs_div, abs_of_pos (show (0 : ℚ) < b * (2 * 10 ^ s) by positivity)]
  refine div_le_div_of_nonneg_right ?_ (by positivity)
  rw [abs_le]
  constructor <;> linarith

/-- A quotient with at most `s` decimals is not rounded. -/
theorem IsNearest.eq_of_dvd (h : IsNearest a b s n) (hb : 0 < b) (hd : b ∣ a * 10 ^ s) :
    ofUnits n s = a / b := by
  obtain ⟨k, hk⟩ := hd
  -- two multiples of `b` that are less than `b` apart
  have hn : n = k := by
    unfold IsNearest at h
    rw [hk] at h
    have h₁ : ¬ n < k := fun hlt => by
      have := Nat.mul_le_mul_left b (Nat.succ_le_of_lt hlt)
      rw [Nat.mul_succ] at this
      omega
    have h₂ : ¬ k < n := fun hlt => by
      have := Nat.mul_le_mul_left b (Nat.succ_le_of_lt hlt)
      rw [Nat.mul_succ] at this
      omega
    omega
  have hb' : (b : ℚ) ≠ 0 := by exact_mod_cast hb.ne'
  have hkq : (a : ℚ) * 10 ^ s = b * k := by exact_mod_cast hk
  rw [ofUnits, hn, div_eq_div_iff (by positivity) hb']
  linarith

/-- Rounding does not lift a quotient above one. -/
theorem IsNearest.ofUnits_le_one (h : IsNearest a b s n) (hb : 0 < b) (hab : a ≤ b) :
    ofUnits n s ≤ 1 := by
  have hn : n ≤ 10 ^ s := by
    by_contra hlt
    have h₁ := Nat.mul_le_mul_left b (Nat.succ_le_of_lt (Nat.lt_of_not_le hlt))
    have h₂ := Nat.mul_le_mul_right (10 ^ s) hab
    have h₃ := h.2
    rw [Nat.mul_succ] at h₁
    omega
  have hn' : (n : ℚ) ≤ 10 ^ s := by exact_mod_cast hn
  exact (div_le_one (by positivity)).2 hn'

/-- A quotient above one stays above one if there are enough decimals. -/
theorem one_lt_ofUnits_divHalfUp (hb : 0 < b) (h : b ≤ 2 * ((a - b) * 10 ^ s)) (hab : b < a) :
    1 < ofUnits (divHalfUp a b s) s := by
  have hsub : a * 10 ^ s = b * 10 ^ s + (a - b) * 10 ^ s := by
    rw [← Nat.add_mul, Nat.add_sub_cancel' hab.le]
  have hn : 10 ^ s + 1 ≤ divHalfUp a b s := by
    rw [divHalfUp, Nat.le_div_iff_mul_le (by omega), Nat.add_mul, Nat.one_mul,
      Nat.mul_left_comm, Nat.mul_comm (10 ^ s)]
    omega
  have hn' : (10 : ℚ) ^ s < divHalfUp a b s := by exact_mod_cast hn
  exact (one_lt_div (by positivity)).2 hn'

/-! ## PostgreSQL -/

/-- The weight of the first base-10000 digit of a `numeric`. -/
def weight (n : ℕ) : ℕ := Nat.log 10000 n

/-- The first base-10000 digit of a `numeric`. -/
def firstDigit (n : ℕ) : ℕ := n / 10000 ^ weight n

/-- The estimated weight of a quotient. -/
def quotientWeight (a b : ℕ) : ℤ :=
  (weight a : ℤ) - weight b - if firstDigit a ≤ firstDigit b then 1 else 0

/-- The number of decimals of a quotient: sixteen significant digits at least. -/
def numericScale (a b : ℕ) : ℕ := min (16 - 4 * quotientWeight a b).toNat 1000

/-- `a::numeric / b`. -/
def numericDiv (a b : ℕ) : ℚ := ofUnits (divHalfUp a b (numericScale a b)) (numericScale a b)

theorem weight_mono {m n : ℕ} (h : m ≤ n) : weight m ≤ weight n := Nat.log_mono_right h

theorem sixteen_le_numericScale (hab : a ≤ b) : 16 ≤ numericScale a b := by
  have hw := weight_mono hab
  unfold numericScale quotientWeight
  split_ifs <;> omega

/-- The estimate of the weight is off by one at most. -/
theorem twelve_le_numericScale (hab : a < 10000 * b) : 12 ≤ numericScale a b := by
  rcases Nat.eq_zero_or_pos b with rfl | hb
  · omega
  have hw : weight a ≤ weight b + 1 := by
    have hlog : Nat.log 10000 (b * 10000) = Nat.log 10000 b + 1 :=
      Nat.log_mul_base (by decide) hb.ne'
    have hmono := weight_mono (show a ≤ b * 10000 by omega)
    exact hmono.trans_eq hlog
  unfold numericScale quotientWeight
  split_ifs <;> omega

theorem numericDiv_nonneg (a b : ℕ) : 0 ≤ numericDiv a b := ofUnits_nonneg _ _

/-- `numeric` decides whether a quotient exceeds one, for denominators of up to twelve digits. -/
theorem numericDiv_le_one_iff (hb : 0 < b) (hbound : b ≤ 2 * 10 ^ 12) :
    numericDiv a b ≤ 1 ↔ a ≤ b := by
  constructor
  · intro h
    by_contra hab
    have hab' : b < a := Nat.lt_of_not_le hab
    refine absurd h (not_le.2 (one_lt_ofUnits_divHalfUp hb ?_ hab'))
    rcases Nat.lt_or_ge a (10000 * b) with hlt | hge
    · have hpow : 10 ^ 12 ≤ 10 ^ numericScale a b :=
        Nat.pow_le_pow_right (by decide) (twelve_le_numericScale hlt)
      have hone := Nat.mul_le_mul_right (10 ^ numericScale a b) (show 1 ≤ a - b by omega)
      omega
    · have hpow : 1 ≤ 10 ^ numericScale a b := Nat.one_le_pow _ _ (by decide)
      have hmul := Nat.mul_le_mul_left (a - b) hpow
      omega
  · exact (divHalfUp_isNearest hb).ofUnits_le_one hb

/-! ## Python -/

/-- The number of decimals that leaves 28 significant digits: the least `s` for which
`10 ^ 27` units of `10 ^ (-s)` do not exceed the quotient. -/
def decimalScale (a b : ℕ) : ℕ := Nat.clog 10 ((b * 10 ^ 27 + (a - 1)) / a)

/-- `Decimal(a) / Decimal(b)`. -/
def decimalDiv (a b : ℕ) : ℚ :=
  if a = 0 then 0 else ofUnits (divHalfEven a b (decimalScale a b)) (decimalScale a b)

/-- The scale is the one of 28 significant digits. -/
theorem decimalScale_le_iff (ha : 0 < a) : decimalScale a b ≤ s ↔ b * 10 ^ 27 ≤ a * 10 ^ s := by
  rw [decimalScale, Nat.clog_le_iff_le_pow (by decide), Nat.div_le_iff_le_mul_add_pred ha]
  omega

theorem sixteen_le_decimalScale (ha : 0 < a) (hab : a ≤ b) : 16 ≤ decimalScale a b := by
  by_contra h
  have hle := (decimalScale_le_iff (b := b) ha).1 (show decimalScale a b ≤ 15 by omega)
  have hmul := Nat.mul_le_mul_right (10 ^ 15) hab
  omega

/-! ## The two quotients -/

section Compare

variable (hb : 0 < b) (hab : a ≤ b)

include hb hab

/-- Both arithmetics round the same quotient to sixteen decimals or more. -/
theorem abs_numericDiv_sub_decimalDiv_le : |numericDiv a b - decimalDiv a b| ≤ 1 / 10 ^ 16 := by
  have hhalf {s : ℕ} (hs : 16 ≤ s) : (1 : ℚ) / (2 * 10 ^ s) ≤ 1 / (2 * 10 ^ 16) := by
    refine one_div_le_one_div_of_le (by positivity) ?_
    have hpow : (10 : ℚ) ^ 16 ≤ 10 ^ s := pow_le_pow_right₀ (by norm_num) hs
    linarith
  have h₁ : |numericDiv a b - a / b| ≤ 1 / (2 * 10 ^ 16) :=
    ((divHalfUp_isNearest hb).abs_sub_le hb).trans (hhalf (sixteen_le_numericScale hab))
  have h₂ : |decimalDiv a b - a / b| ≤ 1 / (2 * 10 ^ 16) := by
    unfold decimalDiv
    split_ifs with ha
    · simp [ha]
    · exact ((divHalfEven_isNearest hb).abs_sub_le hb).trans
        (hhalf (sixteen_le_decimalScale (Nat.pos_of_ne_zero ha) hab))
  rw [abs_le] at h₁ h₂ ⊢
  constructor <;> linarith

/-- A quotient with at most sixteen decimals is the same in both. -/
theorem numericDiv_eq_decimalDiv (hd : b ∣ a * 10 ^ 16) : numericDiv a b = decimalDiv a b := by
  have hdvd {s : ℕ} (hs : 16 ≤ s) : b ∣ a * 10 ^ s :=
    hd.trans (Nat.mul_dvd_mul_left a (Nat.pow_dvd_pow 10 hs))
  rw [numericDiv, (divHalfUp_isNearest hb).eq_of_dvd hb (hdvd (sixteen_le_numericScale hab)),
    decimalDiv]
  split_ifs with ha
  · simp [ha]
  · rw [(divHalfEven_isNearest hb).eq_of_dvd hb
      (hdvd (sixteen_le_decimalScale (Nat.pos_of_ne_zero ha) hab))]

end Compare

/-- A third is not the same in both. -/
theorem numericDiv_one_three_ne : numericDiv 1 3 ≠ decimalDiv 1 3 := by
  have h₁ : numericDiv 1 3 = 33333333333333333333 / 10 ^ 20 := by
    have hs : numericScale 1 3 = 20 := by decide
    rw [numericDiv, hs, show divHalfUp 1 3 20 = 33333333333333333333 by decide, ofUnits]
    norm_num
  have h₂ : decimalDiv 1 3 = 3333333333333333333333333333 / 10 ^ 28 := by
    have hs : decimalScale 1 3 = 28 := by decide
    rw [decimalDiv, if_neg (by decide), hs,
      show divHalfEven 1 3 28 = 3333333333333333333333333333 by decide, ofUnits]
    norm_num
  rw [h₁, h₂]
  norm_num

end Decimal

end TrackFlow
