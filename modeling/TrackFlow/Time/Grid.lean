import Mathlib.Data.List.Range
import Mathlib.Data.List.Nodup
import Mathlib.Data.Nat.Cast.Order.Basic
import Mathlib.Tactic.Ring

/-!
# Rounding instants to a grid

Instants are natural numbers of some unit.  `floorTo n t` and `ceilTo n t` round to the
multiples of `n`, and `steps n s e` lists `s, s + n, ...` up to `e - n`, the starts of the
whole cells of width `n` between `s` and `e`.
-/

namespace TrackFlow

/-- The greatest multiple of `n` that is at most `t`. -/
def floorTo (n t : ℕ) : ℕ := t - t % n

/-- The least multiple of `n` that is at least `t`. -/
def ceilTo (n t : ℕ) : ℕ := if floorTo n t = t then floorTo n t else floorTo n t + n

/-- The cell starts `s, s + n, ...` that are at most `e - n`. -/
def steps (n s e : ℕ) : List ℕ := (List.range ((e - s) / n)).map fun i => s + n * i

variable {n m s e t u : ℕ}

theorem floorTo_eq_mul (n t : ℕ) : floorTo n t = n * (t / n) := by
  have := Nat.div_add_mod t n
  unfold floorTo
  omega

theorem dvd_floorTo (n t : ℕ) : n ∣ floorTo n t := floorTo_eq_mul n t ▸ Nat.dvd_mul_right _ _

theorem floorTo_le (n t : ℕ) : floorTo n t ≤ t := Nat.sub_le _ _

theorem lt_floorTo_add (hn : 0 < n) (t : ℕ) : t < floorTo n t + n := by
  have := Nat.mod_lt t hn
  unfold floorTo
  omega

theorem floorTo_add (n t : ℕ) : floorTo n (t + n) = floorTo n t + n := by
  have := Nat.mod_le t n
  unfold floorTo
  rw [Nat.add_mod_right]
  omega

/-- Rounding down and comparing with a grid point. -/
theorem le_floorTo_iff (hn : 0 < n) (hm : n ∣ m) : m ≤ floorTo n t ↔ m ≤ t := by
  obtain ⟨c, rfl⟩ := hm
  rw [floorTo_eq_mul, Nat.mul_le_mul_left_iff hn, Nat.le_div_iff_mul_le hn, Nat.mul_comm]

theorem floorTo_lt_iff (hn : 0 < n) (hm : n ∣ m) : floorTo n t < m ↔ t < m := by
  rw [← Nat.not_le, ← Nat.not_le, le_floorTo_iff hn hm]

theorem floorTo_eq_self_iff (n t : ℕ) : floorTo n t = t ↔ n ∣ t := by
  refine ⟨fun h => h ▸ dvd_floorTo n t, fun h => ?_⟩
  rw [floorTo_eq_mul, Nat.mul_div_cancel' h]

/-- Grid points lie a cell apart. -/
theorem add_le_of_dvd_of_lt (ht : n ∣ t) (hu : n ∣ u) (h : t < u) : t + n ≤ u := by
  obtain ⟨a, rfl⟩ := ht
  obtain ⟨b, rfl⟩ := hu
  rw [← Nat.mul_succ]
  exact Nat.mul_le_mul_left _ (Nat.lt_of_mul_lt_mul_left h)

/-- The cell of an instant. -/
theorem floorTo_eq_iff (hn : 0 < n) (hm : n ∣ m) : floorTo n t = m ↔ m ≤ t ∧ t < m + n := by
  have hfloor := lt_floorTo_add hn t
  constructor
  · rintro rfl
    exact ⟨floorTo_le n t, hfloor⟩
  · rintro ⟨h1, h2⟩
    refine le_antisymm ?_ ((le_floorTo_iff hn hm).2 h1)
    by_contra h
    have := add_le_of_dvd_of_lt hm (dvd_floorTo n t) (by omega)
    have := floorTo_le n t
    omega

theorem dvd_ceilTo (n t : ℕ) : n ∣ ceilTo n t := by
  unfold ceilTo
  split_ifs
  · exact dvd_floorTo n t
  · exact (Nat.dvd_add_right (dvd_floorTo n t)).2 dvd_rfl

theorem le_ceilTo (hn : 0 < n) (t : ℕ) : t ≤ ceilTo n t := by
  unfold ceilTo
  split_ifs with h
  · exact h.ge
  · exact (lt_floorTo_add hn t).le

/-- Rounding up and comparing with a grid point. -/
theorem ceilTo_le_iff (hn : 0 < n) (hm : n ∣ m) : ceilTo n t ≤ m ↔ t ≤ m := by
  refine ⟨(le_ceilTo hn t).trans, fun h => ?_⟩
  unfold ceilTo
  split_ifs with hf
  · exact hf.trans_le h
  · have hlt : floorTo n t < t := lt_of_le_of_ne (floorTo_le n t) hf
    obtain ⟨a, ha⟩ := dvd_floorTo n t
    obtain ⟨b, rfl⟩ := hm
    have hab : n * a < n * b := ha ▸ hlt.trans_le h
    have : a + 1 ≤ b := Nat.lt_of_mul_lt_mul_left hab
    calc floorTo n t + n = n * (a + 1) := by rw [ha]; ring
      _ ≤ n * b := Nat.mul_le_mul_left _ this

theorem dvd_max (ht : n ∣ t) (hu : n ∣ u) : n ∣ max t u := by
  rcases max_choice t u with h | h <;> rw [h] <;> assumption

theorem dvd_min (ht : n ∣ t) (hu : n ∣ u) : n ∣ min t u := by
  rcases min_choice t u with h | h <;> rw [h] <;> assumption

theorem mem_steps_iff (hn : 0 < n) (hs : n ∣ s) (he : n ∣ e) :
    t ∈ steps n s e ↔ s ≤ t ∧ t < e ∧ n ∣ t := by
  obtain ⟨a, rfl⟩ := hs
  obtain ⟨b, rfl⟩ := he
  have hdiv : (n * b - n * a) / n = b - a := by
    rw [← Nat.mul_sub, Nat.mul_div_cancel_left _ hn]
  simp only [steps, hdiv, List.mem_map, List.mem_range]
  constructor
  · rintro ⟨i, hi, rfl⟩
    refine ⟨Nat.le_add_right _ _, ?_, (Nat.dvd_add_right (Nat.dvd_mul_right _ _)).2
      (Nat.dvd_mul_right _ _)⟩
    rw [← Nat.mul_add]
    exact Nat.mul_lt_mul_of_pos_left (by omega) hn
  · rintro ⟨h1, h2, c, rfl⟩
    have hac : a ≤ c := Nat.le_of_mul_le_mul_left h1 hn
    have hcb : c < b := Nat.lt_of_mul_lt_mul_left h2
    refine ⟨c - a, by omega, ?_⟩
    rw [← Nat.mul_add]
    congr 1
    omega

theorem nodup_steps (hn : 0 < n) (s e : ℕ) : (steps n s e).Nodup := by
  refine List.nodup_range.map fun i j h => ?_
  have : n * i = n * j := Nat.add_left_cancel h
  exact Nat.eq_of_mul_eq_mul_left hn this

end TrackFlow
