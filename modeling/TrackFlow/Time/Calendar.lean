import Mathlib.Algebra.Group.Nat.Defs
import Mathlib.Data.Char
import Mathlib.Data.List.Lex
import Mathlib.Order.Lattice
import Mathlib.Order.Monotone.Basic

/-!
# The calendar

The dates of the proleptic Gregorian calendar, their numbers, and their texts.

* `Date` : a date that exists; `Date.isoformat` : its text.
* `Date.toordinal` : the number of a date, from 1 for the first day of the year 1.
* `Date.toordinal_lt_iff` : **numbers are in the order of year, month and day.**
* `Date.fromordinal` : the date of a number; `Date.fromordinal_eq_some` : it is the only one.
-/

namespace TrackFlow

/-- A leap year. -/
def isLeap (year : ℕ) : Bool := year % 4 = 0 && (year % 100 ≠ 0 || year % 400 = 0)

/-- The days of a month. -/
def daysInMonth (year month : ℕ) : ℕ :=
  if month = 2 then if isLeap year then 29 else 28
  else if month ∈ [4, 6, 9, 11] then 30
  else 31

/-- `datetime.date`. -/
structure Date where
  year : ℕ
  month : ℕ
  day : ℕ
  year_mem : 1 ≤ year ∧ year ≤ 9999
  month_mem : 1 ≤ month ∧ month ≤ 12
  day_mem : 1 ≤ day ∧ day ≤ daysInMonth year month
  deriving DecidableEq, Repr

/-- A number with at least `width` digits. -/
def padded (width n : ℕ) : List Char := (Nat.toDigits 10 n).leftpad width '0'

/-- `date.isoformat`. -/
def Date.isoformat (d : Date) : List Char :=
  padded 4 d.year ++ '-' :: (padded 2 d.month ++ '-' :: padded 2 d.day)

/-! ## Years -/

theorem isLeap_iff {year : ℕ} :
    isLeap year = true ↔ year % 4 = 0 ∧ (year % 100 ≠ 0 ∨ year % 400 = 0) := by
  simp only [isLeap, Bool.and_eq_true, Bool.or_eq_true, decide_eq_true_eq]

/-- The days of a year. -/
def daysInYear (year : ℕ) : ℕ := if isLeap year then 366 else 365

/-- The days before a year, from the first day of the year 1 on. -/
def daysBeforeYear (year : ℕ) : ℕ :=
  let y := year - 1
  y * 365 + y / 4 - y / 100 + y / 400

theorem daysBeforeYear_succ {year : ℕ} (hyear : 1 ≤ year) :
    daysBeforeYear (year + 1) = daysBeforeYear year + daysInYear year := by
  obtain ⟨y, rfl⟩ := Nat.exists_eq_add_of_le' hyear
  have h100 : (y + 1) % 100 = 0 → (y + 1) % 4 = 0 := by omega
  have h400 : (y + 1) % 400 = 0 → (y + 1) % 100 = 0 := by omega
  have hle : y / 100 ≤ y / 4 := Nat.div_le_div_left (by decide) (by decide)
  simp only [daysBeforeYear, daysInYear, isLeap_iff, Nat.add_sub_cancel, Nat.succ_div,
    Nat.dvd_iff_mod_eq_zero]
  by_cases hfour : (y + 1) % 4 = 0
  · by_cases hhundred : (y + 1) % 100 = 0
    · by_cases hcycle : (y + 1) % 400 = 0
      · simp only [hfour, hhundred, hcycle, if_true, ne_eq, not_true, or_true, and_true]
        omega
      · simp only [hfour, hhundred, hcycle, if_true, if_false, ne_eq, not_true, or_self, and_false]
        omega
    · simp only [hfour, hhundred, mt h400 hhundred, if_true, if_false, ne_eq, not_false_eq_true,
        true_or, and_true]
      omega
  · simp only [hfour, mt h100 hfour, mt h400 (mt h100 hfour), if_false, false_and]
    omega

/-- A year is over before a later one. -/
theorem daysBeforeYear_add_le {year year' : ℕ} (hyear : 1 ≤ year) (h : year < year') :
    daysBeforeYear year + daysInYear year ≤ daysBeforeYear year' := by
  induction year', h using Nat.le_induction with
  | base => exact (daysBeforeYear_succ hyear).ge
  | succ year' hle ih =>
    have hsucc := daysBeforeYear_succ (hyear.trans (Nat.le_of_succ_le hle))
    omega

/-- The cycles of 400, 100 and 4 years. -/
theorem daysBeforeYear_cycles {n400 n100 n4 n1 : ℕ} (hn100 : n100 ≤ 3) (hn4 : n4 ≤ 24)
    (hn1 : n1 ≤ 3) : daysBeforeYear (n400 * 400 + n100 * 100 + n4 * 4 + n1 + 1) =
      n400 * 146097 + n100 * 36524 + n4 * 1461 + n1 * 365 := by
  have h4 : (n400 * 400 + n100 * 100 + n4 * 4 + n1) / 4 = n400 * 100 + n100 * 25 + n4 := by omega
  have h100 : (n400 * 400 + n100 * 100 + n4 * 4 + n1) / 100 = n400 * 4 + n100 := by omega
  have h400 : (n400 * 400 + n100 * 100 + n4 * 4 + n1) / 400 = n400 := by omega
  simp only [daysBeforeYear, Nat.add_sub_cancel, h4, h100, h400]
  omega

/-! ## Months -/

/-- The days of a month in a leap year, or in another one. -/
def monthLength (leap : Bool) (month : ℕ) : ℕ :=
  if month = 2 then if leap then 29 else 28
  else if month ∈ [4, 6, 9, 11] then 30
  else 31

theorem daysInMonth_eq (year month : ℕ) :
    daysInMonth year month = monthLength (isLeap year) month := rfl

/-- The days before a month, from the first day of its year on. -/
def daysBeforeMonth (leap : Bool) (month : ℕ) : ℕ :=
  [0, 0, 31, 59, 90, 120, 151, 181, 212, 243, 273, 304, 334].getD month 0 +
    if month > 2 ∧ leap = true then 1 else 0

/-- A month is over before a later one. -/
theorem daysBeforeMonth_add_le {leap : Bool} {month month' : ℕ} (hmonth : 1 ≤ month)
    (h : month < month') (hmonth' : month' ≤ 12) :
    daysBeforeMonth leap month + monthLength leap month ≤ daysBeforeMonth leap month' := by
  have hall : ∀ leap : Bool, ∀ month' < 13, ∀ month < month', 1 ≤ month →
      daysBeforeMonth leap month + monthLength leap month ≤ daysBeforeMonth leap month' := by
    decide +kernel
  exact hall leap month' (Nat.lt_succ_of_le hmonth') month h hmonth

/-- A month is over before its year is. -/
theorem daysBeforeMonth_add_le_daysInYear {year month : ℕ} (hmonth : 1 ≤ month ∧ month ≤ 12) :
    daysBeforeMonth (isLeap year) month + daysInMonth year month ≤ daysInYear year := by
  have hall : ∀ leap : Bool, ∀ month < 13, 1 ≤ month →
      daysBeforeMonth leap month + monthLength leap month ≤ if leap then 366 else 365 := by
    decide +kernel
  exact hall (isLeap year) month (Nat.lt_succ_of_le hmonth.2) hmonth.1

/-- The month and the day of a day of a year, counted from 0. -/
def monthDay (leap : Bool) (n : ℕ) : ℕ × ℕ :=
  let month := (n + 50) / 32
  if daysBeforeMonth leap month > n then (month - 1, n - daysBeforeMonth leap (month - 1) + 1)
  else (month, n - daysBeforeMonth leap month + 1)

theorem monthDay_spec {year n : ℕ} (h : n < daysInYear year) :
    let monthDay := monthDay (isLeap year) n
    (1 ≤ monthDay.1 ∧ monthDay.1 ≤ 12) ∧
      (1 ≤ monthDay.2 ∧ monthDay.2 ≤ daysInMonth year monthDay.1) ∧
      daysBeforeMonth (isLeap year) monthDay.1 + monthDay.2 = n + 1 := by
  have hall : ∀ leap : Bool, ∀ n < if leap then 366 else 365,
      (1 ≤ (monthDay leap n).1 ∧ (monthDay leap n).1 ≤ 12) ∧
        (1 ≤ (monthDay leap n).2 ∧ (monthDay leap n).2 ≤ monthLength leap (monthDay leap n).1) ∧
        daysBeforeMonth leap (monthDay leap n).1 + (monthDay leap n).2 = n + 1 := by
    decide +kernel
  exact hall (isLeap year) n h

/-! ## The numbers of dates -/

namespace Date

/-- `date.toordinal`. -/
def toordinal (d : Date) : ℕ :=
  daysBeforeYear d.year + daysBeforeMonth (isLeap d.year) d.month + d.day

/-- The order of the calendar. -/
def Before (a b : Date) : Prop :=
  a.year < b.year ∨ a.year = b.year ∧ (a.month < b.month ∨ a.month = b.month ∧ a.day < b.day)

variable {a b d : Date}

theorem eq_of_fields (hyear : a.year = b.year) (hmonth : a.month = b.month)
    (hday : a.day = b.day) : a = b := by
  cases a
  cases b
  simp only at hyear hmonth hday
  subst hyear hmonth hday
  rfl

theorem before_trichotomy (a b : Date) : a.Before b ∨ a = b ∨ b.Before a := by
  have hfields := eq_of_fields (a := a) (b := b)
  unfold Before
  rcases lt_trichotomy a.year b.year with hyear | hyear | hyear
  · exact .inl (.inl hyear)
  · rcases lt_trichotomy a.month b.month with hmonth | hmonth | hmonth
    · exact .inl (.inr ⟨hyear, .inl hmonth⟩)
    · rcases lt_trichotomy a.day b.day with hday | hday | hday
      · exact .inl (.inr ⟨hyear, .inr ⟨hmonth, hday⟩⟩)
      · exact .inr (.inl (hfields hyear hmonth hday))
      · exact .inr (.inr (.inr ⟨hyear.symm, .inr ⟨hmonth.symm, hday⟩⟩))
    · exact .inr (.inr (.inr ⟨hyear.symm, .inl hmonth⟩))
  · exact .inr (.inr (.inl hyear))

theorem day_le (d : Date) : d.day ≤ 31 := by
  refine d.day_mem.2.trans ?_
  unfold daysInMonth
  split_ifs <;> decide

theorem lt_toordinal (d : Date) : daysBeforeYear d.year < d.toordinal := by
  have hday := d.day_mem.1
  unfold toordinal
  omega

theorem toordinal_le (d : Date) :
    d.toordinal ≤ daysBeforeYear d.year + daysInYear d.year := by
  have hmonth : _ ≤ daysInYear d.year := daysBeforeMonth_add_le_daysInYear d.month_mem
  have hday := d.day_mem.2
  unfold toordinal
  omega

theorem toordinal_lt_of_before (h : a.Before b) : a.toordinal < b.toordinal := by
  rcases h with hyear | ⟨hyear, hmonth | ⟨hmonth, hday⟩⟩
  · have hle := daysBeforeYear_add_le a.year_mem.1 hyear
    exact a.toordinal_le.trans_lt (hle.trans_lt b.lt_toordinal)
  · have hle : _ ≤ daysBeforeMonth (isLeap a.year) b.month :=
      daysBeforeMonth_add_le a.month_mem.1 hmonth b.month_mem.2
    have hday := a.day_mem.2
    have hday' := b.day_mem.1
    rw [daysInMonth_eq] at hday
    unfold toordinal
    rw [← hyear]
    omega
  · unfold toordinal
    rw [← hyear, ← hmonth]
    exact Nat.add_lt_add_left hday _

/-- **Numbers are in the order of the calendar.** -/
theorem toordinal_lt_iff : a.toordinal < b.toordinal ↔ a.Before b := by
  refine ⟨fun h => ?_, toordinal_lt_of_before⟩
  rcases before_trichotomy a b with hbefore | rfl | hafter
  · exact hbefore
  · exact absurd h (lt_irrefl _)
  · exact absurd h (toordinal_lt_of_before hafter).asymm

theorem toordinal_injective (h : a.toordinal = b.toordinal) : a = b := by
  rcases before_trichotomy a b with hbefore | hab | hafter
  · exact absurd h (toordinal_lt_of_before hbefore).ne
  · exact hab
  · exact absurd h (toordinal_lt_of_before hafter).ne'

end Date

/-- The year and the day in it, counted from 0, of a day counted from the first one of the year 1:
the cycles of 400, 100, 4 years and of one year. -/
def yearDay (n : ℕ) : ℕ × ℕ :=
  let n400 := n / 146097
  let n100 := n % 146097 / 36524
  let n4 := n % 146097 % 36524 / 1461
  let n1 := n % 146097 % 36524 % 1461 / 365
  let year := n400 * 400 + n100 * 100 + n4 * 4 + n1
  -- the last day of a cycle belongs to no further year
  if n1 = 4 ∨ n100 = 4 then (year, 365)
  else (year + 1, n % 146097 % 36524 % 1461 % 365)

theorem yearDay_spec (n : ℕ) :
    1 ≤ (yearDay n).1 ∧ (yearDay n).2 < daysInYear (yearDay n).1 ∧
      daysBeforeYear (yearDay n).1 + (yearDay n).2 = n := by
  have hn : n = n / 146097 * 146097 + n % 146097 / 36524 * 36524 +
      n % 146097 % 36524 / 1461 * 1461 + n % 146097 % 36524 % 1461 / 365 * 365 +
        n % 146097 % 36524 % 1461 % 365 := by omega
  have hn4 : n % 146097 % 36524 / 1461 ≤ 24 := by omega
  have hn1 : n % 146097 % 36524 % 1461 / 365 ≤ 4 := by omega
  have hrest : n % 146097 % 36524 % 1461 % 365 < 365 := Nat.mod_lt _ (by decide)
  have hlast4 : n % 146097 % 36524 % 1461 / 365 = 4 →
      n % 146097 % 36524 / 1461 ≤ 23 ∧ n % 146097 % 36524 % 1461 % 365 = 0 := by omega
  have hlast100 : n % 146097 / 36524 = 4 → n % 146097 % 36524 / 1461 = 0 ∧
      n % 146097 % 36524 % 1461 / 365 = 0 ∧ n % 146097 % 36524 % 1461 % 365 = 0 := by omega
  have hn100 : n % 146097 / 36524 ≤ 4 := by omega
  unfold yearDay
  generalize n % 146097 % 36524 % 1461 % 365 = rest at *
  generalize n % 146097 % 36524 % 1461 / 365 = n1 at *
  generalize n % 146097 % 36524 / 1461 = n4 at *
  generalize n % 146097 / 36524 = n100 at *
  generalize n / 146097 = n400 at *
  simp only
  split_ifs with hlast
  · have hleap : isLeap (n400 * 400 + n100 * 100 + n4 * 4 + n1) = true := by
      rw [isLeap_iff]
      omega
    simp only [daysInYear, hleap, if_true]
    refine ⟨by omega, by decide, ?_⟩
    -- the last day of four years, or of four hundred
    rcases hlast with rfl | rfl
    · have hcycles : daysBeforeYear (n400 * 400 + n100 * 100 + n4 * 4 + 3 + 1) = _ :=
        daysBeforeYear_cycles (by omega) hn4 le_rfl
      rw [hcycles]
      omega
    · obtain ⟨rfl, rfl, rfl⟩ := hlast100 rfl
      rw [show n400 * 400 + 4 * 100 + 0 * 4 + 0 = n400 * 400 + 3 * 100 + 24 * 4 + 3 + 1 by omega,
        daysBeforeYear_cycles le_rfl le_rfl le_rfl]
      omega
  · rw [not_or] at hlast
    refine ⟨Nat.succ_pos _, hrest.trans_le ?_, ?_⟩
    · unfold daysInYear
      split_ifs <;> decide
    · rw [daysBeforeYear_cycles (by omega) hn4 (by omega)]
      exact hn.symm

namespace Date

/-- `date.fromordinal`; `none` if it raises. -/
def fromordinal (n : ℕ) : Option Date :=
  let year := (yearDay (n - 1)).1
  let day := monthDay (isLeap year) (yearDay (n - 1)).2
  if h : 1 ≤ n ∧ year ≤ 9999 then
    some ⟨year, day.1, day.2, ⟨(yearDay_spec _).1, h.2⟩, (monthDay_spec (yearDay_spec _).2.1).1,
      (monthDay_spec (yearDay_spec _).2.1).2.1⟩
  else none

theorem toordinal_of_fromordinal {n : ℕ} {d : Date} (h : fromordinal n = some d) :
    d.toordinal = n := by
  unfold fromordinal at h
  simp only at h
  split_ifs at h with hn
  cases h
  obtain ⟨-, hday, hsum⟩ := yearDay_spec (n - 1)
  obtain ⟨-, -, hmonth⟩ := monthDay_spec hday
  simp only [toordinal]
  omega

/-- **The date of a number** is the one with this number. -/
theorem fromordinal_eq_some {n : ℕ} {d : Date} : fromordinal n = some d ↔ d.toordinal = n := by
  refine ⟨toordinal_of_fromordinal, ?_⟩
  rintro rfl
  obtain ⟨hyear, -, hsum⟩ := yearDay_spec (d.toordinal - 1)
  have hlt := d.lt_toordinal
  have hle := d.toordinal_le
  -- no later year holds the date
  have hmax : (yearDay (d.toordinal - 1)).1 ≤ 9999 := by
    by_contra hlate
    have hbefore := daysBeforeYear_add_le d.year_mem.1 (d.year_mem.2.trans_lt (not_le.1 hlate))
    omega
  have hsome : ∃ d', fromordinal d.toordinal = some d' := by
    unfold fromordinal
    simp only
    rw [dif_pos ⟨Nat.one_le_of_lt hlt, hmax⟩]
    exact ⟨_, rfl⟩
  obtain ⟨d', hd'⟩ := hsome
  rw [hd', toordinal_injective (toordinal_of_fromordinal hd')]

end Date

end TrackFlow
