import Mathlib.Order.Interval.Set.Defs
import TrackFlow.Time.Calendar

/-!
# The texts of instants

`datetime.isoformat` of a time zone aware `datetime` in UTC: a fraction of six digits stands in the
text only if the microseconds are not zero, so that texts have two lengths.

* `append_lt_append_iff`, `padded_lt_iff` : texts of one length, and the digits of numbers.
* `Datetime` : a `datetime` in UTC; `Datetime.instant` : its place in time.
* `Datetime.isoformat_lt_iff` : **texts are in the order of time.**
* `Datetime.ofInstant`, `Datetime.add`, `Datetime.fromtimestamp` : the `datetime` of an instant.
-/

namespace TrackFlow

/-! ## Texts of one length -/

theorem append_lt_append_iff {α : Type*} [LinearOrder α] {as bs cs ds : List α}
    (h : as.length = bs.length) : as ++ cs < bs ++ ds ↔ as < bs ∨ as = bs ∧ cs < ds := by
  induction as generalizing bs with
  | nil =>
    obtain rfl := List.length_eq_zero_iff.1 h.symm
    simp only [List.nil_append, lt_irrefl, true_and, false_or]
  | cons a as ih =>
    cases bs with
    | nil => cases h
    | cons b bs =>
      rw [List.cons_append, List.cons_append, List.cons_lt_cons_iff, List.cons_lt_cons_iff,
        ih (Nat.succ.inj h), List.cons.injEq]
      tauto

/-- A number has its last digit behind the others. -/
theorem padded_succ (width n : ℕ) :
    padded (width + 2) n = padded (width + 1) (n / 10) ++ [Nat.digitChar (n % 10)] := by
  unfold padded
  by_cases hn : n < 10
  · rw [Nat.div_eq_of_lt hn, Nat.mod_eq_of_lt hn, Nat.toDigits_of_lt_base hn, Nat.toDigits_zero]
    change List.replicate (width + 1) '0' ++ [n.digitChar] =
      List.replicate width '0' ++ ['0'] ++ [n.digitChar]
    rw [List.replicate_succ']
  · rw [Nat.toDigits_of_base_le (by decide) (not_lt.1 hn)]
    generalize Nat.toDigits 10 (n / 10) = digits
    have hwidth : width + 2 - (digits.length + 1) = width + 1 - digits.length := by omega
    simp only [List.leftpad, List.length_append, List.length_singleton, List.append_assoc, hwidth]

theorem length_padded {width n : ℕ} (hwidth : 1 ≤ width) (h : n < 10 ^ width) :
    (padded width n).length = width := by
  have hlength := (Nat.length_toDigits_le_iff (by decide) hwidth).2 h
  rw [padded, List.length_leftpad, max_eq_left hlength]

/-- Digits are in the order of their numbers. -/
theorem padded_strictMonoOn {width : ℕ} (hwidth : 1 ≤ width) :
    StrictMonoOn (padded width) (Set.Iio (10 ^ width)) := by
  induction width, hwidth using Nat.le_induction with
  | base =>
    have hall : ∀ n < 10, ∀ m < n, padded 1 m < padded 1 n := by decide
    exact fun m _ n hn h => hall n hn m h
  | succ width hwidth ih =>
    intro m hm n hn h
    obtain ⟨w, rfl⟩ := Nat.exists_eq_add_of_le' hwidth
    have hdiv {k : ℕ} (hk : k < 10 ^ (w + 1 + 1)) : k / 10 < 10 ^ (w + 1) :=
      Nat.div_lt_of_lt_mul (Nat.pow_succ' ▸ hk)
    rw [padded_succ, padded_succ, append_lt_append_iff
      ((length_padded hwidth (hdiv hm)).trans (length_padded hwidth (hdiv hn)).symm)]
    rcases (Nat.div_le_div_right h.le : m / 10 ≤ n / 10).lt_or_eq with hlt | heq
    · exact .inl (ih (hdiv hm) (hdiv hn) hlt)
    · have hlast : ∀ b < 10, ∀ a < b, [Nat.digitChar a] < [Nat.digitChar b] := by decide
      exact .inr ⟨congrArg _ heq, hlast _ (Nat.mod_lt n (by decide)) _ (by omega)⟩

/-- Behind as many digits, texts are in the order of the numbers, and then in their own. -/
theorem padded_append_lt_iff {width m n : ℕ} {cs ds : List Char} (hwidth : 1 ≤ width)
    (hm : m < 10 ^ width) (hn : n < 10 ^ width) :
    padded width m ++ cs < padded width n ++ ds ↔ m < n ∨ m = n ∧ cs < ds := by
  have hmono := padded_strictMonoOn hwidth
  rw [append_lt_append_iff ((length_padded hwidth hm).trans (length_padded hwidth hn).symm),
    hmono.lt_iff_lt hm hn, hmono.eq_iff_eq hm hn]

/-- Behind dates, texts are in the order of the calendar, and then in their own. -/
theorem Date.isoformat_append_lt_iff {a b : Date} {cs ds : List Char} :
    a.isoformat ++ cs < b.isoformat ++ ds ↔ a.Before b ∨ a = b ∧ cs < ds := by
  have hyear (d : Date) : d.year < 10 ^ 4 := Nat.lt_succ_of_le d.year_mem.2
  have hmonth (d : Date) : d.month < 10 ^ 2 := d.month_mem.2.trans_lt (by decide)
  have hday (d : Date) : d.day < 10 ^ 2 := d.day_le.trans_lt (by decide)
  have heq : a = b ↔ a.year = b.year ∧ a.month = b.month ∧ a.day = b.day := by
    refine ⟨?_, fun h => eq_of_fields h.1 h.2.1 h.2.2⟩
    rintro rfl
    exact ⟨rfl, rfl, rfl⟩
  simp only [isoformat, List.append_assoc, List.cons_append]
  rw [padded_append_lt_iff (by decide) (hyear a) (hyear b), List.cons_lt_cons_self,
    padded_append_lt_iff (by decide) (hmonth a) (hmonth b), List.cons_lt_cons_self,
    padded_append_lt_iff (by decide) (hday a) (hday b), heq, Before]
  tauto

/-! ## Instants -/

/-- A `datetime.datetime` whose time zone is UTC. -/
structure Datetime extends Date where
  hour : ℕ
  minute : ℕ
  second : ℕ
  microsecond : ℕ
  hour_lt : hour < 24
  minute_lt : minute < 60
  second_lt : second < 60
  microsecond_lt : microsecond < 1000000
  deriving DecidableEq, Repr

namespace Datetime

/-- The microseconds from the day before the year 1 on. -/
def instant (d : Datetime) : ℕ :=
  (((d.toordinal * 24 + d.hour) * 60 + d.minute) * 60 + d.second) * 1000000 + d.microsecond

/-- The fraction of a second. -/
def fraction (microsecond : ℕ) : List Char :=
  if microsecond = 0 then [] else '.' :: padded 6 microsecond

/-- `datetime.isoformat`. -/
def isoformat (d : Datetime) : List Char :=
  d.toDate.isoformat ++ 'T' :: (padded 2 d.hour ++ ':' :: (padded 2 d.minute ++ ':' ::
    (padded 2 d.second ++ (fraction d.microsecond ++ "+00:00".toList))))

variable {a b d : Datetime}

theorem fields_lt (d : Datetime) :
    d.hour < 24 ∧ d.minute < 60 ∧ d.second < 60 ∧ d.microsecond < 1000000 :=
  ⟨d.hour_lt, d.minute_lt, d.second_lt, d.microsecond_lt⟩

/-- The order of the clock. -/
theorem instant_lt_iff : a.instant < b.instant ↔
    a.toDate.Before b.toDate ∨ a.toDate = b.toDate ∧ (a.hour < b.hour ∨ a.hour = b.hour ∧
      (a.minute < b.minute ∨ a.minute = b.minute ∧ (a.second < b.second ∨ a.second = b.second ∧
        a.microsecond < b.microsecond))) := by
  have hdate : a.toDate = b.toDate ↔ a.toordinal = b.toordinal :=
    ⟨congrArg _, Date.toordinal_injective⟩
  have ha := a.fields_lt
  have hb := b.fields_lt
  rw [← Date.toordinal_lt_iff, hdate]
  unfold instant
  omega

/-- The sign of the time zone is before the point of a fraction. -/
theorem fraction_lt_iff {m n : ℕ} (hm : m < 1000000) (hn : n < 1000000) :
    fraction m ++ "+00:00".toList < fraction n ++ "+00:00".toList ↔ m < n := by
  have hsign (cs ds : List Char) : '+' :: cs < '.' :: ds :=
    List.cons_lt_cons_iff.2 (.inl (by decide))
  unfold fraction
  split_ifs with hm0 hn0 hn0
  · rw [hm0, hn0]
    simp only [lt_irrefl]
  · rw [hm0]
    exact iff_of_true (hsign _ _) (Nat.pos_of_ne_zero hn0)
  · rw [hn0]
    exact iff_of_false (hsign _ _).asymm (Nat.not_lt_zero m)
  · rw [List.cons_append, List.cons_append, List.cons_lt_cons_iff,
      padded_append_lt_iff (by decide) hm hn]
    simp only [lt_irrefl, and_false, or_false, false_or, true_and]

/-- **Texts are in the order of time.** -/
theorem isoformat_lt_iff (a b : Datetime) : a.isoformat < b.isoformat ↔ a.instant < b.instant := by
  rw [instant_lt_iff, isoformat, isoformat, Date.isoformat_append_lt_iff,
    List.cons_lt_cons_self, padded_append_lt_iff (by decide) (a.hour_lt.trans (by decide))
      (b.hour_lt.trans (by decide)), List.cons_lt_cons_self,
    padded_append_lt_iff (by decide) (a.minute_lt.trans (by decide))
      (b.minute_lt.trans (by decide)), List.cons_lt_cons_self,
    padded_append_lt_iff (by decide) (a.second_lt.trans (by decide))
      (b.second_lt.trans (by decide)), fraction_lt_iff a.microsecond_lt b.microsecond_lt]

theorem isoformat_le_iff (a b : Datetime) : a.isoformat ≤ b.isoformat ↔ a.instant ≤ b.instant := by
  rw [← not_lt, isoformat_lt_iff, not_lt]

/-! ## The `datetime` of an instant -/

theorem instant_injective (h : a.instant = b.instant) : a = b := by
  have ha := a.fields_lt
  have hb := b.fields_lt
  unfold instant at h
  have hdate : a.toDate = b.toDate := Date.toordinal_injective (by omega)
  have hhour : a.hour = b.hour := by omega
  have hminute : a.minute = b.minute := by omega
  have hsecond : a.second = b.second := by omega
  have hmicrosecond : a.microsecond = b.microsecond := by omega
  cases a
  cases b
  simp only at hdate hhour hminute hsecond hmicrosecond
  subst hdate hhour hminute hsecond hmicrosecond
  rfl

/-- The `datetime` of an instant; `none` if there is none. -/
def ofInstant (n : ℕ) : Option Datetime :=
  (Date.fromordinal (n / 86400000000)).map fun date =>
    { date with
      hour := n / 3600000000 % 24
      minute := n / 60000000 % 60
      second := n / 1000000 % 60
      microsecond := n % 1000000
      hour_lt := Nat.mod_lt _ (by decide)
      minute_lt := Nat.mod_lt _ (by decide)
      second_lt := Nat.mod_lt _ (by decide)
      microsecond_lt := Nat.mod_lt _ (by decide) }

theorem instant_of_ofInstant {n : ℕ} (h : ofInstant n = some d) : d.instant = n := by
  obtain ⟨date, hdate, rfl⟩ := Option.map_eq_some_iff.1 h
  have hordinal := Date.toordinal_of_fromordinal hdate
  simp only [instant]
  omega

theorem ofInstant_eq_some {n : ℕ} : ofInstant n = some d ↔ d.instant = n := by
  refine ⟨instant_of_ofInstant, ?_⟩
  rintro rfl
  have hordinal : d.instant / 86400000000 = d.toordinal := by
    have hd := d.fields_lt
    unfold instant
    omega
  have hsome : ∃ d', ofInstant d.instant = some d' := by
    unfold ofInstant
    rw [hordinal, Date.fromordinal_eq_some.2 rfl]
    exact ⟨_, rfl⟩
  obtain ⟨d', hd'⟩ := hsome
  rw [hd', instant_injective (instant_of_ofInstant hd')]

/-- `self + timedelta`; `none` if it raises. -/
def add (d : Datetime) (microseconds : ℕ) : Option Datetime :=
  ofInstant (d.instant + microseconds)

/-- The first instant of the year 1970. -/
def epoch : ℕ := 719163 * 86400000000

/-- `datetime.fromtimestamp` with UTC, of a number of microseconds; `none` if it raises. -/
def fromtimestamp (t : ℕ) : Option Datetime := ofInstant (epoch + t)

example : (fromtimestamp 951782400000001).map isoformat =
    some "2000-02-29T00:00:00.000001+00:00".toList := by decide +kernel

theorem fromtimestamp_eq_some {t : ℕ} : fromtimestamp t = some d ↔ d.instant = epoch + t :=
  ofInstant_eq_some

theorem add_of_fromtimestamp {t n : ℕ} (h : fromtimestamp t = some d) :
    d.add n = fromtimestamp (t + n) := by
  rw [add, fromtimestamp_eq_some.1 h, fromtimestamp, Nat.add_assoc]

/-- The comparison of two texts is the one of their times. -/
theorem isoformat_le_iff_of_fromtimestamp {s t : ℕ} (ha : fromtimestamp s = some a)
    (hb : fromtimestamp t = some b) : a.isoformat ≤ b.isoformat ↔ s ≤ t := by
  rw [isoformat_le_iff, fromtimestamp_eq_some.1 ha, fromtimestamp_eq_some.1 hb]
  exact Nat.add_le_add_iff_left

end Datetime

end TrackFlow
