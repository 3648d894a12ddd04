import Mathlib.Order.Bounds.Basic
import TrackFlow.Time.Zone

/-!
# The schedule of the refreshes

The dispatcher enqueues the slots of `REFRESH_TIMES`, twice a day in local time, and the service
tells when the next refresh is.  Instants and wall times are counted in microseconds.

* `dispatchSlot` : the slot of a tick of the dispatcher.
* `nextRefresh` : the instant that the service advertises.
* `mem_slots_iff` : the slots are the refresh times of all days.
* `nextRefresh_isLeast_iff` : **when the advertised refresh is the next slot.**
* `evening_slot_is_skipped` : a noon.
-/

namespace TrackFlow

namespace Reporting

/-- The microseconds of a day. -/
def day : ℤ := 86400000000

/-- The microseconds of an hour. -/
def hour : ℤ := 3600000000

/-- `REFRESH_TIMES` of the dispatcher. -/
def refreshTimes : List ℤ := [7 * hour, 19 * hour]

/-- `DAILY_REFRESH_TIME` of the service. -/
def dailyRefreshTime : ℤ := 7 * hour

/-- `wall.date()`, as a number of days. -/
def dateOf (wall : ℤ) : ℤ := wall / day

/-- `wall.time()`. -/
def timeOf (wall : ℤ) : ℤ := wall % day

/-- `datetime.combine`. -/
def combine (date time : ℤ) : ℤ := date * day + time

/-- The slot that `dispatch_tick` enqueues at an instant, if it does. -/
def dispatchSlot (zone : Zone) (tickAt : ℤ) : Option ℤ :=
  let localAt := zone.toLocal tickAt
  let eligible := refreshTimes.filter fun refreshTime => refreshTime ≤ timeOf localAt
  eligible.getLast?.map fun refreshTime => zone.toUtc (combine (dateOf localAt) refreshTime)

/-- The first `DAILY_REFRESH_TIME` after a wall time; wall times of one zone are compared as they
are. -/
def nextOccurrence (localNow : ℤ) : ℤ :=
  let localOccurrence := combine (dateOf localNow) dailyRefreshTime
  if localOccurrence ≤ localNow then localOccurrence + day else localOccurrence

/-- `_next_refresh`. -/
def nextRefresh (zone : Zone) (now : ℤ) : ℤ := zone.toUtc (nextOccurrence (zone.toLocal now))

/-- The slots that the dispatcher ever enqueues. -/
def slots (zone : Zone) : Set ℤ := {slot | ∃ tickAt, dispatchSlot zone tickAt = some slot}

/-- The slot of a tick: that of the evening, or else that of the morning, or none yet. -/
theorem dispatchSlot_eq (zone : Zone) (tickAt : ℤ) :
    dispatchSlot zone tickAt =
      if 19 * hour ≤ timeOf (zone.toLocal tickAt) then
        some (zone.toUtc (combine (dateOf (zone.toLocal tickAt)) (19 * hour)))
      else if 7 * hour ≤ timeOf (zone.toLocal tickAt) then
        some (zone.toUtc (combine (dateOf (zone.toLocal tickAt)) (7 * hour)))
      else none := by
  unfold dispatchSlot refreshTimes
  have hhour : (7 : ℤ) * hour ≤ 19 * hour := by decide
  by_cases hevening : 19 * hour ≤ timeOf (zone.toLocal tickAt)
  · simp [hevening, hhour.trans hevening]
  · by_cases hmorning : 7 * hour ≤ timeOf (zone.toLocal tickAt)
    · simp [hevening, hmorning]
    · simp [hevening, hmorning]

/-- The date of a refresh time. -/
theorem dateOf_combine (date : ℤ) {refreshTime : ℤ} (h : refreshTime ∈ refreshTimes) :
    dateOf (combine date refreshTime) = date := by
  simp only [refreshTimes, List.mem_cons, List.not_mem_nil, or_false] at h
  unfold dateOf combine
  rcases h with rfl | rfl <;> unfold hour day <;> omega

theorem timeOf_combine (date : ℤ) {refreshTime : ℤ} (h : refreshTime ∈ refreshTimes) :
    timeOf (combine date refreshTime) = refreshTime := by
  simp only [refreshTimes, List.mem_cons, List.not_mem_nil, or_false] at h
  unfold timeOf combine
  rcases h with rfl | rfl <;> unfold hour day <;> omega

/-- The advertised wall time comes before the refresh times after `wall`, unless `wall` is between
the refresh of the morning and that of the evening. -/
theorem nextOccurrence_le_iff (wall : ℤ) :
    (∀ date, ∀ refreshTime ∈ refreshTimes, wall < combine date refreshTime →
        nextOccurrence wall ≤ combine date refreshTime) ↔
      timeOf wall < 7 * hour ∨ 19 * hour ≤ timeOf wall := by
  simp only [refreshTimes, List.forall_mem_cons, List.not_mem_nil, false_imp_iff, implies_true,
    and_true]
  unfold nextOccurrence dailyRefreshTime combine dateOf timeOf hour day
  constructor
  · intro h
    have hevening := (h (wall / 86400000000)).2
    dsimp only at hevening
    split_ifs at hevening <;> omega
  · intro h date
    dsimp only
    split_ifs <;> omega

section

variable {zone : Zone}

/-- The slots are the refresh times of all days. -/
theorem mem_slots_iff
    (hplain : ∀ date, ∀ refreshTime ∈ refreshTimes, zone.Plain (combine date refreshTime))
    (slot : ℤ) :
    slot ∈ slots zone ↔
      ∃ date, ∃ refreshTime ∈ refreshTimes, zone.toUtc (combine date refreshTime) = slot := by
  constructor
  · rintro ⟨tickAt, htick⟩
    rw [dispatchSlot_eq] at htick
    split_ifs at htick
    · exact ⟨_, 19 * hour, by simp [refreshTimes], Option.some.inj htick⟩
    · exact ⟨_, 7 * hour, by simp [refreshTimes], Option.some.inj htick⟩
  · rintro ⟨date, refreshTime, hmem, rfl⟩
    -- a tick at the refresh time itself
    refine ⟨zone.toUtc (combine date refreshTime), ?_⟩
    rw [dispatchSlot_eq, Zone.toLocal_toUtc (hplain date refreshTime hmem),
      dateOf_combine date hmem,
      timeOf_combine date hmem]
    simp only [refreshTimes, List.mem_cons, List.not_mem_nil, or_false] at hmem
    rcases hmem with rfl | rfl
    · rw [if_neg (by decide), if_pos (le_refl _)]
    · rw [if_pos (le_refl _)]

/-- The advertised wall time is a refresh time. -/
theorem nextOccurrence_eq (wall : ℤ) :
    ∃ date, nextOccurrence wall = combine date (7 * hour) ∧ wall < combine date (7 * hour) := by
  unfold nextOccurrence
  dsimp only
  split_ifs with hpassed
  · refine ⟨dateOf wall + 1, ?_, ?_⟩ <;>
      simp only [combine, dailyRefreshTime, dateOf, hour, day] at hpassed ⊢ <;> omega
  · exact ⟨dateOf wall, rfl, not_le.1 hpassed⟩

/-- **When the advertised refresh is the next slot.**  In a zone whose changes skip or repeat no
refresh time, the advertised instant is the first slot of the dispatcher after `now` if and only if
the local time is before 07:00, or is 19:00 or later. -/
theorem nextRefresh_isLeast_iff
    (hplain : ∀ date, ∀ refreshTime ∈ refreshTimes, zone.Plain (combine date refreshTime))
    (now : ℤ) :
    IsLeast {slot ∈ slots zone | now < slot} (nextRefresh zone now) ↔
      timeOf (zone.toLocal now) < 7 * hour ∨ 19 * hour ≤ timeOf (zone.toLocal now) := by
  obtain ⟨date, hnext, hafter⟩ := nextOccurrence_eq (zone.toLocal now)
  have hmorning : 7 * hour ∈ refreshTimes := by simp [refreshTimes]
  have hlater {date refreshTime : ℤ} (hmem : refreshTime ∈ refreshTimes) :
      now < zone.toUtc (combine date refreshTime) ↔
        zone.toLocal now < combine date refreshTime :=
    (Zone.toLocal_lt_iff (hplain date refreshTime hmem)).symm
  rw [← nextOccurrence_le_iff]
  constructor
  · intro hleast date' refreshTime hmem hlt
    have hle := hleast.2 ⟨(mem_slots_iff hplain _).2 ⟨date', refreshTime, hmem, rfl⟩,
      (hlater hmem).2 hlt⟩
    rw [nextRefresh, hnext] at hle
    rw [hnext]
    exact not_lt.1 fun hgt => not_lt.2 hle
      ((Zone.toUtc_lt_toUtc_iff (hplain _ _ hmem) (hplain _ _ hmorning)).2 hgt)
  · intro hfirst
    refine ⟨⟨(mem_slots_iff hplain _).2 ⟨date, 7 * hour, hmorning, ?_⟩, ?_⟩, ?_⟩
    · rw [nextRefresh, hnext]
    · rw [nextRefresh, hnext]
      exact (hlater hmorning).2 hafter
    · rintro slot ⟨hslot, hlt⟩
      obtain ⟨date', refreshTime, hmem, rfl⟩ := (mem_slots_iff hplain _).1 hslot
      have hle := hfirst date' refreshTime hmem ((hlater hmem).1 hlt)
      rw [hnext] at hle
      rw [nextRefresh, hnext]
      exact not_lt.1 fun hgt => not_lt.2 hle
        ((Zone.toUtc_lt_toUtc_iff (hplain _ _ hmem) (hplain _ _ hmorning)).1 hgt)

end

/-! ### The year 2026 in Chicago -/

/-- America/Chicago with the changes of 2026: from CST to CDT on March 8 at 08:00 UTC, and back on
November 1 at 07:00 UTC. -/
def chicago2026 : Zone where
  offset := -6 * hour
  changes := [⟨20520 * day + 8 * hour, -5 * hour⟩, ⟨20758 * day + 7 * hour, -6 * hour⟩]
  spaced := ⟨20520 * day + 2 * hour, by decide, by decide, trivial⟩

theorem plain_chicago2026 :
    ∀ date, ∀ refreshTime ∈ refreshTimes, chicago2026.Plain (combine date refreshTime) := by
  intro date refreshTime hmem
  simp only [refreshTimes, List.mem_cons, List.not_mem_nil, or_false] at hmem
  unfold Zone.Plain chicago2026 combine
  simp only [PlainAt, hour, day, and_true] at hmem ⊢
  omega

/-- July 15 at noon. -/
def summerNoon : ℤ := 20649 * day + 17 * hour

/-- At noon the service advertises the next morning; the dispatcher has a slot in the evening. -/
theorem evening_slot_is_skipped :
    nextRefresh chicago2026 summerNoon = 20650 * day + 12 * hour ∧
      20650 * day ∈ slots chicago2026 ∧
      ¬IsLeast {slot ∈ slots chicago2026 | summerNoon < slot}
        (nextRefresh chicago2026 summerNoon) := by
  have hslot : 20650 * day ∈ slots chicago2026 := ⟨20650 * day, by decide⟩
  refine ⟨by decide, hslot, fun h => ?_⟩
  exact absurd (h.2 ⟨hslot, by decide⟩) (by decide)

/-- In the night in which the clocks go forward, the next refresh is at 07:00 CDT. -/
theorem next_refresh_of_short_night :
    nextRefresh chicago2026 (20520 * day + 7 * hour) = 20520 * day + 12 * hour ∧
      IsLeast {slot ∈ slots chicago2026 | 20520 * day + 7 * hour < slot}
        (nextRefresh chicago2026 (20520 * day + 7 * hour)) :=
  ⟨by decide, (nextRefresh_isLeast_iff plain_chicago2026 _).2 (by decide)⟩

end Reporting

end TrackFlow
