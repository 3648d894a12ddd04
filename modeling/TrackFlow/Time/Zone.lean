import Mathlib.Algebra.Order.Ring.Int

/-!
# Time zones

A zone is an offset from UTC that changes at given instants.  An instant has one wall time; a wall
time may be skipped by a change, or be shown twice, and is then read with the offset that holds
before the change.

* `Zone` : the changes, far enough apart that the wall times they skip or repeat are in order.
* `Zone.toLocal`, `Zone.toUtc` : the wall time of an instant, the instant of a wall time.
* `Zone.Plain` : a wall time that no change skips or repeats.
* `Zone.toLocal_lt_iff` : **comparing with a plain wall time is comparing with its instant.**
* `Zone.toLocal_toUtc` : a plain wall time is the one of its instant.
-/

namespace TrackFlow

/-- A change of the offset from UTC. -/
structure Transition where
  instant : ℤ
  offset : ℤ

/-- The offset at an instant, if it is `offset` before the first change. -/
def offsetAt (offset : ℤ) : List Transition → ℤ → ℤ
  | [], _ => offset
  | change :: changes, utc =>
    if utc < change.instant then offset else offsetAt change.offset changes utc

/-- The offset with which a wall time is read: that of a change counts from the first wall time
after all that it skips or repeats. -/
def wallOffsetAt (offset : ℤ) : List Transition → ℤ → ℤ
  | [], _ => offset
  | change :: changes, wall =>
    if wall < change.instant + max offset change.offset then offset
    else wallOffsetAt change.offset changes wall

/-- The wall times that the changes skip or repeat are in order, and none is before `bound`. -/
def Spaced (offset bound : ℤ) : List Transition → Prop
  | [] => True
  | change :: changes =>
    bound ≤ change.instant + min offset change.offset ∧
      Spaced change.offset (change.instant + max offset change.offset) changes

/-- No change skips or repeats the wall time. -/
def PlainAt (offset : ℤ) : List Transition → ℤ → Prop
  | [], _ => True
  | change :: changes, wall =>
    (wall < change.instant + min offset change.offset ∨
      change.instant + max offset change.offset ≤ wall) ∧
    PlainAt change.offset changes wall

section

variable {offset bound : ℤ} {changes : List Transition}

/-- Later changes do not take the wall time back before the bound. -/
theorem Spaced.le_local (h : Spaced offset bound changes) (wall utc : ℤ) (hbound : wall ≤ bound)
    (hlocal : wall ≤ utc + offset) : wall ≤ utc + offsetAt offset changes utc := by
  induction changes generalizing offset bound with
  | nil => exact hlocal
  | cons change changes ih =>
    obtain ⟨hfirst, hrest⟩ := h
    rw [offsetAt]
    split_ifs with hbefore
    · exact hlocal
    · exact ih hrest (by omega) (by omega)

/-- A wall time that is not before an instant with the offset of that instant is not read as an
earlier one. -/
theorem Spaced.le_sub_wallOffsetAt (h : Spaced offset bound changes) (instant wall : ℤ)
    (hbound : instant + offset ≤ bound) (hwall : instant + offset ≤ wall) :
    instant ≤ wall - wallOffsetAt offset changes wall := by
  induction changes generalizing offset bound with
  | nil =>
    rw [wallOffsetAt]
    omega
  | cons change changes ih =>
    obtain ⟨hfirst, hrest⟩ := h
    rw [wallOffsetAt]
    split_ifs with hbefore
    · omega
    · exact ih hrest (by omega) (by omega)

variable {wall utc : ℤ}

theorem Spaced.local_lt_iff (h : Spaced offset bound changes)
    (hplain : PlainAt offset changes wall) :
    utc + offsetAt offset changes utc < wall ↔ utc < wall - wallOffsetAt offset changes wall := by
  induction changes generalizing offset bound with
  | nil =>
    rw [offsetAt, wallOffsetAt]
    omega
  | cons change changes ih =>
    obtain ⟨hfirst, hrest⟩ := h
    obtain ⟨hside, hplain⟩ := hplain
    rw [offsetAt, wallOffsetAt]
    rcases hside with hearly | hlate
    · rw [if_pos (show wall < change.instant + max offset change.offset by omega)]
      split_ifs with hbefore
      · omega
      · -- after the change it is later than `wall` by both clocks
        have hlocal := hrest.le_local wall utc (by omega) (by omega)
        omega
    · rw [if_neg (show ¬wall < change.instant + max offset change.offset by omega)]
      split_ifs with hbefore
      · have hinstant := hrest.le_sub_wallOffsetAt change.instant wall (by omega) (by omega)
        omega
      · exact ih hrest hplain

theorem Spaced.offsetAt_sub (h : Spaced offset bound changes)
    (hplain : PlainAt offset changes wall) :
    offsetAt offset changes (wall - wallOffsetAt offset changes wall) =
      wallOffsetAt offset changes wall := by
  induction changes generalizing offset bound with
  | nil => rfl
  | cons change changes ih =>
    obtain ⟨hfirst, hrest⟩ := h
    obtain ⟨hside, hplain⟩ := hplain
    rw [offsetAt, wallOffsetAt]
    rcases hside with hearly | hlate
    · rw [if_pos (show wall < change.instant + max offset change.offset by omega)]
      exact if_pos (by omega)
    · have hinstant := hrest.le_sub_wallOffsetAt change.instant wall (by omega) (by omega)
      rw [if_neg (show ¬wall < change.instant + max offset change.offset by omega),
        if_neg (by omega)]
      exact ih hrest hplain

end

/-- A time zone. -/
structure Zone where
  /-- The offset before the first change. -/
  offset : ℤ
  changes : List Transition
  spaced : ∃ bound, Spaced offset bound changes

namespace Zone

/-- The wall time of an instant. -/
def toLocal (zone : Zone) (utc : ℤ) : ℤ := utc + offsetAt zone.offset zone.changes utc

/-- The instant of a wall time. -/
def toUtc (zone : Zone) (wall : ℤ) : ℤ := wall - wallOffsetAt zone.offset zone.changes wall

/-- No change of the clock skips or repeats the wall time. -/
def Plain (zone : Zone) (wall : ℤ) : Prop := PlainAt zone.offset zone.changes wall

variable {zone : Zone} {utc wall wall' : ℤ}

/-- **Comparing with a plain wall time is comparing with its instant.** -/
theorem toLocal_lt_iff (h : zone.Plain wall) : zone.toLocal utc < wall ↔ utc < zone.toUtc wall := by
  obtain ⟨bound, hspaced⟩ := zone.spaced
  exact hspaced.local_lt_iff h

/-- A plain wall time is the one of its instant. -/
theorem toLocal_toUtc (h : zone.Plain wall) : zone.toLocal (zone.toUtc wall) = wall := by
  obtain ⟨bound, hspaced⟩ := zone.spaced
  rw [toLocal, toUtc, hspaced.offsetAt_sub h, sub_add_cancel]

/-- Plain wall times and their instants come in one order. -/
theorem toUtc_lt_toUtc_iff (h : zone.Plain wall) (h' : zone.Plain wall') :
    zone.toUtc wall < zone.toUtc wall' ↔ wall < wall' := by
  rw [← toLocal_lt_iff h', toLocal_toUtc h]

end Zone

end TrackFlow
