import Mathlib.Data.List.Nodup

/-!
# Document tables that only grow

A document table is a list of rows.  `updateWhere p f` is `table.update(fields, cond)`.  Many
tables are only ever changed in two ways: a new row is inserted, or some rows are **marked** by
one fixed idempotent update `f` (a flag is set).

* `Grows f rows rows'` : `rows'` comes from `rows` by insertions and marks.
* `Grows.trans` : such changes compose.
* `Grows.mem_of_fixed` : a row that carries the mark is never changed or lost.
* `Grows.find?_eq_some`, `Grows.find?_of_fixed` : a lookup by columns that marks keep finds the
  same row, marked or not; what it found marked, it finds for ever.
* `GrowsMarking.trans` : rows that have all been marked stay marked.
-/

namespace TrackFlow

variable {ρ κ : Type*}

/-- `table.update(fields, cond)`: the rows that satisfy `p` are rewritten by `f`. -/
def updateWhere (p : ρ → Bool) (f : ρ → ρ) (rows : List ρ) : List ρ :=
  rows.map fun r => if p r then f r else r

section

variable {p p' : ρ → Bool} {f : ρ → ρ} {rows rows' rows'' : List ρ} {r r' : ρ}

theorem mem_updateWhere : r' ∈ updateWhere p f rows ↔ ∃ r ∈ rows, (if p r then f r else r) = r' :=
  List.mem_map

@[simp] theorem updateWhere_append (p : ρ → Bool) (f : ρ → ρ) (rows rows' : List ρ) :
    updateWhere p f (rows ++ rows') = updateWhere p f rows ++ updateWhere p f rows' :=
  List.map_append

@[simp] theorem length_updateWhere (p : ρ → Bool) (f : ρ → ρ) (rows : List ρ) :
    (updateWhere p f rows).length = rows.length :=
  List.length_map _

theorem updateWhere_false (f : ρ → ρ) (rows : List ρ) :
    updateWhere (fun _ => false) f rows = rows := by
  simp [updateWhere]

/-- Columns that `f` keeps are kept. -/
theorem map_updateWhere {g : ρ → κ} (hg : ∀ r, g (f r) = g r) (p : ρ → Bool) (rows : List ρ) :
    (updateWhere p f rows).map g = rows.map g := by
  rw [updateWhere, List.map_map]
  refine List.map_congr_left fun r _ => ?_
  by_cases h : p r = true <;> simp [h, hg]

/-- Marking twice is marking once, when `f` is idempotent. -/
theorem updateWhere_updateWhere (hf : ∀ r, f (f r) = f r) (p p' : ρ → Bool) (rows : List ρ) :
    updateWhere p' f (updateWhere p f rows) =
      updateWhere (fun r => p r || p' (if p r then f r else r)) f rows := by
  simp only [updateWhere, List.map_map]
  refine List.map_congr_left fun r _ => ?_
  by_cases hp : p r = true
  · by_cases hp' : p' (f r) = true <;> simp [hp, hp', hf]
  · simp [hp]

/-- A lookup by columns that `f` keeps. -/
theorem find?_updateWhere {q : ρ → Bool} (hq : ∀ r, q (f r) = q r) (p : ρ → Bool) (rows : List ρ) :
    (updateWhere p f rows).find? q = (rows.find? q).map fun r => if p r then f r else r := by
  have hcomp : (q ∘ fun r => if p r then f r else r) = q := by
    funext r
    by_cases h : p r = true <;> simp [h, hq]
  rw [updateWhere, List.find?_map, hcomp]

/-- `rows'` comes from `rows` by inserting rows and by marking rows with `f`. -/
def Grows (f : ρ → ρ) (rows rows' : List ρ) : Prop :=
  ∃ (p : ρ → Bool) (new : List ρ), rows' = updateWhere p f rows ++ new

theorem Grows.refl (f : ρ → ρ) (rows : List ρ) : Grows f rows rows :=
  ⟨fun _ => false, [], by rw [updateWhere_false, List.append_nil]⟩

theorem Grows.updateWhere (p : ρ → Bool) (f : ρ → ρ) (rows : List ρ) :
    Grows f rows (updateWhere p f rows) :=
  ⟨p, [], (List.append_nil _).symm⟩

theorem Grows.append (f : ρ → ρ) (rows new : List ρ) : Grows f rows (rows ++ new) :=
  ⟨fun _ => false, new, by rw [updateWhere_false]⟩

/-- Changes compose; a row marked twice is marked once. -/
theorem Grows.trans (hf : ∀ r, f (f r) = f r) (h : Grows f rows rows') (h' : Grows f rows' rows'') :
    Grows f rows rows'' := by
  obtain ⟨p, new, rfl⟩ := h
  obtain ⟨p', new', rfl⟩ := h'
  refine ⟨fun r => p r || p' (if p r then f r else r), TrackFlow.updateWhere p' f new ++ new', ?_⟩
  rw [updateWhere_append, List.append_assoc, updateWhere_updateWhere hf]

theorem Grows.mem (h : Grows f rows rows') (hr : r ∈ rows) : r ∈ rows' ∨ f r ∈ rows' := by
  obtain ⟨p, new, rfl⟩ := h
  have hmem : (if p r then f r else r) ∈ TrackFlow.updateWhere p f rows :=
    mem_updateWhere.2 ⟨r, hr, rfl⟩
  by_cases hp : p r = true
  · exact .inr (List.mem_append_left _ (by simpa [hp] using hmem))
  · exact .inl (List.mem_append_left _ (by simpa [hp] using hmem))

/-- **Marks are permanent.**  A row that carries the mark stays as it is. -/
theorem Grows.mem_of_fixed (h : Grows f rows rows') (hr : r ∈ rows) (hfix : f r = r) :
    r ∈ rows' := by
  rcases h.mem hr with hr' | hr'
  · exact hr'
  · exact hfix ▸ hr'

section

variable {q : ρ → Bool}

/-- A lookup finds the same row, marked or not. -/
theorem Grows.find?_eq_some (h : Grows f rows rows') (hq : ∀ r, q (f r) = q r)
    (hr : rows.find? q = some r) : rows'.find? q = some r ∨ rows'.find? q = some (f r) := by
  obtain ⟨p, new, rfl⟩ := h
  have hfind : (TrackFlow.updateWhere p f rows ++ new).find? q = some (if p r then f r else r) := by
    rw [List.find?_append, find?_updateWhere hq, hr]
    rfl
  by_cases hp : p r = true
  · exact .inr (by simpa [hp] using hfind)
  · exact .inl (by simpa [hp] using hfind)

/-- What a lookup found marked, it finds for ever. -/
theorem Grows.find?_of_fixed (h : Grows f rows rows') (hq : ∀ r, q (f r) = q r)
    (hr : rows.find? q = some r) (hfix : f r = r) : rows'.find? q = some r := by
  rcases h.find?_eq_some hq hr with hr' | hr'
  · exact hr'
  · rw [hr', hfix]

end

/-! ## Rows that are all marked -/

/-- `rows'` comes from `rows` by insertions and marks, and every row that satisfies `q` is
marked. -/
def GrowsMarking (q : ρ → Prop) (f : ρ → ρ) (rows rows' : List ρ) : Prop :=
  ∃ (p : ρ → Bool) (new : List ρ), rows' = TrackFlow.updateWhere p f rows ++ new ∧
    ∀ r ∈ rows, q r → p r = true ∨ f r = r

theorem GrowsMarking.of_updateWhere {q : ρ → Prop} {p : ρ → Bool}
    (h : ∀ r ∈ rows, q r → p r = true ∨ f r = r) :
    GrowsMarking q f rows (TrackFlow.updateWhere p f rows) :=
  ⟨p, [], (List.append_nil _).symm, h⟩

/-- **Marked rows stay marked.** -/
theorem GrowsMarking.trans {q : ρ → Prop} (hf : ∀ r, f (f r) = f r)
    (h : GrowsMarking q f rows rows') (h' : Grows f rows' rows'') :
    GrowsMarking q f rows rows'' := by
  obtain ⟨p, new, rfl, hq⟩ := h
  obtain ⟨p', new', rfl⟩ := h'
  refine ⟨fun r => p r || p' (if p r then f r else r), TrackFlow.updateWhere p' f new ++ new',
    ?_, ?_⟩
  · rw [updateWhere_append, List.append_assoc, updateWhere_updateWhere hf]
  · intro r hr hqr
    rcases hq r hr hqr with hp | hfix
    · exact .inl (by simp [hp])
    · exact .inr hfix

/-- Marking the rows that satisfy `q` marks every older row that does. -/
theorem Grows.marking {q : ρ → Prop} (hf : ∀ r, f (f r) = f r) (h : Grows f rows rows')
    (hq : ∀ r, q r → p r = true ∨ f r = r) :
    GrowsMarking q f rows (TrackFlow.updateWhere p f rows') := by
  obtain ⟨p₀, new, rfl⟩ := h
  refine ⟨fun r => p₀ r || p (if p₀ r then f r else r), TrackFlow.updateWhere p f new, ?_, ?_⟩
  · rw [updateWhere_append, updateWhere_updateWhere hf]
  · intro r _ hqr
    by_cases hp₀ : p₀ r = true
    · exact .inl (by simp [hp₀])
    · rcases hq r hqr with hp | hfix
      · exact .inl (by simp [hp₀, hp])
      · exact .inr hfix

/-- What a lookup found and had to be marked, it finds marked. -/
theorem GrowsMarking.find?_eq_some {q : ρ → Prop} {t : ρ → Bool} (h : GrowsMarking q f rows rows')
    (ht : ∀ r, t (f r) = t r) (hr : rows.find? t = some r) (hq : q r) :
    rows'.find? t = some (f r) := by
  obtain ⟨p, new, rfl, hmark⟩ := h
  have hrow : (if p r then f r else r) = f r := by
    rcases hmark r (List.mem_of_find?_eq_some hr) hq with hp | hfix
    · exact if_pos hp
    · rw [hfix, ite_self]
  rw [List.find?_append, find?_updateWhere ht, hr, Option.map_some, hrow]
  rfl

/-- Marks that satisfy `q` for no new row leave no more rows with `q`. -/
theorem length_filter_updateWhere_le {q : ρ → Bool} (hq : ∀ r, q (f r) = true → q r = true)
    (p : ρ → Bool) (rows : List ρ) :
    ((TrackFlow.updateWhere p f rows).filter q).length ≤ (rows.filter q).length := by
  rw [TrackFlow.updateWhere, List.filter_map, List.length_map]
  refine (List.monotone_filter_right rows fun r hr => ?_).length_le
  by_cases hp : p r = true
  · exact hq r (by simpa [hp] using hr)
  · simpa [hp] using hr

end

end TrackFlow
