import TrackFlow.Sql.Aggregate

/-!
# Tables with a primary key

A `Table key` is a list of rows no two of which have the same `key`; the order of the rows
carries no meaning.  `upsert` and `upsertAll` are `INSERT ... ON CONFLICT (key) DO UPDATE`,
`deleteWhere` is `DELETE ... WHERE`, `lookup` is the row with a given key.

`upsertAll` needs payload rows with distinct keys: PostgreSQL refuses a statement that would
update one row twice, so a caller has to check `KeysDistinct` first.
-/

namespace TrackFlow

/-- Rows with a primary key. -/
structure Table {ρ κ : Type*} (key : ρ → κ) where
  /-- The rows, in no meaningful order. -/
  rows : List ρ
  /-- The primary key. -/
  nodup : (rows.map key).Nodup

/-- The payload of a statement names no key twice. -/
def KeysDistinct {ρ κ : Type*} (key : ρ → κ) (rs : List ρ) : Prop := (rs.map key).Nodup

instance {ρ κ : Type*} [DecidableEq κ] (key : ρ → κ) (rs : List ρ) :
    Decidable (KeysDistinct key rs) :=
  inferInstanceAs (Decidable (rs.map key).Nodup)

theorem keysDistinct_singleton {ρ κ : Type*} (key : ρ → κ) (r : ρ) : KeysDistinct key [r] :=
  List.nodup_singleton _

namespace Table

variable {ρ κ M : Type*} {key : ρ → κ}

/-- The table without rows. -/
def empty : Table key := ⟨[], List.nodup_nil⟩

@[simp] theorem rows_empty : (empty : Table key).rows = [] := rfl

theorem eq_of_key_eq (t : Table key) {r r' : ρ} (h : r ∈ t.rows) (h' : r' ∈ t.rows)
    (hk : key r = key r') : r = r' :=
  List.inj_on_of_nodup_map t.nodup h h' hk

/-- `DELETE FROM t WHERE p`. -/
def deleteWhere (t : Table key) (p : ρ → Bool) : Table key :=
  ⟨t.rows.filter fun r => !p r, t.nodup.sublist (List.filter_sublist.map key)⟩

@[simp] theorem mem_deleteWhere {t : Table key} {p : ρ → Bool} {r : ρ} :
    r ∈ (t.deleteWhere p).rows ↔ r ∈ t.rows ∧ p r = false := by
  simp [deleteWhere]

/-- `UPDATE t SET ...` of columns outside the primary key. -/
def update (t : Table key) (f : ρ → ρ) (hf : ∀ r, key (f r) = key r) : Table key :=
  ⟨t.rows.map f, by
    have : key ∘ f = key := funext hf
    rw [List.map_map, this]
    exact t.nodup⟩

@[simp] theorem rows_update (t : Table key) (f : ρ → ρ) (hf : ∀ r, key (f r) = key r) :
    (t.update f hf).rows = t.rows.map f := rfl

/-- `INSERT INTO t`; a duplicate key violates the primary key. -/
def insert [DecidableEq κ] (t : Table key) (r : ρ) : Option (Table key) :=
  if h : key r ∈ t.rows.map key then none
  else some ⟨t.rows ++ [r], by
    rw [List.map_append]
    exact List.Nodup.append t.nodup (List.nodup_singleton _) (by simpa using h)⟩

theorem insert_eq_some [DecidableEq κ] {t t' : Table key} {r : ρ} (h : t.insert r = some t') :
    (∀ r' ∈ t.rows, key r' ≠ key r) ∧ t'.rows = t.rows ++ [r] := by
  unfold insert at h
  split_ifs at h with hk
  cases h
  refine ⟨fun r' hr' he => hk (List.mem_map.2 ⟨r', hr', he⟩), rfl⟩

section

variable [DecidableEq κ]

/-- The row with the given key. -/
def lookup (t : Table key) (k : κ) : Option ρ := t.rows.find? fun r => decide (key r = k)

theorem lookup_eq_some_iff {t : Table key} {k : κ} {r : ρ} :
    t.lookup k = some r ↔ r ∈ t.rows ∧ key r = k := by
  constructor
  · intro h
    exact ⟨List.mem_of_find?_eq_some h, by simpa using List.find?_some h⟩
  · rintro ⟨hr, rfl⟩
    cases h : t.lookup (key r) with
    | none =>
      have := List.find?_eq_none.1 h r hr
      simp at this
    | some r' =>
      have hk : key r' = key r := by simpa using List.find?_some h
      rw [t.eq_of_key_eq (List.mem_of_find?_eq_some h) hr hk]

theorem lookup_eq_none_iff {t : Table key} {k : κ} :
    t.lookup k = none ↔ ∀ r ∈ t.rows, key r ≠ k := by
  simp [lookup]

theorem lookup_update (t : Table key) (f : ρ → ρ) (hf : ∀ r, key (f r) = key r) (k : κ) :
    (t.update f hf).lookup k = (t.lookup k).map f := by
  have hkey : (fun r => decide (key r = k)) ∘ f = fun r => decide (key r = k) :=
    funext fun r => by simp only [Function.comp_apply, hf]
  rw [lookup, rows_update, List.find?_map, hkey, lookup]

@[simp] theorem lookup_empty (k : κ) : (empty : Table key).lookup k = none := rfl

/-- `INSERT ... ON CONFLICT (key) DO UPDATE` of several rows with distinct keys. -/
def upsertAll (t : Table key) (rs : List ρ) (h : KeysDistinct key rs) : Table key where
  rows := (t.rows.filter fun r => !decide (key r ∈ rs.map key)) ++ rs
  nodup := by
    rw [List.map_append]
    refine List.Nodup.append (t.nodup.sublist (List.filter_sublist.map key)) h ?_
    rintro k hk hk'
    obtain ⟨r, hr, rfl⟩ := List.mem_map.1 hk
    simp only [List.mem_filter, Bool.not_eq_eq_eq_not, Bool.not_true, decide_eq_false_iff_not] at hr
    exact hr.2 hk'

@[simp] theorem mem_upsertAll {t : Table key} {rs : List ρ} {h : KeysDistinct key rs} {r : ρ} :
    r ∈ (t.upsertAll rs h).rows ↔ (r ∈ t.rows ∧ key r ∉ rs.map key) ∨ r ∈ rs := by
  simp [upsertAll]

/-- `INSERT ... ON CONFLICT (key) DO UPDATE` of one row. -/
def upsert (t : Table key) (r : ρ) : Table key := t.upsertAll [r] (keysDistinct_singleton key r)

@[simp] theorem mem_upsert {t : Table key} {r r' : ρ} :
    r' ∈ (t.upsert r).rows ↔ (r' ∈ t.rows ∧ key r' ≠ key r) ∨ r' = r := by
  simp [upsert]

theorem lookup_upsertAll_of_mem {t : Table key} {rs : List ρ} {h : KeysDistinct key rs} {r : ρ}
    (hr : r ∈ rs) : (t.upsertAll rs h).lookup (key r) = some r :=
  lookup_eq_some_iff.2 ⟨mem_upsertAll.2 (.inr hr), rfl⟩

theorem lookup_upsertAll_of_notMem {t : Table key} {rs : List ρ} {h : KeysDistinct key rs} {k : κ}
    (hk : k ∉ rs.map key) : (t.upsertAll rs h).lookup k = t.lookup k := by
  cases ht : t.lookup k with
  | none =>
    rw [lookup_eq_none_iff] at ht ⊢
    intro r hr
    rcases mem_upsertAll.1 hr with ⟨hr, -⟩ | hr
    · exact ht r hr
    · rintro rfl; exact hk (List.mem_map_of_mem hr)
  | some r =>
    obtain ⟨hr, rfl⟩ := lookup_eq_some_iff.1 ht
    exact lookup_eq_some_iff.2 ⟨mem_upsertAll.2 (.inl ⟨hr, hk⟩), rfl⟩

@[simp] theorem lookup_upsert_self (t : Table key) (r : ρ) :
    (t.upsert r).lookup (key r) = some r :=
  lookup_upsertAll_of_mem List.mem_cons_self

theorem lookup_upsert_of_ne {t : Table key} {r : ρ} {k : κ} (hk : k ≠ key r) :
    (t.upsert r).lookup k = t.lookup k :=
  lookup_upsertAll_of_notMem (by simpa using hk)

end

end Table

end TrackFlow
