import Mathlib.Data.List.Dedup
import Mathlib.Data.List.Nodup
import Mathlib.Data.Set.Function
import Mathlib.Tactic.Tauto

/-!
# Records collected by key

A loop that reads records, each of which may be refused, and keeps one item for every key.  A record
may repeat an item; another item with a known key is a conflict.

* `collect_eq_ok` : what the loop has kept when it ends.
* `exists_collect_iff` : it ends if and only if every record is read and no two items conflict.
* `collect_perm` : **it depends on nothing but the set of the records**, up to the order of the
  items.
-/

namespace TrackFlow

namespace Collect

variable {ρ τ κ ε : Type*} [DecidableEq τ] [DecidableEq κ]

/-- One more item. -/
def insert (key : τ → κ) (conflict : τ → ε) (items : List τ) (item : τ) : Except ε (List τ) :=
  match items.find? fun t => decide (key t = key item) with
  | some prior => if prior = item then .ok items else .error (conflict item)
  | none => .ok (items ++ [item])

/-- The loop over the records. -/
def collect (key : τ → κ) (conflict : τ → ε) (read : ρ → Except ε τ) (items : List τ)
    (records : List ρ) : Except ε (List τ) :=
  records.foldlM (fun items r => read r >>= insert key conflict items) items

/-- What records are read as. -/
def Reads (read : ρ → Except ε τ) (records : List ρ) (t : τ) : Prop :=
  ∃ r ∈ records, read r = .ok t

variable {key : τ → κ} {conflict : τ → ε} {read : ρ → Except ε τ} {items items' : List τ}
  {item : τ} {records records' : List ρ}

/-- What one step does: nothing, for an item that is there; else the key is new. -/
theorem insert_eq_ok_iff : insert key conflict items item = .ok items' ↔
    (item ∈ items ∧ items' = items ∧ (items.find? fun t => decide (key t = key item)) = some item) ∨
      (key item ∉ items.map key ∧ items' = items ++ [item]) := by
  unfold insert
  cases hfind : items.find? fun t => decide (key t = key item) with
  | none =>
    have hnew : key item ∉ items.map key := by simpa using hfind
    simp [hnew, eq_comm]
  | some prior =>
    have hmem := List.mem_of_find?_eq_some hfind
    have hkey : key prior = key item := by simpa using List.find?_some hfind
    have hold : key item ∈ items.map key := hkey ▸ List.mem_map_of_mem hmem
    by_cases heq : prior = item
    · subst heq
      simp [hmem, hold, eq_comm]
    · simp [heq, hold]

omit [DecidableEq τ] in
/-- In a dictionary the first item with the key of an item is that item. -/
theorem find?_of_mem (hn : (items.map key).Nodup) (h : item ∈ items) :
    (items.find? fun t => decide (key t = key item)) = some item := by
  obtain ⟨t, ht⟩ := Option.isSome_iff_exists.1
    (List.find?_isSome.2 ⟨item, h, decide_eq_true rfl⟩ :
      (items.find? fun t => decide (key t = key item)).isSome)
  have hkey : key t = key item := by simpa using List.find?_some ht
  rw [ht, List.inj_on_of_nodup_map hn (List.mem_of_find?_eq_some ht) h hkey]

/-- One step on a dictionary: it ends unless it meets another item with the key. -/
theorem exists_insert_iff (hn : (items.map key).Nodup) :
    (∃ items', insert key conflict items item = .ok items') ↔
      ∀ t ∈ items, key t = key item → t = item := by
  constructor
  · rintro ⟨items', h⟩ t ht hkey
    rcases insert_eq_ok_iff.1 h with ⟨hmem, -, -⟩ | ⟨hnew, -⟩
    · exact List.inj_on_of_nodup_map hn ht hmem hkey
    · exact absurd (hkey ▸ List.mem_map_of_mem ht) hnew
  · intro h
    by_cases hkey : key item ∈ items.map key
    · obtain ⟨t, ht, hkey⟩ := List.mem_map.1 hkey
      obtain rfl := h t ht hkey
      exact ⟨items, insert_eq_ok_iff.2 (.inl ⟨ht, rfl, find?_of_mem hn ht⟩)⟩
    · exact ⟨_, insert_eq_ok_iff.2 (.inr ⟨hkey, rfl⟩)⟩

/-- What one step keeps. -/
theorem insert_spec (hn : (items.map key).Nodup)
    (h : insert key conflict items item = .ok items') :
    (items'.map key).Nodup ∧ ∀ t, t ∈ items' ↔ t ∈ items ∨ t = item := by
  rcases insert_eq_ok_iff.1 h with ⟨hmem, rfl, -⟩ | ⟨hnew, rfl⟩
  · refine ⟨hn, fun t => ⟨.inl, ?_⟩⟩
    rintro (ht | rfl)
    · exact ht
    · exact hmem
  · constructor
    · rw [List.map_append, List.nodup_append]
      refine ⟨hn, List.nodup_singleton _, ?_⟩
      rintro k hk k' hk' rfl
      exact hnew (List.mem_singleton.1 hk' ▸ hk)
    · simp

theorem collect_cons_eq_ok {r : ρ} :
    collect key conflict read items (r :: records) = .ok items' ↔
      ∃ item next, read r = .ok item ∧ insert key conflict items item = .ok next ∧
        collect key conflict read next records = .ok items' := by
  unfold collect
  rw [List.foldlM_cons]
  cases hr : read r with
  | error e => simp [bind, Except.bind]
  | ok item =>
    cases hi : insert key conflict items item with
    | error e => simp [bind, Except.bind, hi]
    | ok next => simp [bind, Except.bind, hi]

/-- **What the loop has kept when it ends**: the items it had and those it has read. -/
theorem collect_eq_ok (hn : (items.map key).Nodup)
    (h : collect key conflict read items records = .ok items') :
    (items'.map key).Nodup ∧ ∀ t, t ∈ items' ↔ t ∈ items ∨ Reads read records t := by
  induction records generalizing items with
  | nil =>
    cases h
    exact ⟨hn, fun t => by simp [Reads]⟩
  | cons r records ih =>
    obtain ⟨item, next, hr, hi, hc⟩ := collect_cons_eq_ok.1 h
    obtain ⟨hn', hmem⟩ := insert_spec hn hi
    obtain ⟨hn'', hmem'⟩ := ih hn' hc
    refine ⟨hn'', fun t => ?_⟩
    rw [hmem', hmem]
    simp only [Reads, List.mem_cons, exists_eq_or_imp, hr, Except.ok.injEq, eq_comm (a := item)]
    tauto

/-- **When the loop ends.** -/
theorem exists_collect_iff (hn : (items.map key).Nodup) :
    (∃ items', collect key conflict read items records = .ok items') ↔
      (∀ r ∈ records, ∃ t, read r = .ok t) ∧
        Set.InjOn key {t | t ∈ items ∨ Reads read records t} := by
  induction records generalizing items with
  | nil =>
    have hinj : Set.InjOn key {t | t ∈ items ∨ Reads read [] t} := fun t ht t' ht' hkey => by
      simp only [Reads, List.not_mem_nil, false_and, exists_false, or_false,
        Set.mem_ofPred_eq] at ht ht'
      exact List.inj_on_of_nodup_map hn ht ht' hkey
    exact ⟨fun _ => ⟨by simp, hinj⟩, fun _ => ⟨items, rfl⟩⟩
  | cons r records ih =>
    constructor
    · rintro ⟨items', h⟩
      obtain ⟨item, next, hr, hi, hc⟩ := collect_cons_eq_ok.1 h
      obtain ⟨hn', hmem⟩ := insert_spec hn hi
      obtain ⟨hread, hinj⟩ := (ih hn').1 ⟨items', hc⟩
      refine ⟨List.forall_mem_cons.2 ⟨⟨item, hr⟩, hread⟩, hinj.mono fun t ht => ?_⟩
      simp only [Reads, List.mem_cons, exists_eq_or_imp, hr, Except.ok.injEq,
        Set.mem_ofPred_eq] at ht ⊢
      rw [hmem]
      tauto
    · rintro ⟨hread, hinj⟩
      obtain ⟨⟨item, hr⟩, hread⟩ := List.forall_mem_cons.1 hread
      have hitem : Reads read (r :: records) item := ⟨r, List.mem_cons_self, hr⟩
      have hinsert : ∃ next, insert key conflict items item = .ok next :=
        (exists_insert_iff hn).2 fun t ht hkey => hinj (.inl ht) (.inr hitem) hkey
      obtain ⟨next, hi⟩ := hinsert
      obtain ⟨hn', hmem⟩ := insert_spec hn hi
      obtain ⟨items', hc⟩ := (ih hn').2 ⟨hread, hinj.mono fun t ht => by
        simp only [Set.mem_ofPred_eq, hmem] at ht ⊢
        rcases ht with (ht | rfl) | ⟨r', hr', ht⟩
        · exact .inl ht
        · exact .inr hitem
        · exact .inr ⟨r', List.mem_cons_of_mem _ hr', ht⟩⟩
      exact ⟨items', collect_cons_eq_ok.2 ⟨item, next, hr, hi, hc⟩⟩

/-- **Only the set of the records matters**: whether the loop ends, and what it has kept. -/
theorem collect_perm (hset : ∀ r, r ∈ records ↔ r ∈ records')
    (h : collect key conflict read [] records = .ok items) :
    ∃ items', collect key conflict read [] records' = .ok items' ∧ items'.Perm items := by
  have hreads : ∀ t, Reads read records t ↔ Reads read records' t := fun t => by
    simp only [Reads, hset]
  have hnil : (([] : List τ).map key).Nodup := List.nodup_nil
  obtain ⟨hread, hinj⟩ := (exists_collect_iff hnil).1 ⟨items, h⟩
  have hends : ∃ items', collect key conflict read [] records' = .ok items' :=
    (exists_collect_iff hnil).2
      ⟨fun r hr => hread r ((hset r).2 hr), by simpa only [hreads] using hinj⟩
  obtain ⟨items', h'⟩ := hends
  obtain ⟨hn, hmem⟩ := collect_eq_ok hnil h
  obtain ⟨hn', hmem'⟩ := collect_eq_ok hnil h'
  refine ⟨items', h', (List.perm_ext_iff_of_nodup (.of_map key hn') (.of_map key hn)).2 fun t => ?_⟩
  rw [hmem, hmem', hreads]

end Collect

end TrackFlow
