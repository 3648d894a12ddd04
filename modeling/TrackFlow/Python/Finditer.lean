import TrackFlow.Python.Regex
import Mathlib.Data.List.Forall2

/-!
# `re.finditer`

Which match `finditer` finds depends on the order in which the engine tries them: a run takes as
many characters as it can, and gives them back one by one.  The pattern here is a group followed by
the rest, and consumes a character at least.

* `Regex.tries` : the positions at which a match can end, in the order of the engine.
* `matchAt` : the match at a position; `finditer` : the matches of a text, from left to right.
* `Cursor.Reads` : the characters between two positions; `mem_run`, `reads_lit` : what runs and
  strings read.
-/

namespace TrackFlow

namespace Python

/-- The positions at which a match from `cur` can end, in the order in which they are tried. -/
def Regex.tries (t : Tables) (ignoreCase : Bool) : Regex → Cursor → List Cursor
  | empty, cur => [cur]
  | boundary, cur => if cur.atBoundary t then [cur] else []
  -- a greedy run: the longest first
  | run p low high, cur =>
    (runEnds (p.accepts t ignoreCase) low high cur.done cur.rest).reverse
  | seq a b, cur => (tries t ignoreCase a cur).flatMap (tries t ignoreCase b)
  | alt a b, cur => tries t ignoreCase a cur ++ tries t ignoreCase b cur

/-- A match: where it starts, where its group ends, and where it ends. -/
structure Match where
  start : Cursor
  mid : Cursor
  stop : Cursor
  deriving DecidableEq, Repr

/-- `match.group(1)`, of a group at the start of the pattern. -/
def Match.group (m : Match) : List Char :=
  m.start.rest.take (m.start.rest.length - m.mid.rest.length)

variable (t : Tables) (ignoreCase : Bool) (group rest : Regex)

/-- The match that the engine finds at a position. -/
def matchAt (cur : Cursor) : Option Match :=
  ((group.tries t ignoreCase cur).flatMap fun mid =>
    (rest.tries t ignoreCase mid).map fun stop => (⟨cur, mid, stop⟩ : Match)).head?

/-- The matches from a position on. -/
def findFrom : ℕ → Cursor → List Match
  | 0, _ => []
  | fuel + 1, cur =>
    match matchAt t ignoreCase group rest cur with
    | some m => m :: findFrom fuel m.stop
    | none =>
      match cur.rest with
      | [] => []
      | c :: behind => findFrom fuel ⟨c :: cur.done, behind⟩

/-- `re.finditer`. -/
def finditer (text : List Char) : List Match :=
  findFrom t ignoreCase group rest (text.length + 1) ⟨[], text⟩

variable {t ignoreCase group rest} {cur : Cursor} {m : Match}

/-- The order of the engine does not change which matches there are. -/
theorem Regex.mem_tries {r : Regex} {cur cur' : Cursor} :
    cur' ∈ r.tries t ignoreCase cur ↔ cur' ∈ r.ends t ignoreCase cur := by
  induction r generalizing cur cur' with
  | empty => rfl
  | boundary => rfl
  | run p low high => exact List.mem_reverse
  | seq a b iha ihb => simp only [tries, ends, List.mem_flatMap, iha, ihb]
  | alt a b iha ihb => simp only [tries, ends, List.mem_append, iha, ihb]

theorem of_matchAt (h : matchAt t ignoreCase group rest cur = some m) :
    m.start = cur ∧ m.mid ∈ group.ends t ignoreCase cur ∧
      m.stop ∈ rest.ends t ignoreCase m.mid := by
  obtain ⟨mid, hmid, hm⟩ := List.mem_flatMap.1 (List.mem_of_head? h)
  obtain ⟨stop, hstop, rfl⟩ := List.mem_map.1 hm
  exact ⟨rfl, Regex.mem_tries.1 hmid, Regex.mem_tries.1 hstop⟩

/-- A position without a match. -/
theorem not_mem_of_matchAt (h : matchAt t ignoreCase group rest cur = none) {mid stop : Cursor}
    (hmid : mid ∈ group.ends t ignoreCase cur) : stop ∉ rest.ends t ignoreCase mid := by
  intro hstop
  have hnil := List.head?_eq_none_iff.1 h
  have hmem : (⟨cur, mid, stop⟩ : Match) ∈ (group.tries t ignoreCase cur).flatMap fun mid =>
      (rest.tries t ignoreCase mid).map fun stop => (⟨cur, mid, stop⟩ : Match) :=
    List.mem_flatMap.2 ⟨mid, Regex.mem_tries.2 hmid, List.mem_map_of_mem (Regex.mem_tries.2 hstop)⟩
  rw [hnil] at hmem
  cases hmem

/-! ## What a match consumes -/

/-- The characters between two positions. -/
def Cursor.Reads (cur : Cursor) (cs : List Char) (cur' : Cursor) : Prop :=
  cur.rest = cs ++ cur'.rest ∧ cur'.done = cs.reverse ++ cur.done

theorem Cursor.Reads.append {cur mid cur' : Cursor} {cs ds : List Char} (h : cur.Reads cs mid)
    (h' : mid.Reads ds cur') : cur.Reads (cs ++ ds) cur' := by
  obtain ⟨hrest, hdone⟩ := h
  obtain ⟨hrest', hdone'⟩ := h'
  refine ⟨?_, ?_⟩
  · rw [hrest, hrest', List.append_assoc]
  · rw [hdone', hdone, List.reverse_append, List.append_assoc]

theorem Cursor.Reads.text {cur cur' : Cursor} {cs : List Char} (h : cur.Reads cs cur') :
    cur'.text = cur.text := by
  rw [Cursor.text, Cursor.text, h.1, h.2]
  simp

theorem Cursor.Reads.unique {cur cur' cur'' : Cursor} {cs : List Char} (h : cur.Reads cs cur')
    (h' : cur.Reads cs cur'') : cur' = cur'' := by
  obtain ⟨done, rest⟩ := cur'
  obtain ⟨done', rest'⟩ := cur''
  obtain rfl : rest = rest' := List.append_cancel_left (h.1.symm.trans h'.1)
  obtain rfl : done = done' := h.2.trans h'.2.symm
  rfl

/-- What a run reads. -/
theorem mem_runEnds {accept : Char → Bool} {low : ℕ} {high : Option ℕ} {done behind : List Char}
    {cur' : Cursor} : cur' ∈ runEnds accept low high done behind ↔
      ∃ cs, Cursor.Reads ⟨done, behind⟩ cs cur' ∧ (∀ c ∈ cs, accept c = true) ∧
        low ≤ cs.length ∧ ∀ n ∈ high, cs.length ≤ n := by
  induction behind generalizing low high done with
  | nil =>
    rw [runEnds]
    constructor
    · intro h
      split_ifs at h with hlow
      · obtain rfl := List.mem_singleton.1 h
        exact ⟨[], ⟨rfl, rfl⟩, by simp, by simp [hlow], by simp⟩
      · cases h
    · rintro ⟨cs, ⟨hrest, hdone⟩, -, hlow, -⟩
      obtain ⟨rfl, hrest⟩ := List.append_eq_nil_iff.1 hrest.symm
      rw [if_pos (Nat.le_zero.1 hlow), List.mem_singleton]
      cases cur'
      cases hrest
      cases hdone
      rfl
  | cons c behind ih =>
    rw [runEnds, List.mem_append]
    constructor
    · rintro (h | h)
      · split_ifs at h with hlow
        · obtain rfl := List.mem_singleton.1 h
          exact ⟨[], ⟨rfl, rfl⟩, by simp, by simp [hlow], by simp⟩
        · cases h
      · split_ifs at h with hgo
        · obtain ⟨cs, ⟨hrest, hdone⟩, haccept, hlow, hhigh⟩ := ih.1 h
          refine ⟨c :: cs, ⟨congrArg (c :: ·) hrest, by simp [hdone]⟩,
            List.forall_mem_cons.2 ⟨hgo.2, haccept⟩, by rw [List.length_cons]; omega, ?_⟩
          intro n hn
          have hle := hhigh (n - 1) (by simp [Option.mem_def.1 hn])
          have hpos : n ≠ 0 := fun h0 => hgo.1 (h0 ▸ hn)
          rw [List.length_cons]
          omega
        · cases h
    · rintro ⟨cs, ⟨hrest, hdone⟩, haccept, hlow, hhigh⟩
      cases cs with
      | nil =>
        left
        rw [if_pos (Nat.le_zero.1 hlow), List.mem_singleton]
        cases cur'
        cases hrest
        cases hdone
        rfl
      | cons d cs =>
        right
        obtain ⟨rfl, htail⟩ := List.cons.inj hrest
        have hgo : high ≠ some 0 ∧ accept c = true :=
          ⟨fun h0 => absurd (hhigh 0 h0) (by simp), haccept c List.mem_cons_self⟩
        rw [if_pos hgo]
        refine ih.2 ⟨cs, ⟨htail, by simp [hdone]⟩, (List.forall_mem_cons.1 haccept).2, ?_, ?_⟩
        · rw [List.length_cons] at hlow
          omega
        · intro n hn
          obtain ⟨m, hm, rfl⟩ := Option.map_eq_some_iff.1 hn
          have hle := hhigh m hm
          rw [List.length_cons] at hle
          omega

theorem mem_run {p : CharClass} {low : ℕ} {high : Option ℕ} {cur cur' : Cursor} :
    cur' ∈ (Regex.run p low high).ends t ignoreCase cur ↔
      ∃ cs, cur.Reads cs cur' ∧ (∀ c ∈ cs, p.accepts t ignoreCase c = true) ∧
        low ≤ cs.length ∧ ∀ n ∈ high, cs.length ≤ n := mem_runEnds

/-- What a string reads. -/
theorem reads_lit {s : List Char} {cur cur' : Cursor}
    (h : cur' ∈ (s.foldr (fun c r => Regex.seq (.one (.chars [c])) r) .empty).ends t ignoreCase
      cur) :
    ∃ cs, cur.Reads cs cur' ∧
      List.Forall₂ (fun x c => (CharClass.chars [x]).accepts t ignoreCase c = true) s cs := by
  induction s generalizing cur with
  | nil =>
    obtain rfl := List.mem_singleton.1 h
    exact ⟨[], ⟨rfl, rfl⟩, .nil⟩
  | cons x s ih =>
    obtain ⟨mid, hmid, h⟩ := List.mem_flatMap.1 h
    obtain ⟨ds, hds, haccept, hlow, hhigh⟩ := mem_run.1 hmid
    obtain ⟨cs, hcs, hall⟩ := ih h
    obtain ⟨c, rfl⟩ := List.length_eq_one_iff.1 (Nat.le_antisymm (hhigh 1 rfl) hlow)
    exact ⟨c :: cs, hds.append hcs, .cons (haccept c (List.mem_singleton.2 rfl)) hall⟩

end Python

end TrackFlow
