import TrackFlow.Python.Text

/-!
# Patterns of Python's `re`

The fragment of `re` without look-around and back references: characters and character classes,
runs of a class, word boundaries, concatenation and alternatives.  Whether `search` finds a match
depends only on which matches there are, so a run is neither greedy nor lazy here.

* `Tables` : the Unicode data a pattern consults.
* `Regex.ends` : the positions at which a match from a position can end.
* `Pattern.search` : there is a match somewhere in the text; `Pattern.fullmatch` : of all of it.
* `Regex.trailing` : a match may test for a word boundary behind its last character.
* `Pattern.search_shift` : **a match stays a match in a longer text**, unless the text is cut
  inside a word and the pattern tests for a boundary there.
-/

namespace TrackFlow

namespace Python

/-- The Unicode data that patterns and `str.casefold` consult. -/
structure Tables where
  /-- `\w`. -/
  isWord : Char → Bool
  /-- `\d`. -/
  isDecimal : Char → Bool
  /-- Equal if case is ignored. -/
  same : Char → Char → Bool
  /-- `str.casefold` of one character. -/
  casefold : Char → List Char
  isWord_of_isSpace : ∀ c, isSpace c = true → isWord c = false

/-- A class of characters. -/
inductive CharClass
  /-- One of the characters. -/
  | chars (cs : List Char)
  /-- `.` -/
  | any
  /-- `\s` -/
  | space
  /-- `\d` -/
  | decimal
  /-- `\w` -/
  | word

/-- The characters of a class; `ignoreCase` is the flag `(?i)`. -/
def CharClass.accepts (t : Tables) (ignoreCase : Bool) : CharClass → Char → Bool
  | chars cs, c => cs.any fun x => if ignoreCase then t.same x c else x == c
  | any, c => c != '\n'
  | space, c => isSpace c
  | decimal, c => t.isDecimal c
  | word, c => t.isWord c

/-- A regular expression. -/
inductive Regex
  | empty
  /-- `\b` -/
  | boundary
  /-- `p{low,high}`; `none` is no upper bound. -/
  | run (p : CharClass) (low : ℕ) (high : Option ℕ)
  | seq (a b : Regex)
  | alt (a b : Regex)

/-- A position in a text: what stands before it, backwards, and the rest. -/
structure Cursor where
  done : List Char
  rest : List Char
  deriving DecidableEq, Repr

namespace Cursor

/-- The text of a position. -/
def text (cur : Cursor) : List Char := cur.done.reverse ++ cur.rest

/-- The position in a text that is longer on both sides. -/
def shift (cur : Cursor) (before behind : List Char) : Cursor where
  done := cur.done ++ before.reverse
  rest := cur.rest ++ behind

/-- A word character on one side only. -/
def atBoundary (t : Tables) (cur : Cursor) : Bool :=
  cur.done.head?.any t.isWord != cur.rest.head?.any t.isWord

/-- The positions from one on. -/
def allFrom (done : List Char) : List Char → List Cursor
  | [] => [⟨done, []⟩]
  | c :: rest => ⟨done, c :: rest⟩ :: allFrom (c :: done) rest

end Cursor

/-- The ends of a run of at least `low` and at most `high` accepted characters. -/
def runEnds (accept : Char → Bool) : ℕ → Option ℕ → List Char → List Char → List Cursor
  | low, _, done, [] => if low = 0 then [⟨done, []⟩] else []
  | low, high, done, c :: rest =>
    (if low = 0 then [⟨done, c :: rest⟩] else []) ++
      if high ≠ some 0 ∧ accept c = true then
        runEnds accept (low - 1) (high.map (· - 1)) (c :: done) rest
      else []

namespace Regex

/-- The positions at which a match from `cur` can end. -/
def ends (t : Tables) (ignoreCase : Bool) : Regex → Cursor → List Cursor
  | empty, cur => [cur]
  | boundary, cur => if cur.atBoundary t then [cur] else []
  | run p low high, cur => runEnds (p.accepts t ignoreCase) low high cur.done cur.rest
  | seq a b, cur => (ends t ignoreCase a cur).flatMap (ends t ignoreCase b)
  | alt a b, cur => ends t ignoreCase a cur ++ ends t ignoreCase b cur

/-- One character of the class. -/
def one (p : CharClass) : Regex := run p 1 (some 1)

/-- A string. -/
def lit (s : String) : Regex := s.toList.foldr (fun c r => seq (one (.chars [c])) r) empty

/-- The concatenation of a list. -/
def cat (rs : List Regex) : Regex := rs.foldr seq empty

/-- `(?:r|…)` of a list that is not empty. -/
def anyOf (r : Regex) (rs : List Regex) : Regex := rs.foldl alt r

/-- `(?:r)?` -/
def opt (r : Regex) : Regex := alt r empty

/-- A match may consume no character. -/
def nullable : Regex → Bool
  | empty => true
  | boundary => true
  | run _ low _ => low == 0
  | seq a b => a.nullable && b.nullable
  | alt a b => a.nullable || b.nullable

/-- A match may test for a word boundary behind its last character. -/
def trailing : Regex → Bool
  | empty => false
  | boundary => true
  | run _ _ _ => false
  | seq a b => b.trailing || a.trailing && b.nullable
  | alt a b => a.trailing || b.trailing

end Regex

/-- A compiled pattern. -/
structure Pattern where
  ignoreCase : Bool
  regex : Regex

/-- `re.search` finds a match. -/
def Pattern.search (t : Tables) (p : Pattern) (text : List Char) : Bool :=
  (Cursor.allFrom [] text).any fun cur => !(p.regex.ends t p.ignoreCase cur).isEmpty

/-- `re.fullmatch` finds a match. -/
def Pattern.fullmatch (t : Tables) (p : Pattern) (text : List Char) : Bool :=
  (p.regex.ends t p.ignoreCase ⟨[], text⟩).any fun cur => cur.rest.isEmpty

/-- The text is cut inside a word. -/
def splitsWord (t : Tables) (front behind : List Char) : Bool :=
  front.getLast?.any t.isWord && behind.head?.any t.isWord

/-! ## Positions -/

theorem Cursor.mem_allFrom {done rest : List Char} {cur : Cursor} :
    cur ∈ allFrom done rest ↔ ∃ mid, rest = mid ++ cur.rest ∧ cur.done = mid.reverse ++ done := by
  induction rest generalizing done with
  | nil =>
    rw [allFrom, List.mem_singleton]
    refine ⟨fun h => ⟨[], by rw [h]; rfl, by rw [h]; rfl⟩, fun ⟨mid, hrest, hdone⟩ => ?_⟩
    obtain ⟨rfl, hrest⟩ := List.append_eq_nil_iff.1 hrest.symm
    cases cur
    cases hrest
    cases hdone
    rfl
  | cons c rest ih =>
    rw [allFrom, List.mem_cons, ih]
    constructor
    · rintro (rfl | ⟨mid, rfl, hdone⟩)
      · exact ⟨[], rfl, rfl⟩
      · exact ⟨c :: mid, rfl, by rw [hdone, List.reverse_cons, List.append_assoc]; rfl⟩
    · rintro ⟨mid, hrest, hdone⟩
      cases mid with
      | nil =>
        left
        cases cur
        cases hrest
        cases hdone
        rfl
      | cons d mid =>
        obtain ⟨rfl, rfl⟩ := List.cons.inj hrest
        exact .inr ⟨mid, rfl, by rw [hdone, List.reverse_cons, List.append_assoc]; rfl⟩

/-- The positions of a text. -/
theorem Cursor.mem_allFrom_nil {text : List Char} {cur : Cursor} :
    cur ∈ allFrom [] text ↔ cur.text = text := by
  rw [mem_allFrom]
  constructor
  · rintro ⟨mid, rfl, hdone⟩
    rw [Cursor.text, hdone, List.append_nil, List.reverse_reverse]
  · rintro rfl
    exact ⟨cur.done.reverse, rfl, by rw [List.reverse_reverse, List.append_nil]⟩

theorem Pattern.search_iff {t : Tables} {p : Pattern} {text : List Char} :
    p.search t text = true ↔
      ∃ cur cur' : Cursor, cur.text = text ∧ cur' ∈ p.regex.ends t p.ignoreCase cur := by
  rw [Pattern.search, List.any_eq_true]
  constructor
  · rintro ⟨cur, hcur, hends⟩
    obtain ⟨cur', hcur'⟩ := List.isEmpty_eq_false_iff_exists_mem.1 (by simpa using hends)
    exact ⟨cur, cur', Cursor.mem_allFrom_nil.1 hcur, hcur'⟩
  · rintro ⟨cur, cur', hcur, hcur'⟩
    refine ⟨cur, Cursor.mem_allFrom_nil.2 hcur, ?_⟩
    rw [List.isEmpty_eq_false_iff_exists_mem.2 ⟨cur', hcur'⟩]
    rfl

theorem Cursor.text_shift (cur : Cursor) (before behind : List Char) :
    (cur.shift before behind).text = before ++ cur.text ++ behind := by
  simp [Cursor.text, Cursor.shift]

/-! ## What a match consumes -/

section

variable {t : Tables} {ignoreCase : Bool} {accept : Char → Bool} {cur cur' : Cursor}

/-- A run stays in its text, and consumes a character unless it may be empty. -/
theorem of_mem_runEnds {low : ℕ} {high : Option ℕ} {done rest : List Char}
    (h : cur' ∈ runEnds accept low high done rest) :
    cur'.text = done.reverse ++ rest ∧ cur'.rest.length ≤ rest.length ∧
      (low ≠ 0 → cur'.rest.length < rest.length) := by
  induction rest generalizing low high done with
  | nil =>
    rw [runEnds] at h
    split_ifs at h with hlow
    · obtain rfl := List.mem_singleton.1 h
      exact ⟨rfl, le_rfl, fun hne => (hne hlow).elim⟩
    · cases h
  | cons c rest ih =>
    rw [runEnds, List.mem_append] at h
    rcases h with h | h
    · split_ifs at h with hlow
      · obtain rfl := List.mem_singleton.1 h
        exact ⟨rfl, le_rfl, fun hne => (hne hlow).elim⟩
      · cases h
    · split_ifs at h with hgo
      · obtain ⟨htext, hlength, -⟩ := ih h
        rw [List.length_cons]
        refine ⟨?_, by omega, fun _ => by omega⟩
        rw [htext, List.reverse_cons, List.append_assoc]
        rfl
      · cases h

/-- A match stays in its text, and consumes a character unless it may be empty. -/
theorem Regex.of_mem_ends {r : Regex} (h : cur' ∈ r.ends t ignoreCase cur) :
    cur'.text = cur.text ∧ cur'.rest.length ≤ cur.rest.length ∧
      (r.nullable = false → cur'.rest.length < cur.rest.length) := by
  induction r generalizing cur cur' with
  | empty =>
    obtain rfl := List.mem_singleton.1 h
    exact ⟨rfl, le_rfl, nofun⟩
  | boundary =>
    rw [ends] at h
    split_ifs at h
    · obtain rfl := List.mem_singleton.1 h
      exact ⟨rfl, le_rfl, nofun⟩
    · cases h
  | run p low high =>
    obtain ⟨htext, hlength, hlow⟩ := of_mem_runEnds h
    exact ⟨htext, hlength, fun hn => hlow (by simpa [nullable] using hn)⟩
  | seq a b iha ihb =>
    obtain ⟨mid, hmid, h⟩ := List.mem_flatMap.1 h
    obtain ⟨htext, hlength, hlt⟩ := iha hmid
    obtain ⟨htext', hlength', hlt'⟩ := ihb h
    refine ⟨htext'.trans htext, hlength'.trans hlength, fun hn => ?_⟩
    rcases Bool.and_eq_false_iff.1 hn with hn | hn
    · exact hlength'.trans_lt (hlt hn)
    · exact (hlt' hn).trans_le hlength
  | alt a b iha ihb =>
    rcases List.mem_append.1 h with h | h
    · obtain ⟨htext, hlength, hlt⟩ := iha h
      exact ⟨htext, hlength, fun hn => hlt (Bool.or_eq_false_iff.1 hn).1⟩
    · obtain ⟨htext, hlength, hlt⟩ := ihb h
      exact ⟨htext, hlength, fun hn => hlt (Bool.or_eq_false_iff.1 hn).2⟩

/-- The empty text is matched only by a pattern that may consume no character. -/
theorem Pattern.fullmatch_nil {p : Pattern} (h : p.regex.nullable = false) :
    p.fullmatch t [] = false := by
  refine Bool.eq_false_iff.2 fun hmatch => ?_
  obtain ⟨cur, hcur, -⟩ := List.any_eq_true.1 hmatch
  exact Nat.not_lt_zero _ ((Regex.of_mem_ends hcur).2.2 h)

/-! ## A match in a longer text -/

theorem mem_runEnds_shift {low : ℕ} {high : Option ℕ} {done rest : List Char}
    (h : cur' ∈ runEnds accept low high done rest) (before behind : List Char) :
    cur'.shift before behind ∈
      runEnds accept low high (done ++ before.reverse) (rest ++ behind) := by
  induction rest generalizing low high done with
  | nil =>
    rw [runEnds] at h
    split_ifs at h with hlow
    · obtain rfl := List.mem_singleton.1 h
      -- no character is consumed, whatever stands behind
      cases behind with
      | nil => rw [List.append_nil, runEnds, if_pos hlow]; exact List.mem_singleton.2 rfl
      | cons c behind =>
        rw [List.nil_append, runEnds, if_pos hlow]
        exact List.mem_append_left _ (List.mem_singleton.2 rfl)
    · cases h
  | cons c rest ih =>
    rw [List.cons_append, runEnds, List.mem_append]
    rw [runEnds, List.mem_append] at h
    rcases h with h | h
    · left
      split_ifs at h ⊢ with hlow
      · obtain rfl := List.mem_singleton.1 h
        exact List.mem_singleton.2 rfl
      · cases h
    · right
      split_ifs at h ⊢ with hgo
      · exact ih h
      · cases h

/-- A boundary stays a boundary, unless it is the cut of a word. -/
theorem atBoundary_shift {before behind : List Char} (h : cur.atBoundary t = true)
    (hbefore : before.getLast?.any t.isWord = false)
    (hbehind : cur.rest ≠ [] ∨ splitsWord t cur.text behind = false) :
    (cur.shift before behind).atBoundary t = true := by
  have hdone : (cur.done ++ before.reverse).head?.any t.isWord = cur.done.head?.any t.isWord := by
    cases hc : cur.done with
    | nil => rw [List.nil_append, List.head?_reverse, hbefore]; rfl
    | cons c done => rfl
  unfold Cursor.atBoundary Cursor.shift at *
  rw [hdone]
  cases hc : cur.rest with
  | cons c rest => rw [hc] at h; exact h
  | nil =>
    have hsplit := hbehind.resolve_left fun hne => hne hc
    rw [hc] at h
    rw [splitsWord, Cursor.text, hc, List.append_nil, List.getLast?_reverse] at hsplit
    -- the last character is a word character, so the next one is none
    have hlast : cur.done.head?.any t.isWord = true := by simpa using h
    rw [hlast, Bool.true_and] at hsplit
    rw [List.nil_append, hlast, hsplit]
    rfl

/-- A match stays a match, unless it tests for a boundary at the cut of a word. -/
theorem Regex.mem_ends_shift {r : Regex} {before behind : List Char}
    (h : cur' ∈ r.ends t ignoreCase cur) (hbefore : before.getLast?.any t.isWord = false)
    (hbehind : r.trailing = false ∨ cur'.rest ≠ [] ∨ splitsWord t cur.text behind = false) :
    cur'.shift before behind ∈ r.ends t ignoreCase (cur.shift before behind) := by
  induction r generalizing cur cur' with
  | empty =>
    obtain rfl := List.mem_singleton.1 h
    exact List.mem_singleton.2 rfl
  | boundary =>
    rw [ends] at h ⊢
    split_ifs at h with hcur
    · obtain rfl := List.mem_singleton.1 h
      rw [if_pos (atBoundary_shift hcur hbefore (hbehind.resolve_left Bool.true_eq_false.mp))]
      exact List.mem_singleton.2 rfl
    · cases h
  | run p low high => exact mem_runEnds_shift h before behind
  | seq a b iha ihb =>
    obtain ⟨mid, hmid, h⟩ := List.mem_flatMap.1 h
    obtain ⟨-, hlength, hlt⟩ := of_mem_ends h
    have hmidtext : mid.text = cur.text := (of_mem_ends hmid).1
    refine List.mem_flatMap.2 ⟨_, iha hmid ?_, ihb h ?_⟩
    · -- behind `a` stands what `b` consumes, or the rest
      rcases hbehind with htrailing | hrest | hsplit
      · obtain ⟨-, hab⟩ := Bool.or_eq_false_iff.1 htrailing
        rcases Bool.and_eq_false_iff.1 hab with ha | hb
        · exact .inl ha
        · exact .inr (.inl (List.ne_nil_of_length_pos (by have := hlt hb; omega)))
      · have := List.length_pos_of_ne_nil hrest
        exact .inr (.inl (List.ne_nil_of_length_pos (by omega)))
      · exact .inr (.inr hsplit)
    · rw [hmidtext]
      exact hbehind.imp_left fun htrailing => (Bool.or_eq_false_iff.1 htrailing).1
  | alt a b iha ihb =>
    rcases List.mem_append.1 h with h | h
    · exact List.mem_append_left _
        (iha h (hbehind.imp_left fun htrailing => (Bool.or_eq_false_iff.1 htrailing).1))
    · exact List.mem_append_right _
        (ihb h (hbehind.imp_left fun htrailing => (Bool.or_eq_false_iff.1 htrailing).2))

/-- **A match stays a match in a longer text**, unless the text is cut inside a word and the pattern
tests for a boundary there. -/
theorem Pattern.search_shift {p : Pattern} {before text behind : List Char}
    (h : p.search t text = true) (hbefore : before.getLast?.any t.isWord = false)
    (hbehind : p.regex.trailing = false ∨ splitsWord t text behind = false) :
    p.search t (before ++ text ++ behind) = true := by
  obtain ⟨cur, cur', rfl, hcur⟩ := search_iff.1 h
  exact search_iff.2 ⟨_, _, Cursor.text_shift cur before behind,
    Regex.mem_ends_shift hcur hbefore (hbehind.imp_right .inr)⟩

end

/-! ## ASCII -/

theorem isWord_ascii_of_isSpace (c : Char) (h : isSpace c = true) :
    (c.isAlphanum || c == '_') = false := by
  have hn : c.toNat = c.val.toNat := rfl
  simp only [isSpace, Bool.or_eq_true, Bool.and_eq_true, decide_eq_true_eq, beq_iff_eq] at h
  unfold Char.isAlphanum Char.isAlpha Char.isUpper Char.isLower Char.isDigit
  simp only [UInt32.le_iff_toNat_le, Bool.or_eq_false_iff, Bool.and_eq_false_iff,
    decide_eq_false_iff_not, beq_eq_false_iff_ne, ne_eq, Char.ext_iff, ← UInt32.toNat_inj, ← hn]
  simp only [UInt32.reduceToNat, Char.reduceVal]
  omega

/-- The Unicode data of the ASCII characters. -/
def ascii : Tables where
  isWord c := c.isAlphanum || c == '_'
  isDecimal c := c.isDigit
  same a b := a.toLower == b.toLower
  casefold c := [c.toLower]
  isWord_of_isSpace := isWord_ascii_of_isSpace

end Python

end TrackFlow
