import TrackFlow.Web.SearchParams

/-!
# Paths that are written segment by segment

A path that is put together from segments, and what the URL parser makes of it.  A component that
`encodeURIComponent` has written is a literal segment, unless it is a dot segment.

* `Literal` : a segment that the parser keeps as it is; a dot segment is no such segment.
* `parsePath` : the path of a URL, from the slash behind the authority.
* `parsePath_serializePath` : **what is left is what dot segments leave**, and `parsePath_eq_iff` :
  all of it exactly if there is no dot segment.
* `encodeURIComponent_inj` : different texts have different components.
-/

namespace TrackFlow

namespace Web

/-- The parser takes the character into a segment as it is. -/
def isSegmentChar (c : Char) : Bool :=
  !isSlash c && !isQueryOrFragment c && !pathSet c && !isControlOrSpace c

/-- The segment is neither `.` nor `..`, however they are written. -/
def Plain (segment : List Char) : Prop := dots segment ≠ some 1 ∧ dots segment ≠ some 2

instance (segment : List Char) : Decidable (Plain segment) := inferInstanceAs (Decidable (_ ∧ _))

/-- The parser keeps the segment. -/
structure Literal (segment : List Char) : Prop where
  chars : ∀ c ∈ segment, isSegmentChar c = true
  plain : Plain segment

/-- The path of a URL whose authority is followed by a text that begins with a slash. -/
def parsePath (text : List Char) : List (List Char) := pathState (clean text).tail [] []

section

variable {segment text : List Char} {rest path : List (List Char)} {c : Char}

theorem isSegmentChar_iff : isSegmentChar c = true ↔
    isSlash c = false ∧ isQueryOrFragment c = false ∧ pathSet c = false ∧
      isControlOrSpace c = false := by
  simp [isSegmentChar, and_assoc]

/-- Segments behind a segment. -/
theorem segments_append (h : ∀ c ∈ segment, isSegmentChar c = true) (text : List Char) :
    segments (segment ++ text) = (segments text).modifyHead (segment ++ ·) := by
  induction segment with
  | nil => exact (modifyHead_nil_append _).symm
  | cons c segment ih =>
    obtain ⟨hslash, hend, -, -⟩ := isSegmentChar_iff.1 (h c List.mem_cons_self)
    rw [List.cons_append, segments_cons_other hslash hend,
      ih fun d hd => h d (List.mem_cons_of_mem c hd), List.modifyHead_modifyHead]
    rfl

/-- Segments that were put together are taken apart. -/
theorem segments_serializePath (h : ∀ s ∈ segment :: rest, ∀ c ∈ s, isSegmentChar c = true) :
    segments (segment ++ serializePath rest) = segment :: rest := by
  induction rest generalizing segment with
  | nil =>
    rw [segments_append (h segment List.mem_cons_self)]
    simp [serializePath, segments]
  | cons next rest ih =>
    have hnext : segments (next ++ serializePath rest) = next :: rest :=
      ih fun s hs => h s (List.mem_cons_of_mem segment hs)
    have hslash : isSlash '/' = true := rfl
    rw [segments_append (h segment List.mem_cons_self),
      show serializePath (next :: rest) = '/' :: (next ++ serializePath rest) from rfl,
      segments_cons_slash hslash, hnext, List.modifyHead_cons, List.append_nil]

/-- **What is left of a path is what dot segments leave.** -/
theorem parsePath_serializePath (hne : rest ≠ [])
    (h : ∀ s ∈ rest, ∀ c ∈ s, isSegmentChar c = true) :
    parsePath (serializePath rest) = resolveDots [] rest := by
  obtain ⟨segment, rest, rfl⟩ := List.exists_cons_of_ne_nil hne
  have hclean : clean (serializePath (segment :: rest)) = serializePath (segment :: rest) := by
    refine clean_eq_self fun c hc => ?_
    obtain ⟨s, hs, hc⟩ := List.mem_flatMap.1 hc
    rcases List.mem_cons.1 hc with rfl | hc
    · rfl
    · exact (isSegmentChar_iff.1 (h s hs c hc)).2.2.2
  have hkeep : ∀ s ∈ resolveDots [] (segment :: rest), percentEncode pathSet s = s := by
    intro s hs
    rcases mem_resolveDots hs with hs | hs | rfl
    · cases hs
    · exact percentEncode_eq_self fun c hc => (isSegmentChar_iff.1 (h s hs c hc)).2.2.1
    · rfl
  rw [parsePath, hclean, pathState_eq,
    show (serializePath (segment :: rest)).tail = segment ++ serializePath rest from rfl,
    segments_serializePath h]
  exact (List.map_congr_left hkeep).trans (List.map_id _)

theorem plain_nil : Plain [] := ⟨by decide, by decide⟩

theorem plain_endSegment {slash : Bool} (hpath : ∀ s ∈ path, Plain s) :
    ∀ s ∈ endSegment path segment slash, Plain s := by
  intro s hs
  unfold endSegment at hs
  split_ifs at hs with htwo hslash hone hslash'
  · exact hpath s (List.mem_of_mem_dropLast hs)
  · rcases List.mem_append.1 hs with hs | hs
    · exact hpath s (List.mem_of_mem_dropLast hs)
    · rw [List.mem_singleton.1 hs]
      exact plain_nil
  · exact hpath s hs
  · rcases List.mem_append.1 hs with hs | hs
    · exact hpath s hs
    · rw [List.mem_singleton.1 hs]
      exact plain_nil
  · rcases List.mem_append.1 hs with hs | hs
    · exact hpath s hs
    · rw [List.mem_singleton.1 hs]
      exact ⟨hone, htwo⟩

/-- No dot segment is left. -/
theorem plain_resolveDots (hpath : ∀ s ∈ path, Plain s) : ∀ s ∈ resolveDots path rest, Plain s := by
  induction rest generalizing path with
  | nil => exact hpath
  | cons segment rest ih =>
    cases rest with
    | nil => exact plain_endSegment hpath
    | cons next rest =>
      rw [resolveDots_cons (List.cons_ne_nil _ _)]
      exact ih (plain_endSegment hpath)

/-- All of a path is left exactly if it has no dot segment. -/
theorem parsePath_eq_iff (hne : rest ≠ []) (h : ∀ s ∈ rest, ∀ c ∈ s, isSegmentChar c = true) :
    parsePath (serializePath rest) = rest ↔ ∀ s ∈ rest, Plain s := by
  rw [parsePath_serializePath hne h]
  constructor
  · intro heq s hs
    rw [← heq] at hs
    have hnil : ∀ s ∈ ([] : List (List Char)), Plain s := by simp
    exact plain_resolveDots hnil s hs
  · intro hplain
    rw [resolveDots_eq hplain, List.nil_append]

theorem parsePath_of_literal (hne : rest ≠ []) (h : ∀ s ∈ rest, Literal s) :
    parsePath (serializePath rest) = rest :=
  (parsePath_eq_iff hne fun s hs => (h s hs).chars).2 fun s hs => (h s hs).plain

/-! ## Components -/

/-- What `encodeURIComponent` writes goes into a segment. -/
theorem isSegmentChar_of_unreserved (h : componentSet c = false) : isSegmentChar c = true := by
  have hvisible := visible_of_componentSet h
  have hlow : c.toNat ≤ 0x7E := by
    unfold componentSet isUnreserved Char.isAlphanum Char.isAlpha Char.isUpper Char.isLower
      Char.isDigit at h
    simp only [Bool.not_eq_false', Bool.or_eq_true, Bool.and_eq_true, decide_eq_true_eq,
      UInt32.le_iff_toNat_le, ge_iff_le, List.contains_iff_mem] at h
    rcases h with ((h | h) | h) | h
    · exact h.2.trans (by decide)
    · exact h.2.trans (by decide)
    · exact h.2.trans (by decide)
    · have hall : ∀ c ∈ ['-', '_', '.', '!', '~', '*', '\x27', '(', ')'], c.toNat ≤ 0x7E :=
        List.all_iff_forall_prop.1 (by decide)
      exact hall c h
  have hne : ∀ d ∈ ['/', '\\', '?', '#', '"', '<', '>', '^', '\x60', '\x7b', '\x7d'], c ≠ d := by
    have hall : ∀ d ∈ ['/', '\\', '?', '#', '"', '<', '>', '^', '\x60', '\x7b', '\x7d'],
        componentSet d = true := List.all_iff_forall_prop.1 (by decide)
    rintro d hd rfl
    rw [hall c hd] at h
    cases h
  refine isSegmentChar_iff.2 ⟨?_, ?_, ?_, decide_eq_false (Nat.not_le.2 hvisible)⟩
  · simp [isSlash, hne]
  · simp [isQueryOrFragment, hne]
  · simp [pathSet, hne, Nat.not_le.2 hvisible, Nat.not_lt.2 hlow]

theorem isSegmentChar_encodeURIComponent (text : List Char) :
    ∀ c ∈ encodeURIComponent text, isSegmentChar c = true := by
  intro c hc
  rcases mem_percentEncode hc with hdigit | ⟨-, hset⟩
  · have hall : ∀ c ∈ '%' :: "0123456789ABCDEF".toList, isSegmentChar c = true :=
      List.all_iff_forall_prop.1 (by decide)
    exact hall c hdigit
  · exact isSegmentChar_of_unreserved hset

/-- A component consists of as many dots as its text, none of which is written as an escape. -/
theorem dots_encodeURIComponent (text : List Char) (n : ℕ) :
    dots (encodeURIComponent text) = some n ↔ text = List.replicate n '.' := by
  induction text generalizing n with
  | nil => cases n <;> simp [encodeURIComponent, percentEncode, dots, List.replicate_succ]
  | cons c text ih =>
    rw [encodeURIComponent, percentEncode_cons]
    cases hset : componentSet c with
    | true =>
      have hdot : c ≠ '.' := by
        rintro rfl
        exact absurd hset (by decide)
      rw [dots_encodeChar hset hdot]
      refine iff_of_false (by simp) fun heq => hdot ?_
      cases n with
      | zero => cases heq
      | succ n => exact (List.cons.inj heq).1
    | false =>
      rw [encodeChar_of_not hset, List.singleton_append]
      by_cases hdot : c = '.'
      · subst hdot
        rw [dots, Option.map_eq_some_iff]
        cases n with
        | zero => simp
        | succ n =>
          have hn := ih n
          rw [encodeURIComponent] at hn
          simp [hn, List.replicate_succ]
      · have hpercent : c ≠ '%' := by
          rintro rfl
          exact absurd hset (by decide)
        rw [dots_of_ne hdot hpercent]
        refine iff_of_false (by simp) fun heq => hdot ?_
        cases n with
        | zero => cases heq
        | succ n => exact (List.cons.inj heq).1

theorem plain_encodeURIComponent : Plain (encodeURIComponent text) ↔
    text ≠ ['.'] ∧ text ≠ ['.', '.'] := by
  rw [Plain, Ne, Ne, dots_encodeURIComponent, dots_encodeURIComponent]
  rfl

/-- Different texts have different components. -/
theorem encodeURIComponent_inj {text' : List Char} :
    encodeURIComponent text = encodeURIComponent text' ↔ text = text' := by
  refine ⟨fun h => ?_, congrArg _⟩
  have hdecode (text : List Char) : formDecode (encodeURIComponent text) = text :=
    formDecode_percentEncode (by decide) (by decide) text
  rw [← hdecode text, ← hdecode text', h]

end

end Web

end TrackFlow
