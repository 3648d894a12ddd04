import TrackFlow.Python.Text
import Mathlib.Data.List.TakeWhile

/-!
# Lines and paragraphs

`str.splitlines`, and the split of a text at its blank lines, `re.split(r"\n\s*\n", text)`.

* `paragraphs` : the split.
* `paragraphs_spec` : the pieces are those between the blank lines, and have none themselves.
* `paragraphs_tight` : **the pieces of a stripped text are not blank, and begin and end with no
  newline.**
-/

namespace TrackFlow

namespace Python

/-- `str.lstrip`. -/
def lstrip (text : List Char) : List Char := text.dropWhile isSpace

/-- `str.rstrip`. -/
def rstrip (text : List Char) : List Char := text.rdropWhile isSpace

/-- `str.strip("\n")`. -/
def stripNewlines (text : List Char) : List Char :=
  (text.dropWhile fun c => decide (c = '\n')).rdropWhile fun c => decide (c = '\n')

/-- The line boundaries of `str.splitlines`. -/
def isLineBreak (c : Char) : Bool :=
  let n := c.toNat
  (10 ≤ n && n ≤ 13) || (28 ≤ n && n ≤ 30) || n == 133 || n == 8232 || n == 8233

/-- One more character for the first line. -/
def consFirst (c : Char) : List (List Char) → List (List Char)
  | [] => [[c]]
  | line :: lines => (c :: line) :: lines

/-- `str.splitlines`. -/
def splitlines : List Char → List (List Char)
  | [] => []
  | '\r' :: '\n' :: cs => [] :: splitlines cs
  | c :: cs => if isLineBreak c then [] :: splitlines cs else consFirst c (splitlines cs)

/-- `str.replace("\r\n", "\n")`. -/
def replaceCrLf : List Char → List Char
  | '\r' :: '\n' :: cs => '\n' :: replaceCrLf cs
  | c :: cs => c :: replaceCrLf cs
  | [] => []

/-- `splitlines()[0]` of a text that is not empty. -/
def firstLine (text : List Char) : List Char := text.takeWhile fun c => !isLineBreak c

/-! ## Paragraphs -/

/-- How much of a text `\s*\n` matches at its beginning: white space up to its last newline. -/
def breakLength (text : List Char) : ℕ :=
  ((text.takeWhile isSpace).rdropWhile fun c => decide (c ≠ '\n')).length

/-- `re.split(r"\n\s*\n", text)`, behind `skip` characters. -/
def splitBlank : ℕ → List Char → List (List Char)
  | _, [] => [[]]
  | skip + 1, _ :: cs => splitBlank skip cs
  | 0, c :: cs =>
    if c = '\n' ∧ 0 < breakLength cs then [] :: splitBlank (breakLength cs) cs
    else consFirst c (splitBlank 0 cs)

/-- `re.split(r"\n\s*\n", text)`. -/
def paragraphs (text : List Char) : List (List Char) := splitBlank 0 text

/-- A text contains a blank line: two newlines with nothing but white space between them. -/
def HasBlankLine (text : List Char) : Prop :=
  ∃ front space behind, text = front ++ '\n' :: (space ++ '\n' :: behind) ∧
    ∀ c ∈ space, isSpace c = true

/-- A text, and its pieces between blank lines: every blank line begins as early as possible, and
takes all newlines up to the next line that is not blank. -/
inductive BlankLineSplit : List Char → List (List Char) → Prop
  | last {text : List Char} (h : ¬HasBlankLine text) : BlankLineSplit text [text]
  | cons {piece space rest : List Char} {pieces : List (List Char)}
      (h : ¬HasBlankLine (piece ++ ['\n'])) (hspace : ∀ c ∈ space, isSpace c = true)
      (hlong : '\n' ∉ rest.takeWhile isSpace) (hrest : BlankLineSplit rest pieces) :
      BlankLineSplit (piece ++ '\n' :: (space ++ '\n' :: rest)) (piece :: pieces)

variable {c : Char} {cs text : List Char} {pieces : List (List Char)}

theorem isSpace_newline : isSpace '\n' = true := by decide

/-- White space and a newline at the beginning of a text. -/
theorem breakLength_pos {space rest : List Char} (h : ∀ c ∈ space, isSpace c = true) :
    0 < breakLength (space ++ '\n' :: rest) := by
  have htake : (space ++ '\n' :: rest).takeWhile isSpace =
      space ++ '\n' :: rest.takeWhile isSpace := by
    rw [List.takeWhile_append_of_pos h, List.takeWhile_cons_of_pos isSpace_newline]
  unfold breakLength
  rw [htake, List.length_pos_iff, Ne, List.rdropWhile_eq_nil_iff]
  intro hall
  exact absurd rfl (of_decide_eq_true (hall '\n' (by simp)))

/-- The characters of the match. -/
theorem take_breakLength : cs.take (breakLength cs) =
    (cs.takeWhile isSpace).rdropWhile fun c => decide (c ≠ '\n') :=
  (List.prefix_iff_eq_take.1
    ((List.rdropWhile_prefix _ _).trans (List.takeWhile_prefix _))).symm

theorem takeWhile_dropWhile (p : Char → Bool) (cs : List Char) :
    (cs.dropWhile p).takeWhile p = [] := by
  induction cs with
  | nil => rfl
  | cons c cs ih =>
    by_cases hc : p c = true
    · rw [List.dropWhile_cons_of_pos hc, ih]
    · rw [List.dropWhile_cons_of_neg hc, List.takeWhile_cons_of_neg hc]

/-- White space at the beginning of a text is what `\s*\n` matches, and behind it some with no
newline. -/
theorem exists_eq_break_append (cs : List Char) : ∃ tail,
    cs = cs.take (breakLength cs) ++ (tail ++ cs.dropWhile isSpace) ∧
      (∀ c ∈ tail, isSpace c = true) ∧ '\n' ∉ tail := by
  set front := cs.takeWhile isSpace with hfront
  refine ⟨front.rtakeWhile fun c => decide (c ≠ '\n'), ?_, ?_, ?_⟩
  · rw [take_breakLength, ← List.append_assoc, List.rdropWhile_append_rtakeWhile,
      List.takeWhile_append_dropWhile]
  · exact fun c hc => List.mem_takeWhile_imp ((List.rtakeWhile_suffix _ _).subset hc)
  · intro hmem
    have hother := List.mem_rtakeWhile_imp hmem
    exact of_decide_eq_true hother rfl

/-- What `\s*\n` matches ends with its newline, and no other newline is left before the next
character that is not white space. -/
theorem exists_break (h : 0 < breakLength cs) : ∃ space,
    cs = space ++ '\n' :: cs.drop (breakLength cs) ∧ (∀ c ∈ space, isSpace c = true) ∧
      '\n' ∉ (cs.drop (breakLength cs)).takeWhile isSpace := by
  set found := (cs.takeWhile isSpace).rdropWhile fun c => decide (c ≠ '\n') with hfound
  have hne : found ≠ [] := List.length_pos_iff.1 h
  have hlast : found.getLast hne = '\n' := by
    have hnot := List.rdropWhile_last_not (fun c => decide (c ≠ '\n')) _ hne
    exact Decidable.of_not_not fun hother => hnot (decide_eq_true hother)
  obtain ⟨tail, heq, htail, hno⟩ := exists_eq_break_append cs
  have htake : cs.take (breakLength cs) = found.dropLast ++ ['\n'] := by
    rw [take_breakLength, ← hfound]
    conv_lhs => rw [← List.dropLast_concat_getLast hne, hlast]
  have hdrop : cs.drop (breakLength cs) = tail ++ cs.dropWhile isSpace :=
    List.append_cancel_left ((List.take_append_drop _ cs).trans heq)
  refine ⟨found.dropLast, ?_, fun c hc => ?_, ?_⟩
  · conv_lhs => rw [← List.take_append_drop (breakLength cs) cs, htake]
    rw [List.append_assoc, List.singleton_append]
  · exact List.mem_takeWhile_imp
      ((List.rdropWhile_prefix _ _).subset (List.dropLast_subset _ hc))
  · rwa [hdrop, List.takeWhile_append_of_pos htail, takeWhile_dropWhile, List.append_nil]

/-! ## The split is the one at the blank lines -/

theorem not_hasBlankLine_nil : ¬HasBlankLine [] := by
  rintro ⟨front, space, behind, heq, -⟩
  exact absurd heq (by simp)

/-- A character before a text with no blank line begins none, when it does not end a line that is
followed by a blank line. -/
theorem not_hasBlankLine_cons (rest : List Char) (h : ¬HasBlankLine text)
    (hc : c = '\n' → breakLength (text ++ rest) = 0) : ¬HasBlankLine (c :: text) := by
  rintro ⟨front, space, behind, heq, hspace⟩
  cases front with
  | nil =>
    obtain ⟨rfl, rfl⟩ := List.cons.inj heq
    have hpos : 0 < breakLength (space ++ '\n' :: (behind ++ rest)) := breakLength_pos hspace
    rw [List.append_assoc, List.cons_append] at hc
    exact absurd (hc rfl) (Nat.ne_of_gt hpos)
  | cons d front =>
    obtain ⟨rfl, rfl⟩ := List.cons.inj heq
    exact h ⟨front, space, behind, rfl, hspace⟩

/-- One more character for the first piece. -/
theorem BlankLineSplit.consFirst (h : BlankLineSplit cs pieces)
    (hc : c = '\n' → breakLength cs = 0) : BlankLineSplit (c :: cs) (consFirst c pieces) := by
  cases h with
  | last h =>
    refine .last (not_hasBlankLine_cons [] h ?_)
    rwa [List.append_nil]
  | @cons piece space rest _ h hspace hlong hrest =>
    have hpiece : ¬HasBlankLine ((c :: piece) ++ ['\n']) := by
      refine not_hasBlankLine_cons (space ++ '\n' :: rest) h ?_
      show c = '\n' → breakLength ((piece ++ ['\n']) ++ (space ++ '\n' :: rest)) = 0
      rwa [List.append_assoc, List.singleton_append]
    exact .cons hpiece hspace hlong hrest

/-- **`re.split(r"\n\s*\n", …)` behind `skip` characters.** -/
theorem splitBlank_spec (skip : ℕ) (cs : List Char) :
    BlankLineSplit (cs.drop skip) (splitBlank skip cs) := by
  induction cs generalizing skip with
  | nil =>
    rw [List.drop_nil]
    unfold splitBlank
    exact .last not_hasBlankLine_nil
  | cons c cs ih =>
    cases skip with
    | succ skip => exact ih skip
    | zero =>
      rw [splitBlank, List.drop_zero]
      split_ifs with hbreak
      · obtain ⟨rfl, hpos⟩ := hbreak
        obtain ⟨space, heq, hspace, hlong⟩ := exists_break hpos
        conv_lhs => rw [heq]
        have hpiece : ¬HasBlankLine ([] ++ ['\n']) :=
          not_hasBlankLine_cons [] not_hasBlankLine_nil fun _ => rfl
        exact .cons hpiece hspace hlong (ih _)
      · exact (ih 0).consFirst fun hc => Nat.eq_zero_of_not_pos fun hpos => hbreak ⟨hc, hpos⟩

/-- **The pieces of a text are those between its blank lines.** -/
theorem paragraphs_spec (text : List Char) : BlankLineSplit text (paragraphs text) :=
  splitBlank_spec 0 text

/-! ## The pieces of a stripped text -/

/-- A text that is more than newlines at both ends: not blank, and neither its first line nor its
last one is empty. -/
structure Tight (text : List Char) : Prop where
  not_blank : blank text = false
  head : ∀ rest, text ≠ '\n' :: rest
  last : ∀ front, text ≠ front ++ ['\n']

theorem Tight.stripNewlines_eq (h : Tight text) : stripNewlines text = text := by
  have hhead : text.dropWhile (fun c => decide (c = '\n')) = text := by
    cases text with
    | nil => rfl
    | cons c cs =>
      have hc : ¬decide (c = '\n') = true := by
        rw [decide_eq_true_iff]
        rintro rfl
        exact h.head cs rfl
      exact List.dropWhile_cons_of_neg hc
  rw [stripNewlines, hhead, List.rdropWhile_eq_self_iff]
  intro hne hlast
  refine h.last text.dropLast ?_
  rw [← of_decide_eq_true hlast, List.dropLast_concat_getLast]

/-- A text is not blank, when it does not begin with white space up to a newline. -/
theorem not_blank_of_notMem {behind : List Char}
    (h : '\n' ∉ (text ++ '\n' :: behind).takeWhile isSpace) : blank text = false := by
  rw [Bool.eq_false_iff]
  intro hblank
  rw [List.takeWhile_append_of_pos (List.all_eq_true.1 hblank),
    List.takeWhile_cons_of_pos isSpace_newline] at h
  exact h (by simp)

/-- **The pieces of a text that begins with a line that is not blank, and ends with a character
that is not white space.** -/
theorem BlankLineSplit.tight (h : BlankLineSplit text pieces)
    (hhead : '\n' ∉ text.takeWhile isSpace)
    (hlast : ∃ c, text.getLast? = some c ∧ isSpace c = false) :
    ∀ piece ∈ pieces, Tight piece := by
  induction h with
  | @last text h =>
    intro piece hpiece
    obtain rfl := List.mem_singleton.1 hpiece
    obtain ⟨c, hlast, hc⟩ := hlast
    refine ⟨?_, fun rest heq => ?_, fun front heq => ?_⟩
    · rw [Bool.eq_false_iff]
      intro hblank
      exact absurd (List.all_eq_true.1 hblank c (List.mem_of_getLast? hlast)) (by simp [hc])
    · rw [heq, List.takeWhile_cons_of_pos isSpace_newline] at hhead
      exact hhead List.mem_cons_self
    · rw [heq, List.getLast?_concat] at hlast
      obtain rfl := Option.some.inj hlast
      exact absurd hc (by decide)
  | @cons piece space rest pieces h hspace hlong hrest ih =>
    refine List.forall_mem_cons.2 ⟨⟨not_blank_of_notMem hhead, ?_, ?_⟩, ih hlong ?_⟩
    · rintro rest' rfl
      rw [List.cons_append, List.takeWhile_cons_of_pos isSpace_newline] at hhead
      exact hhead List.mem_cons_self
    · rintro front rfl
      exact h ⟨front, [], [], by simp, by simp⟩
    · obtain ⟨c, hlast, hc⟩ := hlast
      rcases List.eq_nil_or_concat rest with rfl | ⟨front, d, rfl⟩
      · simp only [List.getLast?_append, List.getLast?_cons, List.getLast?_nil, Option.getD_none,
          Option.getD_some, Option.some_or, Option.some.injEq] at hlast
        obtain rfl := hlast
        exact absurd hc (by decide)
      · refine ⟨c, ?_, hc⟩
        simpa [List.getLast?_append, List.getLast?_cons] using hlast

theorem BlankLineSplit.ne_nil (h : BlankLineSplit text pieces) : pieces ≠ [] := by
  cases h <;> exact List.cons_ne_nil _ _

theorem blank_strip (text : List Char) : blank (strip text) = blank text := by
  obtain ⟨before, behind, heq, hbefore, hbehind⟩ := exists_eq_strip text
  have hboth : blank before = true ∧ blank behind = true :=
    ⟨List.all_eq_true.2 hbefore, List.all_eq_true.2 hbehind⟩
  conv_rhs => rw [heq, blank_append, blank_append, hboth.1, hboth.2]
  rw [Bool.true_and, Bool.and_true]

theorem strip_ne_nil (h : blank text = false) : strip text ≠ [] := by
  rintro hnil
  rw [← blank_strip, hnil] at h
  exact absurd h (by decide)

/-- No white space is left at the beginning of a stripped text. -/
theorem takeWhile_strip (text : List Char) : (strip text).takeWhile isSpace = [] := by
  obtain ⟨tail, htail⟩ : strip text <+: text.dropWhile isSpace := List.rdropWhile_prefix _ _
  have hnone := takeWhile_dropWhile isSpace text
  rw [← htail] at hnone
  cases hstrip : strip text with
  | nil => rfl
  | cons c rest =>
    rw [hstrip, List.cons_append, List.takeWhile_cons] at hnone
    rw [List.takeWhile_cons]
    split_ifs at hnone ⊢
    rfl

/-- None is left at its end. -/
theorem getLast?_strip (h : blank text = false) :
    ∃ c, (strip text).getLast? = some c ∧ isSpace c = false :=
  ⟨(strip text).getLast (strip_ne_nil h), List.getLast?_eq_some_getLast _,
    Bool.eq_false_iff.2 (List.rdropWhile_last_not isSpace _ (strip_ne_nil h))⟩

/-- **The pieces of a stripped text that is not blank.** -/
theorem paragraphs_tight (h : blank text = false) :
    ∀ piece ∈ paragraphs (strip text), Tight piece :=
  (paragraphs_spec _).tight (by rw [takeWhile_strip]; exact List.not_mem_nil) (getLast?_strip h)

end Python

end TrackFlow
