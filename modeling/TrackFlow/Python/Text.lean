import Mathlib.Data.List.DropRight

/-!
# Text as Python's `str` methods see it

A text is a list of code points.

* `Python.isSpace` : `str.isspace` of one character.
* `Python.strip` : `str.strip`; `Python.blank` : nothing is left of the text after `strip`.
* `Python.exists_eq_strip` : a text is its stripped text between white space.
-/

namespace TrackFlow

namespace Python

/-- The code points of `str.isspace`: bidirectional type `WS`, `B` or `S`, or category `Zs`. -/
def isSpace (c : Char) : Bool :=
  let n := c.toNat
  (9 ≤ n && n ≤ 13) || (28 ≤ n && n ≤ 32) || n == 133 || n == 160 || n == 5760 ||
    (8192 ≤ n && n ≤ 8202) || n == 8232 || n == 8233 || n == 8239 || n == 8287 || n == 12288

/-- `str.strip`. -/
def strip (text : List Char) : List Char := (text.dropWhile isSpace).rdropWhile isSpace

/-- `str.strip` leaves nothing. -/
def blank (text : List Char) : Bool := text.all isSpace

/-- A text is its stripped text between white space. -/
theorem exists_eq_strip (text : List Char) :
    ∃ before behind, text = before ++ strip text ++ behind ∧
      (∀ c ∈ before, isSpace c = true) ∧ ∀ c ∈ behind, isSpace c = true := by
  refine ⟨text.takeWhile isSpace, (text.dropWhile isSpace).rtakeWhile isSpace, ?_, ?_, ?_⟩
  · rw [strip, List.append_assoc, List.rdropWhile_append_rtakeWhile,
      List.takeWhile_append_dropWhile]
  · exact fun c hc => List.mem_takeWhile_imp hc
  · exact fun c hc => List.mem_rtakeWhile_imp hc

theorem blank_append {front behind : List Char} :
    blank (front ++ behind) = (blank front && blank behind) := List.all_append

end Python

end TrackFlow
