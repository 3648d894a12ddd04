import Mathlib.Algebra.GroupWithZero.Nat
import TrackFlow.Python.Text

/-!
# Code points

A Python `str` is a list of code points; unlike a text of Unicode scalar values it may hold lone
surrogates.

* `CodePoint`, `Str` : the elements of a `str`, and a `str`.
* `ofChar`, `ofString` : the code points of characters that are no surrogates.
* `CodePoint.isSpace` : `str.isspace`; on characters it is `Python.isSpace`.
* `CodePoint.isHex`, `hexValue` : hexadecimal digits and their values.
-/

namespace TrackFlow

namespace Python

/-- A code point. -/
abbrev CodePoint := Fin 0x110000

instance neZero_codePoints : NeZero 0x110000 := ⟨by decide⟩

/-- A Python `str`. -/
abbrev Str := List CodePoint

/-- The code point of a character. -/
def ofChar (c : Char) : CodePoint :=
  ⟨c.toNat, by
    have h : c.toNat < 0xd800 ∨ 0xdfff < c.toNat ∧ c.toNat < 0x110000 := c.valid
    omega⟩

/-- The code points of a text. -/
def ofString (s : String) : Str := s.toList.map ofChar

theorem val_ofChar (c : Char) : (ofChar c).val = c.toNat := rfl

@[simp] theorem ofChar_inj {a b : Char} : ofChar a = ofChar b ↔ a = b := by
  constructor
  · intro h
    have hn := congrArg Fin.val h
    rw [val_ofChar, val_ofChar] at hn
    exact Char.ext (UInt32.toNat_inj.1 hn)
  · exact congrArg ofChar

namespace CodePoint

/-- The code points of `str.isspace`, which are those of the class `\s`. -/
def isSpace (c : CodePoint) : Bool :=
  let n := c.val
  (9 ≤ n && n ≤ 13) || (28 ≤ n && n ≤ 32) || n == 133 || n == 160 || n == 5760 ||
    (8192 ≤ n && n ≤ 8202) || n == 8232 || n == 8233 || n == 8239 || n == 8287 || n == 12288

@[simp] theorem isSpace_ofChar (c : Char) : isSpace (ofChar c) = Python.isSpace c := rfl

/-- One of `0123456789abcdefABCDEF`. -/
def isHex (c : CodePoint) : Bool :=
  (48 ≤ c.val && c.val ≤ 57) || (65 ≤ c.val && c.val ≤ 70) || (97 ≤ c.val && c.val ≤ 102)

/-- The value of a hexadecimal digit. -/
def hexValue (c : CodePoint) : ℕ :=
  if c.val ≤ 57 then c.val - 48 else if c.val ≤ 70 then c.val - 55 else c.val - 87

end CodePoint

/-- `chr(int(digits, 16))` of four hexadecimal digits. -/
def chrHex (a b c d : CodePoint) : CodePoint :=
  Fin.ofNat 0x110000
    (a.hexValue * 4096 + b.hexValue * 256 + c.hexValue * 16 + d.hexValue)

end Python

end TrackFlow
