import TrackFlow.Python.CodePoint

/-!
# JSON texts and the values `json.loads` gives them

A text of the grammar is the text of a syntax tree, which keeps the white space, the spelling of
every string and the order of the members.

* `Piece`, `Literal` : the characters and escapes of a string, and a string.
* `Literal.value` : the string `json.loads` reads, with surrogate pairs joined.
* `Element`, `Items`, `Member`, `Members` : values, and what stands between brackets and braces.
* `Element.text` : the text of an element; `Element.value` : the Python value.
* `Literal.value_of_noPair` : without an escaped surrogate pair every piece is read on its own.
-/

namespace TrackFlow

namespace Json

namespace Grammar

open Python

/-! ## Tokens -/

/-- The white space of JSON. -/
def isBlank (c : CodePoint) : Bool :=
  c == ofChar ' ' || c == ofChar '\t' || c == ofChar '\n' || c == ofChar '\r'

/-- White space between two tokens. -/
structure Blank where
  text : Str
  all_isBlank : ∀ c ∈ text, isBlank c = true

/-- No white space. -/
def Blank.empty : Blank := ⟨[], by simp⟩

/-- A numeral. -/
structure Numeral where
  negative : Bool
  whole : ℕ
  /-- The digits behind the point. -/
  fraction : Option (Fin 10 × List (Fin 10))
  /-- `E` or `e`, the sign, and the digits. -/
  exponent : Option (Bool × Option Bool × Fin 10 × List (Fin 10))

/-- A decimal digit. -/
def digit (d : Fin 10) : CodePoint := ofChar (Nat.digitChar d)

/-- The fraction of a numeral. -/
def Numeral.fractionText (n : Numeral) : Str :=
  match n.fraction with
  | none => []
  | some (first, others) => ofChar '.' :: (first :: others).map digit

/-- The exponent of a numeral. -/
def Numeral.exponentText (n : Numeral) : Str :=
  match n.exponent with
  | none => []
  | some (upper, sign, first, others) =>
    ofChar (if upper then 'E' else 'e') ::
      ((sign.map fun minus => ofChar (if minus then '-' else '+')).toList ++
        (first :: others).map digit)

/-- The text of a numeral. -/
def Numeral.text (n : Numeral) : Str :=
  (if n.negative then [ofChar '-'] else []) ++
    ((Nat.toDigits 10 n.whole).map ofChar ++ (n.fractionText ++ n.exponentText))

/-- The names of constants that `json.loads` reads. -/
inductive Constant
  | null
  | true
  | false
  | nan
  | infinity
  | minusInfinity
deriving DecidableEq

/-- The text of a constant. -/
def Constant.text : Constant → Str
  | null => ofString "null"
  | true => ofString "true"
  | false => ofString "false"
  | nan => ofString "NaN"
  | infinity => ofString "Infinity"
  | minusInfinity => ofString "-Infinity"

/-! ## Strings -/

/-- The escapes of one character. -/
inductive Escape
  | quote
  | backslash
  | slash
  | b
  | f
  | n
  | r
  | t
deriving DecidableEq

/-- The character behind the backslash. -/
def Escape.letter : Escape → CodePoint
  | quote => ofChar '"'
  | backslash => ofChar '\\'
  | slash => ofChar '/'
  | b => ofChar 'b'
  | f => ofChar 'f'
  | n => ofChar 'n'
  | r => ofChar 'r'
  | t => ofChar 't'

/-- The character an escape stands for. -/
def Escape.char : Escape → CodePoint
  | quote => ofChar '"'
  | backslash => ofChar '\\'
  | slash => ofChar '/'
  | b => ofChar '\x08'
  | f => ofChar '\x0c'
  | n => ofChar '\n'
  | r => ofChar '\r'
  | t => ofChar '\t'

/-- A hexadecimal digit. -/
abbrev HexDigit := { c : CodePoint // c.isHex = true }

/-- What a string is made of. -/
inductive Piece
  /-- A character that stands for itself. -/
  | plain (c : CodePoint) (h : 32 ≤ c.val ∧ c ≠ ofChar '"' ∧ c ≠ ofChar '\\')
  /-- A backslash and a letter. -/
  | short (e : Escape)
  /-- `\u` and four digits. -/
  | hex (x y z w : HexDigit)

/-- The text of a piece. -/
def Piece.text : Piece → Str
  | plain c _ => [c]
  | short e => [ofChar '\\', e.letter]
  | hex x y z w => [ofChar '\\', ofChar 'u', x, y, z, w]

/-- The code point of a piece that is read on its own. -/
def Piece.char : Piece → CodePoint
  | plain c _ => c
  | short e => e.char
  | hex x y z w => chrHex x y z w

/-- A string. -/
abbrev Literal := List Piece

/-- The text between the quotes. -/
def Literal.body (l : Literal) : Str := l.flatMap Piece.text

/-- The text of a string. -/
def Literal.text (l : Literal) : Str := ofChar '"' :: (l.body ++ [ofChar '"'])

/-- The code point of a surrogate pair. -/
def surrogatePair (high low : CodePoint) : Option CodePoint :=
  if (0xd800 ≤ high.val ∧ high.val ≤ 0xdbff) ∧ 0xdc00 ≤ low.val ∧ low.val ≤ 0xdfff then
    some (Fin.ofNat 0x110000 (0x10000 + (high.val - 0xd800) * 1024 + (low.val - 0xdc00)))
  else none

/-- The code point of two escapes that spell a surrogate pair. -/
def Piece.joined : Piece → Piece → Option CodePoint
  | hex x y z w, hex x' y' z' w' => surrogatePair (chrHex x y z w) (chrHex x' y' z' w')
  | _, _ => none

/-- `py_scanstring`: the string, with surrogate pairs joined. -/
def Literal.value : Literal → Str
  | [] => []
  | [p] => [p.char]
  | p :: q :: rest =>
    match p.joined q with
    | some c => c :: Literal.value rest
    | none => p.char :: Literal.value (q :: rest)

/-- No two neighbours spell a surrogate pair. -/
def Literal.NoPair : Literal → Prop
  | [] => True
  | [_] => True
  | p :: q :: rest => p.joined q = none ∧ Literal.NoPair (q :: rest)

/-- **Without an escaped surrogate pair every piece is read on its own.** -/
theorem Literal.value_of_noPair {l : Literal} (h : l.NoPair) : l.value = l.map Piece.char := by
  fun_induction Literal.value l with
  | case1 => rfl
  | case2 p => rfl
  | case3 p q rest c hc =>
    rw [Literal.NoPair, hc] at h
    exact absurd h.1 (by simp)
  | case4 p q rest hnone ih =>
    rw [Literal.NoPair] at h
    rw [ih h.2]
    rfl

/-! ## Values -/

mutual

/-- A value. -/
inductive Element
  | constant (c : Constant)
  | number (n : Numeral)
  | string (l : Literal)
  | emptyArray (b : Blank)
  | array (b : Blank) (first : Element) (b' : Blank) (rest : Items)
  | emptyObject (b : Blank)
  | object (b : Blank) (first : Member) (b' : Blank) (rest : Members)

/-- What follows an item of an array. -/
inductive Items
  | close
  | more (b : Blank) (item : Element) (b' : Blank) (rest : Items)

/-- A key and its value. -/
inductive Member
  | mk (key : Literal) (b b' : Blank) (value : Element)

/-- What follows a member of an object. -/
inductive Members
  | close
  | more (b : Blank) (member : Member) (b' : Blank) (rest : Members)

end

mutual

/-- The text of a value. -/
def Element.text : Element → Str
  | .constant c => c.text
  | .number n => n.text
  | .string l => l.text
  | .emptyArray b => ofChar '[' :: (b.text ++ [ofChar ']'])
  | .array b first b' rest => ofChar '[' :: (b.text ++ (first.text ++ (b'.text ++ rest.text)))
  | .emptyObject b => ofChar '{' :: (b.text ++ [ofChar '}'])
  | .object b first b' rest => ofChar '{' :: (b.text ++ (first.text ++ (b'.text ++ rest.text)))

def Items.text : Items → Str
  | .close => [ofChar ']']
  | .more b item b' rest => ofChar ',' :: (b.text ++ (item.text ++ (b'.text ++ rest.text)))

def Member.text : Member → Str
  | .mk key b b' value => key.text ++ (b.text ++ ofChar ':' :: (b'.text ++ value.text))

def Members.text : Members → Str
  | .close => [ofChar '}']
  | .more b member b' rest => ofChar ',' :: (b.text ++ (member.text ++ (b'.text ++ rest.text)))

end

/-- The Python values of JSON texts. -/
inductive Value
  /-- `None`, `True`, `False` or one of the special floats. -/
  | constant (c : Constant)
  /-- The `int` or `float` of a numeral. -/
  | number (n : Numeral)
  | str (s : Str)
  | list (items : List Value)
  /-- A dictionary, in the order of its keys. -/
  | dict (items : List (Str × Value))

/-- `d[key] = value`: a key keeps its place. -/
def setItem (d : List (Str × Value)) (key : Str) (value : Value) : List (Str × Value) :=
  if key ∈ d.map Prod.fst then d.map fun entry => if entry.1 = key then (key, value) else entry
  else d ++ [(key, value)]

/-- `dict(pairs)`. -/
def dictOf (pairs : List (Str × Value)) : List (Str × Value) :=
  pairs.foldl (fun d pair => setItem d pair.1 pair.2) []

mutual

/-- The value of an element: a key that is given twice has the value given last. -/
def Element.value : Element → Value
  | .constant c => .constant c
  | .number n => .number n
  | .string l => .str l.value
  | .emptyArray _ => .list []
  | .array _ first _ rest => .list (first.value :: rest.values)
  | .emptyObject _ => .dict []
  | .object _ first _ rest => .dict (dictOf (first.pair :: rest.pairs))

def Items.values : Items → List Value
  | .close => []
  | .more _ item _ rest => item.value :: rest.values

def Member.pair : Member → Str × Value
  | .mk key _ _ value => (key.value, value.value)

def Members.pairs : Members → List (Str × Value)
  | .close => []
  | .more _ member _ rest => member.pair :: rest.pairs

end

/-- A JSON text: a value between white space. -/
structure Document where
  before : Blank
  element : Element
  behind : Blank

/-- The text of a document. -/
def Document.text (d : Document) : Str := d.before.text ++ (d.element.text ++ d.behind.text)

/-- `json.loads` of the text of a document. -/
def Document.loads (d : Document) : Value := d.element.value

end Grammar

end Json

end TrackFlow
