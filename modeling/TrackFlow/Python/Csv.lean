import TrackFlow.Python.Lines
import TrackFlow.Python.Raise

/-!
# Python's `csv.reader`

`csv.reader(StringIO(text), strict=True)` in the default dialect: the delimiter is a comma, and a
quote inside a quoted field is doubled.  The reader takes line after line until a record ends, so a
quoted field may hold newlines, and `line_num` is the number of the line in which a record ends.

* `Reader.next` : one character, or the end of a line.
* `readRecords` : the records, each with its `line_num`.
* `lineNum_readRecords` : **no two records have one `line_num`.**
-/

namespace TrackFlow

namespace Python

namespace Csv

/-- `csv.Error`. -/
inductive Error
  | fieldTooLarge
  | unexpectedEnd
  | delimiterExpected
  | newlineInUnquotedField
  deriving DecidableEq, Repr

/-- The states of the reader. -/
inductive State
  | startRecord
  | startField
  | inField
  | inQuotedField
  | quoteInQuotedField
  | eatCrNl
  deriving DecidableEq, Repr

/-- A record under way: the field so far, and the fields before it. -/
structure Reader where
  state : State
  field : List Char
  fields : List (List Char)
  deriving DecidableEq, Repr

/-- `csv.field_size_limit()`. -/
def fieldSizeLimit : ℕ := 131072

namespace Reader

/-- A new record. -/
def reset : Reader := ⟨.startRecord, [], []⟩

/-- The character, or the end of the line, ends a field that is not quoted. -/
def endsLine : Option Char → Bool
  | none => true
  | some c => c = '\n' || c = '\r'

/-- The state behind the last field of a record. -/
def lineState : Option Char → State
  | none => .startRecord
  | some _ => .eatCrNl

/-- `parse_save_field`. -/
def saveField (r : Reader) (state : State) : Reader := ⟨state, [], r.fields ++ [r.field]⟩

/-- `parse_add_char`. -/
def addChar (r : Reader) (c : Char) (state : State) : Except Error Reader :=
  if fieldSizeLimit ≤ r.field.length then .error .fieldTooLarge
  else .ok { r with state := state, field := r.field ++ [c] }

/-- The first character of a field. -/
def openField (r : Reader) (c : Option Char) : Except Error Reader :=
  if endsLine c then .ok (r.saveField (lineState c))
  else
    match c with
    | none => .ok r
    | some '"' => .ok { r with state := .inQuotedField }
    | some ',' => .ok (r.saveField .startField)
    | some c => r.addChar c .inField

/-- `parse_process_char`; `none` is the end of the line. -/
def next (r : Reader) (c : Option Char) : Except Error Reader :=
  match r.state with
  | .startRecord =>
    if c = none then .ok r
    else if endsLine c then .ok { r with state := .eatCrNl }
    else openField { r with state := .startField } c
  | .startField => r.openField c
  | .inField =>
    if endsLine c then .ok (r.saveField (lineState c))
    else
      match c with
      | none => .ok r
      | some ',' => .ok (r.saveField .startField)
      | some c => r.addChar c .inField
  | .inQuotedField =>
    match c with
    | none => .ok r
    | some '"' => .ok { r with state := .quoteInQuotedField }
    | some c => r.addChar c .inQuotedField
  | .quoteInQuotedField =>
    if c = some '"' then r.addChar '"' .inQuotedField
    else if c = some ',' then .ok (r.saveField .startField)
    else if endsLine c then .ok (r.saveField (lineState c))
    else .error .delimiterExpected
  | .eatCrNl =>
    if c = none then .ok { r with state := .startRecord }
    else if endsLine c then .ok r
    else .error .newlineInUnquotedField

/-- A line, up to its end. -/
def line (r : Reader) (text : List Char) : Except Error Reader := do
  let r ← text.foldlM (fun r c => r.next (some c)) r
  r.next none

end Reader

/-- The lines that `StringIO` yields, each with its newline. -/
def textLines : List Char → List (List Char)
  | [] => []
  | c :: rest => if c = '\n' then ['\n'] :: textLines rest else consFirst c (textLines rest)

/-- The records from the line behind `lineNum` on. -/
def readFrom : ℕ → Reader → List (List Char) → Except Error (List (ℕ × List (List Char)))
  | _, r, [] =>
    if r.field ≠ [] ∨ r.state = .inQuotedField then .error .unexpectedEnd else .ok []
  | lineNum, r, text :: rest => do
    let r ← r.line text
    if r.state = .startRecord then
      let records ← readFrom (lineNum + 1) .reset rest
      return (lineNum + 1, r.fields) :: records
    else readFrom (lineNum + 1) r rest

/-- `[(reader.line_num, row) for row in reader]`. -/
def readRecords (text : List Char) : Except Error (List (ℕ × List (List Char))) :=
  readFrom 0 .reset (textLines text)

/-! ## Line numbers -/

/-- Every record ends in a line of its own. -/
theorem lineNum_readFrom {lineNum : ℕ} {r : Reader} {lines : List (List Char)}
    {records : List (ℕ × List (List Char))} (h : readFrom lineNum r lines = .ok records) :
    (∀ record ∈ records, lineNum < record.1) ∧
      records.Pairwise fun record record' => record.1 < record'.1 := by
  induction lines generalizing lineNum r records with
  | nil =>
    unfold readFrom at h
    split_ifs at h
    cases h
    exact ⟨by simp, .nil⟩
  | cons text rest ih =>
    rw [readFrom, except_bind_eq_ok] at h
    obtain ⟨r', -, h⟩ := h
    split_ifs at h
    · obtain ⟨behind, hbehind, h⟩ := except_bind_eq_ok.1 h
      obtain rfl := except_pure_eq_ok.1 h
      obtain ⟨hlt, hpairwise⟩ := ih hbehind
      refine ⟨List.forall_mem_cons.2 ⟨Nat.lt_succ_self _, fun record hmem => ?_⟩,
        List.pairwise_cons.2 ⟨hlt, hpairwise⟩⟩
      exact Nat.lt_of_succ_lt (hlt record hmem)
    · obtain ⟨hlt, hpairwise⟩ := ih h
      exact ⟨fun record hmem => Nat.lt_of_succ_lt (hlt record hmem), hpairwise⟩

/-- **No two records have one `line_num`.** -/
theorem lineNum_readRecords {text : List Char} {records : List (ℕ × List (List Char))}
    (h : readRecords text = .ok records) : (records.map Prod.fst).Nodup :=
  List.pairwise_map.2 ((lineNum_readFrom h).2.imp Nat.ne_of_lt)

example : readRecords "a,\"b\nc\"\r\n\n\"x\"\"y\",z".toList =
    .ok [(2, ["a".toList, "b\nc".toList]), (3, []), (4, ["x\"y".toList, "z".toList])] := by
  decide

end Csv

end Python

end TrackFlow
