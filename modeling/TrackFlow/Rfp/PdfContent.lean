import TrackFlow.Rfp.Pdf
import Mathlib.Data.List.Count
import Mathlib.Data.List.Flatten
import Mathlib.Algebra.Order.BigOperators.Group.List

/-!
# What the PDF shows of a draft

The content of a line is the text without its marker, or the cells of a table row.  The converter
shows it inside an element; of the rows of a table it drops the second one, or the only one.

* `insides` : what is inside the elements of the output that hold text.
* `insides_markdownToHtml` : the converter shows the contents of the lines that it keeps, in order.
* `pdf_drops_no_content_iff` : **it drops no content exactly when all rows that it drops are
  separators.**
* `pdf_drops_single_row` : a table of one row.
-/

namespace TrackFlow

namespace Rfp

open Python Html

/-! ## Contents -/

/-- The text of a line without its marker, or the cells of a table row. -/
def pieces (t : Python.Tables) (raw : List Char) : List (List Char) :=
  let line := rstrip raw
  if isRow line then cells (strip line)
  else if blank line then []
  else
    match heading? line with
    | some (_, text) => [text]
    | none =>
      match bullet? line with
      | some text => [text]
      | none =>
        match numbered? t line with
        | some text => [text]
        | none => [line]

/-- A line of a table. -/
def isTableRow (raw : List Char) : Bool := isRow (rstrip raw)

/-- Nothing but dashes and colons. -/
def dashed (text : List Char) : Bool := text.all fun c => c == '-' || c == ':'

/-- A table row whose cells consist of dashes and colons. -/
def isSeparator (raw : List Char) : Bool :=
  isTableRow raw && (cells (strip (rstrip raw))).all dashed

/-- The contents that the PDF has to show: those of all lines but separators, escaped, with tags for
their paired asterisks (`inlineHtml_forest`). -/
def contents (t : Python.Tables) (markdown : List Char) : List (List Char) :=
  (((draftLines markdown).filter fun raw => !isSeparator raw).flatMap (pieces t)).map inlineHtml

/-- The names of the elements that hold text. -/
def textTags : List (List Char) :=
  ["p".toList, "h3".toList, "h4".toList, "h5".toList, "h6".toList, "li".toList, "th".toList,
    "td".toList]

/-- What is inside the elements that hold text. -/
def insides (html : List Char) : List (List Char) := innerTexts textTags 0 none html

/-! ## The rows that are dropped -/

/-- The rows of a table that are dropped: the second one, or the only one. -/
def droppedOf (rows : List (List Char)) : List (List Char) :=
  if 2 ≤ rows.length then (rows.drop 1).take 1 else rows

/-- The others. -/
def keptOf (rows : List (List Char)) : List (List Char) :=
  if 2 ≤ rows.length then rows.take 1 ++ rows.drop 2 else []

/-- A table: rows on consecutive lines, as many as there are. -/
structure IsTable (lines before rows behind : List (List Char)) : Prop where
  eq : lines = before ++ rows ++ behind
  rows : ∀ row ∈ rows, isTableRow row = true
  before : ∀ line ∈ before.getLast?, isTableRow line = false
  behind : ∀ line ∈ behind.head?, isTableRow line = false

/-- Every table drops only separators. -/
def DropsSeparators (lines : List (List Char)) : Prop :=
  ∀ before rows behind, IsTable lines before rows behind →
    ∀ row ∈ droppedOf rows, isSeparator row = true

/-- The lines that are shown, behind the rows of an open table. -/
def shown : List (List Char) → List (List Char) → List (List Char)
  | rows, [] => keptOf rows
  | rows, line :: lines =>
    if isTableRow line then shown (rows ++ [line]) lines
    else keptOf rows ++ line :: shown [] lines

/-- The rows that are dropped, behind those of an open table. -/
def dropped : List (List Char) → List (List Char) → List (List Char)
  | rows, [] => droppedOf rows
  | rows, line :: lines =>
    if isTableRow line then dropped (rows ++ [line]) lines
    else droppedOf rows ++ dropped [] lines

section

variable {t : Python.Tables} {rows lines : List (List Char)} {raw text : List Char}

theorem perm_table (rows : List (List Char)) : (keptOf rows ++ droppedOf rows).Perm rows := by
  match rows with
  | [] => exact .refl _
  | [row] => exact .refl _
  | first :: second :: rest => exact .cons first (List.perm_append_singleton second rest)

/-- A line is shown or dropped. -/
theorem perm_lines (rows lines : List (List Char)) :
    (shown rows lines ++ dropped rows lines).Perm (rows ++ lines) := by
  induction lines generalizing rows with
  | nil =>
    rw [List.append_nil]
    exact perm_table rows
  | cons line lines ih =>
    rw [shown, dropped]
    split_ifs
    · exact List.append_cons rows line lines ▸ ih (rows ++ [line])
    · refine List.perm_iff_count.2 fun raw => ?_
      have htable := (perm_table rows).count_eq raw
      have hlines := (ih []).count_eq raw
      simp only [List.count_append, List.count_cons, List.nil_append] at htable hlines ⊢
      omega

theorem filter_table (h : ∀ row ∈ droppedOf rows, isSeparator row = true) :
    rows.filter (fun raw => !isSeparator raw) =
      (keptOf rows).filter fun raw => !isSeparator raw := by
  match rows, h with
  | [], _ => rfl
  | [row], h =>
    have hrow : isSeparator row = true := h row List.mem_cons_self
    exact List.filter_cons_of_neg (by simp [hrow])
  | first :: second :: rest, h =>
    have hsecond : isSeparator second = true := h second List.mem_cons_self
    have hkept : keptOf (first :: second :: rest) = first :: rest := rfl
    rw [hkept, List.filter_cons, List.filter_cons_of_neg (by simp [hsecond]), List.filter_cons]

/-- Only separators are dropped. -/
theorem filter_shown (h : ∀ row ∈ dropped rows lines, isSeparator row = true) :
    (rows ++ lines).filter (fun raw => !isSeparator raw) =
      (shown rows lines).filter fun raw => !isSeparator raw := by
  induction lines generalizing rows with
  | nil =>
    rw [List.append_nil]
    exact filter_table h
  | cons line lines ih =>
    rw [dropped] at h
    rw [shown]
    split_ifs at h ⊢
    · exact List.append_cons rows line lines ▸ ih h
    · obtain ⟨htable, hlines⟩ := List.forall_mem_append.1 h
      rw [List.filter_append, List.filter_append, List.filter_cons, List.filter_cons,
        filter_table htable, ← ih hlines]
      rfl

theorem droppedOf_subset (rows : List (List Char)) : droppedOf rows ⊆ rows :=
  fun _ h => (perm_table rows).subset (List.mem_append_right _ h)

theorem isTableRow_of_mem_dropped (hrows : ∀ row ∈ rows, isTableRow row = true) :
    ∀ row ∈ dropped rows lines, isTableRow row = true := by
  induction lines generalizing rows with
  | nil => exact fun row h => hrows row (droppedOf_subset rows h)
  | cons line lines ih =>
    rw [dropped]
    split_ifs with hline
    · exact ih (List.forall_mem_append.2 ⟨hrows, List.forall_mem_singleton.2 hline⟩)
    · exact List.forall_mem_append.2
        ⟨fun row h => hrows row (droppedOf_subset rows h), ih (by simp)⟩

/-- Nothing stands before the rows that a list of lines begins with. -/
theorem eq_nil_of_getLast? {before : List (List Char)}
    (hlast : ∀ line ∈ before.getLast?, isTableRow line = false)
    (h : ∀ row ∈ before, isTableRow row = true) : before = [] := by
  rcases List.eq_nil_or_concat' before with rfl | ⟨before, row, rfl⟩
  · rfl
  · have hrow := h row (by simp)
    rw [hlast row (by simp)] at hrow
    exact absurd hrow Bool.false_ne_true

theorem eq_nil_of_head? {behind : List (List Char)}
    (hhead : ∀ line ∈ behind.head?, isTableRow line = false)
    (h : ∀ row ∈ behind, isTableRow row = true) : behind = [] := by
  cases behind with
  | nil => rfl
  | cons row behind =>
    have hrow := h row List.mem_cons_self
    rw [hhead row rfl] at hrow
    exact absurd hrow Bool.false_ne_true

/-- A table of rows, a line that is no row, and further lines: these rows, or one further on. -/
theorem isTable_append {line : List Char} {before table behind : List (List Char)}
    (hrows : ∀ row ∈ rows, isTableRow row = true) (hline : isTableRow line = false)
    (h : IsTable (rows ++ line :: lines) before table behind) :
    table = [] ∨ table = rows ∨ ∃ before', IsTable lines before' table behind := by
  have hnot : line ∉ table := fun hmem => by
    rw [h.rows line hmem] at hline
    exact absurd hline.symm Bool.false_ne_true
  have heq := h.eq
  rw [List.append_assoc, List.append_eq_append_iff] at heq
  rcases heq with ⟨front, rfl, heq⟩ | ⟨front, rfl, heq⟩
  · -- the table begins at the line, or behind it
    cases front with
    | nil =>
      cases table with
      | nil => exact .inl rfl
      | cons row table =>
        obtain ⟨rfl, -⟩ := List.cons.inj heq
        exact absurd List.mem_cons_self hnot
    | cons first front =>
      obtain ⟨rfl, hlines⟩ := List.cons.inj heq
      refine .inr (.inr ⟨front, by rw [hlines, List.append_assoc]; rfl, h.rows, ?_, h.behind⟩)
      have hlast := h.before
      rcases List.eq_nil_or_concat' front with rfl | ⟨front, last, rfl⟩
      · simp
      · rw [← List.cons_append, ← List.append_assoc, List.getLast?_concat] at hlast
        rwa [List.getLast?_concat]
  · obtain rfl := eq_nil_of_getLast? h.before
      fun row hrow => hrows row (List.mem_append_left _ hrow)
    rw [List.nil_append] at hrows ⊢
    -- nothing stands before the table, and it ends where the rows end
    rcases List.append_eq_append_iff.1 heq with ⟨rest, rfl, hbehind⟩ | ⟨rest, rfl, hrest⟩
    · cases rest with
      | nil => exact .inr (.inl (List.append_nil _).symm)
      | cons row rest =>
        have hrow := hrows row (by simp)
        rw [h.behind row (by rw [hbehind]; rfl)] at hrow
        exact absurd hrow Bool.false_ne_true
    · cases rest with
      | nil => exact .inr (.inl (List.append_nil _))
      | cons row rest =>
        obtain ⟨rfl, -⟩ := List.cons.inj hrest
        exact absurd (by simp) hnot

/-- The rows that are dropped are those of the tables. -/
theorem mem_dropped_iff (hrows : ∀ row ∈ rows, isTableRow row = true) :
    raw ∈ dropped rows lines ↔
      ∃ before table behind, IsTable (rows ++ lines) before table behind ∧
        raw ∈ droppedOf table := by
  induction lines generalizing rows with
  | nil =>
    constructor
    · exact fun h => ⟨[], rows, [], ⟨rfl, hrows, by simp, by simp⟩, h⟩
    · rintro ⟨before, table, behind, htable, h⟩
      have heq := htable.eq
      rw [List.append_nil] at heq
      have hall : ∀ row ∈ before ++ table ++ behind, isTableRow row = true := heq ▸ hrows
      obtain ⟨hfront, hbehind⟩ := List.forall_mem_append.1 hall
      obtain rfl := eq_nil_of_getLast? htable.before (List.forall_mem_append.1 hfront).1
      obtain rfl := eq_nil_of_head? htable.behind hbehind
      rw [List.append_nil, List.nil_append] at heq
      exact heq ▸ h
  | cons line lines ih =>
    rw [dropped]
    split_ifs with hline
    · rw [ih (List.forall_mem_append.2 ⟨hrows, List.forall_mem_singleton.2 hline⟩),
        List.append_assoc, List.singleton_append]
    · have hline' : isTableRow line = false := Bool.eq_false_iff.2 hline
      rw [List.mem_append, ih (by simp), List.nil_append]
      constructor
      · rintro (h | ⟨before, table, behind, htable, h⟩)
        · exact ⟨[], rows, line :: lines, ⟨rfl, hrows, by simp, by simpa using hline'⟩, h⟩
        · refine ⟨rows ++ line :: before, table, behind,
            ⟨by simp [htable.eq], htable.rows, ?_, htable.behind⟩, h⟩
          rcases List.eq_nil_or_concat' before with rfl | ⟨before, last, rfl⟩
          · rw [List.getLast?_concat]
            simpa using hline'
          · rw [← List.cons_append, ← List.append_assoc, List.getLast?_concat]
            simpa using htable.before last (by simp)
      · rintro ⟨before, table, behind, htable, h⟩
        rcases isTable_append hrows hline' htable with rfl | rfl | ⟨before', htable⟩
        · exact absurd h List.not_mem_nil
        · exact .inl h
        · exact .inr ⟨before', table, behind, htable, h⟩

theorem dropsSeparators_iff (lines : List (List Char)) :
    DropsSeparators lines ↔ ∀ row ∈ dropped [] lines, isSeparator row = true := by
  constructor
  · intro h row hrow
    obtain ⟨before, table, behind, htable, hrow⟩ := (mem_dropped_iff (by simp)).1 hrow
    exact h before table behind htable row hrow
  · intro h before table behind htable row hrow
    exact h row ((mem_dropped_iff (by simp)).2 ⟨before, table, behind, htable, hrow⟩)

/-! ## What the converter shows -/

/-- Emphasis neither opens nor closes an element that holds a paragraph, an item or a cell. -/
theorem inner_inlineHtml (text : List Char) : Inner textTags (inlineHtml text) := by
  have hinlined : Inlined fun s _ => Inner textTags s :=
    { nil := .nil
      append := Inner.append
      char := fun c => .of_notMem (open_notMem_escapeChar c)
      strong := fun h => h.wrap (by decide) (by decide) (by decide) (by decide)
      em := fun h => h.wrap (by decide) (by decide) (by decide) (by decide) }
  exact hinlined.inlineHtml text

/-- What a table shows. -/
def tableInsides (rows : List (List Char)) : List (List Char) :=
  if 2 ≤ rows.length then
    (cells (rows.headD [])).map inlineHtml ++
      (rows.drop 2).flatMap fun row => (cells row).map inlineHtml
  else []

/-- An element that holds text. -/
theorem closed_text {tag : List Char} (htag : tag ∈ textTags) (text : List Char) :
    Closed textTags (wrap tag (inlineHtml text)) [inlineHtml text] := by
  have hnames : ∀ tag ∈ textTags, '>' ∉ tag ∧ '/' :: tag ∉ textTags := by decide
  exact .wrap (inner_inlineHtml text) (hnames tag htag).1 htag (hnames tag htag).2

theorem closed_cells {tag : List Char} (htag : tag ∈ textTags) (row : List Char) :
    Closed textTags ((cells row).flatMap fun cell => wrap tag (inlineHtml cell))
      ((cells row).map inlineHtml) := by
  rw [List.map_eq_flatMap]
  exact .flatMap fun cell _ => closed_text htag cell

theorem closed_renderTable (hrows : 2 ≤ rows.length) :
    Closed textTags (renderTable rows) (tableInsides rows) := by
  rw [tableInsides, if_pos hrows]
  have hth : "th".toList ∈ textTags := by decide
  have htd : "td".toList ∈ textTags := by decide
  have hbody : Closed textTags ((rows.drop 2).flatMap fun row =>
      wrap "tr".toList ((cells row).flatMap fun cell => wrap "td".toList (inlineHtml cell)))
        ((rows.drop 2).flatMap fun row => (cells row).map inlineHtml) :=
    .flatMap fun row _ => (closed_cells htd row).wrap_of_notMem
      (by decide) (by decide) (by decide) (by decide)
  exact (((closed_cells hth (rows.headD [])).wrap_of_notMem (by decide) (by decide) (by decide)
    (by decide)).append hbody).wrap_of_notMem (by decide) (by decide) (by decide) (by decide)

theorem closed_list (listType : ListType) {items : List (List Char)}
    (h : ∀ item ∈ items, Inner textTags item) :
    Closed textTags (wrap listType.name (items.flatMap (wrap "li".toList))) items := by
  have hitems : Closed textTags (items.flatMap (wrap "li".toList)) (items.flatMap fun i => [i]) :=
    .flatMap fun item hitem => .wrap (h item hitem) (by decide) (by decide) (by decide)
  rw [List.flatMap_singleton'] at hitems
  cases listType with
  | ul => exact hitems.wrap_of_notMem (by decide) (by decide) (by decide) (by decide)
  | ol => exact hitems.wrap_of_notMem (by decide) (by decide) (by decide) (by decide)

theorem heading_mem_textTags {hashes : ℕ} (h : 1 ≤ hashes) (h' : hashes ≤ 6) :
    'h' :: Nat.toDigits 10 (min (hashes + 2) 6) ∈ textTags := by
  interval_cases hashes <;> decide

/-- A state that has shown the given texts, those of the open list included. -/
structure Converter.Reads (st : Converter) (texts : List (List Char)) : Prop where
  closed : ∀ block ∈ st.out, Closed textTags block (insides block)
  inner : ∀ item ∈ st.listItems, Inner textTags item
  noItems : st.listType = none → st.listItems = []
  alone : st.table ≠ [] → st.listType = none
  texts_eq : st.out.flatMap insides ++ st.listItems = texts

namespace Converter

variable {st : Converter} {texts texts' : List (List Char)}

theorem Reads.emit (h : st.Reads texts) (hlist : st.listType = none) {block : List Char}
    (hblock : Closed textTags block texts') : (st.emit block).Reads (texts ++ texts') := by
  have hinsides : insides block = texts' := hblock.innerTexts_eq
  refine ⟨List.forall_mem_append.2 ⟨h.closed, List.forall_mem_singleton.2 (hinsides ▸ hblock)⟩,
    h.inner, h.noItems, h.alone, ?_⟩
  have htexts := h.texts_eq
  rw [h.noItems hlist, List.append_nil] at htexts
  rw [Converter.emit, h.noItems hlist, List.append_nil, List.flatMap_append, htexts,
    List.flatMap_singleton, hinsides]

/-- An open list is shown already. -/
theorem Reads.flushList (h : st.Reads texts) :
    st.flushList.Reads texts ∧ st.flushList.listType = none ∧ st.flushList.table = st.table := by
  unfold Converter.flushList
  cases hlist : st.listType with
  | none => exact ⟨h, hlist, rfl⟩
  | some listType =>
    have hblock := closed_list listType h.inner
    have hinsides := hblock.innerTexts_eq
    refine ⟨⟨?_, fun _ hitem => absurd hitem List.not_mem_nil, fun _ => rfl, fun _ => rfl, ?_⟩,
      rfl, rfl⟩
    · refine List.forall_mem_append.2 ⟨h.closed, List.forall_mem_singleton.2 ?_⟩
      rw [insides, hinsides]
      exact hblock
    · show (st.out ++ [_]).flatMap insides ++ [] = texts
      rw [List.flatMap_append, List.flatMap_singleton, insides, hinsides, List.append_nil]
      exact h.texts_eq

theorem Reads.flushTable (h : st.Reads texts) :
    st.flushTable.Reads (texts ++ tableInsides st.table) ∧ st.flushTable.table = [] ∧
      st.flushTable.listType = st.listType := by
  have hemit : (if 2 ≤ st.table.length then st.emit (renderTable st.table) else st).Reads
      (texts ++ tableInsides st.table) := by
    split_ifs with hrows
    · refine h.emit (h.alone fun hnil => ?_) (closed_renderTable hrows)
      rw [hnil] at hrows
      exact absurd hrows (by decide)
    · rwa [tableInsides, if_neg hrows, List.append_nil]
  refine ⟨⟨hemit.closed, hemit.inner, hemit.noItems, fun htable => absurd rfl htable,
    hemit.texts_eq⟩, rfl, ?_⟩
  unfold Converter.flushTable
  split_ifs <;> rfl

theorem Reads.addItem (h : st.Reads texts) (htable : st.table = []) (listType : ListType)
    (text : List Char) : (st.addItem listType (inlineHtml text)).Reads
        (texts ++ [inlineHtml text]) ∧ (st.addItem listType (inlineHtml text)).table = [] := by
  obtain ⟨hflush, -, hflushTable⟩ := h.flushList
  set open_ := if st.listType = some listType then st
    else { st.flushList with listType := some listType } with hopen
  have hopenReads : open_.Reads texts ∧ open_.listType = some listType ∧ open_.table = [] := by
    rw [hopen]
    split_ifs with hsame
    · exact ⟨h, hsame, htable⟩
    · refine ⟨⟨hflush.closed, hflush.inner, nofun, fun hne => absurd ?_ hne, hflush.texts_eq⟩, rfl,
        hflushTable.trans htable⟩
      exact hflushTable.trans htable
  obtain ⟨hreads, hlist, hnil⟩ := hopenReads
  refine ⟨⟨hreads.closed, ?_, fun hnone => ?_, fun hne => absurd hnil hne, ?_⟩, hnil⟩
  · exact List.forall_mem_append.2
      ⟨hreads.inner, List.forall_mem_singleton.2 (inner_inlineHtml text)⟩
  · exact absurd (hlist.symm.trans hnone) nofun
  · have htexts := hreads.texts_eq
    show open_.out.flatMap insides ++ (open_.listItems ++ [inlineHtml text]) = _
    rw [← List.append_assoc, htexts]

/-- A row is kept for the table that is open. -/
theorem Reads.step_row (t : Python.Tables) (h : st.Reads texts) (hrow : isTableRow raw = true) :
    (st.step t raw).Reads texts ∧ (st.step t raw).table = st.table ++ [strip (rstrip raw)] := by
  obtain ⟨hflush, hlist, htable⟩ := h.flushList
  have hstep : st.step t raw =
      { st.flushList with table := st.flushList.table ++ [strip (rstrip raw)] } := if_pos hrow
  rw [hstep]
  exact ⟨⟨hflush.closed, hflush.inner, hflush.noItems, fun _ => hlist, hflush.texts_eq⟩,
    congrArg (· ++ _) htable⟩

/-- Another line shows the table, and its own contents. -/
theorem Reads.step_line (t : Python.Tables) (h : st.Reads texts) (hrow : isTableRow raw = false) :
    (st.step t raw).Reads (texts ++ tableInsides st.table ++ (pieces t raw).map inlineHtml) ∧
      (st.step t raw).table = [] := by
  have hrow' : ¬isRow (rstrip raw) = true := Bool.eq_false_iff.1 hrow
  obtain ⟨htable, hnil, -⟩ := h.flushTable
  obtain ⟨hflush, hlist, hflushTable⟩ := htable.flushList
  rw [hnil] at hflushTable
  simp only [Converter.step, pieces, if_neg hrow']
  split_ifs with hblank
  · rw [List.map_nil, List.append_nil]
    exact ⟨hflush, hflushTable⟩
  · cases hheading : heading? (rstrip raw) with
    | some found =>
      obtain ⟨hashes, text⟩ := found
      obtain ⟨-, hlow, hhigh⟩ := subset_of_heading hheading
      exact ⟨hflush.emit hlist (closed_text (heading_mem_textTags hlow hhigh) text), hflushTable⟩
    | none =>
      cases bullet? (rstrip raw) with
      | some text => exact htable.addItem hnil .ul text
      | none =>
        cases numbered? t (rstrip raw) with
        | some text => exact htable.addItem hnil .ol text
        | none => exact ⟨hflush.emit hlist (closed_text (by decide) _), hflushTable⟩

theorem pieces_row (t : Python.Tables) (hrow : isTableRow raw = true) :
    pieces t raw = cells (strip (rstrip raw)) := if_pos hrow

/-- A table shows the contents of the rows that it keeps. -/
theorem tableInsides_eq (t : Python.Tables) (hrows : ∀ row ∈ rows, isTableRow row = true) :
    tableInsides (rows.map fun raw => strip (rstrip raw)) =
      ((keptOf rows).flatMap (pieces t)).map inlineHtml := by
  match rows, hrows with
  | [], _ => rfl
  | [row], _ => rfl
  | first :: second :: rest, hrows =>
    have hkept : keptOf (first :: second :: rest) = first :: rest := rfl
    have hrest : (rest.flatMap fun raw => (pieces t raw).map inlineHtml) =
        rest.flatMap fun raw => (cells (strip (rstrip raw))).map inlineHtml :=
      List.flatMap_congr fun row hrow => by rw [pieces_row t (hrows row (by simp [hrow]))]
    rw [tableInsides, if_pos (by simp), hkept, List.flatMap_cons, List.map_append,
      pieces_row t (hrows first List.mem_cons_self), List.map_flatMap, hrest, List.map_cons,
      List.headD_cons, List.map_cons, List.drop_succ_cons, List.drop_succ_cons, List.drop_zero,
      List.flatMap_map]

/-- **The lines of a draft, one after the other.** -/
theorem Reads.foldl (t : Python.Tables) (rows lines : List (List Char)) (h : st.Reads texts)
    (hrows : ∀ row ∈ rows, isTableRow row = true)
    (htable : st.table = rows.map fun raw => strip (rstrip raw)) :
    (lines.foldl (Converter.step t) st).flushList.flushTable.Reads
        (texts ++ ((shown rows lines).flatMap (pieces t)).map inlineHtml) ∧
      (lines.foldl (Converter.step t) st).flushList.flushTable.listType = none := by
  induction lines generalizing st rows texts with
  | nil =>
    obtain ⟨hflush, hlist, hflushTable⟩ := h.flushList
    obtain ⟨hreads, -, hlist'⟩ := hflush.flushTable
    rw [hflushTable, htable, tableInsides_eq t hrows] at hreads
    exact ⟨hreads, hlist'.trans hlist⟩
  | cons line lines ih =>
    rw [List.foldl_cons, shown]
    split_ifs with hline
    · -- the row is added to the open table
      obtain ⟨hreads, htable'⟩ := h.step_row t hline
      refine ih _ hreads (List.forall_mem_append.2 ⟨hrows, List.forall_mem_singleton.2 hline⟩) ?_
      rw [htable', htable, List.map_append, List.map_singleton]
    · -- the line shows the table, and then itself
      obtain ⟨hreads, htable'⟩ := h.step_line t (Bool.eq_false_iff.2 hline)
      have hrest := ih [] hreads (by simp) htable'
      rw [htable, tableInsides_eq t hrows] at hrest
      simpa [List.append_assoc] using hrest

end Converter

/-- Blocks on lines of their own. -/
theorem closed_intercalate {blocks : List (List Char)}
    (h : ∀ block ∈ blocks, Closed textTags block (insides block)) :
    Closed textTags (['\n'].intercalate blocks) (blocks.flatMap insides) := by
  induction blocks with
  | nil => exact .nil
  | cons block blocks ih =>
    obtain ⟨hblock, hblocks⟩ := List.forall_mem_cons.1 h
    cases blocks with
    | nil => simpa using hblock
    | cons next blocks =>
      rw [List.intercalate_cons_cons, List.flatMap_cons, List.append_assoc]
      have hnewline : Closed textTags ['\n'] [] := .char (by decide)
      exact hblock.append (hnewline.append (ih hblocks))

/-- **The converter shows the contents of the lines that it keeps, in order.** -/
theorem insides_markdownToHtml (t : Python.Tables) (markdown : List Char) :
    insides (markdownToHtml t markdown) =
      ((shown [] (draftLines markdown)).flatMap (pieces t)).map inlineHtml := by
  have hstart : ({} : Converter).Reads [] :=
    ⟨by simp, by simp, fun _ => rfl, fun _ => rfl, rfl⟩
  obtain ⟨hreads, hlist⟩ := hstart.foldl t [] (draftLines markdown) (by simp) rfl
  have htexts := hreads.texts_eq
  rw [hreads.noItems hlist, List.append_nil, List.nil_append] at htexts
  exact (closed_intercalate hreads.closed).innerTexts_eq.trans htexts

/-! ## Counting contents -/

theorem dashed_append (front behind : List Char) :
    dashed (front ++ behind) = (dashed front && dashed behind) := List.all_append

theorem dashed_wrap (tag inner : List Char) : dashed (wrap tag inner) = false := rfl

/-- A substitution that finds nothing changes nothing. -/
theorem reSub_eq_or {found : Bool → List Char → Option (ℕ × List Char)} {start : Bool} {skip : ℕ}
    (hfound : ∀ start text result, found start text = some result → dashed result.2 = false) :
    reSub found start skip text = text.drop skip ∨
      dashed (reSub found start skip text) = false := by
  induction text generalizing start skip with
  | nil => exact .inl (List.drop_nil).symm
  | cons c text ih =>
    cases skip with
    | succ skip => exact ih
    | zero =>
      rw [reSub]
      cases hmatch : found start (c :: text) with
      | none =>
        have hrest : reSub found false 0 text = text.drop 0 ∨
            dashed (reSub found false 0 text) = false := ih
        refine hrest.imp (congrArg (c :: ·)) fun h => ?_
        rw [dashed, List.all_cons, ← dashed, h, Bool.and_false]
      | some result =>
        refine .inr ?_
        rw [dashed_append, hfound _ _ _ hmatch, Bool.false_and]

theorem dashed_strongAt (start : Bool) (text : List Char) (result : ℕ × List Char)
    (h : strongAt (wrap "strong".toList) start text = some result) : dashed result.2 = false := by
  unfold strongAt at h
  split at h
  · simp only at h
    split_ifs at h
    obtain rfl := Option.some.inj h
    exact dashed_wrap _ _
  · exact absurd h nofun

theorem dashed_emAt (start : Bool) (text : List Char) (result : ℕ × List Char)
    (h : emAt (wrap "em".toList) start text = some result) : dashed result.2 = false := by
  cases text with
  | nil => exact absurd h nofun
  | cons c text =>
    rw [emAt] at h
    split_ifs at h
    · obtain ⟨group, -, rfl⟩ := Option.map_eq_some_iff.1 h
      exact dashed_wrap _ _
    · obtain ⟨group, -, rfl⟩ := Option.map_eq_some_iff.1 h
      rw [dashed, List.all_cons, ← dashed, dashed_wrap, Bool.and_false]

/-- Escaping changes no dash and no colon, and leaves no other text of these. -/
theorem dashed_escape (text : List Char) : dashed (escape text) = dashed text := by
  induction text with
  | nil => rfl
  | cons c text ih =>
    have hchar : dashed (escapeChar c) = (c == '-' || c == ':') := by
      unfold escapeChar
      split_ifs with hamp hlt hgt hquote hapostrophe
      · subst hamp; decide
      · subst hlt; decide
      · subst hgt; decide
      · subst hquote; decide
      · subst hapostrophe; decide
      · simp [dashed]
    rw [escape_cons, dashed_append, ih, hchar]
    rfl

theorem dashed_inlineHtml (text : List Char) : dashed (inlineHtml text) = dashed text := by
  have hescape := dashed_escape text
  unfold inlineHtml substitute
  cases htext : dashed text with
  | true =>
    rw [htext] at hescape
    -- no asterisk, so nothing is substituted
    have hstar : '*' ∉ escape text := fun hmem =>
      absurd (List.all_eq_true.1 hescape _ hmem) (by decide)
    rw [reSub_strong_last hstar, reSub_em_last hstar, hescape]
  | false =>
    rw [htext] at hescape
    -- a tag is more than dashes and colons
    set strongs := reSub (strongAt (wrap "strong".toList)) true 0 (escape text) with hstrongs
    have hfirst : dashed strongs = false := by
      rcases reSub_eq_or dashed_strongAt with h | h
      · rw [hstrongs, h, List.drop_zero, hescape]
      · exact h
    rcases reSub_eq_or dashed_emAt with h | h
    · rw [h, List.drop_zero, hfirst]
    · exact h

/-- How many contents of a line are more than dashes and colons. -/
def weight (t : Python.Tables) (raw : List Char) : ℕ :=
  (pieces t raw).countP fun text => !dashed text

theorem countP_flatMap_inlineHtml (t : Python.Tables) (lines : List (List Char)) :
    ((lines.flatMap (pieces t)).map inlineHtml).countP (fun text => !dashed text) =
      (lines.map (weight t)).sum := by
  have hcomp : (fun text => !dashed text) ∘ inlineHtml = fun text => !dashed text :=
    funext fun text => congrArg (!·) (dashed_inlineHtml text)
  rw [List.countP_map, hcomp, List.countP_flatMap]
  rfl

theorem weight_eq_zero_iff (t : Python.Tables) (hrow : isTableRow raw = true) :
    weight t raw = 0 ↔ isSeparator raw = true := by
  rw [weight, Converter.pieces_row t hrow, List.countP_eq_zero, isSeparator, hrow, Bool.true_and,
    List.all_eq_true]
  simp

/-- Separators weigh nothing. -/
theorem sum_weight_filter (t : Python.Tables) (lines : List (List Char)) :
    ((lines.filter fun raw => !isSeparator raw).map (weight t)).sum =
      (lines.map (weight t)).sum := by
  induction lines with
  | nil => rfl
  | cons line lines ih =>
    rw [List.filter_cons, List.map_cons, List.sum_cons]
    split_ifs with hline
    · rw [List.map_cons, List.sum_cons, ih]
    · have hseparator : isSeparator line = true := by simpa using hline
      have hrow : isTableRow line = true := (Bool.and_eq_true_iff.1 hseparator).1
      rw [ih, (weight_eq_zero_iff t hrow).2 hseparator, Nat.zero_add]

/-- **The PDF drops no content exactly when every table drops only separators.** -/
theorem pdf_drops_no_content_iff (t : Python.Tables) (markdown : List Char) :
    List.Sublist (contents t markdown) (insides (markdownToHtml t markdown)) ↔
      DropsSeparators (draftLines markdown) := by
  rw [dropsSeparators_iff, insides_markdownToHtml, contents]
  set lines := draftLines markdown with hlines
  constructor
  · -- what is shown and what is dropped weigh as much as all lines, so nothing dropped has weight
    intro hsub row hrow
    have hcount : List.countP (fun text => !dashed text) _ ≤ _ := hsub.countP_le
    rw [countP_flatMap_inlineHtml, countP_flatMap_inlineHtml, sum_weight_filter] at hcount
    have hsum := ((perm_lines [] lines).map (weight t)).sum_eq
    rw [List.map_append, List.sum_append, List.nil_append] at hsum
    have hweight : weight t row ≤ ((dropped [] lines).map (weight t)).sum :=
      List.le_sum_of_mem (List.mem_map_of_mem hrow)
    exact (weight_eq_zero_iff t (isTableRow_of_mem_dropped (by simp) row hrow)).1 (by omega)
  · -- without separators, the lines that are shown are all lines
    intro h
    have hfilter := filter_shown h
    rw [List.nil_append] at hfilter
    rw [hfilter]
    exact (List.filter_sublist.flatMap _).map _

end

/-- A table of one row: nothing of it is shown. -/
theorem pdf_drops_single_row :
    ¬∀ t markdown, List.Sublist (contents t markdown) (insides (markdownToHtml t markdown)) := by
  intro h
  have hdraft := h ascii "| Total | 100 |".toList
  have hcontents : contents ascii "| Total | 100 |".toList = ["Total".toList, "100".toList] := by
    decide
  have hhtml : markdownToHtml ascii "| Total | 100 |".toList = [] := by decide
  rw [hcontents, hhtml] at hdraft
  exact absurd hdraft.length_le (by decide)

end Rfp

end TrackFlow
