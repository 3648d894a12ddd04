import TrackFlow.Python.Lines
import TrackFlow.Python.Regex
import TrackFlow.Rfp.Emphasis
import Mathlib.Tactic.IntervalCases

/-!
# The HTML of a proposal draft

`_markdown_to_html` reads a draft line by line: headings, bullet and numbered lists, pipe tables and
paragraphs.

* `markdownToHtml` : the converter.
* `Marked` : HTML of a forest over the converter's tags, with a given stock of characters.
* `draft_cannot_inject_markup` : **the converter's output is such HTML.**
-/

namespace TrackFlow

namespace Rfp

open Python Html

/-! ## Lines -/

/-- `str.strip("|")`. -/
def stripPipes (text : List Char) : List Char :=
  (text.dropWhile (· == '|')).rdropWhile (· == '|')

/-- `_cells`. -/
def cells (line : List Char) : List (List Char) :=
  ((stripPipes (strip line)).splitOn '|').map strip

/-- `^\s*\|.*\|\s*$`, on a line. -/
def isRow (line : List Char) : Bool :=
  2 ≤ (strip line).length && (strip line).head? == some '|' && (strip line).getLast? == some '|'

/-- `^(#{1,6})\s+(.*)$`: the number of hashes, and the second group. -/
def heading? (line : List Char) : Option (ℕ × List Char) :=
  let hashes := line.takeWhile (· == '#')
  let rest := line.drop hashes.length
  if 1 ≤ hashes.length ∧ hashes.length ≤ 6 ∧ rest.head?.any isSpace then
    some (hashes.length, lstrip rest)
  else none

/-- `^\s*[-*]\s+(.*)$` -/
def bullet? (line : List Char) : Option (List Char) :=
  match lstrip line with
  | [] => none
  | c :: rest => if c ∈ ['-', '*'] ∧ rest.head?.any isSpace then some (lstrip rest) else none

/-- `^\s*\d+\.\s+(.*)$` -/
def numbered? (t : Python.Tables) (line : List Char) : Option (List Char) :=
  let digits := (lstrip line).takeWhile t.isDecimal
  match (lstrip line).drop digits.length with
  | [] => none
  | c :: rest =>
    if digits ≠ [] ∧ c = '.' ∧ rest.head?.any isSpace then some (lstrip rest) else none

/-! ## The converter -/

/-- `list_type`. -/
inductive ListType
  | ul
  | ol
  deriving DecidableEq, Repr

/-- The name of a list's tag. -/
def ListType.name : ListType → List Char
  | ul => "ul".toList
  | ol => "ol".toList

/-- `_render_table`. -/
def renderTable (rows : List (List Char)) : List Char :=
  let header := (cells (rows.headD [])).flatMap fun cell => wrap "th".toList (inlineHtml cell)
  -- the second row is taken for the separator
  let body := (rows.drop 2).flatMap fun row =>
    wrap "tr".toList ((cells row).flatMap fun cell => wrap "td".toList (inlineHtml cell))
  wrap "table".toList (wrap "tr".toList header ++ body)

/-- The variables of `_markdown_to_html`. -/
structure Converter where
  out : List (List Char) := []
  listType : Option ListType := none
  listItems : List (List Char) := []
  table : List (List Char) := []

namespace Converter

/-- `out.append`. -/
def emit (st : Converter) (block : List Char) : Converter := { st with out := st.out ++ [block] }

/-- `flush_list`. -/
def flushList (st : Converter) : Converter :=
  match st.listType with
  | none => st
  | some listType =>
    { st.emit (wrap listType.name (st.listItems.flatMap (wrap "li".toList))) with
      listType := none
      listItems := [] }

/-- `flush_table`. -/
def flushTable (st : Converter) : Converter :=
  { (if 2 ≤ st.table.length then st.emit (renderTable st.table) else st) with table := [] }

/-- An item, in a list of its type. -/
def addItem (st : Converter) (listType : ListType) (item : List Char) : Converter :=
  let st := if st.listType = some listType then st
    else { st.flushList with listType := some listType }
  { st with listItems := st.listItems ++ [item] }

/-- A line of the draft. -/
def step (t : Python.Tables) (st : Converter) (raw : List Char) : Converter :=
  let line := rstrip raw
  -- `continue`: the table stays open
  if isRow line then { st.flushList with table := st.flushList.table ++ [strip line] }
  else
    let st := st.flushTable
    if blank line then st.flushList
    else
      match heading? line with
      | some (hashes, text) =>
        -- the headings begin at h3
        st.flushList.emit (wrap ('h' :: Nat.toDigits 10 (min (hashes + 2) 6)) (inlineHtml text))
      | none =>
        match bullet? line with
        | some text => st.addItem .ul (inlineHtml text)
        | none =>
          match numbered? t line with
          | some text => st.addItem .ol (inlineHtml text)
          | none => st.flushList.emit (wrap "p".toList (inlineHtml line))

end Converter

/-- The lines of a draft. -/
def draftLines (markdown : List Char) : List (List Char) := (replaceCrLf markdown).splitOn '\n'

/-- `_markdown_to_html`. -/
def markdownToHtml (t : Python.Tables) (markdown : List Char) : List Char :=
  let st := (draftLines markdown).foldl (Converter.step t) {}
  ['\n'].intercalate st.flushList.flushTable.out

/-! ## The tags of the converter -/

/-- The tags of the converter. -/
inductive Tag
  | strong
  | em
  | h3
  | h4
  | h5
  | h6
  | p
  | ul
  | ol
  | li
  | table
  | tr
  | th
  | td
  deriving DecidableEq, Repr

/-- The name of a tag. -/
def Tag.name : Tag → List Char
  | strong => "strong".toList
  | em => "em".toList
  | h3 => "h3".toList
  | h4 => "h4".toList
  | h5 => "h5".toList
  | h6 => "h6".toList
  | p => "p".toList
  | ul => "ul".toList
  | ol => "ol".toList
  | li => "li".toList
  | table => "table".toList
  | tr => "tr".toList
  | th => "th".toList
  | td => "td".toList

/-- HTML of texts of allowed characters, escaped, in elements with the converter's tags. -/
def Marked (allowed : Char → Prop) (html : List Char) : Prop :=
  ∃ forest : Forest Tag, html = forest.render Tag.name ∧ ∀ c ∈ forest.content, allowed c

section

variable {allowed : Char → Prop} {html html' text : List Char}

theorem Marked.nil : Marked allowed [] := ⟨.nil, rfl, fun _ hc => absurd hc List.not_mem_nil⟩

theorem Marked.append (h : Marked allowed html) (h' : Marked allowed html') :
    Marked allowed (html ++ html') := by
  obtain ⟨forest, rfl, hcontent⟩ := h
  obtain ⟨forest', rfl, hcontent'⟩ := h'
  refine ⟨forest.append forest', (Forest.render_append _ _ _).symm, fun c hc => ?_⟩
  rw [Forest.content_append, List.mem_append] at hc
  exact hc.elim (hcontent c) (hcontent' c)

theorem Marked.wrap (tag : Tag) (h : Marked allowed html) :
    Marked allowed (wrap tag.name html) := by
  obtain ⟨forest, rfl, hcontent⟩ := h
  refine ⟨.element tag forest .nil, (List.append_nil _).symm, fun c hc => ?_⟩
  rw [Forest.content, Forest.content, List.append_nil] at hc
  exact hcontent c hc

theorem Marked.flatMap {β : Type*} {parts : List β} {f : β → List Char}
    (h : ∀ part ∈ parts, Marked allowed (f part)) : Marked allowed (parts.flatMap f) := by
  induction parts with
  | nil => exact .nil
  | cons part parts ih =>
    obtain ⟨hpart, hparts⟩ := List.forall_mem_cons.1 h
    rw [List.flatMap_cons]
    exact hpart.append (ih hparts)

/-- A forest with the text `c` is kept by the tags of the emphasis. -/
theorem inlined_forest : Inlined fun s c =>
    ∃ forest : Forest Tag, s = forest.render Tag.name ∧ forest.content = c where
  nil := ⟨.nil, rfl, rfl⟩
  append := by
    rintro _ _ _ _ ⟨forest, rfl, rfl⟩ ⟨forest', rfl, rfl⟩
    exact ⟨forest.append forest', (Forest.render_append _ _ _).symm, Forest.content_append _ _⟩
  char c := ⟨.text [c] .nil, by simp [Forest.render, escape], rfl⟩
  strong := by
    rintro _ _ ⟨forest, rfl, rfl⟩
    exact ⟨.element .strong forest .nil, (List.append_nil _).symm, List.append_nil _⟩
  em := by
    rintro _ _ ⟨forest, rfl, rfl⟩
    exact ⟨.element .em forest .nil, (List.append_nil _).symm, List.append_nil _⟩

/-- The emphasised text is the text without its paired asterisks. -/
theorem inlineHtml_forest (text : List Char) :
    ∃ forest : Forest Tag, inlineHtml text = forest.render Tag.name ∧ forest.content = plain text :=
  inlined_forest.inlineHtml text

theorem Marked.inlineHtml (h : ∀ c ∈ text, allowed c) : Marked allowed (inlineHtml text) := by
  obtain ⟨forest, hrender, hcontent⟩ := inlineHtml_forest text
  exact ⟨forest, hrender, fun c hc => h c (plain_subset text (hcontent ▸ hc))⟩

/-! ## The characters of a line -/

theorem strip_subset (text : List Char) : strip text ⊆ text :=
  List.Subset.trans (List.rdropWhile_prefix _ _).subset (List.dropWhile_suffix _).subset

theorem lstrip_subset (text : List Char) : lstrip text ⊆ text := (List.dropWhile_suffix _).subset

theorem subset_intercalate {sep part : List Char} {parts : List (List Char)}
    (h : part ∈ parts) : part ⊆ sep.intercalate parts := by
  induction parts with
  | nil => exact absurd h List.not_mem_nil
  | cons first parts ih =>
    cases parts with
    | nil =>
      rw [List.intercalate_singleton, List.mem_singleton.1 h]
      exact List.Subset.refl _
    | cons second parts =>
      rw [List.intercalate_cons_cons]
      rcases List.mem_cons.1 h with rfl | h
      · exact List.Subset.trans (List.subset_append_left _ sep) (List.subset_append_left _ _)
      · exact List.Subset.trans (ih h) (List.subset_append_right _ _)

theorem subset_of_mem_splitOn {a : Char} {part : List Char} (h : part ∈ text.splitOn a) :
    part ⊆ text := by
  have hpart : part ⊆ [a].intercalate (text.splitOn a) := subset_intercalate h
  rwa [List.intercalate_splitOn] at hpart

theorem subset_of_mem_cells {cell : List Char} (h : cell ∈ cells text) : cell ⊆ text := by
  obtain ⟨part, hpart, rfl⟩ := List.mem_map.1 h
  refine List.Subset.trans (strip_subset part)
    (List.Subset.trans (subset_of_mem_splitOn hpart) ?_)
  exact List.Subset.trans (List.Subset.trans (List.rdropWhile_prefix _ _).subset
    (List.dropWhile_suffix _).subset) (strip_subset text)

theorem subset_of_heading {hashes : ℕ} {line : List Char}
    (h : heading? line = some (hashes, text)) :
    text ⊆ line ∧ 1 ≤ hashes ∧ hashes ≤ 6 := by
  simp only [heading?] at h
  split_ifs at h with hmatch
  obtain ⟨rfl, rfl⟩ := Prod.mk.inj (Option.some.inj h)
  exact ⟨List.Subset.trans (lstrip_subset _) (List.drop_subset _ _), hmatch.1, hmatch.2.1⟩

theorem subset_of_bullet {line : List Char} (h : bullet? line = some text) : text ⊆ line := by
  have hline := lstrip_subset line
  unfold bullet? at h
  split at h
  · cases h
  · next c rest hrest =>
    split_ifs at h
    obtain rfl := Option.some.inj h
    rw [hrest] at hline
    exact List.Subset.trans (lstrip_subset rest)
      (List.Subset.trans (List.subset_cons_self c rest) hline)

theorem subset_of_numbered {t : Python.Tables} {line : List Char}
    (h : numbered? t line = some text) :
    text ⊆ line := by
  have hline := lstrip_subset line
  simp only [numbered?] at h
  split at h
  · cases h
  · next c rest hrest =>
    split_ifs at h
    obtain rfl := Option.some.inj h
    have hdrop := List.drop_subset ((lstrip line).takeWhile t.isDecimal).length (lstrip line)
    rw [hrest] at hdrop
    exact List.Subset.trans (lstrip_subset rest)
      (List.Subset.trans (List.subset_cons_self c rest) (List.Subset.trans hdrop hline))

theorem replaceCrLf_subset (text : List Char) : replaceCrLf text ⊆ text := by
  fun_induction replaceCrLf text with
  | case1 text ih =>
    exact List.Subset.trans (List.cons_subset_cons _ ih) (List.subset_cons_self _ _)
  | case2 c text _ ih => exact List.cons_subset_cons c ih
  | case3 => exact List.Subset.refl _

/-! ## The tags nest -/

/-- The heading's tag is one of the converter's. -/
theorem exists_heading_tag {hashes : ℕ} (h : 1 ≤ hashes) (h' : hashes ≤ 6) :
    ∃ tag : Tag, tag.name = 'h' :: Nat.toDigits 10 (min (hashes + 2) 6) := by
  interval_cases hashes
  · exact ⟨.h3, by decide⟩
  · exact ⟨.h4, by decide⟩
  · exact ⟨.h5, by decide⟩
  · exact ⟨.h6, by decide⟩
  · exact ⟨.h6, by decide⟩
  · exact ⟨.h6, by decide⟩

theorem marked_renderTable {rows : List (List Char)} (h : ∀ row ∈ rows, ∀ c ∈ row, allowed c) :
    Marked allowed (renderTable rows) := by
  have hcell : ∀ row ∈ rows, ∀ cell ∈ cells row, Marked allowed (inlineHtml cell) :=
    fun row hrow cell hcell => .inlineHtml fun c hc => h row hrow c (subset_of_mem_cells hcell hc)
  have hheader : Marked allowed ((cells (rows.headD [])).flatMap fun cell =>
      wrap Tag.th.name (inlineHtml cell)) := by
    refine .flatMap fun cell hmem => .wrap .th ?_
    cases rows with
    | nil => exact .inlineHtml fun c hc => absurd (subset_of_mem_cells hmem hc) List.not_mem_nil
    | cons row rows => exact hcell row List.mem_cons_self cell hmem
  have hbody : Marked allowed ((rows.drop 2).flatMap fun row =>
      wrap Tag.tr.name ((cells row).flatMap fun cell => wrap Tag.td.name (inlineHtml cell))) := by
    refine .flatMap fun row hrow => .wrap .tr (.flatMap fun cell hmem => .wrap .td ?_)
    exact hcell row (List.drop_subset _ _ hrow) cell hmem
  exact .wrap .table (.append (.wrap .tr hheader) hbody)

/-- The HTML of a state, and the characters of its open table. -/
structure Converter.Sound (allowed : Char → Prop) (st : Converter) : Prop where
  out : ∀ block ∈ st.out, Marked allowed block
  items : ∀ item ∈ st.listItems, Marked allowed item
  table : ∀ row ∈ st.table, ∀ c ∈ row, allowed c

namespace Converter

variable {st : Converter}

theorem Sound.emit (h : st.Sound allowed) {block : List Char} (hblock : Marked allowed block) :
    (st.emit block).Sound allowed :=
  ⟨List.forall_mem_append.2 ⟨h.out, List.forall_mem_singleton.2 hblock⟩, h.items, h.table⟩

theorem Sound.flushList (h : st.Sound allowed) : st.flushList.Sound allowed := by
  unfold Converter.flushList
  cases st.listType with
  | none => exact h
  | some listType =>
    have hitems : Marked allowed (st.listItems.flatMap (wrap Tag.li.name)) :=
      .flatMap fun item hitem => .wrap .li (h.items item hitem)
    -- `list_type` is the name of a tag
    have hlist : Marked allowed (wrap listType.name (st.listItems.flatMap (wrap Tag.li.name))) := by
      cases listType with
      | ul => exact .wrap .ul hitems
      | ol => exact .wrap .ol hitems
    exact ⟨(h.emit hlist).out, fun item hitem => absurd hitem List.not_mem_nil, h.table⟩

theorem Sound.flushTable (h : st.Sound allowed) : st.flushTable.Sound allowed := by
  have hemit : (if 2 ≤ st.table.length then st.emit (renderTable st.table) else st).Sound
      allowed := by
    split_ifs
    · exact h.emit (marked_renderTable h.table)
    · exact h
  exact ⟨hemit.out, hemit.items, fun row hrow => absurd hrow List.not_mem_nil⟩

theorem Sound.addItem (h : st.Sound allowed) (listType : ListType) {item : List Char}
    (hitem : Marked allowed item) : (st.addItem listType item).Sound allowed := by
  have hlist : (if st.listType = some listType then st
      else { st.flushList with listType := some listType }).Sound allowed := by
    split_ifs
    · exact h
    · exact ⟨h.flushList.out, h.flushList.items, h.flushList.table⟩
  exact ⟨hlist.out, List.forall_mem_append.2 ⟨hlist.items, List.forall_mem_singleton.2 hitem⟩,
    hlist.table⟩

/-- A line of allowed characters. -/
theorem Sound.step (t : Python.Tables) (h : st.Sound allowed) {raw : List Char}
    (hraw : ∀ c ∈ raw, allowed c) : (st.step t raw).Sound allowed := by
  have hline : ∀ c ∈ rstrip raw, allowed c := fun c hc =>
    hraw c ((List.rdropWhile_prefix _ _).subset hc)
  unfold Converter.step
  simp only
  split_ifs with hrow hblank
  · refine ⟨h.flushList.out, h.flushList.items,
      List.forall_mem_append.2 ⟨h.flushList.table, List.forall_mem_singleton.2 fun c hc => ?_⟩⟩
    exact hline c (strip_subset _ hc)
  · exact h.flushTable.flushList
  · have h := h.flushTable
    cases hheading : heading? (rstrip raw) with
    | some match_ =>
      obtain ⟨hashes, text⟩ := match_
      obtain ⟨hsub, hlow, hhigh⟩ := subset_of_heading hheading
      obtain ⟨tag, htag⟩ := exists_heading_tag hlow hhigh
      have hinline : Marked allowed (inlineHtml text) := .inlineHtml fun c hc => hline c (hsub hc)
      exact h.flushList.emit (htag ▸ .wrap tag hinline)
    | none =>
      cases hbullet : bullet? (rstrip raw) with
      | some text =>
        exact h.addItem .ul (.inlineHtml fun c hc => hline c (subset_of_bullet hbullet hc))
      | none =>
        cases hnumbered : numbered? t (rstrip raw) with
        | some text =>
          exact h.addItem .ol (.inlineHtml fun c hc => hline c (subset_of_numbered hnumbered hc))
        | none => exact h.flushList.emit (.wrap .p (.inlineHtml hline))

theorem Sound.foldl (t : Python.Tables) {lines : List (List Char)} (h : st.Sound allowed)
    (hlines : ∀ line ∈ lines, ∀ c ∈ line, allowed c) :
    (lines.foldl (Converter.step t) st).Sound allowed := by
  induction lines generalizing st with
  | nil => exact h
  | cons line lines ih =>
    obtain ⟨hline, hlines⟩ := List.forall_mem_cons.1 hlines
    exact ih (h.step t hline) hlines

end Converter

/-- Blocks on lines of their own. -/
theorem Marked.intercalate (hnewline : allowed '\n') {blocks : List (List Char)}
    (h : ∀ block ∈ blocks, Marked allowed block) : Marked allowed (['\n'].intercalate blocks) := by
  have hmark : Marked allowed ['\n'] :=
    ⟨.text ['\n'] .nil, by decide, by simpa [Forest.content] using hnewline⟩
  induction blocks with
  | nil => exact .nil
  | cons block blocks ih =>
    obtain ⟨hblock, hblocks⟩ := List.forall_mem_cons.1 h
    cases blocks with
    | nil => rwa [List.intercalate_singleton]
    | cons next blocks =>
      rw [List.intercalate_cons_cons]
      exact (hblock.append hmark).append (ih hblocks)

end

end Rfp

end TrackFlow
