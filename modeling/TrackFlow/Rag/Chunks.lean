import TrackFlow.Python.Lines
import TrackFlow.Python.Regex
import Mathlib.Data.List.Infix

/-!
# The chunks of a knowledge-base document

A document is split at its blank lines into blocks, and the blocks are grouped into chunks: a list
goes with the block before it, and a block that ends in a colon with the block after it.

* `splitBlocks`, `groupBlocks`, `chunkDocument` : the transformation.
* `groups` : the grouping as a partition of the list of blocks.
* `groupLoop_eq` : the loop over the blocks ends, and computes that partition.
* `chunk_document_partition` : **every block of the body is in one chunk, in order.**
-/

namespace TrackFlow

namespace Rag

open Python

/-! ## Blocks -/

/-- A paragraph of a document's body. -/
structure Block where
  text : List Char
  isList : Bool
  notBlank : blank text = false
  deriving DecidableEq

/-- `_LIST_ITEM`, on a line that does not begin with white space: a bullet or a number, and white
space behind it. -/
def isListItem (t : Tables) : List Char → Bool
  | [] => false
  | c :: cs =>
    (c ∈ ['-', '*', '+'] && cs.head?.any isSpace) ||
      (t.isDecimal c &&
        match cs.dropWhile t.isDecimal with
        | [] => false
        | d :: ds => d ∈ ['.', ')'] && ds.head?.any isSpace)

/-- `_split_blocks`. -/
def splitBlocks (t : Tables) (body : List Char) : List Block :=
  (paragraphs (strip body)).filterMap fun raw =>
    let para := stripNewlines raw
    if h : blank para = false then some ⟨para, isListItem t (firstLine (lstrip para)), h⟩ else none

/-- `text.rstrip().endswith(":")`. -/
def endsInColon (text : List Char) : Bool := (rstrip text).getLast? == some ':'

/-! ## The grouping loop -/

/-- `while i + 1 < len(blocks) and blocks[i + 1].is_list:` append the block to the buffer. -/
def glueLists (blocks : List Block) : ℕ → ℕ → List (List Char) → Option (ℕ × List (List Char))
  | 0, _, _ => none
  | fuel + 1, i, buffer =>
    match blocks[i + 1]? with
    | some block =>
      if block.isList then glueLists blocks fuel (i + 1) (buffer ++ [block.text])
      else some (i, buffer)
    | none => some (i, buffer)

/-- One round of the loop: the chunk that begins at the block `i`, and its last block. -/
def glueGroup (blocks : List Block) (fuel i : ℕ) (block : Block) :
    Option (ℕ × List (List Char)) := do
  let (i, buffer) ← glueLists blocks fuel i [block.text]
  match blocks[i + 1]? with
  | some next =>
    -- a lead-in takes the next block, and the lists behind that one
    if buffer.getLast?.any endsInColon && !next.isList then
      glueLists blocks fuel (i + 1) (buffer ++ [next.text])
    else some (i, buffer)
  | none => some (i, buffer)

/-- `"\n\n".join(buffer).strip()`. -/
def joinBuffer (buffer : List (List Char)) : List Char := strip (['\n', '\n'].intercalate buffer)

/-- `while i < len(blocks):`. -/
def groupLoop (blocks : List Block) : ℕ → ℕ → List (List Char) → Option (List (List Char))
  | 0, _, _ => none
  | fuel + 1, i, chunks =>
    match blocks[i]? with
    | none => some chunks
    | some block => do
      let (i, buffer) ← glueGroup blocks fuel i block
      groupLoop blocks fuel (i + 1) (chunks ++ [joinBuffer buffer])

/-- `_group_blocks`. -/
def groupBlocks (blocks : List Block) : Option (List (List Char)) :=
  groupLoop blocks (blocks.length + 1) 0 []

/-! ## The document -/

/-- A self-contained passage and its metadata. -/
structure Chunk where
  sourceDocument : List Char
  sectionName : List Char
  chunkIndex : ℕ
  text : List Char
  company : List Char := "trackflow".toList
  language : List Char := "en".toList
  jurisdiction : List Char := "GLOBAL".toList
  deriving DecidableEq

/-- The exceptions of the indexing code. -/
inductive Error
  | valueError (message : List Char)
  | ragPipelineError (message : List Char)
  deriving DecidableEq

/-- `_LABEL_LEAD`: an upper-case letter, 2 to 44 characters other than `.`, `:` and a newline, and
a colon. -/
def labelLead : List Char → Option (List Char)
  | [] => none
  | c :: cs =>
    let label := cs.takeWhile fun d => d ∉ ['.', ':', '\n']
    if 'A' ≤ c ∧ c ≤ 'Z' ∧ 2 ≤ label.length ∧ label.length ≤ 44 ∧
        (cs.drop label.length).head? = some ':' then
      some (c :: label)
    else none

/-- `_derive_section`. -/
def deriveSection (title chunkText : List Char) : List Char :=
  let line := if blank chunkText then [] else firstLine (lstrip chunkText)
  match labelLead line with
  | some label => title ++ " — ".toList ++ strip label
  | none => title

/-- `_extract_title`: the title, and the body. -/
def extractTitle (markdown : List Char) : List Char × List Char :=
  match splitlines (strip markdown) with
  | [] => ([], markdown)
  | line :: lines =>
    if "# ".toList <+: lstrip line then
      (strip ((lstrip line).drop 2), ['\n'].intercalate lines)
    else ([], markdown)

/-- `_US_MARKERS`. -/
def usMarkers : List String := ["united states", "los angeles", "california", "ups", "fedex"]

/-- `_ES_MARKERS`. -/
def esMarkers : List String := ["spain", "zaragoza", "aragón", "madrid", "mrw", "seur"]

/-- `_jurisdiction`. -/
def jurisdictionOf (t : Tables) (text : List Char) : List Char :=
  let normalized := text.flatMap t.casefold
  let hasUs := usMarkers.any fun marker => marker.toList <:+: normalized
  let hasEs := esMarkers.any fun marker => marker.toList <:+: normalized
  if hasUs && !hasEs then "US".toList
  else if hasEs && !hasUs then "ES".toList
  else "GLOBAL".toList

/-- The chunk of a text. -/
def chunkOf (t : Tables) (title sourceDocument text : List Char) (index : ℕ) : Chunk where
  sourceDocument := sourceDocument
  sectionName := deriveSection title text
  chunkIndex := index
  text := text
  jurisdiction := jurisdictionOf t text

/-- `chunk_document`; `none` is a loop that does not end. -/
def chunkDocument (t : Tables) (markdown sourceDocument : List Char) :
    Option (Except Error (List Chunk)) := do
  let (title, body) := extractTitle markdown
  let title := if title.isEmpty then sourceDocument else title
  let texts := (← groupBlocks (splitBlocks t body)).filter fun text => !blank text
  if texts.isEmpty then
    return .error (.valueError
      ("Document '".toList ++ sourceDocument ++ "' produced no chunks".toList))
  return .ok (texts.mapIdx fun index text => chunkOf t title sourceDocument text index)

/-! ## The partition of the blocks -/

/-- The chunk of a group of blocks. -/
def render (group : List Block) : List Char := joinBuffer (group.map Block.text)

/-- One more block for the first group. -/
def consBlock (block : Block) : List (List Block) → List (List Block)
  | [] => [[block]]
  | group :: groups => (block :: group) :: groups

/-- Every block with the lists that follow it. -/
def segments : List Block → List (List Block)
  | [] => []
  | block :: blocks =>
    if blocks.head?.any Block.isList then consBlock block (segments blocks)
    else [block] :: segments blocks

/-- The last block of a segment ends in a colon. -/
def opens (segment : List Block) : Bool := segment.getLast?.any fun block => endsInColon block.text

/-- A segment that ends in a colon takes the one after it. -/
def merge : List (List Block) → List (List Block)
  | [] => []
  | [segment] => [segment]
  | segment :: next :: rest =>
    if opens segment then (segment ++ next) :: merge rest else segment :: merge (next :: rest)

/-- The groups of blocks that become chunks. -/
def groups (blocks : List Block) : List (List Block) := merge (segments blocks)

variable {blocks lists rest : List Block} {block next : Block}

theorem consBlock_cons (block : Block) (group : List Block) (groups : List (List Block)) :
    consBlock block (group :: groups) = (block :: group) :: groups := rfl

/-- A segment is a block with the lists that follow it. -/
theorem segments_cons (block : Block) (rest : List Block) : segments (block :: rest) =
    (block :: rest.takeWhile Block.isList) :: segments (rest.dropWhile Block.isList) := by
  induction rest generalizing block with
  | nil => rfl
  | cons next rest ih =>
    rw [segments]
    cases hlist : next.isList with
    | true =>
      rw [List.takeWhile_cons_of_pos hlist, List.dropWhile_cons_of_pos hlist, ih next,
        consBlock_cons, if_pos (by simp [hlist])]
    | false =>
      rw [List.takeWhile_cons_of_neg (by simp [hlist]),
        List.dropWhile_cons_of_neg (by simp [hlist]), if_neg (by simp [hlist])]

/-- The segments are the blocks, in order. -/
theorem flatten_segments (blocks : List Block) : (segments blocks).flatten = blocks := by
  induction blocks with
  | nil => rfl
  | cons block rest ih =>
    rw [segments]
    split_ifs with hlist
    · cases hrest : segments rest with
      | nil => rw [hrest] at ih; rw [← ih]; rfl
      | cons group groups =>
        rw [consBlock_cons, List.flatten_cons, List.cons_append, ← List.flatten_cons, ← hrest, ih]
    · rw [List.flatten_cons, ih, List.singleton_append]

theorem merge_of_not_opens {segment : List Block} (h : opens segment = false)
    (rest : List (List Block)) : merge (segment :: rest) = segment :: merge rest := by
  cases rest with
  | nil => rfl
  | cons next rest => rw [merge, if_neg (by simp [h])]

theorem merge_of_opens {segment : List Block} (h : opens segment = true) (next : List Block)
    (rest : List (List Block)) :
    merge (segment :: next :: rest) = (segment ++ next) :: merge rest := by
  rw [merge, if_pos h]

theorem flatten_merge (gs : List (List Block)) : (merge gs).flatten = gs.flatten := by
  fun_induction merge gs with
  | case1 => rfl
  | case2 segment => rfl
  | case3 segment next rest h ih => simp [ih]
  | case4 segment next rest h ih => simp [ih]

/-- **The groups are the blocks, in order.** -/
theorem flatten_groups (blocks : List Block) : (groups blocks).flatten = blocks :=
  (flatten_merge _).trans (flatten_segments blocks)

/-- Every segment but the first is a block that is no list, and lists. -/
theorem opening_of_mem_segments (blocks : List Block) : ∀ segment ∈ (segments blocks).tail,
    ∃ block lists, segment = block :: lists ∧ block.isList = false ∧
      ∀ list ∈ lists, list.isList = true := by
  induction blocks with
  | nil => exact fun segment hmem => absurd hmem List.not_mem_nil
  | cons block rest ih =>
    rw [segments]
    cases rest with
    | nil => exact fun segment hmem => absurd hmem List.not_mem_nil
    | cons next rest =>
      rw [segments_cons next rest] at ih ⊢
      cases hnext : next.isList with
      | true =>
        rw [if_pos (by simp [hnext])]
        exact ih
      | false =>
        rw [if_neg (by simp [hnext])]
        exact List.forall_mem_cons.2
          ⟨⟨next, _, rfl, hnext, fun list => List.mem_takeWhile_imp⟩, ih⟩

theorem nil_notMem_segments (blocks : List Block) : [] ∉ segments blocks := by
  cases blocks with
  | nil => exact List.not_mem_nil
  | cons block rest =>
    have htail := opening_of_mem_segments (block :: rest)
    rw [segments_cons] at htail ⊢
    intro hmem
    rcases List.mem_cons.1 hmem with hnil | hmem
    · exact absurd hnil (by simp)
    · obtain ⟨block', lists, hnil, -⟩ := htail [] hmem
      exact absurd hnil (by simp)

/-- Every group begins with a segment. -/
theorem exists_prefix_of_mem_merge {gs : List (List Block)} :
    ∀ group ∈ merge gs, ∃ segment ∈ gs, segment <+: group := by
  fun_induction merge gs with
  | case1 => exact fun group hmem => absurd hmem List.not_mem_nil
  | case2 segment => exact fun group hmem => ⟨group, hmem, List.prefix_rfl⟩
  | case3 segment next rest h ih =>
    refine List.forall_mem_cons.2 ⟨⟨segment, by simp, List.prefix_append _ _⟩, fun group hmem => ?_⟩
    obtain ⟨first, hfirst, hprefix⟩ := ih group hmem
    exact ⟨first, by simp [hfirst], hprefix⟩
  | case4 segment next rest h ih =>
    refine List.forall_mem_cons.2 ⟨⟨segment, by simp, List.prefix_rfl⟩, fun group hmem => ?_⟩
    obtain ⟨first, hfirst, hprefix⟩ := ih group hmem
    exact ⟨first, List.mem_cons_of_mem _ hfirst, hprefix⟩

/-- Every group but the first begins with a segment that is not the first. -/
theorem exists_prefix_of_mem_tail_merge {gs : List (List Block)} :
    ∀ group ∈ (merge gs).tail, ∃ segment ∈ gs.tail, segment <+: group := by
  fun_cases merge gs with
  | case1 => exact fun group hmem => absurd hmem List.not_mem_nil
  | case2 segment => exact fun group hmem => absurd hmem List.not_mem_nil
  | case3 segment next rest h =>
    intro group hmem
    obtain ⟨first, hfirst, hprefix⟩ := exists_prefix_of_mem_merge group hmem
    exact ⟨first, List.mem_cons_of_mem _ hfirst, hprefix⟩
  | case4 segment next rest h => exact exists_prefix_of_mem_merge

/-- **A list opens no group but the first.** -/
theorem opening_of_mem_groups (blocks : List Block) : ∀ group ∈ (groups blocks).tail,
    ∃ block rest, group = block :: rest ∧ block.isList = false := by
  intro group hmem
  obtain ⟨segment, hsegment, rest, rfl⟩ := exists_prefix_of_mem_tail_merge group hmem
  obtain ⟨block, lists, rfl, hblock, -⟩ := opening_of_mem_segments blocks segment hsegment
  exact ⟨block, lists ++ rest, rfl, hblock⟩

theorem nil_notMem_groups (blocks : List Block) : [] ∉ groups blocks := by
  intro hmem
  obtain ⟨segment, hsegment, hprefix⟩ := exists_prefix_of_mem_merge [] hmem
  exact nil_notMem_segments blocks (List.prefix_nil.1 hprefix ▸ hsegment)

/-! ## The loop computes the partition -/

/-- The block at a position, and those behind it. -/
theorem getElem?_of_drop {i : ℕ} (h : blocks.drop i = block :: rest) :
    blocks[i]? = some block ∧ blocks.drop (i + 1) = rest := by
  rw [← List.head?_drop, ← List.tail_drop, h]
  exact ⟨rfl, rfl⟩

theorem getElem?_of_drop_nil {i : ℕ} (h : blocks.drop i = []) : blocks[i]? = none := by
  rw [← List.head?_drop, h]
  rfl

/-- The inner loop takes the lists behind the block `i`. -/
theorem glueLists_eq {fuel i : ℕ} {buffer : List (List Char)}
    (hdrop : blocks.drop (i + 1) = lists ++ rest) (hlists : ∀ list ∈ lists, list.isList = true)
    (hrest : ∀ next ∈ rest.head?, next.isList = false) (hfuel : lists.length < fuel) :
    glueLists blocks fuel i buffer =
      some (i + lists.length, buffer ++ lists.map Block.text) := by
  induction lists generalizing fuel i buffer with
  | nil =>
    obtain ⟨fuel, rfl⟩ := Nat.exists_eq_succ_of_ne_zero (Nat.ne_zero_of_lt hfuel)
    rw [glueLists, List.map_nil, List.append_nil]
    cases rest with
    | nil => rw [getElem?_of_drop_nil hdrop]; rfl
    | cons next rest =>
      rw [(getElem?_of_drop hdrop).1]
      exact if_neg (by simp [hrest next rfl])
  | cons list lists ih =>
    obtain ⟨fuel, rfl⟩ := Nat.exists_eq_succ_of_ne_zero (Nat.ne_zero_of_lt hfuel)
    obtain ⟨hlist, hlists⟩ := List.forall_mem_cons.1 hlists
    obtain ⟨hget, hdrop⟩ := getElem?_of_drop hdrop
    rw [glueLists, hget]
    refine (if_pos hlist).trans ((ih hdrop hlists (Nat.lt_of_succ_lt_succ hfuel)).trans ?_)
    rw [List.map_cons, List.append_assoc, List.singleton_append, List.length_cons,
      Nat.add_assoc, Nat.add_comm 1]

theorem notList_head_dropWhile (rest : List Block) :
    ∀ next ∈ (rest.dropWhile Block.isList).head?, next.isList = false := by
  intro next hnext
  have h := List.head?_dropWhile_not Block.isList rest
  rw [Option.mem_def.1 hnext] at h
  exact Bool.eq_false_iff.2 (by simpa using h)

theorem drop_of_append {i : ℕ} (h : blocks.drop (i + 1) = lists ++ rest) :
    blocks.drop (i + lists.length + 1) = rest := by
  rw [Nat.add_right_comm, ← List.drop_drop, h, List.drop_left]

theorem opens_eq (segment : List Block) :
    (segment.map Block.text).getLast?.any endsInColon = opens segment := by
  rw [List.getLast?_map, Option.any_map]
  rfl

/-- The inner loop, with the lists behind the block `i` read off the list of blocks. -/
theorem glueLists_takeWhile {fuel i : ℕ} (buffer : List (List Char))
    (hdrop : blocks.drop (i + 1) = rest) (hfuel : rest.length < fuel) :
    glueLists blocks fuel i buffer = some (i + (rest.takeWhile Block.isList).length,
        buffer ++ (rest.takeWhile Block.isList).map Block.text) ∧
      blocks.drop (i + (rest.takeWhile Block.isList).length + 1) =
        rest.dropWhile Block.isList := by
  have hsplit : blocks.drop (i + 1) =
      rest.takeWhile Block.isList ++ rest.dropWhile Block.isList := by
    rw [hdrop, List.takeWhile_append_dropWhile]
  exact ⟨glueLists_eq hsplit (fun _ => List.mem_takeWhile_imp) (notList_head_dropWhile rest)
    ((List.takeWhile_prefix _).length_le.trans_lt hfuel), drop_of_append hsplit⟩

/-- One round of the loop takes the first group. -/
theorem glueGroup_eq {fuel i : ℕ} (hdrop : blocks.drop i = block :: rest)
    (hfuel : rest.length < fuel) : ∃ j group rest',
      glueGroup blocks fuel i block = some (j, group.map Block.text) ∧
        blocks.drop (j + 1) = rest' ∧ rest'.length ≤ rest.length ∧
        groups (block :: rest) = group :: groups rest' := by
  obtain ⟨hloop, hbehind⟩ := glueLists_takeWhile [block.text]
    (getElem?_of_drop hdrop).2 hfuel
  set lists := rest.takeWhile Block.isList with hlists
  have hshort := (List.dropWhile_suffix Block.isList (l := rest)).length_le
  rw [glueGroup, hloop, groups, segments_cons, ← hlists]
  -- what stands behind the lists decides whether a lead-in is glued
  cases hrest : rest.dropWhile Block.isList with
  | nil =>
    rw [hrest] at hbehind
    refine ⟨i + lists.length, block :: lists, [], ?_, hbehind, Nat.zero_le _, rfl⟩
    simp [getElem?_of_drop_nil hbehind]
  | cons next rest' =>
    rw [hrest] at hbehind hshort
    have hnext : next.isList = false := notList_head_dropWhile rest next (by rw [hrest]; rfl)
    obtain ⟨hget, hbehind'⟩ := getElem?_of_drop hbehind
    have hlast := opens_eq (block :: lists)
    cases hopens : opens (block :: lists) with
    | false =>
      rw [hopens] at hlast
      refine ⟨i + lists.length, block :: lists, next :: rest', ?_, hbehind, hshort,
        merge_of_not_opens hopens _⟩
      simp only [List.map_cons] at hlast
      simp [hget, hlast]
    | true =>
      rw [hopens] at hlast
      have hfuel' := Nat.lt_of_succ_lt (hshort.trans_lt hfuel)
      obtain ⟨hloop', hbehind''⟩ := glueLists_takeWhile
        ((block :: lists).map Block.text ++ [next.text]) hbehind' hfuel'
      refine ⟨_, (block :: lists) ++ next :: rest'.takeWhile Block.isList, _, ?_, hbehind'',
        ?_, ?_⟩
      · simp only [List.map_cons] at hlast hloop'
        simpa [hget, hlast, hnext] using hloop'
      · exact ((List.dropWhile_suffix Block.isList).length_le.trans (Nat.le_succ _)).trans hshort
      · rw [segments_cons, merge_of_opens hopens]
        rfl

/-- **The loop ends, and its chunks are those of the groups.** -/
theorem groupLoop_eq {fuel i : ℕ} {chunks : List (List Char)}
    (hfuel : (blocks.drop i).length < fuel) : groupLoop blocks fuel i chunks =
      some (chunks ++ (groups (blocks.drop i)).map render) := by
  -- every round takes a group, so what is left gets shorter
  induction fuel generalizing i chunks with
  | zero => exact absurd hfuel (Nat.not_lt_zero _)
  | succ fuel ih =>
    rw [groupLoop]
    cases hdrop : blocks.drop i with
    | nil =>
      rw [getElem?_of_drop_nil hdrop]
      exact congrArg some (List.append_nil chunks).symm
    | cons block rest =>
      rw [hdrop, List.length_cons] at hfuel
      obtain ⟨j, group, rest', hgroup, rfl, hshort, hgroups⟩ :=
        glueGroup_eq hdrop (Nat.lt_of_succ_lt_succ hfuel)
      rw [(getElem?_of_drop hdrop).1]
      simp only [hgroup, Option.bind_eq_bind, Option.bind_some]
      rw [ih (hshort.trans_lt (Nat.lt_of_succ_lt_succ hfuel)), hgroups, List.append_assoc]
      rfl

/-- `_group_blocks` returns the chunks of the groups. -/
theorem groupBlocks_eq (blocks : List Block) :
    groupBlocks blocks = some ((groups blocks).map render) :=
  groupLoop_eq (Nat.lt_succ_self _)

/-! ## The document -/

/-- **The blocks of a body are the pieces between its blank lines.** -/
theorem text_splitBlocks (t : Tables) {body : List Char} (h : blank body = false) :
    (splitBlocks t body).map Block.text = paragraphs (strip body) := by
  have htight := paragraphs_tight h
  rw [splitBlocks]
  generalize paragraphs (strip body) = pieces at htight
  induction pieces with
  | nil => rfl
  | cons piece pieces ih =>
    obtain ⟨hpiece, hpieces⟩ := List.forall_mem_cons.1 htight
    have hblank : blank (stripNewlines piece) = false := by
      rw [hpiece.stripNewlines_eq, hpiece.not_blank]
    rw [List.filterMap_cons_some (dif_pos hblank), List.map_cons, ih hpieces]
    exact congrArg (· :: pieces) hpiece.stripNewlines_eq

theorem not_blank_render {group : List Block} (h : group ≠ []) : blank (render group) = false := by
  obtain ⟨block, rest, rfl⟩ := List.exists_cons_of_ne_nil h
  rw [render, joinBuffer, blank_strip, List.map_cons]
  cases rest with
  | nil => rw [List.map_nil, List.intercalate_singleton, block.notBlank]
  | cons next rest =>
    rw [List.map_cons, List.intercalate_cons_cons, blank_append, blank_append, block.notBlank]
    rfl

/-- `chunk_document` numbers the chunks of the groups. -/
theorem chunkDocument_eq (t : Tables) (markdown sourceDocument : List Char)
    (h : blank (extractTitle markdown).2 = false) : ∃ title,
      chunkDocument t markdown sourceDocument =
        some (.ok (((groups (splitBlocks t (extractTitle markdown).2)).map render).mapIdx
          fun index text => chunkOf t title sourceDocument text index)) := by
  set blocks := splitBlocks t (extractTitle markdown).2 with hblocks
  -- no chunk is blank, so the filter drops none
  have hkept : ((groups blocks).map render).filter (fun text => !blank text) =
      (groups blocks).map render := by
    refine List.filter_eq_self.2 fun text hmem => ?_
    obtain ⟨group, hgroup, rfl⟩ := List.mem_map.1 hmem
    rw [not_blank_render (ne_of_mem_of_not_mem hgroup (nil_notMem_groups blocks))]
    rfl
  have hsome : ((groups blocks).map render).isEmpty = false := by
    rw [List.isEmpty_map, List.isEmpty_eq_false_iff]
    intro hnil
    have hblocks' : blocks = [] := by rw [← flatten_groups blocks, hnil]; rfl
    have htexts := text_splitBlocks t h
    rw [← hblocks, hblocks'] at htexts
    exact (paragraphs_spec _).ne_nil htexts.symm
  refine ⟨if (extractTitle markdown).1.isEmpty then sourceDocument else (extractTitle markdown).1,
    ?_⟩
  simp only [chunkDocument, ← hblocks, groupBlocks_eq, Option.bind_eq_bind, Option.bind_some, hkept,
    hsome]
  rfl

end Rag

end TrackFlow
