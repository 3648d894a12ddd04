import TrackFlow.Rag.Chunks

/-!
# Lead-ins

A block that ends in a colon introduces the block after it.  The grouping rule is applied once per
chunk: when the block after a lead-in is itself a lead-in, the chunk ends with it.

* `StrandsLeadIn` : the blocks contain two lead-ins in a row and a further block.
* `endsInColon_render` : a chunk ends in a colon when its last block does.
* `lead_in_kept_iff` : **a chunk other than the last one ends in a colon exactly then.**
* `lead_in_stranded` : a document with three blocks.
-/

namespace TrackFlow

namespace Rag

open Python

/-- A block that ends in a colon is followed by one that is no list and that, with its lists, ends
in a colon too, and by a further block that is no list. -/
def StrandsLeadIn (blocks : List Block) : Prop :=
  ∃ before lead block lists next behind,
    blocks = before ++ lead :: block :: (lists ++ next :: behind) ∧
      endsInColon lead.text = true ∧ block.isList = false ∧
      (∀ list ∈ lists, list.isList = true) ∧ opens (block :: lists) = true ∧ next.isList = false

/-! ## The last character of a chunk -/

variable {text : List Char}

/-- The last character that is not white space. -/
def lastVisible (text : List Char) : Option Char := text.reverse.find? fun c => !isSpace c

theorem endsInColon_eq (text : List Char) : endsInColon text = (lastVisible text == some ':') := by
  rw [endsInColon, rstrip, List.rdropWhile, List.getLast?_reverse, lastVisible,
    List.find?_not_eq_head?_dropWhile]

theorem lastVisible_append (front text : List Char) :
    lastVisible (front ++ text) = (lastVisible text).or (lastVisible front) := by
  rw [lastVisible, List.reverse_append, List.find?_append]
  rfl

theorem lastVisible_eq_none_iff : lastVisible text = none ↔ ∀ c ∈ text, isSpace c = true := by
  rw [lastVisible, List.find?_eq_none]
  simp

theorem lastVisible_strip (text : List Char) : lastVisible (strip text) = lastVisible text := by
  obtain ⟨before, behind, heq, hbefore, hbehind⟩ := exists_eq_strip text
  conv_rhs => rw [heq, lastVisible_append, lastVisible_append,
    lastVisible_eq_none_iff.2 hbefore, lastVisible_eq_none_iff.2 hbehind]
  rw [Option.none_or, Option.or_none]

/-- The last character of the last block. -/
theorem lastVisible_intercalate (block : Block) (rest : List Block) :
    lastVisible (['\n', '\n'].intercalate ((block :: rest).map Block.text)) =
      lastVisible ((block :: rest).getLast (List.cons_ne_nil _ _)).text := by
  induction rest generalizing block with
  | nil => rw [List.map_singleton, List.intercalate_singleton]; rfl
  | cons next rest ih =>
    have hsome : lastVisible ((next :: rest).getLast (List.cons_ne_nil _ _)).text ≠ none := by
      rw [Ne, lastVisible_eq_none_iff, ← List.all_eq_true]
      exact Bool.eq_false_iff.1 ((next :: rest).getLast (List.cons_ne_nil _ _)).notBlank
    obtain ⟨c, hc⟩ := Option.ne_none_iff_exists'.1 hsome
    rw [List.map_cons, List.map_cons, List.intercalate_cons_cons, lastVisible_append,
      ← List.map_cons, ih next, List.getLast_cons (List.cons_ne_nil _ _), hc, Option.some_or]

/-- A chunk ends in a colon when its last block does. -/
theorem endsInColon_render {group : List Block} (h : group ≠ []) :
    endsInColon (render group) = opens group := by
  obtain ⟨block, rest, rfl⟩ := List.exists_cons_of_ne_nil h
  rw [endsInColon_eq, render, joinBuffer, lastVisible_strip, lastVisible_intercalate,
    ← endsInColon_eq, opens, List.getLast?_eq_some_getLast (List.cons_ne_nil _ _), Option.any_some]

/-! ## Pairs of open segments -/

/-- Two segments in a row that end in a colon, and a further segment. -/
def HasOpenPair (gs : List (List Block)) : Prop :=
  ∃ before lead lead' next behind, gs = before ++ lead :: lead' :: next :: behind ∧
    opens lead = true ∧ opens lead' = true

theorem hasOpenPair_cons {segment : List Block} {gs : List (List Block)} :
    HasOpenPair (segment :: gs) ↔
      (∃ lead' next behind, gs = lead' :: next :: behind ∧ opens segment = true ∧
        opens lead' = true) ∨ HasOpenPair gs := by
  constructor
  · rintro ⟨before, lead, lead', next, behind, heq, hlead, hlead'⟩
    cases before with
    | nil =>
      obtain ⟨rfl, rfl⟩ := List.cons.inj heq
      exact .inl ⟨lead', next, behind, rfl, hlead, hlead'⟩
    | cons first before =>
      obtain ⟨rfl, rfl⟩ := List.cons.inj heq
      exact .inr ⟨before, lead, lead', next, behind, rfl, hlead, hlead'⟩
  · rintro (⟨lead', next, behind, rfl, hlead, hlead'⟩ |
      ⟨before, lead, lead', next, behind, rfl, hlead, hlead'⟩)
    · exact ⟨[], segment, lead', next, behind, rfl, hlead, hlead'⟩
    · exact ⟨segment :: before, lead, lead', next, behind, rfl, hlead, hlead'⟩

theorem hasOpenPair_cons_of_not_opens {segment : List Block} (h : opens segment = false)
    (gs : List (List Block)) : HasOpenPair (segment :: gs) ↔ HasOpenPair gs := by
  rw [hasOpenPair_cons]
  refine or_iff_right ?_
  rintro ⟨lead', next, behind, -, hopens, -⟩
  exact absurd hopens (by simp [h])

theorem hasOpenPair_cons_of_opens {segment : List Block} (h : opens segment = true)
    (next third : List Block) (gs : List (List Block)) :
    HasOpenPair (segment :: next :: third :: gs) ↔
      opens next = true ∨ HasOpenPair (next :: third :: gs) := by
  rw [hasOpenPair_cons]
  refine or_congr_left ⟨?_, fun hnext => ⟨next, third, gs, rfl, h, hnext⟩⟩
  rintro ⟨lead', next', behind, heq, -, hlead'⟩
  obtain ⟨rfl, -⟩ := List.cons.inj heq
  exact hlead'

theorem not_hasOpenPair_of_length {gs : List (List Block)} (h : gs.length < 3) :
    ¬HasOpenPair gs := by
  rintro ⟨before, lead, lead', next, behind, rfl, -⟩
  simp only [List.length_append, List.length_cons] at h
  omega

theorem opens_append {segment next : List Block} (h : next ≠ []) :
    opens (segment ++ next) = opens next := by
  rw [opens, List.getLast?_append_of_ne_nil _ h]
  rfl

theorem merge_ne_nil {gs : List (List Block)} (h : gs ≠ []) : merge gs ≠ [] := by
  fun_cases merge gs with
  | case1 => exact h
  | case2 segment => exact h
  | case3 => exact List.cons_ne_nil _ _
  | case4 => exact List.cons_ne_nil _ _

/-- The groups of segments that are not empty: one other than the last stays open exactly when
there is a pair of open segments before a further one. -/
theorem merge_closed_iff (gs : List (List Block)) (hne : [] ∉ gs) :
    (∀ group ∈ (merge gs).dropLast, opens group = false) ↔ ¬HasOpenPair gs := by
  fun_induction merge gs with
  | case1 =>
    exact iff_of_true (fun group hmem => absurd hmem List.not_mem_nil)
      (not_hasOpenPair_of_length (by decide))
  | case2 segment =>
    exact iff_of_true (fun group hmem => absurd hmem List.not_mem_nil)
      (not_hasOpenPair_of_length (by simp))
  | case3 segment next rest h ih =>
    have hnext : next ≠ [] := by
      rintro rfl
      exact hne (by simp)
    have hrest : [] ∉ rest := fun hmem => hne (by simp [hmem])
    cases rest with
    | nil =>
      exact iff_of_true (fun group hmem => absurd hmem List.not_mem_nil)
        (not_hasOpenPair_of_length (by simp))
    | cons third rest =>
      rw [List.dropLast_cons_of_ne_nil (merge_ne_nil (List.cons_ne_nil third rest)),
        List.forall_mem_cons, ih hrest, opens_append hnext, hasOpenPair_cons_of_opens h, not_or,
        Bool.not_eq_true]
      exact and_congr_right fun hclosed => not_congr (hasOpenPair_cons_of_not_opens hclosed _).symm
  | case4 segment next rest h ih =>
    have hclosed : opens segment = false := Bool.eq_false_iff.2 h
    have hrest : [] ∉ next :: rest := fun hmem => hne (List.mem_cons_of_mem _ hmem)
    rw [List.dropLast_cons_of_ne_nil (merge_ne_nil (List.cons_ne_nil next rest)),
      List.forall_mem_cons, ih hrest, hasOpenPair_cons_of_not_opens hclosed]
    exact and_iff_right hclosed

/-! ## The blocks of an open pair -/

variable {blocks before rest : List Block} {block next : Block}

/-- A block that is no list begins a segment. -/
theorem segments_append (before : List Block) (h : next.isList = false) (rest : List Block) :
    segments (before ++ next :: rest) = segments before ++ segments (next :: rest) := by
  induction before with
  | nil => rfl
  | cons block before ih =>
    rw [List.cons_append, segments, ih]
    cases before with
    | nil =>
      rw [if_neg (by simp [h])]
      rfl
    | cons block' before =>
      rw [segments.eq_2 block (block' :: before), segments_cons block' before]
      cases hlist : block'.isList with
      | true =>
        rw [if_pos (by simp [hlist]), if_pos (by simp [hlist])]
        rfl
      | false =>
        rw [if_neg (by simp [hlist]), if_neg (by simp [hlist])]
        rfl

/-- The last segment ends with the last block. -/
theorem exists_segments_concat (before : List Block) (lead : Block) : ∃ gs segment,
    segments (before ++ [lead]) = gs ++ [segment] ∧ opens segment = endsInColon lead.text := by
  have hflatten := flatten_segments (before ++ [lead])
  have hne := nil_notMem_segments (before ++ [lead])
  rcases List.eq_nil_or_concat' (segments (before ++ [lead])) with hnil | ⟨gs, segment, hconcat⟩
  · rw [hnil] at hflatten
    exact absurd hflatten.symm (by simp)
  · rw [hconcat] at hflatten hne
    rw [List.flatten_append, List.flatten_singleton] at hflatten
    have hsegment : segment ≠ [] := by
      rintro rfl
      exact hne (by simp)
    refine ⟨gs, segment, hconcat, ?_⟩
    rw [opens, ← List.getLast?_append_of_ne_nil _ hsegment, hflatten, List.getLast?_concat,
      Option.any_some]

/-- An open segment ends with a block that ends in a colon. -/
theorem exists_concat_of_opens {segment : List Block} (h : opens segment = true) :
    ∃ front lead, segment = front ++ [lead] ∧ endsInColon lead.text = true := by
  rcases List.eq_nil_or_concat' segment with rfl | ⟨front, lead, rfl⟩
  · exact absurd h (by decide)
  · refine ⟨front, lead, rfl, ?_⟩
    rwa [opens, List.getLast?_concat, Option.any_some] at h

/-- The blocks of an open pair of segments. -/
theorem strandsLeadIn_iff (blocks : List Block) :
    StrandsLeadIn blocks ↔ HasOpenPair (segments blocks) := by
  constructor
  · rintro ⟨before, lead, block, lists, next, behind, rfl, hlead, hblock, hlists, hopens, hnext⟩
    obtain ⟨gs, segment, hconcat, hsegment⟩ := exists_segments_concat before lead
    have hstop : ¬next.isList = true := by rw [hnext]; exact Bool.false_ne_true
    refine ⟨gs, segment, block :: lists, next :: behind.takeWhile Block.isList,
      segments (behind.dropWhile Block.isList), ?_, hsegment.trans hlead, hopens⟩
    rw [List.append_cons, segments_append _ hblock, hconcat, segments_cons block,
      List.takeWhile_append_of_pos hlists, List.dropWhile_append_of_pos hlists,
      List.takeWhile_cons_of_neg hstop, List.dropWhile_cons_of_neg hstop, segments_cons next,
      List.append_nil, List.append_assoc, List.singleton_append]
  · rintro ⟨before, lead, lead', next, behind, heq, hlead, hlead'⟩
    have htail := opening_of_mem_segments blocks
    obtain ⟨block, lists, rfl, hblock, hlists⟩ := htail lead' (by cases before <;> simp [heq])
    obtain ⟨next, rest, rfl, hnext, -⟩ := htail next (by cases before <;> simp [heq])
    obtain ⟨front, lead, rfl, hcolon⟩ := exists_concat_of_opens hlead
    refine ⟨before.flatten ++ front, lead, block, lists, next, rest ++ behind.flatten, ?_, hcolon,
      hblock, hlists, hlead', hnext⟩
    rw [← flatten_segments blocks, heq]
    simp

/-- **A chunk other than the last one ends in a colon exactly when** a lead-in is followed by
another lead-in and a further block. -/
theorem lead_in_kept_iff (blocks : List Block) : ∃ chunks, groupBlocks blocks = some chunks ∧
    ((∀ chunk ∈ chunks.dropLast, endsInColon chunk = false) ↔ ¬StrandsLeadIn blocks) := by
  refine ⟨_, groupBlocks_eq blocks, ?_⟩
  rw [strandsLeadIn_iff, ← merge_closed_iff _ (nil_notMem_segments blocks), ← List.map_dropLast,
    List.forall_mem_map]
  refine forall₂_congr fun group hgroup => ?_
  have hne : group ≠ [] :=
    ne_of_mem_of_not_mem (List.dropLast_subset _ hgroup) (nil_notMem_groups blocks)
  rw [endsInColon_render hne]

/-- **A lead-in is stranded**: of three paragraphs the first two end in a colon, and the first chunk
ends with the second one. -/
theorem lead_in_stranded :
    ¬∀ (blocks : List Block) (chunks : List (List Char)), groupBlocks blocks = some chunks →
      ∀ chunk ∈ chunks.dropLast, endsInColon chunk = false := by
  intro hclaim
  have h := hclaim (splitBlocks ascii "A:\n\nB:\n\nC".toList) ["A:\n\nB:".toList, "C".toList]
    (by decide) "A:\n\nB:".toList (by simp)
  exact absurd h (by decide)

end Rag

end TrackFlow
