import TrackFlow.Web.SearchParams

/-!
# Queries that are written pair by pair

`urlencode` of Python, and the query of a URL that pairs are added to.

* `urlencode` : pairs of texts as a query.
* `parseForm_urlencode` : **they are read back.**
* `addQuery` : the query behind a URL that may have one.
* `searchParams_addQuery` : **the pairs are read behind those of the URL**, unless the URL has a
  fragment.
-/

namespace TrackFlow

namespace Web

/-! ## Writing -/

/-- The characters that `quote_plus` leaves, and the space. -/
def quoteKeeps (c : Char) : Bool := c.isAlphanum || ['_', '.', '-', '~', ' '].contains c

/-- A space is a plus sign. -/
def spaceToPlus (c : Char) : Char := if c = ' ' then '+' else c

/-- `quote_plus`. -/
def quotePlus (text : List Char) : List Char :=
  (percentEncode (fun c => !quoteKeeps c) text).map spaceToPlus

/-- A pair of a query. -/
def encodePair (pair : List Char × List Char) : List Char :=
  quotePlus pair.1 ++ '=' :: quotePlus pair.2

/-- `urlencode`. -/
def urlencode (pairs : List (List Char × List Char)) : List Char :=
  List.intercalate ['&'] (pairs.map encodePair)

/-- A query behind a URL. -/
def addQuery (url query : List Char) : List Char :=
  url ++ (if '?' ∈ url then '&' else '?') :: query

/-! ## Reading -/

/-- The characters of what `quote_plus` writes. -/
def isQuoted (c : Char) : Bool := c.isAlphanum || ['_', '.', '-', '~', '+', '%'].contains c

/-- The characters of a query. -/
def isQueryChar (c : Char) : Bool := isQuoted c || c = '=' || c = '&'

section

variable {text url : List Char} {pairs : List (List Char × List Char)}

theorem isQuoted_of_mem_quotePlus {c : Char} (h : c ∈ quotePlus text) : isQuoted c = true := by
  obtain ⟨d, hd, rfl⟩ := List.mem_map.1 h
  rcases mem_percentEncode hd with hdigit | ⟨-, hkeeps⟩
  · have hall : ∀ c ∈ '%' :: "0123456789ABCDEF".toList, isQuoted (spaceToPlus c) = true :=
      List.all_iff_forall_prop.1 (by decide)
    exact hall d hdigit
  · simp only [quoteKeeps, Bool.not_eq_false', Bool.or_eq_true, List.contains_iff_mem] at hkeeps
    rcases hkeeps with hname | hmark
    · have hne : d ≠ ' ' := by
        rintro rfl
        exact absurd hname (by decide)
      simp [spaceToPlus, hne, isQuoted, hname]
    · have hall : ∀ c ∈ ['_', '.', '-', '~', ' '], isQuoted (spaceToPlus c) = true :=
        List.all_iff_forall_prop.1 (by decide)
      exact hall d hmark

theorem not_mem_quotePlus {c : Char} (h : isQuoted c = false) : c ∉ quotePlus text := by
  intro hmem
  rw [isQuoted_of_mem_quotePlus hmem] at h
  cases h

theorem map_plusToSpace_quotePlus (text : List Char) :
    (quotePlus text).map plusToSpace = percentEncode (fun c => !quoteKeeps c) text := by
  rw [quotePlus, List.map_map]
  refine (List.map_congr_left fun c hc => ?_).trans (List.map_id _)
  have hne : c ≠ '+' := by
    rintro rfl
    rcases mem_percentEncode hc with hdigit | ⟨-, hkeeps⟩
    · exact absurd hdigit (by decide)
    · exact absurd hkeeps (by decide)
  by_cases hspace : c = ' '
  · subst hspace
    rfl
  · simp [spaceToPlus, plusToSpace, hspace, hne]

/-- **A text is read back.** -/
theorem formDecode_quotePlus (text : List Char) : formDecode (quotePlus text) = text := by
  have hplain : (percentEncode (fun c => !quoteKeeps c) text).map plusToSpace =
      (quotePlus text).map plusToSpace := by
    rw [map_plusToSpace_quotePlus]
    refine (List.map_congr_left fun c hc => if_neg ?_).trans (List.map_id _)
    rintro rfl
    rcases mem_percentEncode hc with hdigit | ⟨-, hkeeps⟩
    · exact absurd hdigit (by decide)
    · exact absurd hkeeps (by decide)
  have hread : formDecode (percentEncode (fun c => !quoteKeeps c) text) = text :=
    formDecode_percentEncode (by decide) (by decide) text
  unfold formDecode at hread ⊢
  rwa [hplain] at hread

theorem formPair_encodePair (pair : List Char × List Char) : formPair (encodePair pair) = pair := by
  have hkeep : ∀ c ∈ quotePlus pair.1, decide (c ≠ '=') = true := by
    intro c hc
    refine decide_eq_true ?_
    rintro rfl
    exact not_mem_quotePlus (by decide) hc
  rw [formPair, encodePair, List.takeWhile_append_of_pos hkeep,
    List.takeWhile_cons_of_neg (by decide), List.append_nil, List.dropWhile_append_of_pos hkeep,
    List.dropWhile_cons_of_neg (by decide), List.tail_cons, formDecode_quotePlus,
    formDecode_quotePlus]

theorem and_not_mem_encodePair (pair : List Char × List Char) : '&' ∉ encodePair pair := by
  simp only [encodePair, List.mem_append, List.mem_cons, not_or]
  exact ⟨not_mem_quotePlus (by decide), by decide, not_mem_quotePlus (by decide)⟩

/-- **Pairs are read back.** -/
theorem parseForm_urlencode (pairs : List (List Char × List Char)) :
    parseForm (urlencode pairs) = pairs := by
  cases pairs with
  | nil => decide
  | cons pair rest =>
    have hno : ∀ piece ∈ (pair :: rest).map encodePair, '&' ∉ piece := by
      intro piece hpiece
      obtain ⟨pair, -, rfl⟩ := List.mem_map.1 hpiece
      exact and_not_mem_encodePair pair
    have hkeep : ((pair :: rest).map encodePair).filter (· ≠ []) =
        (pair :: rest).map encodePair := by
      refine List.filter_eq_self.2 fun piece hpiece => decide_eq_true ?_
      obtain ⟨pair, -, rfl⟩ := List.mem_map.1 hpiece
      exact List.append_ne_nil_of_right_ne_nil _ (List.cons_ne_nil _ _)
    rw [parseForm, urlencode, List.splitOn_intercalate _ hno (by simp), hkeep, List.map_map]
    exact (List.map_congr_left fun pair _ => formPair_encodePair pair).trans (List.map_id _)

theorem parseForm_append (front behind : List Char) :
    parseForm (front ++ '&' :: behind) = parseForm front ++ parseForm behind := by
  rw [parseForm, List.splitOn_append_cons_self, List.filter_append, List.map_append]
  rfl

theorem isQueryChar_of_mem_encodePair {c : Char} {pair : List Char × List Char}
    (h : c ∈ encodePair pair) : isQueryChar c = true := by
  simp only [encodePair, List.mem_append, List.mem_cons] at h
  rcases h with h | rfl | h
  · simp [isQueryChar, isQuoted_of_mem_quotePlus h]
  · decide
  · simp [isQueryChar, isQuoted_of_mem_quotePlus h]

theorem isQueryChar_of_mem_urlencode {c : Char} (h : c ∈ urlencode pairs) :
    isQueryChar c = true := by
  induction pairs with
  | nil => cases h
  | cons pair rest ih =>
    cases rest with
    | nil =>
      rw [urlencode, List.map_singleton, List.intercalate_singleton] at h
      exact isQueryChar_of_mem_encodePair h
    | cons next rest =>
      rw [urlencode, List.map_cons, List.intercalate_cons_of_ne_nil (by simp)] at h
      simp only [List.mem_append, List.mem_singleton] at h
      rcases h with (h | rfl) | h
      · exact isQueryChar_of_mem_encodePair h
      · decide
      · exact ih h

theorem bounds_of_isAlphanum {c : Char} (h : c.isAlphanum = true) :
    0x20 < c.toNat ∧ c.toNat ≤ 0x7E := by
  unfold Char.isAlphanum Char.isAlpha Char.isUpper Char.isLower Char.isDigit at h
  simp only [Bool.or_eq_true, Bool.and_eq_true, decide_eq_true_eq, UInt32.le_iff_toNat_le,
    ge_iff_le] at h
  rcases h with (h | h) | h
  · exact ⟨(by decide : 0x20 < 65).trans_le h.1, h.2.trans (by decide)⟩
  · exact ⟨(by decide : 0x20 < 97).trans_le h.1, h.2.trans (by decide)⟩
  · exact ⟨(by decide : 0x20 < 48).trans_le h.1, h.2.trans (by decide)⟩

/-- What a query is written with is visible, and stays in the query as it is. -/
theorem isQueryChar_spec {c : Char} (h : isQueryChar c = true) :
    0x20 < c.toNat ∧ c ≠ '#' ∧ querySet c = false := by
  simp only [isQueryChar, isQuoted, Bool.or_eq_true, decide_eq_true_eq,
    List.contains_iff_mem] at h
  rcases h with ((h | h) | rfl) | rfl
  · obtain ⟨hlow, hhigh⟩ := bounds_of_isAlphanum h
    have hne : ∀ d ∈ ['"', '#', '<', '>', '\x27'], c ≠ d := by
      have hall : ∀ d ∈ ['"', '#', '<', '>', '\x27'], d.isAlphanum = false :=
        List.all_iff_forall_prop.1 (by decide)
      rintro d hd rfl
      rw [hall c hd] at h
      cases h
    refine ⟨hlow, hne _ (by decide), ?_⟩
    simp [querySet, hne, Nat.not_le.2 hlow, Nat.not_lt.2 hhigh]
  · have hall : ∀ c ∈ ['_', '.', '-', '~', '+', '%'],
        0x20 < c.toNat ∧ c ≠ '#' ∧ querySet c = false := List.all_iff_forall_prop.1 (by decide)
    exact hall c h
  · decide
  · decide

/-! ## Pairs behind a URL -/

theorem query_of_visible (hurl : ∀ c ∈ url, 0x20 < c.toNat) :
    query url = percentEncode querySet ((url.takeWhile (· ≠ '#')).dropWhile (· ≠ '?')).tail := by
  rw [query, clean_eq_self fun c hc => decide_eq_false (Nat.not_le.2 (hurl c hc))]

/-- What stands behind a fragment sign is not read. -/
theorem query_append_of_mem {more : List Char} (hurl : ∀ c ∈ url ++ more, 0x20 < c.toNat)
    (h : '#' ∈ url) : query (url ++ more) = query url := by
  have htake : (url ++ more).takeWhile (· ≠ '#') = url.takeWhile (· ≠ '#') := by
    rw [List.takeWhile_append, if_neg]
    intro hlength
    have hall := List.takeWhile_eq_self_iff.1
      ((List.takeWhile_prefix _).eq_of_length hlength) '#' h
    simp at hall
  rw [query_of_visible hurl, query_of_visible fun c hc => hurl c (List.mem_append_left _ hc), htake]

/-- The query of a URL that pairs are added to. -/
theorem query_addQuery (hurl : ∀ c ∈ url, 0x20 < c.toNat) (h : '#' ∉ url) {more : List Char}
    (hmore : ∀ c ∈ more, 0x20 < c.toNat ∧ c ≠ '#' ∧ querySet c = false) :
    query (addQuery url more) = if '?' ∈ url then query url ++ '&' :: more else more := by
  have hkeep : ∀ (c : Char), c ∈ url → decide (c ≠ '#') = true := by
    intro c hc
    refine decide_eq_true ?_
    rintro rfl
    exact h hc
  have hself : percentEncode querySet more = more :=
    percentEncode_eq_self fun c hc => (hmore c hc).2.2
  have hfragment (sign : Char) (hsign : sign ≠ '#') :
      (url ++ sign :: more).takeWhile (· ≠ '#') = url ++ sign :: more := by
    refine List.takeWhile_eq_self_iff.2 fun c hc => ?_
    rcases List.mem_append.1 hc with hc | hc
    · exact hkeep c hc
    · rcases List.mem_cons.1 hc with rfl | hc
      · exact decide_eq_true hsign
      · exact decide_eq_true (hmore c hc).2.1
  have hvisible (sign : Char) (hsign : 0x20 < sign.toNat) :
      ∀ c ∈ url ++ sign :: more, 0x20 < c.toNat := by
    intro c hc
    rcases List.mem_append.1 hc with hc | hc
    · exact hurl c hc
    · rcases List.mem_cons.1 hc with rfl | hc
      · exact hsign
      · exact (hmore c hc).1
  rw [addQuery]
  split_ifs with hquestion
  · have hne : url.dropWhile (· ≠ '?') ≠ [] := by
      intro hnil
      exact absurd (List.dropWhile_eq_nil_iff.1 hnil '?' hquestion) (by decide)
    have hself' : url.takeWhile (· ≠ '#') = url := List.takeWhile_eq_self_iff.2 hkeep
    rw [query_of_visible (hvisible '&' (by decide)), hfragment '&' (by decide),
      List.dropWhile_append, if_neg (by simpa using hne), List.tail_append_of_ne_nil hne,
      percentEncode_append, percentEncode_cons, encodeChar_of_not (by decide), hself,
      query_of_visible hurl, hself']
    rfl
  · have hall : ∀ c ∈ url, decide (c ≠ '?') = true := by
      intro c hc
      refine decide_eq_true ?_
      rintro rfl
      exact hquestion hc
    rw [query_of_visible (hvisible '?' (by decide)), hfragment '?' (by decide),
      List.dropWhile_append_of_pos hall, List.dropWhile_cons_of_neg (by decide), List.tail_cons,
      hself]

/-- A URL without a question mark has no query. -/
theorem query_eq_nil (hurl : ∀ c ∈ url, 0x20 < c.toNat) (h : '?' ∉ url) : query url = [] := by
  have hdrop : (url.takeWhile (· ≠ '#')).dropWhile (· ≠ '?') = [] := by
    refine List.dropWhile_eq_nil_iff.2 fun c hc => decide_eq_true ?_
    rintro rfl
    exact h ((List.takeWhile_prefix _).subset hc)
  rw [query_of_visible hurl, hdrop]
  rfl

/-- **The pairs are read behind those of the URL**, unless the URL has a fragment. -/
theorem searchParams_addQuery (hurl : ∀ c ∈ url, 0x20 < c.toNat)
    (pairs : List (List Char × List Char)) :
    searchParams (addQuery url (urlencode pairs)) =
      searchParams url ++ if '#' ∈ url then [] else pairs := by
  have hmore : ∀ c ∈ urlencode pairs, 0x20 < c.toNat ∧ c ≠ '#' ∧ querySet c = false :=
    fun c hc => isQueryChar_spec (isQueryChar_of_mem_urlencode hc)
  rw [searchParams, searchParams]
  split_ifs with hfragment
  · have hvisible : ∀ c ∈ addQuery url (urlencode pairs), 0x20 < c.toNat := by
      intro c hc
      rcases List.mem_append.1 hc with hc | hc
      · exact hurl c hc
      · rcases List.mem_cons.1 hc with rfl | hc
        · split_ifs <;> decide
        · exact (hmore c hc).1
    rw [addQuery, query_append_of_mem hvisible hfragment, List.append_nil]
  · rw [query_addQuery hurl hfragment hmore]
    split_ifs with hquestion
    · rw [parseForm_append, parseForm_urlencode]
    · rw [query_eq_nil hurl hquestion, parseForm_urlencode]
      rfl

end

end Web

end TrackFlow
