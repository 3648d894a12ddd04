import Mathlib.Data.List.DropRight
import Mathlib.Data.List.Infix
import TrackFlow.Web.Percent

/-!
# URLs that a path resolves to

The basic URL parser of the URL standard on a reference that begins with a slash, against an `https`
origin: tabs and line breaks are dropped, backslashes are slashes, a second slash begins an
authority, and dot segments are resolved.  The host parser is a parameter.  Query and fragment, on
which neither the origin nor the path of the result depends, are left out.

* `reference` : the authority and the path of a reference.
* `parseAuthority` : the states of the authority, the host and the port.
* `pathState` : the state of the path.
* `pathState_eq` : **the path is what is left of the segments when dot segments are resolved.**
* `under_iff` : when a path name is a given one or below it.
-/

namespace TrackFlow

namespace Web

/-- A host, and a port that is not the default one. -/
structure Authority (η : Type*) where
  host : η
  port : Option ℕ
  deriving DecidableEq, Repr

/-- What is kept of a URL. -/
structure Url (η : Type*) where
  authority : Authority η
  path : List (List Char)
  deriving DecidableEq, Repr

/-- The URL path serializer. -/
def serializePath (path : List (List Char)) : List Char := path.flatMap ('/' :: ·)

/-- `pathname`. -/
def Url.pathname {η : Type*} (url : Url η) : List Char := serializePath url.path

/-! ## The reference -/

/-- A C0 control or a space. -/
def isControlOrSpace (c : Char) : Bool := decide (c.toNat ≤ 0x20)

/-- An ASCII tab or newline. -/
def isTabOrNewline (c : Char) : Bool := c = '\t' || c = '\n' || c = '\r'

/-- What the parser reads of its input. -/
def clean (input : List Char) : List Char :=
  ((input.dropWhile isControlOrSpace).rdropWhile isControlOrSpace).filter fun c =>
    !isTabOrNewline c

theorem clean_eq_self {text : List Char} (h : ∀ c ∈ text, isControlOrSpace c = false) :
    clean text = text := by
  have hkeep : ∀ c ∈ text, isTabOrNewline c = false := by
    intro c hc
    by_contra htab
    simp only [isTabOrNewline, Bool.or_eq_true, decide_eq_true_eq, Bool.not_eq_false] at htab
    rcases htab with (rfl | rfl) | rfl <;> exact absurd (h _ hc) (by decide)
  have hfront : text.dropWhile isControlOrSpace = text := by
    rw [List.dropWhile_eq_self_iff]
    exact fun hlength => Bool.eq_false_iff.1 (h _ (List.getElem_mem hlength))
  have hbehind : text.rdropWhile isControlOrSpace = text := by
    rw [List.rdropWhile_eq_self_iff]
    exact fun hne => Bool.eq_false_iff.1 (h _ (List.getLast_mem hne))
  rw [clean, hfront, hbehind, List.filter_eq_self]
  exact fun c hc => by rw [hkeep c hc]; rfl

/-- A slash, or a backslash. -/
def isSlash (c : Char) : Bool := c = '/' || c = '\\'

/-- The start of a query or of a fragment. -/
def isQueryOrFragment (c : Char) : Bool := c = '?' || c = '#'

/-- What ends an authority. -/
def endsAuthority (c : Char) : Bool := isSlash c || isQueryOrFragment c

/-- The two parts of a reference. -/
structure Reference where
  authority : Option (List Char)
  path : List Char
  deriving DecidableEq, Repr

/-- `path start state`: one slash is skipped. -/
def skipSlash : List Char → List Char
  | c :: rest => if isSlash c then rest else c :: rest
  | [] => []

/-- `relative slash state`, and `special authority ignore slashes state`. -/
def relativeSlash (text : List Char) : Reference :=
  if text.head?.any isSlash then
    let rest := text.dropWhile isSlash
    ⟨some (rest.takeWhile fun c => !endsAuthority c),
      skipSlash (rest.dropWhile fun c => !endsAuthority c)⟩
  else ⟨none, text⟩

/-- `relative state` of a reference that begins with a slash. -/
def reference (input : List Char) : Reference := relativeSlash (clean input).tail

/-! ## The authority -/

/-- The text behind the last `@`, and whether there is one. -/
def credentialsEnd (text : List Char) : List Char × Bool :=
  (text.rtakeWhile fun c => c ≠ '@', decide ('@' ∈ text))

/-- `host state`: the host up to the first colon outside brackets, and the port behind it. -/
def splitHost : Bool → List Char → List Char × Option (List Char)
  | _, [] => ([], none)
  | inside, c :: rest =>
    if c = ':' ∧ inside = false then ([], some rest)
    else
      let inside := if c = '[' then true else if c = ']' then false else inside
      let (host, port) := splitHost inside rest
      (c :: host, port)

/-- `port state`: the port if it is not 443; the outer `none` is a failure. -/
def parsePort (text : List Char) : Option (Option ℕ) :=
  if text.all Char.isDigit then
    let port := text.foldl (fun n c => n * 10 + (c.toNat - '0'.toNat)) 0
    if text = [] then some none
    else if 65535 < port then none
    else some (if port = 443 then none else some port)
  else none

/-- `authority state`, with what follows it. -/
def parseAuthority {η : Type*} (hostParser : List Char → Option η) (text : List Char) :
    Option (Authority η) :=
  let (behind, atSignSeen) := credentialsEnd text
  if atSignSeen ∧ behind = [] then none
  else
    let (host, port) := splitHost false behind
    if host = [] then none
    else
      (hostParser host).bind fun host =>
        (port.elim (some none) parsePort).map fun port => ⟨host, port⟩

/-! ## The path -/

/-- The path percent-encode set. -/
def pathSet (c : Char) : Bool :=
  decide (c.toNat ≤ 0x20) || decide (0x7E < c.toNat) ||
    ['"', '#', '<', '>', '?', '^', '\x60', '\x7b', '\x7d'].contains c

/-- How many dots a segment consists of, written as dots or as escapes. -/
def dots : List Char → Option ℕ
  | [] => some 0
  | '.' :: rest => (dots rest).map (· + 1)
  | '%' :: '2' :: c :: rest => if c = 'e' ∨ c = 'E' then (dots rest).map (· + 1) else none
  | _ => none

/-- The end of a segment, by a slash or otherwise. -/
def endSegment (path : List (List Char)) (segment : List Char) (slash : Bool) :
    List (List Char) :=
  if dots segment = some 2 then if slash then path.dropLast else path.dropLast ++ [[]]
  else if dots segment = some 1 then if slash then path else path ++ [[]]
  else path ++ [segment]

/-- `path state`. -/
def pathState : List Char → List (List Char) → List Char → List (List Char)
  | [], path, buffer => endSegment path buffer false
  | c :: rest, path, buffer =>
    if isSlash c then pathState rest (endSegment path buffer true) []
    else if isQueryOrFragment c then endSegment path buffer false
    else pathState rest path (buffer ++ encodeChar pathSet c)

/-- The URL that a reference that begins with a slash resolves to. -/
def resolve {η : Type*} (hostParser : List Char → Option η) (base : Authority η)
    (input : List Char) : Option (Url η) :=
  let parts := reference input
  (parts.authority.elim (some base) (parseAuthority hostParser)).map fun authority =>
    ⟨authority, pathState parts.path [] []⟩

/-! ## What is left of the segments -/

/-- The segments of a path, up to the query or the fragment. -/
def segments (path : List Char) : List (List Char) :=
  (path.takeWhile fun c => !isQueryOrFragment c).splitOnP isSlash

/-- Segments with the dot segments resolved, behind a path. -/
def resolveDots (path : List (List Char)) : List (List Char) → List (List Char)
  | [] => path
  | [last] => endSegment path last false
  | segment :: next :: rest => resolveDots (endSegment path segment true) (next :: rest)

section

variable {path : List (List Char)} {text segment : List Char}

theorem resolveDots_cons {rest : List (List Char)} (h : rest ≠ []) :
    resolveDots path (segment :: rest) = resolveDots (endSegment path segment true) rest := by
  cases rest with
  | nil => exact absurd rfl h
  | cons next rest => rw [resolveDots]

theorem dots_of_ne {c : Char} (hdot : c ≠ '.') (hpercent : c ≠ '%') (rest : List Char) :
    dots (c :: rest) = none := by
  rw [dots]
  · exact fun h => nomatch h
  · exact fun _ h => hdot (List.cons.inj h).1
  · exact fun _ _ h => hpercent (List.cons.inj h).1

theorem dots_percent_of_ne {c : Char} (h : c ≠ '2') (rest : List Char) :
    dots ('%' :: c :: rest) = none := by
  rw [dots]
  · exact fun h => nomatch h
  · exact fun _ h => nomatch h
  · exact fun _ _ he => h (List.cons.inj (List.cons.inj he).2).1

/-- A character that is encoded is no escape of a dot. -/
theorem dots_encodeChar {set : Char → Bool} {c : Char} (h : set c = true) (hne : c ≠ '.')
    (rest : List Char) : dots (encodeChar set c ++ rest) = none := by
  obtain ⟨b, tail, hb, hascii, hencode⟩ := encodeChar_of_mem h
  rw [hencode]
  -- neither is its first byte a dot, nor is its second digit a small letter
  have htwo : ∀ n < 16, upperHex n = '2' → n = 2 := by decide
  have hletter : ∀ n < 16, upperHex n ≠ 'e' ∧ (upperHex n = 'E' → n = 14) := by decide
  have hdot : b ≠ 0x2E := by
    rintro rfl
    exact hne (Char.toNat_inj.1 (hascii (by omega)).symm)
  by_cases hhigh : upperHex (b / 16) = '2'
  · have hb2 := htwo (b / 16) (by omega) hhigh
    have hlow := hletter (b % 16) (by omega)
    rw [hhigh]
    refine if_neg (not_or.2 ⟨hlow.1, fun hE => ?_⟩)
    have hbE := hlow.2 hE
    omega
  · exact dots_percent_of_ne hhigh _

theorem dots_encoded {c : Char} (h : pathSet c = true) (rest : List Char) :
    dots (encodeChar pathSet c ++ rest) = none := by
  refine dots_encodeChar h ?_ rest
  rintro rfl
  exact absurd h (by decide)

/-- Percent-encoding neither makes nor hides dots. -/
theorem dots_percentEncode (text : List Char) : dots (percentEncode pathSet text) = dots text := by
  fun_induction dots text with
  | case1 => rfl
  | case2 rest ih =>
    rw [percentEncode_cons, encodeChar_of_not (by decide), List.singleton_append, dots, ih]
  | case3 c rest hc ih =>
    have hset : pathSet c = false := by rcases hc with rfl | rfl <;> decide
    rw [percentEncode_cons, percentEncode_cons, percentEncode_cons,
      encodeChar_of_not (by decide), encodeChar_of_not (by decide), encodeChar_of_not hset]
    exact (if_pos hc).trans (congrArg (Option.map (· + 1)) ih)
  | case4 c rest hc =>
    rw [percentEncode_cons, percentEncode_cons, percentEncode_cons,
      encodeChar_of_not (by decide), encodeChar_of_not (by decide)]
    cases hset : pathSet c with
    | true =>
      obtain ⟨b, tail, -, -, hencode⟩ := encodeChar_of_mem hset
      rw [hencode]
      exact if_neg (by decide)
    | false =>
      rw [encodeChar_of_not hset]
      exact if_neg hc
  | case5 text hnil hdot hescape =>
    cases text with
    | nil => exact absurd rfl hnil
    | cons c rest =>
      rw [percentEncode_cons]
      cases hset : pathSet c with
      | true => exact dots_encoded hset _
      | false =>
        rw [encodeChar_of_not hset, List.singleton_append]
        have hne : c ≠ '.' := fun h => hdot rest (by rw [h])
        by_cases hpercent : c = '%'
        · subst hpercent
          cases rest with
          | nil => rfl
          | cons d rest =>
            rw [percentEncode_cons]
            cases hd : pathSet d with
            | true =>
              obtain ⟨b, tail, -, -, hencode⟩ := encodeChar_of_mem hd
              rw [hencode]
              exact dots_percent_of_ne (by decide) _
            | false =>
              rw [encodeChar_of_not hd, List.singleton_append]
              by_cases htwo : d = '2'
              · subst htwo
                cases rest with
                | nil => rfl
                | cons e rest => exact absurd rfl (hescape e rest)
              · exact dots_percent_of_ne htwo _
        · exact dots_of_ne hne hpercent _

theorem endSegment_percentEncode (path : List (List Char)) (segment : List Char) (slash : Bool) :
    endSegment (path.map (percentEncode pathSet)) (percentEncode pathSet segment) slash =
      (endSegment path segment slash).map (percentEncode pathSet) := by
  unfold endSegment
  rw [dots_percentEncode]
  split_ifs <;> simp [percentEncode]

theorem segments_ne_nil : segments text ≠ [] := List.splitOnP_ne_nil _ _

theorem segments_cons_slash {c : Char} (h : isSlash c = true) :
    segments (c :: text) = [] :: segments text := by
  have hkeep : isQueryOrFragment c = false := by
    simp only [isSlash, Bool.or_eq_true, decide_eq_true_eq] at h
    rcases h with rfl | rfl <;> rfl
  simp [segments, hkeep, List.splitOnP_cons_eq_if_modifyHead, h]

theorem segments_cons_end {c : Char} (h : isQueryOrFragment c = true) :
    segments (c :: text) = [[]] := by
  simp [segments, h]

theorem segments_cons_other {c : Char} (hslash : isSlash c = false)
    (hend : isQueryOrFragment c = false) :
    segments (c :: text) = (segments text).modifyHead (c :: ·) := by
  simp [segments, hend, List.splitOnP_cons_eq_if_modifyHead, hslash]

theorem modifyHead_nil_append (pieces : List (List Char)) :
    pieces.modifyHead ([] ++ ·) = pieces := by
  cases pieces <;> rfl

/-- The state of the path in the middle of a segment. -/
theorem pathState_encoded (text : List Char) (path : List (List Char)) (segment : List Char) :
    pathState text (path.map (percentEncode pathSet)) (percentEncode pathSet segment) =
      (resolveDots path ((segments text).modifyHead (segment ++ ·))).map
        (percentEncode pathSet) := by
  induction text generalizing path segment with
  | nil =>
    rw [pathState, endSegment_percentEncode]
    simp [segments, resolveDots]
  | cons c rest ih =>
    rw [pathState]
    split_ifs with hslash hend
    · rw [endSegment_percentEncode, segments_cons_slash hslash, List.modifyHead_cons,
        List.append_nil, resolveDots_cons segments_ne_nil]
      have hnil := ih (endSegment path segment true) []
      rwa [modifyHead_nil_append] at hnil
    · rw [endSegment_percentEncode, segments_cons_end hend, List.modifyHead_cons,
        List.append_nil, resolveDots]
    · have hbuffer : percentEncode pathSet segment ++ encodeChar pathSet c =
          percentEncode pathSet (segment ++ [c]) := by
        rw [percentEncode_append, percentEncode_cons]
        exact congrArg _ (List.append_nil _).symm
      rw [hbuffer, ih, segments_cons_other (Bool.eq_false_iff.2 hslash)
        (Bool.eq_false_iff.2 hend), List.modifyHead_modifyHead]
      simp only [Function.comp_def, List.append_assoc, List.singleton_append]

/-- **The path is what is left of the segments when dot segments are resolved**, encoded. -/
theorem pathState_eq (text : List Char) :
    pathState text [] [] = (resolveDots [] (segments text)).map (percentEncode pathSet) := by
  have h := pathState_encoded text [] []
  rwa [modifyHead_nil_append] at h

/-! ## The first segment -/

theorem endSegment_ne_nil (path : List (List Char)) (segment : List Char) :
    endSegment path segment false ≠ [] := by
  unfold endSegment
  split_ifs <;> simp_all

theorem resolveDots_ne_nil {rest : List (List Char)} (h : rest ≠ []) :
    resolveDots path rest ≠ [] := by
  induction rest generalizing path with
  | nil => exact absurd rfl h
  | cons segment rest ih =>
    cases rest with
    | nil => exact endSegment_ne_nil path segment
    | cons next rest =>
      rw [resolveDots_cons (List.cons_ne_nil _ _)]
      exact ih (List.cons_ne_nil _ _)

theorem mem_endSegment {slash : Bool} {piece : List Char}
    (h : piece ∈ endSegment path segment slash) : piece ∈ path ∨ piece = segment ∨ piece = [] := by
  unfold endSegment at h
  split_ifs at h
  · exact .inl (List.mem_of_mem_dropLast h)
  · rcases List.mem_append.1 h with h | h
    · exact .inl (List.mem_of_mem_dropLast h)
    · exact .inr (.inr (List.mem_singleton.1 h))
  · exact .inl h
  · rcases List.mem_append.1 h with h | h
    · exact .inl h
    · exact .inr (.inr (List.mem_singleton.1 h))
  · rcases List.mem_append.1 h with h | h
    · exact .inl h
    · exact .inr (.inl (List.mem_singleton.1 h))

/-- Nothing but the segments is left, and the empty one. -/
theorem mem_resolveDots {rest : List (List Char)} {piece : List Char}
    (h : piece ∈ resolveDots path rest) : piece ∈ path ∨ piece ∈ rest ∨ piece = [] := by
  induction rest generalizing path with
  | nil => exact .inl h
  | cons segment rest ih =>
    have hstep {slash : Bool} (h : piece ∈ endSegment path segment slash) :
        piece ∈ path ∨ piece ∈ segment :: rest ∨ piece = [] := by
      rcases mem_endSegment h with h | rfl | h
      · exact .inl h
      · exact .inr (.inl List.mem_cons_self)
      · exact .inr (.inr h)
    cases rest with
    | nil => exact hstep h
    | cons next rest =>
      rw [resolveDots_cons (List.cons_ne_nil _ _)] at h
      rcases ih h with h | h | h
      · exact hstep h
      · exact .inr (.inl (List.mem_cons_of_mem _ h))
      · exact .inr (.inr h)

/-- No segment has a slash. -/
theorem isSlash_of_mem_segments {piece : List Char} {c : Char} (h : piece ∈ segments text)
    (hc : c ∈ piece) : isSlash c = false := by
  induction text generalizing piece with
  | nil =>
    rw [show segments [] = [[]] from rfl, List.mem_singleton] at h
    subst h
    cases hc
  | cons d text ih =>
    by_cases hslash : isSlash d = true
    · rw [segments_cons_slash hslash, List.mem_cons] at h
      rcases h with rfl | h
      · cases hc
      · exact ih h hc
    by_cases hend : isQueryOrFragment d = true
    · rw [segments_cons_end hend, List.mem_singleton] at h
      subst h
      cases hc
    · have hslash := Bool.eq_false_iff.2 hslash
      rw [segments_cons_other hslash (Bool.eq_false_iff.2 hend)] at h
      obtain ⟨first, rest, hsegments⟩ := List.exists_cons_of_ne_nil (@segments_ne_nil text)
      rw [hsegments] at ih h
      rcases List.mem_cons.1 h with rfl | h
      · rcases List.mem_cons.1 hc with rfl | hc
        · exact hslash
        · exact ih List.mem_cons_self hc
      · exact ih (List.mem_cons_of_mem _ h) hc

/-- The first segment goes up to the first slash, or to the end of the path. -/
theorem head?_segments (text : List Char) :
    (segments text).head? = some (text.takeWhile fun c => !endsAuthority c) := by
  induction text with
  | nil => rfl
  | cons c text ih =>
    by_cases hslash : isSlash c = true
    · rw [segments_cons_slash hslash]
      simp [endsAuthority, hslash]
    by_cases hend : isQueryOrFragment c = true
    · rw [segments_cons_end hend]
      simp [endsAuthority, hend]
    · rw [segments_cons_other (Bool.eq_false_iff.2 hslash) (Bool.eq_false_iff.2 hend)]
      obtain ⟨first, rest, hsegments⟩ := List.exists_cons_of_ne_nil (@segments_ne_nil text)
      rw [hsegments, List.head?_cons] at ih
      simp [endsAuthority, hslash, hend, hsegments, Option.some.inj ih]

/-- Segments without dot segments are left as they are. -/
theorem resolveDots_eq {rest : List (List Char)}
    (h : ∀ segment ∈ rest, dots segment ≠ some 1 ∧ dots segment ≠ some 2) :
    resolveDots path rest = path ++ rest := by
  have hend {segment : List Char} (h : dots segment ≠ some 1 ∧ dots segment ≠ some 2)
      (path : List (List Char)) (slash : Bool) :
      endSegment path segment slash = path ++ [segment] := by
    rw [endSegment, if_neg h.2, if_neg h.1]
  induction rest generalizing path with
  | nil => exact (List.append_nil path).symm
  | cons segment rest ih =>
    have hsegment := h segment List.mem_cons_self
    cases rest with
    | nil => exact hend hsegment path false
    | cons next rest =>
      rw [resolveDots_cons (List.cons_ne_nil _ _), hend hsegment,
        ih fun segment hmem => h segment (List.mem_cons_of_mem _ hmem), List.append_assoc]
      rfl

theorem resolve_eq_some_iff {η : Type*} {hostParser : List Char → Option η} {base : Authority η}
    {input : List Char} {url : Url η} : resolve hostParser base input = some url ↔
      (reference input).authority.elim (some base) (parseAuthority hostParser) =
          some url.authority ∧
        url.path = pathState (reference input).path [] [] := by
  unfold resolve
  rw [Option.map_eq_some_iff]
  constructor
  · rintro ⟨authority, hauthority, rfl⟩
    exact ⟨hauthority, rfl⟩
  · rintro ⟨hauthority, hpath⟩
    exact ⟨url.authority, hauthority, by rw [← hpath]⟩

/-- A path name is a given one or below it exactly if its first segment is the given one. -/
theorem under_iff {name : List Char} {first : List Char} {rest : List (List Char)}
    (hfirst : '/' ∉ first) (hname : '/' ∉ name) :
    serializePath (first :: rest) = '/' :: name ∨
      '/' :: name ++ ['/'] <+: serializePath (first :: rest) ↔ first = name := by
  have hfront {front behind : List Char} (h : '/' ∉ front) (hbehind : ∀ c ∈ behind.head?, c = '/') :
      (front ++ behind).takeWhile (fun c => c ≠ '/') = front := by
    rw [List.takeWhile_append_of_pos]
    · cases behind with
      | nil => exact List.append_nil front
      | cons c behind => rw [hbehind c rfl]; exact List.append_nil front
    · exact fun c hc => decide_eq_true fun he => h (he ▸ hc)
  have hrest : ∀ c ∈ (serializePath rest).head?, c = '/' := by
    cases rest with
    | nil => exact fun c hc => nomatch hc
    | cons segment rest => exact fun c hc => (Option.some.inj hc).symm
  have hpathname : serializePath (first :: rest) = '/' :: (first ++ serializePath rest) := rfl
  rw [hpathname]
  constructor
  · rintro (h | ⟨behind, h⟩)
    · rw [← hfront hfirst hrest, (List.cons.inj h).2]
      have hempty : ∀ c ∈ ([] : List Char).head?, c = '/' := fun c hc => nomatch hc
      simpa using hfront hname hempty
    · rw [← hfront hfirst hrest, ← (List.cons.inj h).2]
      have hslash : ∀ c ∈ ('/' :: behind).head?, c = '/' := fun c hc => (Option.some.inj hc).symm
      simpa using hfront hname hslash
  · rintro rfl
    cases rest with
    | nil => exact .inl (congrArg _ (List.append_nil first))
    | cons segment rest =>
      exact .inr ⟨segment ++ serializePath rest, by simp [serializePath]⟩

end

end Web

end TrackFlow
