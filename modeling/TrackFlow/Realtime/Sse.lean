import TrackFlow.Json.Value
import TrackFlow.Web.Utf8

/-!
# The server-sent events of the RFP list

`encode_sse_event` of the central API, and `parseSSEStream` of the backoffice client.

* `encodeSseEvent` : the bytes of an event.
* `findFrameBoundary`, `parseFrame`, `drain` : the frames of a buffer.
* `parseSSEStream` : the events of a stream, chunk by chunk.
* `parseSSEStream_eq` : **the chunks of any stream can be cut anywhere.**
* `sse_decoding_undoes_encoding` : **every event is read back, once and in order.**
* `large_integer_is_rounded` : an integer that is not a double.
-/

namespace TrackFlow

namespace Realtime

open Json Web

/-! ## The server -/

/-- `RealtimeEvent`. -/
structure RealtimeEvent where
  eventId : ℕ
  event : List Char
  data : List (List Char × PyValue)
  eventId_pos : 0 < eventId
  event_length : 1 ≤ event.length ∧ event.length ≤ 96
  wellFormed : (PyValue.dict data).WellFormed

/-- What `stream_rfp_events` yields. -/
inductive SseFrame
  | connected
  | keepAlive
  | event (event : RealtimeEvent)

variable (r : FloatRepr)

/-- The text of `encode_sse_event`. -/
def sseEventText (event : RealtimeEvent) : List Char :=
  "id: ".toList ++ Nat.toDigits 10 event.eventId ++ "\nevent: ".toList ++ event.event ++
    "\ndata: ".toList ++ dumps r (.dict event.data) ++ "\n\n".toList

/-- `encode_sse_event`. -/
def encodeSseEvent (event : RealtimeEvent) : List UInt8 := encode (sseEventText r event)

/-- The bytes of a frame. -/
def SseFrame.bytes : SseFrame → List UInt8
  | .connected => encode ": connected\n\n".toList
  | .keepAlive => encode ": keep-alive\n\n".toList
  | .event e => encodeSseEvent r e

/-- The event of a frame. -/
def SseFrame.event? : SseFrame → Option RealtimeEvent
  | .connected => none
  | .keepAlive => none
  | .event e => some e

/-! ## The client -/

/-- `ServerSentEvent`. -/
structure ServerSentEvent where
  id : Option (List Char)
  event : List Char
  data : List Char
  deriving DecidableEq, Repr

/-- `String.prototype.indexOf`. -/
def indexOf (pattern : List Char) : List Char → Option ℕ
  | [] => if pattern = [] then some 0 else none
  | c :: text =>
    if pattern <+: c :: text then some 0 else (indexOf pattern text).map (· + 1)

/-- `replaceAll("\r\n", "\n")`. -/
def replaceCrLf : List Char → List Char
  | '\r' :: '\n' :: text => '\n' :: replaceCrLf text
  | c :: text => c :: replaceCrLf text
  | [] => []

/-- `replaceAll("\r", "\n")`. -/
def replaceCr (text : List Char) : List Char := text.map fun c => if c = '\r' then '\n' else c

/-- The fields of a frame. -/
structure FrameFields where
  id : Option (List Char) := none
  event : List Char := "message".toList
  data : List (List Char) := []

/-- A field of a frame. -/
def FrameFields.assign (fields : FrameFields) (field value : List Char) : FrameFields where
  id := if field = "id".toList ∧ '\x00' ∉ value then some value else fields.id
  event := if field = "event".toList then value else fields.event
  data := if field = "data".toList then fields.data ++ [value] else fields.data

/-- A line of a frame. -/
def FrameFields.readLine (fields : FrameFields) (line : List Char) : FrameFields :=
  if line = [] ∨ line.head? = some ':' then fields
  else
    let colon := indexOf [':'] line
    let field := (colon.map line.take).getD line
    let value := (colon.map fun colon => line.drop (colon + 1)).getD []
    fields.assign field (if value.head? = some ' ' then value.drop 1 else value)

/-- `parseFrame`. -/
def parseFrame (frame : List Char) : Option ServerSentEvent :=
  let fields := (frame.splitOn '\n').foldl FrameFields.readLine {}
  if fields.data = [] then none
  else some ⟨fields.id, fields.event, ['\n'].intercalate fields.data⟩

/-- A boundary between two frames. -/
structure FrameBoundary where
  index : ℕ
  length : ℕ
  deriving DecidableEq, Repr

/-- The separators of `findFrameBoundary`. -/
def separators : List (List Char) := ["\r\n\r\n".toList, "\n\n".toList, "\r\r".toList]

/-- `findFrameBoundary`. -/
def findFrameBoundary (buffer : List Char) : Option FrameBoundary :=
  ((separators.filterMap fun separator =>
    (indexOf separator buffer).map fun index => ⟨index, separator.length⟩).mergeSort
      fun left right => left.index ≤ right.index).head?

/-! ## The boundaries -/

section

variable {c : Char} {text front behind : List Char} {boundary : FrameBoundary}

/-- The boundary of the text behind a character. -/
def FrameBoundary.shift (boundary : FrameBoundary) : FrameBoundary :=
  { boundary with index := boundary.index + 1 }

theorem separators_eq_of_starts : ∀ s ∈ separators, ∀ t ∈ separators, s <+: t → s = t := by
  decide

theorem two_le_length_separator : ∀ s ∈ separators, 2 ≤ s.length := by
  decide

/-- The first of the boundaries. -/
theorem head?_mergeSort {boundaries : List FrameBoundary} (hmem : boundary ∈ boundaries)
    (hlt : ∀ other ∈ boundaries, other ≠ boundary → boundary.index < other.index) :
    (boundaries.mergeSort fun left right => left.index ≤ right.index).head? = some boundary := by
  have hsorted : (boundaries.mergeSort fun left right => left.index ≤ right.index).Pairwise
      fun left right => decide (left.index ≤ right.index) = true :=
    List.pairwise_mergeSort (by simp; omega) (by simp; omega) boundaries
  have hperm := List.mergeSort_perm boundaries fun left right => left.index ≤ right.index
  generalize (boundaries.mergeSort fun left right => left.index ≤ right.index) = sorted at *
  cases sorted with
  | nil => exact absurd (hperm.mem_iff.2 hmem) List.not_mem_nil
  | cons head tail =>
    by_contra hne
    have hhead : head ≠ boundary := fun h => hne (by rw [h]; rfl)
    have htail : boundary ∈ tail :=
      (List.mem_cons.1 (hperm.mem_iff.2 hmem)).resolve_left (Ne.symm hhead)
    have hle := of_decide_eq_true ((List.pairwise_cons.1 hsorted).1 boundary htail)
    have := hlt head (hperm.mem_iff.1 List.mem_cons_self) hhead
    omega

theorem findFrameBoundary_nil : findFrameBoundary [] = none := by
  simp [findFrameBoundary, separators, indexOf]

/-- A separator at the start. -/
theorem findFrameBoundary_of_starts {s : List Char} (hs : s ∈ separators)
    (hstarts : s <+: c :: text) : findFrameBoundary (c :: text) = some ⟨0, s.length⟩ := by
  refine head?_mergeSort (List.mem_filterMap.2 ⟨s, hs, ?_⟩) ?_
  · rw [indexOf, if_pos hstarts]
    rfl
  · intro other hother hne
    obtain ⟨t, ht, hindex⟩ := List.mem_filterMap.1 hother
    -- another separator is not at the start as well
    have hnot : ¬t <+: c :: text := by
      intro hstarts'
      have hst : s = t := by
        rcases List.prefix_or_prefix_of_prefix hstarts hstarts' with h | h
        · exact separators_eq_of_starts s hs t ht h
        · exact (separators_eq_of_starts t ht s hs h).symm
      rw [indexOf, if_pos hstarts'] at hindex
      exact hne (by rw [hst]; exact (Option.some.inj hindex).symm)
    rw [indexOf, if_neg hnot, Option.map_map] at hindex
    obtain ⟨index, -, rfl⟩ := Option.map_eq_some_iff.1 hindex
    exact Nat.succ_pos index

/-- No separator at the start. -/
theorem findFrameBoundary_cons (h : ∀ s ∈ separators, ¬s <+: c :: text) :
    findFrameBoundary (c :: text) = (findFrameBoundary text).map FrameBoundary.shift := by
  have hfilter : (separators.filterMap fun separator =>
      (indexOf separator (c :: text)).map fun index => FrameBoundary.mk index separator.length) =
      (separators.filterMap fun separator =>
        (indexOf separator text).map fun index => FrameBoundary.mk index separator.length).map
          FrameBoundary.shift := by
    rw [List.map_filterMap]
    refine List.filterMap_congr fun s hs => ?_
    rw [indexOf, if_neg (h s hs), Option.map_map, Option.map_map]
    rfl
  rw [findFrameBoundary, hfilter, findFrameBoundary, ← List.head?_map]
  congr 1
  refine (List.map_mergeSort fun left _ right _ => ?_).symm
  simp [FrameBoundary.shift]

/-- What is left of a separator that is cut holds no boundary. -/
theorem findFrameBoundary_of_cut : ∀ s ∈ separators, ∀ text, text <+: s.tail → text ≠ s.tail →
    findFrameBoundary text = none := by
  intro s hs text hstarts hne
  have htext := (List.mem_inits _ _).2 hstarts
  simp only [separators, List.mem_cons, List.not_mem_nil, or_false] at hs
  rcases hs with rfl | rfl | rfl
  · have hcases : text = [] ∨ text = ['\n'] ∨ text = ['\n', '\r'] ∨ text = ['\n', '\r', '\n'] := by
      simpa using htext
    rcases hcases with rfl | rfl | rfl | rfl
    · exact findFrameBoundary_nil
    · simp [findFrameBoundary, separators, indexOf]
    · simp [findFrameBoundary, separators, indexOf]
    · exact absurd rfl hne
  · have hcases : text = [] ∨ text = ['\n'] := by simpa using htext
    rcases hcases with rfl | rfl
    · exact findFrameBoundary_nil
    · exact absurd rfl hne
  · have hcases : text = [] ∨ text = ['\r'] := by simpa using htext
    rcases hcases with rfl | rfl
    · exact findFrameBoundary_nil
    · exact absurd rfl hne

/-- **A boundary stays where it is as the buffer grows.** -/
theorem findFrameBoundary_append (h : findFrameBoundary front = some boundary)
    (behind : List Char) :
    findFrameBoundary (front ++ behind) = some boundary ∧
      boundary.index + boundary.length ≤ front.length ∧ 2 ≤ boundary.length := by
  induction front generalizing boundary with
  | nil =>
    rw [findFrameBoundary_nil] at h
    cases h
  | cons c text ih =>
    by_cases hp : ∃ s ∈ separators, s <+: c :: text
    · obtain ⟨s, hs, hstarts⟩ := hp
      rw [findFrameBoundary_of_starts hs hstarts] at h
      cases h
      have hstarts' : s <+: c :: (text ++ behind) := hstarts.trans (List.prefix_append _ _)
      have hlength := hstarts.length_le
      exact ⟨findFrameBoundary_of_starts hs hstarts', by simpa using hlength,
        two_le_length_separator s hs⟩
    · have hnot : ∀ s ∈ separators, ¬s <+: c :: text := fun s hs hstarts => hp ⟨s, hs, hstarts⟩
      rw [findFrameBoundary_cons hnot] at h
      obtain ⟨tailBoundary, htail, rfl⟩ := Option.map_eq_some_iff.1 h
      obtain ⟨happend, hindex, hlength⟩ := ih htail
      -- a separator that starts here and ends in `behind` leaves no room for the later boundary
      have hnot' : ∀ s ∈ separators, ¬s <+: c :: (text ++ behind) := by
        intro s hs hstarts
        cases s with
        | nil => exact absurd (two_le_length_separator [] hs) (by simp)
        | cons d rest =>
          obtain ⟨rfl, hrest⟩ := List.cons_prefix_cons.1 hstarts
          rcases List.prefix_or_prefix_of_prefix hrest (List.prefix_append text behind) with
            hin | hin
          · exact hnot _ hs (List.cons_prefix_cons.2 ⟨rfl, hin⟩)
          · by_cases heq : text = rest
            · exact hnot _ hs (by rw [heq])
            · rw [findFrameBoundary_of_cut _ hs text hin heq] at htail
              cases htail
      refine ⟨?_, ?_, hlength⟩
      · rw [List.cons_append, findFrameBoundary_cons hnot', happend]
        rfl
      · simp only [FrameBoundary.shift, List.length_cons]
        omega

/-- A boundary takes characters of the buffer. -/
theorem length_drop_lt (h : findFrameBoundary text = some boundary) :
    (text.drop (boundary.index + boundary.length)).length < text.length := by
  obtain ⟨-, hindex, hlength⟩ := findFrameBoundary_append h []
  rw [List.length_drop]
  omega

end

/-! ## The stream -/

/-- The inner loop of `parseSSEStream`: the events of the frames in the buffer, and what is left. -/
def drain (buffer : List Char) : List ServerSentEvent × List Char :=
  match _ : findFrameBoundary buffer with
  | none => ([], buffer)
  | some boundary =>
    let event := parseFrame (replaceCr (replaceCrLf (buffer.take boundary.index)))
    let rest := drain (buffer.drop (boundary.index + boundary.length))
    (event.toList ++ rest.1, rest.2)
termination_by buffer.length
decreasing_by exact length_drop_lt ‹_›

/-- The loop of `parseSSEStream`. -/
def parseChunks (decoder : Utf8Decoder) (buffer : List Char) :
    List (List UInt8) → List ServerSentEvent
  | [] => (drain (buffer ++ decoder.flush)).1
  | value :: chunks =>
    let decoded := decoder.decode value
    let drained := drain (buffer ++ decoded.2)
    drained.1 ++ parseChunks decoded.1 drained.2 chunks

/-- `parseSSEStream`. -/
def parseSSEStream (chunks : List (List UInt8)) : List ServerSentEvent :=
  parseChunks (.idle false) [] chunks

section

variable {text front behind : List Char} {boundary : FrameBoundary}

theorem drain_of_none (h : findFrameBoundary text = none) : drain text = ([], text) := by
  rw [drain]
  split
  · rfl
  · next heq => rw [h] at heq; cases heq

theorem drain_of_some (h : findFrameBoundary text = some boundary) :
    drain text = ((parseFrame (replaceCr (replaceCrLf (text.take boundary.index)))).toList ++
      (drain (text.drop (boundary.index + boundary.length))).1,
      (drain (text.drop (boundary.index + boundary.length))).2) := by
  rw [drain]
  split
  · next heq => rw [h] at heq; cases heq
  · next heq =>
    rw [h] at heq
    cases heq
    rfl

/-- **The frames of a buffer that grows.** -/
theorem drain_append (front behind : List Char) :
    drain (front ++ behind) = ((drain front).1 ++ (drain ((drain front).2 ++ behind)).1,
      (drain ((drain front).2 ++ behind)).2) := by
  induction hn : front.length using Nat.strong_induction_on generalizing front with
  | _ n ih =>
    cases h : findFrameBoundary front with
    | none => rw [drain_of_none h, List.nil_append]
    | some boundary =>
      obtain ⟨happend, hindex, -⟩ := findFrameBoundary_append h behind
      have htake : (front ++ behind).take boundary.index = front.take boundary.index :=
        List.take_append_of_le_length (by omega)
      have hdrop : (front ++ behind).drop (boundary.index + boundary.length) =
          front.drop (boundary.index + boundary.length) ++ behind :=
        List.drop_append_of_le_length hindex
      have hlt := length_drop_lt h
      rw [drain_of_some happend, drain_of_some h, htake, hdrop,
        ih _ (by omega) _ rfl, List.append_assoc]

/-- The chunks of a stream, from a decoder and a buffer. -/
theorem parseChunks_eq (decoder : Utf8Decoder) (buffer : List Char) (chunks : List (List UInt8)) :
    parseChunks decoder buffer chunks =
      (drain (buffer ++ (decoder.decode chunks.flatten).2 ++
        (decoder.decode chunks.flatten).1.flush)).1 := by
  induction chunks generalizing decoder buffer with
  | nil => rw [parseChunks, List.flatten_nil, Utf8Decoder.decode, List.append_nil]
  | cons value chunks ih =>
    have hdrain := congrArg Prod.fst (drain_append (buffer ++ (decoder.decode value).2)
      (((decoder.decode value).1.decode chunks.flatten).2 ++
        ((decoder.decode value).1.decode chunks.flatten).1.flush))
    rw [parseChunks, ih, List.flatten_cons, Utf8Decoder.decode_append]
    simp only [List.append_assoc] at hdrain ⊢
    exact hdrain.symm

/-- **The chunks of any stream can be cut anywhere.** -/
theorem parseSSEStream_eq (chunks : List (List UInt8)) :
    parseSSEStream chunks = parseSSEStream [chunks.flatten] := by
  rw [parseSSEStream, parseSSEStream, parseChunks_eq, parseChunks_eq, List.flatten_singleton]

end

/-! ## The frames of the server -/

/-- A text without CR in which every LF has a character that is no LF behind it. -/
def Solid : List Char → Prop
  | [] => True
  | c :: text => c ≠ '\r' ∧ (c = '\n' → ∃ d ∈ text.head?, d ≠ '\n') ∧ Solid text

/-- The lines of a frame. -/
def SseFrame.lines : SseFrame → List (List Char)
  | .connected => [": connected".toList]
  | .keepAlive => [": keep-alive".toList]
  | .event e => ["id: ".toList ++ Nat.toDigits 10 e.eventId, "event: ".toList ++ e.event,
      "data: ".toList ++ dumps r (.dict e.data)]

/-- The text of a frame, up to its boundary. -/
def SseFrame.body (frame : SseFrame) : List Char := ['\n'].intercalate (frame.lines r)

/-- The text of a list of frames. -/
def streamText (frames : List SseFrame) : List Char :=
  frames.flatMap fun frame => frame.body r ++ ['\n', '\n']

/-- What the client reads of a frame. -/
def SseFrame.received (frame : SseFrame) : Option ServerSentEvent :=
  frame.event?.map fun e => ⟨some (Nat.toDigits 10 e.eventId), e.event, dumps r (.dict e.data)⟩

/-- The name of the event has no line break. -/
def SseFrame.Named (frame : SseFrame) : Prop := ∀ e ∈ frame.event?, NoBreak e.event

section

variable {r} {text rest line : List Char} {frame : SseFrame}

theorem Solid.append_line (hline : NoBreak line) (h : Solid text) : Solid (line ++ text) := by
  induction line with
  | nil => exact h
  | cons c line ih =>
    obtain ⟨hc, hline⟩ := List.forall_mem_cons.1 hline
    exact ⟨hc.2, fun hlf => absurd hlf hc.1, ih hline⟩

/-- Lines that are not empty make a solid text. -/
theorem solid_intercalate {lines : List (List Char)}
    (h : ∀ line ∈ lines, line ≠ [] ∧ NoBreak line) :
    Solid (['\n'].intercalate lines) := by
  induction lines with
  | nil => trivial
  | cons line lines ih =>
    obtain ⟨⟨-, hline⟩, hlines⟩ := List.forall_mem_cons.1 h
    cases lines with
    | nil =>
      rw [List.intercalate_singleton, ← List.append_nil line]
      exact Solid.append_line hline trivial
    | cons second lines =>
      rw [List.intercalate_cons_cons, List.append_assoc]
      refine Solid.append_line hline ⟨by decide, fun _ => ?_, ih hlines⟩
      obtain ⟨⟨hne, hsecond⟩, -⟩ := List.forall_mem_cons.1 hlines
      obtain ⟨d, tail, rfl⟩ := List.exists_cons_of_ne_nil hne
      refine ⟨d, ?_, (hsecond d List.mem_cons_self).1⟩
      cases lines with
      | nil => rw [List.intercalate_singleton]; rfl
      | cons third lines => rw [List.intercalate_cons_cons]; rfl

/-- The boundary behind a solid text. -/
theorem findFrameBoundary_of_solid (h : Solid text) :
    findFrameBoundary (text ++ '\n' :: '\n' :: rest) = some ⟨text.length, 2⟩ := by
  induction text with
  | nil =>
    exact findFrameBoundary_of_starts (s := ['\n', '\n']) (by decide)
      (List.prefix_append ['\n', '\n'] rest)
  | cons c text ih =>
    obtain ⟨hcr, hlf, htext⟩ := h
    have hnot : ∀ s ∈ separators, ¬s <+: c :: (text ++ '\n' :: '\n' :: rest) := by
      intro s hs hstarts
      simp only [separators, List.mem_cons, List.not_mem_nil, or_false] at hs
      rcases hs with rfl | rfl | rfl
      · exact hcr (List.cons_prefix_cons.1 hstarts).1.symm
      · obtain ⟨hc, hstarts⟩ := List.cons_prefix_cons.1 hstarts
        obtain ⟨d, hd, hne⟩ := hlf hc.symm
        obtain ⟨tail, rfl⟩ := List.head?_eq_some_iff.1 hd
        exact hne (List.cons_prefix_cons.1 hstarts).1.symm
      · exact hcr (List.cons_prefix_cons.1 hstarts).1.symm
    rw [List.cons_append, findFrameBoundary_cons hnot, ih htext]
    rfl

theorem Solid.replaceCrLf_eq (h : Solid text) : replaceCrLf text = text := by
  induction text with
  | nil => rfl
  | cons c text ih =>
    obtain ⟨hcr, -, htext⟩ := h
    rw [replaceCrLf.eq_2 _ _ fun _ hc _ => hcr hc, ih htext]

theorem Solid.replaceCr_eq (h : Solid text) : replaceCr text = text := by
  induction text with
  | nil => rfl
  | cons c text ih =>
    obtain ⟨hcr, -, htext⟩ := h
    rw [replaceCr, List.map_cons, if_neg hcr]
    exact congrArg (c :: ·) (ih htext)

/-- A frame is taken off the buffer. -/
theorem drain_solid (h : Solid text) :
    drain (text ++ '\n' :: '\n' :: rest) =
      ((parseFrame text).toList ++ (drain rest).1, (drain rest).2) := by
  have hdrop : (text ++ '\n' :: '\n' :: rest).drop (text.length + 2) = rest := by
    rw [List.drop_append, List.drop_eq_nil_of_le (by omega), Nat.add_sub_cancel_left]
    rfl
  rw [drain_of_some (findFrameBoundary_of_solid h), List.take_left, h.replaceCrLf_eq,
    h.replaceCr_eq, hdrop]

/-! ## The lines of a frame -/

theorem indexOf_colon {field : List Char} (h : ':' ∉ field) (rest : List Char) :
    indexOf [':'] (field ++ ':' :: rest) = some field.length := by
  induction field with
  | nil => exact if_pos (List.prefix_append [':'] rest)
  | cons c field ih =>
    obtain ⟨hc, hfield⟩ := not_or.1 (mt List.mem_cons.2 h)
    have hnot : ¬[':'] <+: c :: (field ++ ':' :: rest) :=
      fun hstarts => hc (List.cons_prefix_cons.1 hstarts).1
    rw [List.cons_append, indexOf, if_neg hnot, ih hfield]
    rfl

/-- A line `field: value`. -/
theorem readLine_field {fields : FrameFields} (field value : List Char)
    (hne : field ≠ []) (h : ':' ∉ field) :
    fields.readLine (field ++ ':' :: ' ' :: value) = fields.assign field value := by
  have hline : ¬(field ++ ':' :: ' ' :: value = [] ∨
      (field ++ ':' :: ' ' :: value).head? = some ':') := by
    obtain ⟨c, tail, rfl⟩ := List.exists_cons_of_ne_nil hne
    rintro (hnil | hhead)
    · cases hnil
    · exact h (by rw [← Option.some.inj hhead]; exact List.mem_cons_self)
  have hdrop : (field ++ ':' :: ' ' :: value).drop (field.length + 1) = ' ' :: value := by
    rw [List.drop_append, List.drop_eq_nil_of_le (by omega), Nat.add_sub_cancel_left]
    rfl
  rw [FrameFields.readLine, if_neg hline, indexOf_colon h]
  simp only [Option.map_some, Option.getD_some, List.take_left, hdrop]
  rfl

/-- The lines of a named frame are not empty, and have no line break. -/
theorem SseFrame.Named.lines (h : frame.Named) :
    ∀ line ∈ frame.lines r, line ≠ [] ∧ NoBreak line := by
  intro line hline
  cases frame with
  | connected =>
    rw [List.mem_singleton.1 hline]
    exact ⟨by decide, by decide⟩
  | keepAlive =>
    rw [List.mem_singleton.1 hline]
    exact ⟨by decide, by decide⟩
  | event e =>
    simp only [SseFrame.lines, List.mem_cons, List.not_mem_nil, or_false] at hline
    rcases hline with rfl | rfl | rfl
    · exact ⟨List.cons_ne_nil _ _, .append (by decide) (noBreak_toDigits _)⟩
    · exact ⟨List.cons_ne_nil _ _, .append (by decide) (h e rfl)⟩
    · exact ⟨List.cons_ne_nil _ _, .append (by decide) (noBreak_dumps _)⟩

theorem SseFrame.Named.solid_body (h : frame.Named) : Solid (frame.body r) :=
  solid_intercalate h.lines

theorem zero_notMem_toDigits (n : ℕ) : '\x00' ∉ Nat.toDigits 10 n := by
  intro h
  have hdigit := Nat.isDigit_of_mem_toDigits (by norm_num) (by norm_num) h
  exact absurd hdigit (by decide)

/-- The client reads the frame. -/
theorem SseFrame.Named.parseFrame_body (h : frame.Named) :
    parseFrame (frame.body r) = frame.received r := by
  have hsplit : (frame.body r).splitOn '\n' = frame.lines r :=
    List.splitOn_intercalate '\n' (fun line hline hmem => ((h.lines line hline).2 _ hmem).1 rfl)
      (by cases frame <;> exact List.cons_ne_nil _ _)
  rw [parseFrame, hsplit]
  cases frame with
  | connected => rfl
  | keepAlive => rfl
  | event e =>
    have hid (fields : FrameFields) :
        fields.readLine ("id: ".toList ++ Nat.toDigits 10 e.eventId) =
          fields.assign "id".toList (Nat.toDigits 10 e.eventId) :=
      readLine_field "id".toList _ (by decide) (by decide)
    have hevent (fields : FrameFields) :
        fields.readLine ("event: ".toList ++ e.event) = fields.assign "event".toList e.event :=
      readLine_field "event".toList _ (by decide) (by decide)
    have hdata (fields : FrameFields) :
        fields.readLine ("data: ".toList ++ dumps r (.dict e.data)) =
          fields.assign "data".toList (dumps r (.dict e.data)) :=
      readLine_field "data".toList _ (by decide) (by decide)
    simp only [SseFrame.lines, List.foldl_cons, List.foldl_nil, hid, hevent, hdata]
    simp [FrameFields.assign, SseFrame.received, SseFrame.event?, zero_notMem_toDigits]

/-- Three lines and a boundary. -/
theorem three_lines (a x b y c z : List Char) :
    a ++ x ++ '\n' :: b ++ y ++ '\n' :: c ++ z ++ ['\n', '\n'] =
      ['\n'].intercalate [a ++ x, b ++ y, c ++ z] ++ ['\n', '\n'] := by
  rw [List.intercalate_cons_cons, List.intercalate_cons_cons, List.intercalate_singleton]
  simp

/-- The text of an event is its lines and the boundary. -/
theorem sseEventText_eq (e : RealtimeEvent) :
    sseEventText r e = (SseFrame.event e).body r ++ ['\n', '\n'] := by
  have hevent : "\nevent: ".toList = '\n' :: "event: ".toList := by decide
  have hdata : "\ndata: ".toList = '\n' :: "data: ".toList := by decide
  have hend : "\n\n".toList = ['\n', '\n'] := by decide
  unfold sseEventText SseFrame.body SseFrame.lines
  rw [hevent, hdata, hend]
  exact three_lines _ _ _ _ _ _

/-- The bytes of a frame. -/
theorem SseFrame.bytes_eq (frame : SseFrame) :
    frame.bytes r = encode (frame.body r ++ ['\n', '\n']) := by
  cases frame with
  | connected =>
    rw [SseFrame.bytes, SseFrame.body, SseFrame.lines]
    exact congrArg encode (by decide)
  | keepAlive =>
    rw [SseFrame.bytes, SseFrame.body, SseFrame.lines]
    exact congrArg encode (by decide)
  | event e => exact congrArg encode (sseEventText_eq e)

theorem flatMap_bytes (frames : List SseFrame) :
    frames.flatMap (SseFrame.bytes r) = encode (streamText r frames) := by
  induction frames with
  | nil => rfl
  | cons frame frames ih =>
    rw [List.flatMap_cons, ih, SseFrame.bytes_eq, ← encode_append]
    rfl

/-- A frame starts with no byte order mark. -/
theorem SseFrame.body_eq_cons (frame : SseFrame) :
    ∃ c text, frame.body r = c :: text ∧ c ≠ '\uFEFF' := by
  cases frame with
  | connected => exact ⟨':', " connected".toList, rfl, by decide⟩
  | keepAlive => exact ⟨':', " keep-alive".toList, rfl, by decide⟩
  | event e =>
    unfold SseFrame.body SseFrame.lines
    rw [List.intercalate_cons_cons]
    exact ⟨'i', _, rfl, by decide⟩

/-- The bytes of the frames are read as their text. -/
theorem decode_streamText (frames : List SseFrame) :
    ∃ started, (Utf8Decoder.idle false).decode (encode (streamText r frames)) =
      (.idle started, streamText r frames) := by
  cases frames with
  | nil => exact ⟨false, rfl⟩
  | cons frame frames =>
    obtain ⟨c, text, hbody, hc⟩ := frame.body_eq_cons (r := r)
    rw [streamText, List.flatMap_cons, hbody, List.cons_append, List.cons_append]
    exact ⟨true, Utf8Decoder.decode_encode_cons _ hc⟩

/-- The frames of the text are read one by one. -/
theorem drain_streamText {frames : List SseFrame} (h : ∀ frame ∈ frames, frame.Named) :
    drain (streamText r frames) = (frames.filterMap (SseFrame.received r), []) := by
  induction frames with
  | nil => exact drain_of_none findFrameBoundary_nil
  | cons frame frames ih =>
    obtain ⟨hframe, hframes⟩ := List.forall_mem_cons.1 h
    have htext : streamText r (frame :: frames) =
        frame.body r ++ '\n' :: '\n' :: streamText r frames := by
      rw [streamText, List.flatMap_cons, List.append_assoc]
      rfl
    rw [htext, drain_solid hframe.solid_body, ih hframes,
      hframe.parseFrame_body, List.filterMap_cons]
    cases frame.received r with
    | none => rfl
    | some received => rfl

/-- What the client reads, for every way of cutting the bytes into chunks. -/
theorem parseSSEStream_bytes {frames : List SseFrame} {chunks : List (List UInt8)}
    (hnamed : ∀ frame ∈ frames, frame.Named)
    (hchunks : chunks.flatten = frames.flatMap (SseFrame.bytes r)) :
    parseSSEStream chunks = frames.filterMap (SseFrame.received r) := by
  obtain ⟨started, hdecode⟩ := decode_streamText (r := r) frames
  rw [parseSSEStream, parseChunks_eq, hchunks, flatMap_bytes, hdecode]
  show (drain (streamText r frames ++ [])).1 = _
  rw [List.append_nil, drain_streamText hnamed]

end

/-! ## The round trip -/

/-- The event is received; `integer` is what becomes of the integers of its data. -/
def Received (integer : ℤ → Number) (event : RealtimeEvent) (received : ServerSentEvent) : Prop :=
  received.id = some (Nat.toDigits 10 event.eventId) ∧ received.event = event.event ∧
    Json.parse received.data = some ((PyValue.dict event.data).toJs integer)

/-- The event is received as it was sent, its integers as the doubles nearest to them; where these
are at most 2^53 in absolute value it is received exactly. -/
def ReceivedAsSent (event : RealtimeEvent) (received : ServerSentEvent) : Prop :=
  Received .ofInt event received ∧
    ((PyValue.dict event.data).IntegersWithin (2 ^ 53) → Received .exactInt event received)

section

variable {r}

theorem SseFrame.received_spec {frame : SseFrame} {event : RealtimeEvent}
    (h : frame.event? = some event) :
    ∃ received, frame.received r = some received ∧ ReceivedAsSent event received := by
  refine ⟨_, congrArg (Option.map _) h, ⟨rfl, rfl, parse_dumps r event.wellFormed⟩, ?_⟩
  intro hwithin
  refine ⟨rfl, rfl, ?_⟩
  rw [← toJs_ofInt _ hwithin]
  exact parse_dumps r event.wellFormed

/-- **Decoding undoes encoding.**  For every list of events and comment frames, and every way of
cutting its bytes into chunks, the client yields the events, in order and once each. -/
theorem sse_decoding_undoes_encoding (r : FloatRepr) (frames : List SseFrame)
    (chunks : List (List UInt8)) (hnames : ∀ event ∈ frames.filterMap SseFrame.event?,
      NoBreak event.event)
    (hchunks : chunks.flatten = frames.flatMap (SseFrame.bytes r)) :
    List.Forall₂ ReceivedAsSent (frames.filterMap SseFrame.event?) (parseSSEStream chunks) := by
  have hnamed : ∀ frame ∈ frames, frame.Named := fun frame hframe event hevent =>
    hnames event (List.mem_filterMap.2 ⟨frame, hframe, hevent⟩)
  rw [parseSSEStream_bytes hnamed hchunks]
  clear hnames hchunks hnamed
  induction frames with
  | nil => exact .nil
  | cons frame frames ih =>
    cases hevent : frame.event? with
    | none =>
      have hreceived : frame.received r = none := congrArg (Option.map _) hevent
      rw [List.filterMap_cons_none hevent, List.filterMap_cons_none hreceived]
      exact ih
    | some event =>
      obtain ⟨received, hreceived, hspec⟩ := SseFrame.received_spec (r := r) hevent
      rw [List.filterMap_cons_some hevent, List.filterMap_cons_some hreceived]
      exact .cons hspec ih

/-- A ticket whose client has letters of two bytes. -/
def ticketEvent : RealtimeEvent where
  eventId := 4
  event := "rfp_ticket_created".toList
  data := [("client_name".toList, .str "Łódź".toList), ("departments".toList, .int 2)]
  eventId_pos := by decide
  event_length := by decide
  wellFormed := by
    rw [PyValue.WellFormed, WellFormedMembers, WellFormedMembers, WellFormedMembers]
    exact ⟨by decide, trivial, trivial, trivial⟩

/-- The bytes of a ticket between two comments arrive one by one. -/
theorem sse_decoding_byte_by_byte :
    List.Forall₂ ReceivedAsSent [ticketEvent] (parseSSEStream
      (([.connected, .event ticketEvent, .keepAlive].flatMap (SseFrame.bytes exactRepr)).map
        ([·]))) := by
  refine sse_decoding_undoes_encoding exactRepr [.connected, .event ticketEvent, .keepAlive] _ ?_ ?_
  · intro event hevent
    rw [List.mem_singleton.1 hevent]
    decide
  · exact List.flatMap_singleton' _

/-- An event with the least integer that is not a double. -/
def largeEvent : RealtimeEvent where
  eventId := 1
  event := "update".toList
  data := [("value".toList, .int 9007199254740993)]
  eventId_pos := by decide
  event_length := by decide
  wellFormed := by
    rw [PyValue.WellFormed, WellFormedMembers, WellFormedMembers]
    exact ⟨by decide, trivial, trivial⟩

theorem toJs_largeEvent : (PyValue.dict largeEvent.data).toJs .ofInt ≠
    (PyValue.dict largeEvent.data).toJs .exactInt := by
  intro h
  simp only [largeEvent, PyValue.toJs, toJsMembers, JsValue.object.injEq, List.cons.injEq,
    Prod.mk.injEq, JsValue.number.injEq, and_true, true_and] at h
  have hnearest : Number.ofInt 9007199254740993 = .finite false ((2 ^ 53 : ℕ) : ℚ) := by
    have habs : ((9007199254740993 : ℤ).natAbs : ℚ) = ((2 ^ 53 + 1 : ℕ) : ℚ) := by norm_num
    rw [Number.ofInt, Number.ofRat, habs, nearest_two_pow_53_add_one]
    rfl
  rw [hnearest, Number.exactInt] at h
  injection h with _ hmagnitude
  norm_num at hmagnitude

/-- **A large integer is rounded.**  The client reads 9007199254740993 as 9007199254740992. -/
theorem large_integer_is_rounded : NoBreak largeEvent.event ∧
    ¬List.Forall₂ (Received .exactInt) [largeEvent]
      (parseSSEStream [encodeSseEvent exactRepr largeEvent]) := by
  have hname : NoBreak largeEvent.event := by decide
  refine ⟨hname, fun h => ?_⟩
  have hnamed : ∀ frame ∈ [SseFrame.event largeEvent], frame.Named := by
    intro frame hframe event hevent
    rw [List.mem_singleton.1 hframe] at hevent
    rwa [← Option.some.inj hevent]
  have hbytes : [encodeSseEvent exactRepr largeEvent].flatten =
      [.event largeEvent].flatMap (SseFrame.bytes exactRepr) := by
    rw [List.flatten_singleton, List.flatMap_singleton]
    rfl
  rw [parseSSEStream_bytes hnamed hbytes] at h
  obtain ⟨-, -, hdata⟩ := (List.forall₂_cons.1 h).1
  rw [parse_dumps exactRepr largeEvent.wellFormed] at hdata
  exact toJs_largeEvent (Option.some.inj hdata)

end

end Realtime

end TrackFlow
