import Mathlib.Data.Char
import Mathlib.Data.List.Lex
import Mathlib.Data.List.Sort
import TrackFlow.Python.Raise
import TrackFlow.Rag.Chunks
import TrackFlow.Sql.Table

/-!
# The index of the knowledge base

`setup` splits the documents of a directory into chunks and stores one point for each, under an id
made from the document and the number of the chunk.  A run without `recreate` overwrites the points
with the ids it sends, and removes none.

* `nodup_pointId` : files with different slugs have chunks with different ids.
* `setup` : one run.
* `Reaches` : the runs without `recreate`, from a server without the collection.
* `setup_overlays_corpus` : **the points are those of the current corpus, and those of earlier ones
  with ids that the current corpus does not have.**
* `setup_keeps_stale_chunk` : a document is shortened, and its last chunk stays.
-/

namespace TrackFlow

namespace Rag

open Python

/-! ## The corpus -/

/-- A file of the corpus directory. -/
structure Document where
  name : List Char
  markdown : List Char

/-- `source_document_slug`. -/
def sourceDocumentSlug (filename : List Char) : List Char :=
  let stem :=
    if ".en.md".toList <:+ filename then filename.take (filename.length - 6)
    else if ".md".toList <:+ filename then filename.take (filename.length - 3)
    else filename
  let stem := if "trackflow-".toList <+: stem then stem.drop 10 else stem
  stem.takeWhile (· != '.')

/-- The files that are indexed: `*.md` without the `README`, by name. -/
def indexedFiles (directory : List Document) : List Document :=
  (directory.filter fun file =>
    ".md".toList <:+ file.name && file.name.map Char.toLower != "readme.md".toList).insertionSort
      fun file file' => file.name ≤ file'.name

theorem chunkDocument_isSome (t : Tables) (markdown sourceDocument : List Char) :
    (chunkDocument t markdown sourceDocument).isSome = true := by
  simp only [chunkDocument, groupBlocks_eq, Option.bind_eq_bind, Option.bind_some]
  split_ifs <;> rfl

/-- The chunks of a file. -/
def chunksOf (t : Tables) (file : Document) : Except Error (List Chunk) :=
  (chunkDocument t file.markdown (sourceDocumentSlug file.name)).get
    (chunkDocument_isSome t file.markdown _)

/-- `_load_corpus`. -/
def loadCorpus (t : Tables) (corpusDir : List Char) (directory : List Document) :
    Except Error (List Chunk) := do
  let files := indexedFiles directory
  if files.isEmpty then
    throw (.ragPipelineError ("No knowledge-base documents found in ".toList ++ corpusDir))
  return (← files.mapM (chunksOf t)).flatten

/-! ## The collection -/

variable {Id V : Type}

/-- What is hashed to the id of a chunk's point. -/
def Chunk.pointName (chunk : Chunk) : List Char :=
  chunk.sourceDocument ++ ':' :: Nat.toDigits 10 chunk.chunkIndex

/-- `Chunk.point_id`; `uuid5` is the hash of a name in the fixed namespace. -/
def Chunk.pointId (uuid5 : List Char → Id) (chunk : Chunk) : Id := uuid5 chunk.pointName

/-- `PointStruct`. -/
structure Point (Id V : Type) where
  id : Id
  vector : V
  payload : Chunk
  deriving DecidableEq

/-- The points of the collection. -/
abbrev Collection (Id V : Type) := Table fun point : Point Id V => point.id

/-- What becomes of a request to store points. -/
inductive Delivery
  | acknowledged
  /-- The points are stored, and the client does not learn it. -/
  | unacknowledged (error : Error)
  | lost (error : Error)

/-- A run: its arguments, the files it reads, and what the providers answer. -/
structure Run (V : Type) where
  corpusDir : List Char
  directory : List Document
  recreate : Bool
  embed : List Char → Except Error V
  delivery : Delivery

/-- `SetupResult`. -/
structure SetupResult where
  documents : ℕ
  chunks : ℕ

/-- `_ensure_collection`. -/
def ensureCollection (recreate : Bool) : Option (Collection Id V) → Collection Id V
  | none => .empty
  | some points => if recreate then .empty else points

/-- The point of a chunk. -/
def pointOf (uuid5 : List Char → Id) (embed : List Char → Except Error V) (chunk : Chunk) :
    Except Error (Point Id V) := do
  return ⟨chunk.pointId uuid5, ← embed chunk.text, chunk⟩

/-! ## The ids of a corpus -/

section

variable {t : Tables} {uuid5 : List Char → Id}

/-- The chunks of a file name its document, and are numbered from 0. -/
theorem exists_mapIdx_of_chunksOf {file : Document} {chunks : List Chunk}
    (h : chunksOf t file = .ok chunks) : ∃ title texts, chunks = List.mapIdx
      (fun index text => chunkOf t title (sourceDocumentSlug file.name) text index) texts := by
  have hsome : chunkDocument t file.markdown (sourceDocumentSlug file.name) = some (.ok chunks) :=
    (Option.some_get _).symm.trans (congrArg some h)
  simp only [chunkDocument, groupBlocks_eq, Option.bind_eq_bind, Option.bind_some] at hsome
  split_ifs at hsome
  · cases Option.some.inj hsome
  · exact ⟨_, _, (Except.ok.inj (Option.some.inj hsome)).symm⟩
  · exact ⟨_, _, (Except.ok.inj (Option.some.inj hsome)).symm⟩

/-- The number stands behind the last colon. -/
theorem rtakeWhile_pointName (chunk : Chunk) :
    chunk.pointName.rtakeWhile (· != ':') = Nat.toDigits 10 chunk.chunkIndex ∧
      chunk.pointName.rdropWhile (· != ':') = chunk.sourceDocument ++ [':'] := by
  have hdigits : ∀ c ∈ (Nat.toDigits 10 chunk.chunkIndex).reverse, (c != ':') = true := by
    intro c hc
    have hdigit := Nat.isDigit_of_mem_toDigits (by decide) (by decide) (List.mem_reverse.1 hc)
    rw [bne_iff_ne]
    rintro rfl
    exact absurd hdigit (by decide)
  rw [List.rtakeWhile, List.rdropWhile, Chunk.pointName, List.reverse_append, List.reverse_cons,
    List.append_assoc, List.takeWhile_append_of_pos hdigits, List.dropWhile_append_of_pos hdigits]
  simp

/-- A name tells the document and the number. -/
theorem pointName_inj {chunk chunk' : Chunk} (h : chunk.pointName = chunk'.pointName) :
    chunk.sourceDocument = chunk'.sourceDocument ∧ chunk.chunkIndex = chunk'.chunkIndex := by
  obtain ⟨hindex, hdocument⟩ := rtakeWhile_pointName chunk
  rw [h, (rtakeWhile_pointName chunk').1] at hindex
  rw [h, (rtakeWhile_pointName chunk').2] at hdocument
  refine ⟨(List.append_cancel_right hdocument).symm, ?_⟩
  rw [← Nat.ofDigitChars_toDigits (n := chunk.chunkIndex) (b := 10) (by decide) (by decide),
    ← hindex, Nat.ofDigitChars_toDigits (by decide) (by decide)]

/-- What a chunk is numbered by. -/
def Chunk.key (chunk : Chunk) : List Char × ℕ := (chunk.sourceDocument, chunk.chunkIndex)

theorem nodup_key_of_chunksOf {file : Document} {chunks : List Chunk}
    (h : chunksOf t file = .ok chunks) : (chunks.map Chunk.key).Nodup ∧
      ∀ chunk ∈ chunks, chunk.sourceDocument = sourceDocumentSlug file.name := by
  obtain ⟨title, texts, rfl⟩ := exists_mapIdx_of_chunksOf h
  constructor
  · refine List.Nodup.of_map Prod.snd ?_
    have hnumbers : (List.mapIdx (fun index text =>
        chunkOf t title (sourceDocumentSlug file.name) text index) texts).map
          (Prod.snd ∘ Chunk.key) = List.range texts.length := by
      refine List.ext_getElem (by simp) fun i hi hi' => ?_
      rw [List.getElem_map, List.getElem_mapIdx, List.getElem_range]
      rfl
    rw [List.map_map, hnumbers]
    exact List.nodup_range
  · intro chunk hchunk
    obtain ⟨i, hi, rfl⟩ := List.mem_mapIdx.1 hchunk
    rfl

/-- The chunks of files with different slugs. -/
theorem nodup_key_flatten {files : List Document} {lists : List (List Chunk)}
    (h : List.Forall₂ (fun file chunks => chunksOf t file = .ok chunks) files lists)
    (hslugs : (files.map fun file => sourceDocumentSlug file.name).Nodup) :
    (lists.flatten.map Chunk.key).Nodup ∧ ∀ chunk ∈ lists.flatten,
      chunk.sourceDocument ∈ files.map fun file => sourceDocumentSlug file.name := by
  induction h with
  | nil => exact ⟨List.nodup_nil, fun chunk hmem => absurd hmem List.not_mem_nil⟩
  | @cons file chunks files lists hfile _ ih =>
    obtain ⟨hnot, hslugs⟩ := List.nodup_cons.1 hslugs
    obtain ⟨hkeys, hslug⟩ := nodup_key_of_chunksOf hfile
    obtain ⟨hrest, hmem⟩ := ih hslugs
    rw [List.flatten_cons, List.map_append]
    refine ⟨hkeys.append hrest ?_, ?_⟩
    · intro key hkey hkey'
      obtain ⟨chunk, hchunk, rfl⟩ := List.mem_map.1 hkey
      obtain ⟨chunk', hchunk', heq⟩ := List.mem_map.1 hkey'
      have hdocument : chunk'.sourceDocument = chunk.sourceDocument := congrArg Prod.fst heq
      rw [hslug chunk hchunk] at hdocument
      have hmem' := hmem chunk' hchunk'
      rw [hdocument] at hmem'
      exact hnot hmem'
    · intro chunk hchunk
      rw [List.map_cons, List.mem_cons]
      rcases List.mem_append.1 hchunk with hchunk | hchunk
      · exact .inl (hslug chunk hchunk)
      · exact .inr (hmem chunk hchunk)

/-- **The ids of a corpus are different** when its files have different slugs, and the hash tells
the names of its chunks apart. -/
theorem nodup_pointId {corpusDir : List Char} {directory : List Document} {chunks : List Chunk}
    (h : loadCorpus t corpusDir directory = .ok chunks)
    (hslugs : ((indexedFiles directory).map fun file => sourceDocumentSlug file.name).Nodup)
    (hhash : ∀ chunk ∈ chunks, ∀ chunk' ∈ chunks, chunk.pointId uuid5 = chunk'.pointId uuid5 →
      chunk.pointName = chunk'.pointName) :
    (chunks.map (Chunk.pointId uuid5)).Nodup := by
  simp only [loadCorpus] at h
  split_ifs at h
  · exact absurd h nofun
  obtain ⟨lists, hlists, h⟩ := except_bind_eq_ok.1 h
  obtain rfl := except_pure_eq_ok.1 h
  have hkeys := (nodup_key_flatten (forall₂_of_mapM_eq_ok hlists) hslugs).1
  refine (List.Nodup.of_map _ hkeys).map_on fun chunk hchunk chunk' hchunk' heq => ?_
  have hname := pointName_inj (hhash chunk hchunk chunk' hchunk' heq)
  exact List.inj_on_of_nodup_map hkeys hchunk hchunk' (Prod.ext hname.1 hname.2)

end

/-! ## Runs -/

variable [DecidableEq Id]

/-- `client.upsert`: a point takes the place of the one with its id. -/
def upsertPoints (points : Collection Id V) (batch : List (Point Id V)) : Collection Id V :=
  batch.foldl Table.upsert points

/-- `setup`; the collection is `none` before it is created. -/
def setup (uuid5 : List Char → Id) (t : Tables) (run : Run V)
    (store : Option (Collection Id V)) : Except Error SetupResult × Option (Collection Id V) :=
  match loadCorpus t run.corpusDir run.directory with
  | .error error => (.error error, store)
  | .ok chunks =>
    let points := ensureCollection run.recreate store
    match chunks.mapM (pointOf uuid5 run.embed) with
    | .error error => (.error error, some points)
    | .ok batch =>
      match run.delivery with
      | .acknowledged =>
        (.ok ⟨(chunks.map Chunk.sourceDocument).dedup.length, batch.length⟩,
          some (upsertPoints points batch))
      | .unacknowledged error => (.error error, some (upsertPoints points batch))
      | .lost error => (.error error, some points)

/-- The points of a collection that may not exist yet. -/
def storedPoints (store : Option (Collection Id V)) : List (Point Id V) := store.elim [] Table.rows

/-- The stores that runs without `recreate` lead to, one after the other. -/
inductive Reaches (uuid5 : List Char → Id) (t : Tables) :
    List (Run V) → Option (Collection Id V) → Prop
  | start : Reaches uuid5 t [] none
  | next {runs : List (Run V)} {store : Option (Collection Id V)} {run : Run V}
      (hruns : Reaches uuid5 t runs store) (hrecreate : run.recreate = false) :
      Reaches uuid5 t (runs ++ [run]) (setup uuid5 t run store).2

/-! ## One run -/

variable {uuid5 : List Char → Id} {t : Tables} {embed : List Char → Except Error V}
  {points : Collection Id V} {batch : List (Point Id V)} {chunks : List Chunk}

omit [DecidableEq Id] in
/-- The points of the chunks. -/
theorem payload_of_mapM (h : chunks.mapM (pointOf uuid5 embed) = .ok batch) :
    batch.map Point.payload = chunks ∧ ∀ point ∈ batch, point.id = point.payload.pointId uuid5 := by
  have hall := forall₂_of_mapM_eq_ok h
  clear h
  induction hall with
  | nil => exact ⟨rfl, fun point hmem => absurd hmem List.not_mem_nil⟩
  | @cons chunk point chunks batch hpoint _ ih =>
    obtain ⟨vector, -, hpoint⟩ := except_bind_eq_ok.1 hpoint
    obtain rfl := except_pure_eq_ok.1 hpoint
    exact ⟨by rw [List.map_cons, ih.1], List.forall_mem_cons.2 ⟨rfl, ih.2⟩⟩

theorem mem_of_mem_upsertPoints {point : Point Id V}
    (h : point ∈ (upsertPoints points batch).rows) : point ∈ points.rows ∨ point ∈ batch := by
  induction batch generalizing points with
  | nil => exact .inl h
  | cons first batch ih =>
    rcases ih h with hmem | hmem
    · rcases Table.mem_upsert.1 hmem with ⟨hmem, -⟩ | rfl
      · exact .inl hmem
      · exact .inr List.mem_cons_self
    · exact .inr (List.mem_cons_of_mem _ hmem)

/-- A batch of points with different ids. -/
theorem mem_upsertPoints {point : Point Id V} (hids : (batch.map Point.id).Nodup) :
    point ∈ (upsertPoints points batch).rows ↔
      (point ∈ points.rows ∧ point.id ∉ batch.map Point.id) ∨ point ∈ batch := by
  induction batch generalizing points with
  | nil => simp [upsertPoints]
  | cons first batch ih =>
    obtain ⟨hfirst, hids⟩ := List.nodup_cons.1 hids
    rw [upsertPoints, List.foldl_cons, ← upsertPoints, ih hids, Table.mem_upsert, List.map_cons,
      List.mem_cons, not_or, List.mem_cons]
    constructor
    · rintro (⟨⟨hmem, hne⟩ | rfl, hnot⟩ | hmem)
      · exact .inl ⟨hmem, hne, hnot⟩
      · exact .inr (.inl rfl)
      · exact .inr (.inr hmem)
    · rintro (⟨hmem, hne, hnot⟩ | rfl | hmem)
      · exact .inl ⟨.inl ⟨hmem, hne⟩, hnot⟩
      · exact .inl ⟨.inr rfl, hfirst⟩
      · exact .inr hmem

omit [DecidableEq Id] in
theorem rows_ensureCollection (store : Option (Collection Id V)) :
    (ensureCollection false store).rows = storedPoints store := by
  cases store <;> rfl

/-- What a run may do to the collection. -/
theorem setup_cases (run : Run V) (store : Option (Collection Id V))
    (hrecreate : run.recreate = false) :
    storedPoints (setup uuid5 t run store).2 = storedPoints store ∨
      ∃ chunks batch, loadCorpus t run.corpusDir run.directory = .ok chunks ∧
        chunks.mapM (pointOf uuid5 run.embed) = .ok batch ∧
        (setup uuid5 t run store).2 = some (upsertPoints (ensureCollection false store) batch) := by
  unfold setup
  cases hload : loadCorpus t run.corpusDir run.directory with
  | error error => exact .inl rfl
  | ok chunks =>
    simp only [hrecreate]
    cases hbatch : chunks.mapM (pointOf uuid5 run.embed) with
    | error error => exact .inl (rows_ensureCollection store)
    | ok batch =>
      cases run.delivery with
      | acknowledged => exact .inr ⟨chunks, batch, rfl, hbatch, rfl⟩
      | unacknowledged error => exact .inr ⟨chunks, batch, rfl, hbatch, rfl⟩
      | lost error => exact .inl (rows_ensureCollection store)

/-- A run that returns has stored the points of all chunks. -/
theorem exists_of_setup_eq_ok {run : Run V} {store store' : Option (Collection Id V)}
    {result : SetupResult} (h : setup uuid5 t run store = (.ok result, store')) :
    ∃ chunks batch, loadCorpus t run.corpusDir run.directory = .ok chunks ∧
      chunks.mapM (pointOf uuid5 run.embed) = .ok batch ∧
      store' = some (upsertPoints (ensureCollection run.recreate store) batch) := by
  unfold setup at h
  cases hload : loadCorpus t run.corpusDir run.directory with
  | error error => simp [hload] at h
  | ok chunks =>
    simp only [hload] at h
    cases hbatch : chunks.mapM (pointOf uuid5 run.embed) with
    | error error => simp [hbatch] at h
    | ok batch =>
      cases hdelivery : run.delivery with
      | acknowledged =>
        simp only [hbatch, hdelivery, Prod.mk.injEq] at h
        exact ⟨chunks, batch, rfl, hbatch, h.2.symm⟩
      | unacknowledged error => simp [hbatch, hdelivery] at h
      | lost error => simp [hbatch, hdelivery] at h

/-! ## All runs -/

/-- Every point has the id of its chunk, which is one of a corpus that was indexed. -/
theorem Reaches.origin {runs : List (Run V)} {store : Option (Collection Id V)}
    (h : Reaches uuid5 t runs store) : ∀ point ∈ storedPoints store,
      point.id = point.payload.pointId uuid5 ∧ ∃ run ∈ runs, ∃ chunks,
        loadCorpus t run.corpusDir run.directory = .ok chunks ∧ point.payload ∈ chunks := by
  induction h with
  | start => exact fun point hmem => absurd hmem List.not_mem_nil
  | @next runs store run hruns hrecreate ih =>
    have hold : ∀ point ∈ storedPoints store, point.id = point.payload.pointId uuid5 ∧
        ∃ run' ∈ runs ++ [run], ∃ chunks,
          loadCorpus t run'.corpusDir run'.directory = .ok chunks ∧ point.payload ∈ chunks := by
      intro point hmem
      obtain ⟨hid, run', hrun', hchunks⟩ := ih point hmem
      exact ⟨hid, run', List.mem_append_left _ hrun', hchunks⟩
    intro point hmem
    rcases setup_cases run store hrecreate with hsame | ⟨chunks, batch, hload, hbatch, hstore⟩
    · exact hold point (hsame ▸ hmem)
    · rw [hstore] at hmem
      rcases mem_of_mem_upsertPoints hmem with hmem | hmem
      · exact hold point (rows_ensureCollection store ▸ hmem)
      · obtain ⟨hpayload, hid⟩ := payload_of_mapM hbatch
        refine ⟨hid point hmem, run, by simp, chunks, hload, ?_⟩
        rw [← hpayload]
        exact List.mem_map_of_mem hmem

/-- **Runs without `recreate` overlay the corpora.**  After a run that returns, for a corpus no two
of whose chunks have the same point id: every chunk of the corpus is stored; every other point is a
chunk of an earlier corpus, under an id that no chunk of this one has, and all of those stay; so the
points are the chunks of the corpus exactly when it has all the ids that were stored before. -/
theorem setup_overlays_corpus {runs : List (Run V)} {store store' : Option (Collection Id V)}
    {run : Run V} {result : SetupResult} (hruns : Reaches uuid5 t runs store)
    (hrecreate : run.recreate = false) (hrun : setup uuid5 t run store = (.ok result, store'))
    (hids : ∀ chunks, loadCorpus t run.corpusDir run.directory = .ok chunks →
      (chunks.map (Chunk.pointId uuid5)).Nodup) :
    ∃ chunks, loadCorpus t run.corpusDir run.directory = .ok chunks ∧
      (∀ chunk ∈ chunks, ∃ point ∈ storedPoints store',
        point.payload = chunk ∧ point.id = chunk.pointId uuid5) ∧
      (∀ point ∈ storedPoints store', point.payload ∈ chunks ∨
        (point ∈ storedPoints store ∧ point.id ∉ chunks.map (Chunk.pointId uuid5) ∧
          ∃ earlier ∈ runs, ∃ chunks', loadCorpus t earlier.corpusDir earlier.directory =
            .ok chunks' ∧ point.payload ∈ chunks')) ∧
      (∀ point ∈ storedPoints store, point.id ∉ chunks.map (Chunk.pointId uuid5) →
        point ∈ storedPoints store') ∧
      ((∀ chunk, (∃ point ∈ storedPoints store', point.payload = chunk) ↔ chunk ∈ chunks) ↔
        ∀ point ∈ storedPoints store, point.id ∈ chunks.map (Chunk.pointId uuid5)) := by
  obtain ⟨chunks, batch, hload, hbatch, rfl⟩ := exists_of_setup_eq_ok hrun
  obtain ⟨hpayload, hid⟩ := payload_of_mapM hbatch
  have hbatchIds : batch.map Point.id = chunks.map (Chunk.pointId uuid5) := by
    rw [← hpayload, List.map_map]
    exact List.map_congr_left hid
  have hmem : ∀ point,
      point ∈ storedPoints (some (upsertPoints (ensureCollection run.recreate store) batch)) ↔
        (point ∈ storedPoints store ∧ point.id ∉ chunks.map (Chunk.pointId uuid5)) ∨
          point ∈ batch := by
    intro point
    have hnodup : (batch.map Point.id).Nodup := hbatchIds ▸ hids chunks hload
    have hrows : (ensureCollection run.recreate store).rows = storedPoints store := by
      rw [hrecreate, rows_ensureCollection]
    rw [← hbatchIds, ← hrows]
    exact mem_upsertPoints hnodup
  have hkept : ∀ point ∈ storedPoints store, point.id ∉ chunks.map (Chunk.pointId uuid5) →
      point ∈ storedPoints (some (upsertPoints (ensureCollection run.recreate store) batch)) :=
    fun point hpoint hnot => (hmem point).2 (.inl ⟨hpoint, hnot⟩)
  have hsent : ∀ point ∈ batch, point.payload ∈ chunks := fun point hpoint => by
    rw [← hpayload]
    exact List.mem_map_of_mem hpoint
  have hstored : ∀ chunk ∈ chunks, ∃ point ∈ storedPoints
      (some (upsertPoints (ensureCollection run.recreate store) batch)),
        point.payload = chunk ∧ point.id = chunk.pointId uuid5 := by
    intro chunk hchunk
    rw [← hpayload] at hchunk
    obtain ⟨point, hpoint, rfl⟩ := List.mem_map.1 hchunk
    exact ⟨point, (hmem point).2 (.inr hpoint), rfl, hid point hpoint⟩
  refine ⟨chunks, hload, hstored, fun point hpoint => ?_, hkept, ?_, ?_⟩
  · rcases (hmem point).1 hpoint with ⟨hold, hnot⟩ | hnew
    · exact .inr ⟨hold, hnot, (hruns.origin point hold).2⟩
    · exact .inl (hsent point hnew)
  · intro hexact point hpoint
    by_contra hnot
    have hchunk := (hexact point.payload).1 ⟨point, hkept point hpoint hnot, rfl⟩
    rw [(hruns.origin point hpoint).1] at hnot
    exact hnot (List.mem_map_of_mem hchunk)
  · intro hall chunk
    constructor
    · rintro ⟨point, hpoint, rfl⟩
      rcases (hmem point).1 hpoint with ⟨hold, hnot⟩ | hnew
      · exact absurd (hall point hold) hnot
      · exact hsent point hnew
    · intro hchunk
      obtain ⟨point, hpoint, hpayload', -⟩ := hstored chunk hchunk
      exact ⟨point, hpoint, hpayload'⟩

/-! ## A shortened document -/

/-- A run over a directory with one document. -/
def runOf (markdown : String) : Run Unit where
  corpusDir := "docs".toList
  directory := [⟨"trackflow-prices.en.md".toList, markdown.toList⟩]
  recreate := false
  embed _ := .ok ()
  delivery := .acknowledged

/-- The collection after a run over two paragraphs, and one over the first alone. -/
def shortened : Option (Collection (List Char) Unit) :=
  (setup id ascii (runOf "A") (setup id ascii (runOf "A\n\nB") none).2).2

theorem setup_overlays_corpus_shortened : ∃ chunks,
    loadCorpus ascii "docs".toList (runOf "A").directory = .ok chunks ∧
      ∀ chunk ∈ chunks, ∃ point ∈ storedPoints shortened,
        point.payload = chunk ∧ point.id = chunk.pointId id := by
  have hload : loadCorpus ascii (runOf "A").corpusDir (runOf "A").directory =
      .ok [chunkOf ascii "prices".toList "prices".toList "A".toList 0] := rfl
  have hids : ∀ chunks, loadCorpus ascii (runOf "A").corpusDir (runOf "A").directory = .ok chunks →
      (chunks.map (Chunk.pointId id)).Nodup := by
    intro chunks h
    obtain rfl := Except.ok.inj (hload.symm.trans h)
    exact List.nodup_singleton _
  have hruns : Reaches id ascii [runOf "A\n\nB"] (setup id ascii (runOf "A\n\nB") none).2 :=
    .next .start rfl
  have hrun : setup id ascii (runOf "A") (setup id ascii (runOf "A\n\nB") none).2 =
      (.ok ⟨1, 1⟩, shortened) := rfl
  obtain ⟨chunks, hchunks, hstored, -⟩ := setup_overlays_corpus hruns rfl hrun hids
  exact ⟨chunks, hchunks, hstored⟩

/-- The second chunk of the longer document. -/
def stale : Chunk := chunkOf ascii "prices".toList "prices".toList "B".toList 1

/-- **A stale chunk stays**: the collection holds a chunk of the longer document. -/
theorem setup_keeps_stale_chunk :
    ¬∀ (uuid5 : List Char → List Char) (t : Tables) (runs : List (Run Unit))
      (store store' : Option (Collection (List Char) Unit)) (run : Run Unit) (result : SetupResult)
      (chunks : List Chunk), Reaches uuid5 t runs store → run.recreate = false →
      setup uuid5 t run store = (.ok result, store') →
      loadCorpus t run.corpusDir run.directory = .ok chunks →
      ∀ chunk, (∃ point ∈ storedPoints store', point.payload = chunk) ↔ chunk ∈ chunks := by
  intro hclaim
  have hiff := hclaim id ascii [runOf "A\n\nB"] (setup id ascii (runOf "A\n\nB") none).2 shortened
    (runOf "A") ⟨1, 1⟩ [chunkOf ascii "prices".toList "prices".toList "A".toList 0]
    (.next .start rfl) rfl rfl rfl stale
  have hstored : ⟨"prices:1".toList, (), stale⟩ ∈ storedPoints shortened := by decide
  exact absurd (hiff.1 ⟨_, hstored, rfl⟩) (by decide)

end Rag

end TrackFlow
