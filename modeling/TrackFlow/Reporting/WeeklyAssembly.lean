import TrackFlow.Python.Collect
import TrackFlow.Python.Raise
import TrackFlow.Reporting.Reference
import TrackFlow.Sql.Page

/-!
# Weekly rows from unchecked records

`weekly_kpis.py` for an activity as it arrives: a mapping of names to sequences of records, in which
names, records and values may be missing or of other types.  Each value is given here as its check
reads it.  Behind the checks the rows are those of the typed computation
(`assembleWeeklyRows_raw`).

* `normalizeActivity_congr` : the normalized activity depends on the sets of the records only.
* `weekly_assembly_insensitive` : **so do the rows and the digest, and the rows are a dense grid
  that counts every event in a valid week once.**
-/

namespace TrackFlow

namespace Reporting

/-- A record, each value as its check reads it: `none` if it is missing or of another type.  An
instant is aware, and given in UTC; a client is a UUID in any of its spellings. -/
structure RawRecord where
  id : Option ℤ
  occurredAt : Option ℕ
  warehouse : Option String
  clientId : Option UUID
  quantity : Option ℤ
  quantityDelta : Option ℤ
  deriving DecidableEq, Repr

/-- The records of a source: `none` if they are no sequence, and a record is `none` if it is no
mapping. -/
abbrev RawSource : Type := Option (List (Option RawRecord))

/-- An `Activity` as it arrives: a mapping, so that no name occurs twice. -/
structure RawActivity where
  entries : List (String × RawSource)
  nodup : (entries.map Prod.fst).Nodup

/-- The names of an activity. -/
def RawActivity.names (activity : RawActivity) : List String := activity.entries.map Prod.fst

/-- `activity[name]`. -/
def RawActivity.get? (activity : RawActivity) (name : String) : Option RawSource :=
  (activity.entries.find? fun entry => decide (entry.1 = name)).map Prod.snd

/-- `activity[source]`. -/
def RawActivity.records (activity : RawActivity) (source : EventSource) : RawSource :=
  (activity.get? source.name).getD none

namespace Raw

/-! ## Normalization -/

/-- `_aware_utc`. -/
def awareUtc (value : Option ℕ) (field : String) : Except Queue.WeekError ℕ :=
  match value with
  | some instant => .ok instant
  | none => transformError s!"{field} must be a timezone-aware datetime"

/-- `_client_id`. -/
def clientIdOf (value : Option UUID) : Except Queue.WeekError UUID :=
  match value with
  | some client => .ok client
  | none => transformError "client_id must be a UUID"

/-- `_warehouse`. -/
def warehouseOf (value : Option String) : Except Queue.WeekError ReportWarehouse :=
  match value with
  | some name => normalizeWarehouse name
  | none => transformError "warehouse must be one of: LA, ZGZ"

/-- `_quantity_for_source`. -/
def quantityFor (source : EventSource) (record : RawRecord) :
    Except Queue.WeekError (Option ℤ) :=
  match source with
  | .inbound | .outbound => some <$> positiveInt record.quantity "quantity"
  | .discrepancy => some <$> nonzeroInt record.quantityDelta "quantity_delta"
  | .stockout => .ok none

/-- The normalized event of a record. -/
def normalizeRecord (source : EventSource) (record : Option RawRecord) :
    Except Queue.WeekError NormalizedEvent :=
  match record with
  | none => transformError s!"{source.name} records must be mappings"
  | some record => do
    let eventId ← positiveInt record.id "id"
    let occurredAt ← awareUtc record.occurredAt "occurred_at"
    let quantityOrDelta ← quantityFor source record
    let warehouse ← warehouseOf record.warehouse
    let clientId ← clientIdOf record.clientId
    return ⟨source, eventId, occurredAt, quantityOrDelta, warehouse, clientId⟩

/-- `_normalize_source`. -/
def normalizeSource (source : EventSource) (records : RawSource) :
    Except Queue.WeekError (List NormalizedEvent) :=
  match records with
  | none => transformError s!"{source.name} must be a sequence of records"
  | some records => do
    let deduplicated ← records.foldlM
      (fun events record => normalizeRecord source record >>= deduplicate events) []
    return deduplicated.insertionSort fun e e' => e.eventId ≤ e'.eventId

/-- `_normalize_activity`: the events of every source, in the order of `EVENT_SOURCES`. -/
def normalizeActivity (activity : RawActivity) :
    Except Queue.WeekError (List (EventSource × List NormalizedEvent)) :=
  if (∀ name ∈ activity.names, name ∈ eventSources.map EventSource.name) ∧
      ∀ source ∈ eventSources, source.name ∈ activity.names then
    eventSources.mapM fun source => do
      let events ← normalizeSource source (activity.records source)
      return (source, events)
  else transformError "activity must contain exactly the four business event sources"

/-! ## Rows and digest -/

/-- `assemble_weekly_rows`. -/
def assembleWeeklyRows (activity : RawActivity) (skuPairs : List (String × UUID))
    (targetWeeks : List ℕ) (lastResetAt : Option ℕ) :
    Except Queue.WeekError (List WeeklyPerformanceRow) := do
  let normalized ← normalizeActivity activity
  let pairs ← dimensionPairs skuPairs
  let weeks ← Queue.recomputableWeeks targetWeeks lastResetAt
  let counters ← (normalized.flatMap Prod.snd).foldlM (tally pairs weeks) fun _ _ => 0
  (weeks.product pairs).mapM (referenceRow counters)

/-- The canonical content of an event: id, instant, amount, warehouse and client. -/
abbrev CanonicalRecord := ℤ × ℕ × Option ℤ × ReportWarehouse × UUID

/-- `canonical`, the content that `source_content_digest` serialises. -/
def canonicalContent (activity : RawActivity) :
    Except Queue.WeekError (List (String × List CanonicalRecord)) := do
  let normalized ← normalizeActivity activity
  return normalized.map fun (source, events) =>
    (source.name, events.map fun event =>
      (event.eventId, event.occurredAt, event.quantityOrDelta, event.warehouse, event.clientId))

/-- `source_content_digest`; `digest` is the SHA-256 of the JSON text of the content. -/
def sourceContentDigest (digest : List (String × List CanonicalRecord) → String)
    (activity : RawActivity) : Except Queue.WeekError String :=
  digest <$> canonicalContent activity

/-! ## The sets of the records -/

end Raw

/-- The records of a source as a set: neither their order nor their repetitions. -/
def RawSource.contents (records : RawSource) : Option (Set (Option RawRecord)) :=
  records.map fun rs => {r | r ∈ rs}

/-- What a name stands for, as a set. -/
def RawActivity.contents (activity : RawActivity) (name : String) :
    Option (Option (Set (Option RawRecord))) :=
  (activity.get? name).map RawSource.contents

/-- Two activities that differ in the order and in exact repetitions of the records of each
source. -/
def SameRecords (activity activity' : RawActivity) : Prop :=
  ∀ name, activity.contents name = activity'.contents name

namespace Raw

open Collect

variable {activity activity' : RawActivity} {source : EventSource}

theorem mem_names_iff {name : String} :
    name ∈ activity.names ↔ (activity.contents name).isSome := by
  simp [RawActivity.names, RawActivity.contents, RawActivity.get?]

/-- The error of an event that another version contradicts. -/
def conflictError (event : NormalizedEvent) : Queue.WeekError :=
  .transform s!"conflicting duplicate {event.source.name} id={event.eventId}"

theorem deduplicate_eq : deduplicate = Collect.insert NormalizedEvent.eventId conflictError := by
  funext events event
  unfold deduplicate Collect.insert
  cases events.find? fun e => decide (e.eventId = event.eventId) <;> rfl

/-- The loop of `_normalize_source` collects events by their ids. -/
theorem normalizeSource_eq_ok_iff {records : List (Option RawRecord)}
    {events : List NormalizedEvent} : normalizeSource source (some records) = .ok events ↔
      ∃ items, collect NormalizedEvent.eventId conflictError (normalizeRecord source) [] records =
        .ok items ∧ Page.orderBy NormalizedEvent.eventId items = events := by
  simp only [normalizeSource, deduplicate_eq, except_bind_eq_ok, except_pure_eq_ok]
  rfl

/-- The events of a source depend on the set of its records. -/
theorem normalizeSource_of_same {records records' : List (Option RawRecord)}
    {events : List NormalizedEvent} (hset : ∀ r, r ∈ records ↔ r ∈ records')
    (h : normalizeSource source (some records) = .ok events) :
    normalizeSource source (some records') = .ok events := by
  obtain ⟨items, hitems, rfl⟩ := normalizeSource_eq_ok_iff.1 h
  obtain ⟨items', hitems', hperm⟩ := collect_perm hset hitems
  have hnodup := (collect_eq_ok (by simp) hitems).1
  exact normalizeSource_eq_ok_iff.2 ⟨items', hitems', Page.orderBy_eq_of_perm hnodup hperm⟩

theorem normalizeSource_congr (h : SameRecords activity activity') (source : EventSource) :
    (normalizeSource source (activity.records source)).toOption =
      (normalizeSource source (activity'.records source)).toOption := by
  have hname := h source.name
  unfold RawActivity.contents at hname
  unfold RawActivity.records
  cases hget : activity.get? source.name with
  | none =>
    rw [hget, Option.map_none, eq_comm, Option.map_eq_none_iff] at hname
    rw [hname]
  | some records =>
    rw [hget, Option.map_some, eq_comm] at hname
    obtain ⟨records', hget', hmap⟩ := Option.map_eq_some_iff.1 hname
    rw [hget', Option.getD_some, Option.getD_some]
    cases records with
    | none => rw [Option.map_eq_none_iff.1 hmap]
    | some rs =>
      obtain ⟨rs', rfl, hset⟩ := Option.map_eq_some_iff.1 hmap
      have hmem : ∀ r, r ∈ rs ↔ r ∈ rs' := fun r => Set.ext_iff.1 hset.symm r
      exact toOption_congr (fun _ => normalizeSource_of_same hmem)
        fun _ => normalizeSource_of_same fun r => (hmem r).symm

/-- **The normalized activity depends on the sets of the records**, and so does its refusal. -/
theorem normalizeActivity_congr (h : SameRecords activity activity') :
    (normalizeActivity activity).toOption = (normalizeActivity activity').toOption := by
  have hnames : ∀ name, name ∈ activity.names ↔ name ∈ activity'.names := fun name => by
    rw [mem_names_iff, mem_names_iff, h name]
  unfold normalizeActivity
  simp only [hnames]
  split_ifs
  · refine toOption_mapM_congr fun source _ => ?_
    rw [toOption_bind, toOption_bind, normalizeSource_congr h source]
  · rfl

/-! ## The events of an activity -/

/-- The distinct events of a source: the records as they are normalized, without repetitions. -/
def distinctEvents (activity : RawActivity) (source : EventSource) : List NormalizedEvent :=
  (((activity.records source).getD []).filterMap fun r =>
    (normalizeRecord source r).toOption).dedup

theorem source_of_normalizeRecord {record : Option RawRecord} {event : NormalizedEvent}
    (h : normalizeRecord source record = .ok event) : event.source = source := by
  cases record with
  | none => cases h
  | some record =>
    simp only [normalizeRecord, except_bind_eq_ok, except_pure_eq_ok] at h
    obtain ⟨_, -, _, -, _, -, _, -, _, -, rfl⟩ := h
    rfl

theorem source_of_mem {event : NormalizedEvent} (h : event ∈ distinctEvents activity source) :
    event.source = source := by
  obtain ⟨r, -, hr⟩ := List.mem_filterMap.1 (List.mem_dedup.1 h)
  cases hok : normalizeRecord source r with
  | error e => rw [hok] at hr; cases hr
  | ok e =>
    rw [hok] at hr
    cases hr
    exact source_of_normalizeRecord hok

/-- A source that is accepted has each of its distinct events once, under an id of its own. -/
theorem normalizeSource_spec {events : List NormalizedEvent}
    (h : normalizeSource source (activity.records source) = .ok events) :
    ((distinctEvents activity source).map NormalizedEvent.eventId).Nodup ∧
      (∀ r ∈ (activity.records source).getD [], ∃ event, normalizeRecord source r = .ok event) ∧
      events.Perm (distinctEvents activity source) := by
  unfold distinctEvents
  cases hrecords : activity.records source with
  | none => rw [hrecords] at h; cases h
  | some records =>
    rw [hrecords] at h
    obtain ⟨items, hitems, rfl⟩ := normalizeSource_eq_ok_iff.1 h
    obtain ⟨hn, hmem⟩ := collect_eq_ok (by simp) hitems
    -- neither list repeats an event, so it is enough that they have the same ones
    have hperm : items.Perm (records.filterMap fun r =>
        (normalizeRecord source r).toOption).dedup := by
      refine (List.perm_ext_iff_of_nodup (.of_map _ hn) (List.nodup_dedup _)).2 fun t => ?_
      have hsome : ∀ r, (normalizeRecord source r).toOption = some t ↔
          normalizeRecord source r = .ok t := fun r => by
        cases normalizeRecord source r <;> simp [Except.toOption]
      simp only [hmem, Reads, List.not_mem_nil, false_or, List.mem_dedup, List.mem_filterMap, hsome]
    refine ⟨(hperm.map _).nodup_iff.1 hn, ?_, (Page.perm_orderBy _ _).trans hperm⟩
    exact ((exists_collect_iff (by simp)).1 ⟨items, hitems⟩).1

/-- What `_normalize_activity` returns. -/
theorem normalizeActivity_spec {normalized : List (EventSource × List NormalizedEvent)}
    (h : normalizeActivity activity = .ok normalized) :
    ∃ events : EventSource → List NormalizedEvent,
      (∀ source, normalizeSource source (activity.records source) = .ok (events source)) ∧
        normalized = eventSources.map fun source => (source, events source) := by
  unfold normalizeActivity at h
  split_ifs at h
  have hall : ∀ source,
      ∃ events, normalizeSource source (activity.records source) = .ok events := by
    intro source
    have hmem : source ∈ eventSources := by cases source <;> decide
    obtain ⟨_, hs⟩ := forall_of_mapM_eq_ok h source hmem
    obtain ⟨events, hevents, -⟩ := except_bind_eq_ok.1 hs
    exact ⟨events, hevents⟩
  choose events hevents using hall
  refine ⟨events, hevents, ?_⟩
  rw [mapM_eq_ok fun source _ => by rw [hevents source]; rfl] at h
  exact (Except.ok.inj h).symm

/-! ## The grid -/

/-- A week for which a row is asked, and can be computed. -/
def ValidWeek (targetWeeks : List ℕ) (lastResetAt : Option ℕ) (w : ℕ) : Prop :=
  w ∈ targetWeeks ∧ ∀ boundary ∈ lastResetAt, boundary ≤ w

instance (targetWeeks : List ℕ) (lastResetAt : Option ℕ) (w : ℕ) :
    Decidable (ValidWeek targetWeeks lastResetAt w) :=
  inferInstanceAs (Decidable (_ ∧ ∀ boundary ∈ lastResetAt, boundary ≤ w))

/-- A warehouse and a client that have a SKU. -/
def HasSku (skuPairs : List (String × UUID)) (warehouse : ReportWarehouse) (client : UUID) : Prop :=
  ∃ p ∈ skuPairs, warehouseVocabulary p.1 = some warehouse ∧ p.2 = client

theorem recomputableWeeks_spec {targetWeeks weeks : List ℕ} {lastResetAt : Option ℕ}
    (h : Queue.recomputableWeeks targetWeeks lastResetAt = .ok weeks) :
    weeks.Nodup ∧ ∀ w, w ∈ weeks ↔ ValidWeek targetWeeks lastResetAt w := by
  obtain ⟨valid, hvalid, hw⟩ := except_bind_eq_ok.1 h
  -- a week is given back as it is, if it is a Monday, and is refused otherwise
  have hmondays : ∀ w ∈ targetWeeks, Queue.targetWeek w = .ok (id w) := fun w hw => by
    obtain ⟨w', hw'⟩ := forall_of_mapM_eq_ok hvalid w hw
    unfold Queue.targetWeek at hw' ⊢
    split_ifs at hw' ⊢
    rfl
  obtain rfl : targetWeeks = valid := by
    rw [mapM_eq_ok hmondays, List.map_id] at hvalid
    exact Except.ok.inj hvalid
  have hperm := List.perm_insertionSort (· ≤ ·) targetWeeks.dedup
  have hn := hperm.nodup_iff.2 (List.nodup_dedup targetWeeks)
  cases lastResetAt with
  | none =>
    cases hw
    exact ⟨hn, fun w => by simp [ValidWeek, hperm.mem_iff]⟩
  | some boundary =>
    cases hw
    exact ⟨hn.filter _, fun w => by simp [ValidWeek, hperm.mem_iff]⟩

theorem dimensionPairs_spec {skuPairs : List (String × UUID)}
    {pairs : List (ReportWarehouse × UUID)} (h : dimensionPairs skuPairs = .ok pairs) :
    pairs.Nodup ∧ ∀ warehouse client, (warehouse, client) ∈ pairs ↔
      HasSku skuPairs warehouse client := by
  obtain ⟨normalized, hn, -⟩ := except_bind_eq_ok.1 h
  have hvoc : ∀ p ∈ skuPairs, ∃ w, warehouseVocabulary p.1 = some w := fun p hp => by
    obtain ⟨_, hp'⟩ := forall_of_mapM_eq_ok hn p hp
    obtain ⟨w, hw, -⟩ := except_bind_eq_ok.1 hp'
    unfold normalizeWarehouse at hw
    split at hw
    · exact ⟨_, by assumption⟩
    · cases hw
  obtain ⟨pairs', hok, hnodup, hmem⟩ := dimensionPairs_eq_ok hvoc
  obtain rfl := Except.ok.inj (hok.symm.trans h)
  exact ⟨hnodup, fun warehouse client => hmem (warehouse, client)⟩

/-- Tallying refuses an event whose pair has no SKU. -/
theorem mem_of_foldlM_tally {pairs : List (ReportWarehouse × UUID)} {weeks : List ℕ}
    {events : List NormalizedEvent} {counters counters' : Counters}
    (h : events.foldlM (tally pairs weeks) counters = .ok counters') :
    ∀ e ∈ events, (e.warehouse, e.clientId) ∈ pairs := by
  induction events generalizing counters with
  | nil => simp
  | cons e events ih =>
    rw [List.foldlM_cons, except_bind_eq_ok] at h
    obtain ⟨next, hstep, hrest⟩ := h
    refine List.forall_mem_cons.2 ⟨?_, ih hrest⟩
    unfold tally at hstep
    by_contra hpair
    rw [if_neg hpair] at hstep
    cases hstep

/-- The row of a cell, if there is one. -/
theorem referenceRow_spec {counters : Counters} {key : WeeklyKey} {row : WeeklyPerformanceRow}
    (h : referenceRow counters key = .ok row) : row = weekRow key (counters key) := by
  obtain ⟨rate, hrate, hrow⟩ := except_bind_eq_ok.1 h
  unfold computeDiscrepancyRate at hrate
  split_ifs at hrate with h₁ h₂ h₃ h₄
  all_goals
    cases hrate
    rw [← except_pure_eq_ok.1 hrow]
    simp [weekRow, h₄]

/-- The counter of a row for a source. -/
def countOf (row : WeeklyPerformanceRow) : EventSource → ℤ
  | .inbound => row.inboundUnitsCount
  | .outbound => row.outboundOrdersCount
  | .stockout => row.stockoutEventsCount
  | .discrepancy => row.discrepancyEventsCount

theorem countOf_weekRow (key : WeeklyKey) (total : EventSource → ℤ) (source : EventSource) :
    countOf (weekRow key total) source = total source := by
  cases source <;> rfl

/-- The distinct events of a source that lie in a valid week. -/
def windowEvents (activity : RawActivity) (targetWeeks : List ℕ) (lastResetAt : Option ℕ)
    (source : EventSource) : List NormalizedEvent :=
  (distinctEvents activity source).filter fun event =>
    decide (ValidWeek targetWeeks lastResetAt (Queue.isoWeekStart event.occurredAt))

variable {skuPairs : List (String × UUID)} {targetWeeks : List ℕ} {lastResetAt : Option ℕ}
  {rows : List WeeklyPerformanceRow}

/-- **The rows that are returned**: one for every cell of the grid, with the totals of its
events. -/
theorem assembleWeeklyRows_spec
    (h : assembleWeeklyRows activity skuPairs targetWeeks lastResetAt = .ok rows) :
    ∃ events weeks pairs, normalizeActivity activity = .ok events ∧
      Queue.recomputableWeeks targetWeeks lastResetAt = .ok weeks ∧
      dimensionPairs skuPairs = .ok pairs ∧
      (∀ e ∈ events.flatMap Prod.snd, (e.warehouse, e.clientId) ∈ pairs) ∧
      rows = (weeks.product pairs).map fun key =>
        weekRow key (eventTotal (events.flatMap Prod.snd) key) := by
  simp only [assembleWeeklyRows, except_bind_eq_ok] at h
  obtain ⟨events, hevents, pairs, hpairs, weeks, hweeks, counters, hcounters, hrows⟩ := h
  refine ⟨events, weeks, pairs, hevents, hweeks, hpairs, mem_of_foldlM_tally hcounters, ?_⟩
  obtain ⟨counters', hok, hcount⟩ := foldlM_tally weeks (fun _ _ => 0)
    (mem_of_foldlM_tally hcounters)
  obtain rfl := Except.ok.inj (hok.symm.trans hcounters)
  -- the counters started at zero, so a cell of a valid week holds its total
  have hcells : ∀ key ∈ weeks.product pairs, referenceRow counters' key =
      .ok (weekRow key (eventTotal (events.flatMap Prod.snd) key)) := fun key hkey => by
    obtain ⟨row, hrow⟩ := forall_of_mapM_eq_ok hrows key hkey
    have htotal : counters' key = eventTotal (events.flatMap Prod.snd) key := by
      funext source
      rw [hcount key source (List.mem_product.1 hkey).1, zero_add]
    rw [hrow, referenceRow_spec hrow, htotal]
  rw [mapM_eq_ok hcells] at hrows
  exact (Except.ok.inj hrows).symm

/-- The events of one source, out of the events of all of them. -/
theorem filter_source_flatMap {events : EventSource → List NormalizedEvent}
    (h : ∀ s, ∀ e ∈ events s, e.source = s) (source : EventSource) :
    ((eventSources.map fun s => (s, events s)).flatMap Prod.snd).filter
      (fun e => decide (e.source = source)) = events source := by
  have hothers : ∀ s, (events s).filter (fun e => decide (e.source = source)) =
      if s = source then events s else [] := by
    intro s
    split_ifs with hs
    · exact List.filter_eq_self.2 fun e he => decide_eq_true ((h s e he).trans hs)
    · exact List.filter_eq_nil_iff.2 fun e he hp => hs
        ((h s e he).symm.trans (of_decide_eq_true hp))
  rw [List.flatMap_map, List.filter_flatMap]
  simp only [hothers]
  cases source <;> simp [eventSources]

/-- The cells of a source's counter add up to its events in the valid weeks. -/
theorem sum_countOf (h : assembleWeeklyRows activity skuPairs targetWeeks lastResetAt = .ok rows)
    (source : EventSource) : (rows.map fun row => countOf row source).sum =
      ((windowEvents activity targetWeeks lastResetAt source).map
        NormalizedEvent.increment).sum := by
  obtain ⟨normalized, weeks, pairs, hnormalized, hweeks, hpairs, hin, rfl⟩ :=
    assembleWeeklyRows_spec h
  obtain ⟨hweeksNodup, hweeksMem⟩ := recomputableWeeks_spec hweeks
  obtain ⟨hpairsNodup, -⟩ := dimensionPairs_spec hpairs
  obtain ⟨events, hsource, rfl⟩ := normalizeActivity_spec hnormalized
  set flat := (eventSources.map fun source => (source, events source)).flatMap Prod.snd
  let inWindow (e : NormalizedEvent) : Bool := decide (Queue.isoWeekStart e.occurredAt ∈ weeks)
  let ofSource (e : NormalizedEvent) : Bool := decide (e.source = source)
  -- a cell holds the events of its key, all of them in the window
  have hcells : ((weeks.product pairs).map fun key => eventTotal flat key source) =
      (weeks.product pairs).map fun key => sumWhere
        (fun e => (inWindow e && ofSource e) && decide (e.key = key))
        NormalizedEvent.increment flat := by
    refine List.map_congr_left fun key hkey => sumWhere_congr (fun e _ => ?_) fun _ _ _ => rfl
    have hw : key.1 ∈ weeks := (List.mem_product.1 hkey).1
    by_cases hk : e.key = key
    · have he : e.key.1 ∈ weeks := by rw [hk]; exact hw
      have hin : inWindow e = true := decide_eq_true he
      simp [ofSource, hk, hin]
    · simp [hk]
  -- the cells are disjoint, and no event of the window lies outside of them: tallying has checked
  -- its pair
  have hgroups : ((weeks.product pairs).map fun key => sumWhere
      (fun e => (inWindow e && ofSource e) && decide (e.key = key))
      NormalizedEvent.increment flat).sum =
      sumWhere (fun e => inWindow e && ofSource e) NormalizedEvent.increment flat := by
    refine sum_groups_eq NormalizedEvent.key (hweeksNodup.product hpairsNodup) ?_
    intro e he hp hkey
    rw [Bool.and_eq_true] at hp
    exact absurd (List.mem_product.2 ⟨of_decide_eq_true hp.1, hin e he⟩) hkey
  have hflatSource : flat.filter ofSource = events source :=
    filter_source_flatMap (fun s e he =>
      source_of_mem ((normalizeSource_spec (hsource s)).2.2.mem_iff.1 he)) source
  -- what is left does not mention the grid: the source's own events, in any order
  have hwindow : sumWhere (fun e => inWindow e && ofSource e) NormalizedEvent.increment flat =
      ((windowEvents activity targetWeeks lastResetAt source).map
        NormalizedEvent.increment).sum := by
    have hvalid : inWindow = fun e =>
        decide (ValidWeek targetWeeks lastResetAt (Queue.isoWeekStart e.occurredAt)) :=
      funext fun e => decide_eq_decide.2 (hweeksMem _)
    have hfilter : sumWhere (fun e => inWindow e && ofSource e) NormalizedEvent.increment flat =
        sumWhere inWindow NormalizedEvent.increment (events source) := by
      rw [← hflatSource, sumWhere_filter]
      simp only [Bool.and_comm]
    rw [hfilter, sumWhere_perm (normalizeSource_spec (hsource source)).2.2, hvalid]
    rfl
  rw [← hwindow, ← hgroups, ← hcells, List.map_map]
  refine congrArg List.sum (List.map_congr_left fun key _ => ?_)
  exact countOf_weekRow key _ source

/-- Only inbound events count for more than one. -/
theorem sum_increment (source : EventSource) :
    ((windowEvents activity targetWeeks lastResetAt source).map NormalizedEvent.increment).sum =
      if source = .inbound then
        ((windowEvents activity targetWeeks lastResetAt .inbound).map fun e =>
          e.quantityOrDelta.getD 0).sum
      else ((windowEvents activity targetWeeks lastResetAt source).length : ℤ) := by
  have hsource : ∀ e ∈ windowEvents activity targetWeeks lastResetAt source,
      e.source = source := fun e he => source_of_mem (List.mem_of_mem_filter he)
  split_ifs with hs
  · subst hs
    refine congrArg List.sum (List.map_congr_left fun e he => ?_)
    rw [NormalizedEvent.increment, if_pos (hsource e he)]
  · have hone : (windowEvents activity targetWeeks lastResetAt source).map
        NormalizedEvent.increment =
        (windowEvents activity targetWeeks lastResetAt source).map fun _ => (1 : ℤ) :=
      List.map_congr_left fun e he => by
        rw [NormalizedEvent.increment, if_neg (hsource e he ▸ hs)]
    rw [hone]
    simp

/-- **Weekly rows depend on the set of the records, and are a grid that conserves the events.**
Reordered or exactly repeated records give the same rows, or are refused as well, and give the same
content to hash.  Rows that are returned have every cell of a valid week and a pair with a SKU once,
and their counters add up to the units or the number of the distinct events in the valid weeks. -/
theorem weekly_assembly_insensitive (h : SameRecords activity activity')
    (skuPairs : List (String × UUID)) (targetWeeks : List ℕ) (lastResetAt : Option ℕ)
    (digest : List (String × List CanonicalRecord) → String) :
    (assembleWeeklyRows activity skuPairs targetWeeks lastResetAt).toOption =
        (assembleWeeklyRows activity' skuPairs targetWeeks lastResetAt).toOption ∧
      (canonicalContent activity).toOption = (canonicalContent activity').toOption ∧
      (sourceContentDigest digest activity).toOption =
        (sourceContentDigest digest activity').toOption ∧
      ∀ rows, assembleWeeklyRows activity skuPairs targetWeeks lastResetAt = .ok rows →
        (rows.map (·.key)).Nodup ∧
        (∀ key : WeeklyKey, key ∈ rows.map (·.key) ↔
          ValidWeek targetWeeks lastResetAt key.1 ∧ HasSku skuPairs key.2.1 key.2.2) ∧
        (∀ source, ((distinctEvents activity source).map NormalizedEvent.eventId).Nodup) ∧
        (rows.map (·.inboundUnitsCount)).sum =
          ((windowEvents activity targetWeeks lastResetAt .inbound).map fun e =>
            e.quantityOrDelta.getD 0).sum ∧
        (rows.map (·.outboundOrdersCount)).sum =
          (windowEvents activity targetWeeks lastResetAt .outbound).length ∧
        (rows.map (·.stockoutEventsCount)).sum =
          (windowEvents activity targetWeeks lastResetAt .stockout).length ∧
        (rows.map (·.discrepancyEventsCount)).sum =
          (windowEvents activity targetWeeks lastResetAt .discrepancy).length := by
  have hsame := normalizeActivity_congr h
  have hcontent : (canonicalContent activity).toOption = (canonicalContent activity').toOption := by
    rw [canonicalContent, canonicalContent, toOption_bind, toOption_bind, hsame]
  refine ⟨?_, hcontent, ?_, fun rows hrows => ?_⟩
  · rw [assembleWeeklyRows, assembleWeeklyRows, toOption_bind, toOption_bind, hsame]
  · -- nothing is known of the hash, only that it is one function of the content
    have hmap : ∀ x : Except Queue.WeekError (List (String × List CanonicalRecord)),
        (digest <$> x).toOption = x.toOption.map digest := fun x => by cases x <;> rfl
    rw [sourceContentDigest, sourceContentDigest, hmap, hmap, hcontent]
  · have hsum : ∀ source, (rows.map fun row => countOf row source).sum = _ := fun source =>
      (sum_countOf hrows source).trans (sum_increment source)
    obtain ⟨normalized, weeks, pairs, hnormalized, hweeks, hpairs, -, heq⟩ :=
      assembleWeeklyRows_spec hrows
    obtain ⟨hweeksNodup, hweeksMem⟩ := recomputableWeeks_spec hweeks
    obtain ⟨hpairsNodup, hpairsMem⟩ := dimensionPairs_spec hpairs
    obtain ⟨events, hsource, -⟩ := normalizeActivity_spec hnormalized
    have hkeys : rows.map (·.key) = weeks.product pairs := by
      rw [heq, List.map_map]
      exact List.map_id _
    refine ⟨?_, fun key => ?_, fun source => (normalizeSource_spec (hsource source)).1,
      hsum .inbound, hsum .outbound, hsum .stockout, hsum .discrepancy⟩
    · rw [hkeys]
      exact hweeksNodup.product hpairsNodup
    · obtain ⟨w, warehouse, client⟩ := key
      rw [hkeys, ← hweeksMem, ← hpairsMem]
      exact List.pair_mem_product

/-- Entry by entry the same sets of records. -/
theorem sameRecords_of_entries
    (h : List.Forall₂ (fun entry entry' : String × RawSource =>
      entry.1 = entry'.1 ∧ entry.2.contents = entry'.2.contents)
      activity.entries activity'.entries) : SameRecords activity activity' := by
  intro name
  unfold RawActivity.contents RawActivity.get?
  generalize activity.entries = entries, activity'.entries = entries' at h ⊢
  induction h with
  | nil => rfl
  | cons hentry _ ih =>
    rw [List.find?_cons, List.find?_cons, hentry.1]
    split
    · exact congrArg some hentry.2
    · exact ih

/-- Two orders, one of them read twice, in another order. -/
def twoOrders (orders : List ℤ) : RawActivity where
  entries := [
    (EventSource.inbound.name, some []),
    (EventSource.outbound.name, some (orders.map fun id => some
      ⟨some id, some 0, some "LA", some 7, some 3, none⟩)),
    (EventSource.stockout.name, some []),
    (EventSource.discrepancy.name, some [])]
  nodup := by simp [EventSource.name]

theorem weekly_assembly_two_orders :
    (assembleWeeklyRows (twoOrders [1, 2]) [("LA", 7)] [0] none).toOption =
        (assembleWeeklyRows (twoOrders [2, 1, 2]) [("LA", 7)] [0] none).toOption ∧
      ((assembleWeeklyRows (twoOrders [2, 1, 2]) [("LA", 7)] [0] none).toOption.map fun rows =>
        rows.map fun row => (row.weekStart, row.outboundOrdersCount)) = some [(0, 2)] := by
  have hsame : SameRecords (twoOrders [1, 2]) (twoOrders [2, 1, 2]) := by
    refine sameRecords_of_entries (.cons ⟨rfl, rfl⟩ (.cons ⟨rfl, ?_⟩ (.cons ⟨rfl, rfl⟩
      (.cons ⟨rfl, rfl⟩ .nil))))
    simp only [RawSource.contents, Option.map_some, List.map_cons, List.map_nil]
    congr 1
    ext r
    simp
    tauto
  exact ⟨(weekly_assembly_insensitive hsame _ _ _ fun _ => "").1, by decide⟩

/-! ## Typed records -/

end Raw

/-- A typed record, unchecked. -/
def EventRecord.raw (record : EventRecord) : RawRecord where
  id := some record.id
  occurredAt := some record.occurredAt
  warehouse := some record.warehouse
  clientId := some record.clientId
  quantity := record.quantity
  quantityDelta := record.quantityDelta

/-- A typed activity, unchecked. -/
def Activity.raw (activity : Activity) : RawActivity where
  entries := eventSources.map fun source =>
    (source.name, some ((activity source).map fun record => some record.raw))
  nodup := by
    have hnames : (eventSources.map EventSource.name).Nodup := by decide
    rw [List.map_map]
    exact hnames

namespace Raw

theorem normalizeRecord_raw (source : EventSource) (record : EventRecord) :
    normalizeRecord source (some record.raw) = Reporting.normalizeRecord source record := by
  cases source <;> rfl

theorem normalizeSource_raw (source : EventSource) (activity : Activity) :
    normalizeSource source (activity.raw.records source) =
      Reporting.normalizeSource source (activity source) := by
  have hrecords : activity.raw.records source =
      some ((activity source).map fun record => some record.raw) := by
    cases source <;> rfl
  rw [hrecords]
  simp only [normalizeSource, Reporting.normalizeSource, List.foldlM_map, normalizeRecord_raw]

/-- Events that are kept by source, and then put together. -/
theorem flatMap_snd_mapM (f : EventSource → Except Queue.WeekError (List NormalizedEvent))
    (sources : List EventSource) :
    (fun normalized => normalized.flatMap Prod.snd) <$> (sources.mapM fun source => do
        let events ← f source
        return (source, events)) = List.flatten <$> sources.mapM f := by
  induction sources with
  | nil => rfl
  | cons source sources ih =>
    rw [List.mapM_cons, List.mapM_cons]
    cases f source with
    | error e => rfl
    | ok events =>
      revert ih
      cases sources.mapM f with
      | error e =>
        cases sources.mapM fun source => do
          let events ← f source
          return (source, events) with
        | error e' => exact fun ih => ih
        | ok normalized => exact fun ih => nomatch ih
      | ok rest =>
        cases sources.mapM fun source => do
          let events ← f source
          return (source, events) with
        | error e' => exact fun ih => nomatch ih
        | ok normalized =>
          intro ih
          exact congrArg (fun es => Except.ok (events ++ es)) (Except.ok.inj ih)

/-- The events of typed records, source by source. -/
theorem normalizeActivity_raw (activity : Activity) :
    (fun normalized => normalized.flatMap Prod.snd) <$> normalizeActivity activity.raw =
      Reporting.normalizeActivity activity := by
  have hnames : activity.raw.names = eventSources.map EventSource.name := by
    rw [RawActivity.names, Activity.raw, List.map_map]
    rfl
  rw [normalizeActivity, Reporting.normalizeActivity, hnames,
    if_pos ⟨fun _ h => h, fun _ h => List.mem_map_of_mem h⟩]
  simp only [normalizeSource_raw]
  exact flatMap_snd_mapM _ _

/-- **Typed records pass the checks**: their rows are those of the typed computation. -/
theorem assembleWeeklyRows_raw (activity : Activity) (skuPairs : List (String × UUID))
    (targetWeeks : List ℕ) (lastResetAt : Option ℕ) :
    assembleWeeklyRows activity.raw skuPairs targetWeeks lastResetAt =
      Reporting.assembleWeeklyRows activity skuPairs targetWeeks lastResetAt := by
  rw [assembleWeeklyRows, Reporting.assembleWeeklyRows, ← normalizeActivity_raw, bind_map_left]

end Raw

end Reporting

end TrackFlow
