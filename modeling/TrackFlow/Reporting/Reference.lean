import TrackFlow.Reporting.Models

/-!
# The reference KPI computation

`process/business_performance/weekly_kpis.py` computes the weekly rows from the events
themselves: it validates and deduplicates the records of the four event sources, counts them week
by week for every pair of a warehouse and a client, and builds a dense grid of rows.

Records are typed, so the checks for mappings, integers, aware instants and UUIDs are left out;
an instant is one of UTC.  `assembleWeeklyRows_eq_ok` says what the rows count.
-/

namespace TrackFlow

namespace Reporting

/-- `EVENT_SOURCES`. -/
inductive EventSource
  | inbound
  | outbound
  | stockout
  | discrepancy
  deriving DecidableEq, Repr

/-- The name of an event source. -/
def EventSource.name : EventSource → String
  | .inbound => "inbound_order_created"
  | .outbound => "outbound_order_created"
  | .stockout => "stock_threshold_triggered"
  | .discrepancy => "inventory_discrepancy_detected"

/-- `EVENT_SOURCES`, in its order. -/
def eventSources : List EventSource := [.inbound, .outbound, .stockout, .discrepancy]

/-- `EventRecord`. -/
structure EventRecord where
  id : ℤ
  occurredAt : ℕ
  warehouse : String
  clientId : UUID
  quantity : Option ℤ := none
  quantityDelta : Option ℤ := none
  deriving DecidableEq, Repr

/-- `Activity`. -/
abbrev Activity := EventSource → List EventRecord

/-- `_NormalizedEvent`. -/
structure NormalizedEvent where
  source : EventSource
  eventId : ℤ
  occurredAt : ℕ
  quantityOrDelta : Option ℤ
  warehouse : ReportWarehouse
  clientId : UUID
  deriving DecidableEq, Repr

/-- A week, a warehouse and a client. -/
abbrev WeeklyKey := ℕ × ReportWarehouse × UUID

/-- `WeeklyPerformanceRow`. -/
structure WeeklyPerformanceRow where
  warehouse : ReportWarehouse
  clientId : UUID
  weekStart : ℕ
  inboundUnitsCount : ℤ
  outboundOrdersCount : ℤ
  stockoutEventsCount : ℤ
  discrepancyEventsCount : ℤ
  discrepancyRate : ℚ

/-- `TransformError`. -/
abbrev transformError {α : Type} (message : String) : Except Queue.WeekError α :=
  .error (.transform message)

/-! ## Normalization -/

/-- `_positive_int`. -/
def positiveInt (value : Option ℤ) (field : String) : Except Queue.WeekError ℤ :=
  match value with
  | some v => if 0 < v then .ok v else transformError s!"{field} must be a positive integer"
  | none => transformError s!"{field} must be a positive integer"

/-- `_nonzero_int`. -/
def nonzeroInt (value : Option ℤ) (field : String) : Except Queue.WeekError ℤ :=
  match value with
  | some v => if v = 0 then transformError s!"{field} must be a non-zero integer" else .ok v
  | none => transformError s!"{field} must be a non-zero integer"

/-- `WAREHOUSE_VOCABULARY`. -/
def warehouseVocabulary : String → Option ReportWarehouse
  | "LA" => some .losAngeles
  | "ZGZ" => some .zaragoza
  | _ => none

/-- `_warehouse`. -/
def normalizeWarehouse (value : String) : Except Queue.WeekError ReportWarehouse :=
  match warehouseVocabulary value with
  | some w => .ok w
  | none => transformError "warehouse must be one of: LA, ZGZ"

/-- `_quantity_for_source`. -/
def quantityForSource (source : EventSource) (record : EventRecord) :
    Except Queue.WeekError (Option ℤ) :=
  match source with
  | .inbound | .outbound => some <$> positiveInt record.quantity "quantity"
  | .discrepancy => some <$> nonzeroInt record.quantityDelta "quantity_delta"
  | .stockout => .ok none

/-- The normalized event of a record. -/
def normalizeRecord (source : EventSource) (record : EventRecord) :
    Except Queue.WeekError NormalizedEvent := do
  let eventId ← positiveInt (some record.id) "id"
  let quantityOrDelta ← quantityForSource source record
  let warehouse ← normalizeWarehouse record.warehouse
  return ⟨source, eventId, record.occurredAt, quantityOrDelta, warehouse, record.clientId⟩

/-- One more event for the dictionary `deduplicated`: an event may occur twice, but not in two
versions. -/
def deduplicate (events : List NormalizedEvent) (event : NormalizedEvent) :
    Except Queue.WeekError (List NormalizedEvent) :=
  match events.find? fun e => decide (e.eventId = event.eventId) with
  | some prior =>
    if prior = event then .ok events
    else transformError s!"conflicting duplicate {event.source.name} id={event.eventId}"
  | none => .ok (events ++ [event])

/-- `_normalize_source`. -/
def normalizeSource (source : EventSource) (records : List EventRecord) :
    Except Queue.WeekError (List NormalizedEvent) := do
  let deduplicated ← records.foldlM
    (fun events record => normalizeRecord source record >>= deduplicate events) []
  return deduplicated.insertionSort fun e e' => e.eventId ≤ e'.eventId

/-- `_normalize_activity`: the events of all sources, source by source. -/
def normalizeActivity (activity : Activity) : Except Queue.WeekError (List NormalizedEvent) :=
  List.flatten <$> eventSources.mapM fun source => normalizeSource source (activity source)

/-- `_dimension_pairs`. -/
def dimensionPairs (pairs : List (String × UUID)) :
    Except Queue.WeekError (List (ReportWarehouse × UUID)) := do
  let normalized ← pairs.mapM fun pair => do
    let warehouse ← normalizeWarehouse pair.1
    return (warehouse, pair.2)
  return normalized.dedup.insertionSort fun p q =>
    (p.1 = .losAngeles ∧ q.1 = .zaragoza) ∨ (p.1 = q.1 ∧ p.2 ≤ q.2)

/-! ## The grid -/

/-- The counters of one cell. -/
abbrev Counters := WeeklyKey → EventSource → ℤ

/-- What an event adds to the counter of its source. -/
def NormalizedEvent.increment (event : NormalizedEvent) : ℤ :=
  if event.source = .inbound then event.quantityOrDelta.getD 0 else 1

/-- The cell of an event. -/
def NormalizedEvent.key (event : NormalizedEvent) : WeeklyKey :=
  (Queue.isoWeekStart event.occurredAt, event.warehouse, event.clientId)

/-- One more event for the counters. -/
def tally (pairs : List (ReportWarehouse × UUID)) (weeks : List ℕ) (counters : Counters)
    (event : NormalizedEvent) : Except Queue.WeekError Counters :=
  if (event.warehouse, event.clientId) ∈ pairs then
    -- an event of another week is validated, but not counted
    if Queue.isoWeekStart event.occurredAt ∈ weeks then
      .ok (Function.update counters event.key
        (Function.update (counters event.key) event.source
          (counters event.key event.source + event.increment)))
    else .ok counters
  else transformError "activity references a warehouse/client pair without a SKU"

/-- `compute_discrepancy_rate`. -/
def computeDiscrepancyRate (discrepancyCount outboundOrdersCount : ℤ) :
    Except Queue.WeekError ℚ :=
  if discrepancyCount < 0 then
    transformError "discrepancy_count must be a non-negative integer"
  else if outboundOrdersCount < 0 then
    transformError "outbound_orders_count must be a non-negative integer"
  else if outboundOrdersCount < discrepancyCount then
    transformError "discrepancy events cannot exceed outbound orders"
  else if outboundOrdersCount = 0 then .ok 0
  else .ok (Decimal.decimalDiv discrepancyCount.toNat outboundOrdersCount.toNat)

/-- The row of one cell. -/
def referenceRow (counters : Counters) (key : WeeklyKey) :
    Except Queue.WeekError WeeklyPerformanceRow := do
  let values := counters key
  let rate ← computeDiscrepancyRate (values .discrepancy) (values .outbound)
  return {
    warehouse := key.2.1
    clientId := key.2.2
    weekStart := key.1
    inboundUnitsCount := values .inbound
    outboundOrdersCount := values .outbound
    stockoutEventsCount := values .stockout
    discrepancyEventsCount := values .discrepancy
    discrepancyRate := rate }

/-- `assemble_weekly_rows`; weeks and pairs are in order, and so are the keys of the counters. -/
def assembleWeeklyRows (activity : Activity) (skuPairs : List (String × UUID))
    (targetWeeks : List ℕ) (lastResetAt : Option ℕ := none) :
    Except Queue.WeekError (List WeeklyPerformanceRow) := do
  let events ← normalizeActivity activity
  let pairs ← dimensionPairs skuPairs
  let weeks ← Queue.recomputableWeeks targetWeeks lastResetAt
  let counters ← events.foldlM (tally pairs weeks) fun _ _ => 0
  (weeks.product pairs).mapM (referenceRow counters)

/-! ## What the functions return -/

/-- A record that passes the checks of its source. -/
structure ValidRecord (source : EventSource) (record : EventRecord) : Prop where
  id_pos : 0 < record.id
  quantity : ∃ q, quantityForSource source record = .ok q
  warehouse : ∃ w, warehouseVocabulary record.warehouse = some w

/-- The event of a valid record. -/
def normalized (source : EventSource) (record : EventRecord) : NormalizedEvent where
  source := source
  eventId := record.id
  occurredAt := record.occurredAt
  quantityOrDelta :=
    match source with
    | .inbound | .outbound => record.quantity
    | .discrepancy => record.quantityDelta
    | .stockout => none
  warehouse := (warehouseVocabulary record.warehouse).getD .losAngeles
  clientId := record.clientId

section Normalize

variable {source : EventSource} {record : EventRecord} {value : Option ℤ} {v : ℤ} {field : String}

theorem positiveInt_eq_ok (h : positiveInt value field = .ok v) : value = some v ∧ 0 < v := by
  unfold positiveInt at h
  split at h
  · split_ifs at h with hv
    cases h
    exact ⟨rfl, hv⟩
  · cases h

theorem nonzeroInt_eq_ok (h : nonzeroInt value field = .ok v) : value = some v ∧ v ≠ 0 := by
  unfold nonzeroInt at h
  split at h
  · split_ifs at h with hv
    cases h
    exact ⟨rfl, hv⟩
  · cases h

theorem positiveInt_of_pos (h : 0 < v) (field : String) : positiveInt (some v) field = .ok v :=
  if_pos h

theorem nonzeroInt_of_ne (h : v ≠ 0) (field : String) : nonzeroInt (some v) field = .ok v :=
  if_neg h

theorem normalizeWarehouse_eq_ok {name : String} {w : ReportWarehouse}
    (h : warehouseVocabulary name = some w) : normalizeWarehouse name = .ok w := by
  simp [normalizeWarehouse, h]

/-- The amount of a valid record is the one of its source. -/
theorem quantityForSource_eq_ok {q : Option ℤ} (h : quantityForSource source record = .ok q) :
    q = (normalized source record).quantityOrDelta := by
  have hmap {x : Except Queue.WeekError ℤ} (hx : some <$> x = .ok q) :
      ∃ v, x = .ok v ∧ q = some v := by
    cases x with
    | error e => cases hx
    | ok v => exact ⟨v, rfl, (Except.ok.inj hx).symm⟩
  cases source with
  | inbound | outbound =>
    obtain ⟨v, hv, rfl⟩ := hmap h
    exact (positiveInt_eq_ok hv).1.symm
  | discrepancy =>
    obtain ⟨v, hv, rfl⟩ := hmap h
    exact (nonzeroInt_eq_ok hv).1.symm
  | stockout =>
    cases h
    rfl

theorem normalizeRecord_eq_ok (h : ValidRecord source record) :
    normalizeRecord source record = .ok (normalized source record) := by
  obtain ⟨q, hq⟩ := h.quantity
  obtain ⟨w, hw⟩ := h.warehouse
  have hid : positiveInt (some record.id) "id" = .ok record.id := positiveInt_of_pos h.id_pos _
  have hqty := quantityForSource_eq_ok hq
  simp [normalizeRecord, hid, hq, hqty, normalizeWarehouse_eq_ok hw, normalized, hw, bind,
    Except.bind, pure, Except.pure]

theorem deduplicate_new {events : List NormalizedEvent} {event : NormalizedEvent}
    (h : event.eventId ∉ events.map (·.eventId)) :
    deduplicate events event = .ok (events ++ [event]) := by
  have hfind : (events.find? fun e => decide (e.eventId = event.eventId)) = none := by
    simpa using h
  simp [deduplicate, hfind]

/-- Valid records without duplicates are all kept. -/
theorem foldlM_deduplicate {records : List EventRecord} {events : List NormalizedEvent}
    (hv : ∀ r ∈ records, ValidRecord source r)
    (hn : ((events ++ records.map (normalized source)).map (·.eventId)).Nodup) :
    records.foldlM (fun events record => normalizeRecord source record >>= deduplicate events)
      events = .ok (events ++ records.map (normalized source)) := by
  induction records generalizing events with
  | nil => simp [pure, Except.pure]
  | cons r records ih =>
    have hnew : (normalized source r).eventId ∉ events.map (·.eventId) := by
      rw [List.map_append, List.nodup_append] at hn
      intro hmem
      exact hn.2.2 _ hmem _ (by simp) rfl
    have hstep : (normalizeRecord source r >>= deduplicate events) =
        .ok (events ++ [normalized source r]) := by
      rw [normalizeRecord_eq_ok (hv r List.mem_cons_self)]
      exact deduplicate_new hnew
    rw [List.foldlM_cons, hstep]
    have hassoc : events ++ (r :: records).map (normalized source) =
        events ++ [normalized source r] ++ records.map (normalized source) := by simp
    rw [hassoc] at hn ⊢
    exact ih (fun r' hr' => hv r' (List.mem_cons_of_mem _ hr')) hn

end Normalize

/-- An activity whose records pass all checks, and name no event twice. -/
structure ValidActivity (activity : Activity) : Prop where
  valid : ∀ source, ∀ r ∈ activity source, ValidRecord source r
  ids : ∀ source, ((activity source).map (·.id)).Nodup

/-- The events of an activity. -/
def activityEvents (activity : Activity) : List NormalizedEvent :=
  eventSources.flatMap fun source => (activity source).map (normalized source)

theorem normalizeSource_eq_ok {activity : Activity} (h : ValidActivity activity)
    (source : EventSource) : ∃ events, normalizeSource source (activity source) = .ok events ∧
      events.Perm ((activity source).map (normalized source)) := by
  have hids : ((([] : List NormalizedEvent) ++ (activity source).map (normalized source)).map
      (·.eventId)).Nodup := by
    simpa [Function.comp_def, normalized] using h.ids source
  unfold normalizeSource
  rw [foldlM_deduplicate (h.valid source) hids]
  exact ⟨_, rfl, List.perm_insertionSort _ _⟩

/-- The events of all sources, in some order. -/
theorem normalizeActivity_eq_ok {activity : Activity} (h : ValidActivity activity) :
    ∃ events, normalizeActivity activity = .ok events ∧ events.Perm (activityEvents activity) := by
  choose events hev hperm using normalizeSource_eq_ok h
  refine ⟨(eventSources.map events).flatten, ?_, ?_⟩
  · rw [normalizeActivity, mapM_eq_ok fun source _ => hev source]
    rfl
  · rw [activityEvents, ← List.flatMap_def]
    exact List.Perm.flatMap_left _ fun source _ => hperm source

theorem dimensionPairs_eq_ok {pairs : List (String × UUID)}
    (h : ∀ p ∈ pairs, ∃ w, warehouseVocabulary p.1 = some w) :
    ∃ qs, dimensionPairs pairs = .ok qs ∧ qs.Nodup ∧
      ∀ q, q ∈ qs ↔ ∃ p ∈ pairs, warehouseVocabulary p.1 = some q.1 ∧ p.2 = q.2 := by
  let g (p : String × UUID) : ReportWarehouse × UUID :=
    ((warehouseVocabulary p.1).getD .losAngeles, p.2)
  have hmap : pairs.mapM (fun pair => do
      let warehouse ← normalizeWarehouse pair.1
      return (warehouse, pair.2)) = .ok (pairs.map g) := by
    refine mapM_eq_ok fun p hp => ?_
    obtain ⟨w, hw⟩ := h p hp
    simp [g, normalizeWarehouse_eq_ok hw, hw, bind, Except.bind, pure, Except.pure]
  unfold dimensionPairs
  rw [hmap]
  refine ⟨_, rfl, ?_, fun q => ?_⟩
  · exact (List.perm_insertionSort _ _).nodup_iff.2 (List.nodup_dedup _)
  · rw [(List.perm_insertionSort _ _).mem_iff, List.mem_dedup, List.mem_map]
    refine exists_congr fun p => and_congr_right fun hp => ?_
    obtain ⟨w, hw⟩ := h p hp
    simp [g, hw, Prod.ext_iff]

theorem recomputableWeeks_eq_ok {targetWeeks : List ℕ} (h : ∀ w ∈ targetWeeks, week ∣ w) :
    ∃ weeks, Queue.recomputableWeeks targetWeeks none = .ok weeks ∧ weeks.Nodup ∧
      ∀ w, w ∈ weeks ↔ w ∈ targetWeeks := by
  have hmap : targetWeeks.mapM Queue.targetWeek = .ok (targetWeeks.map id) :=
    mapM_eq_ok fun w hw => if_pos (h w hw)
  rw [List.map_id] at hmap
  unfold Queue.recomputableWeeks
  rw [hmap]
  refine ⟨_, rfl, ?_, fun w => ?_⟩
  · exact (List.perm_insertionSort _ _).nodup_iff.2 (List.nodup_dedup _)
  · rw [(List.perm_insertionSort _ _).mem_iff, List.mem_dedup]

/-! ## What the rows count -/

/-- What the events of one source add to a cell. -/
def eventTotal (events : List NormalizedEvent) (key : WeeklyKey) (source : EventSource) : ℤ :=
  sumWhere (fun e => decide (e.key = key) && decide (e.source = source))
    NormalizedEvent.increment events

/-- The row of a cell with some totals. -/
def weekRow (key : WeeklyKey) (total : EventSource → ℤ) : WeeklyPerformanceRow where
  warehouse := key.2.1
  clientId := key.2.2
  weekStart := key.1
  inboundUnitsCount := total .inbound
  outboundOrdersCount := total .outbound
  stockoutEventsCount := total .stockout
  discrepancyEventsCount := total .discrepancy
  discrepancyRate :=
    if total .outbound = 0 then 0
    else Decimal.decimalDiv (total .discrepancy).toNat (total .outbound).toNat

/-- The cell of a row. -/
def WeeklyPerformanceRow.key (row : WeeklyPerformanceRow) : WeeklyKey :=
  (row.weekStart, row.warehouse, row.clientId)

section Rows

variable {pairs : List (ReportWarehouse × UUID)} {weeks : List ℕ} {events : List NormalizedEvent}
  {counters : Counters} {key : WeeklyKey} {source : EventSource}

/-- **Tallying**: if every event has a SKU, the counters of the weeks grow by the totals. -/
theorem foldlM_tally (weeks : List ℕ) (counters : Counters)
    (h : ∀ e ∈ events, (e.warehouse, e.clientId) ∈ pairs) :
    ∃ counters', events.foldlM (tally pairs weeks) counters = .ok counters' ∧
      ∀ key source, key.1 ∈ weeks →
        counters' key source = counters key source + eventTotal events key source := by
  induction events generalizing counters with
  | nil => exact ⟨counters, rfl, fun key source _ => (add_zero _).symm⟩
  | cons e events ih =>
    have htail := fun e' he' => h e' (List.mem_cons_of_mem _ he')
    rw [List.foldlM_cons, tally, if_pos (h e List.mem_cons_self)]
    by_cases hw : Queue.isoWeekStart e.occurredAt ∈ weeks
    · rw [if_pos hw]
      obtain ⟨counters', hok, hcount⟩ := ih (Function.update counters e.key
        (Function.update (counters e.key) e.source (counters e.key e.source + e.increment))) htail
      refine ⟨counters', hok, fun key source hkey => ?_⟩
      rw [hcount key source hkey, eventTotal, eventTotal, sumWhere_cons, ← add_assoc]
      congr 1
      by_cases hk : e.key = key
      · subst hk
        by_cases hs : e.source = source
        · subst hs
          simp
        · simp [Function.update_of_ne (Ne.symm hs), hs]
      · simp [Function.update_of_ne (Ne.symm hk), hk]
    · rw [if_neg hw]
      obtain ⟨counters', hok, hcount⟩ := ih counters htail
      refine ⟨counters', hok, fun key source hkey => ?_⟩
      -- the event lies in none of the weeks
      have hk : e.key ≠ key := fun hk => hw (hk ▸ hkey : e.key.1 ∈ weeks)
      rw [hcount key source hkey, eventTotal, eventTotal, sumWhere_cons]
      simp [hk]

/-- No source but the inbound orders counts anything but one for an event. -/
theorem eventTotal_nonneg (hs : source ≠ .inbound) : 0 ≤ eventTotal events key source := by
  refine sumWhere_nonneg fun e _ he => ?_
  simp only [Bool.and_eq_true, decide_eq_true_eq] at he
  have hsource : e.source ≠ .inbound := he.2 ▸ hs
  simp [NormalizedEvent.increment, hsource]

theorem referenceRow_eq_ok (h₀ : 0 ≤ counters key .discrepancy)
    (h : counters key .discrepancy ≤ counters key .outbound) :
    referenceRow counters key = .ok (weekRow key (counters key)) := by
  have hrate : computeDiscrepancyRate (counters key .discrepancy) (counters key .outbound) =
      .ok (weekRow key (counters key)).discrepancyRate := by
    unfold computeDiscrepancyRate
    rw [if_neg (by omega), if_neg (by omega), if_neg (by omega)]
    simp only [weekRow]
    split_ifs <;> rfl
  simp only [referenceRow, hrate]
  rfl

/-- **The reference grid**: valid events with SKUs, and no more discrepancies than orders in any
cell, give one row for every week and every pair, with the totals of its events. -/
theorem assembleWeeklyRows_eq_ok {activity : Activity} {skuPairs : List (String × UUID)}
    {targetWeeks : List ℕ} (hact : ValidActivity activity)
    (hvoc : ∀ p ∈ skuPairs, ∃ w, warehouseVocabulary p.1 = some w)
    (hweeks : ∀ w ∈ targetWeeks, week ∣ w)
    (hsku : ∀ e ∈ activityEvents activity,
      ∃ p ∈ skuPairs, warehouseVocabulary p.1 = some e.warehouse ∧ p.2 = e.clientId)
    (hdisc : ∀ key : WeeklyKey, key.1 ∈ targetWeeks →
      eventTotal (activityEvents activity) key .discrepancy ≤
        eventTotal (activityEvents activity) key .outbound) :
    ∃ rows, assembleWeeklyRows activity skuPairs targetWeeks = .ok rows ∧
      (rows.map (·.key)).Nodup ∧ ∀ row, row ∈ rows ↔ ∃ key : WeeklyKey, key.1 ∈ targetWeeks ∧
        (∃ p ∈ skuPairs, warehouseVocabulary p.1 = some key.2.1 ∧ p.2 = key.2.2) ∧
        row = weekRow key (eventTotal (activityEvents activity) key) := by
  obtain ⟨events, hev, hperm⟩ := normalizeActivity_eq_ok hact
  obtain ⟨pairs, hpairs, hnodup, hmem⟩ := dimensionPairs_eq_ok hvoc
  obtain ⟨weeks, hwk, hwnodup, hwmem⟩ := recomputableWeeks_eq_ok hweeks
  have hin : ∀ e ∈ events, (e.warehouse, e.clientId) ∈ pairs := fun e he =>
    (hmem _).2 (hsku e (hperm.mem_iff.1 he))
  obtain ⟨counters, htally, hcount⟩ := foldlM_tally weeks (fun _ _ => 0) hin
  -- the counters of a cell are the totals of its events
  have htotal : ∀ key : WeeklyKey, key.1 ∈ weeks →
      counters key = eventTotal (activityEvents activity) key := fun key hkey => funext fun s => by
    rw [hcount key s hkey, zero_add]
    exact sumWhere_perm hperm
  have hrows : (weeks.product pairs).mapM (referenceRow counters) =
      .ok ((weeks.product pairs).map fun key =>
        weekRow key (eventTotal (activityEvents activity) key)) := by
    refine mapM_eq_ok fun key hkey => ?_
    have hw : key.1 ∈ weeks := (List.mem_product.1 hkey).1
    rw [← htotal key hw]
    refine referenceRow_eq_ok ?_ ?_
    · rw [htotal key hw]
      exact eventTotal_nonneg (by decide)
    · rw [htotal key hw]
      exact hdisc key ((hwmem _).1 hw)
  refine ⟨(weeks.product pairs).map fun key =>
    weekRow key (eventTotal (activityEvents activity) key), ?_, ?_, fun row => ?_⟩
  · simp only [assembleWeeklyRows, hev, hpairs, hwk, bind, Except.bind]
    rw [htally]
    exact hrows
  · have hkeys : ((weeks.product pairs).map fun key =>
        weekRow key (eventTotal (activityEvents activity) key)).map (·.key) =
          weeks.product pairs := by
      rw [List.map_map]
      exact List.map_id _
    rw [hkeys]
    exact hwnodup.product hnodup
  · simp only [List.mem_map, Prod.exists, List.pair_mem_product, hwmem, hmem]
    constructor
    · rintro ⟨w, rw, c, ⟨hw, hp⟩, rfl⟩
      exact ⟨w, rw, c, hw, hp, rfl⟩
    · rintro ⟨w, rw, c, hw, hp, rfl⟩
      exact ⟨w, rw, c, ⟨hw, hp⟩, rfl⟩

end Rows

end Reporting

end TrackFlow
