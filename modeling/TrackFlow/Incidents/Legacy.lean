import TrackFlow.Incidents.Service
import TrackFlow.Python.Csv
import TrackFlow.Python.Regex
import TrackFlow.Time.Calendar
import TrackFlow.Web.Percent

/-!
# The import of historical incidents

`parse_legacy_csv` reads the CSV file of the customer service, counts the ids, and validates every
row; `normalize_legacy_incident` turns a valid row into an incident.  A row is valid only if its
rules and its id, which no other row may have, pass.

* `validateRow` : the rules; `validateRow_eq_nil_iff` : what a valid row satisfies.
* `parseLegacyCsv` : the file; `normalizeLegacyIncident` : a row of it.
* `legacy_import_accounts` : **every row is counted once, ids are unique, and valid rows
  normalise.**
-/

namespace TrackFlow

namespace Legacy

open Python

/-! ## Fields -/

/-- The fields of `REQUIRED_FIELDS`. -/
inductive Field
  | incidentId
  | date
  | country
  | customerType
  | trackingNumber
  | carrier
  | category
  | description
  | status
  | customerEmail
  | satisfactionScore
  deriving DecidableEq, Repr

/-- The header of a field. -/
def Field.name : Field → List Char
  | .incidentId => "incident_id".toList
  | .date => "date".toList
  | .country => "country".toList
  | .customerType => "customer_type".toList
  | .trackingNumber => "tracking_number".toList
  | .carrier => "carrier".toList
  | .category => "category".toList
  | .description => "description".toList
  | .status => "status".toList
  | .customerEmail => "customer_email".toList
  | .satisfactionScore => "satisfaction_score".toList

/-- `REQUIRED_FIELDS`. -/
def requiredFields : List Field :=
  [.incidentId, .date, .country, .customerType, .trackingNumber, .carrier, .category, .description,
    .status, .customerEmail, .satisfactionScore]

/-- `CATEGORY_ORDER`. -/
def categoryOrder : List (List Char) :=
  ["LOST_PARCEL".toList, "DELAYED_DELIVERY".toList, "WRONG_ADDRESS".toList,
    "RETURN_REQUEST".toList, "DAMAGE".toList]

/-- `STATUS_ORDER`. -/
def statusOrder : List (List Char) := ["OPEN".toList, "CLOSED".toList, "DISCARDED".toList]

/-- `COUNTRY_ORDER`. -/
def countryOrder : List (List Char) := ["US".toList, "ES".toList]

/-- `CUSTOMER_TYPE_ORDER`. -/
def customerTypeOrder : List (List Char) := ["B2B".toList, "B2C".toList]

/-- `VALID_CARRIERS_BY_COUNTRY`. -/
def validCarriersByCountry : List (List Char × List (List Char)) :=
  [("US".toList, ["UPS".toList, "FEDEX".toList, "DHL_US".toList]),
    ("ES".toList, ["MRW".toList, "SEUR".toList, "DHL_ES".toList, "LOCAL_ES".toList])]

/-- `ALL_CARRIERS`. -/
def allCarriers : List (List Char) := validCarriersByCountry.flatMap Prod.snd

/-- `INCIDENT_ID_PATTERN`; `fullmatch` needs no anchors. -/
def incidentIdPattern : Pattern := ⟨false, .cat [.lit "TRF-", .run .decimal 6 (some 6)]⟩

/-- `DATE_PATTERN`. -/
def datePattern : Pattern :=
  ⟨false, .cat [.run .decimal 4 (some 4), .lit "-", .run .decimal 2 (some 2), .lit "-",
    .run .decimal 2 (some 2)]⟩

/-- `SCORE_PATTERN`. -/
def scorePattern : Pattern := ⟨false, .one (.chars "12345".toList)⟩

/-! ## Errors -/

/-- The codes of `RULES`. -/
inductive ErrorCode
  | invalidIncidentId
  | duplicateIncidentId
  | invalidDate
  | invalidCountry
  | invalidCustomerType
  | invalidTrackingNumber
  | carrierCountryMismatch
  | invalidCategory
  | invalidDescription
  | invalidStatus
  | invalidEmail
  | missingSatisfactionScore
  | invalidSatisfactionScore
  deriving DecidableEq, Repr

/-- The text of a code. -/
def ErrorCode.text : ErrorCode → String
  | .invalidIncidentId => "INVALID_INCIDENT_ID"
  | .duplicateIncidentId => "DUPLICATE_INCIDENT_ID"
  | .invalidDate => "INVALID_DATE"
  | .invalidCountry => "INVALID_COUNTRY"
  | .invalidCustomerType => "INVALID_CUSTOMER_TYPE"
  | .invalidTrackingNumber => "INVALID_TRACKING_NUMBER"
  | .carrierCountryMismatch => "CARRIER_COUNTRY_MISMATCH"
  | .invalidCategory => "INVALID_CATEGORY"
  | .invalidDescription => "INVALID_DESCRIPTION"
  | .invalidStatus => "INVALID_STATUS"
  | .invalidEmail => "INVALID_EMAIL"
  | .missingSatisfactionScore => "MISSING_SATISFACTION_SCORE"
  | .invalidSatisfactionScore => "INVALID_SATISFACTION_SCORE"

/-- `RULE_BY_CODE[code].field`. -/
def ErrorCode.field : ErrorCode → Field
  | .invalidIncidentId | .duplicateIncidentId => .incidentId
  | .invalidDate => .date
  | .invalidCountry => .country
  | .invalidCustomerType => .customerType
  | .invalidTrackingNumber => .trackingNumber
  | .carrierCountryMismatch => .carrier
  | .invalidCategory => .category
  | .invalidDescription => .description
  | .invalidStatus => .status
  | .invalidEmail => .customerEmail
  | .missingSatisfactionScore | .invalidSatisfactionScore => .satisfactionScore

/-- `LegacyCsvError`. -/
structure LegacyCsvError where
  code : String
  message : String
  deriving DecidableEq, Repr

/-- `LegacyValidationError`. -/
structure LegacyValidationError where
  rowNumber : ℕ
  field : Field
  code : ErrorCode
  deriving DecidableEq, Repr

/-- `LegacyIncidentRow`. -/
structure LegacyIncidentRow where
  rowNumber : ℕ
  incidentId : List Char
  date : List Char
  country : List Char
  customerType : List Char
  trackingNumber : List Char
  carrier : List Char
  category : List Char
  description : List Char
  status : List Char
  satisfactionScore : List Char
  deriving DecidableEq, Repr

/-- `LegacyValidationResult`. -/
structure LegacyValidationResult where
  totalRecords : ℕ
  validRows : List LegacyIncidentRow
  errors : List LegacyValidationError
  deriving DecidableEq, Repr

/-- `invalid_records`: the size of the set of the row numbers. -/
def LegacyValidationResult.invalidRecords (result : LegacyValidationResult) : ℕ :=
  (result.errors.map LegacyValidationError.rowNumber).dedup.length

/-- `_ParsedRow`. -/
structure ParsedRow where
  rowNumber : ℕ
  fields : Field → List Char

/-! ## Dates -/

/-- The value of an ASCII digit. -/
def digitValue (c : Char) : Option ℕ := if c.isDigit then some (c.toNat - '0'.toNat) else none

/-- The value of ASCII digits. -/
def digitsValue (digits : List Char) : Option ℕ :=
  digits.foldlM (fun n c => (digitValue c).map (n * 10 + ·)) 0

/-- `date.fromisoformat` of a text that `DATE_PATTERN` matches; `none` if it raises.  The text is
read as UTF-8, of which there are ten bytes only if its digits are ASCII. -/
def Date.fromisoformat : List Char → Option Date
  | [y₁, y₂, y₃, y₄, '-', m₁, m₂, '-', d₁, d₂] => do
    let year ← digitsValue [y₁, y₂, y₃, y₄]
    let month ← digitsValue [m₁, m₂]
    let day ← digitsValue [d₁, d₂]
    if h : (1 ≤ year ∧ year ≤ 9999) ∧ (1 ≤ month ∧ month ≤ 12) ∧
        1 ≤ day ∧ day ≤ daysInMonth year month then
      some ⟨year, month, day, h.1, h.2.1, h.2.2⟩
    else none
  | _ => none

/-! ## Rows -/

section Rows

variable (t : Tables)

/-- `_parse_rows`: a row has at most as many values as the header, and the missing ones are
empty. -/
def cell (header : List (List Char)) (row : List (List Char)) (field : Field) : List Char :=
  strip (row.getD (header.idxOf field.name) [])

/-- All values of a row are blank. -/
def blankRow (row : List (List Char)) : Bool := row.all blank

/-- The rows behind the header. -/
def parseBody (header : List (List Char)) (body : List (ℕ × List (List Char))) :
    Except LegacyCsvError (List ParsedRow) :=
  (body.rdropWhile fun row => blankRow row.2).mapM fun row =>
    if header.length < row.2.length then
      .error ⟨"MALFORMED_CSV", "CSV row has more values than headers."⟩
    else .ok ⟨row.1, cell header row.2⟩

/-- `data.decode("utf-8-sig")`. -/
def decodeUtf8Sig (data : List UInt8) : Option (List Char) :=
  let rest := if [0xEF, 0xBB, 0xBF] <+: data then data.drop 3 else data
  Web.decodeUnits none (rest.map fun b => .octet b.toNat)

/-- The records of the file. -/
def readFile (data : List UInt8) : Except LegacyCsvError (List (ℕ × List (List Char))) :=
  match decodeUtf8Sig data with
  | none => .error ⟨"ENCODING_ERROR", "CSV file must be UTF-8 encoded."⟩
  | some text =>
    match Csv.readRecords text with
    | .error _ => .error ⟨"MALFORMED_CSV", "CSV file could not be parsed."⟩
    | .ok rows => .ok rows

/-- `_parse_rows`. -/
def parseRows (data : List UInt8) : Except LegacyCsvError (List ParsedRow) := do
  match ← readFile data with
  | [] => .error ⟨"MISSING_HEADERS", "CSV header row is required."⟩
  | first :: body =>
    let header := first.2.map strip
    if requiredFields.any fun field => !header.contains field.name then
      .error ⟨"MISSING_HEADERS", "CSV is missing required headers."⟩
    else parseBody header body

/-- `_validate_row`; `idCounts` is the `Counter` of the well-formed ids. -/
def validateRow (row : ParsedRow) (idCounts : List Char → ℕ) : List LegacyValidationError :=
  let fields := row.fields
  let add (code : ErrorCode) : List LegacyValidationError := [⟨row.rowNumber, code.field, code⟩]
  let country := fields .country
  let carrier := fields .carrier
  let score := fields .satisfactionScore
  (if !incidentIdPattern.fullmatch t (fields .incidentId) then add .invalidIncidentId
    else if 1 < idCounts (fields .incidentId) then add .duplicateIncidentId else []) ++
  (if !datePattern.fullmatch t (fields .date) then add .invalidDate
    else
      match Date.fromisoformat (fields .date) with
      | some d => if d.isoformat ≠ fields .date then add .invalidDate else []
      | none => add .invalidDate) ++
  (if country ∉ countryOrder then add .invalidCountry else []) ++
  (if fields .customerType ∉ customerTypeOrder then add .invalidCustomerType else []) ++
  (if (fields .trackingNumber).length < 8 then add .invalidTrackingNumber else []) ++
  (if carrier = [] then add .carrierCountryMismatch
    else
      match validCarriersByCountry.lookup country with
      | some carriers => if carrier ∉ carriers then add .carrierCountryMismatch else []
      | none => if carrier ∉ allCarriers then add .carrierCountryMismatch else []) ++
  (if fields .category ∉ categoryOrder then add .invalidCategory else []) ++
  (if (fields .description).length < 5 then add .invalidDescription else []) ++
  (if fields .status ∉ statusOrder then add .invalidStatus else []) ++
  (if fields .customerEmail = [] ∨ '@' ∉ fields .customerEmail then add .invalidEmail else []) ++
  (if fields .status = "CLOSED".toList ∧ score = [] then add .missingSatisfactionScore
    else if score ≠ [] ∧ scorePattern.fullmatch t score = false then add .invalidSatisfactionScore
    else [])

/-- The valid row of a parsed one. -/
def ParsedRow.valid (row : ParsedRow) : LegacyIncidentRow where
  rowNumber := row.rowNumber
  incidentId := row.fields .incidentId
  date := row.fields .date
  country := row.fields .country
  customerType := row.fields .customerType
  trackingNumber := row.fields .trackingNumber
  carrier := row.fields .carrier
  category := row.fields .category
  description := row.fields .description
  status := row.fields .status
  satisfactionScore := row.fields .satisfactionScore

/-- `Counter` of the ids that are well formed. -/
def idCounts (rows : List ParsedRow) (incidentId : List Char) : ℕ :=
  ((rows.map fun row => row.fields .incidentId).filter (incidentIdPattern.fullmatch t)).count
    incidentId

/-- The loop over the rows. -/
def validateRows (rows : List ParsedRow) : LegacyValidationResult where
  totalRecords := rows.length
  validRows := (rows.filter fun row => validateRow t row (idCounts t rows) = []).map ParsedRow.valid
  errors := rows.flatMap fun row => validateRow t row (idCounts t rows)

/-- `parse_legacy_csv`. -/
def parseLegacyCsv (data : List UInt8) : Except LegacyCsvError LegacyValidationResult := do
  let rows ← parseRows data
  return validateRows t rows

end Rows

/-! ## Normalisation -/

/-- The value of a category. -/
def categoryValue : IncidentCategory → String
  | .lostParcel => "lost_parcel"
  | .deliveryFailure => "delivery_failure"
  | .inventoryDiscrepancy => "inventory_discrepancy"
  | .carrierIssue => "carrier_issue"
  | .returnsIssue => "returns_issue"
  | .warehouseIncident => "warehouse_incident"
  | .systemFailure => "system_failure"
  | .clientComplaint => "client_complaint"
  | .other => "other"

/-- `CATEGORY_MAP`. -/
def categoryMap : List (List Char × IncidentCategory) :=
  [("LOST_PARCEL".toList, .lostParcel), ("DELAYED_DELIVERY".toList, .deliveryFailure),
    ("WRONG_ADDRESS".toList, .deliveryFailure), ("RETURN_REQUEST".toList, .returnsIssue),
    ("DAMAGE".toList, .carrierIssue)]

/-- `STATUS_MAP`. -/
def statusMap : List (List Char × IncidentStatus) :=
  [("OPEN".toList, .open), ("CLOSED".toList, .resolved), ("DISCARDED".toList, .discarded)]

/-- What the normalisation raises. -/
inductive NormalizationError
  | keyError
  | valueError
  deriving DecidableEq, Repr

/-- `NormalizedIncident`; its instants are at midnight, UTC. -/
structure NormalizedIncident where
  title : List Char
  description : List Char
  category : IncidentCategory
  status : IncidentStatus
  origin : IncidentOrigin
  branch : Branch
  createdAt : Date
  updatedAt : Date
  importKeyHash : String
  deriving DecidableEq, Repr

/-- A look-up in a dictionary. -/
def getItem {α : Type} (dict : List (List Char × α)) (key : List Char) :
    Except NormalizationError α :=
  match dict.lookup key with
  | some value => .ok value
  | none => .error .keyError

/-- The title: what stands before the first full stop, or a text about the category. -/
def titleOf (description : List Char) (category : IncidentCategory) : List Char :=
  let fragment := (strip (description.takeWhile (· ≠ '.'))).take 120
  if 5 ≤ fragment.length then fragment
  else "Historical ".toList ++
    (categoryValue category).toList.map (fun c => if c = '_' then ' ' else c) ++ " incident".toList

/-- `normalize_legacy_incident`; `sha256` is the hexadecimal digest. -/
def normalizeLegacyIncident (sha256 : List UInt8 → String) (row : LegacyIncidentRow) :
    Except NormalizationError NormalizedIncident := do
  let category ← getItem categoryMap row.category
  let createdAt ← match Date.fromisoformat row.date with
    | some d => .ok d
    | none => .error .valueError
  let description := strip row.description
  let status ← getItem statusMap row.status
  return {
    title := titleOf description category
    description := description
    category := category
    status := status
    origin := .customer
    branch := .central
    createdAt := createdAt
    updatedAt := createdAt
    importKeyHash := sha256 (row.incidentId.flatMap String.utf8EncodeChar) }

/-! ## Valid rows -/

section Proofs

variable {t : Tables} {row : ParsedRow} {rows : List ParsedRow} {counts : List Char → ℕ}

/-- Every error names its row, and the field of its rule. -/
theorem rowNumber_of_mem_validateRow {e : LegacyValidationError}
    (h : e ∈ validateRow t row counts) :
    e.rowNumber = row.rowNumber ∧ e.field = e.code.field := by
  have hadd {p : Prop} [Decidable p] {code : ErrorCode} {rest : List LegacyValidationError}
      (hrest : e ∈ rest → e.rowNumber = row.rowNumber ∧ e.field = e.code.field)
      (h : e ∈ if p then [⟨row.rowNumber, code.field, code⟩] else rest) :
      e.rowNumber = row.rowNumber ∧ e.field = e.code.field := by
    split_ifs at h
    · rw [List.mem_singleton.1 h]
      exact ⟨rfl, rfl⟩
    · exact hrest h
  have hnil : e ∈ ([] : List LegacyValidationError) →
      e.rowNumber = row.rowNumber ∧ e.field = e.code.field := fun h => by cases h
  simp only [validateRow, List.mem_append] at h
  rcases h with ((((((((((h | h) | h) | h) | h) | h) | h) | h) | h) | h) | h)
  · exact hadd (hadd hnil) h
  · refine hadd (fun h => ?_) h
    split at h
    · exact hadd hnil h
    · rw [List.mem_singleton.1 h]
      exact ⟨rfl, rfl⟩
  · exact hadd hnil h
  · exact hadd hnil h
  · exact hadd hnil h
  · refine hadd (fun h => ?_) h
    split at h <;> exact hadd hnil h
  · exact hadd hnil h
  · exact hadd hnil h
  · exact hadd hnil h
  · exact hadd hnil h
  · exact hadd (hadd hnil) h

/-- What the import relies on in a valid row. -/
structure Valid (t : Tables) (row : ParsedRow) (counts : List Char → ℕ) : Prop where
  incidentId : incidentIdPattern.fullmatch t (row.fields .incidentId) = true
  single : counts (row.fields .incidentId) ≤ 1
  date : ∃ d, Date.fromisoformat (row.fields .date) = some d
  category : row.fields .category ∈ categoryOrder
  status : row.fields .status ∈ statusOrder

/-- A row without errors. -/
theorem valid_of_validateRow_eq_nil (h : validateRow t row counts = []) : Valid t row counts := by
  simp only [validateRow, List.append_eq_nil_iff] at h
  obtain ⟨⟨⟨⟨⟨⟨⟨⟨⟨⟨hid, hdate⟩, -⟩, -⟩, -⟩, -⟩, hcategory⟩, -⟩, hstatus⟩, -⟩, -⟩ := h
  have hadd {p : Prop} [Decidable p] {code : ErrorCode} {rest : List LegacyValidationError}
      (h : (if p then [⟨row.rowNumber, code.field, code⟩] else rest) = []) : ¬p ∧ rest = [] := by
    split_ifs at h with hp
    exact ⟨hp, h⟩
  obtain ⟨hmatch, hid⟩ := hadd hid
  obtain ⟨-, hdate⟩ := hadd hdate
  refine ⟨by simpa using hmatch, Nat.not_lt.1 (hadd hid).1, ?_, not_not.1 (hadd hcategory).1,
    not_not.1 (hadd hstatus).1⟩
  split at hdate
  · exact ⟨_, by assumption⟩
  · cases hdate

theorem exists_getItem {α : Type} {dict : List (List Char × α)} {key : List Char}
    (h : key ∈ dict.map Prod.fst) : ∃ value, getItem dict key = .ok value := by
  unfold getItem
  cases hlookup : dict.lookup key with
  | some value => exact ⟨value, rfl⟩
  | none =>
    obtain ⟨entry, hentry, rfl⟩ := List.mem_map.1 h
    exact absurd (List.lookup_eq_none_iff.1 hlookup entry hentry) (by simp)

/-- A valid row is normalised: what the rules let pass, the dictionaries have. -/
theorem Valid.exists_normalized (h : Valid t row counts) (sha256 : List UInt8 → String) :
    ∃ incident, normalizeLegacyIncident sha256 row.valid = .ok incident := by
  obtain ⟨category, hcategory⟩ :
      ∃ category, getItem categoryMap (row.fields .category) = .ok category :=
    exists_getItem h.category
  obtain ⟨status, hstatus⟩ : ∃ status, getItem statusMap (row.fields .status) = .ok status :=
    exists_getItem h.status
  obtain ⟨d, hd⟩ := h.date
  simp only [normalizeLegacyIncident, ParsedRow.valid, hcategory, hstatus, hd]
  exact ⟨_, rfl⟩

/-! ## The counts -/

/-- The rows of the errors are those that have some. -/
theorem length_dedup_flatMap {α β : Type} {rows : List α} {key : α → ℕ} {f : α → List β}
    {number : β → ℕ} (hn : (rows.map key).Nodup) (hf : ∀ r ∈ rows, ∀ e ∈ f r, number e = key r) :
    ((rows.flatMap f).map number).dedup.length = rows.countP fun r => !(f r).isEmpty := by
  rw [List.countP_eq_length_filter, ← List.length_map key]
  refine List.Perm.length_eq ((List.perm_ext_iff_of_nodup (List.nodup_dedup _)
    (hn.sublist (List.filter_sublist.map _))).2 fun n => ?_)
  simp only [List.mem_dedup, List.mem_map, List.mem_flatMap, List.mem_filter]
  constructor
  · rintro ⟨e, ⟨r, hr, he⟩, rfl⟩
    exact ⟨r, ⟨hr, by simpa using List.ne_nil_of_mem he⟩, (hf r hr e he).symm⟩
  · rintro ⟨r, ⟨hr, hne⟩, rfl⟩
    obtain ⟨e, he⟩ := List.exists_mem_of_ne_nil (f r) (by simpa using hne)
    exact ⟨e, ⟨r, hr, he⟩, hf r hr e he⟩

theorem length_eq_countP_add_countP_not {α : Type} {l : List α} (p : α → Bool) :
    l.length = l.countP p + l.countP fun a => !p a := by
  rw [List.length_eq_countP_add_countP p]
  congr 2
  funext a
  simp

/-- Every row is valid, or has errors of its own. -/
theorem totalRecords_validateRows (hn : (rows.map ParsedRow.rowNumber).Nodup) :
    (validateRows t rows).totalRecords =
      (validateRows t rows).validRows.length + (validateRows t rows).invalidRecords := by
  have herrors : (validateRows t rows).invalidRecords =
      rows.countP fun row => !(validateRow t row (idCounts t rows)).isEmpty :=
    length_dedup_flatMap hn fun row _ e he => (rowNumber_of_mem_validateRow he).1
  have hvalid : (validateRows t rows).validRows.length =
      rows.countP fun row => (validateRow t row (idCounts t rows)).isEmpty := by
    rw [validateRows, List.length_map, ← List.countP_eq_length_filter]
    refine List.countP_congr fun row _ => ?_
    simp
  rw [herrors, hvalid]
  exact length_eq_countP_add_countP_not _

/-- The id of a valid row is the id of no other row. -/
theorem count_of_mem_validRows {valid : LegacyIncidentRow}
    (h : valid ∈ (validateRows t rows).validRows) :
    ∃ row ∈ rows, row.valid = valid ∧ Valid t row (idCounts t rows) ∧
      (rows.map fun row => row.fields .incidentId).count valid.incidentId = 1 := by
  obtain ⟨row, hrow, rfl⟩ := List.mem_map.1 h
  obtain ⟨hmem, hnil⟩ := List.mem_filter.1 hrow
  have hvalid := valid_of_validateRow_eq_nil (of_decide_eq_true hnil)
  refine ⟨row, hmem, rfl, hvalid, Nat.le_antisymm ?_ ?_⟩
  · have hcounts : idCounts t rows (row.fields .incidentId) =
        (rows.map fun row => row.fields .incidentId).count (row.fields .incidentId) :=
      List.count_filter hvalid.incidentId
    exact hcounts ▸ hvalid.single
  · exact List.count_pos_iff.2 (List.mem_map_of_mem hmem)

/-- The ids of the valid rows are different. -/
theorem nodup_validRows :
    ((validateRows t rows).validRows.map LegacyIncidentRow.incidentId).Nodup := by
  refine List.nodup_iff_count_le_one.2 fun incidentId => ?_
  by_cases hmem : incidentId ∈ (validateRows t rows).validRows.map LegacyIncidentRow.incidentId
  · obtain ⟨valid, hvalid, rfl⟩ := List.mem_map.1 hmem
    obtain ⟨-, -, -, -, hone⟩ := count_of_mem_validRows hvalid
    have hsub : ((validateRows t rows).validRows.map LegacyIncidentRow.incidentId).Sublist
        (rows.map fun row => row.fields .incidentId) := by
      rw [validateRows, List.map_map]
      exact List.filter_sublist.map _
    exact hone ▸ hsub.count_le _
  · exact (List.count_eq_zero.2 hmem).trans_le zero_le_one

/-! ## The file -/

theorem cell_of_blankRow {header row : List (List Char)} (h : blankRow row = true)
    (field : Field) : cell header row field = [] := by
  have hblank : blank (row.getD (header.idxOf field.name) []) = true := by
    rw [List.getD_eq_getElem?_getD]
    cases hget : row[header.idxOf field.name]? with
    | none => rfl
    | some value => exact List.all_eq_true.1 h value (List.mem_of_getElem? hget)
  rw [cell, strip, List.dropWhile_eq_nil_iff.2 fun c hc => List.all_eq_true.1 hblank c hc]
  rfl

/-- The parsed rows are those of the file, less the blank ones at its end. -/
theorem parseRows_eq_ok {data : List UInt8} (h : parseRows data = .ok rows) :
    ∃ first body kept dropped, readFile data = .ok (first :: body) ∧ body = kept ++ dropped ∧
      (∀ row ∈ dropped, blankRow row.2 = true) ∧
      rows = kept.map fun row => ⟨row.1, cell (first.2.map strip) row.2⟩ := by
  obtain ⟨records, hrecords, h⟩ := except_bind_eq_ok.1 h
  cases records with
  | nil => cases h
  | cons first body =>
    refine ⟨first, body, body.rdropWhile fun row => blankRow row.2,
      body.rtakeWhile fun row => blankRow row.2, hrecords,
      (List.rdropWhile_append_rtakeWhile ..).symm, fun row hrow => ?_, ?_⟩
    · exact List.mem_rtakeWhile_imp (p := fun row : ℕ × List (List Char) => blankRow row.2) hrow
    simp only at h
    split_ifs at h
    have hall := forall₂_of_mapM_eq_ok h
    rw [← List.forall₂_eq_eq_eq, List.forall₂_map_right_iff]
    refine hall.flip.imp fun parsed row hrow => ?_
    split_ifs at hrow
    exact (Except.ok.inj hrow).symm

/-- **The import accounts for every row.**  A file that is accepted has as many records as valid
rows and invalid records; the id of a valid row is in no other row of the file, and no other valid
row has it; and every valid row is normalised. -/
theorem legacy_import_accounts {data : List UInt8} {result : LegacyValidationResult}
    (h : parseLegacyCsv t data = .ok result) :
    result.totalRecords = result.validRows.length + result.invalidRecords ∧
      (result.validRows.map LegacyIncidentRow.incidentId).Nodup ∧
      (∃ first body, readFile data = .ok (first :: body) ∧ ∀ valid ∈ result.validRows,
        (body.map fun row => cell (first.2.map strip) row.2 .incidentId).count
          valid.incidentId = 1) ∧
      ∀ sha256, ∀ valid ∈ result.validRows, ∃ incident,
        normalizeLegacyIncident sha256 valid = .ok incident := by
  obtain ⟨rows, hrows, h⟩ := except_bind_eq_ok.1 h
  obtain rfl := except_pure_eq_ok.1 h
  obtain ⟨first, body, kept, dropped, hfile, rfl, hblank, rfl⟩ := parseRows_eq_ok hrows
  refine ⟨totalRecords_validateRows ?_, nodup_validRows,
    ⟨first, _, hfile, fun valid hvalid => ?_⟩, fun sha256 valid hvalid => ?_⟩
  · -- the row numbers are those of the reader
    have hnumbers : ((first :: (kept ++ dropped)).map Prod.fst).Nodup := by
      unfold readFile at hfile
      split at hfile
      · cases hfile
      split at hfile
      · cases hfile
      · cases hfile
        exact Csv.lineNum_readRecords ‹_›
    rw [List.map_map]
    exact hnumbers.sublist (((List.sublist_append_left kept dropped).cons first).map Prod.fst)
  · obtain ⟨row, -, rfl, hrow, hone⟩ := count_of_mem_validRows hvalid
    have hne : row.fields .incidentId ≠ [] := by
      intro hnil
      have hmatch := hrow.incidentId
      rw [hnil, Pattern.fullmatch_nil (by decide)] at hmatch
      cases hmatch
    have hdropped : (dropped.map fun row => cell (first.2.map strip) row.2 .incidentId).count
        (row.fields .incidentId) = 0 := by
      refine List.count_eq_zero.2 fun hmem => ?_
      obtain ⟨blank, hmem, hcell⟩ := List.mem_map.1 hmem
      exact hne (hcell ▸ cell_of_blankRow (hblank blank hmem) _)
    rw [List.map_map] at hone
    rw [List.map_append, List.count_append]
    exact congrArg₂ (· + ·) hone hdropped
  · obtain ⟨row, -, rfl, hrow, -⟩ := count_of_mem_validRows hvalid
    exact hrow.exists_normalized sha256

end Proofs

/-- A file with a valid row, two rows of one id, and a blank one. -/
def sampleFile : List UInt8 :=
  ("incident_id,date,country,customer_type,tracking_number,carrier,category,description,status," ++
    "customer_email,satisfaction_score\n" ++
    "TRF-000001,2024-02-29,US,B2C,12345678,UPS,DAMAGE,\"Box, \"\"torn\"\"\",OPEN,a@b.c,\n" ++
    "TRF-000002,2024-01-01,ES,B2B,12345678,SEUR,DAMAGE,A torn box.,CLOSED,a@b.c,4\n" ++
    "TRF-000002,2024-01-01,ES,B2B,12345678,SEUR,DAMAGE,A torn box.,CLOSED,a@b.c,4\n" ++
    ",\n").toList.flatMap String.utf8EncodeChar

theorem legacy_import_accounts_sample : ∃ result : LegacyValidationResult,
    result.totalRecords = 3 ∧ result.validRows.length = 1 ∧
      result.totalRecords = result.validRows.length + result.invalidRecords := by
  have hcounts : ((parseLegacyCsv ascii sampleFile).toOption.any fun result =>
      result.totalRecords = 3 && result.validRows.length = 1) = true := by
    -- the kernel reads the lines one by one faster than the whole text
    have hlines (a b c d e f : String) : (a ++ b ++ c ++ d ++ e ++ f).toList =
        a.toList ++ b.toList ++ c.toList ++ d.toList ++ e.toList ++ f.toList := by
      simp only [String.toList_append]
    have hfile : sampleFile = List.flatMap String.utf8EncodeChar _ :=
      congrArg _ (hlines _ _ _ _ _ _)
    rewrite [hfile]
    decide +kernel
  obtain ⟨result, hresult, hp⟩ := (Option.any_eq_true _ _).1 hcounts
  have hok : parseLegacyCsv ascii sampleFile = .ok result := by
    cases hparse : parseLegacyCsv ascii sampleFile with
    | error e => rw [hparse] at hresult; cases hresult
    | ok r => rw [hparse] at hresult; cases hresult; rfl
  rw [Bool.and_eq_true, decide_eq_true_eq, decide_eq_true_eq] at hp
  exact ⟨result, hp.1, hp.2, (legacy_import_accounts hok).1⟩

end Legacy

end TrackFlow
