import TrackFlow.Web.Segments

/-!
# The gateway of the back office

The back office forwards the requests under `/api` to the services.  Most of its handlers forward
what is on an allow-list; the handlers of the suppliers, the talent and the users pass every path
on, segment by segment.  A path is the list of the segments that the framework has decoded, so a
segment is any text.

* `Service.route` : what a handler with an allow-list does with a request.
* `buildURL` : the path of the URL that is fetched.
* `reachable_iff` : **the paths that can be fetched from a service are those of its endpoints.**
* `passThrough_iff` : **a path is passed on unchanged exactly if it has no dot segment.**
-/

namespace TrackFlow

namespace Gateway

open Web

/-! ## Requests -/

/-- The methods that a route handler can be exported for. -/
inductive Method
  | get
  | head
  | post
  | put
  | patch
  | delete
  | options
  deriving DecidableEq, Repr

/-- `request.method`. -/
def Method.name : Method → String
  | .get => "GET"
  | .head => "HEAD"
  | .post => "POST"
  | .put => "PUT"
  | .patch => "PATCH"
  | .delete => "DELETE"
  | .options => "OPTIONS"

/-- A decoded segment of a path. -/
abbrev Segment := List Char

/-- `path.join("/")`. -/
def joinSlash (path : List Segment) : List Char := List.intercalate ['/'] path

/-- What a handler with an allow-list does. -/
inductive Routed
  | notFound
  /-- A `TypeError`. -/
  | raised
  | forward (upstreamPath : List Char)
  deriving DecidableEq, Repr

/-- A handler that has found a path, or none. -/
def Routed.ofPath : Option (List Char) → Routed
  | none => .notFound
  | some upstreamPath => .forward upstreamPath

/-! ## Checks of a segment -/

/-- `[0-9a-f]`, in either case. -/
def isHexDigit (c : Char) : Bool := (hexDigitValue c).isSome

/-- `/^\d+$/` -/
def isNumeric (text : Segment) : Bool := !text.isEmpty && text.all Char.isDigit

/-- `/^[A-Za-z0-9_-]{1,64}$/` -/
def isTraceId (text : Segment) : Bool :=
  !text.isEmpty && decide (text.length ≤ 64) &&
    text.all fun c => c.isAlphanum || c = '_' || c = '-'

/-- A hyphen. -/
def isHyphen (c : Char) : Bool := decide (c = '-')

/-- The characters of a UUID, place by place. -/
def uuidPattern : List (Char → Bool) :=
  List.replicate 8 isHexDigit ++ [isHyphen] ++ List.replicate 4 isHexDigit ++ [isHyphen] ++
    [fun c => decide ('1' ≤ c ∧ c ≤ '5')] ++ List.replicate 3 isHexDigit ++ [isHyphen] ++
    [fun c => decide (c ∈ ['8', '9', 'a', 'b', 'A', 'B'])] ++ List.replicate 3 isHexDigit ++
    [isHyphen] ++ List.replicate 12 isHexDigit

/-- `/^[0-9a-f]{8}-[0-9a-f]{4}-[1-5][0-9a-f]{3}-[89ab][0-9a-f]{3}-[0-9a-f]{12}$/i` -/
def isUuid (text : Segment) : Bool :=
  decide (text.length = uuidPattern.length) &&
    (List.zipWith (fun p c => p c) uuidPattern text).all id

/-- `/^[0-9a-fA-F-]{1,36}$/` -/
def isTicketId (text : Segment) : Bool :=
  !text.isEmpty && decide (text.length ≤ 36) && text.all fun c => isHexDigit c || c = '-'

/-- `/^[a-z]+$/` -/
def isDepartment (text : Segment) : Bool := !text.isEmpty && text.all Char.isLower

/-! ## Handlers -/

/-- `ALLOWED_ROUTES.get(key)` -/
def getRoute (routes : List (String × String)) (key : List Char) : Option (List Char) :=
  (routes.find? fun route => decide (route.1.toList = key)).map fun route => route.2.toList

/-- The key of a request. -/
def routeKey (method : Method) (path : List Segment) : List Char :=
  method.name.toList ++ ' ' :: joinSlash path

/-- `ALLOWED_ROUTES` of the knowledge handler. -/
def knowledgeRoutes : List (String × String) := [("POST query", "/knowledge/query")]

/-- `ALLOWED_ROUTES` of the reporting handler. -/
def reportingRoutes : List (String × String) :=
  [("GET weekly-warehouse-client-performance", "/reporting/weekly-warehouse-client-performance"),
    ("GET pipeline-runs/latest", "/reporting/pipeline-runs/latest")]

/-- `ALLOWED_ROUTES` of the telemetry handler. -/
def telemetryRoutes : List (String × String) :=
  [("GET metrics/dispatch", "/telemetry/metrics/dispatch"),
    ("GET metrics/receiving", "/telemetry/metrics/receiving"),
    ("GET metrics/stock-loss", "/telemetry/metrics/stock-loss"),
    ("GET metrics/access-denials", "/telemetry/metrics/access-denials")]

/-- `ALLOWED_ROUTES` of the inventory handler. -/
def inventoryRoutes : List (String × String) :=
  [("GET clients", "/inventory/clients"),
    ("POST clients", "/inventory/clients"),
    ("PATCH clients/:id", "/inventory/clients/:id"),
    ("GET products", "/inventory/products"),
    ("POST products", "/inventory/products"),
    ("GET products/:id", "/inventory/products/:id"),
    ("PATCH products/:id", "/inventory/products/:id"),
    ("POST orders/inbound", "/inventory/orders/inbound"),
    ("POST orders/outbound", "/inventory/orders/outbound"),
    ("GET orders", "/inventory/orders")]

/-- `encodeURIComponent(path[1])`; a segment that is not there is `undefined`. -/
def encodeSecond (path : List Segment) : List Char :=
  encodeURIComponent (path[1]?.getD "undefined".toList)

/-- `routeKey` of the inventory handler. -/
def inventoryKey (method : Method) (path : List Segment) : List Char :=
  if (method = .get ∨ method = .patch) ∧ path.length = 2 ∧ path[0]? = some "products".toList ∧
      path[1]?.any isNumeric then
    method.name.toList ++ " products/:id".toList
  else if method = .patch ∧ path.length = 2 ∧ path[0]? = some "clients".toList ∧
      path[1]?.any isUuid then
    "PATCH clients/:id".toList
  else routeKey method path

/-- The path of a template. -/
def fillTemplate (path : List Segment) (template : List Char) : List Char :=
  if template = "/inventory/products/:id".toList then
    "/inventory/products/".toList ++ encodeSecond path
  else if template = "/inventory/clients/:id".toList then
    "/inventory/clients/".toList ++ encodeSecond path
  else template

/-- `allowlistedPath` of the inventory handler. -/
def inventoryPath (method : Method) (path : List Segment) : Option (List Char) :=
  (getRoute inventoryRoutes (inventoryKey method path)).map (fillTemplate path)

/-- `allowlistedPath` of the agents' handler. -/
def agentsPath (method : Method) (path : List Segment) : Option (List Char) :=
  match method, path with
  | .post, [a] => if a = "query".toList then some "/agent/query".toList else none
  | .post, [a, b] =>
    if a = "chat".toList ∧ b = "sessions".toList then some "/chat/sessions".toList else none
  | .get, [a] => if a = "runs".toList then some "/agents/runs".toList else none
  | .get, [a, b] =>
    if a = "runs".toList ∧ isTraceId b then
      some ("/agents/runs/".toList ++ encodeURIComponent b)
    else if a = "chat".toList ∧ b = "sessions".toList then some "/chat/sessions".toList
    else none
  | .get, [a, b, c] =>
    if a = "chat".toList ∧ b = "sessions".toList ∧ isUuid c then
      some ("/chat/sessions/".toList ++ encodeURIComponent c)
    else none
  | _, _ => none

/-- `RUN_LIST_QUERY`. -/
def runListQuery : List (List Char) :=
  ["agent_name".toList, "status".toList, "limit".toList]

local instance lawfulBEq_key : LawfulBEq (List Char) := inferInstance

/-- The handler of the agents, with the names in the query. -/
def agentsRoute (method : Method) (path : List Segment) (keys : List (List Char)) : Routed :=
  match agentsPath method path with
  | none => .notFound
  | some upstreamPath =>
    let allowedQuery := if path.length = 1 then runListQuery else []
    if keys.any fun key => decide (key ∉ allowedQuery) then .notFound
    else .forward upstreamPath

/-- `AUTH_ROUTE_METHODS`. -/
def authRouteMethods : List (String × Method) :=
  [("forgot-password", .post), ("login", .post), ("refresh", .post), ("logout", .post),
    ("me", .get), ("change-password", .post), ("reset-password", .post)]

/-- What every object has; none of it is a set with a `has`. -/
def objectPrototype : List String :=
  ["constructor", "__proto__", "__defineGetter__", "__defineSetter__", "__lookupGetter__",
    "__lookupSetter__", "hasOwnProperty", "isPrototypeOf", "propertyIsEnumerable",
    "toLocaleString", "toString", "valueOf"]

/-- The handler of the authentication. -/
def authRoute (method : Method) (path : List Segment) : Routed :=
  let route := joinSlash path
  match authRouteMethods.find? fun entry => decide (entry.1.toList = route) with
  | some entry => if entry.2 = method then .forward ("/auth/".toList ++ route) else .notFound
  | none =>
    if objectPrototype.any fun name => decide (name.toList = route) then .raised else .notFound

/-- `path.length ? "/" + path.map(encodeURIComponent).join("/") : ""` -/
def suffix (path : List Segment) : List Char := serializePath (path.map encodeURIComponent)

/-- The handler of the incidents. -/
def incidentsRoute (method : Method) (path : List Segment) : Routed :=
  let isNumericDetail := path.length = 1 ∧ path[0]?.any isNumeric
  let isStatusUpdate :=
    path.length = 2 ∧ path[0]?.any isNumeric ∧ path[1]? = some "status".toList
  if method = .get ∧ (path = [] ∨ joinSlash path = "summary".toList ∨ isNumericDetail) ∨
      method = .post ∧ path = [] ∨ method = .patch ∧ isStatusUpdate then
    .forward ("/api/incidents".toList ++ suffix path)
  else .notFound

/-- `isAllowed` of the handler of the tickets. -/
def rfpAllowed (method : Method) (path : List Segment) : Bool :=
  match method, path with
  | .get, [a] | .post, [a] => a = "tickets".toList
  | .get, [a, b] => a = "tickets".toList && isTicketId b
  | .get, [a, b, c] => a = "tickets".toList && isTicketId b && c = "document".toList
  | .get, [a, b, c, d] =>
    a = "tickets".toList && isTicketId b && c = "document".toList &&
      (d = "download".toList || d = "pdf".toList)
  | .post, [a, b, c, d, e] =>
    a = "tickets".toList && isTicketId b && c = "departments".toList && isDepartment d &&
      e = "decision".toList
  | _, _ => false

/-- The handler of the tickets. -/
def rfpRoute (method : Method) (path : List Segment) : Routed :=
  if rfpAllowed method path then .forward ("/rfp".toList ++ suffix path) else .notFound

/-- The services behind an allow-list. -/
inductive Service
  | agents
  | auth
  | incidents
  | inventory
  | knowledge
  | reporting
  | rfp
  | telemetry
  deriving DecidableEq, Repr

/-- What the handler of a service does with a request. -/
def Service.route (service : Service) (method : Method) (path : List Segment)
    (keys : List (List Char)) : Routed :=
  match service with
  | .agents => agentsRoute method path keys
  | .auth => authRoute method path
  | .incidents => incidentsRoute method path
  | .inventory => .ofPath (inventoryPath method path)
  | .knowledge => .ofPath (getRoute knowledgeRoutes (routeKey method path))
  | .reporting => .ofPath (getRoute reportingRoutes (routeKey method path))
  | .rfp => rfpRoute method path
  | .telemetry => .ofPath (getRoute telemetryRoutes (routeKey method path))

/-- `baseUrl.replace(/\/$/, "")` -/
def dropSlash (base : List Char) : List Char :=
  if base.getLast? = some '/' then base.dropLast else base

/-- The path of the URL that `buildURL` makes, of the path of the base and of the upstream path. -/
def buildURL (base upstreamPath : List Char) : List (List Char) :=
  parsePath (dropSlash base ++
    if upstreamPath.head? = some '/' then upstreamPath else '/' :: upstreamPath)

/-! ## Endpoints -/

/-- A segment of an endpoint. -/
inductive Slot
  | word (text : String)
  | numeric
  | uuid
  | traceId
  | ticketId
  | department
  deriving DecidableEq, Repr

/-- The texts that may stand in a segment. -/
def Slot.admits : Slot → Segment → Bool
  | .word text, segment => decide (segment = text.toList)
  | .numeric, segment => isNumeric segment
  | .uuid, segment => isUuid segment
  | .traceId, segment => isTraceId segment
  | .ticketId, segment => isTicketId segment
  | .department, segment => isDepartment segment

/-- A path without variable segments. -/
def words (texts : List String) : List Slot := texts.map .word

/-- What can be fetched from a service.  The placeholders of the inventory's templates are routes of
their own: a request for `products/:id` itself passes the allow-list. -/
def Service.endpoints : Service → List (Method × List Slot)
  | .agents =>
    [(.post, words ["agent", "query"]), (.post, words ["chat", "sessions"]),
      (.get, words ["agents", "runs"]), (.get, words ["agents", "runs"] ++ [.traceId]),
      (.get, words ["chat", "sessions"]), (.get, words ["chat", "sessions"] ++ [.uuid])]
  | .auth =>
    [(.post, words ["auth", "forgot-password"]), (.post, words ["auth", "login"]),
      (.post, words ["auth", "refresh"]), (.post, words ["auth", "logout"]),
      (.get, words ["auth", "me"]), (.post, words ["auth", "change-password"]),
      (.post, words ["auth", "reset-password"])]
  | .incidents =>
    [(.get, words ["api", "incidents"]), (.get, words ["api", "incidents", "summary"]),
      (.get, words ["api", "incidents"] ++ [.numeric]), (.post, words ["api", "incidents"]),
      (.patch, words ["api", "incidents"] ++ [.numeric, .word "status"])]
  | .inventory =>
    [(.get, words ["inventory", "clients"]), (.post, words ["inventory", "clients"]),
      (.patch, words ["inventory", "clients"] ++ [.uuid]),
      (.patch, words ["inventory", "clients", "%3Aid"]),
      (.patch, words ["inventory", "clients", "undefined"]),
      (.get, words ["inventory", "products"]), (.post, words ["inventory", "products"]),
      (.get, words ["inventory", "products"] ++ [.numeric]),
      (.get, words ["inventory", "products", "%3Aid"]),
      (.get, words ["inventory", "products", "undefined"]),
      (.patch, words ["inventory", "products"] ++ [.numeric]),
      (.patch, words ["inventory", "products", "%3Aid"]),
      (.patch, words ["inventory", "products", "undefined"]),
      (.post, words ["inventory", "orders", "inbound"]),
      (.post, words ["inventory", "orders", "outbound"]), (.get, words ["inventory", "orders"])]
  | .knowledge => [(.post, words ["knowledge", "query"])]
  | .reporting =>
    [(.get, words ["reporting", "weekly-warehouse-client-performance"]),
      (.get, words ["reporting", "pipeline-runs", "latest"])]
  | .rfp =>
    [(.get, words ["rfp", "tickets"]), (.post, words ["rfp", "tickets"]),
      (.get, words ["rfp", "tickets"] ++ [.ticketId]),
      (.get, words ["rfp", "tickets"] ++ [.ticketId, .word "document"]),
      (.get, words ["rfp", "tickets"] ++ [.ticketId, .word "document", .word "download"]),
      (.get, words ["rfp", "tickets"] ++ [.ticketId, .word "document", .word "pdf"]),
      (.post, words ["rfp", "tickets"] ++
        [.ticketId, .word "departments", .department, .word "decision"])]
  | .telemetry =>
    [(.get, words ["telemetry", "metrics", "dispatch"]),
      (.get, words ["telemetry", "metrics", "receiving"]),
      (.get, words ["telemetry", "metrics", "stock-loss"]),
      (.get, words ["telemetry", "metrics", "access-denials"])]

/-- The segments fill the slots. -/
def Fills (slots : List Slot) (segments : List Segment) : Prop :=
  List.Forall₂ (fun slot segment => slot.admits segment = true) slots segments

/-- The path of an endpoint. -/
def IsEndpoint (service : Service) (method : Method) (segments : List Segment) : Prop :=
  ∃ slots, (method, slots) ∈ service.endpoints ∧ Fills slots segments

/-! ### Segments of endpoints are literal -/

section

variable {text : List Char} {slot : Slot} {slots : List Slot} {segments : List Segment}

/-- The characters of a word, of a number or of an identifier. -/
def isNameChar (c : Char) : Bool := c.isAlphanum || decide (c = '-') || decide (c = '_')

theorem componentSet_of_isNameChar {c : Char} (h : isNameChar c = true) :
    componentSet c = false := by
  unfold componentSet isUnreserved
  simp only [isNameChar, Bool.or_eq_true, decide_eq_true_eq] at h
  rcases h with (h | rfl) | rfl
  · simp [h]
  · decide
  · decide

theorem ne_of_isNameChar {c : Char} (h : isNameChar c = true) : c ≠ '.' ∧ c ≠ '%' := by
  constructor <;> rintro rfl <;> exact absurd h (by decide)

/-- A name is encoded as itself, and is a literal segment. -/
theorem encodeURIComponent_of_name (h : ∀ c ∈ text, isNameChar c = true) :
    encodeURIComponent text = text :=
  percentEncode_eq_self fun c hc => componentSet_of_isNameChar (h c hc)

theorem literal_of_name (h : ∀ c ∈ text, isNameChar c = true) : Literal text where
  chars c hc := isSegmentChar_of_unreserved (componentSet_of_isNameChar (h c hc))
  plain := by
    cases text with
    | nil => exact plain_nil
    | cons c rest =>
      obtain ⟨hdot, hpercent⟩ := ne_of_isNameChar (h c List.mem_cons_self)
      rw [Plain, dots_of_ne hdot hpercent]
      exact ⟨by simp, by simp⟩

theorem isNameChar_of_alphanum {c : Char} (h : c.isAlphanum = true) : isNameChar c = true := by
  simp [isNameChar, h]

theorem isNameChar_of_digit {c : Char} (h : c.isDigit = true) : isNameChar c = true :=
  isNameChar_of_alphanum (by simp [Char.isAlphanum, h])

theorem isNameChar_of_lower {c : Char} (h : c.isLower = true) : isNameChar c = true := by
  refine isNameChar_of_alphanum ?_
  unfold Char.isAlphanum Char.isAlpha
  simp [h]

theorem isNameChar_of_hex {c : Char} (h : isHexDigit c = true) : isNameChar c = true := by
  refine isNameChar_of_alphanum ?_
  unfold isHexDigit hexDigitValue at h
  unfold Char.isAlphanum Char.isAlpha Char.isUpper Char.isLower Char.isDigit
  simp only [Bool.or_eq_true, Bool.and_eq_true, decide_eq_true_eq, ge_iff_le,
    UInt32.le_iff_toNat_le]
  simp only [Char.le_def, UInt32.le_iff_toNat_le] at h
  split_ifs at h with h₁ h₂ h₃
  · exact .inr h₁
  · exact .inl (.inr ⟨h₂.1, h₂.2.trans (by decide)⟩)
  · exact .inl (.inl ⟨h₃.1, h₃.2.trans (by decide)⟩)
  · cases h

theorem name_of_numeric (h : isNumeric text = true) : ∀ c ∈ text, isNameChar c = true := by
  simp only [isNumeric, Bool.and_eq_true, List.all_eq_true] at h
  exact fun c hc => isNameChar_of_digit (h.2 c hc)

theorem name_of_traceId (h : isTraceId text = true) : ∀ c ∈ text, isNameChar c = true := by
  simp only [isTraceId, Bool.and_eq_true, List.all_eq_true, Bool.or_eq_true,
    decide_eq_true_eq] at h
  intro c hc
  rcases h.2 c hc with (hc | rfl) | rfl
  · exact isNameChar_of_alphanum hc
  · decide
  · decide

theorem name_of_ticketId (h : isTicketId text = true) : ∀ c ∈ text, isNameChar c = true := by
  simp only [isTicketId, Bool.and_eq_true, List.all_eq_true, Bool.or_eq_true,
    decide_eq_true_eq] at h
  intro c hc
  rcases h.2 c hc with hc | rfl
  · exact isNameChar_of_hex hc
  · decide

theorem name_of_department (h : isDepartment text = true) : ∀ c ∈ text, isNameChar c = true := by
  simp only [isDepartment, Bool.and_eq_true, List.all_eq_true] at h
  exact fun c hc => isNameChar_of_lower (h.2 c hc)

theorem name_of_uuidPattern {p : Char → Bool} (hp : p ∈ uuidPattern) {c : Char} (hc : p c = true) :
    isNameChar c = true := by
  have hhex : ∀ n, p ∈ List.replicate n isHexDigit → isNameChar c = true := by
    intro n hmem
    rw [List.eq_of_mem_replicate hmem] at hc
    exact isNameChar_of_hex hc
  have hhyphen : p = isHyphen → isNameChar c = true := by
    rintro rfl
    rw [of_decide_eq_true hc]
    decide
  simp only [uuidPattern, List.mem_append, List.mem_singleton] at hp
  rcases hp with (((((((((hp | hp) | hp) | hp) | rfl) | hp) | hp) | rfl) | hp) | hp) | hp
  · exact hhex 8 hp
  · exact hhyphen hp
  · exact hhex 4 hp
  · exact hhyphen hp
  · have hdigit := of_decide_eq_true hc
    refine isNameChar_of_digit ?_
    simp only [Char.le_def, UInt32.le_iff_toNat_le] at hdigit
    simp only [Char.isDigit, Bool.and_eq_true, decide_eq_true_eq, ge_iff_le,
      UInt32.le_iff_toNat_le]
    exact ⟨le_trans (by decide) hdigit.1, le_trans hdigit.2 (by decide)⟩
  · exact hhex 3 hp
  · exact hhyphen hp
  · have hall : ∀ c ∈ ['8', '9', 'a', 'b', 'A', 'B'], isNameChar c = true :=
      List.all_iff_forall_prop.1 (by decide)
    exact hall c (of_decide_eq_true hc)
  · exact hhex 3 hp
  · exact hhyphen hp
  · exact hhex 12 hp

theorem name_of_uuid (h : isUuid text = true) : ∀ c ∈ text, isNameChar c = true := by
  simp only [isUuid, Bool.and_eq_true, decide_eq_true_eq] at h
  obtain ⟨hlength, hall⟩ := h
  intro c hc
  obtain ⟨i, hi, rfl⟩ := List.getElem_of_mem hc
  have hi' : i < uuidPattern.length := hlength ▸ hi
  refine name_of_uuidPattern (List.getElem_mem hi') (List.all_eq_true.1 hall _ ?_)
  refine List.mem_iff_getElem.2 ⟨i, ?_, ?_⟩
  · rw [List.length_zipWith, ← hlength, Nat.min_self]
    exact hi
  · exact List.getElem_zipWith

/-- The slot admits names only. -/
def Slot.isName : Slot → Bool
  | .word text => text.toList.all isNameChar
  | _ => true

theorem name_of_admits (h : slot.isName = true) (hadmits : slot.admits text = true) :
    ∀ c ∈ text, isNameChar c = true := by
  cases slot with
  | word word =>
    rw [of_decide_eq_true hadmits]
    exact List.all_eq_true.1 h
  | numeric => exact name_of_numeric hadmits
  | uuid => exact name_of_uuid hadmits
  | traceId => exact name_of_traceId hadmits
  | ticketId => exact name_of_ticketId hadmits
  | department => exact name_of_department hadmits

end

/-! ### Paths of endpoints -/

/-- The texts of a path without variable segments. -/
def texts (names : List String) : List Segment := names.map String.toList

/-- The handler forwards a request for the segments. -/
def Forwards (service : Service) (method : Method) (segments : List Segment) : Prop :=
  ∃ path keys, service.route method path keys = .forward (serializePath segments)

section

variable {method : Method} {path segments : List Segment} {names : List String}
  {slot : Slot} {slots : List Slot} {upstreamPath text joined : List Char} {service : Service}

theorem fills_nil : Fills [] [] := .nil

theorem Fills.cons (h : Fills slots segments) (slot : Slot) (hadmits : slot.admits text = true) :
    Fills (slot :: slots) (text :: segments) := List.Forall₂.cons hadmits h

theorem Fills.word (h : Fills slots segments) (name : String) :
    Fills (.word name :: slots) (name.toList :: segments) := h.cons _ (decide_eq_true rfl)

theorem fills_words_append (h : Fills slots segments) :
    Fills (words names ++ slots) (texts names ++ segments) := by
  induction names with
  | nil => exact h
  | cons name names ih => exact ih.word name

theorem fills_words (names : List String) : Fills (words names) (texts names) := by
  have h : Fills (words names ++ []) (texts names ++ []) := fills_words_append .nil
  rwa [List.append_nil, List.append_nil] at h

theorem eq_of_fills_words (h : Fills (words names ++ slots) segments) :
    ∃ behind, segments = texts names ++ behind ∧ Fills slots behind := by
  induction names generalizing segments with
  | nil => exact ⟨segments, rfl, h⟩
  | cons name names ih =>
    cases h with
    | cons hname hrest =>
      obtain ⟨behind, rfl, hbehind⟩ := ih hrest
      exact ⟨behind, by rw [of_decide_eq_true hname]; rfl, hbehind⟩

theorem eq_texts_of_fills (h : Fills (words names) segments) : segments = texts names := by
  rw [← List.append_nil (words names)] at h
  obtain ⟨behind, rfl, hbehind⟩ := eq_of_fills_words h
  cases hbehind
  exact List.append_nil _

theorem serializePath_append (front behind : List Segment) :
    serializePath (front ++ behind) = serializePath front ++ serializePath behind :=
  List.flatMap_append

theorem serializePath_concat (front : List Segment) (last : Segment) :
    serializePath (front ++ [last]) = serializePath front ++ '/' :: last := by
  rw [serializePath_append]
  exact congrArg _ (List.append_nil _)

/-- Names are passed on as they are. -/
theorem suffix_of_names (h : ∀ s ∈ path, ∀ c ∈ s, isNameChar c = true) :
    suffix path = serializePath path := by
  have hmap : path.map encodeURIComponent = path :=
    (List.map_congr_left fun s hs => encodeURIComponent_of_name (h s hs)).trans (List.map_id _)
  rw [suffix, hmap]

theorem name_of_word {name : String} (h : name.toList.all isNameChar = true) :
    ∀ c ∈ name.toList, isNameChar c = true := List.all_eq_true.1 h

/-! ### Keys -/

theorem name_takeWhile (method : Method) (rest : List Char) :
    (method.name.toList ++ ' ' :: rest).takeWhile (fun c => decide (c ≠ ' ')) =
      method.name.toList := by
  have hall : (method.name.toList.all fun c => decide (c ≠ ' ')) = true := by
    cases method <;> rfl
  have hname : ∀ c ∈ method.name.toList, decide (c ≠ ' ') = true := List.all_eq_true.1 hall
  rw [List.takeWhile_append_of_pos hname, List.takeWhile_cons_of_neg (by decide), List.append_nil]

/-- A key has one method. -/
theorem eq_of_key {method' : Method}
    (h : method'.name.toList ++ ' ' :: joined = routeKey method path) :
    method = method' ∧ joinSlash path = joined := by
  have hname : method'.name.toList = method.name.toList := by
    rw [← name_takeWhile method' joined, h, routeKey, name_takeWhile]
  have hmethod : method = method' := by
    revert hname
    cases method <;> cases method' <;> decide
  subst hmethod
  exact ⟨rfl, (List.cons.inj (List.append_cancel_left h)).2.symm⟩

/-- A key that stands in a list of routes. -/
theorem key_of_route (method' : Method) (text : String) {key : String}
    (hkey : key.toList = routeKey method path)
    (htext : key.toList = method'.name.toList ++ ' ' :: text.toList) :
    method = method' ∧ joinSlash path = text.toList := eq_of_key (htext.symm.trans hkey)

theorem mem_of_getRoute {routes : List (String × String)} {key : List Char}
    (h : getRoute routes key = some upstreamPath) :
    ∃ route ∈ routes, route.1.toList = key ∧ upstreamPath = route.2.toList := by
  obtain ⟨route, hroute, rfl⟩ := Option.map_eq_some_iff.1 h
  exact ⟨route, List.mem_of_find?_eq_some hroute, by simpa using List.find?_some hroute, rfl⟩

/-- A list of routes whose templates are endpoints. -/
def Templates (routes : List (String × String)) (endpoints : List (Method × List Slot)) : Prop :=
  ∀ route ∈ routes, ∃ method names joined, route.1.toList = method.name.toList ++ ' ' :: joined ∧
    route.2.toList = serializePath (texts names) ∧ (method, words names) ∈ endpoints

theorem Templates.exists_endpoint {routes : List (String × String)}
    (hroutes : Templates routes service.endpoints)
    (h : getRoute routes (routeKey method path) = some upstreamPath) :
    ∃ segments, IsEndpoint service method segments ∧ upstreamPath = serializePath segments := by
  obtain ⟨route, hmem, hkey, rfl⟩ := mem_of_getRoute h
  obtain ⟨method', names, joined, hkey', htemplate, hendpoint⟩ := hroutes route hmem
  obtain ⟨rfl, -⟩ := eq_of_key (hkey'.symm.trans hkey)
  exact ⟨texts names, ⟨words names, hendpoint, fills_words names⟩, htemplate⟩

theorem templates_knowledge : Templates knowledgeRoutes (Service.endpoints .knowledge) := by
  intro route hroute
  obtain rfl := List.mem_singleton.1 hroute
  exact ⟨.post, ["knowledge", "query"], "query".toList, by decide, by decide, by decide⟩

theorem templates_reporting : Templates reportingRoutes (Service.endpoints .reporting) := by
  intro route hroute
  simp only [reportingRoutes, List.mem_cons, List.not_mem_nil, or_false] at hroute
  rcases hroute with rfl | rfl
  · exact ⟨.get, ["reporting", "weekly-warehouse-client-performance"],
      "weekly-warehouse-client-performance".toList, by decide, by decide, by decide⟩
  · exact ⟨.get, ["reporting", "pipeline-runs", "latest"], "pipeline-runs/latest".toList,
      by decide, by decide, by decide⟩

theorem templates_telemetry : Templates telemetryRoutes (Service.endpoints .telemetry) := by
  intro route hroute
  simp only [telemetryRoutes, List.mem_cons, List.not_mem_nil, or_false] at hroute
  rcases hroute with rfl | rfl | rfl | rfl
  · exact ⟨.get, ["telemetry", "metrics", "dispatch"], "metrics/dispatch".toList,
      by decide, by decide, by decide⟩
  · exact ⟨.get, ["telemetry", "metrics", "receiving"], "metrics/receiving".toList,
      by decide, by decide, by decide⟩
  · exact ⟨.get, ["telemetry", "metrics", "stock-loss"], "metrics/stock-loss".toList,
      by decide, by decide, by decide⟩
  · exact ⟨.get, ["telemetry", "metrics", "access-denials"], "metrics/access-denials".toList,
      by decide, by decide, by decide⟩

/-! ### What the handlers forward -/

/-- An endpoint without variable segments. -/
theorem isEndpoint_words (names : List String) (h : (method, words names) ∈ service.endpoints)
    (htext : upstreamPath = serializePath (texts names)) :
    ∃ segments, IsEndpoint service method segments ∧ upstreamPath = serializePath segments :=
  ⟨texts names, ⟨words names, h, fills_words names⟩, htext⟩

theorem append_encodeURIComponent (names : List String) (front : String)
    (hfront : front.toList = serializePath (texts names) ++ ['/'])
    (hname : ∀ c ∈ text, isNameChar c = true) :
    front.toList ++ encodeURIComponent text = serializePath (texts names ++ [text]) := by
  rw [hfront, encodeURIComponent_of_name hname, serializePath_concat, List.append_assoc]
  rfl

/-- An endpoint whose last segment is variable. -/
theorem isEndpoint_slot (names : List String) (slot : Slot) {front : String}
    (h : (method, words names ++ [slot]) ∈ service.endpoints)
    (hfront : front.toList = serializePath (texts names) ++ ['/'])
    (hadmits : slot.admits text = true) (hname : ∀ c ∈ text, isNameChar c = true) :
    ∃ segments, IsEndpoint service method segments ∧
      front.toList ++ encodeURIComponent text = serializePath segments :=
  ⟨texts names ++ [text], ⟨_, h, fills_words_append (fills_nil.cons slot hadmits)⟩,
    append_encodeURIComponent names front hfront hname⟩

theorem endpoint_of_agents {keys : List (List Char)}
    (h : agentsRoute method path keys = .forward upstreamPath) :
    ∃ segments, IsEndpoint .agents method segments ∧ upstreamPath = serializePath segments := by
  have hpath : agentsPath method path = some upstreamPath := by
    unfold agentsRoute at h
    split at h
    · cases h
    · rename_i found hfound
      dsimp only at h
      split_ifs at h <;> cases h <;> exact hfound
  unfold agentsPath at hpath
  split at hpath
  · split_ifs at hpath
    cases hpath
    exact isEndpoint_words ["agent", "query"] (by decide) (by decide)
  · split_ifs at hpath
    cases hpath
    exact isEndpoint_words ["chat", "sessions"] (by decide) (by decide)
  · split_ifs at hpath
    cases hpath
    exact isEndpoint_words ["agents", "runs"] (by decide) (by decide)
  · split_ifs at hpath with hruns hsessions <;> cases hpath
    · exact isEndpoint_slot ["agents", "runs"] .traceId (by decide) (by decide) hruns.2
        (name_of_traceId hruns.2)
    · exact isEndpoint_words ["chat", "sessions"] (by decide) (by decide)
  · split_ifs at hpath with hsession
    cases hpath
    exact isEndpoint_slot ["chat", "sessions"] .uuid (by decide) (by decide)
      hsession.2.2 (name_of_uuid hsession.2.2)
  · cases hpath

theorem endpoint_of_auth (h : authRoute method path = .forward upstreamPath) :
    ∃ segments, IsEndpoint .auth method segments ∧ upstreamPath = serializePath segments := by
  unfold authRoute at h
  dsimp only at h
  split at h
  · rename_i entry hentry
    split_ifs at h with hmethod
    cases h
    have hroute : entry.1.toList = joinSlash path := by simpa using List.find?_some hentry
    have hall : ∀ entry ∈ authRouteMethods,
        (entry.2, words ["auth", entry.1]) ∈ Service.endpoints .auth := by decide
    refine isEndpoint_words ["auth", entry.1] ?_ ?_
    · rw [← hmethod]
      exact hall entry (List.mem_of_find?_eq_some hentry)
    · rw [← hroute, show texts ["auth", entry.1] = texts ["auth"] ++ [entry.1.toList] from rfl,
        serializePath_concat]
      rfl
  · split_ifs at h

/-- A path of names is passed on behind a path without variable segments. -/
theorem append_suffix (names : List String) {front : String}
    (hfront : front.toList = serializePath (texts names))
    (h : ∀ s ∈ path, ∀ c ∈ s, isNameChar c = true) :
    front.toList ++ suffix path = serializePath (texts names ++ path) := by
  rw [hfront, suffix_of_names h, serializePath_append]

/-- Each segment fills one of the slots. -/
theorem Fills.exists_slot (h : Fills slots segments) (hs : text ∈ segments) :
    ∃ slot ∈ slots, slot.admits text = true := by
  induction h with
  | nil => cases hs
  | cons hadmits hrest ih =>
    rcases List.mem_cons.1 hs with rfl | hs
    · exact ⟨_, List.mem_cons_self, hadmits⟩
    · obtain ⟨slot, hslot, hadmits⟩ := ih hs
      exact ⟨slot, List.mem_cons_of_mem _ hslot, hadmits⟩

theorem name_of_fills (h : Fills slots segments) (hslots : slots.all Slot.isName = true) :
    ∀ s ∈ segments, ∀ c ∈ s, isNameChar c = true := by
  intro s hs
  obtain ⟨slot, hslot, hadmits⟩ := h.exists_slot hs
  exact name_of_admits (List.all_eq_true.1 hslots slot hslot) hadmits

/-- An endpoint behind a path without variable segments. -/
theorem isEndpoint_suffix (names : List String) (slots : List Slot) {front : String}
    (hfront : front.toList = serializePath (texts names))
    (h : (method, words names ++ slots) ∈ service.endpoints)
    (hslots : slots.all Slot.isName = true) (hfills : Fills slots path) :
    ∃ segments, IsEndpoint service method segments ∧
      front.toList ++ suffix path = serializePath segments :=
  ⟨texts names ++ path, ⟨_, h, fills_words_append hfills⟩,
    append_suffix names hfront (name_of_fills hfills hslots)⟩

/-! ### Joined paths -/

theorem joinSlash_cons (segment : Segment) (h : path ≠ []) :
    joinSlash (segment :: path) = segment ++ '/' :: joinSlash path := by
  cases path with
  | nil => exact absurd rfl h
  | cons next rest => rfl

/-- A path that is joined to a name has the one segment. -/
theorem eq_singleton_of_joinSlash (hne : text ≠ []) (hslash : '/' ∉ text)
    (h : joinSlash path = text) : path = [text] := by
  match path with
  | [] => exact absurd h.symm hne
  | [segment] => exact congrArg ([·]) ((List.append_nil segment).symm.trans h)
  | segment :: next :: rest =>
    rw [joinSlash_cons segment (List.cons_ne_nil _ _)] at h
    exact absurd (h ▸ by simp) hslash

/-- A path that is joined to two names has them as its segments, or both in one. -/
theorem eq_pair_of_joinSlash {front behind : List Char} (hfront : '/' ∉ front)
    (hne : behind ≠ []) (hbehind : '/' ∉ behind) (h : joinSlash path = front ++ '/' :: behind) :
    path = [front ++ '/' :: behind] ∨ path = [front, behind] := by
  match path with
  | [] => cases front <;> cases h
  | [segment] => exact .inl (congrArg ([·]) ((List.append_nil segment).symm.trans h))
  | segment :: next :: rest =>
    rw [joinSlash_cons segment (List.cons_ne_nil _ _)] at h
    obtain ⟨rfl, -, rfl⟩ := (List.append_cons_inj_of_notMem hfront hbehind).1 h.symm
    exact .inr (congrArg _ (eq_singleton_of_joinSlash hne hbehind rfl))

theorem endpoint_of_incidents (h : incidentsRoute method path = .forward upstreamPath) :
    ∃ segments, IsEndpoint .incidents method segments ∧
      upstreamPath = serializePath segments := by
  unfold incidentsRoute at h
  dsimp only at h
  split_ifs at h with hallowed
  cases h
  rcases hallowed with ⟨rfl, hpath⟩ | ⟨rfl, rfl⟩ | ⟨rfl, hlength, hdigits, hstatus⟩
  · rcases hpath with rfl | hjoined | ⟨hlength, hdigits⟩
    · exact isEndpoint_suffix ["api", "incidents"] [] (by decide) (by decide) rfl .nil
    · obtain rfl := eq_singleton_of_joinSlash (by decide) (by decide) hjoined
      exact isEndpoint_suffix ["api", "incidents"] [.word "summary"] (by decide) (by decide)
        (by decide) (fills_words ["summary"])
    · obtain ⟨id, rfl⟩ := List.length_eq_one_iff.1 hlength
      exact isEndpoint_suffix ["api", "incidents"] [.numeric] (by decide) (by decide) rfl
        (fills_nil.cons .numeric hdigits)
  · exact isEndpoint_suffix ["api", "incidents"] [] (by decide) (by decide) rfl .nil
  · obtain ⟨id, status, rfl⟩ := List.length_eq_two.1 hlength
    obtain rfl := Option.some.inj hstatus
    exact isEndpoint_suffix ["api", "incidents"] [.numeric, .word "status"] (by decide)
      (by decide) (by decide) ((fills_words ["status"]).cons .numeric hdigits)

theorem endpoint_of_rfp (h : rfpRoute method path = .forward upstreamPath) :
    ∃ segments, IsEndpoint .rfp method segments ∧ upstreamPath = serializePath segments := by
  unfold rfpRoute at h
  split_ifs at h with hallowed
  cases h
  have hrfp : "/rfp".toList = serializePath (texts ["rfp"]) := by decide
  unfold rfpAllowed at hallowed
  split at hallowed
  · obtain rfl := of_decide_eq_true hallowed
    exact isEndpoint_suffix ["rfp"] [.word "tickets"] hrfp (by decide) (by decide)
      (fills_words ["tickets"])
  · obtain rfl := of_decide_eq_true hallowed
    exact isEndpoint_suffix ["rfp"] [.word "tickets"] hrfp (by decide) (by decide)
      (fills_words ["tickets"])
  · simp only [Bool.and_eq_true, decide_eq_true_eq] at hallowed
    obtain ⟨rfl, hid⟩ := hallowed
    exact isEndpoint_suffix ["rfp"] [.word "tickets", .ticketId] hrfp (by decide) (by decide)
      ((fills_nil.cons .ticketId hid).word "tickets")
  · simp only [Bool.and_eq_true, decide_eq_true_eq] at hallowed
    obtain ⟨⟨rfl, hid⟩, rfl⟩ := hallowed
    exact isEndpoint_suffix ["rfp"] [.word "tickets", .ticketId, .word "document"] hrfp
      (by decide) (by decide) (((fills_words ["document"]).cons .ticketId hid).word "tickets")
  · simp only [Bool.and_eq_true, Bool.or_eq_true, decide_eq_true_eq] at hallowed
    obtain ⟨⟨⟨rfl, hid⟩, rfl⟩, rfl | rfl⟩ := hallowed
    · exact isEndpoint_suffix ["rfp"]
        [.word "tickets", .ticketId, .word "document", .word "download"] hrfp (by decide)
        (by decide) (((fills_words ["document", "download"]).cons .ticketId hid).word "tickets")
    · exact isEndpoint_suffix ["rfp"]
        [.word "tickets", .ticketId, .word "document", .word "pdf"] hrfp (by decide)
        (by decide) (((fills_words ["document", "pdf"]).cons .ticketId hid).word "tickets")
  · simp only [Bool.and_eq_true, decide_eq_true_eq] at hallowed
    obtain ⟨⟨⟨⟨rfl, hid⟩, rfl⟩, hdepartment⟩, rfl⟩ := hallowed
    exact isEndpoint_suffix ["rfp"]
      [.word "tickets", .ticketId, .word "departments", .department, .word "decision"] hrfp
      (by decide) (by decide)
      (((((fills_words ["decision"]).cons .department hdepartment).word "departments").cons
        .ticketId hid).word "tickets")
  · cases hallowed

/-! ### Templates with a placeholder -/

/-- The second segment of a path behind a path without variable segments. -/
theorem isEndpoint_second (names : List String) (name : String) {front : String}
    (hfront : front.toList = serializePath (texts names) ++ ['/'])
    (hid : (method, words names ++ [.word "%3Aid"]) ∈ service.endpoints)
    (hundefined : (method, words names ++ [.word "undefined"]) ∈ service.endpoints)
    (hname : '/' ∉ name.toList)
    (h : joinSlash path = name.toList ++ '/' :: ":id".toList) :
    ∃ segments, IsEndpoint service method segments ∧
      front.toList ++ encodeSecond path = serializePath segments := by
  rcases eq_pair_of_joinSlash hname (by decide) (by decide) h with rfl | rfl
  · refine ⟨texts names ++ ["undefined".toList],
      ⟨_, hundefined, fills_words_append (fills_nil.word _)⟩, ?_⟩
    rw [hfront, serializePath_concat, List.append_assoc]
    rfl
  · refine ⟨texts names ++ ["%3Aid".toList], ⟨_, hid, fills_words_append (fills_nil.word _)⟩, ?_⟩
    have hencode : encodeSecond [name.toList, ":id".toList] = "%3Aid".toList := by
      change encodeURIComponent ":id".toList = _
      decide
    rw [hfront, hencode, serializePath_concat, List.append_assoc]
    rfl

theorem fillTemplate_products (path : List Segment) :
    fillTemplate path "/inventory/products/:id".toList =
      "/inventory/products/".toList ++ encodeSecond path := if_pos rfl

theorem fillTemplate_clients (path : List Segment) :
    fillTemplate path "/inventory/clients/:id".toList =
      "/inventory/clients/".toList ++ encodeSecond path :=
  (if_neg (by decide)).trans (if_pos rfl)

/-- A template that is a path itself. -/
theorem isEndpoint_template (names : List String) {template : String}
    (h : (method, words names) ∈ Service.endpoints .inventory)
    (htext : template.toList = serializePath (texts names))
    (hproduct : template ≠ "/inventory/products/:id")
    (hclient : template ≠ "/inventory/clients/:id") :
    ∃ segments, IsEndpoint .inventory method segments ∧
      fillTemplate path template.toList = serializePath segments := by
  refine isEndpoint_words names h (Eq.trans ?_ htext)
  rw [fillTemplate, if_neg, if_neg]
  · exact fun heq => hclient (String.toList_inj.1 heq)
  · exact fun heq => hproduct (String.toList_inj.1 heq)

/-- A request whose key is found as it stands. -/
theorem endpoint_of_routeKey {template : List Char}
    (h : getRoute inventoryRoutes (routeKey method path) = some template) :
    ∃ segments, IsEndpoint .inventory method segments ∧
      fillTemplate path template = serializePath segments := by
  obtain ⟨route, hmem, hkey, rfl⟩ := mem_of_getRoute h
  simp only [inventoryRoutes, List.mem_cons, List.not_mem_nil, or_false] at hmem
  rcases hmem with rfl | rfl | rfl | rfl | rfl | rfl | rfl | rfl | rfl | rfl
  · obtain ⟨rfl, -⟩ := key_of_route .get "clients" hkey (by decide)
    exact isEndpoint_template ["inventory", "clients"] (by decide) (by decide) (by decide)
      (by decide)
  · obtain ⟨rfl, -⟩ := key_of_route .post "clients" hkey (by decide)
    exact isEndpoint_template ["inventory", "clients"] (by decide) (by decide) (by decide)
      (by decide)
  · obtain ⟨rfl, hpath⟩ := key_of_route .patch "clients/:id" hkey (by decide)
    rw [fillTemplate_clients]
    exact isEndpoint_second ["inventory", "clients"] "clients" (by decide) (by decide) (by decide)
      (by decide) hpath
  · obtain ⟨rfl, -⟩ := key_of_route .get "products" hkey (by decide)
    exact isEndpoint_template ["inventory", "products"] (by decide) (by decide) (by decide)
      (by decide)
  · obtain ⟨rfl, -⟩ := key_of_route .post "products" hkey (by decide)
    exact isEndpoint_template ["inventory", "products"] (by decide) (by decide) (by decide)
      (by decide)
  · obtain ⟨rfl, hpath⟩ := key_of_route .get "products/:id" hkey (by decide)
    rw [fillTemplate_products]
    exact isEndpoint_second ["inventory", "products"] "products" (by decide) (by decide) (by decide)
      (by decide) hpath
  · obtain ⟨rfl, hpath⟩ := key_of_route .patch "products/:id" hkey (by decide)
    rw [fillTemplate_products]
    exact isEndpoint_second ["inventory", "products"] "products" (by decide) (by decide) (by decide)
      (by decide) hpath
  · obtain ⟨rfl, -⟩ := key_of_route .post "orders/inbound" hkey (by decide)
    exact isEndpoint_template ["inventory", "orders", "inbound"] (by decide) (by decide)
      (by decide) (by decide)
  · obtain ⟨rfl, -⟩ := key_of_route .post "orders/outbound" hkey (by decide)
    exact isEndpoint_template ["inventory", "orders", "outbound"] (by decide) (by decide)
      (by decide) (by decide)
  · obtain ⟨rfl, -⟩ := key_of_route .get "orders" hkey (by decide)
    exact isEndpoint_template ["inventory", "orders"] (by decide) (by decide) (by decide)
      (by decide)

theorem endpoint_of_inventory (h : inventoryPath method path = some upstreamPath) :
    ∃ segments, IsEndpoint .inventory method segments ∧
      upstreamPath = serializePath segments := by
  obtain ⟨template, htemplate, rfl⟩ := Option.map_eq_some_iff.1 h
  unfold inventoryKey at htemplate
  split_ifs at htemplate with hproduct hclient
  · obtain ⟨hmethod, hlength, -, hdigits⟩ := hproduct
    obtain ⟨first, id, rfl⟩ := List.length_eq_two.1 hlength
    have htext : template = "/inventory/products/:id".toList := by
      rcases hmethod with rfl | rfl <;> exact Option.some.inj (htemplate.symm.trans (by decide))
    rw [htext, fillTemplate_products]
    refine isEndpoint_slot ["inventory", "products"] .numeric ?_ (by decide) hdigits
      (name_of_numeric hdigits)
    rcases hmethod with rfl | rfl <;> decide
  · obtain ⟨rfl, hlength, -, hid⟩ := hclient
    obtain ⟨first, id, rfl⟩ := List.length_eq_two.1 hlength
    have htext : template = "/inventory/clients/:id".toList :=
      Option.some.inj (htemplate.symm.trans (by decide))
    rw [htext, fillTemplate_clients]
    exact isEndpoint_slot ["inventory", "clients"] .uuid (by decide) (by decide) hid
      (name_of_uuid hid)
  · exact endpoint_of_routeKey htemplate

/-- What a handler forwards is the path of an endpoint. -/
theorem endpoint_of_route {keys : List (List Char)}
    (h : service.route method path keys = .forward upstreamPath) :
    ∃ segments, IsEndpoint service method segments ∧ upstreamPath = serializePath segments := by
  have hpath (found : Option (List Char)) (hfound : Routed.ofPath found = .forward upstreamPath) :
      found = some upstreamPath := by
    cases found with
    | none => cases hfound
    | some path => exact congrArg some (Routed.forward.inj hfound)
  cases service with
  | agents => exact endpoint_of_agents h
  | auth => exact endpoint_of_auth h
  | incidents => exact endpoint_of_incidents h
  | inventory => exact endpoint_of_inventory (hpath _ h)
  | knowledge => exact templates_knowledge.exists_endpoint (hpath _ h)
  | reporting => exact templates_reporting.exists_endpoint (hpath _ h)
  | rfp => exact endpoint_of_rfp h
  | telemetry => exact templates_telemetry.exists_endpoint (hpath _ h)

/-! ### Every endpoint is forwarded to -/

/-- An endpoint without variable segments is forwarded to. -/
theorem forwards_words (path : List Segment) (h : Fills (words names) segments)
    (hroute : service.route method path [] = .forward (serializePath (texts names))) :
    Forwards service method segments := by
  rw [eq_texts_of_fills h]
  exact ⟨path, [], hroute⟩

theorem Fills.exists_cons (h : Fills (slot :: slots) segments) :
    ∃ text rest, segments = text :: rest ∧ slot.admits text = true ∧ Fills slots rest := by
  cases h with
  | cons hadmits hrest => exact ⟨_, _, rfl, hadmits, hrest⟩

theorem exists_of_fills_slot (h : Fills (words names ++ [slot]) segments) :
    ∃ text, segments = texts names ++ [text] ∧ slot.admits text = true := by
  obtain ⟨behind, rfl, hbehind⟩ := eq_of_fills_words h
  obtain ⟨text, rest, rfl, hadmits, hrest⟩ := hbehind.exists_cons
  cases hrest
  exact ⟨text, rfl, hadmits⟩

theorem forwards_agentsPath (path : List Segment) (names : List String) (front : String)
    (hfront : front.toList = serializePath (texts names) ++ ['/'])
    (hname : ∀ c ∈ text, isNameChar c = true)
    (h : agentsPath method path = some (front.toList ++ encodeURIComponent text)) :
    Forwards .agents method (texts names ++ [text]) := by
  refine ⟨path, [], ?_⟩
  rw [← append_encodeURIComponent names front hfront hname]
  simp [Service.route, agentsRoute, h]

theorem forwards_agents {endpoint : Method × List Slot}
    (hmem : endpoint ∈ Service.endpoints .agents) (h : Fills endpoint.2 segments) :
    Forwards .agents endpoint.1 segments := by
  simp only [Service.endpoints, List.mem_cons, List.not_mem_nil, or_false] at hmem
  rcases hmem with rfl | rfl | rfl | rfl | rfl | rfl
  · exact forwards_words ["query".toList] h (by decide)
  · exact forwards_words (texts ["chat", "sessions"]) h (by decide)
  · exact forwards_words ["runs".toList] h (by decide)
  · obtain ⟨id, rfl, hid⟩ := exists_of_fills_slot h
    exact forwards_agentsPath ["runs".toList, id] _ "/agents/runs/" (by decide)
      (name_of_traceId hid) (if_pos ⟨rfl, hid⟩)
  · exact forwards_words (texts ["chat", "sessions"]) h (by decide)
  · obtain ⟨id, rfl, hid⟩ := exists_of_fills_slot h
    exact forwards_agentsPath ["chat".toList, "sessions".toList, id] _ "/chat/sessions/"
      (by decide) (name_of_uuid hid) (if_pos ⟨rfl, rfl, hid⟩)

theorem forwards_auth {endpoint : Method × List Slot}
    (hmem : endpoint ∈ Service.endpoints .auth) (h : Fills endpoint.2 segments) :
    Forwards .auth endpoint.1 segments := by
  simp only [Service.endpoints, List.mem_cons, List.not_mem_nil, or_false] at hmem
  rcases hmem with rfl | rfl | rfl | rfl | rfl | rfl | rfl
  · exact forwards_words ["forgot-password".toList] h (by decide)
  · exact forwards_words ["login".toList] h (by decide)
  · exact forwards_words ["refresh".toList] h (by decide)
  · exact forwards_words ["logout".toList] h (by decide)
  · exact forwards_words ["me".toList] h (by decide)
  · exact forwards_words ["change-password".toList] h (by decide)
  · exact forwards_words ["reset-password".toList] h (by decide)

theorem forwards_incidents {endpoint : Method × List Slot}
    (hmem : endpoint ∈ Service.endpoints .incidents) (h : Fills endpoint.2 segments) :
    Forwards .incidents endpoint.1 segments := by
  have hfront : "/api/incidents".toList = serializePath (texts ["api", "incidents"]) := by decide
  simp only [Service.endpoints, List.mem_cons, List.not_mem_nil, or_false] at hmem
  rcases hmem with rfl | rfl | rfl | rfl | rfl
  · exact forwards_words [] h (by decide)
  · exact forwards_words ["summary".toList] h (by decide)
  · obtain ⟨id, rfl, hid⟩ := exists_of_fills_slot h
    refine ⟨[id], [], (if_pos (.inl ⟨rfl, .inr (.inr ⟨rfl, hid⟩)⟩)).trans ?_⟩
    rw [append_suffix _ hfront (name_of_fills (fills_nil.cons .numeric hid) rfl)]
  · exact forwards_words [] h (by decide)
  · obtain ⟨behind, rfl, hbehind⟩ := eq_of_fills_words h
    obtain ⟨id, rest, rfl, hid, hrest⟩ := hbehind.exists_cons
    have hnames := name_of_fills hbehind (by decide)
    obtain rfl : rest = texts ["status"] := eq_texts_of_fills hrest
    refine ⟨id :: texts ["status"], [], (if_pos (.inr (.inr ⟨rfl, rfl, hid, rfl⟩))).trans ?_⟩
    rw [append_suffix _ hfront hnames]

theorem forwards_rfpAllowed (hallowed : rfpAllowed method path = true) (h : Fills slots path)
    (hslots : slots.all Slot.isName = true) : Forwards .rfp method (texts ["rfp"] ++ path) := by
  refine ⟨path, [], (if_pos hallowed).trans ?_⟩
  have hfront : "/rfp".toList = serializePath (texts ["rfp"]) := by decide
  rw [append_suffix _ hfront (name_of_fills h hslots)]

theorem forwards_rfp {endpoint : Method × List Slot}
    (hmem : endpoint ∈ Service.endpoints .rfp) (h : Fills endpoint.2 segments) :
    Forwards .rfp endpoint.1 segments := by
  simp only [Service.endpoints, List.mem_cons, List.not_mem_nil, or_false] at hmem
  rcases hmem with rfl | rfl | rfl | rfl | rfl | rfl | rfl
  · exact forwards_words ["tickets".toList] h (by decide)
  · exact forwards_words ["tickets".toList] h (by decide)
  · obtain ⟨id, rfl, hid⟩ := exists_of_fills_slot h
    have hpath := (fills_nil.cons .ticketId hid).word "tickets"
    exact forwards_rfpAllowed (by simpa [rfpAllowed, Slot.admits] using hid) hpath (by decide)
  · obtain ⟨behind, rfl, hbehind⟩ := eq_of_fills_words h
    obtain ⟨id, rest, rfl, hid, hrest⟩ := hbehind.exists_cons
    obtain rfl : rest = texts ["document"] := eq_texts_of_fills hrest
    exact forwards_rfpAllowed (by simpa [rfpAllowed, texts, Slot.admits] using hid)
      (hbehind.word "tickets") (by decide)
  · obtain ⟨behind, rfl, hbehind⟩ := eq_of_fills_words h
    obtain ⟨id, rest, rfl, hid, hrest⟩ := hbehind.exists_cons
    obtain rfl : rest = texts ["document", "download"] := eq_texts_of_fills hrest
    exact forwards_rfpAllowed (by simpa [rfpAllowed, texts, Slot.admits] using hid)
      (hbehind.word "tickets") (by decide)
  · obtain ⟨behind, rfl, hbehind⟩ := eq_of_fills_words h
    obtain ⟨id, rest, rfl, hid, hrest⟩ := hbehind.exists_cons
    obtain rfl : rest = texts ["document", "pdf"] := eq_texts_of_fills hrest
    exact forwards_rfpAllowed (by simpa [rfpAllowed, texts, Slot.admits] using hid)
      (hbehind.word "tickets") (by decide)
  · obtain ⟨behind, rfl, hbehind⟩ := eq_of_fills_words h
    obtain ⟨id, rest, rfl, hid, hrest⟩ := hbehind.exists_cons
    obtain ⟨word, rest, rfl, hword, hrest⟩ := hrest.exists_cons
    obtain ⟨department, rest, rfl, hdepartment, hrest⟩ := hrest.exists_cons
    obtain rfl : rest = texts ["decision"] := eq_texts_of_fills hrest
    obtain rfl := of_decide_eq_true hword
    exact forwards_rfpAllowed (by simpa [rfpAllowed, texts, Slot.admits] using ⟨hid, hdepartment⟩)
      (hbehind.word "tickets") (by decide)

theorem forwards_template (path : List Segment) (names : List String) (front : String)
    {key template : List Char} (hkey : inventoryKey method path = key)
    (htemplate : getRoute inventoryRoutes key = some template)
    (hfill : fillTemplate path template = front.toList ++ encodeURIComponent text)
    (hfront : front.toList = serializePath (texts names) ++ ['/'])
    (hname : ∀ c ∈ text, isNameChar c = true) :
    Forwards .inventory method (texts names ++ [text]) := by
  refine ⟨path, [], ?_⟩
  rw [← append_encodeURIComponent names front hfront hname, ← hfill]
  simp [Service.route, inventoryPath, hkey, htemplate, Routed.ofPath]

theorem inventoryKey_products {id : Segment} (hmethod : method = .get ∨ method = .patch)
    (hid : isNumeric id = true) :
    inventoryKey method ["products".toList, id] = method.name.toList ++ " products/:id".toList :=
  if_pos ⟨hmethod, rfl, rfl, hid⟩

theorem inventoryKey_clients {id : Segment} (hid : isUuid id = true) :
    inventoryKey .patch ["clients".toList, id] = "PATCH clients/:id".toList := by
  have hword : some "clients".toList ≠ some "products".toList := by decide
  exact (if_neg fun h => hword h.2.2.1).trans (if_pos ⟨rfl, rfl, rfl, hid⟩)

theorem forwards_inventory {endpoint : Method × List Slot}
    (hmem : endpoint ∈ Service.endpoints .inventory) (h : Fills endpoint.2 segments) :
    Forwards .inventory endpoint.1 segments := by
  simp only [Service.endpoints, List.mem_cons, List.not_mem_nil, or_false] at hmem
  rcases hmem with rfl | rfl | rfl | rfl | rfl | rfl | rfl | rfl | rfl | rfl | rfl | rfl | rfl |
    rfl | rfl | rfl
  · exact forwards_words ["clients".toList] h (by decide)
  · exact forwards_words ["clients".toList] h (by decide)
  · obtain ⟨id, rfl, hid⟩ := exists_of_fills_slot h
    exact forwards_template _ _ "/inventory/clients/" (inventoryKey_clients hid) (by decide)
      (fillTemplate_clients _) (by decide) (name_of_uuid hid)
  · exact forwards_words (texts ["clients", ":id"]) h (by decide)
  · exact forwards_words ["clients/:id".toList] h (by decide)
  · exact forwards_words ["products".toList] h (by decide)
  · exact forwards_words ["products".toList] h (by decide)
  · obtain ⟨id, rfl, hid⟩ := exists_of_fills_slot h
    exact forwards_template _ _ "/inventory/products/" (inventoryKey_products (.inl rfl) hid)
      (by decide) (fillTemplate_products _) (by decide) (name_of_numeric hid)
  · exact forwards_words (texts ["products", ":id"]) h (by decide)
  · exact forwards_words ["products/:id".toList] h (by decide)
  · obtain ⟨id, rfl, hid⟩ := exists_of_fills_slot h
    exact forwards_template _ _ "/inventory/products/" (inventoryKey_products (.inr rfl) hid)
      (by decide) (fillTemplate_products _) (by decide) (name_of_numeric hid)
  · exact forwards_words (texts ["products", ":id"]) h (by decide)
  · exact forwards_words ["products/:id".toList] h (by decide)
  · exact forwards_words (texts ["orders", "inbound"]) h (by decide)
  · exact forwards_words (texts ["orders", "outbound"]) h (by decide)
  · exact forwards_words ["orders".toList] h (by decide)

theorem forwards_of_isEndpoint (h : IsEndpoint service method segments) :
    Forwards service method segments := by
  obtain ⟨slots, hmem, hfills⟩ := h
  cases service with
  | agents => exact forwards_agents hmem hfills
  | auth => exact forwards_auth hmem hfills
  | incidents => exact forwards_incidents hmem hfills
  | inventory => exact forwards_inventory hmem hfills
  | rfp => exact forwards_rfp hmem hfills
  | knowledge =>
    obtain ⟨rfl, rfl⟩ := Prod.mk.inj (List.mem_singleton.1 hmem)
    exact forwards_words ["query".toList] hfills (by decide)
  | reporting =>
    simp only [Service.endpoints, List.mem_cons, List.not_mem_nil, or_false, Prod.mk.injEq] at hmem
    rcases hmem with ⟨rfl, rfl⟩ | ⟨rfl, rfl⟩
    · exact forwards_words ["weekly-warehouse-client-performance".toList] hfills (by decide)
    · exact forwards_words (texts ["pipeline-runs", "latest"]) hfills (by decide)
  | telemetry =>
    simp only [Service.endpoints, List.mem_cons, List.not_mem_nil, or_false, Prod.mk.injEq] at hmem
    rcases hmem with ⟨rfl, rfl⟩ | ⟨rfl, rfl⟩ | ⟨rfl, rfl⟩ | ⟨rfl, rfl⟩
    · exact forwards_words (texts ["metrics", "dispatch"]) hfills (by decide)
    · exact forwards_words (texts ["metrics", "receiving"]) hfills (by decide)
    · exact forwards_words (texts ["metrics", "stock-loss"]) hfills (by decide)
    · exact forwards_words (texts ["metrics", "access-denials"]) hfills (by decide)

/-! ## What can be fetched -/

/-- A segment of an endpoint is a name, or the placeholder. -/
theorem isName_of_mem_endpoints (hmem : (method, slots) ∈ service.endpoints)
    (hslot : slot ∈ slots) : slot.isName = true ∨ slot = .word "%3Aid" := by
  have hall : ∀ service : Service, ∀ endpoint ∈ service.endpoints, ∀ slot ∈ endpoint.2,
      slot.isName = true ∨ slot = .word "%3Aid" := by
    intro service
    cases service <;> decide
  exact hall service _ hmem slot hslot

theorem literal_placeholder : Literal "%3Aid".toList where
  chars := List.all_eq_true.1 (by decide)
  plain := by decide

theorem IsEndpoint.literal (h : IsEndpoint service method segments) :
    ∀ s ∈ segments, Literal s := by
  obtain ⟨slots, hmem, hfills⟩ := h
  intro s hs
  obtain ⟨slot, hslot, hadmits⟩ := hfills.exists_slot hs
  rcases isName_of_mem_endpoints hmem hslot with hname | rfl
  · exact literal_of_name (name_of_admits hname hadmits)
  · rw [of_decide_eq_true hadmits]
    exact literal_placeholder

theorem IsEndpoint.ne_nil (h : IsEndpoint service method segments) : segments ≠ [] := by
  obtain ⟨slots, hmem, hfills⟩ := h
  rintro rfl
  cases hfills
  revert hmem
  cases service <;> cases method <;> decide

/-- An upstream path behind the path of the base. -/
theorem buildURL_eq {base : List Segment} {baseUrl : List Char}
    (hbase : dropSlash baseUrl = serializePath base) (hne : segments ≠ []) :
    buildURL baseUrl (serializePath segments) = parsePath (serializePath (base ++ segments)) := by
  obtain ⟨segment, rest, rfl⟩ := List.exists_cons_of_ne_nil hne
  have hslash : (serializePath (segment :: rest)).head? = some '/' := rfl
  rw [buildURL, if_pos hslash, hbase, serializePath_append]

/-- **The paths that can be fetched from a service are those of its endpoints**, behind the path of
the base. -/
theorem reachable_iff {base : List Segment} {baseUrl : List Char}
    (hurl : dropSlash baseUrl = serializePath base) (hbase : ∀ s ∈ base, Literal s)
    (service : Service) (method : Method) (fetched : List Segment) :
    (∃ path keys upstreamPath, service.route method path keys = .forward upstreamPath ∧
        buildURL baseUrl upstreamPath = fetched) ↔
      ∃ segments, IsEndpoint service method segments ∧ fetched = base ++ segments := by
  have hbuild : ∀ segments, IsEndpoint service method segments →
      buildURL baseUrl (serializePath segments) = base ++ segments := by
    intro segments hsegments
    rw [buildURL_eq hurl hsegments.ne_nil]
    refine parsePath_of_literal (List.append_ne_nil_of_right_ne_nil _ hsegments.ne_nil) ?_
    intro s hs
    rcases List.mem_append.1 hs with hs | hs
    · exact hbase s hs
    · exact hsegments.literal s hs
  constructor
  · rintro ⟨path, keys, upstreamPath, hroute, rfl⟩
    obtain ⟨segments, hsegments, rfl⟩ := endpoint_of_route hroute
    exact ⟨segments, hsegments, hbuild segments hsegments⟩
  · rintro ⟨segments, hsegments, rfl⟩
    obtain ⟨path, keys, hroute⟩ := forwards_of_isEndpoint hsegments
    exact ⟨path, keys, _, hroute, hbuild segments hsegments⟩

/-- A base with a path, and with a slash at its end. -/
theorem reachable_iff_behind_path :
    (∃ path keys upstreamPath, Service.route .rfp .get path keys = .forward upstreamPath ∧
        buildURL "/central/".toList upstreamPath = texts ["central", "rfp", "tickets"]) ↔
      ∃ segments, IsEndpoint .rfp .get segments ∧
        texts ["central", "rfp", "tickets"] = texts ["central"] ++ segments := by
  have hliteral : ∀ s ∈ texts ["central"], Literal s := by
    intro s hs
    obtain rfl := List.mem_singleton.1 hs
    exact literal_of_name (List.all_eq_true.1 (by decide))
  exact reachable_iff (by decide) hliteral .rfp .get _

end

/-! ## Paths that are passed on -/

/-- The handlers without an allow-list. -/
inductive PassThrough
  | suppliers
  | talent
  | users
  deriving DecidableEq, Repr

/-- `upstreamPath` of a handler without an allow-list. -/
def PassThrough.upstreamPath : PassThrough → List Segment → List Char
  | .suppliers, path => "/suppliers".toList ++ suffix path
  | .talent, path => if suffix path = [] then "/".toList else suffix path
  | .users, path => "/users".toList ++ suffix path

/-- The path that a request is meant for. -/
def PassThrough.meant : PassThrough → List Segment → List Segment
  | .suppliers, path => texts ["suppliers"] ++ path.map encodeURIComponent
  | .talent, path => if path = [] then [[]] else path.map encodeURIComponent
  | .users, path => texts ["users"] ++ path.map encodeURIComponent

section

variable {handler : PassThrough} {path segments base : List Segment} {baseUrl : List Char}

theorem PassThrough.upstreamPath_eq :
    handler.upstreamPath path = serializePath (handler.meant path) := by
  cases handler with
  | suppliers => exact (serializePath_append (texts ["suppliers"]) _).symm
  | users => exact (serializePath_append (texts ["users"]) _).symm
  | talent =>
    cases path with
    | nil => rfl
    | cons segment rest => rfl

theorem PassThrough.meant_ne_nil : handler.meant path ≠ [] := by
  cases handler with
  | suppliers => exact List.cons_ne_nil _ _
  | users => exact List.cons_ne_nil _ _
  | talent => cases path <;> exact List.cons_ne_nil _ _

/-- A segment that is meant is the component of a segment, or it is literal. -/
theorem PassThrough.mem_meant {s : Segment} (h : s ∈ handler.meant path) :
    s ∈ path.map encodeURIComponent ∨ Literal s := by
  have hword (name : String) (hname : name.toList.all isNameChar = true)
      (hs : s ∈ texts [name] ++ path.map encodeURIComponent) :
      s ∈ path.map encodeURIComponent ∨ Literal s := by
    rcases List.mem_append.1 hs with hs | hs
    · obtain rfl := List.mem_singleton.1 hs
      exact .inr (literal_of_name (List.all_eq_true.1 hname))
    · exact .inl hs
  cases handler with
  | suppliers => exact hword "suppliers" (by decide) h
  | users => exact hword "users" (by decide) h
  | talent =>
    cases path with
    | nil =>
      obtain rfl := List.mem_singleton.1 h
      exact .inr (literal_of_name (by simp))
    | cons segment rest => exact .inl h

theorem PassThrough.encode_mem_meant {s : Segment} (h : s ∈ path) :
    encodeURIComponent s ∈ handler.meant path := by
  have hmap : encodeURIComponent s ∈ path.map encodeURIComponent := List.mem_map_of_mem h
  cases handler with
  | suppliers => exact List.mem_append_right _ hmap
  | users => exact List.mem_append_right _ hmap
  | talent =>
    rw [meant, if_neg (List.ne_nil_of_mem h)]
    exact hmap

/-- **A path is passed on unchanged exactly if it has no dot segment.** -/
theorem passThrough_iff (hurl : dropSlash baseUrl = serializePath base)
    (hbase : ∀ s ∈ base, Literal s) (handler : PassThrough) (path : List Segment) :
    buildURL baseUrl (handler.upstreamPath path) = base ++ handler.meant path ↔
      ∀ s ∈ path, s ≠ ['.'] ∧ s ≠ ['.', '.'] := by
  have hchars : ∀ s ∈ base ++ handler.meant path, ∀ c ∈ s, isSegmentChar c = true := by
    intro s hs
    rcases List.mem_append.1 hs with hs | hs
    · exact (hbase s hs).chars
    · rcases PassThrough.mem_meant hs with hmap | hliteral
      · obtain ⟨text, -, rfl⟩ := List.mem_map.1 hmap
        exact isSegmentChar_encodeURIComponent text
      · exact hliteral.chars
  have hne : base ++ handler.meant path ≠ [] :=
    List.append_ne_nil_of_right_ne_nil _ PassThrough.meant_ne_nil
  rw [PassThrough.upstreamPath_eq, buildURL_eq hurl PassThrough.meant_ne_nil,
    parsePath_eq_iff hne hchars]
  constructor
  · intro hplain s hs
    exact plain_encodeURIComponent.1
      (hplain _ (List.mem_append_right _ (PassThrough.encode_mem_meant hs)))
  · intro hdots s hs
    rcases List.mem_append.1 hs with hs | hs
    · exact (hbase s hs).plain
    · rcases PassThrough.mem_meant hs with hmap | hliteral
      · obtain ⟨text, htext, rfl⟩ := List.mem_map.1 hmap
        exact plain_encodeURIComponent.2 (hdots text htext)
      · exact hliteral.plain

/-- A slash in a name stays within its segment. -/
theorem passThrough_iff_of_slash :
    buildURL "/tracker/api/v1".toList
        (PassThrough.upstreamPath .talent (texts ["leads", "../admin"])) =
        texts ["tracker", "api", "v1"] ++ PassThrough.meant .talent (texts ["leads", "../admin"]) ↔
      ∀ s ∈ texts ["leads", "../admin"], s ≠ ['.'] ∧ s ≠ ['.', '.'] := by
  refine passThrough_iff (by decide) (fun s hs => ?_) .talent _
  have hname : ∀ s ∈ texts ["tracker", "api", "v1"], s.all isNameChar = true := by decide
  exact literal_of_name (List.all_eq_true.1 (hname s hs))

/-- Two dots lead out of the users. -/
example : buildURL [] (PassThrough.upstreamPath .users (texts ["..", "auth", "me"])) =
    texts ["auth", "me"] := by decide

end

end Gateway

end TrackFlow
