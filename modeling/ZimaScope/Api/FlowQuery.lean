import ZimaScope.Common.Text
import ZimaScope.Db.Live

/-! # Flow queries

The query parameters that the resource lists share, and the SQL predicates they
become, each as a function of the row.
-/

namespace ZimaScope

inductive TimeRange | minute15 | hour1 | hour24 | day7
  deriving DecidableEq, Repr

namespace TimeRange

def duration : TimeRange → Duration
  | minute15 => fromSecs (15 * 60)
  | hour1 => fromSecs (60 * 60)
  | hour24 => fromSecs (24 * 60 * 60)
  | day7 => fromSecs (7 * 24 * 60 * 60)

def cutoff (range : TimeRange) (now : SystemTime) : SystemTime :=
  (now.checkedSub range.duration).getD 0

end TimeRange

/-- The parameters that become predicates; `endAt` is `end`. -/
structure FlowQuery where
  q : Option String := none
  range : Option TimeRange := none
  /-- Milliseconds after the epoch, as is `endAt`. -/
  start : Option ℤ := none
  endAt : Option ℤ := none
  direction : Option Direction := none
  protocol : Option TransportProtocol := none
  interface : Option String := none
  service : Option String := none
  ip : Option IpAddr := none
  srcIp : Option IpAddr := none
  dstIp : Option IpAddr := none
  port : Option UInt16 := none
  domain : Option String := none
  applicationId : Option String := none
  country : Option String := none
  asn : Option UInt32 := none
  organization : Option String := none
  scope : List AddressScope := []
  excludeScope : List AddressScope := []
  state : Option FlowStateDto := none
  hasDomain : Option Bool := none
  evidence : Option DomainEvidence := none
  confidence : Option AssociationConfidence := none

/-! ## Columns -/

/-- `serde_json::to_string` of an association. -/
def DomainRefDto.json (d : DomainRefDto) : String :=
  "\x7b\"domain\":\"" ++ jsonEscape d.domain ++ "\",\"evidence\":\"" ++ d.evidence.value ++
    "\",\"confidence\":\"" ++ d.confidence.value ++ "\"\x7d"

/-- The text of `domains_json`. -/
def domainsText (domains : List DomainRefDto) : String :=
  "[" ++ ",".intercalate (domains.map DomainRefDto.json) ++ "]"

/-- A column that may be null, with the empty text for null. -/
def coalesce (column : Option String) : String := column.getD ""

def portText (endpoint : Endpoint) : Option String := endpoint.port.map fun port => s!"{port.toNat}"

/-- The columns of a row that `q` is looked for in, in the order they are concatenated. -/
def FlowRow.searched (id : UInt64) (row : FlowRow) : List String :=
  [sqlHex s!"{asI64 id.toNat}", row.key.direction.value, row.key.protocol.value, row.state.dto.asStr,
    coalesce (row.state.endReason.map EndReason.value), row.key.source.address.toString,
    coalesce (portText row.key.source), row.key.destination.address.toString,
    coalesce (portText row.key.destination), coalesce row.interface, coalesce row.appId,
    coalesce row.service, domainsText row.domainsJson]

def FlowRow.searchText (id : UInt64) (row : FlowRow) : String :=
  toAsciiLowercase (" ".intercalate (row.searched id))

/-! ## Predicates -/

abbrev FlowClause := UInt64 → FlowRow → Bool

/-- A text that is trimmed, and ignored when nothing is left. -/
def trimmedText (text : Option String) : Option String := (text.map trim).filter (· ≠ "")

/-- `COLLATE NOCASE`. -/
def eqNoCase (column : Option String) (text : String) : Bool :=
  column.any fun column => toAsciiLowercase column = toAsciiLowercase text

/-- The text `q` is looked for as. -/
def searchWord (q : Option String) : Option String :=
  (q.map fun q => toAsciiLowercase (trim q)).filter (· ≠ "")

/-- A text between quotes occurs in `domains_json`. -/
def domainsContain (row : FlowRow) (text : String) : Bool :=
  containsText (domainsText row.domainsJson) text

/-- The predicate of a parameter that is given. -/
def given {α : Type} (value : Option α) (clause : α → FlowClause) : List FlowClause :=
  value.toList.map clause

namespace FlowQuery

/-- The window of `last_seen_ms`. -/
def windowClauses (query : FlowQuery) (now : SystemTime) : Except ApiError (List FlowClause) :=
  match query.start, query.endAt with
  | some start, some endAt =>
    if query.range.isSome then
      .error (.unprocessable "range and start/end are mutually exclusive")
    else if endAt < start then .error (.unprocessable "start must not be after end")
    else .ok [fun _ row => start ≤ row.lastSeenMs && row.lastSeenMs ≤ endAt]
  | none, none =>
    .ok (given query.range fun range _ row => unixMillis (range.cutoff now) ≤ row.lastSeenMs)
  | _, _ => .error (.unprocessable "start and end must be provided together")

/-- The predicates on associations. -/
def associationClauses (query : FlowQuery) : List FlowClause :=
  given query.domain (fun domain _ row =>
      domainsContain row ("\"" ++ normalizeDomain domain ++ "\"")) ++
    given query.evidence (fun evidence _ row =>
      domainsContain row ("\"evidence\":\"" ++ evidence.value ++ "\"")) ++
    given query.confidence fun confidence _ row =>
      domainsContain row ("\"confidence\":\"" ++ confidence.value ++ "\"")

/-- `Db::flow_clauses`. -/
def clauses (query : FlowQuery) (now : SystemTime) (associationFilters : Bool) :
    Except ApiError (List FlowClause) := do
  let window ← query.windowClauses now
  pure (List.flatten [
    given (searchWord query.q) fun q id row => containsText (row.searchText id) q,
    window,
    given query.direction fun direction _ row => row.key.direction = direction,
    given query.protocol fun protocol _ row => row.key.protocol = protocol,
    given (trimmedText query.interface) fun interface _ row => eqNoCase row.interface interface,
    given (trimmedText query.service) fun service _ row => eqNoCase row.service service,
    given query.ip fun ip _ row => row.key.source.address = ip || row.key.destination.address = ip,
    given query.srcIp fun ip _ row => row.key.source.address = ip,
    given query.dstIp fun ip _ row => row.key.destination.address = ip,
    given query.port fun port _ row =>
      row.key.source.port = some port || row.key.destination.port = some port,
    given query.applicationId fun id _ row => row.appId = some id,
    if associationFilters then query.associationClauses else [],
    given query.country fun country _ row => eqNoCase row.profile.country country,
    given query.asn fun asn _ row => row.profile.asn = some asn,
    given query.organization fun organization _ row =>
      containsText (toAsciiLowercase (coalesce row.profile.organization))
        (toAsciiLowercase organization),
    if query.scope = [] then [] else [fun _ row => query.scope.contains row.profile.scope],
    if query.excludeScope = [] then []
    else [fun _ row => !query.excludeScope.contains row.profile.scope],
    given query.state fun state _ row => row.state.dto = state,
    given query.hasDomain fun hasDomain _ row => decide (row.domainsJson ≠ []) = hasDomain])

end FlowQuery

/-- `SELECT .. FROM flows WHERE`. -/
def Tables.flowsWhere (t : Tables) (clauses : List FlowClause) : List (UInt64 × FlowRow) :=
  t.flows.rows.filter fun r => clauses.all fun clause => clause r.1 r.2

/-- The flows a list is ordered and cut into pages from. -/
def Tables.listedFlows (t : Tables) (query : FlowQuery) (now : SystemTime) :
    Except ApiError (List (UInt64 × FlowRow)) :=
  (query.clauses now true).map t.flowsWhere

end ZimaScope
