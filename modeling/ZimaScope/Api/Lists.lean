import ZimaScope.Api.FlowQuery

/-! # Resource lists

The groups of flows that the lists of endpoints, applications and domains are
about, and what the API says of each: sums and extremes of the columns of its
flows, and the rate of the last interval.
-/

namespace ZimaScope

/-! ## Aggregates -/

section Aggregates

variable {α β κ : Type}

/-- `GROUP BY`: the rows of each value of a key. -/
def groupBy [DecidableEq κ] (key : α → κ) (rows : List α) : List (κ × List α) :=
  (rows.map key).dedup.map fun k => (k, rows.filter fun r => key r = k)

def sqlSum (rows : List α) (column : α → ℤ) : ℤ := (rows.map column).sum

/-- `MAX` of the values that are not null. -/
def sqlMax [Max β] (rows : List α) (column : α → Option β) : Option β := (rows.filterMap column).max?

def sqlMin [Min β] (rows : List α) (column : α → Option β) : Option β := (rows.filterMap column).min?

end Aggregates

structure CountersDto where
  packets : ℕ
  bytes : ℕ
  deriving DecidableEq, Repr

structure DirectionTotalsDto where
  inbound : CountersDto
  outbound : CountersDto
  deriving DecidableEq, Repr

/-- The counters of the flows of one direction. -/
def directionTotals (direction : Direction) (rows : List FlowRow) : CountersDto where
  packets := asU64 (sqlSum rows fun row => if row.key.direction = direction then row.packets else 0)
  bytes := asU64 (sqlSum rows fun row => if row.key.direction = direction then row.bytes else 0)

def trafficTotals (rows : List FlowRow) : DirectionTotalsDto where
  inbound := directionTotals .inbound rows
  outbound := directionTotals .outbound rows

/-- What every summary says of its flows. -/
structure SummaryTotals where
  packets : ℕ
  bytes : ℕ
  traffic : DirectionTotalsDto
  flowCount : ℕ
  firstSeen : ℤ
  lastSeen : ℤ
  deriving DecidableEq, Repr

def summaryTotals (rows : List FlowRow) : SummaryTotals where
  packets := asU64 (sqlSum rows FlowRow.packets)
  bytes := asU64 (sqlSum rows FlowRow.bytes)
  traffic := trafficTotals rows
  flowCount := rows.length
  firstSeen := (sqlMin rows fun row => some row.firstSeenMs).getD 0
  lastSeen := (sqlMax rows fun row => some row.lastSeenMs).getD 0

/-- The rates of the entities in the last interval. -/
abbrev Rates := Table EntityKey (ℤ × ℤ)

/-- An entity without one carried nothing. -/
def Rates.of (rates : Rates) (entity : EntityKey) : ℕ × ℕ :=
  let rate := (rates.find entity).getD (0, 0)
  (asU64 rate.1, asU64 rate.2)

def AddressScope.value : AddressScope → String
  | .publicScope => "public"
  | .privateScope => "private"
  | .shared => "shared"
  | .fakeIp => "fake_ip"
  | .loopback => "loopback"
  | .linkLocal => "link_local"
  | .uniqueLocal => "unique_local"
  | .multicast => "multicast"
  | .broadcast => "broadcast"
  | .documentation => "documentation"
  | .reserved => "reserved"
  | .unspecified => "unspecified"

/-- `MAX(remote_scope)`, by the names of the scopes. -/
def maxScope (rows : List FlowRow) : AddressScope :=
  ((sqlMax rows fun row => some row.profile.scope.value).bind fun value =>
    AddressScope.all.find? fun scope => scope.value = value).getD .reserved

/-- A row with the id of its flow. -/
abbrev IdRow := UInt64 × FlowRow

/-! ## Endpoints -/

structure EndpointSummaryDto extends SummaryTotals where
  address : IpAddr
  scope : AddressScope
  country : Option String
  region : Option String
  asn : Option UInt32
  organization : Option String
  inboundBps : ℕ
  outboundBps : ℕ
  deriving DecidableEq

def endpointSummary (rates : Rates) (group : IpAddr × List IdRow) : EndpointSummaryDto :=
  let rows := group.2.map Prod.snd
  { summaryTotals rows with
    address := group.1
    scope := maxScope rows
    country := sqlMax rows fun row => row.profile.country
    region := sqlMax rows fun row => row.profile.region
    asn := sqlMax rows fun row => row.profile.asn
    organization := sqlMax rows fun row => row.profile.organization
    inboundBps := (rates.of (.endpoint group.1)).1
    outboundBps := (rates.of (.endpoint group.1)).2 }

/-- The groups of `Db::endpoint_rows`, not yet ordered and cut into pages. -/
def Tables.endpointRows (t : Tables) (query : FlowQuery) (now : SystemTime) :
    Except ApiError (List (IpAddr × List IdRow)) :=
  (query.clauses now true).map fun clauses =>
    groupBy (fun r => r.2.remote.address) (t.flowsWhere clauses)

/-! ## Applications -/

structure ApplicationSummaryDto extends SummaryTotals where
  id : String
  name : String
  kind : String
  exe : Option String
  comm : Option String
  uid : Option UInt32
  containerId : Option String
  inboundBps : ℕ
  outboundBps : ℕ
  deriving DecidableEq

/-- `application_summary_from_row`, with the rate. The rows of a group join one application at
most. -/
def applicationSummary (applications : Table String ApplicationRow) (rates : Rates)
    (group : String × List IdRow) : ApplicationSummaryDto :=
  let application := applications.find group.1
  let name := (application.map ApplicationRow.name).filter (· ≠ "")
  { summaryTotals (group.2.map Prod.snd) with
    id := group.1
    name := name.getD group.1
    kind := if application.map ApplicationRow.kind = some "container" then "container" else "process"
    exe := application.bind ApplicationRow.exe
    comm := application.bind ApplicationRow.comm
    uid := application.bind ApplicationRow.uid
    containerId := application.bind ApplicationRow.containerId
    inboundBps := (rates.of (.application group.1)).1
    outboundBps := (rates.of (.application group.1)).2 }

/-- The columns that a search of applications looks at. -/
def applicationText (applications : Table String ApplicationRow) (id : String) : String :=
  let application := applications.find id
  toAsciiLowercase (" ".intercalate [coalesce (application.map ApplicationRow.name),
    coalesce (application.bind ApplicationRow.exe), coalesce (application.bind ApplicationRow.comm), id])

/-- A row with the application of its flow. -/
def withApplication (rows : List IdRow) : List (String × IdRow) :=
  rows.filterMap fun r => r.2.appId.map fun id => (id, r)

/-- The groups of `Db::application_rows`: `q` is looked for in the application only. -/
def Tables.applicationRows (t : Tables) (query : FlowQuery) (now : SystemTime) :
    Except ApiError (List (String × List IdRow)) := do
  let rowQuery := { query with q := none }
  let clauses ← rowQuery.clauses now false
  let rows := (withApplication (t.flowsWhere clauses)).filter fun r =>
    (searchWord query.q).all fun word => containsText (applicationText t.applications r.1) word
  pure ((groupBy Prod.fst rows).map fun group => (group.1, group.2.map Prod.snd))

/-! ## Domains -/

structure DomainSummaryDto extends SummaryTotals where
  domain : String
  evidence : List DomainEvidence
  inboundBps : ℕ
  outboundBps : ℕ
  deriving DecidableEq

/-- A flow with one of its associations. -/
abbrev DomainPair := IdRow × DomainRefDto

def domainSummary (rates : Rates) (group : String × List DomainPair) : DomainSummaryDto :=
  { summaryTotals (group.2.map fun pair => pair.1.2) with
    domain := group.1
    evidence := (group.2.map fun pair => pair.2.evidence).eraseDups
    inboundBps := (rates.of (.domain group.1)).1
    outboundBps := (rates.of (.domain group.1)).2 }

/-- `flow_domains fd JOIN flows ON flows.id = fd.flow_id`. -/
def Tables.domainJoin (t : Tables) : List DomainPair :=
  t.flowDomains.rows.filterMap fun fd => (t.flows.find fd.1.1).map fun row =>
    ((fd.1.1, row), ⟨fd.1.2, fd.2.1, fd.2.2⟩)

/-- The predicates of `Db::domain_rows` on the joined association. -/
def FlowQuery.joinClauses (query : FlowQuery) (d : DomainRefDto) : Bool :=
  (query.domain.map normalizeDomain).all (fun domain => d.domain = domain) &&
    query.evidence.all (fun evidence => d.evidence = evidence) &&
    query.confidence.all fun confidence => d.confidence = confidence

/-- The groups of `Db::domain_rows`. -/
def Tables.domainRows (t : Tables) (query : FlowQuery) (now : SystemTime) :
    Except ApiError (List (String × List DomainPair)) :=
  (query.clauses now false).map fun clauses =>
    groupBy (fun pair => pair.2.domain) (t.domainJoin.filter fun pair =>
      (clauses.all fun clause => clause pair.1.1 pair.1.2) && query.joinClauses pair.2)

section Groups

variable {α κ : Type} [DecidableEq κ] {key : α → κ} {rows : List α}

theorem mem_groupBy {group : κ × List α} : group ∈ groupBy key rows ↔
    (∃ r ∈ rows, key r = group.1) ∧ group.2 = rows.filter fun r => key r = group.1 := by
  unfold groupBy
  simp only [List.mem_map, List.mem_dedup]
  constructor
  · rintro ⟨k, ⟨r, hr, rfl⟩, rfl⟩
    exact ⟨⟨r, hr, rfl⟩, rfl⟩
  · rintro ⟨⟨r, hr, hk⟩, hrows⟩
    exact ⟨group.1, ⟨r, hr, hk⟩, Prod.ext rfl hrows.symm⟩

theorem nodup_groupBy : ((groupBy key rows).map Prod.fst).Nodup := by
  unfold groupBy
  rw [List.map_map]
  exact (List.map_id' _).symm ▸ List.nodup_dedup _

/-- Every row is in one group. -/
theorem sum_length_groupBy : ((groupBy key rows).map fun group => group.2.length).sum = rows.length := by
  unfold groupBy
  rw [List.map_map]
  have hcount : ∀ k, (rows.filter fun r => key r = k).length = (rows.map key).count k := by
    intro k
    rw [List.count, List.countP_map, List.countP_eq_length_filter]
    rfl
  simp only [Function.comp_def, hcount]
  rw [List.sum_map_count_dedup_eq_length, List.length_map]

end Groups

end ZimaScope
