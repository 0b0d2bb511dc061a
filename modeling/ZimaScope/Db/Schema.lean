import ZimaScope.Common.Observation
import ZimaScope.Lib.Table

/-! # The traffic tables

The rows of the storage schema that traffic goes through, and the statements on
`flows` with the triggers they fire. Texts that encode an enumeration, an
address or a list of associations are modelled by what they encode.
-/

namespace ZimaScope

/-- An association of a domain as `domains_json` lists it. -/
structure DomainRefDto where
  domain : String
  evidence : DomainEvidence
  confidence : AssociationConfidence
  deriving DecidableEq, Repr

structure FlowRow where
  /-- `direction`, `protocol`, `src_*`, `dst_*` and `ifindex`. -/
  key : FlowKey
  interface : Option String
  packets : ℤ
  bytes : ℤ
  firstSeenMs : ℤ
  lastSeenMs : ℤ
  /-- `state` and `end_reason`. -/
  state : FlowState
  remote : Endpoint
  /-- The enrichment columns of the remote address, with the time in milliseconds. -/
  profile : IpProfile
  domainsJson : List DomainRefDto
  service : Option String
  appId : Option String
  dstScope : Option AddressScope
  deriving DecidableEq

structure FlowStats where
  flowsTotal : ℤ := 0
  activeFlows : ℤ := 0
  flowsWithDomain : ℤ := 0
  deriving DecidableEq, Repr

structure ApplicationRow where
  kind : String
  name : String
  exe : Option String
  comm : Option String
  uid : Option UInt32
  containerId : Option String
  firstSeenMs : ℤ
  lastSeenMs : ℤ
  deriving DecidableEq, Repr

structure ObservationKey where
  domain : String
  address : IpAddr
  evidence : DomainEvidence
  ifindex : ℤ
  deriving DecidableEq, Repr

structure ObservationRow where
  confidence : AssociationConfidence
  lastObservedMs : ℤ
  expiresAtMs : ℤ
  deriving DecidableEq, Repr

inductive BucketResolution | minute | hour
  deriving DecidableEq, Repr

/-- The primary key of `traffic_buckets`. -/
structure TimeBucketKey where
  resolution : BucketResolution
  startMs : ℤ
  ifindex : ℤ
  deriving DecidableEq, Repr

/-- `kind` and `key` of a bucket or a rate. -/
inductive EntityKey
  | flow (id : UInt64)
  | connection (id : String)
  | endpoint (address : IpAddr)
  | domain (domain : String)
  | application (id : String)
  deriving DecidableEq, Repr

/-- The primary key of `entity_buckets`. -/
structure EntityBucketKey where
  entity : EntityKey
  bucket : TimeBucketKey
  deriving DecidableEq, Repr

/-- A time bucket. The counters are SQL integers: a sum outside of the 64-bit range would
leave them for floating point, which is not modelled. -/
structure TimeBucket where
  interface : String
  inPackets : ℤ
  inBytes : ℤ
  outPackets : ℤ
  outBytes : ℤ
  deriving DecidableEq, Repr

/-- `flow_domains`, by `(flow_id, domain)`. -/
abbrev FlowDomains := Table (UInt64 × String) (DomainEvidence × AssociationConfidence)

structure Tables where
  flows : Table UInt64 FlowRow := ∅
  flowDomains : FlowDomains := ∅
  flowStats : FlowStats := {}
  applications : Table String ApplicationRow := ∅
  observations : Table ObservationKey ObservationRow := ∅
  trafficBuckets : Table TimeBucketKey TimeBucket := ∅
  entityBuckets : Table EntityBucketKey TimeBucket := ∅
  entityRates : Table EntityKey (ℤ × ℤ) := ∅
  deriving DecidableEq

/-! ## Triggers -/

/-- `INSERT OR REPLACE INTO flow_domains` of every association. -/
def mirrorDomains (id : UInt64) (domains : List DomainRefDto) (t : FlowDomains) : FlowDomains :=
  domains.foldl (fun t d => t.upsert (id, d.domain) fun _ => (d.evidence, d.confidence)) t

def trgFlowDomainsInsert (id : UInt64) (new : FlowRow) (t : FlowDomains) : FlowDomains :=
  if new.domainsJson = [] then t else mirrorDomains id new.domainsJson t

def trgFlowDomainsDelete (id : UInt64) (t : FlowDomains) : FlowDomains :=
  t.filter fun key _ => key.1 ≠ id

/-- Fires after an update of `domains_json`; other updates leave the column as it is, and
then the trigger's condition does not hold. -/
def trgFlowDomainsUpdate (id : UInt64) (old new : FlowRow) (t : FlowDomains) : FlowDomains :=
  if new.domainsJson = old.domainsJson then t
  else mirrorDomains id new.domainsJson (trgFlowDomainsDelete id t)

def sqlBool (p : Prop) [Decidable p] : ℤ := if p then 1 else 0

def trgFlowStatsInsert (new : FlowRow) (s : FlowStats) : FlowStats where
  flowsTotal := s.flowsTotal + 1
  activeFlows := s.activeFlows + sqlBool (new.state = .active)
  flowsWithDomain := s.flowsWithDomain + sqlBool (new.domainsJson ≠ [])

def trgFlowStatsUpdate (old new : FlowRow) (s : FlowStats) : FlowStats where
  flowsTotal := s.flowsTotal
  activeFlows := s.activeFlows + sqlBool (new.state = .active) - sqlBool (old.state = .active)
  flowsWithDomain :=
    s.flowsWithDomain + sqlBool (new.domainsJson ≠ []) - sqlBool (old.domainsJson ≠ [])

def trgFlowStatsDelete (old : FlowRow) (s : FlowStats) : FlowStats where
  flowsTotal := s.flowsTotal - 1
  activeFlows := s.activeFlows - sqlBool (old.state = .active)
  flowsWithDomain := s.flowsWithDomain - sqlBool (old.domainsJson ≠ [])

namespace Tables

/-- The triggers of an inserted row. -/
def onInsert (t : Tables) (id : UInt64) (new : FlowRow) : Tables :=
  { t with
    flowDomains := trgFlowDomainsInsert id new t.flowDomains
    flowStats := trgFlowStatsInsert new t.flowStats }

def onUpdate (t : Tables) (id : UInt64) (old new : FlowRow) : Tables :=
  { t with
    flowDomains := trgFlowDomainsUpdate id old new t.flowDomains
    flowStats := trgFlowStatsUpdate old new t.flowStats }

def onDelete (t : Tables) (id : UInt64) (old : FlowRow) : Tables :=
  { t with
    flowDomains := trgFlowDomainsDelete id t.flowDomains
    flowStats := trgFlowStatsDelete old t.flowStats }

end Tables

/-! ## Statements -/

/-- The enrichment columns after a conflict: a fake address keeps what is known of it. -/
def IpProfile.onConflict (old excluded : IpProfile) : IpProfile :=
  if excluded.scope = .fakeIp then
    { scope := excluded.scope
      country := excluded.country.or old.country
      region := excluded.region.or old.region
      cityApproximate := excluded.cityApproximate.or old.cityApproximate
      asn := excluded.asn.or old.asn
      organization := excluded.organization.or old.organization
      databaseVersion := excluded.databaseVersion.or old.databaseVersion
      enrichedAt :=
        if excluded.country = none ∧ excluded.asn = none ∧ excluded.databaseVersion = none then
          old.enrichedAt
        else excluded.enrichedAt }
  else excluded

/-- `ON CONFLICT(id) DO UPDATE` of a flow. -/
def FlowRow.onConflict (old excluded : FlowRow) : FlowRow :=
  { old with
    packets := excluded.packets
    bytes := excluded.bytes
    firstSeenMs := min old.firstSeenMs excluded.firstSeenMs
    lastSeenMs := max old.lastSeenMs excluded.lastSeenMs
    state := excluded.state
    interface := excluded.interface
    domainsJson := excluded.domainsJson
    service := excluded.service.or old.service
    appId := excluded.appId.or old.appId
    dstScope := excluded.dstScope
    profile := old.profile.onConflict excluded.profile }

namespace Tables

/-- `INSERT INTO flows .. ON CONFLICT(id) DO UPDATE`. -/
def insertFlow (t : Tables) (id : UInt64) (row : FlowRow) : Tables :=
  match t.flows.find id with
  | none => { t with flows := t.flows.upsert id fun _ => row }.onInsert id row
  | some old =>
    { t with flows := t.flows.upsert id fun _ => old.onConflict row }.onUpdate id old
      (old.onConflict row)

/-- `UPDATE flows SET .. WHERE`. -/
def updateFlows (t : Tables) (set : FlowRow → FlowRow) (cond : UInt64 → FlowRow → Bool) : Tables :=
  (t.flows.filter cond).rows.foldl (fun t r => t.onUpdate r.1 r.2 (set r.2))
    { t with flows := t.flows.mapRows fun id row => if cond id row then set row else row }

/-- `DELETE FROM flows WHERE`. -/
def deleteFlows (t : Tables) (cond : UInt64 → FlowRow → Bool) : Tables :=
  (t.flows.filter cond).rows.foldl (fun t r => t.onDelete r.1 r.2)
    { t with flows := t.flows.filter fun id row => !cond id row }

end Tables

end ZimaScope
