import ZimaScope.Api.Rules
import ZimaScope.Db.Schema

/-! # What one interval writes

The rows an ingest builds and the statements it runs, each as a function of the
tables: observations and associations, flows and applications, time buckets,
and the deletes of the retention policy.
-/

namespace ZimaScope

/-- A stable application record ready for storage. -/
structure ResolvedApplication where
  id : String
  kind : String
  name : String
  exe : Option String
  comm : String
  uid : UInt32
  containerId : Option String
  deriving DecidableEq, Repr

/-- A flow update, with what the application resolver answers about its owner, and the
enricher and the proxy about its remote address. -/
structure Sighting extends FlowUpdate where
  resolved : Option ResolvedApplication
  profile : IpProfile

/-- The result of one collection interval, as far as storage goes. -/
structure CollectionBatch where
  collectedAt : SystemTime
  flows : List Sighting
  domains : List DomainObservation
  attachedInterfaces : List (UInt32 × String)

/-! ## Observations -/

/-- `trim().trim_end_matches('.').to_ascii_lowercase()`. -/
def normalizeDomain (value : String) : String :=
  (String.ofList ((trim value).toList.reverse.dropWhile (· = '.')).reverse).map Char.toLower

def evidenceRank : DomainEvidence → ℕ
  | .tlsSni | .httpHost => 2
  | .dns => 1

def maxDomainCandidates : ℕ := 8

/-- A row of `observations` with its key. -/
abbrev Candidate := ObservationKey × ObservationRow

/-- The order candidates are taken in: stronger evidence, then newer, then by name. -/
def Candidate.before (a b : Candidate) : Prop :=
  evidenceRank b.1.evidence < evidenceRank a.1.evidence ∨
    evidenceRank b.1.evidence = evidenceRank a.1.evidence ∧
      (b.2.lastObservedMs < a.2.lastObservedMs ∨
        b.2.lastObservedMs = a.2.lastObservedMs ∧ a.1.domain ≤ b.1.domain)

instance : DecidableRel Candidate.before := fun _ _ => inferInstanceAs (Decidable (_ ∨ _))

/-- The first candidates of different domains. -/
def firstDomains (domains : List DomainRefDto) : List Candidate → List DomainRefDto
  | [] => domains
  | (key, row) :: candidates =>
    if domains.any fun known => known.domain = key.domain then firstDomains domains candidates
    else
      let domains := domains ++ [⟨key.domain, key.evidence, row.confidence⟩]
      if maxDomainCandidates ≤ domains.length then domains else firstDomains domains candidates

def FlowKey.ifindex (key : FlowKey) : ℤ := key.interfaceIndex.val.toNat

namespace Tables

/-- The row `store_observation` inserts; what is there keeps its later times. -/
def storeObservation (t : Tables) (key : ObservationKey) (row : ObservationRow) : Tables :=
  { t with
    observations := t.observations.upsert key fun
      | none => row
      | some old =>
        { confidence := row.confidence
          lastObservedMs := max old.lastObservedMs row.lastObservedMs
          expiresAtMs := max old.expiresAtMs row.expiresAtMs } }

/-- The associations of an address on an interface; observations without an interface count
for every one. -/
def associateAddress (t : Tables) (address : IpAddr) (ifindex : ℤ) (now : SystemTime) :
    List DomainRefDto :=
  let candidates := t.observations.rows.filter fun r =>
    r.1.address = address ∧ (r.1.ifindex = ifindex ∨ r.1.ifindex = 0) ∧
      unixMillis now < r.2.expiresAtMs
  firstDomains [] (candidates.insertionSort Candidate.before)

/-- `UPDATE flows SET domains_json = ?1 WHERE remote_addr = ?2 AND ifindex = ?3`. -/
def updateDomains (t : Tables) (domains : List DomainRefDto) (address : IpAddr) (ifindex : ℤ) :
    Tables :=
  t.updateFlows (fun row => { row with domainsJson := domains }) fun _ row =>
    row.remote.address = address && row.key.ifindex = ifindex

end Tables

/-! ## Flows and applications -/

/-- The row `upsert_flow` inserts. -/
def Sighting.flowRow (s : Sighting) (nowInstant : Instant) (nowSystem : SystemTime)
    (interface : Option String) (domains : List DomainRefDto) : FlowRow where
  key := s.key
  interface
  packets := asI64 s.total.packets
  bytes := asI64 s.total.bytes
  firstSeenMs := unixMillis (instantToSystem s.firstSeen nowInstant nowSystem)
  lastSeenMs := unixMillis (instantToSystem s.lastSeen nowInstant nowSystem)
  state := s.state
  remote := remoteEndpoint s.key
  profile := { s.profile with enrichedAt := unixMillis s.profile.enrichedAt }
  domainsJson := domains
  service := s.service
  appId := s.resolved.map ResolvedApplication.id
  dstScope := some (AddressScope.classify s.key.destination.address)

/-- `INSERT INTO applications .. ON CONFLICT(id) DO UPDATE`. -/
def Tables.upsertApplication (t : Tables) (application : ResolvedApplication)
    (firstSeen lastSeen : SystemTime) : Tables :=
  { t with
    applications := t.applications.upsert application.id fun
      | none =>
        { kind := application.kind
          name := application.name
          exe := application.exe
          comm := some application.comm
          uid := some application.uid
          containerId := application.containerId
          firstSeenMs := unixMillis firstSeen
          lastSeenMs := unixMillis lastSeen }
      | some old =>
        { kind := application.kind
          name := application.name
          exe := application.exe.or old.exe
          comm := some application.comm
          uid := some application.uid
          containerId := application.containerId.or old.containerId
          firstSeenMs := min old.firstSeenMs (unixMillis firstSeen)
          lastSeenMs := max old.lastSeenMs (unixMillis lastSeen) } }

/-! ## Buckets -/

/-- `add_counters`. -/
def TrafficCounters.add (target delta : TrafficCounters) : TrafficCounters where
  packets := min (target.packets + delta.packets) (2 ^ 64 - 1)
  bytes := min (target.bytes + delta.bytes) (2 ^ 64 - 1)

/-- A new bucket with these counters. -/
def TimeBucket.ofCounters (interface : String) (inbound outbound : TrafficCounters) :
    TimeBucket where
  interface
  inPackets := asI64 inbound.packets
  inBytes := asI64 inbound.bytes
  outPackets := asI64 outbound.packets
  outBytes := asI64 outbound.bytes

/-- `ON CONFLICT .. DO UPDATE` of a bucket. -/
def TimeBucket.onConflict (excluded : TimeBucket) : Option TimeBucket → TimeBucket
  | none => excluded
  | some old =>
    { interface := excluded.interface
      inPackets := old.inPackets + excluded.inPackets
      inBytes := old.inBytes + excluded.inBytes
      outPackets := old.outPackets + excluded.outPackets
      outBytes := old.outBytes + excluded.outBytes }

namespace Tables

/-- `add_bucket`. -/
def addBucket (t : Tables) (key : TimeBucketKey) (interface : String)
    (inbound outbound : TrafficCounters) : Tables :=
  { t with
    trafficBuckets :=
      t.trafficBuckets.upsert key (TimeBucket.ofCounters interface inbound outbound).onConflict }

/-- `add_entity_bucket`. -/
def addEntityBucket (t : Tables) (entity : EntityKey) (key : TimeBucketKey) (interface : String)
    (direction : Direction) (delta : TrafficCounters) : Tables :=
  let bucket :=
    match direction with
    | .inbound => TimeBucket.ofCounters interface delta {}
    | .outbound => TimeBucket.ofCounters interface {} delta
  { t with entityBuckets := t.entityBuckets.upsert ⟨entity, key⟩ bucket.onConflict }

end Tables

/-! ## Retention -/

def minuteBucketRetentionMs : ℤ := 2 * 60 * 60 * 1000

def hourBucketRetentionMs : ℤ := 8 * 24 * 60 * 60 * 1000

def msPerDay : ℤ := 24 * 60 * 60 * 1000

def FlowRow.ended (row : FlowRow) : Bool := row.state ≠ .active

/-- `ORDER BY last_seen_ms ASC`; rows seen last at the same time come in the order of their
ids. -/
def Older (a b : UInt64 × FlowRow) : Prop :=
  a.2.lastSeenMs < b.2.lastSeenMs ∨
    a.2.lastSeenMs = b.2.lastSeenMs ∧ asI64 a.1.toNat ≤ asI64 b.1.toNat

instance : DecidableRel Older := fun _ _ => inferInstanceAs (Decidable (_ ∨ _))

namespace Tables

variable (t : Tables)

/-- `SELECT id FROM flows ORDER BY last_seen_ms ASC LIMIT ?1`. -/
def oldestFlows (limit : ℤ) : List UInt64 :=
  ((t.flows.rows.insertionSort Older).take limit.toNat).map Prod.fst

def deleteOldestFlows (limit : ℤ) : Tables :=
  t.deleteFlows fun id _ => id ∈ t.oldestFlows limit

def deleteApplications (keep : String → ApplicationRow → Bool) : Tables :=
  { t with applications := t.applications.filter keep }

def deleteObservations (now : ℤ) : Tables :=
  { t with observations := t.observations.filter fun _ row => now < row.expiresAtMs }

/-- The buckets a retention delete leaves. -/
def keptBucket (resolution : BucketResolution) (cutoff : ℤ) (key : TimeBucketKey) : Bool :=
  !(key.resolution = resolution && key.startMs < cutoff)

def deleteTrafficBuckets (resolution : BucketResolution) (cutoff : ℤ) : Tables :=
  { t with trafficBuckets := t.trafficBuckets.filter fun key _ => keptBucket resolution cutoff key }

def deleteEntityBuckets (resolution : BucketResolution) (cutoff : ℤ) : Tables :=
  { t with
    entityBuckets := t.entityBuckets.filter fun key _ => keptBucket resolution cutoff key.bucket }

/-- Whether a flow refers to the application. -/
def referenced (id : String) : Bool := t.flows.rows.any fun r => r.2.appId = some id

end Tables

/-- The deletes of `enforce_policy` after the one for capacity. -/
def policyDeletes (settings : Settings) (now : SystemTime) : List (Tables → Tables) :=
  let nowMs := unixMillis now
  let cutoff := nowMs - settings.history.retentionDays * msPerDay
  (if settings.history.enabled then
    [fun t => t.deleteFlows fun _ row => row.ended && row.lastSeenMs < cutoff,
      fun t => t.deleteApplications fun _ row => !(row.lastSeenMs < cutoff)]
  else
    [fun t => t.deleteFlows fun _ row => row.ended,
      fun t => t.deleteApplications fun id _ => t.referenced id]) ++
  [fun t => t.deleteObservations nowMs,
    fun t => t.deleteTrafficBuckets .minute (nowMs - minuteBucketRetentionMs),
    fun t => t.deleteTrafficBuckets .hour (nowMs - hourBucketRetentionMs),
    fun t => t.deleteEntityBuckets .minute (nowMs - minuteBucketRetentionMs),
    fun t => t.deleteEntityBuckets .hour (nowMs - hourBucketRetentionMs)]

/-- The deletes of `clear_history`. -/
def clearDeletes : List (Tables → Tables) :=
  [fun t => t.deleteFlows fun _ _ => true,
    fun t => { t with observations := ∅ },
    fun t => { t with trafficBuckets := ∅ },
    fun t => { t with entityBuckets := ∅ },
    fun t => { t with entityRates := ∅ },
    fun t => { t with applications := ∅ }]

end ZimaScope
