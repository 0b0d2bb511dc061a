import ZimaScope.Db.Statements
import ZimaScope.Lib.Storage

/-! # Ingest

`Db::try_ingest` statement by statement: a transaction that records what was
observed, the retention policy, the rows read back, a transaction for the time
buckets and one for the entity rates, and the reads of a live tick. Any
statement may fail; nothing is undone but the transaction it fails in.
-/

namespace ZimaScope

/-- The connection's tables and the live state that storage depends on. -/
structure TrafficDb where
  tables : Tables := {}
  interfaces : HashMap UInt32 String := ∅
  flowCapacity : ℕ := 65536
  lastPolicyAt : Option Instant := none
  storedRates : Table EntityKey (ℤ × ℤ) := ∅

/-- What one ingest is called with, the clocks it reads, and what the rate windows of the
entities, which floating point keeps, amount to at its end. -/
structure IngestInput where
  batch : CollectionBatch
  settings : Settings
  publish : Bool := false
  nowInstant : Instant
  nowSystem : SystemTime
  policyInstant : Instant
  rates : Table EntityKey (ℤ × ℤ) := ∅

/-- A flow as the API represents it, less its rates. -/
structure FlowRecord where
  id : UInt64
  row : FlowRow
  /-- Id, name and kind of the application. -/
  application : Option (String × String × String)

/-- The interval prepared for subscribers, as far as flows go. -/
structure StreamEvent where
  inbound : TrafficCounters
  outbound : TrafficCounters
  flows : List FlowRecord
  overview : FlowStats

namespace TrafficDb

abbrev Action (α : Type) := Storage ApiError TrafficDb α

def select {α : Type} (f : Tables → α) : Action α := .query .ofStorage fun db => f db.tables

def execute (f : Tables → Tables) : Action Unit :=
  .execute .ofStorage fun db => { db with tables := f db.tables }

def transaction {α : Type} (x : Action α) : Action α := .transaction .ofStorage x

section Record

variable (input : IngestInput)

def storeObservation (observation : DomainObservation) : Action Bool := do
  let observedAt := instantToSystem observation.observedAt input.nowInstant input.nowSystem
  let expiresAt := instantToSystem observation.expiresAt input.nowInstant input.nowSystem
  let domain := normalizeDomain observation.domain
  if expiresAt ≤ input.nowSystem ∨ domain = "" then pure false
  else
    let key := ⟨domain, observation.address, observation.evidence, observation.ifindex.toNat⟩
    execute fun t => t.storeObservation key
      ⟨observation.confidence, unixMillis observedAt, unixMillis expiresAt⟩
    pure true

abbrev DomainsCache := HashMap (IpAddr × ℤ) (List DomainRefDto)

def associateAddress (address : IpAddr) (ifindex : ℤ) : Action (List DomainRefDto) :=
  select fun t => t.associateAddress address ifindex input.nowSystem

/-- The associations of a flow's remote address, looked up once in an interval. -/
def cachedDomains (key : FlowKey) (cache : DomainsCache) : Action (List DomainRefDto × DomainsCache) :=
  let address := (remoteEndpoint key).address
  match AList.lookup (address, key.ifindex) cache with
  | some cached => pure (cached, cache)
  | none => do
    let computed ← associateAddress input address key.ifindex
    pure (computed, cache.insert (address, key.ifindex) computed)

def upsertFlow (interfaces : HashMap UInt32 String) (id : UInt64) (update : Sighting)
    (cache : DomainsCache) : Action DomainsCache := do
  let (domains, cache) ← cachedDomains input update.key cache
  match update.resolved with
  | some application =>
    execute fun t => t.upsertApplication application
      (instantToSystem update.firstSeen input.nowInstant input.nowSystem)
      (instantToSystem update.lastSeen input.nowInstant input.nowSystem)
  | none => pure ()
  let interface := AList.lookup update.key.interfaceIndex.val interfaces
  execute fun t => t.insertFlow id (update.flowRow input.nowInstant input.nowSystem interface domains)
  pure cache

/-- The flows at an address and interface get its associations anew. -/
def associateFlows (touched : List UInt64) (changed : IpAddr × ℤ) : Action (List UInt64) := do
  let domains ← associateAddress input changed.1 changed.2
  execute fun t => t.updateDomains domains changed.1 changed.2
  let ids ← select fun t => (t.flows.filter fun _ row =>
    row.remote.address = changed.1 && row.key.ifindex = changed.2).rows.map Prod.fst
  pure (touched ++ ids)

/-- The addresses whose associations changed. -/
def storeObservations : Action (List (IpAddr × ℤ)) :=
  input.batch.domains.foldlM (fun changed observation => do
    let stored ← storeObservation input observation
    pure (if stored then changed.insert (observation.address, observation.ifindex.toNat)
      else changed)) []

variable (flowId : FlowKey → UInt64)

/-- What the first transaction leaves for the rest of the interval: the flows it touched, and
the addresses whose associations changed. -/
structure Recorded where
  touched : List UInt64
  changed : List (IpAddr × ℤ)

/-- Stores one update, and remembers its flow as touched. -/
def recordFlow (interfaces : HashMap UInt32 String) (progress : List UInt64 × DomainsCache)
    (update : Sighting) : Action (List UInt64 × DomainsCache) := do
  let cache ← upsertFlow input interfaces (flowId update.key) update progress.2
  pure (progress.1 ++ [flowId update.key], cache)

/-- The first transaction. -/
def record (interfaces : HashMap UInt32 String) : Action Recorded :=
  transaction do
    let changed ← storeObservations input
    let touched ← changed.foldlM (associateFlows input) []
    let progress ← input.batch.flows.foldlM (recordFlow input flowId interfaces) (touched, ∅)
    pure ⟨progress.1, changed⟩

end Record

def policyInterval : Duration := fromSecs 5

def enforcePolicy (settings : Settings) (nowInstant : Instant) (now : SystemTime) : Action Unit := do
  Storage.modify fun db => { db with flowCapacity := settings.resources.maxFlowEntries }
  let db ← Storage.get
  if db.lastPolicyAt.any fun last => nowInstant.saturatingDurationSince last < policyInterval then
    pure ()
  else
    Storage.modify fun db => { db with lastPolicyAt := some nowInstant }
    let count ← select fun t => t.flowStats.flowsTotal
    let overflow := count - db.flowCapacity
    if 0 < overflow then execute fun t => t.deleteOldestFlows overflow else pure ()
    (policyDeletes settings now).forM execute

/-- What a batch adds for one flow: the last update of its id decides. -/
structure FlowDelta where
  direction : Direction
  delta : TrafficCounters
  ifindex : ℤ

def FlowDelta.moved (d : FlowDelta) : Bool := 0 < d.delta.packets || 0 < d.delta.bytes

section Deltas

variable (flowId : FlowKey → UInt64) (flows : List Sighting)

def flowDeltas : HashMap UInt64 FlowDelta :=
  flows.foldl (fun deltas update =>
    deltas.insert (flowId update.key) ⟨update.key.direction, update.delta, update.key.ifindex⟩) ∅

def endedIds : List UInt64 :=
  (flows.filter fun update => update.state ≠ .active).map fun update => flowId update.key

def flowMoved (id : UInt64) : Bool := (AList.lookup id (flowDeltas flowId flows)).any FlowDelta.moved

end Deltas

def flowById (id : UInt64) : Action (Option FlowRecord) :=
  select fun t => (t.flows.find id).map fun row =>
    { id
      row
      application := row.appId.map fun appId =>
        (appId, (t.applications.find appId).elim "" ApplicationRow.name,
          if (t.applications.find appId).map ApplicationRow.kind = some "container" then "container"
          else "process") }

section Buckets

variable (input : IngestInput) (flowId : FlowKey → UInt64)

/-- The records of the flows that moved or ended, as far as they are still there. -/
def readBack (touched : List UInt64) : Action (List FlowRecord) :=
  ((touched.insertionSort (· ≤ ·)).dedup.filter fun id =>
    flowMoved flowId input.batch.flows id || id ∈ endedIds flowId input.batch.flows).foldlM
      (fun updated id => do
        let record ← flowById id
        pure (updated ++ record.toList)) []

/-- The entities a flow counts for. -/
def FlowRecord.entities (record : FlowRecord) : List EntityKey :=
  .endpoint record.row.remote.address ::
    (record.application.toList.map (EntityKey.application ∘ Prod.fst) ++
      record.row.domainsJson.map (EntityKey.domain ∘ DomainRefDto.domain))

/-- Per interface, the counters of both directions. -/
abbrev InterfaceTotals := HashMap (ℤ × String) (TrafficCounters × TrafficCounters)

def InterfaceTotals.add (totals : InterfaceTotals) (interface : ℤ × String) (d : FlowDelta) :
    InterfaceTotals :=
  let old := (AList.lookup interface totals).getD ({}, {})
  totals.insert interface <|
    match d.direction with
    | .inbound => (old.1.add d.delta, old.2)
    | .outbound => (old.1, old.2.add d.delta)

/-- The starts of the buckets of the collection time. -/
def bucketStarts : List (BucketResolution × ℤ) :=
  [(.minute, unixMillis (truncateTime input.batch.collectedAt 60)),
    (.hour, unixMillis (truncateTime input.batch.collectedAt 3600))]

/-- One flow's delta goes to its entities, and to the totals of its interface. -/
def addFlow (totals : InterfaceTotals) (record : FlowRecord) : Action InterfaceTotals :=
  match AList.lookup record.id (flowDeltas flowId input.batch.flows) with
  | none => pure totals
  | some d =>
    if !d.moved then pure totals
    else do
      let interface := record.row.interface.getD ""
      (bucketStarts input).forM fun (resolution, start) =>
        (FlowRecord.entities record).forM fun entity =>
          execute fun t => t.addEntityBucket entity ⟨resolution, start, d.ifindex⟩ interface
            d.direction d.delta
      pure (totals.add (d.ifindex, interface) d)

/-- The second transaction. -/
def storeBuckets (updated : List FlowRecord) : Action Unit :=
  if input.batch.flows = [] then pure ()
  else
    transaction do
      let totals ← updated.foldlM (addFlow input flowId) (∅ : InterfaceTotals)
      totals.entries.forM fun ⟨(ifindex, interface), (inbound, outbound)⟩ =>
        (bucketStarts input).forM fun (resolution, start) =>
          execute fun t => t.addBucket ⟨resolution, start, ifindex⟩ interface inbound outbound

end Buckets

def entityRateChunk : ℕ := 64

/-- The same rows, in whatever order. -/
def sameRates (a b : Table EntityKey (ℤ × ℤ)) : Bool :=
  a.rows.all (fun r => b.find r.1 = some r.2) && b.rows.all fun r => a.find r.1 = some r.2

/-- The third transaction: only rows whose rate moved are written. -/
def storeEntityRates (next : Table EntityKey (ℤ × ℤ)) : Action Unit := do
  let stored := (← Storage.get).storedRates
  if sameRates next stored then pure ()
  else
    let upserts := next.rows.filter fun r => stored.find r.1 ≠ some r.2
    let gone := stored.rows.filter fun r => next.find r.1 = none
    transaction do
      (upserts.toChunks entityRateChunk).forM fun chunk => execute fun t =>
        { t with
          entityRates := chunk.foldl (fun rates r => rates.upsert r.1 fun _ => r.2) t.entityRates }
      gone.forM fun r => execute fun t =>
        { t with entityRates := t.entityRates.filter fun key _ => key ≠ r.1 }
    Storage.modify fun db => { db with storedRates := next }

/-- The reads of a live tick: the summaries of the touched endpoints, domains and
applications, one statement for each kind that has any, and the overview. What the
summaries say is not part of the model. -/
def readTick (changed : List (IpAddr × ℤ)) (moved : List FlowRecord) : Action FlowStats := do
  let endpoints := !changed.isEmpty || !moved.isEmpty
  let domains := !changed.isEmpty || moved.any fun record => !record.row.domainsJson.isEmpty
  let applications := moved.any fun record => record.application.isSome
  [endpoints, domains, applications].forM fun any =>
    if any then select fun _ => () else pure ()
  select Tables.flowStats

/-- Adds up the batch for one direction. -/
def batchTotal (direction : Direction) (flows : List Sighting) : TrafficCounters :=
  (flows.filter fun update => update.key.direction = direction).foldl
    (fun total update => total.add update.delta) {}

section Ingest

variable (flowId : FlowKey → UInt64) (input : IngestInput)

/-- The interval up to the point where the stored rows are read back. -/
def recordInterval : Action Recorded := do
  Storage.modify fun db =>
    { db with
      interfaces := input.batch.attachedInterfaces.foldl (fun m i => m.insert i.1 i.2) db.interfaces }
  let recorded ← record input flowId (← Storage.get).interfaces
  enforcePolicy input.settings input.policyInstant input.nowSystem
  pure recorded

/-- `Db::try_ingest`. -/
def tryIngest : Action StreamEvent := do
  let recorded ← recordInterval flowId input
  let updated ← readBack input flowId recorded.touched
  storeBuckets input flowId updated
  storeEntityRates input.rates
  let moved := updated.filter fun record => flowMoved flowId input.batch.flows record.id
  let overview ← if input.publish then readTick recorded.changed moved else pure {}
  pure {
    inbound := batchTotal .inbound input.batch.flows
    outbound := batchTotal .outbound input.batch.flows
    flows := updated.filter fun record =>
      flowMoved flowId input.batch.flows record.id || record.row.ended
    overview }

end Ingest

/-- `Db::clear_history`; an error is only remembered. -/
def clearHistory : Action Unit := fun c =>
  (.ok (), { (clearDeletes.forM execute c).2 with
    store := { (clearDeletes.forM execute c).2.store with storedRates := ∅ } })

/-- `Db::save_settings`: the settings row, and the retention policy. -/
def saveSettings (settings : Settings) (nowInstant : Instant) (now : SystemTime) : Action Unit := do
  execute id
  enforcePolicy settings nowInstant now

/-- A daemon that starts on these tables. -/
def restart (tables : Tables) (flowCapacity : ℕ) : TrafficDb where
  tables
  flowCapacity := max flowCapacity 1
  storedRates := tables.entityRates

end TrafficDb

end ZimaScope
