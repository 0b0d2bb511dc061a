import ZimaScope.Api.Rules
import ZimaScope.Db.Migration
import ZimaScope.Lib.Faults

/-! # Upgrading a database

`Db::from_connection` statement by statement. Each statement commits by itself,
so whatever ends the process leaves the database between two of them.
-/

namespace ZimaScope

/-! ## Tables that change their layout -/

/-- Rows as they were before a version widened the table, or after. -/
inductive Layout (κ α κ' α' : Type)
  | narrow (t : Table κ α)
  | wide (t : Table κ' α')

/-- How a version widens the rows of a table; the old columns stay what they are. -/
structure Widening (κ α κ' α' : Type) where
  key : κ → κ'
  row : α → α'
  oldKey : κ' → κ
  oldRow : α' → α
  oldKey_key : Function.LeftInverse oldKey key
  oldRow_row : Function.LeftInverse oldRow row

def Widening.widen {κ α κ' α' : Type} (w : Widening κ α κ' α') (r : κ × α) : κ' × α' :=
  (w.key r.1, w.row r.2)

/-- A table, and the one an upgrade keeps under another name while it copies its rows. -/
structure Slot (κ α κ' α' : Type) where
  table : Option (Layout κ α κ' α') := none
  renamed : Option (Layout κ α κ' α') := none

section Slots

variable {κ α κ' α' : Type}

/-- The old columns of the rows. -/
def Layout.columns (w : Widening κ α κ' α') : Layout κ α κ' α' → List (κ × α)
  | .narrow t => t.rows
  | .wide t => t.rows.map fun r => (w.oldKey r.1, w.oldRow r.2)

namespace Slot

/-- `ALTER TABLE .. RENAME TO`. -/
def rename (c : Slot κ α κ' α') : Except String (Slot κ α κ' α') :=
  match c.table, c.renamed with
  | some t, none => .ok ⟨none, some t⟩
  | some _, some _ => .error "there is already another table or index with this name"
  | none, _ => .error "no such table"

/-- `CREATE TABLE`. -/
def create (c : Slot κ α κ' α') : Except String (Slot κ α κ' α') :=
  match c.table with
  | none => .ok { c with table := some (.wide ∅) }
  | some _ => .error "table already exists"

/-- `CREATE TABLE IF NOT EXISTS`. -/
def createIfMissing (c : Slot κ α κ' α') : Slot κ α κ' α' :=
  { c with table := some (c.table.getD (.wide ∅)) }

/-- `DROP TABLE` of the renamed one. -/
def drop (c : Slot κ α κ' α') : Except String (Slot κ α κ' α') :=
  match c.renamed with
  | some _ => .ok { c with renamed := none }
  | none => .error "no such table"

variable [DecidableEq κ']

/-- `INSERT INTO .. SELECT .. FROM` the renamed one. -/
def copy (w : Widening κ α κ' α') (c : Slot κ α κ' α') : Except String (Slot κ α κ' α') :=
  match c.table, c.renamed with
  | some (.wide t), some old =>
    let rows := t.rows ++ (old.columns w).map w.widen
    if h : (rows.map Prod.fst).Nodup then .ok { c with table := some (.wide ⟨rows, h⟩) }
    else .error "UNIQUE constraint failed"
  | some (.narrow _), some _ => .error "table has no such column"
  | _, _ => .error "no such table"

end Slot

end Slots

/-! ## The three of them -/

/-- The primary key of `observations` before version 9. -/
structure ObservationKeyV8 where
  domain : String
  address : IpAddr
  evidence : DomainEvidence
  deriving DecidableEq, Repr

/-- The primary key of `traffic_buckets` before version 10. -/
structure TimeBucketKeyV9 where
  resolution : BucketResolution
  startMs : ℤ
  deriving DecidableEq, Repr

structure EntityBucketKeyV9 where
  entity : EntityKey
  bucket : TimeBucketKeyV9
  deriving DecidableEq, Repr

structure TimeBucketV9 where
  inPackets : ℤ
  inBytes : ℤ
  outPackets : ℤ
  outBytes : ℤ
  deriving DecidableEq, Repr

/-- A key without an interface stays a wildcard. -/
def TimeBucketKeyV9.wildcard (key : TimeBucketKeyV9) : TimeBucketKey where
  resolution := key.resolution
  startMs := key.startMs
  ifindex := 0

def TimeBucketV9.unnamed (b : TimeBucketV9) : TimeBucket where
  interface := ""
  inPackets := b.inPackets
  inBytes := b.inBytes
  outPackets := b.outPackets
  outBytes := b.outBytes

def TimeBucket.counted (b : TimeBucket) : TimeBucketV9 where
  inPackets := b.inPackets
  inBytes := b.inBytes
  outPackets := b.outPackets
  outBytes := b.outBytes

def observationsV9 : Widening ObservationKeyV8 ObservationRow ObservationKey ObservationRow where
  key k := ⟨k.domain, k.address, k.evidence, 0⟩
  row := id
  oldKey k := ⟨k.domain, k.address, k.evidence⟩
  oldRow := id
  oldKey_key _ := rfl
  oldRow_row _ := rfl

def trafficBucketsV10 : Widening TimeBucketKeyV9 TimeBucketV9 TimeBucketKey TimeBucket where
  key := TimeBucketKeyV9.wildcard
  row := TimeBucketV9.unnamed
  oldKey k := ⟨k.resolution, k.startMs⟩
  oldRow := TimeBucket.counted
  oldKey_key _ := rfl
  oldRow_row _ := rfl

def entityBucketsV10 : Widening EntityBucketKeyV9 TimeBucketV9 EntityBucketKey TimeBucket where
  key k := ⟨k.entity, k.bucket.wildcard⟩
  row := TimeBucketV9.unnamed
  oldKey k := ⟨k.entity, k.bucket.resolution, k.bucket.startMs⟩
  oldRow := TimeBucket.counted
  oldKey_key _ := rfl
  oldRow_row _ := rfl

/-! ## A database file -/

inductive FlowColumn | service | appId | dstScope
  deriving DecidableEq, Repr

/-- `flows`; a column that is not there yet reads as `NULL`. -/
structure FlowsTable where
  rows : Table UInt64 FlowRow := ∅
  columns : FlowColumn → Bool := fun _ => true

/-- `traffic_rules` before version 7 had other columns. -/
inductive RulesLayout
  | perKind
  | selectors (t : RuleTable)

/-- The tables no version changed; the upgrade never reads their rows. -/
inductive OtherTable | applications | entityRates | settings | exports
  deriving DecidableEq, Repr

/-- A database file. A table that is not there is `none`. -/
structure DbFile where
  userVersion : ℤ := 0
  trafficRules : Option RulesLayout := none
  observations : Slot ObservationKeyV8 ObservationRow ObservationKey ObservationRow := {}
  trafficBuckets : Slot TimeBucketKeyV9 TimeBucketV9 TimeBucketKey TimeBucket := {}
  entityBuckets : Slot EntityBucketKeyV9 TimeBucketV9 EntityBucketKey TimeBucket := {}
  flows : Option FlowsTable := none
  flowDomains : Option FlowDomains := none
  /-- The table, and its one row. -/
  flowStats : Option (Option FlowStats) := none
  others : OtherTable → Option (List String) := fun _ => none

namespace DbFile

abbrev Action (α : Type) := Storage ApiError DbFile α

def query {α : Type} (f : DbFile → α) : Action α := .query .ofStorage f

def execute (f : DbFile → DbFile) : Action Unit := .execute .ofStorage f

def attempt (f : DbFile → Except String DbFile) : Action Unit := .attempt .ofStorage f

/-- `flows` and what its triggers keep. -/
def tables (s : DbFile) : Tables where
  flows := s.flows.elim ∅ FlowsTable.rows
  flowDomains := s.flowDomains.getD ∅
  flowStats := s.flowStats.join.getD {}

/-- A statement on `flows` and what its triggers keep. -/
def onTables (f : Tables → Tables) (s : DbFile) : DbFile :=
  let t := f s.tables
  { s with
    flows := s.flows.map fun flows => { flows with rows := t.flows }
    flowDomains := s.flowDomains.map fun _ => t.flowDomains
    flowStats := s.flowStats.map (Option.map fun _ => t.flowStats) }

def hasColumn (c : FlowColumn) (s : DbFile) : Bool := s.flows.any fun flows => flows.columns c

/-! ## Statements -/

/-- `DROP TABLE IF EXISTS traffic_rules`. -/
def dropRules (s : DbFile) : DbFile := { s with trafficRules := none }

/-- One of the tables that change their layout. -/
structure Part (β : Type) where
  get : DbFile → β
  set : DbFile → β → DbFile

def Part.on {β : Type} (part : Part β) (f : β → Except String β) (s : DbFile) :
    Except String DbFile :=
  (f (part.get s)).map (part.set s)

def observationsPart :
    Part (Slot ObservationKeyV8 ObservationRow ObservationKey ObservationRow) where
  get := observations
  set s c := { s with observations := c }

def trafficBucketsPart : Part (Slot TimeBucketKeyV9 TimeBucketV9 TimeBucketKey TimeBucket) where
  get := trafficBuckets
  set s c := { s with trafficBuckets := c }

def entityBucketsPart : Part (Slot EntityBucketKeyV9 TimeBucketV9 EntityBucketKey TimeBucket) where
  get := entityBuckets
  set s c := { s with entityBuckets := c }

/-- Renames the table, if it is there, creates it anew, copies its rows and drops the old one. -/
def rebuild {κ α κ' α' : Type} [DecidableEq κ'] (w : Widening κ α κ' α')
    (part : Part (Slot κ α κ' α')) : Action Unit := do
  let tableExists ← query fun s => (part.get s).table.isSome
  if tableExists then
    [Slot.rename, Slot.create, Slot.copy w, Slot.drop].forM fun f => attempt (part.on f)
  else pure ()

def createFlows (s : DbFile) : DbFile := { s with flows := some (s.flows.getD {}) }

def createFlowDomains (s : DbFile) : DbFile :=
  { s with flowDomains := some (s.flowDomains.getD ∅) }

def createFlowStats (s : DbFile) : DbFile := { s with flowStats := some s.flowStats.join }

/-- `INSERT OR IGNORE INTO flow_stats`. -/
def insertFlowStats (s : DbFile) : DbFile :=
  { s with flowStats := s.flowStats.map fun row => some (row.getD {}) }

def createObservations (s : DbFile) : DbFile :=
  { s with observations := s.observations.createIfMissing }

def createTrafficBuckets (s : DbFile) : DbFile :=
  { s with trafficBuckets := s.trafficBuckets.createIfMissing }

def createEntityBuckets (s : DbFile) : DbFile :=
  { s with entityBuckets := s.entityBuckets.createIfMissing }

def createOther (table : OtherTable) (s : DbFile) : DbFile :=
  { s with others := fun t => if t = table then some ((s.others t).getD []) else s.others t }

def createRules (s : DbFile) : DbFile :=
  { s with trafficRules := some (s.trafficRules.getD (.selectors {})) }

/-- An index or a trigger, on columns every version has. -/
def createIndex (s : DbFile) : DbFile := s

/-- `idx_flows_app_last_seen`. -/
def createAppIndex (s : DbFile) : Except String DbFile :=
  if s.hasColumn .appId then .ok s else .error "no such column: app_id"

/-- The statements of `SCHEMA_SQL`. -/
def schemaSql : List (DbFile → Except String DbFile) :=
  [.ok ∘ createFlows, .ok ∘ createIndex, .ok ∘ createIndex, .ok ∘ createIndex, createAppIndex,
    .ok ∘ createFlowDomains, .ok ∘ createIndex, .ok ∘ createIndex, .ok ∘ createIndex,
    .ok ∘ createIndex, .ok ∘ createFlowStats, .ok ∘ insertFlowStats, .ok ∘ createIndex,
    .ok ∘ createIndex, .ok ∘ createIndex, .ok ∘ createOther .applications, .ok ∘ createIndex,
    .ok ∘ createObservations, .ok ∘ createIndex, .ok ∘ createIndex, .ok ∘ createTrafficBuckets,
    .ok ∘ createEntityBuckets, .ok ∘ createIndex,
    .ok ∘ createOther .entityRates, .ok ∘ createOther .settings, .ok ∘ createOther .exports,
    .ok ∘ createRules]

/-- `ALTER TABLE flows ADD COLUMN`. -/
def addColumn (c : FlowColumn) (s : DbFile) : DbFile :=
  { s with
    flows := s.flows.map fun flows =>
      { flows with columns := fun c' => c' = c || flows.columns c' } }

/-- Whether the column was missing. -/
def addColumnIfMissing (c : FlowColumn) : Action Bool := do
  let present ← query (hasColumn c)
  if present then pure false
  else
    execute (addColumn c)
    pure true

/-- The order a hash map of scopes is gone through in. -/
structure ScopeOrder where
  scopes : List AddressScope
  complete : ∀ scope, scope ∈ scopes

def missesScope (scope : AddressScope) (_ : UInt64) (row : FlowRow) : Bool :=
  row.dstScope = none && AddressScope.classify row.key.destination.address = scope

/-- `UPDATE flows SET dst_scope` for the addresses of one scope. -/
def setDstScope (scope : AddressScope) : DbFile → DbFile :=
  onTables fun t => t.updateFlows (fun row => { row with dstScope := some scope }) (missesScope scope)

/-- One update for each scope that a flow without one has. -/
def backfillDstScope (order : ScopeOrder) : Action Unit := do
  let scopes ← query fun s => order.scopes.filter fun scope =>
    s.tables.flows.rows.any fun r => missesScope scope r.1 r.2
  scopes.forM fun scope => execute (setDstScope scope)

/-- The upgrade of a file of an earlier version. -/
def upgrade (order : ScopeOrder) (version : ℤ) : Action Unit := do
  .guarded (0 < version ∧ version < 7) (execute dropRules)
  .guarded (0 < version ∧ version < 9) (rebuild observationsV9 observationsPart)
  .guarded (0 < version ∧ version < 10) do
    rebuild trafficBucketsV10 trafficBucketsPart
    rebuild entityBucketsV10 entityBucketsPart
  schemaSql.forM attempt
  let _ ← addColumnIfMissing .service
  let _ ← addColumnIfMissing .appId
  let added ← addColumnIfMissing .dstScope
  .guarded added (backfillDstScope order)
  .guarded (0 < version ∧ version < 12) do
    execute id
    execute id
    execute (onTables Tables.backfillFlowDomains)
  .guarded (0 < version ∧ version < 13) (execute (onTables Tables.backfillFlowStats))
  execute fun s => { s with userVersion := schemaVersion }

/-- `Db::from_connection`, as far as the file goes. -/
def fromConnection (order : ScopeOrder) : Action Unit := do
  let version ← query userVersion
  .guarded (version < schemaVersion) (upgrade order version)
  query fun _ => ()

end DbFile

end ZimaScope
