import ZimaScope.Api.Orders
import ZimaScope.Api.Overview
import ZimaScope.Collector.Health
import ZimaScope.Db.Histories

/-! # Exports

The exports of a database beside its traffic: what a creation queries and
stores, what becomes of the content, and the history clear, which deletes
exports with the rest.
-/

namespace ZimaScope

open Storage

inductive ExportFormat | json | csv
  deriving DecidableEq, Repr

namespace ExportFormat

def contentType : ExportFormat → String
  | json => "application/json"
  | csv => "text/csv"

def extension : ExportFormat → String
  | json => "json"
  | csv => "csv"

end ExportFormat

/-- The query comes with its `sort`. -/
structure CreateExportRequest where
  format : ExportFormat := .json
  query : FlowQuery := {}
  sort : Option String := none

structure IpProfileDto extends IpProfile where
  address : IpAddr
  deriving DecidableEq, Repr

structure ExportDocument where
  generatedAt : ℤ
  range : Option String
  truncated : Bool
  flows : List FlowDto
  domains : List DomainSummaryDto
  profiles : List IpProfileDto
  health : Option CollectorHealth

/-! ## CSV -/

def csvField (value : String) : String :=
  if value.toList.any fun c => c = ',' ∨ c = '"' ∨ c = '\n' ∨ c = '\r' then
    "\"" ++ String.ofList (value.toList.flatMap fun c => if c = '"' then ['"', '"'] else [c]) ++ "\""
  else value

def csvHeader : List String :=
  ["id", "direction", "protocol", "state", "end_reason", "src_ip", "src_port", "dst_ip", "dst_port",
    "remote_ip", "remote_port", "interface", "packets", "bytes", "first_seen_ms", "last_seen_ms",
    "domain", "evidence", "confidence", "application"]

def FlowDto.csvFields (flow : FlowDto) : List String :=
  let association := flow.domains.head?
  [hex16 flow.id, flow.direction.value, flow.protocol.value, flow.state.asStr,
    coalesce (flow.endReason.map EndReason.value), flow.source.address.toString,
    coalesce (portText flow.source), flow.destination.address.toString,
    coalesce (portText flow.destination), flow.remote.address.toString,
    coalesce (portText flow.remote), csvField (coalesce flow.interface), s!"{flow.packets}",
    s!"{flow.bytes}", s!"{flow.firstSeen}", s!"{flow.lastSeen}",
    csvField (coalesce (association.map DomainRefDto.domain)),
    coalesce (association.map fun d => d.evidence.value),
    coalesce (association.map fun d => d.confidence.value),
    csvField (coalesce (flow.application.map ApplicationRefDto.id))]

def exportCsv (flows : List FlowDto) : String :=
  String.join ((csvHeader :: flows.map FlowDto.csvFields).map fun fields =>
    ",".intercalate fields ++ "\n")

/-! ## The database -/

structure ExportRow where
  format : ExportFormat
  range : Option String
  createdAtMs : ℤ
  expiresAtMs : ℤ
  recordCount : ℕ
  truncated : Bool
  contentType : String
  content : String
  deriving DecidableEq, Repr

structure AuditEntry where
  time : SystemTime
  action : String
  outcome : String
  deriving DecidableEq, Repr

/-- The connection with its exports, and what is remembered beside the tables. -/
structure Db where
  traffic : TrafficDb
  exports : Table String ExportRow := ∅
  databaseError : Option String := none
  audit : List AuditEntry := []
  exportCounter : UInt64 := 0
  exportTtl : Duration

def auditCapacity : ℕ := 32

/-- Display of an error. -/
def ApiError.toText (error : ApiError) : String := s!"{error.status}: {error.detail}"

def ApiError.gone (detail : String) : ApiError :=
  ⟨410, "gone", "Resource is no longer available", detail⟩

def exportMaxRecords : ℕ := 10000

/-- When an export reads the clock: at its creation, for the flows, for the domains, for the audit
and for the answer. -/
structure ExportClock where
  created : SystemTime
  flows : SystemTime
  domains : SystemTime
  audited : SystemTime
  answered : SystemTime

/-- What an export takes from elsewhere: the rates of the last interval and the health of the
collector, the row that a column outside of the aggregates is read from and the order of rows that
are not ordered, which the engine chooses, and the serializer. -/
structure ExportContext where
  rates : Rates
  health : Option CollectorHealth
  bare : List IdRow → Option IdRow
  scan : List IpProfileDto → List IpProfileDto
  serialize : ExportDocument → Except String String

structure ExportTaskDto where
  id : String
  status : String
  format : ExportFormat
  range : Option String
  createdAt : ℤ
  expiresAt : ℤ
  recordCount : ℕ
  sizeBytes : ℕ
  truncated : Bool
  contentType : String
  downloadUrl : String
  deriving DecidableEq, Repr

structure ExportContent where
  contentType : String
  fileName : String
  bytes : String
  deriving DecidableEq, Repr

def exportTaskFromRow (now : SystemTime) (id : String) (row : ExportRow) : ExportTaskDto where
  id
  status := if row.expiresAtMs ≤ unixMillis now then "expired" else "completed"
  format := row.format
  range := row.range
  createdAt := row.createdAtMs
  expiresAt := row.expiresAtMs
  recordCount := row.recordCount
  sizeBytes := row.content.utf8ByteSize
  truncated := row.truncated
  contentType := row.contentType
  downloadUrl := "/v1/exports/" ++ id ++ "/content"

/-- `exp-{}` of the counter. -/
def exportId (counter : UInt64) : String := "exp-" ++ s!"{counter.toNat}"

/-- The profile of the remote address of a flow. -/
def exportProfile (r : IdRow) : IpProfileDto := { r.2.profile with address := r.2.remote.address }

/-- `SELECT DISTINCT` of the profiles. -/
def distinctProfiles (rows : List IdRow) : List IpProfileDto := (rows.map exportProfile).dedup

namespace Db

abbrev Action (α : Type) := Storage ApiError Db α

def recordAudit (db : Db) (entry : AuditEntry) : Db :=
  { db with
    audit := (if auditCapacity ≤ db.audit.length then db.audit.tail else db.audit) ++ [entry] }

def select {α : Type} (f : Tables → α) : Action α := .query .ofStorage fun db => f db.traffic.tables

/-- Runs an action of the traffic tables. -/
def onTraffic {α : Type} (x : TrafficDb.Action α) : Action α := fun c =>
  let (result, c') := x ⟨c.store.traffic, c.faults⟩
  (result, ⟨{ c.store with traffic := c'.store }, c'.faults⟩)

/-! ## Creation -/

def flowsPage (query : FlowQuery) (sort : Option String) (rates : Rates) (now : SystemTime)
    (limit offset : ℕ) : Action (List FlowDto × ℕ) := do
  let clauses ← .ofExcept (query.clauses now true)
  let total ← select fun t => (t.flowsWhere clauses).length
  let t := (← Storage.get).traffic.tables
  let order ← .ofExcept (flowOrder t sort)
  let records ← select fun t =>
    (((t.flowsWhere clauses).insertionSort order.le).drop offset |>.take limit).filterMap fun r =>
      TrafficDb.recordOf t r.1
  pure (records.map fun record => record.toDto rates, total)

def domainRows (query : FlowQuery) (sort : Option String) (context : ExportContext)
    (now : SystemTime) (limit offset : ℕ) : Action (List DomainSummaryDto × ℕ) := do
  let clauses ← .ofExcept (query.clauses now false)
  let joined := fun t : Tables => t.domainJoin.filter fun pair =>
    (clauses.all fun clause => clause pair.1.1 pair.1.2) && query.joinClauses pair.2
  let total ← select fun t => ((joined t).map fun pair => pair.2.domain).dedup.length
  let t := (← Storage.get).traffic.tables
  let order ← .ofExcept (domainOrder t context.bare sort)
  let groups ← select fun t =>
    ((groupBy (fun pair => pair.2.domain) (joined t)).insertionSort order.le).drop offset |>.take limit
  pure (groups.map (domainSummary context.rates), total)

def exportProfiles (query : FlowQuery) (scan : List IpProfileDto → List IpProfileDto)
    (now : SystemTime) : Action (List IpProfileDto) := do
  let clauses ← .ofExcept (query.clauses now true)
  select fun t => (scan (distinctProfiles (t.flowsWhere clauses))).take exportMaxRecords

/-- The content of an export of these flows. -/
def exportBytes (request : CreateExportRequest) (context : ExportContext) (clock : ExportClock)
    (flows : List FlowDto) (truncated : Bool) : Action String :=
  match request.format with
  | .json => do
    let domains ←
      domainRows request.query request.sort context clock.domains exportMaxRecords 0
    let profiles ← exportProfiles request.query context.scan clock.created
    let document : ExportDocument :=
      { generatedAt := unixMillis clock.created
        range := request.query.range.map TimeRange.asStr
        truncated
        flows
        domains := domains.1
        profiles
        health := context.health }
    .ofExcept ((context.serialize document).mapError fun error =>
      .internal s!"serialize export: {error}")
  | .csv => pure (exportCsv flows)

/-- The queries of a creation, and the row they make. -/
def exportRow (request : CreateExportRequest) (context : ExportContext) (clock : ExportClock) :
    Action ExportRow := do
  let page ← flowsPage request.query request.sort context.rates clock.flows exportMaxRecords 0
  let truncated : Bool := page.1.length < page.2
  let content ← exportBytes request context clock page.1 truncated
  let ttl := (← Storage.get).exportTtl
  pure {
    format := request.format
    range := request.query.range.map TimeRange.asStr
    createdAtMs := unixMillis clock.created
    expiresAtMs := unixMillis ((clock.created.checkedAdd ttl).getD clock.created)
    recordCount := page.1.length
    truncated
    contentType := request.format.contentType
    content }

/-- `INSERT INTO exports`; the id is the primary key. -/
def insertExport (id : String) (row : ExportRow) : Action Unit :=
  .attempt .ofStorage fun db =>
    match db.exports.find id with
    | none => .ok { db with exports := db.exports.upsert id fun _ => row }
    | some _ => .error "UNIQUE constraint failed: exports.id"

def exportById (id : String) (now : SystemTime) : Action (Option ExportTaskDto) :=
  .query .ofStorage fun db => (db.exports.find id).map (exportTaskFromRow now id)

/-- Reads back what was inserted. -/
def insertedExport (id : String) (now : SystemTime) : Action ExportTaskDto := do
  match ← exportById id now with
  | some task => pure task
  | none => .ofExcept (.error (.internal "export insert was not visible"))

/-- Stores the row under the next id. -/
def storeExport (row : ExportRow) (clock : ExportClock) : Action ExportTaskDto := do
  Storage.modify fun db => { db with exportCounter := db.exportCounter + 1 }
  let id := exportId (← Storage.get).exportCounter
  insertExport id row
  Storage.modify fun db => db.recordAudit ⟨clock.audited, "export.create", "completed"⟩
  insertedExport id clock.answered

def createExport (request : CreateExportRequest) (context : ExportContext) (clock : ExportClock) :
    Action ExportTaskDto := do
  let row ← exportRow request context clock
  storeExport row clock

/-! ## Reading and deleting -/

def noExport (id : String) : ApiError := .notFound s!"no export with id {id}"

/-- `ORDER BY created_at_ms DESC`. -/
def listExports (now : SystemTime) : Action (List ExportTaskDto) :=
  .query .ofStorage fun db =>
    (db.exports.rows.insertionSort fun a b => b.2.createdAtMs ≤ a.2.createdAtMs).map fun r =>
      exportTaskFromRow now r.1 r.2

def getExport (id : String) (now : SystemTime) : Action ExportTaskDto := do
  match ← exportById id now with
  | some task => pure task
  | none => .ofExcept (.error (noExport id))

def exportContent (id : String) (now : SystemTime) : Action ExportContent := do
  let row : Option ExportRow ← .query .ofStorage fun db => db.exports.find id
  match row with
  | none => .ofExcept (.error (noExport id))
  | some row =>
    if row.expiresAtMs ≤ unixMillis now then
      .ofExcept (.error (.gone s!"export {id} content has expired and was discarded"))
    else
      pure {
        contentType := row.contentType
        fileName := "zimascope-export-" ++ id ++ "." ++ row.format.extension
        bytes := row.content }

def deleteExport (id : String) (now : SystemTime) : Action Unit := do
  let removed ← .statement .ofStorage fun db =>
    ((db.exports.find id).isSome, { db with exports := db.exports.filter fun key _ => key ≠ id })
  if removed then
    Storage.modify fun db => db.recordAudit ⟨now, "export.delete", "completed"⟩
  else .ofExcept (.error (noExport id))

/-! ## Lifecycle -/

/-- The statements of `clear_history`. -/
def clearStatements : List (Db → Db) :=
  clearDeletes.map (fun f db =>
    { db with traffic := { db.traffic with tables := f db.traffic.tables } }) ++
    [fun db => { db with exports := ∅ }]

/-- What `clear_history` leaves when its statements ended so; an error is only remembered. -/
def clearMemory (now : SystemTime) (result : Except ApiError Unit) (db : Db) : Db :=
  let databaseError :=
    match result with
    | .ok () => db.databaseError
    | .error error => some error.toText
  { db with databaseError, traffic := { db.traffic with storedRates := ∅ } }.recordAudit
    ⟨now, "history.clear", "completed"⟩

def clearHistory (now : SystemTime) : Action Unit := fun c =>
  let (result, c') := clearStatements.forM (Storage.execute .ofStorage) c
  (.ok (), ⟨c'.store.clearMemory now result, c'.faults⟩)

/-- A daemon that opens the file. -/
def restart (tables : Tables) (exports : Table String ExportRow) (flowCapacity : ℕ)
    (exportTtl : Duration) : Db where
  traffic := TrafficDb.restart tables flowCapacity
  exports
  exportTtl

end Db

/-- What happens to a database and its exports; any statement may fail. -/
inductive StoreEvent
  | ingest (input : IngestInput) (faults : List (Option String))
  | saveSettings (settings : Settings) (nowInstant : Instant) (now : SystemTime)
      (faults : List (Option String))
  | createExport (request : CreateExportRequest) (context : ExportContext) (clock : ExportClock)
      (faults : List (Option String))
  | deleteExport (id : String) (now : SystemTime) (faults : List (Option String))
  | clearHistory (now : SystemTime) (faults : List (Option String))
  | restart (flowCapacity : ℕ) (exportTtl : Duration)

section Stores

variable (flowId : FlowKey → UInt64)

/-- `Db::ingest`: the error of an interval is remembered. -/
def Db.ingest (db : Db) (input : IngestInput) (faults : List (Option String)) : Db :=
  match Db.onTraffic (TrafficDb.tryIngest flowId input) ⟨db, faults⟩ with
  | (.ok _, c) => c.store
  | (.error error, c) => { c.store with databaseError := some error.toText }

def Db.next (db : Db) : StoreEvent → Db
  | .ingest input faults => db.ingest flowId input faults
  | .saveSettings settings nowInstant now faults =>
    (Db.onTraffic (TrafficDb.saveSettings settings nowInstant now) ⟨db, faults⟩).2.store
  | .createExport request context clock faults =>
    (Db.createExport request context clock ⟨db, faults⟩).2.store
  | .deleteExport id now faults => (Db.deleteExport id now ⟨db, faults⟩).2.store
  | .clearHistory now faults => (Db.clearHistory now ⟨db, faults⟩).2.store
  | .restart flowCapacity exportTtl =>
    Db.restart db.traffic.tables db.exports flowCapacity exportTtl

/-- The runs of events that meet a condition, from any file. -/
def stores (cond : Db → StoreEvent → Prop) : System Db where
  init db := ∃ tables exports flowCapacity exportTtl,
    db = Db.restart tables exports flowCapacity exportTtl
  step db db' := ∃ event, cond db event ∧ db' = db.next flowId event

end Stores

/-! ## What a creation comes to -/

namespace Db

/-- The database after the counter moved on. -/
def counted (db : Db) : Db := { db with exportCounter := db.exportCounter + 1 }

/-- The id that the next creation takes. -/
def nextId (db : Db) : String := exportId (db.exportCounter + 1)

/-- The database with a new export. -/
def stored (db : Db) (row : ExportRow) (clock : ExportClock) : Db :=
  { db.counted with exports := db.exports.upsert db.nextId fun _ => row }.recordAudit
    ⟨clock.audited, "export.create", "completed"⟩

section Creation

variable {request : CreateExportRequest} {context : ExportContext} {clock : ExportClock}
  {row : ExportRow} {db : Db} {faults : List (Option String)}

theorem readOnly_flowsPage {query : FlowQuery} {sort : Option String} {rates : Rates}
    {now : SystemTime} {limit offset : ℕ} :
    ReadOnly (flowsPage query sort rates now limit offset) :=
  .bind .ofExcept fun _ => .bind .query fun _ => .bind (fun _ => rfl) fun _ =>
    .bind .ofExcept fun _ => .bind .query fun _ => .pure

theorem readOnly_domainRows {query : FlowQuery} {sort : Option String} {now : SystemTime}
    {limit offset : ℕ} : ReadOnly (domainRows query sort context now limit offset) :=
  .bind .ofExcept fun _ => .bind .query fun _ => .bind (fun _ => rfl) fun _ =>
    .bind .ofExcept fun _ => .bind .query fun _ => .pure

theorem readOnly_exportProfiles {query : FlowQuery} {scan : List IpProfileDto → List IpProfileDto}
    {now : SystemTime} : ReadOnly (exportProfiles query scan now) :=
  .bind .ofExcept fun _ => .query

theorem readOnly_exportBytes {flows : List FlowDto} {truncated : Bool} :
    ReadOnly (exportBytes request context clock flows truncated) := by
  unfold exportBytes
  cases request.format with
  | json => exact .bind readOnly_domainRows fun _ => .bind readOnly_exportProfiles fun _ => .ofExcept
  | csv => exact .pure

theorem readOnly_exportRow : ReadOnly (exportRow request context clock) :=
  .bind readOnly_flowsPage fun _ => .bind readOnly_exportBytes fun _ =>
    .bind (fun _ => rfl) fun _ => .pure

theorem readOnly_insertedExport {id : String} {now : SystemTime} :
    ReadOnly (insertedExport id now) := by
  refine .bind .query fun task => ?_
  cases task with
  | some task => exact .pure
  | none => exact .ofExcept

/-- An export that gets its id is stored under it. -/
theorem storeExport_of_none (hid : db.exports.find db.nextId = none)
    (hfault : faults.headD none = none) :
    (storeExport row clock ⟨db, faults⟩).2.store = db.stored row clock := by
  have hinsert : insertExport db.nextId row ⟨db.counted, faults⟩ = (.ok (), ⟨{ db.counted with
      exports := db.exports.upsert db.nextId fun _ => row }, faults.tail⟩) := by
    refine attempt_of_ok ?_ hfault
    change (match db.exports.find db.nextId with
      | none => _
      | some _ => _) = _
    rw [hid]
    rfl
  change ((insertExport db.nextId row >>= fun _ => _) ⟨db.counted, faults⟩).2.store = _
  rw [bind_of_ok hinsert]
  exact readOnly_insertedExport ⟨db.stored row clock, faults.tail⟩

/-- The others fail, and leave the exports as they are. -/
theorem storeExport_of_refused (row : ExportRow) (clock : ExportClock)
    (h : db.exports.find db.nextId ≠ none ∨ faults.headD none ≠ none) :
    ∃ error, storeExport row clock ⟨db, faults⟩ = (.error error, ⟨db.counted, faults.tail⟩) := by
  have hinsert : ∃ error, insertExport db.nextId row ⟨db.counted, faults⟩ =
      (.error error, ⟨db.counted, faults.tail⟩) := by
    refine attempt_of_refused (h.imp_left fun hid => ?_)
    obtain ⟨old, hold⟩ := Option.ne_none_iff_exists'.mp hid
    refine ⟨"UNIQUE constraint failed: exports.id", ?_⟩
    change (match db.exports.find db.nextId with
      | none => _
      | some _ => _) = _
    rw [hold]
  obtain ⟨error, hinsert⟩ := hinsert
  refine ⟨error, ?_⟩
  change (insertExport db.nextId row >>= fun _ => _) ⟨db.counted, faults⟩ = _
  rw [bind_of_error hinsert]

/-- Once its queries succeed, a creation comes to storing the row they make. -/
theorem createExport_cases (request : CreateExportRequest) (context : ExportContext)
    (clock : ExportClock) (db : Db) (faults : List (Option String)) :
    (∃ error rest, exportRow request context clock ⟨db, faults⟩ = (.error error, ⟨db, rest⟩) ∧
      createExport request context clock ⟨db, faults⟩ = (.error error, ⟨db, rest⟩)) ∨
    ∃ row rest, exportRow request context clock ⟨db, faults⟩ = (.ok row, ⟨db, rest⟩) ∧
      createExport request context clock ⟨db, faults⟩ = storeExport row clock ⟨db, rest⟩ := by
  have hread : (exportRow request context clock ⟨db, faults⟩).2.store = db := readOnly_exportRow _
  unfold createExport
  generalize hrun : exportRow request context clock ⟨db, faults⟩ = run at hread
  obtain ⟨error | row, store, rest⟩ := run
  · obtain rfl : store = db := hread
    exact .inl ⟨error, rest, rfl, bind_of_error hrun⟩
  · obtain rfl : store = db := hread
    exact .inr ⟨row, rest, rfl, bind_of_ok hrun⟩

/-- A creation leaves the database as it was but for the counter, or with a new export. -/
theorem store_createExport (request : CreateExportRequest) (context : ExportContext)
    (clock : ExportClock) (db : Db) (faults : List (Option String)) :
    (createExport request context clock ⟨db, faults⟩).2.store = db ∨
      (createExport request context clock ⟨db, faults⟩).2.store = db.counted ∨
        db.exports.find db.nextId = none ∧
          ∃ row, (createExport request context clock ⟨db, faults⟩).2.store = db.stored row clock := by
  rcases createExport_cases request context clock db faults with
    ⟨error, rest, -, hrun⟩ | ⟨row, rest, -, hrun⟩
  · rw [hrun]
    exact .inl rfl
  · rw [hrun]
    by_cases hrefused : db.exports.find db.nextId ≠ none ∨ rest.headD none ≠ none
    · obtain ⟨error, hstore⟩ := storeExport_of_refused row clock hrefused
      rw [hstore]
      exact .inr (.inl rfl)
    · rw [not_or, not_not, not_not] at hrefused
      exact .inr (.inr ⟨hrefused.1, row, storeExport_of_none hrefused.1 hrefused.2⟩)

end Creation

end Db

end ZimaScope
