import Mathlib.Data.List.Lex
import Mathlib.Data.Prod.Lex
import ZimaScope.Api.Connections

/-! # Orders

The `ORDER BY` of each resource list: a column that the request chooses and the
columns that break its ties, all in one direction.
-/

namespace ZimaScope

/-! ## Values -/

/-- A value of a column. A number that is not an integer does not occur. -/
inductive SqlValue
  | null
  | integer (n : ℤ)
  | text (s : String)
  deriving DecidableEq, Repr

namespace SqlValue

/-- Null before numbers, and numbers before texts. -/
def rank : SqlValue → ℕ ×ₗ ℤ ×ₗ String
  | null => toLex (0, toLex (0, ""))
  | integer n => toLex (1, toLex (n, ""))
  | text s => toLex (2, toLex (0, s))

theorem rank_injective : Function.Injective rank := by
  intro a b h
  cases a <;> cases b <;> simp_all [rank]

instance : LinearOrder SqlValue := LinearOrder.lift' rank rank_injective

/-- A column of texts that may be null. -/
def ofText (column : Option String) : SqlValue := column.elim null text

def ofInteger (column : Option ℤ) : SqlValue := column.elim null integer

end SqlValue

/-- The terms of an `ORDER BY`, from the first. -/
structure OrderBy (α : Type) where
  descending : Bool
  key : α → List SqlValue

namespace OrderBy

variable {α : Type} (order : OrderBy α)

/-- Rows that compare equal may come in any order. -/
def le (a b : α) : Prop :=
  if order.descending then order.key b ≤ order.key a else order.key a ≤ order.key b

instance : DecidableRel order.le := fun a b => by
  unfold le
  infer_instance

instance : Std.Total order.le where
  total a b := by
    unfold le
    split
    · exact le_total _ _
    · exact le_total _ _

instance : IsTrans α order.le where
  trans a b c hab hbc := by
    unfold le at *
    split_ifs at *
    · exact hbc.trans hab
    · exact hab.trans hbc

theorem key_eq_of_le {a b : α} (h : order.le a b) (h' : order.le b a) : order.key a = order.key b := by
  unfold le at h h'
  split_ifs at h h'
  · exact le_antisymm h' h
  · exact le_antisymm h h'

end OrderBy

/-! ## Sort parameters -/

def ApiError.badRequest (detail : String) : ApiError := ⟨400, "invalid_request", "Invalid request", detail⟩

def splitSort (sort : Option String) (default : String) : String × Bool :=
  let raw := sort.getD default
  match stripPrefix raw "-" with
  | some field => (field, true)
  | none => ((stripPrefix raw "+").getD raw, false)

def unsupportedSort (field : String) : ApiError :=
  .badRequest s!"unsupported sort field: {repr field}"

/-- The order that a sort parameter asks for, with the columns that break ties. -/
def orderOf {α : Type} (default : String) (columns : String → Option (α → SqlValue))
    (ties : α → List SqlValue) (sort : Option String) : Except ApiError (OrderBy α) :=
  let (field, descending) := splitSort sort default
  match columns field with
  | none => .error (unsupportedSort field)
  | some column => .ok ⟨descending, fun a => column a :: ties a⟩

/-! ## Columns -/

/-- The nearest number with 53 significant bits, the even one of two. -/
def roundF64 (n : ℕ) : ℕ :=
  let step := 2 ^ (n.log2 - 52)
  let (whole, rest) := (n / step, n % step)
  (if step < 2 * rest ∨ 2 * rest = step ∧ whole % 2 = 1 then whole + 1 else whole) * step

def octetsValue (octets : List UInt8) : ℕ := octets.foldl (fun n octet => n * 256 + octet.toNat) 0

/-- Numeric sort key for an IP address. IPv6 keys are offset past every IPv4 value. -/
def ipSortKey : IpAddr → SqlValue
  | .v4 address => .integer (octetsValue address.octets.toList)
  | .v6 octets => .integer (roundF64 (4294967296 + roundF64 (octetsValue (octets.toList.take 8))))

/-- Labels compared from the root up. -/
def domainSortKey (domain : String) : String :=
  String.ofList ([Char.ofNat 0].intercalate ((domain.toList.splitOn '.').filter (· ≠ [])).reverse)

/-- `kind` of an `entity_rates` row. -/
def EntityKey.kind : EntityKey → String
  | .flow _ => "flow"
  | .connection _ => "connection"
  | .endpoint _ => "endpoint"
  | .domain _ => "domain"
  | .application _ => "application"

/-- `key` of an `entity_rates` row. -/
def EntityKey.text : EntityKey → String
  | .flow id => s!"{id.toNat}"
  | .connection id => id
  | .endpoint address => address.toString
  | .domain name => name
  | .application id => id

/-- `CAST(id AS TEXT)`, of an id that is stored as a signed integer. -/
def castText (id : UInt64) : String := s!"{asI64 id.toNat}"

/-- The channel that a sort field names. -/
def rateChannel : String → Option (ℤ × ℤ → ℤ)
  | "rate" => some fun rate => rate.1 + rate.2
  | "in_rate" => some Prod.fst
  | "out_rate" => some Prod.snd
  | _ => none

/-- Rate ordering backed by the latest ingest's `entity_rates` rows. -/
def rateOrder (t : Tables) (kind key : String) (channel : ℤ × ℤ → ℤ) : SqlValue :=
  .integer ((t.entityRates.rows.find? fun r => r.1.kind = kind ∧ r.1.text = key).elim 0
    fun r => channel r.2)

def totalBytes (rows : List FlowRow) : SqlValue := .integer (sqlSum rows FlowRow.bytes)

def totalPackets (rows : List FlowRow) : SqlValue := .integer (sqlSum rows FlowRow.packets)

/-- `SUM(CASE WHEN direction = .. THEN bytes ELSE 0 END)`. -/
def directionBytes (direction : Direction) (rows : List FlowRow) : SqlValue :=
  .integer (sqlSum rows fun row => if row.key.direction = direction then row.bytes else 0)

/-! ## Lists -/

section Lists

variable (t : Tables)

def flowColumn (field : String) : Option (IdRow → SqlValue) :=
  match field with
  | "last_seen" => some fun r => .integer r.2.lastSeenMs
  | "first_seen" => some fun r => .integer r.2.firstSeenMs
  | "bytes" => some fun r => .integer r.2.bytes
  | "packets" => some fun r => .integer r.2.packets
  | "direction" => some fun r => .text r.2.key.direction.value
  | "remote" => some fun r => ipSortKey r.2.remote.address
  | "application" => some fun r => .ofText r.2.appId
  | "domain" => some fun r => .ofText (r.2.domainsJson.head?.map fun d => domainSortKey d.domain)
  | _ => (rateChannel field).map fun channel r => rateOrder t "flow" (castText r.1) channel

def flowOrder (sort : Option String) : Except ApiError (OrderBy IdRow) :=
  orderOf "-last_seen" (flowColumn t) (fun r => [.integer (asI64 r.1.toNat)]) sort

def applicationColumn (field : String) : Option (String × List IdRow → SqlValue) :=
  match field with
  | "bytes" => some fun group => totalBytes (group.2.map Prod.snd)
  | "packets" => some fun group => totalPackets (group.2.map Prod.snd)
  | "in_bytes" => some fun group => directionBytes .inbound (group.2.map Prod.snd)
  | "out_bytes" => some fun group => directionBytes .outbound (group.2.map Prod.snd)
  | "flows" => some fun group => .integer group.2.length
  | "last_seen" => some fun group => .integer (lastSeenMs (group.2.map Prod.snd))
  | "name" => some fun group =>
    .ofText ((t.applications.find group.1).map fun application => toAsciiLowercase application.name)
  | _ => (rateChannel field).map fun channel group => rateOrder t "application" group.1 channel

def applicationOrder (sort : Option String) : Except ApiError (OrderBy (String × List IdRow)) :=
  orderOf "-bytes" (applicationColumn t) (fun group => [.text group.1]) sort

/-- A column outside of the aggregates is read from a row of the group that the engine takes. -/
def bareLastSeen (bare : List IdRow → Option IdRow) (rows : List IdRow) : SqlValue :=
  .ofInteger ((bare rows).map fun r => r.2.lastSeenMs)

variable (bare : List IdRow → Option IdRow)

def endpointColumn (field : String) : Option (IpAddr × List IdRow → SqlValue) :=
  match field with
  | "bytes" => some fun group => totalBytes (group.2.map Prod.snd)
  | "packets" => some fun group => totalPackets (group.2.map Prod.snd)
  | "in_bytes" => some fun group => directionBytes .inbound (group.2.map Prod.snd)
  | "out_bytes" => some fun group => directionBytes .outbound (group.2.map Prod.snd)
  | "last_seen" => some fun group => bareLastSeen bare group.2
  | "address" => some fun group => ipSortKey group.1
  | "country" => some fun group =>
    .ofText (sqlMax (group.2.map Prod.snd) fun row => row.profile.country)
  | "organization" => some fun group =>
    .ofText (sqlMax (group.2.map Prod.snd) fun row => row.profile.organization)
  | "asn" => some fun group =>
    .ofInteger (sqlMax (group.2.map Prod.snd) fun row => row.profile.asn.map fun asn => (asn.toNat : ℤ))
  | _ => (rateChannel field).map fun channel group => rateOrder t "endpoint" group.1.toString channel

def endpointOrder (sort : Option String) : Except ApiError (OrderBy (IpAddr × List IdRow)) :=
  orderOf "-bytes" (endpointColumn t bare) (fun group => [.text group.1.toString]) sort

/-- `GROUP_CONCAT(DISTINCT fd.evidence)`. -/
def evidences (pairs : List DomainPair) : String :=
  ",".intercalate ((pairs.map fun pair => pair.2.evidence.value).eraseDups)

def domainColumn (field : String) : Option (String × List DomainPair → SqlValue) :=
  match field with
  | "bytes" => some fun group => totalBytes (group.2.map fun pair => pair.1.2)
  | "packets" => some fun group => totalPackets (group.2.map fun pair => pair.1.2)
  | "in_bytes" => some fun group => directionBytes .inbound (group.2.map fun pair => pair.1.2)
  | "out_bytes" => some fun group => directionBytes .outbound (group.2.map fun pair => pair.1.2)
  | "last_seen" => some fun group => bareLastSeen bare (group.2.map Prod.fst)
  | "domain" => some fun group => .text (domainSortKey group.1)
  | "evidence" => some fun group => .text (evidences group.2)
  | _ => (rateChannel field).map fun channel group => rateOrder t "domain" group.1 channel

def domainOrder (sort : Option String) : Except ApiError (OrderBy (String × List DomainPair)) :=
  orderOf "-bytes" (domainColumn t bare) (fun group => [.text group.1]) sort

/-- `ip_sort_key(MAX(remote_addr))`, of the greatest text. -/
def maxRemoteKey (rows : List FlowRow) : SqlValue :=
  let greatest := sqlMax rows fun row => some row.remote.address.toString
  (rows.find? fun row => greatest = some row.remote.address.toString).elim .null
    fun row => ipSortKey row.remote.address

/-- `domain_sort_key(MIN(json_extract(domains_json, '$[0].domain')))`. -/
def minDomainKey (rows : List FlowRow) : SqlValue :=
  .ofText ((sqlMin rows fun row => row.domainsJson.head?.map DomainRefDto.domain).map domainSortKey)

def connectionColumn (field : String) : Option (ConnectionGroup → SqlValue) :=
  match field with
  | "last_seen" => some fun group => .integer (lastSeenMs (group.2.map Prod.snd))
  | "first_seen" => some fun group => .integer (firstSeenMs (group.2.map Prod.snd))
  | "duration_ms" => some fun group =>
    .integer (lastSeenMs (group.2.map Prod.snd) - firstSeenMs (group.2.map Prod.snd))
  | "bytes" => some fun group => totalBytes (group.2.map Prod.snd)
  | "packets" => some fun group => totalPackets (group.2.map Prod.snd)
  | "in_bytes" => some fun group => directionBytes .inbound (group.2.map Prod.snd)
  | "out_bytes" => some fun group => directionBytes .outbound (group.2.map Prod.snd)
  | "service" => some fun group => .ofText (sqlMax (group.2.map Prod.snd) FlowRow.service)
  | "application" => some fun group => .ofText (connectionAppId (group.2.map Prod.snd))
  | "remote" => some fun group => maxRemoteKey (group.2.map Prod.snd)
  | "domain" => some fun group => minDomainKey (group.2.map Prod.snd)
  | _ => (rateChannel field).map fun channel group =>
    rateOrder t "connection" (connectionId group.1) channel

def connectionOrder (sort : Option String) : Except ApiError (OrderBy ConnectionGroup) :=
  orderOf "-last_seen" (connectionColumn t)
    (fun group => [.text group.1.pairLo, .text group.1.pairHi]) sort

end Lists

/-! ## Resources -/

inductive Resource | flows | connections | endpoints | domains | applications
  deriving DecidableEq, Repr

namespace Resource

/-- What one item of the list is about. -/
def Item : Resource → Type
  | flows => IdRow
  | connections => ConnectionGroup
  | endpoints => IpAddr × List IdRow
  | domains => String × List DomainPair
  | applications => String × List IdRow

/-- The items that a query selects. -/
def items (t : Tables) (query : ConnectionQuery) (now : SystemTime) :
    (resource : Resource) → Except ApiError (List resource.Item)
  | flows => t.listedFlows query.toFlowQuery now
  | connections => t.connectionRows query now
  | endpoints => t.endpointRows query.toFlowQuery now
  | domains => t.domainRows query.toFlowQuery now
  | applications => t.applicationRows query.toFlowQuery now

/-- `SELECT COUNT(*)`, of the rows, of the groups or of the distinct domains. -/
def total (t : Tables) (query : ConnectionQuery) (now : SystemTime) : Resource → Except ApiError ℕ
  | flows => (query.clauses now true).map fun clauses => (t.flowsWhere clauses).length
  | connections => (t.connectionRows query now).map List.length
  | endpoints => (t.endpointRows query.toFlowQuery now).map List.length
  | domains => (query.clauses now false).map fun clauses =>
    ((t.domainJoin.filter fun pair => (clauses.all fun clause => clause pair.1.1 pair.1.2) &&
      query.joinClauses pair.2).map fun pair => pair.2.domain).dedup.length
  | applications => (t.applicationRows query.toFlowQuery now).map List.length

/-- The order that a sort parameter asks for. -/
def order (t : Tables) (bare : List IdRow → Option IdRow) (sort : Option String) :
    (resource : Resource) → Except ApiError (OrderBy resource.Item)
  | flows => flowOrder t sort
  | connections => connectionOrder t sort
  | endpoints => endpointOrder t bare sort
  | domains => domainOrder t bare sort
  | applications => applicationOrder t sort

end Resource

section Ties

variable {α : Type} {default : String} {columns : String → Option (α → SqlValue)}
  {ties : α → List SqlValue} {sort : Option String} {order : OrderBy α}

theorem orderOf_ok : orderOf default columns ties sort = .ok order ↔
    ∃ column, columns (splitSort sort default).1 = some column ∧
      order = ⟨(splitSort sort default).2, fun a => column a :: ties a⟩ := by
  unfold orderOf
  simp only
  split
  · next hnone => simp [hnone]
  · next column hcolumn => simp [hcolumn, eq_comm]

/-- What compares equal has the same columns that break ties. -/
theorem ties_eq_of_le (h : orderOf default columns ties sort = .ok order) {a b : α}
    (hab : order.le a b) (hba : order.le b a) : ties a = ties b := by
  have hkey := order.key_eq_of_le hab hba
  obtain ⟨column, -, rfl⟩ := orderOf_ok.mp h
  exact (List.cons.inj hkey).2

end Ties

end ZimaScope
