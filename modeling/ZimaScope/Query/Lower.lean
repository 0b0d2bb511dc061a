import Mathlib.Data.List.ReduceOption
import ZimaScope.Api.Connections
import ZimaScope.Policy.Meaning

/-! # Observation query lowering

A view of the flows becomes the selector of a rule, or an error that names the
filters the packet path cannot prove. The list of those filters is kept by hand
beside the query.
-/

namespace ZimaScope

/-- `api::dto::FlowQuery` with what orders and cuts a list. -/
structure ObservationQuery extends ConnectionQuery where
  sort : Option String := none
  limit : Option ℕ := none
  offset : Option ℕ := none

/-- A query that cannot become a single selector. -/
structure UnsupportedQuery where
  fields : List String
  reason : String
  deriving DecidableEq, Repr

namespace ObservationQuery

variable (query : ObservationQuery)

/-- The filters that cannot be proven per packet, with whether they are given. -/
def observed : List (String × Bool) :=
  [("range", query.range.isSome), ("protocol", query.protocol.isSome),
    ("interface", query.interface.isSome), ("domain", query.domain.isSome),
    ("country", query.country.isSome), ("asn", query.asn.isSome),
    ("organization", query.organization.isSome), ("scope", !query.scope.isEmpty),
    ("exclude_scope", !query.excludeScope.isEmpty), ("state", query.state.isSome),
    ("has_domain", query.hasDomain.isSome), ("evidence", query.evidence.isSome),
    ("confidence", query.confidence.isSome), ("hide_noise", query.hideNoise.isSome),
    ("q", query.q.isSome), ("sort", query.sort.isSome), ("limit", query.limit.isSome),
    ("offset", query.offset.isSome)]

def unsupported : List String := (query.observed.filter Prod.snd).map Prod.fst

def addresses : List IpAddr := [query.ip, query.srcIp, query.dstIp].reduceOption

end ObservationQuery

def Selector.tryFrom (query : ObservationQuery) : Except UnsupportedQuery Selector :=
  if query.unsupported ≠ [] then
    .error ⟨query.unsupported, "these filters cannot be proven per packet"⟩
  else if 1 < query.addresses.length then
    .error ⟨["ip", "src_ip", "dst_ip"], "only one address filter can become a selector"⟩
  else
    let address := query.addresses.head?
    if query.port.isSome && address.isNone then
      .error ⟨["port"], "a port filter needs an address filter"⟩
    else
      -- The direction is no part of a selector: callers map it onto that of the rule.
      match address.map fun address => Selector.endpoint address query.port,
          query.applicationId.map Selector.application with
      | some selector, none => .ok selector
      | none, some selector => .ok selector
      | some _, some _ =>
        .error ⟨["ip", "application_id"],
          "an endpoint and an application cannot compose in this phase"⟩
      | none, none => .error ⟨[], "the query has no enforceable filter"⟩

/-! ## Fields -/

/-- The fields of a query. -/
inductive QueryField
  | q | range | start | endAt | direction | protocol | interface | service | ip | srcIp | dstIp | port
  | domain | applicationId | country | asn | organization | scope | excludeScope | state | hasDomain
  | evidence | confidence | hideNoise | sort | limit | offset
  deriving DecidableEq, Repr

namespace QueryField

/-- The name of a field in a request. -/
def name : QueryField → String
  | q => "q"
  | range => "range"
  | start => "start"
  | endAt => "end"
  | direction => "direction"
  | protocol => "protocol"
  | interface => "interface"
  | service => "service"
  | ip => "ip"
  | srcIp => "src_ip"
  | dstIp => "dst_ip"
  | port => "port"
  | domain => "domain"
  | applicationId => "application_id"
  | country => "country"
  | asn => "asn"
  | organization => "organization"
  | scope => "scope"
  | excludeScope => "exclude_scope"
  | state => "state"
  | hasDomain => "has_domain"
  | evidence => "evidence"
  | confidence => "confidence"
  | hideNoise => "hide_noise"
  | sort => "sort"
  | limit => "limit"
  | offset => "offset"

/-- The query gives the field. -/
def isSet (query : ObservationQuery) : QueryField → Bool
  | q => query.q.isSome
  | range => query.range.isSome
  | start => query.start.isSome
  | endAt => query.endAt.isSome
  | direction => query.direction.isSome
  | protocol => query.protocol.isSome
  | interface => query.interface.isSome
  | service => query.service.isSome
  | ip => query.ip.isSome
  | srcIp => query.srcIp.isSome
  | dstIp => query.dstIp.isSome
  | port => query.port.isSome
  | domain => query.domain.isSome
  | applicationId => query.applicationId.isSome
  | country => query.country.isSome
  | asn => query.asn.isSome
  | organization => query.organization.isSome
  | scope => !query.scope.isEmpty
  | excludeScope => !query.excludeScope.isEmpty
  | state => query.state.isSome
  | hasDomain => query.hasDomain.isSome
  | evidence => query.evidence.isSome
  | confidence => query.confidence.isSome
  | hideNoise => query.hideNoise.isSome
  | sort => query.sort.isSome
  | limit => query.limit.isSome
  | offset => query.offset.isSome

/-- The fields that a rule has a place for: its direction or its selector. -/
def enforceable : List QueryField := [direction, ip, srcIp, dstIp, port, applicationId]

/-- The fields that lowering does not look at. -/
def overlooked : List QueryField := [start, endAt, service]

end QueryField

/-! ## Selectors and rows -/

namespace Selector

def address : Selector → Option IpAddr
  | endpoint address _ => some address
  | _ => none

def port : Selector → Option UInt16
  | endpoint _ port => port
  | _ => none

def applicationId : Selector → Option String
  | application id => some id
  | _ => none

/-- The selector has the value that the query gives for a field. -/
def Represents (selector : Selector) (query : ObservationQuery) : QueryField → Prop
  | .ip => selector.address = query.ip
  | .srcIp => selector.address = query.srcIp
  | .dstIp => selector.address = query.dstIp
  | .port => selector.port = query.port
  | .applicationId => selector.applicationId = query.applicationId
  | _ => False

/-- The flow of a row is traffic of the selector. -/
def Selects (row : FlowRow) : Selector → Prop
  | endpoint address port =>
    row.remote.address = address ∧ (port = none ∨ row.remote.port = port)
  | cidr (.v4 network) prefixLen => ∃ remote, row.remote.address = .v4 remote ∧
      (addrBits network.octets).take prefixLen = (addrBits remote.octets).take prefixLen
  | cidr (.v6 _) _ => False
  | application id => row.appId = some id

/-- Of addresses, what is selected is what rules cover. -/
theorem covers_iff_selects (ev : Evidence) (owner : Option OwnerValue) {row : FlowRow}
    {remote : Ipv4Addr × UInt16} (haddress : row.remote.address = .v4 remote.1)
    (hport : row.remote.port = some remote.2) {selector : Selector}
    (h : selector.applicationId = none) :
    selector.covers ev owner remote = true ↔ selector.Selects row := by
  cases selector with
  | endpoint address port =>
    simp only [covers, Selects, haddress, hport, Bool.and_eq_true, Bool.or_eq_true, decide_eq_true_eq]
    exact and_congr eq_comm (or_congr_right eq_comm)
  | cidr address prefixLen =>
    cases address with
    | v4 network =>
      simp only [covers, Selects, haddress, decide_eq_true_eq, IpAddr.v4.injEq, exists_eq_left']
    | v6 _ => simp only [covers, Selects, Bool.false_eq_true]
  | application id => cases h

end Selector

/-- The same flow seen in the other direction. -/
def FlowRow.reversed (row : FlowRow) : FlowRow where
  __ := row
  key := {
    row.key with
    source := row.key.destination
    destination := row.key.source
    direction := match row.key.direction with
      | .inbound => .outbound
      | .outbound => .inbound }

/-- The view shows the row. -/
def FlowQuery.Admits (query : FlowQuery) (now : SystemTime) (id : UInt64) (row : FlowRow) : Prop :=
  ∃ clauses, query.clauses now true = .ok clauses ∧ ∀ clause ∈ clauses, clause id row = true

namespace ObservationQuery

/-- The view without its direction. -/
def undirected (query : ObservationQuery) : FlowQuery := { query.toFlowQuery with direction := none }

/-- No filter is dropped: a selector stands for every field but the direction and selects only flows
that the view shows, up to their direction; an error names every field that no rule has a place
for. -/
def KeepsFilters (query : ObservationQuery) : Except UnsupportedQuery Selector → Prop
  | .ok selector =>
    (∀ field : QueryField, field.isSet query = true →
      field = .direction ∨ selector.Represents query field) ∧
    ∀ now id row, row.remote = remoteEndpoint row.key → selector.Selects row →
      query.undirected.Admits now id row ∨ query.undirected.Admits now id row.reversed
  | .error e => ∀ field : QueryField, field.isSet query = true →
      field ∈ QueryField.enforceable ∨ field.name ∈ e.fields

/-! ## The list of filters -/

variable {query : ObservationQuery}

theorem mem_unsupported {name : String} :
    name ∈ query.unsupported ↔ (name, true) ∈ query.observed := by
  unfold unsupported
  simp only [List.mem_map, List.mem_filter, Prod.exists]
  constructor
  · rintro ⟨_, _, ⟨hmem, rfl⟩, rfl⟩
    exact hmem
  · intro hmem
    exact ⟨name, true, ⟨hmem, rfl⟩, rfl⟩

theorem mem_unsupported_of_isSet {field : QueryField} (h : field.isSet query = true)
    (henforceable : field ∉ QueryField.enforceable) (hoverlooked : field ∉ QueryField.overlooked) :
    field.name ∈ query.unsupported := by
  rw [mem_unsupported, ← h]
  cases field <;>
    first
      | exact absurd (by decide) henforceable
      | exact absurd (by decide) hoverlooked
      | simp only [observed, QueryField.name, QueryField.isSet, List.mem_cons, true_or, or_true]

/-- The ways lowering fails. -/
theorem tryFrom_eq_error {e : UnsupportedQuery} (h : Selector.tryFrom query = .error e) :
    (query.unsupported ≠ [] ∧ e.fields = query.unsupported) ∨
      (query.unsupported = [] ∧ e.fields ⊆ ["ip", "src_ip", "dst_ip", "port", "application_id"]) := by
  unfold Selector.tryFrom at h
  split at h
  next hne => exact Or.inl ⟨hne, congrArg UnsupportedQuery.fields (Except.error.inj h).symm⟩
  next hnil =>
    refine Or.inr ⟨not_not.mp hnil, ?_⟩
    split at h
    next => exact Except.error.inj h ▸ by decide
    next =>
      dsimp only at h
      split at h
      next => exact Except.error.inj h ▸ by decide
      next =>
        split at h
        · cases h
        · cases h
        · exact Except.error.inj h ▸ by decide
        · exact Except.error.inj h ▸ List.nil_subset _

/-- The ways lowering succeeds. -/
theorem tryFrom_eq_ok {selector : Selector} (h : Selector.tryFrom query = .ok selector) :
    query.unsupported = [] ∧
      ((∃ address, query.addresses = [address] ∧ query.applicationId = none ∧
          selector = .endpoint address query.port) ∨
        ∃ id, query.addresses = [] ∧ query.port = none ∧ query.applicationId = some id ∧
          selector = .application id) := by
  unfold Selector.tryFrom at h
  split at h
  next => cases h
  next hnil =>
    refine ⟨not_not.mp hnil, ?_⟩
    split at h
    next => cases h
    next hlength =>
      dsimp only at h
      split at h
      next => cases h
      next hport =>
        cases haddresses : query.addresses with
        | nil =>
          rw [haddresses] at h hport
          cases happlication : query.applicationId with
          | none =>
            rw [happlication] at h
            cases h
          | some id =>
            rw [happlication] at h
            exact Or.inr ⟨id, rfl, by simpa using hport, rfl, (Except.ok.inj h).symm⟩
        | cons address rest =>
          have hrest : rest = [] := by
            rw [haddresses, List.length_cons] at hlength
            exact List.eq_nil_of_length_eq_zero (by omega)
          rw [haddresses] at h
          cases happlication : query.applicationId with
          | none =>
            rw [happlication] at h
            exact Or.inl ⟨address, by rw [hrest], rfl, (Except.ok.inj h).symm⟩
          | some id =>
            rw [happlication] at h
            cases h

theorem name_notMem_observed {field : QueryField} (h : field ∈ QueryField.overlooked) :
    field.name ∉ query.observed.map Prod.fst ∧
      field.name ∉ ["ip", "src_ip", "dst_ip", "port", "application_id"] := by
  simp only [QueryField.overlooked, List.mem_cons, List.not_mem_nil, or_false] at h
  rcases h with rfl | rfl | rfl <;>
    exact ⟨by simp [observed, QueryField.name], by decide⟩

/-- An error names no field that lowering does not look at. -/
theorem name_notMem_fields {e : UnsupportedQuery} (h : Selector.tryFrom query = .error e)
    {field : QueryField} (hoverlooked : field ∈ QueryField.overlooked) : field.name ∉ e.fields := by
  intro hmem
  obtain ⟨hobserved, hothers⟩ := @name_notMem_observed query _ hoverlooked
  rcases tryFrom_eq_error h with ⟨-, hfields⟩ | ⟨-, hfields⟩
  · rw [hfields, mem_unsupported] at hmem
    exact hobserved (List.mem_map_of_mem hmem)
  · exact hothers (hfields hmem)

/-! ## Selectors -/

theorem isSet_of_unsupported_eq_nil (hnil : query.unsupported = [])
    (hunset : ∀ field ∈ QueryField.overlooked, field.isSet query = false) {field : QueryField}
    (h : field.isSet query = true) : field ∈ QueryField.enforceable := by
  by_contra henforceable
  by_cases hoverlooked : field ∈ QueryField.overlooked
  · rw [hunset field hoverlooked] at h
    cases h
  · have hmem := mem_unsupported_of_isSet h henforceable hoverlooked
    rw [hnil] at hmem
    cases hmem

theorem mem_addresses {address : IpAddr} : address ∈ query.addresses ↔
    query.ip = some address ∨ query.srcIp = some address ∨ query.dstIp = some address := by
  unfold addresses
  rw [List.reduceOption_mem_iff]
  simp only [List.mem_cons, List.not_mem_nil, or_false, eq_comm]

theorem two_le_length_addresses {source destination : IpAddr} (hsource : query.srcIp = some source)
    (hdestination : query.dstIp = some destination) : 2 ≤ query.addresses.length := by
  unfold addresses
  rw [hsource, hdestination]
  cases query.ip with
  | none => exact le_refl 2
  | some ip => exact Nat.le_succ 2

/-- The selector has every field that a rule has a place for. -/
theorem represents_of_tryFrom {selector : Selector} (h : Selector.tryFrom query = .ok selector)
    {field : QueryField} (henforceable : field ∈ QueryField.enforceable) (hset : field.isSet query = true) :
    field = .direction ∨ selector.Represents query field := by
  have haddress : ∀ {value : Option IpAddr}, value.isSome = true →
      (∀ address, value = some address → address ∈ query.addresses) → selector.address = value := by
    intro value hsome hmem
    obtain ⟨address, rfl⟩ := Option.isSome_iff_exists.mp hsome
    have hmem := hmem address rfl
    rcases (tryFrom_eq_ok h).2 with ⟨address', haddresses, -, rfl⟩ | ⟨_, haddresses, -⟩
    · rw [haddresses, List.mem_singleton] at hmem
      rw [hmem, Selector.address]
    · rw [haddresses] at hmem
      cases hmem
  simp only [QueryField.enforceable, List.mem_cons, List.not_mem_nil, or_false] at henforceable
  rcases henforceable with rfl | rfl | rfl | rfl | rfl | rfl
  · exact Or.inl rfl
  · exact Or.inr (haddress hset fun _ hip => mem_addresses.mpr (Or.inl hip))
  · exact Or.inr (haddress hset fun _ hip => mem_addresses.mpr (Or.inr (Or.inl hip)))
  · exact Or.inr (haddress hset fun _ hip => mem_addresses.mpr (Or.inr (Or.inr hip)))
  · rcases (tryFrom_eq_ok h).2 with ⟨_, -, -, rfl⟩ | ⟨_, -, hport, -⟩
    · exact Or.inr rfl
    · rw [QueryField.isSet, hport] at hset
      cases hset
  · rcases (tryFrom_eq_ok h).2 with ⟨_, -, happlication, -⟩ | ⟨_, -, -, happlication, rfl⟩
    · rw [QueryField.isSet, happlication] at hset
      cases hset
    · exact Or.inr happlication.symm

/-- What is left of a view that lowers: its addresses, its port and its application. -/
theorem clauses_undirected
    (hset : ∀ field : QueryField, field.isSet query = true → field ∈ QueryField.enforceable)
    (now : SystemTime) :
    query.undirected.clauses now true = .ok (List.flatten [
      given query.ip fun ip _ row =>
        row.key.source.address = ip || row.key.destination.address = ip,
      given query.srcIp fun ip _ row => row.key.source.address = ip,
      given query.dstIp fun ip _ row => row.key.destination.address = ip,
      given query.port fun port _ row =>
        row.key.source.port = some port || row.key.destination.port = some port,
      given query.applicationId fun id _ row => row.appId = some id]) := by
  have hnone : ∀ {α : Type} {value : Option α} (field : QueryField),
      field.isSet query = value.isSome → field ∉ QueryField.enforceable → value = none := by
    intro α value field heq henforceable
    by_contra hne
    exact henforceable (hset field (heq.trans (Option.isSome_iff_ne_none.mpr hne)))
  have hempty : ∀ {α : Type} {value : List α} (field : QueryField),
      field.isSet query = !value.isEmpty → field ∉ QueryField.enforceable → value = [] := by
    intro α value field heq henforceable
    by_contra hne
    exact henforceable (hset field (heq.trans (by simpa using hne)))
  have hq : query.q = none := hnone .q rfl (by decide)
  have hrange : query.range = none := hnone .range rfl (by decide)
  have hstart : query.start = none := hnone .start rfl (by decide)
  have hend : query.endAt = none := hnone .endAt rfl (by decide)
  have hprotocol : query.protocol = none := hnone .protocol rfl (by decide)
  have hinterface : query.interface = none := hnone .interface rfl (by decide)
  have hservice : query.service = none := hnone .service rfl (by decide)
  have hdomain : query.domain = none := hnone .domain rfl (by decide)
  have hcountry : query.country = none := hnone .country rfl (by decide)
  have hasn : query.asn = none := hnone .asn rfl (by decide)
  have horganization : query.organization = none := hnone .organization rfl (by decide)
  have hscope : query.scope = [] := hempty .scope rfl (by decide)
  have hexclude : query.excludeScope = [] := hempty .excludeScope rfl (by decide)
  have hstate : query.state = none := hnone .state rfl (by decide)
  have hhas : query.hasDomain = none := hnone .hasDomain rfl (by decide)
  have hevidence : query.evidence = none := hnone .evidence rfl (by decide)
  have hconfidence : query.confidence = none := hnone .confidence rfl (by decide)
  simp only [FlowQuery.clauses, FlowQuery.windowClauses, FlowQuery.associationClauses, undirected, hq,
    hrange, hstart, hend, hprotocol, hinterface, hservice, hdomain, hcountry, hasn, horganization,
    hscope, hexclude, hstate, hhas, hevidence, hconfidence]
  rfl

theorem admits_undirected_iff
    (hset : ∀ field : QueryField, field.isSet query = true → field ∈ QueryField.enforceable)
    {now : SystemTime} {id : UInt64} {row : FlowRow} :
    query.undirected.Admits now id row ↔
      (∀ ip, query.ip = some ip → row.key.source.address = ip ∨ row.key.destination.address = ip) ∧
      (∀ ip, query.srcIp = some ip → row.key.source.address = ip) ∧
      (∀ ip, query.dstIp = some ip → row.key.destination.address = ip) ∧
      (∀ port, query.port = some port →
        row.key.source.port = some port ∨ row.key.destination.port = some port) ∧
      ∀ application, query.applicationId = some application → row.appId = some application := by
  unfold FlowQuery.Admits
  rw [clauses_undirected hset]
  simp only [given, Except.ok.injEq, exists_eq_left', List.flatten_cons, List.flatten_nil,
    List.append_nil, List.forall_mem_append, List.forall_mem_map, Option.mem_toList,
    Bool.or_eq_true, decide_eq_true_eq]

/-- One of the two directions has the remote as its source, the other as its destination. -/
theorem exists_oriented {row : FlowRow} (hremote : row.remote = remoteEndpoint row.key)
    (source : Bool) : ∃ row', (row' = row ∨ row' = row.reversed) ∧
      (if source then row'.key.source else row'.key.destination) = row.remote := by
  cases hdirection : row.key.direction with
  | inbound =>
    have hsource : row.remote = row.key.source := by rw [hremote, remoteEndpoint, hdirection]
    cases source with
    | true => exact ⟨row, Or.inl rfl, hsource.symm⟩
    | false => exact ⟨row.reversed, Or.inr rfl, hsource.symm⟩
  | outbound =>
    have hdestination : row.remote = row.key.destination := by
      rw [hremote, remoteEndpoint, hdirection]
    cases source with
    | true => exact ⟨row.reversed, Or.inr rfl, hdestination.symm⟩
    | false => exact ⟨row, Or.inl rfl, hdestination.symm⟩

/-- A view of one address shows one direction of each of its connections. -/
theorem admits_of_address {address : IpAddr} (haddresses : query.addresses = [address])
    (happlication : query.applicationId = none)
    (hset : ∀ field : QueryField, field.isSet query = true → field ∈ QueryField.enforceable)
    {now : SystemTime} {id : UInt64} {row : FlowRow} (hremote : row.remote = remoteEndpoint row.key)
    (hselects : (Selector.endpoint address query.port).Selects row) :
    ∃ row', (row' = row ∨ row' = row.reversed) ∧ query.undirected.Admits now id row' := by
  obtain ⟨row', hrow', hside⟩ := exists_oriented hremote query.srcIp.isSome
  have hone : ∀ ip, ip ∈ query.addresses → row.remote.address = ip := by
    intro ip hip
    rw [haddresses, List.mem_singleton] at hip
    rw [hip]
    exact hselects.1
  refine ⟨row', hrow', (admits_undirected_iff hset).mpr ⟨?_, ?_, ?_, ?_, ?_⟩⟩
  · intro ip hip
    rw [← hone ip (mem_addresses.mpr (Or.inl hip)), ← hside]
    split
    · exact Or.inl rfl
    · exact Or.inr rfl
  · intro ip hip
    rw [hip, Option.isSome_some, if_pos rfl] at hside
    rw [hside]
    exact hone ip (mem_addresses.mpr (Or.inr (Or.inl hip)))
  · intro ip hip
    have hnone : query.srcIp = none := by
      by_contra hsource
      obtain ⟨source, hsource⟩ := Option.ne_none_iff_exists'.mp hsource
      have hlength := two_le_length_addresses hsource hip
      rw [haddresses, List.length_singleton] at hlength
      exact absurd hlength (by decide)
    rw [hnone, Option.isSome_none, if_neg Bool.false_ne_true] at hside
    rw [hside]
    exact hone ip (mem_addresses.mpr (Or.inr (Or.inr hip)))
  · intro port hport
    rw [← (hselects.2.resolve_left (by rw [hport]; exact Option.some_ne_none port)).trans hport,
      ← hside]
    split
    · exact Or.inl rfl
    · exact Or.inr rfl
  · intro application hset
    rw [happlication] at hset
    cases hset

/-- A view of an application shows both. -/
theorem admits_of_application {application : String} (haddresses : query.addresses = [])
    (hport : query.port = none) (happlication : query.applicationId = some application)
    (hset : ∀ field : QueryField, field.isSet query = true → field ∈ QueryField.enforceable)
    {now : SystemTime} {id : UInt64} {row : FlowRow} (hselects : row.appId = some application) :
    query.undirected.Admits now id row := by
  have hunset : ∀ {address : IpAddr}, address ∉ query.addresses := by
    intro address
    rw [haddresses]
    exact List.not_mem_nil
  refine (admits_undirected_iff hset).mpr ⟨?_, ?_, ?_, ?_, ?_⟩
  · intro ip hip
    exact absurd (mem_addresses.mpr (Or.inl hip)) hunset
  · intro ip hip
    exact absurd (mem_addresses.mpr (Or.inr (Or.inl hip))) hunset
  · intro ip hip
    exact absurd (mem_addresses.mpr (Or.inr (Or.inr hip))) hunset
  · intro port hset
    rw [hport] at hset
    cases hset
  · intro application' hset
    rw [happlication, Option.some.injEq] at hset
    rw [← hset]
    exact hselects

/-- The selector of a view selects what the view shows, up to the direction. -/
theorem admits_of_tryFrom {selector : Selector} (h : Selector.tryFrom query = .ok selector)
    (hset : ∀ field : QueryField, field.isSet query = true → field ∈ QueryField.enforceable)
    {now : SystemTime} {id : UInt64} {row : FlowRow} (hremote : row.remote = remoteEndpoint row.key)
    (hselects : selector.Selects row) :
    query.undirected.Admits now id row ∨ query.undirected.Admits now id row.reversed := by
  rcases (tryFrom_eq_ok h).2 with ⟨address, haddresses, happlication, rfl⟩ |
    ⟨application, haddresses, hport, happlication, rfl⟩
  · obtain ⟨row', rfl | rfl, hadmits⟩ :=
      admits_of_address haddresses happlication hset hremote hselects
    · exact Or.inl hadmits
    · exact Or.inr hadmits
  · exact Or.inl (admits_of_application haddresses hport happlication hset hselects)

end ObservationQuery

/-- The SSH connections of one address. -/
def sshView : ObservationQuery :=
  { ip := some (.v4 (.new 203 0 113 9)), service := some "SSH" }

end ZimaScope
