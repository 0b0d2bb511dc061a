import ZimaScope.Api.Lists
import ZimaScope.Db.Histories

/-! # Connections

The directional flows of one unordered endpoint pair, merged into one record.
Most filters are tried on the flows before they are merged, the service and the
state on the record.
-/

namespace ZimaScope

/-! ## Pairs -/

/-- `src_addr || ':' || COALESCE(src_port, -1)`. -/
def connectionSide (endpoint : Endpoint) : String :=
  endpoint.address.toString ++ ":" ++ (portText endpoint).getD "-1"

/-- What the rows of a connection have in common. -/
structure ConnectionKey where
  protocol : TransportProtocol
  ifindex : ℤ
  pairLo : String
  pairHi : String
  deriving DecidableEq, Repr

def FlowRow.connectionKey (row : FlowRow) : ConnectionKey where
  protocol := row.key.protocol
  ifindex := row.key.ifindex
  pairLo := min (connectionSide row.key.source) (connectionSide row.key.destination)
  pairHi := max (connectionSide row.key.source) (connectionSide row.key.destination)

def fnv1a (bytes : List UInt8) : UInt64 :=
  bytes.foldl (fun hash byte => (hash ^^^ byte.toUInt64) * 0x100000001b3) 0xcbf29ce484222325

/-- `to_le_bytes`. -/
def leBytes (value : ℤ) : List UInt8 :=
  (List.range 8).map fun i => UInt8.ofNat (asU64 value / 256 ^ i)

/-- Stable derived id for an unordered endpoint pair. -/
def connectionId (key : ConnectionKey) : String :=
  hex16 (fnv1a (textBytes key.protocol.value ++ leBytes key.ifindex ++ textBytes key.pairLo ++ [0] ++
    textBytes key.pairHi))

/-! ## Records -/

def pushDomain (domains : List DomainRefDto) (association : DomainRefDto) : List DomainRefDto :=
  if domains.any fun existing => existing.domain = association.domain then
    domains.map fun existing =>
      if existing.domain = association.domain then
        { existing with
          evidence := if evidenceRank existing.evidence < evidenceRank association.evidence then
            association.evidence else existing.evidence
          confidence := if association.confidence = .direct then .direct else existing.confidence }
      else existing
  else domains ++ [association]

/-- The associations of all rows, one for a domain, by domain. -/
def mergedDomains (rows : List FlowRow) : List DomainRefDto :=
  ((rows.flatMap FlowRow.domainsJson).foldl pushDomain []).insertionSort
    fun left right => left.domain ≤ right.domain

/-- Names a protocol from parsed TLS/HTTP evidence. -/
def evidenceService (domains : List DomainRefDto) : Option String :=
  domains.findSome? fun association =>
    match association.evidence with
    | .tlsSni => some "TLS"
    | .httpHost => some "HTTP"
    | .dns => none

structure ConnectionEndpoint where
  address : String
  port : Option UInt16
  deriving DecidableEq, Repr

structure ConnectionDto where
  id : String
  protocol : TransportProtocol
  service : Option String
  state : FlowStateDto
  endReason : Option EndReason
  host : ConnectionEndpoint
  remote : ConnectionEndpoint
  remoteProfile : IpProfile
  interface : Option String
  packets : ℕ
  bytes : ℕ
  inboundBps : ℕ
  outboundBps : ℕ
  traffic : DirectionTotalsDto
  firstSeen : ℤ
  lastSeen : ℤ
  durationMs : ℕ
  domains : List DomainRefDto
  application : Option ApplicationRefDto
  unattributedReason : Option UnattributedReason
  deriving DecidableEq

/-- The side of a flow that is the device's own. -/
def FlowRow.host (row : FlowRow) : Endpoint :=
  if row.key.direction = .outbound then row.key.source else row.key.destination

def activeRows (rows : List FlowRow) : ℕ := rows.countP fun row => row.state.dto = .active

def maxEndReason (rows : List FlowRow) : Option EndReason :=
  (sqlMax rows fun row => row.state.endReason.map EndReason.value).bind fun value =>
    [EndReason.idleTimeout, .tcpFin, .tcpReset, .evictedOrUnknown].find? fun reason =>
      reason.value = value

/-- `COALESCE(MAX(CASE WHEN direction = 'outbound' THEN app_id END), MAX(app_id))`. -/
def connectionAppId (rows : List FlowRow) : Option String :=
  (sqlMax rows fun row => if row.key.direction = .outbound then row.appId else none).or
    (sqlMax rows FlowRow.appId)

/-- The application of a connection, by its id. -/
def applicationRefDto (applications : Table String ApplicationRow) (id : String) : ApplicationRefDto :=
  match applications.find id with
  | none => ⟨id, id, "process"⟩
  | some application =>
    { id
      name := if application.name = "" then id else application.name
      kind := if application.kind = "container" then "container" else "process" }

def firstSeenMs (rows : List FlowRow) : ℤ := (sqlMin rows fun row => some row.firstSeenMs).getD 0

def lastSeenMs (rows : List FlowRow) : ℤ := (sqlMax rows fun row => some row.lastSeenMs).getD 0

/-- Inbound LAN multicast or broadcast without an application. -/
def connectionUnattributed (rows : List FlowRow) : Option UnattributedReason :=
  if (connectionAppId rows).isNone && rows.any fun row =>
      row.key.direction = .inbound ∧ (row.dstScope = some .multicast ∨ row.dstScope = some .broadcast)
  then some .lanBroadcast
  else none

/-- The record of a connection, from the rows of it that were selected. -/
def connectionRecord (applications : Table String ApplicationRow) (rates : Rates)
    (group : ConnectionKey × List IdRow) : ConnectionDto :=
  let rows := group.2.map Prod.snd
  let id := connectionId group.1
  let domains := mergedDomains rows
  let remoteAddress := (sqlMax rows fun row => some row.remote.address.toString).getD ""
  { id
    protocol := group.1.protocol
    service := (sqlMax rows FlowRow.service).or (evidenceService domains)
    state := if 0 < activeRows rows then .active else .ended
    endReason := maxEndReason rows
    host := {
      address := (sqlMax rows fun row => some row.host.address.toString).getD ""
      port := sqlMax rows fun row => row.host.port }
    remote := {
      address := remoteAddress
      port := sqlMax rows fun row => row.remote.port }
    remoteProfile := {
      scope := maxScope rows
      country := sqlMax rows fun row => row.profile.country
      region := sqlMax rows fun row => row.profile.region
      cityApproximate := sqlMax rows fun row => row.profile.cityApproximate
      asn := sqlMax rows fun row => row.profile.asn
      organization := sqlMax rows fun row => row.profile.organization
      databaseVersion := sqlMax rows fun row => row.profile.databaseVersion
      enrichedAt := (sqlMax rows fun row => some row.profile.enrichedAt).getD 0 }
    interface := sqlMax rows FlowRow.interface
    packets := asU64 (sqlSum rows FlowRow.packets)
    bytes := asU64 (sqlSum rows FlowRow.bytes)
    inboundBps := (rates.of (.connection id)).1
    outboundBps := (rates.of (.connection id)).2
    traffic := trafficTotals rows
    firstSeen := firstSeenMs rows
    lastSeen := lastSeenMs rows
    durationMs := (lastSeenMs rows - firstSeenMs rows).toNat
    domains
    application := (connectionAppId rows).map (applicationRefDto applications)
    unattributedReason := connectionUnattributed rows }

/-! ## Queries -/

/-- The parameters of a list of connections. -/
structure ConnectionQuery extends FlowQuery where
  hideNoise : Option Bool := none

namespace ConnectionQuery

variable (query : ConnectionQuery)

/-- What is tried on the directional rows. -/
def rowQuery : FlowQuery := { query.toFlowQuery with direction := none, state := none, service := none }

/-- `HAVING`. -/
def having (rows : List FlowRow) : Bool :=
  (query.service.all fun service => eqNoCase (sqlMax rows FlowRow.service) service) &&
    (query.state.all fun state => match state with
      | .active => decide (0 < activeRows rows)
      | .ended => decide (activeRows rows = 0)) &&
    (!query.hideNoise.getD false ||
      (rows.all fun row => row.key.source.port ≠ some 53 ∧ row.key.destination.port ≠ some 53) &&
        decide (1000 ≤ lastSeenMs rows - firstSeenMs rows))

/-- The query without its filters on the record. -/
def others : ConnectionQuery := { query with service := none, state := none }

end ConnectionQuery

/-- The groups that `Db::list_connections` selects, not yet ordered and cut into pages. -/
def Tables.connectionRows (t : Tables) (query : ConnectionQuery) (now : SystemTime) :
    Except ApiError (List (ConnectionKey × List IdRow)) :=
  (query.rowQuery.clauses now true).map fun clauses =>
    (groupBy (fun r => r.2.connectionKey) (t.flowsWhere clauses)).filter fun group =>
      query.having (group.2.map Prod.snd)

def Tables.connections (t : Tables) (rates : Rates) (query : ConnectionQuery) (now : SystemTime) :
    Except ApiError (List ConnectionDto) :=
  (t.connectionRows query now).map fun rows => rows.map (connectionRecord t.applications rates)

/-! ## What a list of connections promises -/

/-- The rows of one connection. -/
def rowsOf (key : ConnectionKey) (rows : List IdRow) : List IdRow :=
  rows.filter fun r => r.2.connectionKey = key

namespace ConnectionQuery

variable (query : ConnectionQuery)

/-- The connection is selected from the rows that pass the filters on rows. -/
def Lists (passing : List IdRow) (key : ConnectionKey) : Prop :=
  rowsOf key passing ≠ [] ∧ query.having ((rowsOf key passing).map Prod.snd) = true

/-- The service that is shown is the one asked for, and so is the state. -/
def fits (connection : ConnectionDto) : Bool :=
  (query.service.all fun service => eqNoCase connection.service service) &&
    query.state.all fun state => connection.state = state

/-- The flows of a connection that is listed pass the filters on rows, or none of them does. -/
def SelectsWhole (t : Tables) (passing : List IdRow) : Prop :=
  ∀ key, query.Lists passing key → ∀ r ∈ t.flows.rows, r.2.connectionKey = key → r ∈ passing

/-- No connection without a stored service is shown under the one asked for. -/
def ServiceStored (passing : List IdRow) : Prop :=
  ∀ key, { query with service := none }.Lists passing key →
    sqlMax ((rowsOf key passing).map Prod.snd) FlowRow.service = none →
      ∀ service ∈ query.service,
        eqNoCase (evidenceService (mergedDomains ((rowsOf key passing).map Prod.snd))) service = false

end ConnectionQuery

abbrev ConnectionGroup := ConnectionKey × List IdRow

section Promise

variable (t : Tables) (rates : Rates)

/-- Every record is that of all flows of its pair. -/
def RecordsWhole (groups : List ConnectionGroup) : Prop :=
  ∀ group ∈ groups, connectionRecord t.applications rates group =
    connectionRecord t.applications rates (group.1, rowsOf group.1 t.flows.rows)

/-- Two lists have the records of whole connections, and the same one of the same connection. -/
structure ConnectionsWhole (as bs : List ConnectionGroup) : Prop where
  first : RecordsWhole t rates as
  second : RecordsWhole t rates bs
  agree : ∀ a ∈ as, ∀ b ∈ bs,
    (connectionRecord t.applications rates a).id = (connectionRecord t.applications rates b).id →
      connectionRecord t.applications rates a = connectionRecord t.applications rates b

/-- Every flow has counted a packet. -/
structure Counted : Prop where
  packets : ∀ r ∈ t.flows.rows, 0 < r.2.packets
  fits : sqlSum t.flows.rows (fun r => r.2.packets) < 2 ^ 64

end Promise

section Groups

variable {t : Tables} {rates : Rates} {query : ConnectionQuery} {now : SystemTime}
  {clauses : List FlowClause} {group : ConnectionGroup} {key : ConnectionKey}

theorem rowsOf_ne_nil_iff {rows : List IdRow} :
    rowsOf key rows ≠ [] ↔ ∃ r ∈ rows, r.2.connectionKey = key := by
  unfold rowsOf
  simp [List.filter_eq_nil_iff]

theorem mem_connectionGroups {passing : List IdRow} :
    group ∈ ((groupBy (fun r => r.2.connectionKey) passing).filter fun group =>
      query.having (group.2.map Prod.snd)) ↔
        query.Lists passing group.1 ∧ group.2 = rowsOf group.1 passing := by
  rw [List.mem_filter, mem_groupBy, ConnectionQuery.Lists, rowsOf_ne_nil_iff]
  constructor
  · rintro ⟨⟨hkey, hrows⟩, hhaving⟩
    rw [hrows] at hhaving
    exact ⟨⟨hkey, hhaving⟩, hrows⟩
  · rintro ⟨⟨hkey, hhaving⟩, hrows⟩
    constructor
    · exact ⟨hkey, hrows⟩
    · rw [hrows]
      exact hhaving

theorem connectionRows_of_clauses (h : query.rowQuery.clauses now true = .ok clauses) :
    t.connectionRows query now = .ok
      ((groupBy (fun r => r.2.connectionKey) (t.flowsWhere clauses)).filter fun group =>
        query.having (group.2.map Prod.snd)) := by
  unfold Tables.connectionRows
  rw [h]
  rfl

theorem mem_connectionRows {groups : List ConnectionGroup}
    (h : query.rowQuery.clauses now true = .ok clauses)
    (hlist : t.connectionRows query now = .ok groups) :
    group ∈ groups ↔ query.Lists (t.flowsWhere clauses) group.1 ∧
      group.2 = rowsOf group.1 (t.flowsWhere clauses) := by
  rw [connectionRows_of_clauses h] at hlist
  obtain rfl := Except.ok.inj hlist
  exact mem_connectionGroups

theorem rowsOf_sublist : (rowsOf key (t.flowsWhere clauses)).Sublist (rowsOf key t.flows.rows) :=
  List.filter_sublist.filter _

theorem rowsOf_eq_of_selectsWhole (h : query.SelectsWhole t (t.flowsWhere clauses))
    (hlists : query.Lists (t.flowsWhere clauses) key) :
    rowsOf key (t.flowsWhere clauses) = rowsOf key t.flows.rows := by
  unfold rowsOf Tables.flowsWhere
  rw [List.filter_filter]
  apply List.filter_congr
  intro r hr
  by_cases hkey : r.2.connectionKey = key
  · have hpass := (List.mem_filter.mp (h key hlists r hr hkey)).2
    simp [hkey, hpass]
  · simp [hkey]

theorem recordsWhole_of_selectsWhole {groups : List ConnectionGroup}
    (hclauses : query.rowQuery.clauses now true = .ok clauses)
    (hlist : t.connectionRows query now = .ok groups)
    (h : query.SelectsWhole t (t.flowsWhere clauses)) : RecordsWhole t rates groups := by
  rintro ⟨key, rows⟩ hgroup
  obtain ⟨hlists, hrows⟩ := (mem_connectionRows hclauses hlist).mp hgroup
  obtain rfl : rows = rowsOf key (t.flowsWhere clauses) := hrows
  rw [rowsOf_eq_of_selectsWhole h hlists]

theorem eq_of_sublist_of_sum {α : Type} {f : α → ℤ} {l l' : List α} (h : l.Sublist l')
    (hpos : ∀ a ∈ l', 0 < f a) (hsum : (l'.map f).sum ≤ (l.map f).sum) : l = l' := by
  induction h with
  | slnil => rfl
  | @cons l l' a h _ =>
    have hle : (l.map f).sum ≤ (l'.map f).sum := by
      apply (h.map f).sum_le_sum
      intro n hn
      obtain ⟨b, hb, rfl⟩ := List.mem_map.mp hn
      exact (hpos b (List.mem_cons_of_mem _ hb)).le
    have ha := hpos a List.mem_cons_self
    rw [List.map_cons, List.sum_cons] at hsum
    omega
  | cons_cons a _ ih =>
    rw [List.map_cons, List.map_cons, List.sum_cons, List.sum_cons] at hsum
    rw [ih (fun b hb => hpos b (List.mem_cons_of_mem _ hb)) (by omega)]

/-- A flow that is left out takes its packets with it. -/
theorem selectsWhole_of_recordsWhole {groups : List ConnectionGroup}
    (hclauses : query.rowQuery.clauses now true = .ok clauses)
    (hlist : t.connectionRows query now = .ok groups) (hcounted : Counted t)
    (h : RecordsWhole t rates groups) : query.SelectsWhole t (t.flowsWhere clauses) := by
  intro key hlists r hr hkey
  have hgroup : (key, rowsOf key (t.flowsWhere clauses)) ∈ groups :=
    (mem_connectionRows hclauses hlist).mpr ⟨hlists, rfl⟩
  have hrecord := h _ hgroup
  have hpackets := congrArg ConnectionDto.packets hrecord
  change asU64 (sqlSum ((rowsOf key (t.flowsWhere clauses)).map Prod.snd) FlowRow.packets) =
    asU64 (sqlSum ((rowsOf key t.flows.rows).map Prod.snd) FlowRow.packets) at hpackets
  have hnonneg : ∀ n ∈ t.flows.rows.map (fun r => r.2.packets), 0 ≤ n := by
    intro n hn
    obtain ⟨r, hr, rfl⟩ := List.mem_map.mp hn
    exact (hcounted.packets r hr).le
  have hbound : ∀ rows : List IdRow, rows.Sublist t.flows.rows →
      asU64 (sqlSum (rows.map Prod.snd) FlowRow.packets) = (rows.map fun r => r.2.packets).sum := by
    intro rows hsub
    have hmap : sqlSum (rows.map Prod.snd) FlowRow.packets = (rows.map fun r => r.2.packets).sum := by
      unfold sqlSum
      rw [List.map_map]
      rfl
    have hle : (rows.map fun r => r.2.packets).sum ≤ (t.flows.rows.map fun r => r.2.packets).sum :=
      (hsub.map fun r => r.2.packets).sum_le_sum hnonneg
    have hge : 0 ≤ (rows.map fun r => r.2.packets).sum :=
      List.sum_nonneg fun n hn => hnonneg n ((hsub.map _).subset hn)
    have hfits : (t.flows.rows.map fun r => r.2.packets).sum < 2 ^ 64 := hcounted.fits
    rw [hmap]
    unfold asU64
    rw [Int.emod_eq_of_lt hge (hle.trans_lt hfits), Int.toNat_of_nonneg hge]
  have hsum : (((rowsOf key t.flows.rows).map fun r => r.2.packets).sum : ℤ) =
      ((rowsOf key (t.flowsWhere clauses)).map fun r => r.2.packets).sum := by
    rw [← hbound (rowsOf key t.flows.rows) List.filter_sublist,
      ← hbound (rowsOf key (t.flowsWhere clauses)) (List.filter_sublist.trans List.filter_sublist),
      hpackets]
  have hrows : rowsOf key (t.flowsWhere clauses) = rowsOf key t.flows.rows :=
    eq_of_sublist_of_sum rowsOf_sublist
      (fun r hr => hcounted.packets r (List.filter_sublist.subset hr)) hsum.le
  have hmem : r ∈ rowsOf key t.flows.rows := List.mem_filter.mpr ⟨hr, decide_eq_true hkey⟩
  rw [← hrows] at hmem
  exact (List.mem_filter.mp hmem).1

variable (t rates key) in
/-- What is shown of a connection that is selected fits, and the other way round if the service is
one that is stored. -/
theorem having_iff_fits {rows : List IdRow} : query.having (rows.map Prod.snd) = true ↔
    query.others.having (rows.map Prod.snd) = true ∧
      query.fits (connectionRecord t.applications rates (key, rows)) = true ∧
      ∀ service ∈ query.service, eqNoCase (sqlMax (rows.map Prod.snd) FlowRow.service) service = true := by
  have hshown : (connectionRecord t.applications rates (key, rows)).service =
      (sqlMax (rows.map Prod.snd) FlowRow.service).or
        (evidenceService (mergedDomains (rows.map Prod.snd))) := rfl
  have hstate : ∀ state : FlowStateDto,
      (match state with
        | .active => decide (0 < activeRows (rows.map Prod.snd))
        | .ended => decide (activeRows (rows.map Prod.snd) = 0)) = true ↔
          (connectionRecord t.applications rates (key, rows)).state = state := by
    intro state
    change _ ↔ (if 0 < activeRows (rows.map Prod.snd) then FlowStateDto.active else .ended) = state
    split_ifs with hactive <;> cases state <;> simp <;> omega
  have hstored : ∀ service, eqNoCase (sqlMax (rows.map Prod.snd) FlowRow.service) service = true →
      eqNoCase (connectionRecord t.applications rates (key, rows)).service service = true := by
    intro service hservice
    rw [hshown]
    cases hmax : sqlMax (rows.map Prod.snd) FlowRow.service with
    | none =>
      rw [hmax] at hservice
      cases hservice
    | some max =>
      rw [hmax] at hservice
      exact hservice
  unfold ConnectionQuery.having ConnectionQuery.fits ConnectionQuery.others
  simp only [Bool.and_eq_true, Option.all_eq_true, hstate, decide_eq_true_eq, Option.all_none,
    true_and]
  constructor
  · rintro ⟨⟨hservice, hstate⟩, hnoise⟩
    exact ⟨hnoise, ⟨fun service h => hstored service (hservice service h), hstate⟩, hservice⟩
  · rintro ⟨hnoise, ⟨-, hstate⟩, hservice⟩
    exact ⟨⟨hservice, hstate⟩, hnoise⟩

theorem filter_eq_filter_of_imp {α : Type} {p q : α → Bool} {l : List α}
    (himp : ∀ a ∈ l, p a = true → q a = true)
    (hlength : (l.filter p).length = (l.filter q).length) : ∀ a ∈ l, q a = true → p a = true := by
  have hsub : (l.filter p).Sublist (l.filter q) := by
    have hboth : l.filter p = (l.filter q).filter p := by
      rw [List.filter_filter]
      apply List.filter_congr
      intro a ha
      cases hp : p a with
      | false => rfl
      | true => simp [himp a ha hp]
    rw [hboth]
    exact List.filter_sublist
  intro a ha hq
  have hmem : a ∈ l.filter q := List.mem_filter.mpr ⟨ha, hq⟩
  rw [← hsub.eq_of_length hlength] at hmem
  exact (List.mem_filter.mp hmem).2

variable (t rates) in
/-- A service is asked for and shown that is not stored. -/
theorem serviceStored_iff {passing : List IdRow} : query.ServiceStored passing ↔
    ∀ group ∈ groupBy (fun r => r.2.connectionKey) passing,
      (query.fits (connectionRecord t.applications rates group) &&
        query.others.having (group.2.map Prod.snd)) = true →
          query.having (group.2.map Prod.snd) = true := by
  have hshown : ∀ rows : List IdRow, ∀ key, sqlMax (rows.map Prod.snd) FlowRow.service = none →
      (connectionRecord t.applications rates (key, rows)).service =
        evidenceService (mergedDomains (rows.map Prod.snd)) := by
    intro rows key hnone
    change (sqlMax (rows.map Prod.snd) FlowRow.service).or _ = _
    rw [hnone]
    rfl
  constructor
  · rintro hstored ⟨key, rows⟩ hgroup hshows
    obtain ⟨hkey, hrows⟩ := mem_groupBy.mp hgroup
    obtain rfl : rows = rowsOf key passing := hrows
    obtain ⟨hfits, hothers⟩ := Bool.and_eq_true_iff.mp hshows
    refine (having_iff_fits t rates key).mpr ⟨hothers, hfits, fun service hservice => ?_⟩
    unfold ConnectionQuery.fits at hfits
    simp only [Bool.and_eq_true, Option.all_eq_true] at hfits
    obtain ⟨hname, hstate⟩ := hfits
    cases hmax : sqlMax ((rowsOf key passing).map Prod.snd) FlowRow.service with
    | some max =>
      have hsame := hname service hservice
      change eqNoCase ((sqlMax ((rowsOf key passing).map Prod.snd) FlowRow.service).or _) service = true
        at hsame
      rw [hmax] at hsame
      exact hsame
    | none =>
      have hlists : { query with service := none }.Lists passing key := by
        refine ⟨rowsOf_ne_nil_iff.mpr hkey, (having_iff_fits t rates key).mpr ⟨hothers, ?_, by simp⟩⟩
        unfold ConnectionQuery.fits
        simp only [Option.all_none, Bool.true_and, Option.all_eq_true]
        exact hstate
      have hfalse := hstored key hlists hmax service hservice
      rw [← hshown _ _ hmax, hname service hservice] at hfalse
      cases hfalse
  · intro h key hlists hnone service hservice
    by_contra htrue
    rw [Bool.not_eq_false] at htrue
    obtain ⟨hrows, hhaving⟩ := hlists
    obtain ⟨hothers, hstate, -⟩ := (having_iff_fits t rates key).mp hhaving
    have hgroup : (key, rowsOf key passing) ∈ groupBy (fun r => r.2.connectionKey) passing :=
      mem_groupBy.mpr ⟨rowsOf_ne_nil_iff.mp hrows, rfl⟩
    have hname : ∀ name ∈ query.service,
        eqNoCase (connectionRecord t.applications rates (key, rowsOf key passing)).service name = true := by
      intro name hname
      obtain rfl : service = name := Option.some.inj (hservice.symm.trans hname)
      rw [hshown _ _ hnone]
      exact htrue
    have hfits : query.fits (connectionRecord t.applications rates (key, rowsOf key passing)) = true := by
      unfold ConnectionQuery.fits at hstate ⊢
      simp only [Option.all_none, Bool.true_and] at hstate
      rw [hstate, Bool.and_true, Option.all_eq_true]
      exact hname
    have hlisted := h _ hgroup (Bool.and_eq_true_iff.mpr ⟨hfits, hothers⟩)
    have hfound := ((having_iff_fits t rates key).mp hlisted).2.2 service hservice
    rw [hnone] at hfound
    cases hfound

/-- The connections with the service and the state that are asked for. -/
theorem records_eq_filter_iff {groups others : List ConnectionGroup}
    (hclauses : query.rowQuery.clauses now true = .ok clauses)
    (hlist : t.connectionRows query now = .ok groups)
    (hothers : t.connectionRows query.others now = .ok others) :
    groups.map (connectionRecord t.applications rates) =
      (others.map (connectionRecord t.applications rates)).filter query.fits ↔
        query.ServiceStored (t.flowsWhere clauses) := by
  have hall : query.others.rowQuery.clauses now true = .ok clauses := hclauses
  rw [connectionRows_of_clauses hclauses] at hlist
  rw [connectionRows_of_clauses hall] at hothers
  obtain rfl := Except.ok.inj hlist
  obtain rfl := Except.ok.inj hothers
  rw [List.filter_map, List.filter_filter, serviceStored_iff t rates]
  constructor
  · intro heq
    apply filter_eq_filter_of_imp
    · intro group _ hhaving
      obtain ⟨hothers, hfits, -⟩ := (having_iff_fits t rates group.1).mp hhaving
      exact Bool.and_eq_true_iff.mpr ⟨hfits, hothers⟩
    · have hlength := congrArg List.length heq
      rw [List.length_map, List.length_map] at hlength
      exact hlength
  · intro h
    congr 1
    apply List.filter_congr
    intro group hgroup
    rw [Bool.eq_iff_iff]
    constructor
    · intro hhaving
      obtain ⟨hothers, hfits, -⟩ := (having_iff_fits t rates group.1).mp hhaving
      exact Bool.and_eq_true_iff.mpr ⟨hfits, hothers⟩
    · exact h group hgroup

end Groups

/-- A flow and the flow of its answers. -/
def answeredInterval : IngestInput :=
  lanInterval {} [lanUpdate ⟨3, 300⟩ ⟨3, 300⟩ .active,
    { lanUpdate ⟨2, 900⟩ ⟨2, 900⟩ .active with
      key := { lanFlow with
        source := lanFlow.destination, destination := lanFlow.source, direction := .inbound } }]

def directionId (key : FlowKey) : UInt64 := if key.direction = .inbound then 8 else 7

def answeredDb : TrafficDb :=
  (TrafficDb.restart {} 65536).next directionId (.ingest answeredInterval [])

theorem reachable_answeredDb : (databases directionId fun _ _ => True).Reachable answeredDb :=
  .step (.init ⟨65536, rfl⟩) ⟨.ingest answeredInterval [], trivial, rfl⟩

def activeQuery : ConnectionQuery := { state := some .active }

def portQuery : ConnectionQuery := { port := some 443 }

end ZimaScope
