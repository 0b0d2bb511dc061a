import Mathlib.Data.List.Perm.Basic
import ZimaScope.Api.Settings
import ZimaScope.Common.AddressParse
import ZimaScope.Common.Text
import ZimaScope.Proxy.Resolver

/-! # Connections of the proxy

The connections that the controller reports become a table of resolutions, and a
flow with a fake remote address is given what the table has for its socket. The key
of the table has neither the transport protocol nor the host of a connection.
-/

namespace ZimaScope

/-! ## The wire format -/

structure WireMetadata where
  sourceIp : Option String := none
  sourcePort : Option String := none
  /-- Empty in fake-IP mode: the client connected to a synthetic address. -/
  destinationIp : Option String := none
  destinationPort : Option String := none
  host : Option String := none
  /-- The address the proxy actually dialed. -/
  remoteDestination : Option String := none
  destinationGeoip : Option (List String) := none
  destinationIpAsn : Option String := none

structure WireConnection where
  metadata : WireMetadata
  chains : List String := []

/-- A connection as the controller reports it: its transport protocol is not read. -/
structure ReportedConnection extends WireConnection where
  network : TransportProtocol

def parsePort (value : Option String) : Option UInt16 :=
  value.bind fun value => (parseUnsigned 65536 (trim value).toList).map .ofNat

def parseIp (value : Option String) : Option IpAddr :=
  value.bind fun value => if trim value = "" then none else parseIpAddr (trim value)

/-- `remoteDestination` is usually `IP:port`; bare addresses are accepted too. -/
def parseRemoteAddress (value : String) : Option IpAddr :=
  (parseIpAddr (trim value)).or (parseSocketAddr (trim value))

/-- `trim_start_matches("AS")`. -/
def trimAs : List Char → List Char
  | 'A' :: 'S' :: rest => trimAs rest
  | text => text

/-- The socket of a connection that has one. -/
def WireConnection.key (connection : WireConnection) : Option ProxyKey := do
  let client ← parseIp connection.metadata.sourceIp
  let clientPort ← parsePort connection.metadata.sourcePort
  let destinationPort ← parsePort connection.metadata.destinationPort
  return { client, clientPort, destinationPort }

-- The upper case of Unicode.
variable (toUppercase : String → String)

def WireConnection.resolution (connection : WireConnection) : ProxyResolution :=
  let metadata := connection.metadata
  { host := (metadata.host.filter (· ≠ "")).map fun host => toAsciiLowercase (trimEndMatches host '.')
    -- Fake-IP connections have no origin address.
    realAddress :=
      (parseIp metadata.destinationIp).or (metadata.remoteDestination.bind parseRemoteAddress)
    country := (metadata.destinationGeoip.bind List.head?).map toUppercase
    asn := metadata.destinationIpAsn.bind fun value =>
      (parseUnsigned (2 ^ 32) (trimAs value.toList)).map .ofNat
    chains := connection.chains }

def mapConnections (connections : List WireConnection) : Resolutions :=
  connections.foldl (fun resolutions connection =>
    match connection.key with
    | none => resolutions
    | some key => resolutions.upsert key fun _ => connection.resolution toUppercase) ∅

/-! ## Profiles -/

structure GeoRecord where
  country : Option String := none
  region : Option String := none
  cityApproximate : Option String := none
  asn : Option UInt32 := none
  organization : Option String := none

/-- The enricher: its database, and when an address was first looked up in it. -/
structure Enricher where
  lookup : IpAddr → Option GeoRecord
  version : Option String
  enrichedAt : IpAddr → SystemTime

def Enricher.profile (enricher : Enricher) (address : IpAddr) : IpProfile :=
  let scope := AddressScope.classify address
  let record := if scope = .publicScope then enricher.lookup address else none
  { scope
    country := record.bind GeoRecord.country
    region := record.bind GeoRecord.region
    cityApproximate := record.bind GeoRecord.cityApproximate
    asn := record.bind GeoRecord.asn
    organization := record.bind GeoRecord.organization
    databaseVersion := if scope = .publicScope then enricher.version else none
    enrichedAt := enricher.enrichedAt address }

/-- The socket that a flow with a fake remote is looked up by. -/
def fakeSocket (key : FlowKey) (remote : Endpoint) : Option ProxyKey :=
  let client := if key.source.address = remote.address then key.destination else key.source
  ProxyKey.forFakeFlow client.address client.port remote.port

/-- Overrides the profile of a fake address with the destination resolved through the proxy. -/
def resolvedProfile (enricher : Enricher) (proxy : ProxyShared) (now : SystemTime) (key : FlowKey)
    (remote : Endpoint) : IpProfile :=
  let profile := enricher.profile remote.address
  if profile.scope ≠ .fakeIp then profile
  else
    match (fakeSocket key remote).bind proxy.lookup with
    | none => profile
    | some resolution =>
      match resolution.realAddress with
      | some real => { enricher.profile real with scope := profile.scope }
      | none =>
        if resolution.country.isSome || resolution.asn.isSome then
          { scope := profile.scope
            country := resolution.country
            asn := resolution.asn
            databaseVersion := some "proxy"
            enrichedAt := now }
        else profile

/-! ## What a flow receives -/

/-- What a resolution has to give: a real address, or a country or an ASN. -/
inductive Attribution
  | address (real : IpAddr)
  | reported (country : Option String) (asn : Option UInt32)
  deriving DecidableEq

def ProxyResolution.attribution (resolution : ProxyResolution) : Option Attribution :=
  match resolution.realAddress with
  | some real => some (.address real)
  | none =>
    if resolution.country.isSome || resolution.asn.isSome then
      some (.reported resolution.country resolution.asn)
    else none

def Attribution.profile (enricher : Enricher) (now : SystemTime) (scope : AddressScope) :
    Attribution → IpProfile
  | address real => { enricher.profile real with scope }
  | reported country asn =>
    { scope, country, asn, databaseVersion := some "proxy", enrichedAt := now }

/-- What a flow receives from the proxy. -/
def received (proxy : ProxyShared) (key : FlowKey) : Option Attribution :=
  let remote := remoteEndpoint key
  if AddressScope.classify remote.address = .fakeIp then
    ((fakeSocket key remote).bind proxy.lookup).bind ProxyResolution.attribution
  else none

theorem resolvedProfile_eq (enricher : Enricher) (proxy : ProxyShared) (now : SystemTime)
    (key : FlowKey) :
    resolvedProfile enricher proxy now key (remoteEndpoint key) =
      match received proxy key with
      | none => enricher.profile (remoteEndpoint key).address
      | some attribution => attribution.profile enricher now .fakeIp := by
  have hscope : (enricher.profile (remoteEndpoint key).address).scope =
      AddressScope.classify (remoteEndpoint key).address := rfl
  unfold resolvedProfile received
  dsimp only
  rw [hscope]
  by_cases hfake : AddressScope.classify (remoteEndpoint key).address = .fakeIp
  · rw [if_neg (not_not.mpr hfake), if_pos hfake, hfake]
    cases (fakeSocket key (remoteEndpoint key)).bind proxy.lookup with
    | none => rfl
    | some resolution =>
      rw [Option.bind_some]
      unfold ProxyResolution.attribution
      dsimp only
      cases resolution.realAddress with
      | some real => rfl
      | none =>
        dsimp only
        split <;> rfl
  · rw [if_pos hfake, if_neg hfake]

/-! ## The table -/

section Table

variable {toUppercase : String → String} {connections connections' : List WireConnection}
  {connection : WireConnection} {socket : ProxyKey} {resolution : ProxyResolution}

theorem mapConnections_append : mapConnections toUppercase (connections ++ [connection]) =
    match connection.key with
    | none => mapConnections toUppercase connections
    | some key => (mapConnections toUppercase connections).upsert key fun _ =>
        connection.resolution toUppercase := by
  rw [mapConnections, List.foldl_append, List.foldl_cons, List.foldl_nil]
  rfl

/-- The last connection of a socket is found. -/
theorem find_mapConnections_append (h : connection.key = some socket) :
    (mapConnections toUppercase (connections ++ [connection])).find socket =
      some (connection.resolution toUppercase) := by
  rw [mapConnections_append, h]
  exact Table.find_upsert_self

theorem exists_of_find (h : (mapConnections toUppercase connections).find socket = some resolution) :
    ∃ connection ∈ connections, connection.key = some socket ∧
      connection.resolution toUppercase = resolution := by
  induction connections using List.reverseRecOn with
  | nil => cases h
  | append_singleton connections connection ih =>
    have hearlier : (mapConnections toUppercase connections).find socket = some resolution →
        ∃ c ∈ connections ++ [connection], c.key = some socket ∧ c.resolution toUppercase = resolution := by
      intro hfind
      obtain ⟨c, hc, hkey, hresolution⟩ := ih hfind
      exact ⟨c, List.mem_append_left _ hc, hkey, hresolution⟩
    rw [mapConnections_append] at h
    cases hkey : connection.key with
    | none =>
      rw [hkey] at h
      exact hearlier h
    | some key =>
      rw [hkey] at h
      by_cases hsocket : socket = key
      · subst hsocket
        rw [Table.find_upsert_self, Option.some.injEq] at h
        exact ⟨connection, List.mem_append_right _ (List.mem_singleton_self _), hkey, h⟩
      · rw [Table.find_upsert_of_ne hsocket] at h
        exact hearlier h

theorem exists_find (h : connection ∈ connections) (hkey : connection.key = some socket) :
    ∃ resolution, (mapConnections toUppercase connections).find socket = some resolution := by
  induction connections using List.reverseRecOn with
  | nil => cases h
  | append_singleton connections last ih =>
    rw [mapConnections_append]
    rcases List.mem_append.mp h with hearlier | hlast
    · obtain ⟨resolution, hfind⟩ := ih hearlier
      cases last.key with
      | none => exact ⟨resolution, hfind⟩
      | some key =>
        by_cases hsocket : socket = key
        · subst hsocket
          exact ⟨_, Table.find_upsert_self⟩
        · exact ⟨resolution, (Table.find_upsert_of_ne hsocket).trans hfind⟩
    · obtain rfl := List.mem_singleton.mp hlast
      rw [hkey]
      exact ⟨_, Table.find_upsert_self⟩

/-- Connections of one socket resolve to the same. -/
def SocketsAgree (toUppercase : String → String) (connections : List WireConnection) : Prop :=
  ∀ a ∈ connections, ∀ b ∈ connections, ∀ socket, a.key = some socket → b.key = some socket →
    a.resolution toUppercase = b.resolution toUppercase

theorem SocketsAgree.find_eq_some_iff (h : SocketsAgree toUppercase connections) :
    (mapConnections toUppercase connections).find socket = some resolution ↔
      ∃ connection ∈ connections, connection.key = some socket ∧
        connection.resolution toUppercase = resolution := by
  refine ⟨exists_of_find, ?_⟩
  rintro ⟨connection, hmem, hkey, rfl⟩
  obtain ⟨resolution, hfind⟩ := exists_find hmem hkey
  obtain ⟨found, hfound, hkey', rfl⟩ := exists_of_find hfind
  rw [hfind, h connection hmem found hfound socket hkey hkey']

/-- The table is the same for every order of the connections exactly if sockets agree. -/
theorem find_perm_iff : (∀ connections' : List WireConnection, connections'.Perm connections →
      ∀ socket, (mapConnections toUppercase connections').find socket =
        (mapConnections toUppercase connections).find socket) ↔
    SocketsAgree toUppercase connections := by
  constructor
  · intro h a ha b hb socket hkeya hkeyb
    have hlast : ∀ c ∈ connections, c.key = some socket →
        (mapConnections toUppercase connections).find socket = some (c.resolution toUppercase) := by
      intro c hc hkey
      obtain ⟨before, behind, rfl⟩ := List.append_of_mem hc
      have hperm : (before ++ behind ++ [c]).Perm (before ++ c :: behind) := by
        rw [List.append_assoc]
        exact List.Perm.append_left before (List.perm_append_singleton c behind)
      rw [← h _ hperm, find_mapConnections_append hkey]
    exact Option.some.inj ((hlast a ha hkeya).symm.trans (hlast b hb hkeyb))
  · intro h connections' hperm socket
    have h' : SocketsAgree toUppercase connections' := fun a ha b hb =>
      h a (hperm.mem_iff.mp ha) b (hperm.mem_iff.mp hb)
    ext resolution
    rw [h.find_eq_some_iff, h'.find_eq_some_iff]
    simp only [hperm.mem_iff]

theorem received_eq_some_iff (h : SocketsAgree toUppercase connections) {shared : ProxyShared}
    {key : FlowKey} {attribution : Attribution} :
    received (shared.store (.ok (mapConnections toUppercase connections))) key = some attribution ↔
      AddressScope.classify (remoteEndpoint key).address = .fakeIp ∧
        ∃ connection ∈ connections, ∃ socket, connection.key = some socket ∧
          fakeSocket key (remoteEndpoint key) = some socket ∧
          (connection.resolution toUppercase).attribution = some attribution := by
  unfold received
  dsimp only
  by_cases hfake : AddressScope.classify (remoteEndpoint key).address = .fakeIp
  · rw [if_pos hfake, Option.bind_eq_some_iff]
    constructor
    · rintro ⟨resolution, hlookup, hattribution⟩
      obtain ⟨socket, hsocket, hfind⟩ := Option.bind_eq_some_iff.mp hlookup
      obtain ⟨connection, hmem, hkey, rfl⟩ := h.find_eq_some_iff.mp hfind
      exact ⟨hfake, connection, hmem, socket, hkey, hsocket, hattribution⟩
    · rintro ⟨-, connection, hmem, socket, hkey, hsocket, hattribution⟩
      refine ⟨connection.resolution toUppercase, ?_, hattribution⟩
      rw [hsocket, Option.bind_some]
      exact h.find_eq_some_iff.mpr ⟨connection, hmem, hkey, rfl⟩
  · rw [if_neg hfake]
    exact iff_of_false (Option.some_ne_none attribution).symm fun h => hfake h.1

end Table

/-! ## Sockets -/

/-- The socket of a flow: its own end, and the port of the remote. -/
def FlowKey.socket (key : FlowKey) : Option ProxyKey :=
  let client := match key.direction with
    | .inbound => key.destination
    | .outbound => key.source
  ProxyKey.forFakeFlow client.address client.port (remoteEndpoint key).port

/-- Between different addresses that is the socket it is looked up by. -/
theorem fakeSocket_eq {key : FlowKey} (h : key.source.address ≠ key.destination.address) :
    fakeSocket key (remoteEndpoint key) = key.socket := by
  unfold fakeSocket FlowKey.socket remoteEndpoint
  cases key.direction with
  | inbound => dsimp only; rw [if_pos rfl]
  | outbound => dsimp only; rw [if_neg h]

/-- The connection is of the socket and the transport protocol of the flow. -/
def ReportedConnection.Carries (connection : ReportedConnection) (key : FlowKey) : Prop :=
  (∃ socket, connection.key = some socket ∧ key.socket = some socket) ∧
    connection.network = key.protocol

/-- What the code reads of the connections. -/
def wire (connections : List ReportedConnection) : List WireConnection :=
  connections.map ReportedConnection.toWireConnection

/-- The table does not depend on the order of the connections, the flow receives only what a connection
of its socket and transport protocol has to give, and every connection is found as one of the same
host and transport protocol. -/
structure PerSocket (toUppercase : String → String) (shared : ProxyShared)
    (connections : List ReportedConnection) (key : FlowKey) : Prop where
  perm : ∀ response : List WireConnection, response.Perm (wire connections) → ∀ socket,
    (mapConnections toUppercase response).find socket =
      (mapConnections toUppercase (wire connections)).find socket
  own : ∀ attribution,
    received (shared.store (.ok (mapConnections toUppercase (wire connections)))) key =
        some attribution →
      ∃ connection ∈ connections, connection.Carries key ∧
        (connection.resolution toUppercase).attribution = some attribution
  apart : ∀ connection ∈ connections, ∀ socket, connection.key = some socket →
    ∃ found ∈ connections, found.key = some socket ∧ found.metadata.host = connection.metadata.host ∧
      found.network = connection.network ∧
      (mapConnections toUppercase (wire connections)).find socket = some (found.resolution toUppercase)

/-- Where the flow is looked up by the socket of a connection, a connection of its own socket and
protocol has the same to give. -/
def Carried (toUppercase : String → String) (connections : List ReportedConnection) (key : FlowKey) :
    Prop :=
  AddressScope.classify (remoteEndpoint key).address = .fakeIp →
    ∀ connection ∈ connections, ∀ socket, connection.key = some socket →
      fakeSocket key (remoteEndpoint key) = some socket →
        (connection.resolution toUppercase).attribution ≠ none →
          ∃ own ∈ connections, own.Carries key ∧ (own.resolution toUppercase).attribution =
            (connection.resolution toUppercase).attribution

theorem mem_wire {connections : List ReportedConnection} {connection : WireConnection} :
    connection ∈ wire connections ↔
      ∃ reported ∈ connections, reported.toWireConnection = connection := List.mem_map

/-- Attribution is per socket exactly if connections of one socket resolve to the same, and a flow that
is looked up by a socket with something to give has a connection of its own that gives it. -/
theorem perSocket_iff (toUppercase : String → String) (shared : ProxyShared)
    (connections : List ReportedConnection) (key : FlowKey) :
    PerSocket toUppercase shared connections key ↔
      SocketsAgree toUppercase (wire connections) ∧ Carried toUppercase connections key := by
  constructor
  · intro h
    have hagree := find_perm_iff.mp h.perm
    refine ⟨hagree, fun hfake connection hmem socket hkey hsocket hne => ?_⟩
    obtain ⟨attribution, hattribution⟩ := Option.ne_none_iff_exists'.mp hne
    obtain ⟨own, hown, hcarries, hgives⟩ := h.own attribution <| (received_eq_some_iff hagree).mpr
      ⟨hfake, connection.toWireConnection, mem_wire.mpr ⟨connection, hmem, rfl⟩, socket, hkey,
        hsocket, hattribution⟩
    exact ⟨own, hown, hcarries, hgives.trans hattribution.symm⟩
  · rintro ⟨hagree, hcarried⟩
    refine ⟨find_perm_iff.mpr hagree, fun attribution hreceived => ?_, fun connection hmem socket hkey => ?_⟩
    · obtain ⟨hfake, connection, hwire, socket, hkey, hsocket, hattribution⟩ :=
        (received_eq_some_iff hagree).mp hreceived
      obtain ⟨reported, hmem, rfl⟩ := mem_wire.mp hwire
      obtain ⟨own, hown, hcarries, hgives⟩ := hcarried hfake reported hmem socket hkey hsocket
        (by rw [hattribution]; exact Option.some_ne_none attribution)
      exact ⟨own, hown, hcarries, hgives.trans hattribution⟩
    · refine ⟨connection, hmem, hkey, rfl, rfl, hagree.find_eq_some_iff.mpr ?_⟩
      exact ⟨connection.toWireConnection, mem_wire.mpr ⟨connection, hmem, rfl⟩, hkey, rfl⟩

/-- Two connections of one client port to one service port, over TCP and over UDP. -/
def sharedSocket : List ReportedConnection :=
  [{ metadata := {
        sourceIp := some "192.168.100.9", sourcePort := some "50123", destinationPort := some "443"
        host := some "dns.google", destinationIp := some "8.8.8.8" }
     network := .tcp },
    { metadata := {
        sourceIp := some "192.168.100.9", sourcePort := some "50123", destinationPort := some "443"
        host := some "one.one.one.one", destinationIp := some "1.1.1.1" }
      network := .udp }]

/-- The flow of the first. -/
def sharedSocketFlow : FlowKey where
  source := ⟨.v4 (.new 192 168 100 9), some 50123⟩
  destination := ⟨.v4 (.new 198 18 0 5), some 443⟩
  interfaceIndex := ⟨2, ifindex_two_ne_zero⟩
  protocol := .tcp
  direction := .outbound

/-- It receives the destination of the second, and that of its own where the order is the other. -/
theorem sharedSocket_lends :
    received (({} : ProxyShared).store (.ok (mapConnections String.toUpper (wire sharedSocket))))
        sharedSocketFlow = some (.address (.v4 ⟨#v[1, 1, 1, 1]⟩)) ∧
      received (({} : ProxyShared).store
          (.ok (mapConnections String.toUpper (wire sharedSocket.reverse)))) sharedSocketFlow =
        some (.address (.v4 ⟨#v[8, 8, 8, 8]⟩)) ∧
      ¬ PerSocket String.toUpper {} sharedSocket sharedSocketFlow := by
  have hlent : received (({} : ProxyShared).store
      (.ok (mapConnections String.toUpper (wire sharedSocket)))) sharedSocketFlow =
        some (.address (.v4 ⟨#v[1, 1, 1, 1]⟩)) := by decide +kernel
  have hown : ∀ connection ∈ sharedSocket, connection.network = .tcp →
      (connection.resolution String.toUpper).attribution ≠
        some (.address (.v4 ⟨#v[1, 1, 1, 1]⟩)) := by
    unfold sharedSocket
    decide +kernel
  refine ⟨hlent, by decide +kernel, fun h => ?_⟩
  obtain ⟨connection, hmem, hcarries, hgives⟩ := h.own _ hlent
  exact hown connection hmem hcarries.2 hgives

end ZimaScope
