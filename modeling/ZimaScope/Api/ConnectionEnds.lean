import ZimaScope.Api.ConnectionPairs
import ZimaScope.Api.Overview

/-! # Ends of connections

The host and the remote of a connection are put together from four columns, each the largest of
its rows. They are the two endpoints of the pair only where all rows agree on which is which.
-/

namespace ZimaScope

/-! ## The record -/

/-- `CASE WHEN direction = .. THEN column ELSE 0 END`. -/
def directionColumn (direction : Direction) (column : FlowRow → ℤ) (row : FlowRow) : ℤ :=
  if row.key.direction = direction then column row else 0

/-- One row of the statement of `Db::list_connections`, whose sums may overflow. -/
def listedConnection (applications : Table String ApplicationRow) (rates : Rates)
    (group : ConnectionGroup) : Except ApiError ConnectionDto := do
  let rows := group.2.map Prod.snd
  let _ ← checkedSum (rows.map FlowRow.packets)
  let _ ← checkedSum (rows.map FlowRow.bytes)
  let _ ← checkedSum (rows.map (directionColumn .inbound FlowRow.packets))
  let _ ← checkedSum (rows.map (directionColumn .inbound FlowRow.bytes))
  let _ ← checkedSum (rows.map (directionColumn .outbound FlowRow.packets))
  let _ ← checkedSum (rows.map (directionColumn .outbound FlowRow.bytes))
  return connectionRecord applications rates group

/-! ## Its endpoints and counters -/

def Endpoint.dto (endpoint : Endpoint) : ConnectionEndpoint :=
  ⟨endpoint.address.toString, endpoint.port⟩

def DirectionTotalsDto.of (totals : DirectionTotalsDto) : Direction → CountersDto
  | .inbound => totals.inbound
  | .outbound => totals.outbound

/-- The sum over the rows of one direction. -/
def directionSum (rows : List FlowRow) (direction : Direction) (column : FlowRow → ℤ) : ℤ :=
  ((rows.filter fun row => row.key.direction = direction).map column).sum

/-- Host and remote are the endpoints of the flows. -/
def ConnectionDto.OwnEnds (connection : ConnectionDto) (rows : List FlowRow) : Prop :=
  ∃ host remote : Endpoint, (∀ row ∈ rows, row.key.ends = s(host, remote)) ∧
    connection.host = host.dto ∧ connection.remote = remote.dto

/-- The counters of a direction are the sums over its flows. -/
def ConnectionDto.OwnCounters (connection : ConnectionDto) (rows : List FlowRow) : Prop :=
  ∀ direction, (connection.traffic.of direction).packets = directionSum rows direction FlowRow.packets ∧
    (connection.traffic.of direction).bytes = directionSum rows direction FlowRow.bytes

/-- The flows agree on the side that is the device's own. -/
def OneHost (rows : List FlowRow) : Prop := ∀ row ∈ rows, ∀ row' ∈ rows, row.host = row'.host

/-- No sum reads as a negative number. -/
def NonnegSums (rows : List FlowRow) : Prop :=
  ∀ direction, 0 ≤ directionSum rows direction FlowRow.packets ∧
    0 ≤ directionSum rows direction FlowRow.bytes

/-! ## Largest values -/

instance lawfulMaxUInt16 : Std.LawfulOrderLeftLeaningMax UInt16 where
  max_eq_left a b h := by
    change (if a ≤ b then b else a) = a
    split
    · next hle => exact UInt16.le_antisymm h hle
    · rfl
  max_eq_right a b h := by
    change (if a ≤ b then b else a) = b
    rw [if_pos (UInt16.le_of_lt (UInt16.not_le.mp h))]

section Largest

variable {α β : Type} [Max β] [LE β] [Std.IsLinearOrder β] [Std.LawfulOrderMax β]
  {rows : List α} {f g : α → Option β}

/-- The largest value depends on which values there are. -/
theorem sqlMax_congr (h : ∀ b, (∃ r ∈ rows, f r = some b) ↔ ∃ r ∈ rows, g r = some b) :
    sqlMax rows f = sqlMax rows g := by
  unfold sqlMax
  ext b
  rw [List.max?_eq_some_iff, List.max?_eq_some_iff]
  simp only [List.mem_filterMap, h]

theorem sqlMax_const {value : Option β} (hne : rows ≠ []) (h : ∀ r ∈ rows, f r = value) :
    sqlMax rows f = value := by
  obtain ⟨r₀, hr₀⟩ := List.exists_mem_of_ne_nil rows hne
  unfold sqlMax
  cases value with
  | none => rw [List.filterMap_eq_nil_iff.mpr h, List.max?_nil]
  | some b =>
    refine List.max?_eq_some_iff.mpr ⟨List.mem_filterMap.mpr ⟨r₀, hr₀, h r₀ hr₀⟩, fun c hc => ?_⟩
    obtain ⟨r, hr, hrc⟩ := List.mem_filterMap.mp hc
    obtain rfl := Option.some.inj ((h r hr).symm.trans hrc)
    exact Std.le_refl b

end Largest

/-! ## Hosts and remotes -/

section Ends

variable {rows : List FlowRow} {ends : Sym2 Endpoint}

theorem FlowRow.ends_eq {row : FlowRow} (h : row.remote = remoteEndpoint row.key) :
    row.key.ends = s(row.host, row.remote) := by
  rw [h]
  unfold FlowKey.ends FlowRow.host remoteEndpoint
  cases row.key.direction with
  | inbound => exact Sym2.eq_swap
  | outbound => rfl

theorem Endpoint.dto_injective : Function.Injective Endpoint.dto := by
  rintro ⟨address, port⟩ ⟨address', port'⟩ h
  obtain ⟨haddress, hport⟩ := ConnectionEndpoint.mk.inj h
  exact congrArg₂ Endpoint.mk (ipAddr_toString_injective haddress) hport

/-- The endpoint that a connection shows of an endpoint of each row. -/
def largestEnd (rows : List FlowRow) (column : FlowRow → Endpoint) : ConnectionEndpoint where
  address := (sqlMax rows fun row => some (column row).address.toString).getD ""
  port := sqlMax rows fun row => (column row).port

theorem largestEnd_const {column : FlowRow → Endpoint} {endpoint : Endpoint} (hne : rows ≠ [])
    (h : ∀ row ∈ rows, column row = endpoint) : largestEnd rows column = endpoint.dto := by
  unfold largestEnd Endpoint.dto
  rw [sqlMax_const hne fun row hrow => congrArg (fun e : Endpoint => some e.address.toString) (h row hrow),
    sqlMax_const hne fun row hrow => congrArg Endpoint.port (h row hrow)]
  rfl

/-- Both columns have the same endpoints in them, over all rows. -/
theorem largestEnd_congr {column column' : FlowRow → Endpoint}
    (h : ∀ endpoint, (∃ row ∈ rows, column row = endpoint) ↔ ∃ row ∈ rows, column' row = endpoint) :
    largestEnd rows column = largestEnd rows column' := by
  have hvalues : ∀ {β : Type} (f : Endpoint → Option β) (b : β),
      (∃ row ∈ rows, f (column row) = some b) ↔ ∃ row ∈ rows, f (column' row) = some b := by
    intro β f b
    constructor
    · rintro ⟨row, hrow, hb⟩
      obtain ⟨row', hrow', heq⟩ := (h (column row)).mp ⟨row, hrow, rfl⟩
      exact ⟨row', hrow', by rw [heq, hb]⟩
    · rintro ⟨row, hrow, hb⟩
      obtain ⟨row', hrow', heq⟩ := (h (column' row)).mpr ⟨row, hrow, rfl⟩
      exact ⟨row', hrow', by rw [heq, hb]⟩
  unfold largestEnd
  rw [sqlMax_congr (hvalues fun e => some e.address.toString), sqlMax_congr (hvalues Endpoint.port)]

/-- The rows of a connection, with the remote that was stored for each. -/
structure OfPair (ends : Sym2 Endpoint) (rows : List FlowRow) : Prop where
  nonempty : rows ≠ []
  ends : ∀ row ∈ rows, row.key.ends = ends
  remote : ∀ row ∈ rows, row.remote = remoteEndpoint row.key

theorem OfPair.sides (h : OfPair ends rows) {row : FlowRow} (hrow : row ∈ rows) :
    s(row.host, row.remote) = ends :=
  (FlowRow.ends_eq (h.remote row hrow)).symm.trans (h.ends row hrow)

theorem OfPair.ownEnds_of_oneHost (h : OfPair ends rows) (hhost : OneHost rows) :
    ∃ host remote : Endpoint, (∀ row ∈ rows, row.key.ends = s(host, remote)) ∧
      largestEnd rows FlowRow.host = host.dto ∧ largestEnd rows FlowRow.remote = remote.dto := by
  obtain ⟨row₀, hrow₀⟩ := List.exists_mem_of_ne_nil rows h.nonempty
  have hremote : ∀ row ∈ rows, row.remote = row₀.remote := by
    intro row hrow
    have hsides := (h.sides hrow).trans (h.sides hrow₀).symm
    rw [hhost row hrow row₀ hrow₀] at hsides
    exact Sym2.congr_right.mp hsides
  refine ⟨row₀.host, row₀.remote, fun row hrow => (h.ends row hrow).trans (h.sides hrow₀).symm, ?_, ?_⟩
  · exact largestEnd_const h.nonempty fun row hrow => hhost row hrow row₀ hrow₀
  · exact largestEnd_const h.nonempty hremote

/-- Where two rows disagree, both sides show the same. -/
theorem OfPair.oneHost_of_ownEnds (h : OfPair ends rows) {host remote : Endpoint}
    (hends : ∀ row ∈ rows, row.key.ends = s(host, remote))
    (hhost : largestEnd rows FlowRow.host = host.dto)
    (hremote : largestEnd rows FlowRow.remote = remote.dto) : OneHost rows := by
  intro row hrow row' hrow'
  by_contra hne
  obtain ⟨hhost', hremote'⟩ : row.host = row'.remote ∧ row.remote = row'.host := by
    rcases Sym2.eq_iff.mp ((h.sides hrow).trans (h.sides hrow').symm) with ⟨heq, -⟩ | hswap
    · exact absurd heq hne
    · exact hswap
  have hends' : ∀ r ∈ rows, ∀ endpoint, endpoint ∈ s(r.host, r.remote) →
      endpoint = row.host ∨ endpoint = row.remote := by
    intro r hr endpoint hmem
    rw [(h.sides hr).trans (h.sides hrow).symm] at hmem
    exact Sym2.mem_iff.mp hmem
  have hsame : largestEnd rows FlowRow.host = largestEnd rows FlowRow.remote := by
    refine largestEnd_congr fun endpoint => ?_
    constructor
    · rintro ⟨r, hr, rfl⟩
      rcases hends' r hr r.host (Sym2.mem_mk_left _ _) with heq | heq
      · exact ⟨row', hrow', (heq.trans hhost').symm⟩
      · exact ⟨row, hrow, heq.symm⟩
    · rintro ⟨r, hr, rfl⟩
      rcases hends' r hr r.remote (Sym2.mem_mk_right _ _) with heq | heq
      · exact ⟨row, hrow, heq.symm⟩
      · exact ⟨row', hrow', (heq.trans hremote').symm⟩
  have heq : host = remote := Endpoint.dto_injective (by rw [← hhost, ← hremote, hsame])
  have hloop := (FlowRow.ends_eq (h.remote row hrow)).symm.trans (hends row hrow)
  rw [heq, Sym2.eq_iff, or_self] at hloop
  exact hne (hloop.1.trans (hloop.2.symm.trans hremote'))

end Ends

/-! ## Sums -/

section Sums

variable {rows : List FlowRow} {direction : Direction} {column : FlowRow → ℤ}

theorem sum_directionColumn :
    (rows.map (directionColumn direction column)).sum = directionSum rows direction column := by
  unfold directionSum
  induction rows with
  | nil => rfl
  | cons row rows ih =>
    rw [List.map_cons, List.sum_cons, ih]
    unfold directionColumn
    by_cases hdirection : row.key.direction = direction
    · rw [if_pos hdirection, List.filter_cons_of_pos (by simpa using hdirection), List.map_cons,
        List.sum_cons]
    · rw [if_neg hdirection, List.filter_cons_of_neg (by simpa using hdirection), zero_add]

/-- A sum that does not overflow is read back unless it is negative. -/
theorem asU64_directionSum_iff {sum : ℤ}
    (h : checkedSum (rows.map (directionColumn direction column)) = .ok sum) :
    (asU64 (sqlSum rows (directionColumn direction column)) : ℤ) = directionSum rows direction column ↔
      0 ≤ directionSum rows direction column := by
  obtain ⟨rfl, hlt⟩ := checkedSum_eq_ok h
  rw [sum_directionColumn] at hlt
  have hsum : sqlSum rows (directionColumn direction column) = directionSum rows direction column :=
    sum_directionColumn
  rw [hsum, asU64_eq_iff]
  constructor
  · exact And.left
  · intro hnonneg
    exact ⟨hnonneg, by omega⟩

end Sums

section Listed

variable {applications : Table String ApplicationRow} {rates : Rates} {group : ConnectionGroup}
  {connection : ConnectionDto}

theorem listedConnection_eq (h : listedConnection applications rates group = .ok connection) :
    connection = connectionRecord applications rates group ∧
      ∀ direction, (∃ sum, checkedSum ((group.2.map Prod.snd).map
          (directionColumn direction FlowRow.packets)) = .ok sum) ∧
        ∃ sum, checkedSum ((group.2.map Prod.snd).map
          (directionColumn direction FlowRow.bytes)) = .ok sum := by
  obtain ⟨_, -, h⟩ := Except.bind_eq_ok.mp h
  obtain ⟨_, -, h⟩ := Except.bind_eq_ok.mp h
  obtain ⟨_, hinPackets, h⟩ := Except.bind_eq_ok.mp h
  obtain ⟨_, hinBytes, h⟩ := Except.bind_eq_ok.mp h
  obtain ⟨_, houtPackets, h⟩ := Except.bind_eq_ok.mp h
  obtain ⟨_, houtBytes, h⟩ := Except.bind_eq_ok.mp h
  refine ⟨(Except.ok.inj h).symm, fun direction => ?_⟩
  cases direction with
  | inbound => exact ⟨⟨_, hinPackets⟩, _, hinBytes⟩
  | outbound => exact ⟨⟨_, houtPackets⟩, _, houtBytes⟩

theorem exists_listedConnection
    (h : (listedConnection applications rates group).toOption.isSome) :
    ∃ connection, listedConnection applications rates group = .ok connection := by
  cases hlisted : listedConnection applications rates group with
  | ok connection => exact ⟨connection, rfl⟩
  | error e =>
    rw [hlisted] at h
    cases h

theorem ownCounters_iff (h : listedConnection applications rates group = .ok connection) :
    connection.OwnCounters (group.2.map Prod.snd) ↔ NonnegSums (group.2.map Prod.snd) := by
  obtain ⟨rfl, hsums⟩ := listedConnection_eq h
  have hof : ∀ direction, (connectionRecord applications rates group).traffic.of direction =
      ⟨asU64 (sqlSum (group.2.map Prod.snd) (directionColumn direction FlowRow.packets)),
        asU64 (sqlSum (group.2.map Prod.snd) (directionColumn direction FlowRow.bytes))⟩ := by
    intro direction
    cases direction <;> rfl
  unfold ConnectionDto.OwnCounters NonnegSums
  simp only [hof]
  refine forall_congr' fun direction => ?_
  obtain ⟨⟨_, hpackets⟩, _, hbytes⟩ := hsums direction
  exact and_congr (asU64_directionSum_iff hpackets) (asU64_directionSum_iff hbytes)

end Listed

/-- The remote of a row is that of its key, in every database. -/
theorem keptByStoring_remote : KeptByStoring fun row => row.remote = remoteEndpoint row.key where
  store update input interfaces old hold := by
    cases old with
    | none => rfl
    | some old => exact hold old rfl
  domains row row' hsame h := by
    have hremote := congrArg FlowRow.remote hsame
    have hkey := congrArg FlowRow.key hsame
    change row.remote = row'.remote at hremote
    change row.key = row'.key at hkey
    rw [← hremote, ← hkey, h]

theorem exists_ofPair {flowId : FlowKey → UInt64} {db : TrafficDb} {key : ConnectionKey}
    {rows : List IdRow} (hr : (databases flowId fun _ _ => True).Reachable db) (hne : rows ≠ [])
    (hrows : ∀ r ∈ rows, r ∈ rowsOf key db.tables.flows.rows) :
    ∃ ends, OfPair ends (rows.map Prod.snd) := by
  obtain ⟨r₀, hr₀⟩ := List.exists_mem_of_ne_nil rows hne
  refine ⟨r₀.2.key.ends, by simpa using hne, fun row hrow => ?_, fun row hrow => ?_⟩
  · obtain ⟨r, hmem, rfl⟩ := List.mem_map.mp hrow
    have hkey : r.2.connectionKey = key := of_decide_eq_true (List.mem_filter.mp (hrows r hmem)).2
    have hkey₀ : r₀.2.connectionKey = key := of_decide_eq_true (List.mem_filter.mp (hrows r₀ hr₀)).2
    have hsame := hkey.trans hkey₀.symm
    rw [FlowRow.connectionKey_eq, FlowRow.connectionKey_eq, ConnectionKey.mk.injEq] at hsame
    exact (connectionPair_eq_iff _ _).mp (Prod.ext hsame.2.2.1 hsame.2.2.2)
  · obtain ⟨r, hmem, rfl⟩ := List.mem_map.mp hrow
    exact keptByStoring_remote.reachable hr
      (Table.find_eq_some_iff.mpr (List.mem_filter.mp (hrows r hmem)).1)

/-- A connection shows its own two endpoints and the sums of its flows exactly if the flows agree on
the side that is the device's own and no sum is negative. -/
theorem connection_ends_iff (flowId : FlowKey → UInt64) (db : TrafficDb)
    (hr : (databases flowId fun _ _ => True).Reachable db) (rates : Rates) (key : ConnectionKey)
    (rows : List IdRow) (hne : rows ≠ []) (hrows : ∀ r ∈ rows, r ∈ rowsOf key db.tables.flows.rows)
    (connection : ConnectionDto)
    (h : listedConnection db.tables.applications rates (key, rows) = .ok connection) :
    connection.OwnEnds (rows.map Prod.snd) ∧ connection.OwnCounters (rows.map Prod.snd) ↔
      OneHost (rows.map Prod.snd) ∧ NonnegSums (rows.map Prod.snd) := by
  obtain ⟨ends, hpair⟩ := exists_ofPair hr hne hrows
  refine and_congr ?_ (ownCounters_iff h)
  obtain ⟨rfl, -⟩ := listedConnection_eq h
  constructor
  · rintro ⟨host, remote, hends, hhost, hremote⟩
    exact hpair.oneHost_of_ownEnds hends hhost hremote
  · exact hpair.ownEnds_of_oneHost

def answeredKey : ConnectionKey := ⟨.tcp, 2, "192.168.1.2:40000", "203.0.113.1:443"⟩

theorem connection_ends_iff_answered : ∃ connection,
    listedConnection answeredDb.tables.applications ∅ (answeredKey, answeredDb.tables.flows.rows) =
        .ok connection ∧
      connection.OwnEnds (answeredDb.tables.flows.rows.map Prod.snd) ∧
      connection.OwnCounters (answeredDb.tables.flows.rows.map Prod.snd) := by
  have hhost : ∀ row ∈ answeredDb.tables.flows.rows.map Prod.snd,
      ∀ row' ∈ answeredDb.tables.flows.rows.map Prod.snd, row.host = row'.host := by
    decide +kernel
  have hnonneg : ∀ direction ∈ [Direction.inbound, .outbound],
      0 ≤ directionSum (answeredDb.tables.flows.rows.map Prod.snd) direction FlowRow.packets ∧
        0 ≤ directionSum (answeredDb.tables.flows.rows.map Prod.snd) direction FlowRow.bytes := by
    decide +kernel
  have hlisted : (listedConnection answeredDb.tables.applications ∅
      (answeredKey, answeredDb.tables.flows.rows)).toOption.isSome := by decide +kernel
  obtain ⟨connection, hconnection⟩ := exists_listedConnection hlisted
  refine ⟨connection, hconnection, (connection_ends_iff directionId answeredDb reachable_answeredDb ∅
    answeredKey _ (by decide +kernel) (by decide +kernel) connection hconnection).mpr ⟨hhost, ?_⟩⟩
  intro direction
  cases direction with
  | inbound => exact hnonneg _ List.mem_cons_self
  | outbound => exact hnonneg _ (List.mem_cons_of_mem _ List.mem_cons_self)

/-- Forwarded traffic: both orientations are seen inbound. -/
def hairpinInterval : IngestInput :=
  lanInterval {} [
    { lanUpdate ⟨3, 300⟩ ⟨3, 300⟩ .active with key := { lanFlow with direction := .inbound } },
    { lanUpdate ⟨2, 900⟩ ⟨2, 900⟩ .active with
      key := { lanFlow with
        source := lanFlow.destination, destination := lanFlow.source, direction := .inbound } }]

def sourceId (key : FlowKey) : UInt64 := if key.source = lanFlow.source then 7 else 8

def hairpinDb : TrafficDb := (TrafficDb.restart {} 65536).next sourceId (.ingest hairpinInterval [])

/-- The larger address stands with the larger port, which is no endpoint of the connection. -/
theorem hairpin_mixes_endpoints : (databases sourceId fun _ _ => True).Reachable hairpinDb ∧
    (∀ r ∈ hairpinDb.tables.flows.rows, r ∈ rowsOf answeredKey hairpinDb.tables.flows.rows) ∧
    ∃ connection, listedConnection hairpinDb.tables.applications ∅
        (answeredKey, hairpinDb.tables.flows.rows) = .ok connection ∧
      connection.host = ⟨"203.0.113.1", some 40000⟩ ∧ connection.remote = ⟨"203.0.113.1", some 40000⟩ ∧
      ¬ connection.OwnEnds (hairpinDb.tables.flows.rows.map Prod.snd) := by
  refine ⟨.step (.init ⟨65536, rfl⟩) ⟨.ingest hairpinInterval [], trivial, rfl⟩, by decide +kernel, ?_⟩
  have hlisted : (listedConnection hairpinDb.tables.applications ∅
      (answeredKey, hairpinDb.tables.flows.rows)).toOption.isSome := by decide +kernel
  obtain ⟨connection, hconnection⟩ := exists_listedConnection hlisted
  have hshown : (listedConnection hairpinDb.tables.applications ∅
      (answeredKey, hairpinDb.tables.flows.rows)).toOption.map (fun c => (c.host, c.remote)) =
        some (⟨"203.0.113.1", some 40000⟩, ⟨"203.0.113.1", some 40000⟩) := by decide +kernel
  rw [hconnection] at hshown
  obtain ⟨hhost, hremote⟩ := Prod.mk.inj (Option.some.inj hshown)
  refine ⟨connection, hconnection, hhost, hremote, ?_⟩
  rintro ⟨host, remote, hends, hhost', hremote'⟩
  have heq : host = remote := Endpoint.dto_injective (by rw [← hhost', ← hremote', hhost, hremote])
  have hrow : ∃ row ∈ hairpinDb.tables.flows.rows.map Prod.snd, row.key.source = lanFlow.source ∧
      row.key.destination = lanFlow.destination := by decide +kernel
  obtain ⟨row, hmem, hsource, hdestination⟩ := hrow
  have hpair := hends row hmem
  unfold FlowKey.ends at hpair
  rw [heq, hsource, hdestination, Sym2.eq_iff, or_self] at hpair
  exact absurd (hpair.1.trans hpair.2.symm) (by decide)

end ZimaScope
