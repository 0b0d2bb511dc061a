import Mathlib.Data.Sym.Sym2.Order
import ZimaScope.Api.Connections
import ZimaScope.Common.AddressText

/-! # Identity of connections

A connection is found once by its flow keys, when their rates are added up, and once by the
columns of the stored rows. Both come to the same id, and the pair in it is the unordered pair of
the endpoints.
-/

namespace ZimaScope

/-! ## The pair of a key -/

/-- Canonical unordered endpoint pair of a flow. -/
def connectionPair (key : FlowKey) : String × String :=
  let side (endpoint : Endpoint) := match endpoint.port with
    | some port => s!"{endpoint.address.toString}:{port.toNat}"
    | none => s!"{endpoint.address.toString}:-1"
  let source := side key.source
  let destination := side key.destination
  if source ≤ destination then (source, destination) else (destination, source)

/-- The id under which `try_ingest` adds up the rates of a connection. -/
def FlowKey.connection (key : FlowKey) : String :=
  connectionId ⟨key.protocol, key.ifindex, (connectionPair key).1, (connectionPair key).2⟩

/-! ## The pair of a row -/

/-- The columns that connections are grouped by. -/
structure PairColumns where
  protocol : String
  ifindex : ℤ
  srcAddr : String
  srcPort : Option ℤ
  dstAddr : String
  dstPort : Option ℤ
  deriving DecidableEq, Repr

/-- As `upsert_flow` writes them. -/
def FlowRow.pairColumns (row : FlowRow) : PairColumns where
  protocol := row.key.protocol.value
  ifindex := row.key.ifindex
  srcAddr := row.key.source.address.toString
  srcPort := row.key.source.port.map fun port => port.toNat
  dstAddr := row.key.destination.address.toString
  dstPort := row.key.destination.port.map fun port => port.toNat

/-- `enum_from_value`. -/
def TransportProtocol.ofValue (value : String) : Option TransportProtocol :=
  [.tcp, .udp].find? fun protocol => protocol.value = value

@[simp] theorem TransportProtocol.ofValue_value (protocol : TransportProtocol) :
    ofValue protocol.value = some protocol := by
  cases protocol <;> decide

namespace PairColumns

variable (c : PairColumns)

/-- `addr || ':' || COALESCE(port, -1)`. -/
def side (addr : String) (port : Option ℤ) : String := addr ++ ":" ++ toString (port.getD (-1))

def pairLo : String := min (side c.srcAddr c.srcPort) (side c.dstAddr c.dstPort)

def pairHi : String := max (side c.srcAddr c.srcPort) (side c.dstAddr c.dstPort)

/-- `connection_key` of the columns. -/
def connection : Option String :=
  (TransportProtocol.ofValue c.protocol).map fun protocol =>
    connectionId ⟨protocol, c.ifindex, c.pairLo, c.pairHi⟩

end PairColumns

/-! ## One identity -/

/-- The two endpoints, in no order. -/
def FlowKey.ends (key : FlowKey) : Sym2 Endpoint := s(key.source, key.destination)

theorem connectionPair_eq (key : FlowKey) : connectionPair key =
    ((key.ends.map connectionSide).inf, (key.ends.map connectionSide).sup) := by
  have hside : ∀ endpoint : Endpoint, (match endpoint.port with
      | some port => s!"{endpoint.address.toString}:{port.toNat}"
      | none => s!"{endpoint.address.toString}:-1") = connectionSide endpoint := by
    rintro ⟨address, _ | port⟩
    · have hnone : ":-1" = ":" ++ "-1" := by decide
      change address.toString ++ ":-1" = address.toString ++ ":" ++ "-1"
      rw [hnone, String.append_assoc]
    · rfl
  unfold connectionPair FlowKey.ends
  simp only [hside, Sym2.map_mk, Sym2.inf_mk, Sym2.sup_mk]
  split
  · next hle => rw [inf_eq_left.mpr hle, sup_eq_right.mpr hle]
  · next hle =>
    have hge := (not_le.mp hle).le
    rw [inf_eq_right.mpr hge, sup_eq_left.mpr hge]

/-- The text of a port, or of none. -/
def portColumn (port : Option UInt16) : List Char :=
  port.elim ['-', '1'] fun port => Nat.toDigits 10 port.toNat

theorem toList_connectionSide (endpoint : Endpoint) : (connectionSide endpoint).toList =
    endpoint.address.toString.toList ++ ':' :: portColumn endpoint.port := by
  obtain ⟨address, port⟩ := endpoint
  unfold connectionSide portText portColumn
  rw [String.toList_append, String.toList_append, List.append_assoc]
  cases port with
  | none =>
    change _ ++ (":".toList ++ "-1".toList) = _
    simp
  | some port =>
    change _ ++ (":".toList ++ (Nat.repr port.toNat).toList) = _
    rw [Nat.toList_repr]
    rfl

theorem colon_notMem_portColumn (port : Option UInt16) : ':' ∉ portColumn port := by
  cases port with
  | none => decide
  | some port => exact fun h => (digit_ne (by decide) (by decide) h).1 rfl

theorem portColumn_injective : Function.Injective portColumn := by
  have hsign : ∀ n : ℕ, ['-', '1'] ≠ Nat.toDigits 10 n := by
    intro n h
    have hmem : '-' ∈ Nat.toDigits 10 n := by
      rw [← h]
      exact List.mem_cons_self
    obtain ⟨d, hd, hdigit⟩ := exists_digit_of_mem_toDigits (by decide) (by decide) hmem
    revert hdigit
    revert d
    decide
  intro port port' h
  cases port with
  | none =>
    cases port' with
    | none => rfl
    | some port' => exact absurd h (hsign _)
  | some port =>
    cases port' with
    | none => exact absurd h.symm (hsign _)
    | some port' => exact congrArg some (UInt16.toNat_inj.mp (toDigits_ten_injective h))

theorem connectionSide_injective : Function.Injective connectionSide := by
  intro a b h
  have htext := congrArg String.toList h
  rw [toList_connectionSide, toList_connectionSide,
    List.append_cons_inj_of_notMem_behind (colon_notMem_portColumn _) (colon_notMem_portColumn _)]
    at htext
  obtain ⟨haddress, hport⟩ := htext
  obtain ⟨address, port⟩ := a
  obtain ⟨address', port'⟩ := b
  exact congrArg₂ Endpoint.mk (ipAddr_toString_injective (String.toList_inj.mp haddress))
    (portColumn_injective hport)

theorem side_column (endpoint : Endpoint) :
    PairColumns.side endpoint.address.toString (endpoint.port.map fun port => (port.toNat : ℤ)) =
      connectionSide endpoint := by
  obtain ⟨address, _ | port⟩ := endpoint
  · rfl
  · rfl

/-- Two keys have the same pair exactly if they have the same endpoints. -/
theorem connectionPair_eq_iff (a b : FlowKey) :
    connectionPair a = connectionPair b ↔ a.ends = b.ends := by
  rw [connectionPair_eq, connectionPair_eq, Prod.mk.injEq, Sym2.inf_eq_inf_and_sup_eq_sup]
  exact (Sym2.map.injective connectionSide_injective).eq_iff

/-- The rows of a key are grouped by its pair. -/
theorem FlowRow.connectionKey_eq (row : FlowRow) : row.connectionKey =
    ⟨row.key.protocol, row.key.ifindex, (connectionPair row.key).1, (connectionPair row.key).2⟩ := by
  rw [connectionPair_eq]
  rfl

theorem FlowRow.connection_pairColumns (row : FlowRow) :
    row.pairColumns.connection = some row.key.connection := by
  have hprotocol := TransportProtocol.ofValue_value row.key.protocol
  have hpair : row.pairColumns.pairLo = row.connectionKey.pairLo ∧
      row.pairColumns.pairHi = row.connectionKey.pairHi := by
    unfold PairColumns.pairLo PairColumns.pairHi FlowRow.pairColumns
    rw [side_column, side_column]
    exact ⟨rfl, rfl⟩
  unfold PairColumns.connection
  rw [hpair.1, hpair.2, row.connectionKey_eq]
  exact congrArg (Option.map _) hprotocol

/-- An update leaves the key of the row as it was. -/
theorem find_insertFlow (t : Tables) (id : UInt64) (row : FlowRow) :
    ∃ stored, (t.insertFlow id row).flows.find id = some stored ∧
      stored.key = (t.flows.find id).elim row.key FlowRow.key := by
  rw [Tables.flows_insertFlow, Table.find_upsert_self]
  cases t.flows.find id with
  | none => exact ⟨row, rfl, rfl⟩
  | some old => exact ⟨old.onConflict row, rfl, rfl⟩

/-- The id that rates are added up under is that of the group of every row of the key, and two keys
have the same pair exactly if they have the same endpoints. -/
theorem connection_identity :
    (∀ (t : Tables) (rates : Rates) (query : ConnectionQuery) (now : SystemTime)
        (groups : List ConnectionGroup), t.connectionRows query now = .ok groups →
      ∀ group ∈ groups, ∀ r ∈ group.2,
        (connectionRecord t.applications rates group).id = r.2.key.connection) ∧
    (∀ row : FlowRow, row.pairColumns.connection = some row.key.connection) ∧
    (∀ (t : Tables) (id : UInt64) (update : Sighting) (nowInstant : Instant) (nowSystem : SystemTime)
        (interface : Option String) (domains : List DomainRefDto),
      (∀ old, t.flows.find id = some old → old.key = update.key) →
        ∃ stored, (t.insertFlow id
            (update.flowRow nowInstant nowSystem interface domains)).flows.find id = some stored ∧
          stored.pairColumns.connection = some update.key.connection) ∧
    (∀ (key : FlowKey) (direction : Direction),
      connectionPair { key with source := key.destination, destination := key.source, direction } =
        connectionPair key) ∧
    ∀ a b : FlowKey, connectionPair a = connectionPair b ↔ a.ends = b.ends := by
  refine ⟨?_, FlowRow.connection_pairColumns, ?_, ?_, connectionPair_eq_iff⟩
  · intro t rates query now groups hgroups group hgroup r hr
    obtain ⟨clauses, hclauses, -⟩ := Except.map_eq_ok.mp hgroups
    obtain ⟨-, hrows⟩ := (mem_connectionRows hclauses hgroups).mp hgroup
    rw [hrows] at hr
    have hkey : r.2.connectionKey = group.1 := of_decide_eq_true (List.mem_filter.mp hr).2
    change connectionId group.1 = _
    rw [← hkey, r.2.connectionKey_eq]
    rfl
  · intro t id update nowInstant nowSystem interface domains hold
    obtain ⟨stored, hstored, hkey⟩ :=
      find_insertFlow t id (update.flowRow nowInstant nowSystem interface domains)
    refine ⟨stored, hstored, ?_⟩
    have hsame : stored.key = update.key := by
      rw [hkey]
      cases hfind : t.flows.find id with
      | none => rfl
      | some old => exact hold old hfind
    rw [stored.connection_pairColumns, hsame]
  · intro key direction
    exact (connectionPair_eq_iff _ _).mpr Sym2.eq_swap

/-- A flow and the flow of its answers. -/
theorem connection_identity_answered : ∃ groups,
    answeredDb.tables.connectionRows {} 0 = .ok groups ∧ groups.length = 1 ∧
      ∀ group ∈ groups, ∀ r ∈ group.2,
        (connectionRecord answeredDb.tables.applications ∅ group).id = r.2.key.connection := by
  obtain ⟨groups, hgroups⟩ : ∃ groups, answeredDb.tables.connectionRows {} 0 = .ok groups := ⟨_, rfl⟩
  have hlength : (answeredDb.tables.connectionRows {} 0).toOption.map List.length = some 1 := by
    decide +kernel
  rw [hgroups] at hlength
  exact ⟨groups, hgroups, Option.some.inj hlength, connection_identity.1 _ ∅ {} 0 groups hgroups⟩

end ZimaScope
