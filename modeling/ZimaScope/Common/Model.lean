import Mathlib.Data.List.AList
import ZimaScope.Common.Abi
import ZimaScope.Query.Selector

/-! # The user-space model

Flows and their updates as user space sees them, and the conversions from the
kernel's fixed-size values.
-/

namespace ZimaScope

/-- A point of the monotonic clock, in nanoseconds; its zero is arbitrary. -/
abbrev Instant := ℤ

/-- A `Duration` in nanoseconds. -/
abbrev Duration := ℕ

/-- `Duration::MAX`. -/
def durationMax : Duration := (2 ^ 64 - 1) * 1000000000 + 999999999

def fromSecs (secs : ℕ) : Duration := secs * 1000000000

def Duration.saturatingMul (d : Duration) (n : ℕ) : Duration := min (d * n) durationMax

def Instant.saturatingDurationSince (later earlier : Instant) : Duration := (later - earlier).toNat

theorem Instant.le_saturatingDurationSince {later earlier : Instant} {d : Duration}
    (h : earlier + d ≤ later) : d ≤ saturatingDurationSince later earlier :=
  Int.ofNat_le.mp ((Int.le_sub_left_of_add_le h).trans (Int.self_le_toNat _))

theorem Instant.saturatingDurationSince_lt {later earlier : Instant} {d : Duration} (hd : 0 < d)
    (h : later < earlier + d) : saturatingDurationSince later earlier < d :=
  (Int.toNat_lt_of_ne_zero hd.ne').mpr (Int.sub_left_lt_of_lt_add h)

/-- `HashMap`; the order of its entries is that of some iteration. -/
abbrev HashMap (κ α : Type) := AList fun _ : κ => α

namespace HashMap

variable {κ α : Type} [DecidableEq κ]

/-- Drops the entries the predicate does not hold for. -/
def retain (m : HashMap κ α) (keep : κ → α → Bool) : HashMap κ α :=
  ⟨m.entries.filter fun e => keep e.1 e.2, m.nodupKeys.sublist List.filter_sublist⟩

theorem lookup_retain (m : HashMap κ α) (keep : κ → α → Bool) (key : κ) :
    AList.lookup key (m.retain keep) = (AList.lookup key m).filter (keep key) := by
  ext a
  have hmem : AList.lookup key (m.retain keep) = some a ↔
      ⟨key, a⟩ ∈ m.entries.filter fun e : Sigma fun _ : κ => α => keep e.1 e.2 :=
    AList.mem_lookup_iff (s := m.retain keep)
  rw [hmem, List.mem_filter, Option.filter_eq_some_iff]
  exact and_congr_left fun _ => AList.mem_lookup_iff.symm

/-- Picking the entry of one key out of an iteration finds what a lookup finds. -/
theorem filterMap_entries {β : Type} (m : HashMap κ α) (key : κ) (f : α → Option β) :
    (m.entries.filterMap fun e => if e.1 = key then f e.2 else none) =
      ((AList.lookup key m).bind f).toList := by
  obtain ⟨entries, hn⟩ := m
  change _ = ((List.dlookup key entries).bind f).toList
  induction entries with
  | nil => rfl
  | cons e entries ih =>
    obtain ⟨k, a⟩ := e
    obtain ⟨hk, hn⟩ := List.nodupKeys_cons.mp hn
    by_cases h : k = key
    · subst h
      have hnone : List.dlookup k entries = none := List.dlookup_eq_none.mpr hk
      have hrest := ih hn
      rw [hnone] at hrest
      rw [List.dlookup_cons_eq]
      cases ha : f a <;> simp_all
    · rw [List.dlookup_cons_ne _ _ (Ne.symm h), ← ih hn]
      simp [h]

/-- Rewrites every value, under its key. -/
def mapValues (m : HashMap κ α) (f : α → α) : HashMap κ α where
  entries := m.entries.map fun e => ⟨e.1, f e.2⟩
  nodupKeys := by
    unfold List.NodupKeys List.keys
    rw [List.map_map]
    exact m.nodupKeys

theorem lookup_mapValues (m : HashMap κ α) (f : α → α) (key : κ) :
    AList.lookup key (m.mapValues f) = (AList.lookup key m).map f := by
  obtain ⟨entries, hn⟩ := m
  change List.dlookup key (entries.map fun e => (⟨e.1, f e.2⟩ : Sigma fun _ : κ => α)) =
    (List.dlookup key entries).map f
  clear hn
  induction entries with
  | nil => rfl
  | cons e entries ih =>
    obtain ⟨k, a⟩ := e
    by_cases h : key = k
    · subst h
      rw [List.map_cons, List.dlookup_cons_eq, List.dlookup_cons_eq, Option.map_some]
    · rw [List.map_cons, List.dlookup_cons_ne _ _ h, List.dlookup_cons_ne _ _ h, ih]

theorem insert_mapValues (m : HashMap κ α) (f : α → α) (key : κ) (a : α) :
    mapValues (m.insert key a) f = (m.mapValues f).insert key (f a) := by
  obtain ⟨entries, hn⟩ := m
  apply AList.ext
  change (List.kinsert key a entries).map (fun e => (⟨e.1, f e.2⟩ : Sigma fun _ : κ => α)) =
    List.kinsert key (f a) (entries.map fun e => (⟨e.1, f e.2⟩ : Sigma fun _ : κ => α))
  have herase : (entries.kerase key).map (fun e => (⟨e.1, f e.2⟩ : Sigma fun _ : κ => α)) =
      (entries.map fun e => ⟨e.1, f e.2⟩).kerase key := by
    clear hn
    induction entries with
    | nil => rfl
    | cons e entries ih =>
      by_cases h : key = e.1
      · rw [List.map_cons, List.kerase_cons_eq h, List.kerase_cons_eq (by exact h)]
      · rw [List.map_cons, List.kerase_cons_ne h, List.kerase_cons_ne (by exact h), List.map_cons, ih]
  rw [List.kinsert_def, List.kinsert_def, List.map_cons, herase]

omit [DecidableEq κ] in
theorem retain_mapValues (m : HashMap κ α) (f : α → α) (keep : κ → α → Bool) :
    (m.mapValues f).retain keep = (m.retain fun k a => keep k (f a)).mapValues f := by
  apply AList.ext
  change List.filter _ (m.entries.map _) = (m.entries.filter _).map _
  rw [List.filter_map]
  rfl

/-- What is inserted over an erased entry replaces it. -/
theorem insert_erase (m : HashMap κ α) (key : κ) (a : α) :
    AList.insert key a (AList.erase key m) = AList.insert key a m := by
  have hgone : key ∉ (m.entries.kerase key).keys := List.notMem_keys_kerase key m.nodupKeys
  apply AList.ext
  change List.kinsert key a (m.entries.kerase key) = List.kinsert key a m.entries
  rw [List.kinsert_def, List.kinsert_def, List.kerase_of_notMem_keys hgone]

end HashMap

/-- A network peer identified by IP address and, when available, port. -/
structure Endpoint where
  address : IpAddr
  port : Option UInt16
  deriving DecidableEq, Repr

/-- Identity of one direction of a Flow in user space. -/
structure FlowKey where
  source : Endpoint
  destination : Endpoint
  interfaceIndex : { i : UInt32 // i ≠ 0 }
  protocol : TransportProtocol
  direction : Direction
  deriving DecidableEq

theorem ifindex_two_ne_zero : (2 : UInt32) ≠ 0 := by decide

structure TrafficCounters where
  packets : ℕ := 0
  bytes : ℕ := 0
  deriving DecidableEq, Repr, Inhabited

inductive EndReason | idleTimeout | tcpFin | tcpReset | evictedOrUnknown
  deriving DecidableEq, Repr

inductive FlowState
  | active
  | ended (reason : EndReason)
  deriving DecidableEq, Repr

def FlowState.endReason : FlowState → Option EndReason
  | .active => none
  | .ended reason => some reason

/-- The process observed to own a Flow. -/
structure ApplicationRef where
  tgid : UInt32
  uid : UInt32
  cgroupId : UInt64
  comm : String
  deriving DecidableEq, Repr

/-- One Flow as observed across a single collection interval. -/
structure FlowUpdate where
  key : FlowKey
  delta : TrafficCounters
  total : TrafficCounters
  firstSeen : Instant
  lastSeen : Instant
  state : FlowState
  service : Option String
  application : Option ApplicationRef

/-- Encodes an address and its family the way the kernel ABI stores them. -/
def ipStorage : IpAddr → Vector UInt8 16 × IpFamily
  | .v4 address => (ipv4Storage address, .v4)
  | .v6 octets => (octets, .v6)

def textBytes (text : String) : List UInt8 := text.toUTF8.data.toList

/-- `str::trim`. -/
def trim (s : String) : String :=
  String.ofList ((s.toList.dropWhile isWhiteSpace).reverse.dropWhile isWhiteSpace).reverse

/-- Decodes a kernel `comm` value back into text. -/
def commText (raw : Vector UInt8 16) : String :=
  trim ((String.fromUTF8? ⟨(raw.toList.takeWhile (· ≠ 0)).toArray⟩).getD "")

def Direction.fromAbi (value : UInt8) : Option Direction :=
  if value = 1 then some .inbound else if value = 2 then some .outbound else none

def TransportProtocol.fromAbi (value : UInt8) : Option TransportProtocol :=
  if value = 6 then some .tcp else if value = 17 then some .udp else none

def OwnerKind.fromAbi (value : UInt8) : Option OwnerKind :=
  if value = 1 then some .socket else if value = 2 then some .listener else none

/-- Cumulative counters of one CPU for one Flow. -/
structure FlowValue where
  packets : ℕ := 0
  bytes : ℕ := 0
  firstSeenMonoNs : ℕ := 0
  lastSeenMonoNs : ℕ := 0
  tcpFlags : UInt16 := 0
  deriving DecidableEq, Repr, Inhabited

def decodeKey (key : AbiFlowKey) : Option FlowKey := do
  let direction ← Direction.fromAbi key.direction
  let protocol ← TransportProtocol.fromAbi key.protocol
  if key.ipFamily ≠ IpFamily.v4.toU8 then none
  else if h : key.ifindex = 0 then none
  else some {
    source := ⟨.v4 (ipv4FromAbi key.srcAddr), some (toBe key.srcPortBe)⟩
    destination := ⟨.v4 (ipv4FromAbi key.dstAddr), some (toBe key.dstPortBe)⟩
    interfaceIndex := ⟨key.ifindex, h⟩
    protocol
    direction }

theorem toU8_of_directionFromAbi {value : UInt8} {direction : Direction}
    (h : Direction.fromAbi value = some direction) : value = direction.toU8 := by
  unfold Direction.fromAbi at h
  split at h
  · next hv => simp_all [Direction.toU8, ← Option.some.inj h]
  · split at h
    · next hv => simp_all [Direction.toU8, ← Option.some.inj h]
    · simp at h

theorem toU8_of_protocolFromAbi {value : UInt8} {protocol : TransportProtocol}
    (h : TransportProtocol.fromAbi value = some protocol) : value = protocol.toU8 := by
  unfold TransportProtocol.fromAbi at h
  split at h
  · next hv => simp_all [TransportProtocol.toU8, ← Option.some.inj h]
  · split at h
    · next hv => simp_all [TransportProtocol.toU8, ← Option.some.inj h]
    · simp at h

/-- What a key that decodes looks like. -/
theorem decodeKey_eq_some {key : AbiFlowKey} {flow : FlowKey} (h : decodeKey key = some flow) :
    key.direction = flow.direction.toU8 ∧ key.protocol = flow.protocol.toU8 ∧
      key.ipFamily = IpFamily.v4.toU8 ∧ key.ifindex = flow.interfaceIndex ∧
      flow.source = ⟨.v4 (ipv4FromAbi key.srcAddr), some (toBe key.srcPortBe)⟩ ∧
      flow.destination = ⟨.v4 (ipv4FromAbi key.dstAddr), some (toBe key.dstPortBe)⟩ := by
  unfold decodeKey at h
  cases hd : Direction.fromAbi key.direction with
  | none => simp [hd] at h
  | some direction =>
    cases hp : TransportProtocol.fromAbi key.protocol with
    | none => simp [hd, hp] at h
    | some protocol =>
      simp only [hd, hp, Option.bind_eq_bind, Option.bind_some] at h
      split at h
      · simp at h
      · next hf =>
        split at h
        · simp at h
        · obtain rfl := Option.some.inj h
          exact ⟨toU8_of_directionFromAbi hd, toU8_of_protocolFromAbi hp, not_not.mp hf,
            rfl, rfl, rfl⟩

/-- The addresses of the key are IPv4 addresses in zero-extended storage. -/
def AbiFlowKey.ZeroExtended (key : AbiFlowKey) : Prop :=
  ipv4Storage (ipv4FromAbi key.srcAddr) = key.srcAddr ∧
    ipv4Storage (ipv4FromAbi key.dstAddr) = key.dstAddr

instance (key : AbiFlowKey) : Decidable key.ZeroExtended :=
  inferInstanceAs (Decidable (_ ∧ _))

/-- Kernel keys of different flows decode to different flow keys. -/
theorem decodeKey_injective {key key' : AbiFlowKey} {flow : FlowKey} (hk : key.ZeroExtended)
    (hk' : key'.ZeroExtended) (h : decodeKey key = some flow) (h' : decodeKey key' = some flow) :
    key = key' := by
  obtain ⟨hd, hp, hf, hi, hs, ht⟩ := decodeKey_eq_some h
  obtain ⟨hd', hp', hf', hi', hs', ht'⟩ := decodeKey_eq_some h'
  have hsource := hs.symm.trans hs'
  have hdestination := ht.symm.trans ht'
  simp only [Endpoint.mk.injEq, IpAddr.v4.injEq, Option.some.injEq] at hsource hdestination
  have hsrc : key.srcAddr = key'.srcAddr := by rw [← hk.1, ← hk'.1, hsource.1]
  have hdst : key.dstAddr = key'.dstAddr := by rw [← hk.2, ← hk'.2, hdestination.1]
  have hsport := toBe_injective hsource.2
  have hdport := toBe_injective hdestination.2
  cases key
  cases key'
  simp_all

end ZimaScope
