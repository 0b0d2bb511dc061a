import ZimaScope.Common.Model
import ZimaScope.Ebpf.Policy

/-! # Flow tracking

Reconciles the entries of the kernel Flow map with the state kept in user
space: traffic deltas, the lifecycle of every Flow, and the application that
owns it. One poll merges the per-CPU values of every visited entry and then
reconciles the merged entries.
-/

namespace ZimaScope

/-- Maps the kernel monotonic timestamps onto instants. -/
structure MonoClock where
  anchor : Option (ℕ × Instant) := none

namespace MonoClock

def anchorIfNeeded (clock : MonoClock) (monoNs : ℕ) (at' : Instant) : MonoClock :=
  match clock.anchor with
  | none => ⟨some (monoNs, at')⟩
  | some _ => clock

/-- `current` is what the system clock reads; it only matters before the anchor is set. -/
def toInstant (clock : MonoClock) (current : Instant) (monoNs : ℕ) : Instant :=
  match clock.anchor with
  | none => current
  | some (baseNs, base) =>
    if baseNs ≤ monoNs then base + (monoNs - baseNs : ℕ) else base - (baseNs - monoNs : ℕ)

end MonoClock

/-- The per-CPU values of one entry, merged. -/
structure MergedValues where
  total : TrafficCounters := {}
  firstSeenNs : ℕ := 0
  lastSeenNs : ℕ := 0
  tcpFlags : UInt16 := 0

/-- One Flow merged across all per-CPU map values. -/
structure MergedFlow extends MergedValues where
  key : FlowKey

def MergedValues.add (merged : MergedValues) (value : FlowValue) : MergedValues where
  total := ⟨satAdd merged.total.packets value.packets, satAdd merged.total.bytes value.bytes⟩
  firstSeenNs :=
    if 0 < value.packets ∧ (merged.firstSeenNs = 0 ∨ value.firstSeenMonoNs < merged.firstSeenNs)
    then value.firstSeenMonoNs else merged.firstSeenNs
  lastSeenNs := max merged.lastSeenNs value.lastSeenMonoNs
  tcpFlags := merged.tcpFlags ||| value.tcpFlags

def mergeValues (values : List FlowValue) : MergedValues := values.foldl MergedValues.add {}

/-- Validates and merges the per-CPU values of one kernel map entry. -/
def mergeEntry (key : AbiFlowKey) (values : List FlowValue) : Option MergedFlow :=
  if values = [] then none
  else (decodeKey key).map fun key => { mergeValues values with key }

structure PreviousFlow where
  total : TrafficCounters
  firstSeen : Instant
  lastSeen : Instant
  lastSeenNs : ℕ
  tcpFlags : UInt16
  state : FlowState
  generation : ℕ
  service : Option String
  application : Option ApplicationRef

/-- One owner observation kept until it is older than any Flow it may explain. -/
structure OwnerRecord where
  application : ApplicationRef
  observedAt : Instant

def ownerCacheCapacity : ℕ := 65536

def pendingServiceCapacity : ℕ := 65536

def tcpFin : UInt16 := 0x001

def tcpRst : UInt16 := 0x004

/-- Tracks deltas and lifecycle for every Flow seen so far. -/
structure FlowTracker where
  previous : HashMap FlowKey PreviousFlow := ∅
  pendingServices : HashMap FlowKey String := ∅
  owners : HashMap OwnerKey OwnerRecord := ∅
  listeners : HashMap OwnerKey OwnerRecord := ∅
  ownerRetention : Duration
  idleTimeout : Duration
  generation : ℕ := 0
  clock : MonoClock := {}
  merged : List MergedFlow := []

def FlowTracker.new (idleTimeout : Duration) : FlowTracker where
  ownerRetention := max (Duration.saturatingMul idleTimeout 2) (fromSecs 30)
  idleTimeout := idleTimeout

/-! ## Owners -/

/-- The user-space identity of a kernel owner; sockets of the kernel itself have none. -/
def applicationRef (value : OwnerValue) : Option ApplicationRef :=
  if value.tgid = 0 then none
  else some ⟨value.tgid, value.uid, value.cgroupId, commText value.comm⟩

/-- The kernel-shaped lookup key for one side of a Flow. -/
def ownerKey (protocol : UInt8) (kind : OwnerKind) (localPort : UInt16) (remote : IpAddr)
    (remotePort : Option UInt16) : OwnerKey where
  remoteAddr := (ipStorage remote).1
  remotePortBe := (remotePort.map toBe).getD 0
  localPortBe := toBe localPort
  protocol := protocol
  kind := kind.toU8
  ipFamily := (ipStorage remote).2.toU8

namespace FlowTracker

variable (t : FlowTracker)

def recordOwner (key : OwnerKey) (value : OwnerValue) (observedAt : Instant) : FlowTracker :=
  match OwnerKind.fromAbi key.kind, applicationRef value with
  | some .socket, some application =>
    { t with owners := t.owners.insert key ⟨application, observedAt⟩ }
  | some .listener, some application =>
    { t with listeners := t.listeners.insert key ⟨application, observedAt⟩ }
  | _, _ => t

/-- The application of one Flow: the exact socket, for UDP the remote endpoint
alone, and then the listener of the local port. -/
def resolveApplication (key : FlowKey) : Option ApplicationRef :=
  let (localPort, remote) := match key.direction with
    | .outbound => (key.source.port, key.destination)
    | .inbound => (key.destination.port, key.source)
  match localPort with
  | none => none
  | some localPort =>
    let protocol := key.protocol.toU8
    match AList.lookup (ownerKey protocol .socket localPort remote.address remote.port) t.owners with
    | some record => some record.application
    | none =>
      let byRemote :=
        if key.protocol = .udp then
          AList.lookup (ownerKey TransportProtocol.udp.toU8 .socket 0 remote.address remote.port)
            t.owners
        else none
      match byRemote with
      | some record => some record.application
      | none =>
        (AList.lookup (ownerKey protocol .listener localPort (.v4 (.new 0 0 0 0)) none)
          t.listeners).map OwnerRecord.application

/-- Drops owner observations older than any Flow they could still explain. -/
def purgeOwners (now : Instant) : FlowTracker :=
  let live := fun (_ : OwnerKey) (record : OwnerRecord) =>
    decide (Instant.saturatingDurationSince now record.observedAt < t.ownerRetention)
  let owners := HashMap.retain t.owners live
  let listeners := HashMap.retain t.listeners live
  { t with
    owners := if ownerCacheCapacity < owners.keys.length then ∅ else owners
    listeners := if ownerCacheCapacity < listeners.keys.length then ∅ else listeners }

/-- Records a fingerprinted service for a Flow, or keeps it until the Flow is observed. -/
def setService (key : FlowKey) (service : String) : FlowTracker :=
  match AList.lookup key t.previous with
  | some previous =>
    { t with previous := t.previous.insert key { previous with service := some service } }
  | none =>
    if t.pendingServices.keys.length < pendingServiceCapacity then
      { t with pendingServices := t.pendingServices.insert key service }
    else t

/-! ## Observing and reconciling -/

/-- Empties the buffer for merging a poll's map entries. -/
def mergedBuffer : FlowTracker := { t with merged := [] }

/-- What a poll does with an entry it visits. -/
def visitFlow (key : AbiFlowKey) (values : List FlowValue) : FlowTracker :=
  { t with merged := t.merged ++ (mergeEntry key values).toList }

end FlowTracker

/-- The counters went back, so the kernel entry is a new one. -/
def PreviousFlow.recreatedBy (previous : PreviousFlow) (merged : MergedFlow) : Bool :=
  merged.total.packets < previous.total.packets || merged.total.bytes < previous.total.bytes

def gainedFlag (flag : UInt16) (merged : MergedFlow) (previous : PreviousFlow) : Bool :=
  merged.tcpFlags &&& flag ≠ 0 && previous.tcpFlags &&& flag = 0

namespace FlowTracker

variable (t : FlowTracker) (merged : MergedFlow) (now : Instant) (generation : ℕ)

/-- The first observation of a Flow. -/
def observeNew : FlowUpdate × FlowTracker :=
  let firstSeen := t.clock.toInstant now merged.firstSeenNs
  let lastSeen := t.clock.toInstant now merged.lastSeenNs
  let application := t.resolveApplication merged.key
  let service := AList.lookup merged.key t.pendingServices
  let previous : PreviousFlow := {
    total := merged.total
    firstSeen, lastSeen
    lastSeenNs := merged.lastSeenNs
    tcpFlags := merged.tcpFlags
    state := .active
    generation, service, application }
  ({ key := merged.key
     delta := merged.total
     total := merged.total
     firstSeen, lastSeen
     state := .active
     service, application },
    { t with
      pendingServices := t.pendingServices.erase merged.key
      previous := t.previous.insert merged.key previous })

/-- A further observation of a Flow. -/
def observeAgain (previous : PreviousFlow) : Option FlowUpdate × PreviousFlow :=
  let firstSeen := t.clock.toInstant now merged.firstSeenNs
  let lastSeen := t.clock.toInstant now merged.lastSeenNs
  let application := t.resolveApplication merged.key
  let previous := { previous with
    application := previous.application.or application
    generation }
  let recreated := previous.recreatedBy merged
  let active := recreated || previous.lastSeenNs < merged.lastSeenNs
  if !active && previous.state ≠ .active then (none, previous)
  else
    let delta := if recreated then merged.total else
      ⟨merged.total.packets - previous.total.packets, merged.total.bytes - previous.total.bytes⟩
    let idle := !active &&
      t.idleTimeout ≤ Instant.saturatingDurationSince now previous.lastSeen
    let state : FlowState :=
      if gainedFlag tcpRst merged previous then .ended .tcpReset
      else if gainedFlag tcpFin merged previous then .ended .tcpFin
      else if idle then .ended .idleTimeout
      else .active
    let firstSeen := if recreated then firstSeen else previous.firstSeen
    let previous := { previous with
      total := merged.total
      firstSeen, lastSeen
      lastSeenNs := merged.lastSeenNs
      tcpFlags := merged.tcpFlags
      state }
    (some {
      key := merged.key
      delta
      total := merged.total
      firstSeen, lastSeen, state
      service := previous.service
      application := previous.application }, previous)

def observe : Option FlowUpdate × FlowTracker :=
  match AList.lookup merged.key t.previous with
  | none =>
    let (update, t) := t.observeNew merged now generation
    (some update, t)
  | some previous =>
    let (update, previous) := t.observeAgain merged now generation previous
    (update, { t with previous := t.previous.insert merged.key previous })

/-- The loop over the merged entries. -/
def observeAll (t : FlowTracker) : List MergedFlow → List FlowUpdate × FlowTracker
  | [] => ([], t)
  | merged :: rest =>
    let (update, t) := t.observe merged now generation
    let (updates, t) := observeAll t rest
    (update.toList ++ updates, t)

/-- How long an ended Flow is kept after its last packet. -/
def endedRetention : Duration := max (Duration.saturatingMul t.idleTimeout 4) (fromSecs 120)

/-- Whether a Flow stays after a poll: it was observed, or it has not aged enough. -/
def keeps (previous : PreviousFlow) : Bool :=
  previous.generation = generation ||
    if previous.state ≠ .active then
      Instant.saturatingDurationSince now previous.lastSeen < t.endedRetention
    else Instant.saturatingDurationSince now previous.lastSeen < t.idleTimeout

/-- The update that closes an active Flow that goes. -/
def closingUpdate (key : FlowKey) (previous : PreviousFlow) : Option FlowUpdate :=
  if t.keeps now generation previous || previous.state ≠ .active then none
  else some {
    key
    delta := {}
    total := previous.total
    firstSeen := previous.firstSeen
    lastSeen := previous.lastSeen
    state := .ended .evictedOrUnknown
    service := previous.service
    application := previous.application }

/-- Ages the Flows that were not observed. -/
def ageMissing : List FlowUpdate × FlowTracker :=
  (t.previous.entries.filterMap fun e => t.closingUpdate now generation e.1 e.2,
    { t with previous :=
        HashMap.retain t.previous fun _ previous => t.keeps now generation previous })

/-- The generation wraps around like the `u64` it is. -/
def nextGeneration : ℕ := (t.generation + 1) % 2 ^ 64

def anchored : MonoClock :=
  match (t.merged.map fun flow => flow.lastSeenNs).max? with
  | some newestNs => t.clock.anchorIfNeeded newestNs now
  | none => t.clock

/-- Reconciles one poll's merged entries and ages missing ones. -/
def reconcile : List FlowUpdate × FlowTracker :=
  let merged := t.merged
  let generation := t.nextGeneration
  let (updates, t) := observeAll now generation
    { t with generation, clock := t.anchored now, merged := [] } merged
  let (closed, t) := t.ageMissing now generation
  (updates ++ closed, t.purgeOwners now)

end FlowTracker

end ZimaScope
