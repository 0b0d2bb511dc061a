import ZimaScope.Collector.Tracker
import ZimaScope.Ebpf.Sample
import ZimaScope.Policy.Meaning

/-! # Owners on both sides

The packet path and the tracker look up the owner of a flow: the one in the kernel's maps, the
other in caches that these maps and the listeners found in `/proc` have been recorded in.
-/

namespace ZimaScope

/-! ## Evidence -/

/-- `owner_key` of the `sock_ops` program. -/
def sockOwnerKey (kind : OwnerKind) (listener : Bool) (remoteIp : Ipv4Addr)
    (remotePortBe localPort : UInt16) : OwnerKey where
  remoteAddr := if listener then Vector.replicate 16 0 else ipv4Storage remoteIp
  remotePortBe := if listener then 0 else remotePortBe
  localPortBe := toBe localPort
  protocol := TransportProtocol.tcp.toU8
  kind := kind.toU8
  ipFamily := IpFamily.v4.toU8

/-- The key of `udp_owner_v1`: that hook has no stable local port. -/
def udpOwnerKey (remoteIp : Ipv4Addr) (remotePortBe : UInt16) : OwnerKey where
  remoteAddr := ipv4Storage remoteIp
  remotePortBe
  localPortBe := 0
  protocol := TransportProtocol.udp.toU8
  kind := OwnerKind.socket.toU8
  ipFamily := IpFamily.v4.toU8

def listenerKey (protocol : UInt8) (port : UInt16) : OwnerKey where
  remoteAddr := Vector.replicate 16 0
  remotePortBe := 0
  localPortBe := toBe port
  protocol
  kind := OwnerKind.listener.toU8
  ipFamily := IpFamily.v4.toU8

/-- What is in the kernel's maps, and what a scan of `/proc` has found, by the keys that are written
there. -/
structure OwnerEvidence where
  ownerMap : HashMap OwnerKey OwnerValue := ∅
  listenerMap : HashMap OwnerKey OwnerValue := ∅
  seeds : List (OwnerKey × OwnerValue) := []
  ownerKeys : ∀ key ∈ ownerMap, (∃ remoteIp remotePortBe localPort,
    key = sockOwnerKey .socket false remoteIp remotePortBe localPort) ∨
      ∃ remoteIp remotePortBe, key = udpOwnerKey remoteIp remotePortBe
  listenerKeys : ∀ key ∈ listenerMap, ∃ remoteIp remotePortBe localPort,
    key = sockOwnerKey .listener true remoteIp remotePortBe localPort
  seedKeys : ∀ seed ∈ seeds, ∃ protocol port, seed.1 = listenerKey (TransportProtocol.toU8 protocol) port

namespace OwnerEvidence

variable (evidence : OwnerEvidence)

def maps : OwnerMaps where
  ownerMap key := AList.lookup key evidence.ownerMap
  listenerMap key := AList.lookup key evidence.listenerMap

/-- What the tracker is given: first the listeners of the scan, then the kernel's entries. -/
def visited : List (OwnerKey × OwnerValue) :=
  evidence.seeds ++ evidence.ownerMap.entries.map (fun e => (e.1, e.2)) ++
    evidence.listenerMap.entries.map (fun e => (e.1, e.2))

/-- A tracker whose caches hold this evidence. -/
def record (t : FlowTracker) (now : Instant) : FlowTracker :=
  evidence.visited.foldl (fun t e => t.recordOwner e.1 e.2 now) { t with owners := ∅, listeners := ∅ }

end OwnerEvidence

/-- The identity that an owner observation carries. -/
def OwnerValue.application (value : OwnerValue) : ApplicationRef :=
  ⟨value.tgid, value.uid, value.cgroupId, commText value.comm⟩

namespace Ipv4Packet

variable (packet : Ipv4Packet) (direction : Direction)

def localPort : UInt16 :=
  match direction with
  | .outbound => packet.srcPort
  | .inbound => packet.dstPort

/-- The flow of the packet in user space. -/
def key (ifindex : { i : UInt32 // i ≠ 0 }) : FlowKey where
  source := ⟨.v4 packet.srcAddr, some packet.srcPort⟩
  destination := ⟨.v4 packet.dstAddr, some packet.dstPort⟩
  interfaceIndex := ifindex
  protocol := packet.protocol
  direction

/-- The key that its socket is captured under. -/
def socketKey : OwnerKey :=
  match packet.protocol with
  | .tcp => sockOwnerKey .socket false (packet.remote direction).1 (toBe (packet.remote direction).2)
      (packet.localPort direction)
  | .udp => udpOwnerKey (packet.remote direction).1 (toBe (packet.remote direction).2)

/-- The key of a listener on its local port. -/
def localListener : OwnerKey := listenerKey packet.protocol.toU8 (packet.localPort direction)

theorem decodeKey_flowKey (ifindex : { i : UInt32 // i ≠ 0 }) :
    decodeKey (flowKey packet.flow direction.toU8 ifindex) = some (packet.key direction ifindex) := by
  have hdirection : Direction.fromAbi direction.toU8 = some direction := by
    cases direction <;> rfl
  have hprotocol : TransportProtocol.fromAbi packet.protocol.toU8 = some packet.protocol := by
    cases packet.protocol <;> rfl
  unfold decodeKey flowKey flow
  simp [hdirection, hprotocol, ifindex.2, ipv4FromAbi, key]

end Ipv4Packet

/-! ## The caches -/

theorem fromAbi_ownerKind (kind : OwnerKind) : OwnerKind.fromAbi kind.toU8 = some kind := by
  cases kind <;> rfl

namespace FlowTracker

/-- The cache for a kind of key. -/
def cache (t : FlowTracker) : OwnerKind → HashMap OwnerKey OwnerRecord
  | .socket => t.owners
  | .listener => t.listeners

/-- The application that a cache holds for a key. -/
def cached (t : FlowTracker) (kind : OwnerKind) (key : OwnerKey) : Option ApplicationRef :=
  (AList.lookup key (t.cache kind)).map OwnerRecord.application

variable {t : FlowTracker} {kind : OwnerKind} {key : OwnerKey} {now : Instant}

theorem cached_recordOwner (hkind : key.kind = kind.toU8) (other : OwnerKey) (value : OwnerValue) :
    (t.recordOwner other value now).cached kind key =
      (if other = key then applicationRef value else none).or (t.cached kind key) := by
  unfold recordOwner
  cases happlication : applicationRef value with
  | none =>
    rw [ite_self, Option.none_or]
    split
    · next h => cases h
    · next h => cases h
    · rfl
  | some application =>
    by_cases hsame : other = key
    · subst hsame
      rw [hkind, fromAbi_ownerKind, if_pos rfl]
      cases kind <;> simp [cached, cache]
    · rw [if_neg hsame, Option.none_or]
      split
      · cases kind <;> simp [cached, cache, Ne.symm hsame]
      · cases kind <;> simp [cached, cache, Ne.symm hsame]
      · rfl

/-- The last entry of a key with an application is the one that is found. -/
theorem cached_foldl (hkind : key.kind = kind.toU8) (entries : List (OwnerKey × OwnerValue)) :
    (entries.foldl (fun t e => t.recordOwner e.1 e.2 now) t).cached kind key =
      (entries.filterMap fun e => if e.1 = key then applicationRef e.2 else none).getLast?.or
        (t.cached kind key) := by
  induction entries generalizing t with
  | nil => rfl
  | cons e entries ih =>
    rw [List.foldl_cons, ih, cached_recordOwner hkind, List.filterMap_cons]
    cases (if e.1 = key then applicationRef e.2 else none) with
    | none => rfl
    | some application =>
      simp only [List.getLast?_cons]
      cases (entries.filterMap fun e => if e.1 = key then applicationRef e.2 else none).getLast? <;> rfl

end FlowTracker

theorem FlowTracker.resolveApplication_key (t : FlowTracker) (packet : Ipv4Packet)
    (direction : Direction) (ifindex : { i : UInt32 // i ≠ 0 }) :
    t.resolveApplication (packet.key direction ifindex) =
      match AList.lookup (ownerKey packet.protocol.toU8 .socket (packet.localPort direction)
        (.v4 (packet.remote direction).1) (some (packet.remote direction).2)) t.owners with
      | some record => some record.application
      | none =>
        match (if packet.protocol = .udp then AList.lookup (ownerKey TransportProtocol.udp.toU8 .socket 0
          (.v4 (packet.remote direction).1) (some (packet.remote direction).2)) t.owners else none) with
        | some record => some record.application
        | none => (AList.lookup (packet.localListener direction) t.listeners).map
            OwnerRecord.application := by
  cases direction <;> rfl

/-- The lookups of the tracker, by what its caches hold. -/
theorem FlowTracker.resolveApplication_eq_cached (t : FlowTracker) (packet : Ipv4Packet)
    (direction : Direction) (ifindex : { i : UInt32 // i ≠ 0 }) :
    t.resolveApplication (packet.key direction ifindex) =
      (t.cached .socket (ownerKey packet.protocol.toU8 .socket (packet.localPort direction)
        (.v4 (packet.remote direction).1) (some (packet.remote direction).2))).or
      ((if packet.protocol = .udp then t.cached .socket (packet.socketKey direction) else none).or
        (t.cached .listener (packet.localListener direction))) := by
  rw [resolveApplication_key]
  simp only [cached, cache]
  cases AList.lookup (ownerKey packet.protocol.toU8 .socket (packet.localPort direction)
      (.v4 (packet.remote direction).1) (some (packet.remote direction).2)) t.owners with
  | some record => rfl
  | none =>
    by_cases hudp : packet.protocol = .udp
    · have hsocket : ownerKey TransportProtocol.udp.toU8 .socket 0 (.v4 (packet.remote direction).1)
          (some (packet.remote direction).2) = packet.socketKey direction := by
        unfold Ipv4Packet.socketKey
        rw [hudp]
        rfl
      rw [if_pos hudp, if_pos hudp, hsocket]
      cases AList.lookup (packet.socketKey direction) t.owners <;> rfl
    · rw [if_neg hudp, if_neg hudp]
      rfl

namespace OwnerEvidence

variable (evidence : OwnerEvidence) {key : OwnerKey}

/-- The application of a key found by the scan. -/
def seeded (key : OwnerKey) : Option ApplicationRef :=
  (evidence.seeds.filterMap fun e => if e.1 = key then applicationRef e.2 else none).getLast?

theorem cached_record {kind : OwnerKind} (hkind : key.kind = kind.toU8) (t : FlowTracker) (now : Instant) :
    (evidence.record t now).cached kind key =
      ((AList.lookup key evidence.listenerMap).bind applicationRef).or
        (((AList.lookup key evidence.ownerMap).bind applicationRef).or (evidence.seeded key)) := by
  have hempty : FlowTracker.cached { t with owners := ∅, listeners := ∅ } kind key = none := by
    cases kind <;> rfl
  have hentries : ∀ m : HashMap OwnerKey OwnerValue,
      ((m.entries.map fun e => (e.1, e.2)).filterMap fun e =>
        if e.1 = key then applicationRef e.2 else none) =
        ((AList.lookup key m).bind applicationRef).toList := by
    intro m
    rw [List.filterMap_map]
    exact HashMap.filterMap_entries m key applicationRef
  unfold record visited seeded
  rw [FlowTracker.cached_foldl hkind, hempty, List.filterMap_append, List.filterMap_append, hentries,
    hentries, Option.or_none, List.getLast?_append, List.getLast?_append]
  cases (AList.lookup key evidence.listenerMap).bind applicationRef <;>
    cases (AList.lookup key evidence.ownerMap).bind applicationRef <;> rfl

/-! ## Both lookups -/

variable {packet : Ipv4Packet} {direction : Direction}

theorem kind_socketKey : (packet.socketKey direction).kind = OwnerKind.socket.toU8 := by
  unfold Ipv4Packet.socketKey
  split <;> rfl

/-- The owner map holds no listeners. -/
theorem lookup_ownerMap_listener (hkind : key.kind = OwnerKind.listener.toU8) :
    AList.lookup key evidence.ownerMap = none := by
  rw [AList.lookup_eq_none]
  intro hmem
  rcases evidence.ownerKeys key hmem with ⟨ip, remote, port, rfl⟩ | ⟨ip, remote, rfl⟩
  · exact absurd hkind (by simp [sockOwnerKey, OwnerKind.toU8])
  · exact absurd hkind (by simp [udpOwnerKey, OwnerKind.toU8])

/-- The listener map holds no sockets. -/
theorem lookup_listenerMap_socket (hkind : key.kind = OwnerKind.socket.toU8) :
    AList.lookup key evidence.listenerMap = none := by
  rw [AList.lookup_eq_none]
  intro hmem
  obtain ⟨ip, remote, port, rfl⟩ := evidence.listenerKeys key hmem
  exact absurd hkind (by simp [sockOwnerKey, OwnerKind.toU8])

theorem seeded_socket (hkind : key.kind = OwnerKind.socket.toU8) : evidence.seeded key = none := by
  unfold seeded
  rw [List.getLast?_eq_none_iff, List.filterMap_eq_nil_iff]
  intro seed hseed
  obtain ⟨protocol, port, hkey⟩ := evidence.seedKeys seed hseed
  rw [if_neg]
  rintro rfl
  rw [hkey] at hkind
  exact absurd hkind (by simp [listenerKey, OwnerKind.toU8])

/-- The kernel has no listener for UDP. -/
theorem lookup_listenerMap_udp (h : packet.protocol = .udp) :
    AList.lookup (packet.localListener direction) evidence.listenerMap = none := by
  rw [AList.lookup_eq_none]
  intro hmem
  obtain ⟨ip, remote, port, heq⟩ := evidence.listenerKeys _ hmem
  have hprotocol := congrArg OwnerKey.protocol heq
  simp [Ipv4Packet.localListener, listenerKey, sockOwnerKey, h, TransportProtocol.toU8] at hprotocol

theorem lookupOwner_tcp (h : packet.protocol = .tcp) :
    lookupOwner evidence.maps packet.flow direction =
      match AList.lookup (packet.socketKey direction) evidence.ownerMap with
      | some owner => some owner
      | none => AList.lookup (packet.localListener direction) evidence.listenerMap := by
  unfold lookupOwner Ipv4Packet.socketKey Ipv4Packet.localListener Ipv4Packet.flow
  rw [h]
  cases direction <;> rfl

theorem lookupOwner_udp (h : packet.protocol = .udp) :
    lookupOwner evidence.maps packet.flow direction =
      match AList.lookup (packet.socketKey direction) evidence.ownerMap with
      | some owner => some owner
      | none => none := by
  unfold lookupOwner Ipv4Packet.socketKey Ipv4Packet.flow
  rw [h]
  cases direction <;> rfl

/-- The packet path takes the socket, and without one the listener. -/
theorem lookupOwner_eq : lookupOwner evidence.maps packet.flow direction =
    (AList.lookup (packet.socketKey direction) evidence.ownerMap).or
      (AList.lookup (packet.localListener direction) evidence.listenerMap) := by
  cases hprotocol : packet.protocol with
  | tcp =>
    rw [evidence.lookupOwner_tcp hprotocol]
    cases AList.lookup (packet.socketKey direction) evidence.ownerMap <;> rfl
  | udp =>
    rw [evidence.lookupOwner_udp hprotocol, evidence.lookup_listenerMap_udp hprotocol]
    cases AList.lookup (packet.socketKey direction) evidence.ownerMap <;> rfl

/-- The tracker does the same, and without either takes a listener of the scan. -/
theorem resolveApplication_eq (t : FlowTracker) (now : Instant) (ifindex : { i : UInt32 // i ≠ 0 }) :
    (evidence.record t now).resolveApplication (packet.key direction ifindex) =
      ((AList.lookup (packet.socketKey direction) evidence.ownerMap).bind applicationRef).or
        (((AList.lookup (packet.localListener direction) evidence.listenerMap).bind applicationRef).or
          (evidence.seeded (packet.localListener direction))) := by
  have hsocket : ∀ key : OwnerKey, key.kind = OwnerKind.socket.toU8 →
      (evidence.record t now).cached .socket key =
        (AList.lookup key evidence.ownerMap).bind applicationRef := by
    intro key hkind
    rw [evidence.cached_record hkind, evidence.lookup_listenerMap_socket hkind,
      evidence.seeded_socket hkind, Option.or_none]
    rfl
  have hlistener : (evidence.record t now).cached .listener (packet.localListener direction) =
      ((AList.lookup (packet.localListener direction) evidence.listenerMap).bind applicationRef).or
        (evidence.seeded (packet.localListener direction)) := by
    rw [evidence.cached_record rfl, evidence.lookup_ownerMap_listener rfl]
    rfl
  rw [FlowTracker.resolveApplication_eq_cached, hlistener, hsocket _ rfl]
  cases hprotocol : packet.protocol with
  | tcp =>
    have hexact : ownerKey TransportProtocol.tcp.toU8 .socket (packet.localPort direction)
        (.v4 (packet.remote direction).1) (some (packet.remote direction).2) =
          packet.socketKey direction := by
      unfold Ipv4Packet.socketKey
      rw [hprotocol]
      rfl
    rw [hexact, if_neg (by decide), Option.none_or]
  | udp =>
    rw [if_pos rfl, hsocket _ kind_socketKey]
    -- with a local port the exact key is never captured, without one it is the key of the remote end
    have hexact : (AList.lookup (ownerKey TransportProtocol.udp.toU8 .socket (packet.localPort direction)
        (.v4 (packet.remote direction).1) (some (packet.remote direction).2)) evidence.ownerMap) = none ∨
          ownerKey TransportProtocol.udp.toU8 .socket (packet.localPort direction)
            (.v4 (packet.remote direction).1) (some (packet.remote direction).2) =
              packet.socketKey direction := by
      rw [AList.lookup_eq_none]
      by_contra hboth
      obtain ⟨hmem, hdiffers⟩ := not_or.mp hboth
      rcases evidence.ownerKeys _ (not_not.mp hmem) with ⟨ip, remote, port, heq⟩ | ⟨ip, remote, heq⟩
      · have hproto := congrArg OwnerKey.protocol heq
        simp [ownerKey, sockOwnerKey, TransportProtocol.toU8] at hproto
      · have hport : toBe (packet.localPort direction) = 0 := congrArg OwnerKey.localPortBe heq
        apply hdiffers
        unfold Ipv4Packet.socketKey ownerKey
        rw [hprotocol, hport]
        rfl
    rcases hexact with hnone | hsame
    · rw [hnone]
      rfl
    · rw [hsame]
      cases (AList.lookup (packet.socketKey direction) evidence.ownerMap).bind applicationRef <;> rfl

/-- What the kernel holds for a packet is of a process, and where it holds nothing the scan has found no
process listening on the local port. -/
structure Shared (packet : Ipv4Packet) (direction : Direction) : Prop where
  socket : ∀ value, AList.lookup (packet.socketKey direction) evidence.ownerMap = some value →
    value.tgid ≠ 0
  listener : AList.lookup (packet.socketKey direction) evidence.ownerMap = none →
    ∀ value, AList.lookup (packet.localListener direction) evidence.listenerMap = some value →
      value.tgid ≠ 0
  seeds : AList.lookup (packet.socketKey direction) evidence.ownerMap = none →
    AList.lookup (packet.localListener direction) evidence.listenerMap = none →
      ∀ seed ∈ evidence.seeds, seed.1 = packet.localListener direction → seed.2.tgid = 0

theorem applicationRef_eq_none {value : OwnerValue} : applicationRef value = none ↔ value.tgid = 0 := by
  unfold applicationRef
  split <;> simp_all

theorem applicationRef_of_process {value : OwnerValue} (h : value.tgid ≠ 0) :
    applicationRef value = some value.application := if_neg h

theorem tgid_ne_zero {value : OwnerValue} {application : ApplicationRef}
    (h : applicationRef value = some application) : application.tgid ≠ 0 := by
  unfold applicationRef at h
  split at h
  · cases h
  · next hprocess =>
    rw [← Option.some.inj h]
    exact hprocess

theorem seeded_eq_none {key : OwnerKey} :
    evidence.seeded key = none ↔ ∀ seed ∈ evidence.seeds, seed.1 = key → seed.2.tgid = 0 := by
  unfold seeded
  rw [List.getLast?_eq_none_iff, List.filterMap_eq_nil_iff]
  apply forall₂_congr
  intro seed _
  by_cases hkey : seed.1 = key
  · simp [hkey, applicationRef_eq_none]
  · simp [hkey]

theorem tgid_of_seeded {key : OwnerKey} {application : ApplicationRef}
    (h : evidence.seeded key = some application) : application.tgid ≠ 0 := by
  have hmem := List.mem_of_getLast? h
  obtain ⟨seed, -, hseed⟩ := List.mem_filterMap.mp hmem
  split at hseed
  · exact tgid_ne_zero hseed
  · cases hseed

theorem tgid_of_listener (key : OwnerKey) {application : ApplicationRef}
    (h : ((AList.lookup key evidence.listenerMap).bind applicationRef).or (evidence.seeded key) =
      some application) : application.tgid ≠ 0 := by
  rcases Option.or_eq_some_iff.mp h with h | ⟨-, h⟩
  · obtain ⟨value, -, hvalue⟩ := Option.bind_eq_some_iff.mp h
    exact tgid_ne_zero hvalue
  · exact evidence.tgid_of_seeded h

/-- An owner that user space reports, itself or something else in its place, is a process. -/
theorem process_of_eq {value : OwnerValue} {rest : Option ApplicationRef}
    (hrest : ∀ {application}, rest = some application → application.tgid ≠ 0)
    (h : (applicationRef value).or rest = some value.application) : value.tgid ≠ 0 := by
  rcases Option.or_eq_some_iff.mp h with h | ⟨-, h⟩
  · exact tgid_ne_zero h
  · exact hrest h

/-- Both sides find the same owner, or none, if and only if the condition holds. -/
theorem owners_agree_iff (t : FlowTracker) (now : Instant) (packet : Ipv4Packet)
    (direction : Direction) (ifindex : { i : UInt32 // i ≠ 0 }) :
    (evidence.record t now).resolveApplication (packet.key direction ifindex) =
        (lookupOwner evidence.maps packet.flow direction).map OwnerValue.application ↔
      evidence.Shared packet direction := by
  rw [resolveApplication_eq, lookupOwner_eq]
  cases hsocket : AList.lookup (packet.socketKey direction) evidence.ownerMap with
  | some value =>
    rw [Option.some_or, Option.map_some, Option.bind_some]
    constructor
    · intro hagree
      constructor
      · intro other hother
        rw [hsocket] at hother
        obtain rfl := Option.some.inj hother
        exact process_of_eq (evidence.tgid_of_listener _) hagree
      · intro hnone
        rw [hsocket] at hnone
        cases hnone
      · intro hnone
        rw [hsocket] at hnone
        cases hnone
    · intro hshared
      rw [applicationRef_of_process (hshared.socket value hsocket)]
      rfl
  | none =>
    rw [Option.bind_none, Option.none_or, Option.none_or]
    cases hlistener : AList.lookup (packet.localListener direction) evidence.listenerMap with
    | some value =>
      rw [Option.map_some, Option.bind_some]
      constructor
      · intro hagree
        constructor
        · intro other hother
          rw [hsocket] at hother
          cases hother
        · intro _ other hother
          rw [hlistener] at hother
          obtain rfl := Option.some.inj hother
          exact process_of_eq evidence.tgid_of_seeded hagree
        · intro _ hnone
          rw [hlistener] at hnone
          cases hnone
      · intro hshared
        rw [applicationRef_of_process (hshared.listener hsocket value hlistener)]
        rfl
    | none =>
      rw [Option.bind_none, Option.none_or, Option.map_none, seeded_eq_none]
      constructor
      · intro hseeds
        constructor
        · intro other hother
          rw [hsocket] at hother
          cases hother
        · intro _ other hother
          rw [hlistener] at hother
          cases hother
        · exact fun _ _ => hseeds
      · exact fun hshared => hshared.seeds hsocket hlistener

end OwnerEvidence

/-! ## A listener from before -/

/-- A listener on port 22 that only the scan has found. -/
def sshEvidence : OwnerEvidence where
  seeds := [(listenerKey TransportProtocol.tcp.toU8 22, ⟨700, 0, 0, Vector.replicate 16 0⟩)]
  ownerKeys key hmem := absurd hmem (AList.notMem_empty key)
  listenerKeys key hmem := absurd hmem (AList.notMem_empty key)
  seedKeys seed hseed := ⟨.tcp, 22, by rw [List.mem_singleton.mp hseed]⟩

/-- A packet that comes in for it. -/
def sshPacket : Ipv4Packet := ⟨.new 192 168 1 9, .new 192 168 1 2, 50000, 22, .tcp⟩

/-- The tracker attributes the flow, the packet path finds no owner. -/
theorem seeded_listener_unknown_to_kernel : ¬ ∀ (evidence : OwnerEvidence) (t : FlowTracker)
    (now : Instant) (packet : Ipv4Packet) (direction : Direction) (ifindex : { i : UInt32 // i ≠ 0 }),
    (evidence.record t now).resolveApplication (packet.key direction ifindex) =
      (lookupOwner evidence.maps packet.flow direction).map OwnerValue.application := by
  intro hall
  have hagree := hall sshEvidence (.new 0) 0 sshPacket .inbound ⟨2, by decide⟩
  rw [OwnerEvidence.resolveApplication_eq] at hagree
  have hseeded : sshEvidence.seeded (sshPacket.localListener .inbound) = none := hagree
  rw [OwnerEvidence.seeded_eq_none] at hseeded
  exact absurd (hseeded _ List.mem_cons_self rfl) (by decide)

end ZimaScope
