import ZimaScope.Ebpf.Cursor
import ZimaScope.Ebpf.Record

/-! # The packet program

What the two TC entry points do to one packet: the counters of the CPU it runs on, the
verdict of the Traffic Rules, the Flow entry, and the samples it leaves in the two ring
buffers. The clock, the room in the bounded maps and the room in the rings are what the
kernel gives it.
-/

namespace ZimaScope

/-- A packet: all of its bytes, and how many of them packet pointers reach. -/
structure Skb where
  bytes : List UInt8
  linear : ℕ
  ifindex : UInt32

namespace Skb

variable (skb : Skb)

/-- What lies between `data` and `data_end`. -/
def data : List UInt8 := skb.bytes.take skb.linear

def len : ℕ := skb.bytes.length

/-- The bytes from the payload on, as `bpf_skb_load_bytes` finds them. -/
def payload (packet : ParsedPacket) : PacketPayload :=
  ⟨skb.bytes.drop packet.payloadOffset, packet.payloadEnd - packet.payloadOffset⟩

end Skb

inductive TcAction | unspec | shot
  deriving DecidableEq, Repr

/-- The counters that the packet program keeps on each CPU. -/
structure PacketStats extends KernelStats where
  packetsSeen : ℕ := 0
  packetsParsed : ℕ := 0
  parseFailures : ℕ := 0
  mapUpdateFailures : ℕ := 0
  domainEventsEmitted : ℕ := 0
  domainEventsDropped : ℕ := 0
  serviceEventsEmitted : ℕ := 0
  serviceEventsDropped : ℕ := 0
  policyDroppedPackets : ℕ := 0
  policyDroppedBytes : ℕ := 0
  deriving DecidableEq, Repr

def serviceSampledFlag : UInt16 := (1 : UInt16) <<< 0

def serviceSampleMax : ℕ := 64

/-- The value of a Flow on one CPU. -/
structure FlowSlot extends FlowEntry where
  serviceFlags : UInt16 := 0
  deriving DecidableEq, Repr

def FlowSlot.record (slot : FlowSlot) (packet : ParsedPacket) (now packetLen : ℕ) : FlowSlot :=
  { slot with toFlowEntry := slot.toFlowEntry.record packet now packetLen }

/-- The first payload of a Flow direction, for protocol fingerprinting. -/
structure ServiceSample where
  observedMonoNs : ℕ
  key : AbiFlowKey
  payloadLen : UInt16
  payload : Vector UInt8 64
  deriving DecidableEq

/-- The bytes in a buffer of the sample's size; what is behind them is never read. -/
def serviceBuffer (bytes : List UInt8) : Vector UInt8 64 :=
  ⟨(bytes.take 64 ++ List.replicate (64 - bytes.length) 0).toArray, by simp; omega⟩

/-- What becomes of a sample: it is not due, it finds no room or no bytes, or it is in the ring. -/
inductive Sampled (α : Type)
  | skipped
  | dropped
  | emitted (sample : α)
  deriving DecidableEq

namespace Sampled

variable {α : Type}

def sample? : Sampled α → Option α
  | emitted sample => some sample
  | _ => none

def attempted : Sampled α → Bool
  | skipped => false
  | _ => true

end Sampled

/-- What the kernel gives to the update of a Flow entry: the keys that make room for a new one
(none if it is refused), and room in the two rings. -/
structure Room where
  evicted : Option (List AbiFlowKey)
  service : Bool
  domain : Bool

/-- Copies the first payload of this direction into the ring, once; the flag is set even when
the ring is full. -/
def sampleService (skb : Skb) (key : AbiFlowKey) (packet : ParsedPacket) (slot : FlowSlot) (now : ℕ)
    (reserved : Bool) : FlowSlot × Sampled ServiceSample :=
  if slot.serviceFlags &&& serviceSampledFlag ≠ 0 then (slot, .skipped)
  else if packet.protocol ≠ TransportProtocol.tcp.toU8 ∧ packet.protocol ≠ TransportProtocol.udp.toU8 then
    (slot, .skipped)
  else
    let payload := skb.payload packet
    if payload.available = 0 then (slot, .skipped)
    else
      let slot := { slot with serviceFlags := slot.serviceFlags ||| serviceSampledFlag }
      let len := min (payload.available - 1) (serviceSampleMax - 1) + 1
      if reserved then
        match payload.load len with
        | none => (slot, .dropped)
        | some bytes => (slot, .emitted {
            observedMonoNs := now
            key
            payloadLen := .ofNat len
            payload := serviceBuffer bytes })
      else (slot, .dropped)

/-- `sample_domains`, with what the ring makes of the sample. -/
def sampleDomainsInto (skb : Skb) (packet : ParsedPacket) (direction : Direction) (now : ℕ)
    (reserved : Bool) : Sampled DomainSample :=
  let payload := skb.payload packet
  match sampleKind packet.toParsedFlow direction.toU8 payload with
  | none => .skipped
  | some _ =>
    if payload.available = 0 then .skipped
    else if reserved then
      match sampleDomains packet.toParsedFlow direction.toU8 skb.ifindex now payload with
      | none => .dropped
      | some sample => .emitted sample
    else .dropped

namespace PacketStats

variable (stats : PacketStats)

def recordSeen : PacketStats := { stats with packetsSeen := satAdd stats.packetsSeen 1 }

def recordSeenAndParsed : PacketStats :=
  { stats with
    packetsSeen := satAdd stats.packetsSeen 1
    packetsParsed := satAdd stats.packetsParsed 1 }

def recordParseFailure : PacketStats := { stats with parseFailures := satAdd stats.parseFailures 1 }

def recordMapUpdateFailure : PacketStats :=
  { stats with mapUpdateFailures := satAdd stats.mapUpdateFailures 1 }

def recordPolicyDrop (packetLen : ℕ) : PacketStats :=
  { stats with
    policyDroppedPackets := satAdd stats.policyDroppedPackets 1
    policyDroppedBytes := satAdd stats.policyDroppedBytes packetLen }

def recordService : Sampled ServiceSample → PacketStats
  | .skipped => stats
  | .dropped => { stats with serviceEventsDropped := satAdd stats.serviceEventsDropped 1 }
  | .emitted _ => { stats with serviceEventsEmitted := satAdd stats.serviceEventsEmitted 1 }

def recordDomain : Sampled DomainSample → PacketStats
  | .skipped => stats
  | .dropped => { stats with domainEventsDropped := satAdd stats.domainEventsDropped 1 }
  | .emitted _ => { stats with domainEventsEmitted := satAdd stats.domainEventsEmitted 1 }

end PacketStats

/-- The maps of the eBPF object, as the packet program uses them. A Flow entry holds a value for
each CPU. -/
structure KernelMaps (Cpu : Type) where
  policy : PolicyMaps
  owners : OwnerMaps
  flows : AbiFlowKey → Option (Cpu → FlowSlot)
  stats : Cpu → PacketStats
  domainEvents : List DomainSample
  serviceEvents : List ServiceSample

namespace KernelMaps

variable {Cpu : Type} [DecidableEq Cpu] (maps : KernelMaps Cpu) (cpu : Cpu)

def onStats (f : PacketStats → PacketStats) : KernelMaps Cpu :=
  { maps with stats := Function.update maps.stats cpu (f (maps.stats cpu)) }

/-- `FLOW_MAP.insert` of a key that has no entry: the other CPUs start from zero. -/
def insertFlow (key : AbiFlowKey) (slot : FlowSlot) (evicted : List AbiFlowKey) : KernelMaps Cpu :=
  { maps with
    flows := Function.update (fun k => if k ∈ evicted then none else maps.flows k) key
      (some (Function.update (fun _ => {}) cpu slot)) }

/-- Updates the Flow entry for one packet; whether it is recorded, and what became of the sample. -/
def updateFlow (skb : Skb) (key : AbiFlowKey) (packet : ParsedPacket) (now : ℕ) (room : Room) :
    Bool × Sampled ServiceSample × KernelMaps Cpu :=
  match maps.flows key with
  | some slots =>
    let (slot, sampled) :=
      sampleService skb key packet ((slots cpu).record packet now skb.len) now room.service
    (true, sampled,
      { maps with flows := Function.update maps.flows key (some (Function.update slots cpu slot)) })
  | none =>
    let (slot, sampled) :=
      sampleService skb key packet (FlowSlot.record {} packet now skb.len) now room.service
    match room.evicted with
    | none => (false, sampled, maps)
    | some evicted => (true, sampled, maps.insertFlow cpu key slot evicted)

/-- What follows the verdict to pass: the Flow entry and the two samples, or a failure. -/
def account (skb : Skb) (direction : Direction) (packet : ParsedPacket) (now : ℕ) (room : Room) :
    KernelMaps Cpu :=
  let key := flowKey packet.toParsedFlow direction.toU8 skb.ifindex
  let (recorded, service, maps) := maps.updateFlow cpu skb key packet now room
  let maps := { maps with serviceEvents := maps.serviceEvents ++ service.sample?.toList }
  let maps := maps.onStats cpu fun stats => stats.recordService service
  if recorded then
    let domain := sampleDomainsInto skb packet direction now room.domain
    let maps := { maps with domainEvents := maps.domainEvents ++ domain.sample?.toList }
    maps.onStats cpu fun stats => stats.recordDomain domain
  else maps.onStats cpu PacketStats.recordMapUpdateFailure

/-- `policy::enforce` on the maps: under the lock of the rule state. -/
def enforceOn (rule : RuleRef) (direction : Direction) (packetLen now : ℕ) :
    Verdict × KernelMaps Cpu :=
  let (verdict, policy, stats) :=
    enforce maps.policy (maps.stats cpu).toKernelStats rule direction packetLen now
  (verdict, KernelMaps.onStats { maps with policy } cpu fun old => { old with toKernelStats := stats })

/-- `policy::evaluate` on the maps. -/
def evaluateOn (flow : ParsedFlow) (direction : Direction) (packetLen now : ℕ) :
    Verdict × KernelMaps Cpu :=
  let (verdict, policy, stats) := evaluate maps.policy maps.owners flow direction
    (maps.stats cpu).toKernelStats packetLen now
  (verdict, KernelMaps.onStats { maps with policy } cpu fun old => { old with toKernelStats := stats })

/-- One packet on one CPU, with the two readings of the clock. -/
def process (skb : Skb) (direction : Direction) (observed enforced : ℕ) (room : Room) :
    TcAction × KernelMaps Cpu :=
  match parse (bpfCursor skb.data) with
  | .ok packet =>
    let maps := maps.onStats cpu PacketStats.recordSeenAndParsed
    match maps.evaluateOn cpu packet.toParsedFlow direction skb.len enforced with
    | (.drop, maps) => (.shot, maps.onStats cpu fun stats => stats.recordPolicyDrop skb.len)
    | (.pass, maps) => (.unspec, maps.account cpu skb direction packet observed room)
  | .error unparsed =>
    let maps := maps.onStats cpu PacketStats.recordSeen
    (.unspec,
      if unparsed.isFailure then maps.onStats cpu PacketStats.recordParseFailure else maps)

section Evaluate

variable {maps : KernelMaps Cpu} {cpu : Cpu} {flow : ParsedFlow} {direction : Direction}
  {packetLen now : ℕ}

theorem onStats_id {f : PacketStats → PacketStats} (h : f (maps.stats cpu) = maps.stats cpu) :
    maps.onStats cpu f = maps := by
  unfold onStats
  rw [h, Function.update_eq_self]

theorem evaluateOn_none (h : selectRule maps.policy maps.owners flow direction = none) :
    maps.evaluateOn cpu flow direction packetLen now = (.pass, maps) := by
  unfold evaluateOn
  rw [evaluate_eq, h]
  exact congrArg (Prod.mk Verdict.pass) (onStats_id rfl)

theorem evaluateOn_some {rule : RuleRef}
    (h : selectRule maps.policy maps.owners flow direction = some rule) :
    maps.evaluateOn cpu flow direction packetLen now =
      maps.enforceOn cpu rule direction packetLen now := by
  unfold evaluateOn enforceOn
  rw [evaluate_eq, h]

theorem process_drop {skb : Skb} {observed : ℕ} {room : Room} {packet : ParsedPacket}
    (hp : parse (bpfCursor skb.data) = .ok packet) {after : KernelMaps Cpu}
    (h : (maps.onStats cpu PacketStats.recordSeenAndParsed).evaluateOn cpu packet.toParsedFlow
      direction skb.len now = (.drop, after)) :
    maps.process cpu skb direction observed now room =
      (.shot, after.onStats cpu fun stats => stats.recordPolicyDrop skb.len) := by
  unfold process
  simp only [hp, h]

theorem process_pass {skb : Skb} {observed : ℕ} {room : Room} {packet : ParsedPacket}
    (hp : parse (bpfCursor skb.data) = .ok packet) {after : KernelMaps Cpu}
    (h : (maps.onStats cpu PacketStats.recordSeenAndParsed).evaluateOn cpu packet.toParsedFlow
      direction skb.len now = (.pass, after)) :
    maps.process cpu skb direction observed now room =
      (.unspec, after.account cpu skb direction packet observed room) := by
  unfold process
  simp only [hp, h]

theorem enforceOn_none {rule : RuleRef}
    (h : maps.policy.states.lookup ⟨rule.ruleId, direction.toU8⟩ = none) :
    maps.enforceOn cpu rule direction packetLen now = (.pass, maps.onStats cpu fun old =>
      { old with policyMissingState := satAdd old.policyMissingState 1 }) := by
  unfold enforceOn enforce
  simp only [h]
  rfl

theorem enforceOn_some {rule : RuleRef} {state : RuleState}
    (h : maps.policy.states.lookup ⟨rule.ruleId, direction.toU8⟩ = some state) :
    maps.enforceOn cpu rule direction packetLen now =
      ((enforceLocked rule packetLen now state).1, { maps with
        policy := { maps.policy with
          states := maps.policy.states.insert ⟨rule.ruleId, direction.toU8⟩
            (enforceLocked rule packetLen now state).2 } }) := by
  unfold enforceOn enforce
  simp only [h]
  exact congrArg (Prod.mk _) (onStats_id rfl)

end Evaluate

section Account

variable {maps : KernelMaps Cpu} {cpu : Cpu} {skb : Skb} {key : AbiFlowKey} {packet : ParsedPacket}
  {direction : Direction} {now : ℕ} {room : Room}

/-- An update of a Flow entry changes the Flow entries only. -/
theorem updateFlow_frame : (maps.updateFlow cpu skb key packet now room).2.2 =
    { maps with flows := (maps.updateFlow cpu skb key packet now room).2.2.flows } := by
  unfold updateFlow
  cases maps.flows key with
  | some slots => rfl
  | none =>
    cases room.evicted with
    | some evicted => rfl
    | none => rfl

theorem account_eq : maps.account cpu skb direction packet now room =
    let key := flowKey packet.toParsedFlow direction.toU8 skb.ifindex
    let updated := maps.updateFlow cpu skb key packet now room
    let domain := if updated.1 then sampleDomainsInto skb packet direction now room.domain
      else .skipped
    let counted := (maps.stats cpu).recordService updated.2.1
    { maps with
      flows := updated.2.2.flows
      stats := Function.update maps.stats cpu
        (if updated.1 then counted.recordDomain domain else counted.recordMapUpdateFailure)
      domainEvents := maps.domainEvents ++ domain.sample?.toList
      serviceEvents := maps.serviceEvents ++ updated.2.1.sample?.toList } := by
  unfold account
  simp only
  rw [updateFlow_frame]
  cases hrecorded : (maps.updateFlow cpu skb
    (flowKey packet.toParsedFlow direction.toU8 skb.ifindex) packet now room).1 with
  | true => simp [onStats, Function.update_idem]
  | false => simp [onStats, Function.update_idem, Sampled.sample?]

end Account

end KernelMaps

end ZimaScope
