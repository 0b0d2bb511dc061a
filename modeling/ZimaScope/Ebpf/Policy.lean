import ZimaScope.Ebpf.Maps

/-! # Traffic Rule evaluation

The packet path: which rule a packet selects from the match maps, and what
enforcing that rule does to its state. A packet writes the state of the rule
it selects and nothing else, and never the parameters of that state.
-/

namespace ZimaScope

/-- The Flow-relevant fields that evaluation reads. -/
structure ParsedFlow where
  srcAddr : Vector UInt8 16
  dstAddr : Vector UInt8 16
  srcPortBe : UInt16
  dstPortBe : UInt16
  protocol : UInt8
  ipFamily : UInt8
  deriving DecidableEq, Repr

/-- The owner evidence the packet path consults. -/
structure OwnerMaps where
  ownerMap : OwnerKey → Option OwnerValue
  listenerMap : OwnerKey → Option OwnerValue

structure KernelStats where
  policyMissingState : ℕ := 0
  deriving DecidableEq, Repr

inductive Verdict | pass | drop
  deriving DecidableEq, Repr

def u64Max : ℕ := 2 ^ 64 - 1

/-- `u64::saturating_add`. -/
def satAdd (a b : ℕ) : ℕ := min (a + b) u64Max

def nsPerSecond : ℕ := 1000000000

def refillCapNs : ℕ := nsPerSecond

def refill (state : RuleState) (now : ℕ) : RuleState :=
  let elapsed := min (now - state.lastRefillMonoNs) refillCapNs
  let add := elapsed * state.rateBytesPerS % 2 ^ 64 / nsPerSecond
  if 0 < add then
    { state with
      tokens := min (satAdd state.tokens add) state.burstBytes
      lastRefillMonoNs := now }
  else state

def dropPacket (state : RuleState) (packetLen : ℕ) : RuleState :=
  { state with
    droppedPackets := satAdd state.droppedPackets 1
    droppedBytes := satAdd state.droppedBytes packetLen }

/-- What the packet path does to a rule state while it holds the lock. -/
def enforceLocked (rule : RuleRef) (packetLen now : ℕ) (state : RuleState) :
    Verdict × RuleState :=
  let state := refill state now
  let state := { state with
    matchedPackets := satAdd state.matchedPackets 1
    matchedBytes := satAdd state.matchedBytes packetLen }
  if rule.action = RuleAction.block.toU8 then (.drop, dropPacket state packetLen)
  else if packetLen ≤ state.tokens then
    (.pass, { state with tokens := state.tokens - packetLen })
  else (.drop, dropPacket state packetLen)

def enforce (maps : PolicyMaps) (stats : KernelStats) (rule : RuleRef) (direction : Direction)
    (packetLen now : ℕ) : Verdict × PolicyMaps × KernelStats :=
  let key : BucketKey := ⟨rule.ruleId, direction.toU8⟩
  match maps.states.lookup key with
  | none => (.pass, maps, { stats with policyMissingState := satAdd stats.policyMissingState 1 })
  | some state =>
    let (verdict, state) := enforceLocked rule packetLen now state
    (verdict, { maps with states := maps.states.insert key state }, stats)

def prefer (container process : RuleRef) : RuleRef :=
  if container.action = RuleAction.block.toU8 then container
  else if process.action = RuleAction.block.toU8 then process
  else container

def lookupOwner (owners : OwnerMaps) (flow : ParsedFlow) (direction : Direction) :
    Option OwnerValue :=
  let (remoteAddr, remotePortBe, localPortBe) := match direction with
    | .outbound => (flow.dstAddr, flow.dstPortBe, flow.srcPortBe)
    | .inbound => (flow.srcAddr, flow.srcPortBe, flow.dstPortBe)
  let isUdp : Bool := flow.protocol = TransportProtocol.udp.toU8
  let key : OwnerKey := {
    remoteAddr, remotePortBe
    localPortBe := if isUdp then 0 else localPortBe
    protocol := flow.protocol
    kind := OwnerKind.socket.toU8
    ipFamily := flow.ipFamily }
  match owners.ownerMap key with
  | some owner => some owner
  | none =>
    if isUdp then none
    else owners.listenerMap {
      remoteAddr := Vector.replicate 16 0
      remotePortBe := 0
      localPortBe
      protocol := flow.protocol
      kind := OwnerKind.listener.toU8
      ipFamily := flow.ipFamily }

section Select

variable (maps : PolicyMaps) (owners : OwnerMaps) (flow : ParsedFlow) (direction : Direction)

def appRule : Option RuleRef :=
  match lookupOwner owners flow direction with
  | none => none
  | some owner =>
    match (maps.appCgroup.get direction).lookup owner.cgroupId,
        (maps.appComm.get direction).lookup owner.comm with
    | some container, some process => some (prefer container process)
    | some container, none => some container
    | none, some process => some process
    | none, none => none

/-- The remote address and port of a flow, in network byte order. -/
def ParsedFlow.remote : Vector UInt8 16 × UInt16 :=
  match direction with
  | .outbound => (flow.dstAddr, flow.dstPortBe)
  | .inbound => (flow.srcAddr, flow.srcPortBe)

def endpointRule : Option RuleRef :=
  let (addr, portBe) := flow.remote direction
  match (maps.endpointExact.get direction).lookup ⟨addr, portBe⟩ with
  | some rule => some rule
  | none =>
    match (maps.endpointExact.get direction).lookup ⟨addr, 0⟩ with
    | some rule => some rule
    | none =>
      if flow.ipFamily ≠ IpFamily.v4.toU8 then none
      else (maps.endpointCidr.get direction).get (addrBits (storageOctets addr))

/-- The rule a packet selects, if any. -/
def selectRule : Option RuleRef :=
  if maps.config.enabled = 0 then none
  else match (if maps.config.appRules ≠ 0 then appRule maps owners flow direction else none) with
    | some rule => some rule
    | none => if maps.config.endpointRules ≠ 0 then endpointRule maps flow direction else none

/-- Evaluates the Traffic Rules against one parsed Flow packet. -/
def evaluate (stats : KernelStats) (packetLen now : ℕ) : Verdict × PolicyMaps × KernelStats :=
  if maps.config.enabled = 0 then (.pass, maps, stats)
  else match (if maps.config.appRules ≠ 0 then appRule maps owners flow direction else none) with
    | some rule => enforce maps stats rule direction packetLen now
    | none =>
      match (if maps.config.endpointRules ≠ 0 then endpointRule maps flow direction else none) with
      | some rule => enforce maps stats rule direction packetLen now
      | none => (.pass, maps, stats)

/-- Evaluation enforces the selected rule and passes everything else. -/
theorem evaluate_eq (stats : KernelStats) (packetLen now : ℕ) :
    evaluate maps owners flow direction stats packetLen now =
      match selectRule maps owners flow direction with
      | some rule => enforce maps stats rule direction packetLen now
      | none => (.pass, maps, stats) := by
  unfold evaluate selectRule
  split
  · rfl
  · cases (if maps.config.appRules ≠ 0 then appRule maps owners flow direction else none) with
    | some rule => rfl
    | none => rfl

end Select

section Frame

variable {maps : PolicyMaps}

theorem params_refill (state : RuleState) (now : ℕ) :
    (refill state now).rateBytesPerS = state.rateBytesPerS ∧
      (refill state now).burstBytes = state.burstBytes := by
  simp only [refill]
  split <;> exact ⟨rfl, rfl⟩

theorem params_enforceLocked (rule : RuleRef) (packetLen now : ℕ) (state : RuleState) :
    (enforceLocked rule packetLen now state).2.rateBytesPerS = state.rateBytesPerS ∧
      (enforceLocked rule packetLen now state).2.burstBytes = state.burstBytes := by
  have h := params_refill state now
  simp only [enforceLocked, dropPacket]
  split
  · exact h
  · split <;> exact h

theorem matchAt_enforce (stats : KernelStats) (rule : RuleRef) (direction : Direction)
    (packetLen now : ℕ) :
    (enforce maps stats rule direction packetLen now).2.1.matchAt = maps.matchAt := by
  unfold enforce
  simp only
  split
  · rfl
  · funext k
    cases k <;> rfl

theorem paramsAt_enforce (stats : KernelStats) (rule : RuleRef) (direction : Direction)
    (packetLen now : ℕ) :
    (enforce maps stats rule direction packetLen now).2.1.paramsAt = maps.paramsAt := by
  unfold enforce
  simp only
  split
  · rfl
  · next state hs =>
    funext key
    by_cases hk : key = ⟨rule.ruleId, direction.toU8⟩
    · subst hk
      obtain ⟨hr, hb⟩ := params_enforceLocked rule packetLen now state
      simp [PolicyMaps.paramsAt, hs, hr, hb]
    · simp [PolicyMaps.paramsAt, hk]

/-- A packet leaves the match table as it is. -/
theorem matchAt_evaluate (owners : OwnerMaps) (flow : ParsedFlow) (direction : Direction)
    (stats : KernelStats) (packetLen now : ℕ) :
    (evaluate maps owners flow direction stats packetLen now).2.1.matchAt = maps.matchAt := by
  rw [evaluate_eq]
  split
  · exact matchAt_enforce _ _ _ _ _
  · rfl

/-- A packet leaves the parameters of every rule state as they are. -/
theorem paramsAt_evaluate (owners : OwnerMaps) (flow : ParsedFlow) (direction : Direction)
    (stats : KernelStats) (packetLen now : ℕ) :
    (evaluate maps owners flow direction stats packetLen now).2.1.paramsAt = maps.paramsAt := by
  rw [evaluate_eq]
  split
  · exact paramsAt_enforce _ _ _ _ _
  · rfl

end Frame

end ZimaScope
