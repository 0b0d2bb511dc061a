import ZimaScope.Policy.Image

/-! # The meaning of traffic rules

What a rule list means in product terms: which active rules cover a packet and
which of them decides, by the evaluation order. Compiled and installed, the
packet path selects the same rule.
-/

namespace ZimaScope

open Priority

/-- An IPv4 packet of a TCP or UDP flow. -/
structure Ipv4Packet where
  srcAddr : Ipv4Addr
  dstAddr : Ipv4Addr
  srcPort : UInt16
  dstPort : UInt16
  protocol : TransportProtocol

namespace Ipv4Packet

/-- What the parser extracts from the packet. -/
def flow (packet : Ipv4Packet) : ParsedFlow where
  srcAddr := ipv4Storage packet.srcAddr
  dstAddr := ipv4Storage packet.dstAddr
  srcPortBe := toBe packet.srcPort
  dstPortBe := toBe packet.dstPort
  protocol := packet.protocol.toU8
  ipFamily := IpFamily.v4.toU8

def remote (packet : Ipv4Packet) : Direction → Ipv4Addr × UInt16
  | .outbound => (packet.dstAddr, packet.dstPort)
  | .inbound => (packet.srcAddr, packet.srcPort)

theorem remote_flow (packet : Ipv4Packet) (direction : Direction) :
    packet.flow.remote direction =
      (ipv4Storage (packet.remote direction).1, toBe (packet.remote direction).2) := by
  cases direction <;> rfl

end Ipv4Packet

/-! ## The product model -/

/-- What an application identity names. -/
inductive Identity
  | process (comm : String)
  | container (id : String)
  | executable
  | unknown

def Identity.ofString (id : String) : Identity :=
  match stripPrefix id "proc:comm:" with
  | some comm => .process comm
  | none =>
    match stripPrefix id "cont:" with
    | some name => .container name
    | none => if startsWith id "proc:" then .executable else .unknown

section Product

variable (ev : Evidence)

/-- The owner is the application of that identity. -/
def ownedBy (id : String) (owner : OwnerValue) : Bool :=
  match Identity.ofString id with
  | .process comm => comm ≠ "" && owner.comm = commBytes comm
  | .container name => owner.cgroupId ∈ ev.inodesForContainer name
  | .executable => (ev.comm id).any fun comm => owner.comm = commBytes comm
  | .unknown => false

/-- The selector covers traffic with this owner and remote endpoint. -/
def Selector.covers (owner : Option OwnerValue) (remote : Ipv4Addr × UInt16) : Selector → Bool
  | .endpoint address port => address = .v4 remote.1 && (port = none || port = some remote.2)
  | .cidr address prefixLen =>
    match address with
    | .v4 network =>
      (addrBits network.octets).take prefixLen = (addrBits remote.1.octets).take prefixLen
    | .v6 _ => false
  | .application id => owner.any (ownedBy ev id)

/-- The place of a rule in the evaluation order: the application tier, where a
block goes first and then the container, then an exact endpoint, a wildcard
port, and prefixes from the longest down. -/
def TrafficRule.place (rule : TrafficRule) : ℕ :=
  match rule.selector with
  | .application id =>
    (match rule.action with | .block => 0 | .limit .. => 2) +
      (match Identity.ofString id with | .container _ => 0 | _ => 1)
  | .endpoint _ (some _) => 4
  | .endpoint _ none => 5
  | .cidr _ prefixLen => 38 - prefixLen

/-- A rule that is valid and whose selector resolves. -/
def TrafficRule.resolvable (rule : TrafficRule) : Bool :=
  (validateRule rule).isOk && (ev.resolve rule.selector).coverage = .complete

def activeRules (rules : List TrafficRule) : List TrafficRule :=
  (rules.filter TrafficRule.enabled).filter (TrafficRule.resolvable ev)

/-- The active rules of a direction that cover a packet. -/
def coveringRules (rules : List TrafficRule) (packet : Ipv4Packet) (direction : Direction)
    (owner : Option OwnerValue) : List TrafficRule :=
  (activeRules ev rules).filter fun rule =>
    direction ∈ rule.direction.directions &&
      rule.selector.covers ev owner (packet.remote direction)

/-- The rule that decides a packet: the first in the evaluation order. -/
def productChoice (rules : List TrafficRule) (packet : Ipv4Packet) (direction : Direction)
    (owner : Option OwnerValue) : Option TrafficRule :=
  (coveringRules ev rules packet direction owner).argmin TrafficRule.place

end Product

/-! ## Compiled rules -/

section Compiled

variable {ev : Evidence}

/-- The reference a rule is installed with. -/
def TrafficRule.ref (rule : TrafficRule) : RuleRef := ⟨rule.id, rule.action.action.toU8⟩

def TrafficRule.compiled (ev : Evidence) (rule : TrafficRule) : CompiledRule :=
  .ofTargets rule.id rule.action rule.direction (ev.resolve rule.selector).targets

/-- The active rules have no kernel match key in common. -/
def KeysApart (ev : Evidence) (rules : List TrafficRule) : Prop :=
  (activeRules ev rules).Pairwise fun a b =>
    ∀ k ∈ (a.compiled ev).matchKeys, k ∉ (b.compiled ev).matchKeys

theorem application_eq (id : String) : ev.application id =
    match Identity.ofString id with
    | .process comm =>
      if comm = "" then .ofUnresolved "process name is empty"
      else .ofTargets [.appComm (commBytes comm)]
    | .container name =>
      if ev.inodesForContainer name = [] then
        .ofUnresolved s!"container {name} has no cgroup directory"
      else .ofTargets ((ev.inodesForContainer name).map .appCgroup)
    | .executable =>
      match ev.comm id with
      | none => .ofUnresolved s!"no stored process name for {id}"
      | some comm => .ofTargets [.appComm (commBytes comm)]
    | .unknown => .ofUnresolved s!"application identity {repr id} has no known prefix" := by
  unfold Evidence.application Identity.ofString
  cases stripPrefix id "proc:comm:" with
  | some comm => rfl
  | none =>
    cases stripPrefix id "cont:" with
    | some name => rfl
    | none =>
      cases startsWith id "proc:" <;> rfl

theorem isOk_iff {e : Except String Unit} : e.isOk = true ↔ e = .ok () := by
  cases e <;> simp [Except.isOk, Except.toBool]

theorem compileRule_systemResolver (ev : Evidence) (rule : TrafficRule) :
    ∃ result, compileRule systemResolver ev rule = (result, ev) ∧
      ((rule.resolvable ev = true ∧ result = .ok (rule.compiled ev)) ∨
        (rule.resolvable ev = false ∧ ∃ reason, result = .error reason)) := by
  unfold compileRule TrafficRule.resolvable systemResolver
  cases hv : validateRule rule with
  | error reason => exact ⟨_, rfl, Or.inr ⟨rfl, reason, rfl⟩⟩
  | ok u =>
    cases hr : ev.resolve rule.selector with
    | mk targets coverage =>
      cases coverage with
      | unresolved reason => exact ⟨_, rfl, Or.inr ⟨by simp, reason, rfl⟩⟩
      | complete =>
        refine ⟨_, rfl, Or.inl ⟨rfl, ?_⟩⟩
        simp [TrafficRule.compiled, hr]

/-- The compiled rules are the resolvable ones, in order. -/
theorem compileRules_systemResolver (rules : List TrafficRule) :
    (compileRules systemResolver ev rules).1 =
      (rules.filter (TrafficRule.resolvable ev)).map (TrafficRule.compiled ev) := by
  induction rules with
  | nil => rfl
  | cons rule rules ih =>
    obtain ⟨result, hc, ⟨hr, rfl⟩ | ⟨hr, reason, rfl⟩⟩ := compileRule_systemResolver ev rule
    · simp [compileRules, hc, hr, ih]
    · simp [compileRules, hc, hr, ih]

theorem rules_of_compile {rules : List TrafficRule} {revision : ℕ} {enabled : Bool}
    {program : CompiledProgram}
    (h : compile systemResolver ev rules revision enabled = .ok program) :
    program.policy =
      ⟨revision, enabled, (activeRules ev rules).map (TrafficRule.compiled ev)⟩ := by
  rw [(compile_ok h).1, compileRules_systemResolver]
  rfl

theorem mem_matchKeys_compiled {rule : TrafficRule} {k : MatchKey} :
    k ∈ (rule.compiled ev).matchKeys ↔ k.direction ∈ rule.direction.directions ∧
      ∃ target ∈ (ev.resolve rule.selector).targets, (targetEntry k.direction target).key = k := by
  simp only [CompiledRule.matchKeys, TrafficRule.compiled, CompiledRule.ofTargets,
    matchesFromTargets, List.mem_map, List.mem_flatMap]
  constructor
  · rintro ⟨_, ⟨d, hd, target, ht, rfl⟩, rfl⟩
    rw [direction_targetEntry]
    exact ⟨hd, target, ht, rfl⟩
  · rintro ⟨hd, target, ht, hk⟩
    exact ⟨_, ⟨_, hd, target, ht, rfl⟩, hk⟩

/-! ## Targets and match keys of a selector -/

/-- The process name an application identity is matched by. -/
def Evidence.processName (ev : Evidence) (id : String) : Option String :=
  match Identity.ofString id with
  | .process comm => if comm = "" then .none else some comm
  | .executable => ev.comm id
  | .container _ | .unknown => .none

/-- The targets of an application: the cgroups of a container, or one process name. -/
theorem mem_targets_application {id : String} {target : MatchTarget} :
    target ∈ (ev.application id).targets ↔
      (∃ name, Identity.ofString id = .container name ∧
        ∃ g ∈ ev.inodesForContainer name, target = .appCgroup g) ∨
      ∃ comm, ev.processName id = some comm ∧ target = .appComm (commBytes comm) := by
  rw [application_eq]
  unfold Evidence.processName
  cases Identity.ofString id with
  | process comm => by_cases hc : comm = "" <;> simp [Resolution.ofUnresolved, hc]
  | container name =>
    by_cases hn : ev.inodesForContainer name = []
    · simp [Resolution.ofUnresolved, hn]
    · simp [hn, eq_comm]
  | executable => cases ev.comm id <;> simp [Resolution.ofUnresolved]
  | unknown => simp [Resolution.ofUnresolved]

/-- What a selector resolves to. -/
theorem mem_targets {selector : Selector} {target : MatchTarget} :
    target ∈ (ev.resolve selector).targets ↔
      (∃ a port, selector = .endpoint (.v4 a) port ∧ target = .endpoint a port) ∨
      (∃ a prefixLen, selector = .cidr (.v4 a) prefixLen ∧ target = .cidr a prefixLen) ∨
      ∃ id, selector = .application id ∧ target ∈ (ev.application id).targets := by
  rcases selector with ⟨_ | _, _⟩ | ⟨_ | _, _⟩ | id <;>
    simp [Evidence.resolve, Resolution.ofUnresolved, eq_comm]

theorem endpoint_mem_targets {selector : Selector} {a : Ipv4Addr} {port : Option UInt16} :
    .endpoint a port ∈ (ev.resolve selector).targets ↔ selector = .endpoint (.v4 a) port := by
  simp [mem_targets, mem_targets_application]

theorem cidr_mem_targets {selector : Selector} {a : Ipv4Addr} {prefixLen : ℕ} :
    .cidr a prefixLen ∈ (ev.resolve selector).targets ↔ selector = .cidr (.v4 a) prefixLen := by
  simp [mem_targets, mem_targets_application]

theorem appCgroup_mem_targets {selector : Selector} {g : UInt64} :
    .appCgroup g ∈ (ev.resolve selector).targets ↔ ∃ id name, selector = .application id ∧
      Identity.ofString id = .container name ∧ g ∈ ev.inodesForContainer name := by
  simp [mem_targets, mem_targets_application]

theorem appComm_mem_targets {selector : Selector} {bytes : Vector UInt8 16} :
    .appComm bytes ∈ (ev.resolve selector).targets ↔ ∃ id comm, selector = .application id ∧
      ev.processName id = some comm ∧ bytes = commBytes comm := by
  simp [mem_targets, mem_targets_application]

theorem ownedBy_iff {id : String} {owner : OwnerValue} : ownedBy ev id owner = true ↔
    (∃ name, Identity.ofString id = .container name ∧
        owner.cgroupId ∈ ev.inodesForContainer name) ∨
      ∃ comm, ev.processName id = some comm ∧ owner.comm = commBytes comm := by
  unfold ownedBy Evidence.processName
  cases Identity.ofString id with
  | process comm => by_cases hc : comm = "" <;> simp [hc]
  | container name => simp
  | executable => cases ev.comm id <;> simp
  | unknown => simp

section MatchKeys

variable {rule : TrafficRule} {d : Direction} {target : MatchTarget}

theorem key_targetEntry_eq_appCgroup {g : UInt64} :
    (targetEntry d target).key = .appCgroup d g ↔ target = .appCgroup g := by
  cases target <;> simp [targetEntry, MatchEntry.key]

theorem key_targetEntry_eq_appComm {bytes : Vector UInt8 16} :
    (targetEntry d target).key = .appComm d bytes ↔ target = .appComm bytes := by
  cases target <;> simp [targetEntry, MatchEntry.key]

theorem key_targetEntry_eq_endpointExact {a : Ipv4Addr} {portBe : UInt16} :
    (targetEntry d target).key = .endpointExact d ⟨ipv4Storage a, portBe⟩ ↔
      ∃ port, target = .endpoint a port ∧ (port.map toBe).getD 0 = portBe := by
  cases target <;> simp [targetEntry, MatchEntry.key, ipv4Storage_injective.eq_iff]

theorem key_targetEntry_eq_endpointCidr {bits : List Bool} :
    (targetEntry d target).key = .endpointCidr d bits ↔
      ∃ a prefixLen, target = .cidr a prefixLen ∧ (addrBits a.octets).take prefixLen = bits := by
  cases target <;> simp [targetEntry, MatchEntry.key, lpmKey]

theorem appCgroup_mem_matchKeys {g : UInt64} :
    .appCgroup d g ∈ (rule.compiled ev).matchKeys ↔ d ∈ rule.direction.directions ∧
      ∃ id name, rule.selector = .application id ∧
        Identity.ofString id = .container name ∧ g ∈ ev.inodesForContainer name := by
  rw [mem_matchKeys_compiled, ← appCgroup_mem_targets]
  simp [MatchKey.direction, key_targetEntry_eq_appCgroup]

theorem appComm_mem_matchKeys {bytes : Vector UInt8 16} :
    .appComm d bytes ∈ (rule.compiled ev).matchKeys ↔ d ∈ rule.direction.directions ∧
      ∃ id comm, rule.selector = .application id ∧
        ev.processName id = some comm ∧ bytes = commBytes comm := by
  rw [mem_matchKeys_compiled, ← appComm_mem_targets]
  simp [MatchKey.direction, key_targetEntry_eq_appComm]

theorem endpointExact_mem_matchKeys {a : Ipv4Addr} {portBe : UInt16} :
    .endpointExact d ⟨ipv4Storage a, portBe⟩ ∈ (rule.compiled ev).matchKeys ↔
      d ∈ rule.direction.directions ∧ ∃ port, rule.selector = .endpoint (.v4 a) port ∧
        (port.map toBe).getD 0 = portBe := by
  rw [mem_matchKeys_compiled]
  simp only [MatchKey.direction, key_targetEntry_eq_endpointExact]
  constructor
  · rintro ⟨hd, _, ht, port, rfl, hport⟩
    exact ⟨hd, port, endpoint_mem_targets.mp ht, hport⟩
  · rintro ⟨hd, port, hs, hport⟩
    exact ⟨hd, _, endpoint_mem_targets.mpr hs, port, rfl, hport⟩

theorem endpointCidr_mem_matchKeys {bits : List Bool} :
    .endpointCidr d bits ∈ (rule.compiled ev).matchKeys ↔ d ∈ rule.direction.directions ∧
      ∃ a prefixLen, rule.selector = .cidr (.v4 a) prefixLen ∧
        (addrBits a.octets).take prefixLen = bits := by
  rw [mem_matchKeys_compiled]
  simp only [MatchKey.direction, key_targetEntry_eq_endpointCidr]
  constructor
  · rintro ⟨hd, _, ht, a, prefixLen, rfl, hbits⟩
    exact ⟨hd, a, prefixLen, cidr_mem_targets.mp ht, hbits⟩
  · rintro ⟨hd, a, prefixLen, hs, hbits⟩
    exact ⟨hd, _, cidr_mem_targets.mpr hs, a, prefixLen, rfl, hbits⟩

end MatchKeys

end Compiled

end ZimaScope
