import Mathlib.Data.Vector.Basic
import Mathlib.Tactic.IntervalCases

/-! # Kernel ABI

The fixed-size values shared by the packet path and user space. Multi-byte
network fields keep network byte order and a `Be` suffix; padding and the lock
word carry no information and are left out.
-/

namespace ZimaScope

/-- Number of Traffic Rules the match maps are compiled with. -/
def defaultTrafficRuleCapacity : ℕ := 64

inductive IpFamily | v4 | v6
  deriving DecidableEq, Repr

inductive Direction | inbound | outbound
  deriving DecidableEq, Repr

inductive TransportProtocol | tcp | udp
  deriving DecidableEq, Repr

/-- Whether an owner key identifies a connected socket or a listening port. -/
inductive OwnerKind | socket | listener
  deriving DecidableEq, Repr

/-- Action a matched Traffic Rule applies to a packet. -/
inductive RuleAction | limit | block
  deriving DecidableEq, Repr

def IpFamily.toU8 : IpFamily → UInt8
  | .v4 => 4
  | .v6 => 6

def Direction.toU8 : Direction → UInt8
  | .inbound => 1
  | .outbound => 2

def TransportProtocol.toU8 : TransportProtocol → UInt8
  | .tcp => 6
  | .udp => 17

def OwnerKind.toU8 : OwnerKind → UInt8
  | .socket => 1
  | .listener => 2

def RuleAction.toU8 : RuleAction → UInt8
  | .limit => 1
  | .block => 2

theorem Direction.toU8_injective : Function.Injective Direction.toU8 := by
  intro a b h
  cases a <;> cases b <;> simp_all [toU8]

theorem RuleAction.toU8_injective : Function.Injective RuleAction.toU8 := by
  intro a b h
  cases a <;> cases b <;> simp_all [toU8]

/-- `u16::to_be` on the little-endian targets the packet path is built for. -/
def toBe (port : UInt16) : UInt16 :=
  UInt16.ofNat (port.toNat % 256 * 256 + port.toNat / 256)

theorem toNat_toBe (port : UInt16) :
    (toBe port).toNat = port.toNat % 256 * 256 + port.toNat / 256 := by
  have h := port.toNat_lt
  simp only [toBe, UInt16.toNat_ofNat']
  omega

/-- Swapping the two bytes twice restores the port, so `from_be` is `to_be`. -/
@[simp] theorem toBe_toBe (port : UInt16) : toBe (toBe port) = port := by
  apply UInt16.toNat_inj.mp
  have h := port.toNat_lt
  rw [toNat_toBe, toNat_toBe]
  omega

theorem toBe_injective : Function.Injective toBe :=
  Function.LeftInverse.injective toBe_toBe

@[simp] theorem toBe_eq_zero (port : UInt16) : toBe port = 0 ↔ port = 0 :=
  ⟨fun h => toBe_injective (h.trans rfl), fun h => by rw [h]; rfl⟩

/-- An IPv4 address by its four octets, most significant first. -/
structure Ipv4Addr where
  octets : Vector UInt8 4
  deriving DecidableEq, Repr

/-- The address `a.b.c.d`. -/
abbrev Ipv4Addr.new (a b c d : UInt8) : Ipv4Addr := ⟨#v[a, b, c, d]⟩

abbrev Ipv4Addr.a (address : Ipv4Addr) : UInt8 := address.octets[0]

abbrev Ipv4Addr.b (address : Ipv4Addr) : UInt8 := address.octets[1]

abbrev Ipv4Addr.c (address : Ipv4Addr) : UInt8 := address.octets[2]

abbrev Ipv4Addr.d (address : Ipv4Addr) : UInt8 := address.octets[3]

inductive IpAddr
  | v4 (address : Ipv4Addr)
  | v6 (octets : Vector UInt8 16)
  deriving DecidableEq, Repr

/-- Zero-extended 16-byte storage for an IPv4 address. -/
def ipv4Storage (address : Ipv4Addr) : Vector UInt8 16 :=
  let o := address.octets
  #v[0, 0, 0, 0, 0, 0, 0, 0, 0, 0, 0, 0, o[0], o[1], o[2], o[3]]

/-- The last four bytes of a 16-byte address, as the packet path copies them out. -/
def storageOctets (storage : Vector UInt8 16) : Vector UInt8 4 :=
  #v[storage[12], storage[13], storage[14], storage[15]]

/-- Reads the IPv4 address from its zero-extended 16-byte kernel storage. -/
def ipv4FromAbi (storage : Vector UInt8 16) : Ipv4Addr := ⟨storageOctets storage⟩

@[simp] theorem storageOctets_ipv4Storage (address : Ipv4Addr) :
    storageOctets (ipv4Storage address) = address.octets := by
  ext i hi
  interval_cases i <;> rfl

theorem ipv4Storage_injective : Function.Injective ipv4Storage := by
  intro a b h
  have ho := congrArg storageOctets h
  simp only [storageOctets_ipv4Storage] at ho
  cases a; cases b
  exact congrArg Ipv4Addr.mk ho

/-- The address bits of four octets, most significant bit first. -/
def addrBits (octets : Vector UInt8 4) : List Bool :=
  octets.toList.flatMap fun octet =>
    (List.range 8).map fun i => octet.toNat.testBit (7 - i)

@[simp] theorem length_addrBits (octets : Vector UInt8 4) : (addrBits octets).length = 32 := by
  have h : octets.toList.length = 4 := octets.length_toList
  simp [addrBits, List.length_flatMap, h]

/-- Identity of one direction of a Flow as the packet path records it. -/
structure AbiFlowKey where
  srcAddr : Vector UInt8 16
  dstAddr : Vector UInt8 16
  srcPortBe : UInt16
  dstPortBe : UInt16
  ifindex : UInt32
  protocol : UInt8
  direction : UInt8
  ipFamily : UInt8
  deriving DecidableEq, Repr

/-- Identity of a socket owner as captured in process context. -/
structure OwnerKey where
  remoteAddr : Vector UInt8 16
  remotePortBe : UInt16
  localPortBe : UInt16
  protocol : UInt8
  kind : UInt8
  ipFamily : UInt8
  deriving DecidableEq, Repr

/-- The process that owns a socket, captured at connect or listen time. -/
structure OwnerValue where
  tgid : UInt32
  uid : UInt32
  cgroupId : UInt64
  comm : Vector UInt8 16
  deriving DecidableEq, Repr

/-- Value stored in every Traffic Rule match map. -/
structure RuleRef where
  ruleId : UInt32
  action : UInt8
  deriving DecidableEq, Repr

/-- Key of one rule-direction rule state entry. -/
structure BucketKey where
  ruleId : UInt32
  direction : UInt8
  deriving DecidableEq, Repr

/-- Runtime state of one rule in one direction; every field is a `u64`. -/
structure RuleState where
  rateBytesPerS : ℕ := 0
  burstBytes : ℕ := 0
  tokens : ℕ := 0
  lastRefillMonoNs : ℕ := 0
  matchedPackets : ℕ := 0
  matchedBytes : ℕ := 0
  droppedPackets : ℕ := 0
  droppedBytes : ℕ := 0
  deriving DecidableEq, Repr, Inhabited

/-- Exact Endpoint match key; a `portBe` of zero matches every port. -/
structure EndpointMatchKey where
  addr : Vector UInt8 16
  portBe : UInt16
  deriving DecidableEq, Repr

/-- Single-entry policy fast path: master switch, tier flags and revision. -/
structure PolicyConfig where
  enabled : UInt8 := 0
  appRules : UInt8 := 0
  endpointRules : UInt8 := 0
  revision : UInt32 := 0
  deriving DecidableEq, Repr, Inhabited

end ZimaScope
