import ZimaScope.Ebpf.Domain
import ZimaScope.Ebpf.Policy

/-! # Payload samples

The packet path never parses domain evidence. It copies a bounded sample of
candidate packets, and user space parses it.
-/

namespace ZimaScope

inductive SampleKind | dns | tlsClientHello | httpRequest
  deriving DecidableEq, Repr

def SampleKind.toU8 : SampleKind → UInt8
  | .dns => 1
  | .tlsClientHello => 2
  | .httpRequest => 3

def SampleKind.fromAbi (value : UInt8) : Option SampleKind :=
  if value = 1 then some .dns
  else if value = 2 then some .tlsClientHello
  else if value = 3 then some .httpRequest
  else none

def domainSampleMax : ℕ := 512

/-- One bounded payload sample emitted from the packet path; `address` is the
direction-relative peer. -/
structure DomainSample where
  observedMonoNs : ℕ
  ifindex : UInt32
  payloadLen : UInt16
  kind : UInt8
  transport : UInt8
  ipFamily : UInt8
  direction : UInt8
  address : Vector UInt8 16
  payload : Vector UInt8 512
  deriving DecidableEq

/-- The bytes of a packet from its payload on, and how many of them are payload by its
headers. -/
structure PacketPayload where
  bytes : List UInt8
  available : ℕ

def peekLen : ℕ := 8

/-- `bpf_skb_load_bytes` at the start of the payload. -/
def PacketPayload.load (payload : PacketPayload) (len : ℕ) : Option (List UInt8) :=
  MemoryCursor.slice payload.bytes 0 len

/-- The bytes in a buffer of the sample's size; what is behind them is never read. -/
def sampleBuffer (bytes : List UInt8) : Vector UInt8 512 :=
  ⟨(bytes.take 512 ++ List.replicate (512 - bytes.length) 0).toArray, by simp; omega⟩

section Sample

variable (flow : ParsedFlow) (direction : UInt8) (ifindex : UInt32) (observedMonoNs : ℕ)
  (payload : PacketPayload)

def emitDomainSample (kind : SampleKind) (address : Vector UInt8 16) : Option DomainSample := do
  guard (payload.available ≠ 0)
  let len := min (payload.available - 1) (domainSampleMax - 1) + 1
  let bytes ← payload.load len
  return {
    observedMonoNs
    ifindex
    payloadLen := .ofNat len
    kind := kind.toU8
    transport := flow.protocol
    ipFamily := IpFamily.v4.toU8
    direction
    address
    payload := sampleBuffer bytes }

/-- What a packet is a candidate for, by its ports and the first bytes of its payload. -/
def sampleKind : Option SampleKind := do
  let isTcp : Bool := flow.protocol = TransportProtocol.tcp.toU8
  let isUdp : Bool := flow.protocol = TransportProtocol.udp.toU8
  let outbound : Bool := direction = Direction.outbound.toU8
  let isDns := (isTcp || isUdp) && (flow.srcPortBe = toBe dnsPort || flow.dstPortBe = toBe dnsPort)
  let isTls := outbound && isTcp && flow.dstPortBe = toBe tlsPort
  let isHttp := outbound && isTcp && flow.dstPortBe = toBe httpPort
  guard (isDns || isTls || isHttp)
  let peek ← payload.load peekLen
  if isDns then
    let flags ← peek[if isTcp then 4 else 2]?
    guard (flags &&& 0x80 ≠ 0)
    return .dns
  else if isTls then
    guard (peek[0]? = some 0x16 ∧ peek[5]? = some 0x01)
    return .tlsClientHello
  else
    let first ← peek[0]?
    guard (first = 71 ∨ first = 80 ∨ first = 72 ∨ first = 68)
    return .httpRequest

/-- Selects candidate packets and copies a bounded payload sample for user space to parse. -/
def sampleDomains : Option DomainSample := do
  let kind ← sampleKind flow direction payload
  emitDomainSample flow direction ifindex observedMonoNs payload kind
    (if direction = Direction.outbound.toU8 then flow.dstAddr else flow.srcAddr)

end Sample

/-- `flow_key`. -/
def flowKey (flow : ParsedFlow) (direction : UInt8) (ifindex : UInt32) : AbiFlowKey where
  srcAddr := flow.srcAddr
  dstAddr := flow.dstAddr
  srcPortBe := flow.srcPortBe
  dstPortBe := flow.dstPortBe
  ifindex
  protocol := flow.protocol
  direction
  ipFamily := flow.ipFamily

end ZimaScope
