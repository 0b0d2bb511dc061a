import ZimaScope.Ebpf.Policy
import ZimaScope.Ebpf.Wire
import ZimaScope.Lib.Storage

/-! # Packet parsing

Bounded Ethernet, VLAN, IPv4, TCP and UDP parsing over a packet cursor, and the
inversion of a parse: where the headers of a Flow observation lie and which of
their bits it carries.
-/

namespace ZimaScope

/-! Positions and lengths of the headers. -/

namespace EthHdr

def len : ℕ := 14
def etherType : ℕ := 12

end EthHdr

namespace VlanHdr

def len : ℕ := 4
def etherType : ℕ := 2

end VlanHdr

namespace Ipv4Hdr

def len : ℕ := 20
def vihl : ℕ := 0
def totLen : ℕ := 2
def frags : ℕ := 6
def proto : ℕ := 9
def srcAddr : ℕ := 12
def dstAddr : ℕ := 16

end Ipv4Hdr

namespace TcpHdr

def len : ℕ := 20
def source : ℕ := 0
def dest : ℕ := 2

end TcpHdr

namespace UdpHdr

def len : ℕ := 8
def src : ℕ := 0
def dst : ℕ := 2

end UdpHdr

def tcpDataOffsetAndFlagsOffset : ℕ := 12

def etherTypeIpv4 : UInt16 := 0x0800
def etherTypeIeee8021q : UInt16 := 0x8100
def etherTypeIeee8021ad : UInt16 := 0x88A8

def parseFlagVlanTagged : UInt16 := (1 : UInt16) <<< 0
def parseFlagIpOptions : UInt16 := (1 : UInt16) <<< 1
def parseFlagIpFragmented : UInt16 := (1 : UInt16) <<< 2

/-- A packet that is a Flow observation, with what the Flow key leaves out. -/
structure ParsedPacket extends ParsedFlow where
  tcpFlags : UInt16
  parseFlags : UInt16
  payloadOffset : ℕ
  payloadEnd : ℕ
  deriving DecidableEq, Repr

/-- A packet that is no Flow observation: out of scope, incomplete or malformed. -/
inductive Unparsed | skipped | truncated | invalid
  deriving DecidableEq, Repr

abbrev ParseResult := Except Unparsed ParsedPacket

/-- `is_failure`: in scope but malformed or incomplete. -/
def Unparsed.isFailure : Unparsed → Bool
  | skipped => false
  | truncated | invalid => true

/-- Whether `len` bytes at `offset` are present in the captured packet. -/
def PacketCursor.has (cursor : PacketCursor) (offset len : ℕ) : Bool :=
  len = 0 || (cursor.readU8 (offset + len - 1)).isSome

/-- A read that fails as truncated. -/
def orTruncated {α : Type} (read : Option α) : Except Unparsed α :=
  match read with
  | some a => .ok a
  | none => .error .truncated

/-- A check that fails as `unparsed`. -/
def demand (ok : Prop) [Decidable ok] (unparsed : Unparsed) : Except Unparsed Unit :=
  if ok then .ok () else .error unparsed

section Checks

variable {α β : Type} {read : Option α} {ok : Prop} [Decidable ok] {unparsed : Unparsed}

theorem orTruncated_bind_eq_ok {f : α → Except Unparsed β} {b : β} :
    (orTruncated read >>= f) = .ok b ↔ ∃ a, read = some a ∧ f a = .ok b := by
  cases read with
  | none => exact ⟨nofun, nofun⟩
  | some a =>
    constructor
    · intro h
      exact ⟨a, rfl, h⟩
    · rintro ⟨_, ⟨⟩, h⟩
      exact h

theorem demand_eq_ok : demand ok unparsed = .ok () ↔ ok := by
  unfold demand
  split <;> simp_all

theorem demand_bind_eq_ok {x : Except Unparsed β} {b : β} :
    (demand ok unparsed >>= fun _ => x) = .ok b ↔ ok ∧ x = .ok b := by
  rw [Except.bind_eq_ok]
  constructor
  · rintro ⟨_, hok, hx⟩
    exact ⟨demand_eq_ok.mp hok, hx⟩
  · rintro ⟨hok, hx⟩
    exact ⟨(), demand_eq_ok.mpr hok, hx⟩

end Checks

/-- The 16-byte storage of an address that was read as a word. -/
def wordStorage (word : UInt32) : Vector UInt8 16 := ipv4Storage ⟨⟨(u32Bytes word).toArray, rfl⟩⟩

theorem wordStorage_eq {word : UInt32} {address : Ipv4Addr}
    (h : u32Bytes word = address.octets.toList) : wordStorage word = ipv4Storage address :=
  congrArg (fun octets => ipv4Storage ⟨octets⟩) (Vector.toList_inj.mp h)

section Parse

variable (cursor : PacketCursor)

/-- The fixed part of the TCP or UDP header lies in the datagram and in the captured bytes. -/
def demandL4 (protocol : UInt8) (l4Offset declaredEnd : ℕ) : Except Unparsed Unit :=
  if protocol = TransportProtocol.tcp.toU8 then
    demand (l4Offset + TcpHdr.len ≤ declaredEnd ∧ cursor.has l4Offset TcpHdr.len) .truncated
  else if protocol = TransportProtocol.udp.toU8 then
    demand (l4Offset + UdpHdr.len ≤ declaredEnd ∧ cursor.has l4Offset UdpHdr.len) .truncated
  else .error .skipped

/-- The flags and the length of the TCP or UDP header. -/
def parseL4 (protocol : UInt8) (l4Offset declaredEnd : ℕ) : Except Unparsed (UInt16 × ℕ) :=
  if protocol = TransportProtocol.tcp.toU8 then do
    let offsetFlags ← orTruncated (cursor.readU16Be (l4Offset + tcpDataOffsetAndFlagsOffset))
    let dataOffsetWords := (offsetFlags >>> 12).toNat
    demand (TcpHdr.len / 4 ≤ dataOffsetWords) .invalid
    demand (l4Offset + dataOffsetWords * 4 ≤ declaredEnd ∧ cursor.has l4Offset (dataOffsetWords * 4))
      .truncated
    return (offsetFlags &&& 0x01FF, dataOffsetWords * 4)
  else return (0, UdpHdr.len)

def ipv4ParseFlags (ihlWords : ℕ) (fragment : UInt16) : UInt16 :=
  (if Ipv4Hdr.len / 4 < ihlWords then parseFlagIpOptions else 0) |||
    (if fragment &&& ((1 : UInt16) <<< 13) ≠ 0 then parseFlagIpFragmented else 0)

def parseIpv4 (l3Offset : ℕ) : ParseResult := do
  let versionIhl ← orTruncated (cursor.readU8 (l3Offset + Ipv4Hdr.vihl))
  demand (versionIhl >>> 4 = 4) .invalid
  let ihlWords := (versionIhl &&& 0x0F).toNat
  demand (Ipv4Hdr.len / 4 ≤ ihlWords) .invalid
  let totalLength ← orTruncated (cursor.readU16Be (l3Offset + Ipv4Hdr.totLen))
  demand (ihlWords * 4 ≤ totalLength.toNat) .invalid
  let fragment ← orTruncated (cursor.readU16Be (l3Offset + Ipv4Hdr.frags))
  -- later fragments do not carry a TCP or UDP header
  demand (fragment &&& 0x1FFF = 0) .skipped
  let protocol ← orTruncated (cursor.readU8 (l3Offset + Ipv4Hdr.proto))
  let srcWord ← orTruncated (cursor.readU32Be (l3Offset + Ipv4Hdr.srcAddr))
  let dstWord ← orTruncated (cursor.readU32Be (l3Offset + Ipv4Hdr.dstAddr))
  let l4Offset := l3Offset + ihlWords * 4
  let declaredEnd := l3Offset + totalLength.toNat
  demandL4 cursor protocol l4Offset declaredEnd
  let (srcPortOffset, dstPortOffset) :=
    if protocol = TransportProtocol.tcp.toU8 then (TcpHdr.source, TcpHdr.dest)
    else (UdpHdr.src, UdpHdr.dst)
  let srcPort ← orTruncated (cursor.readU16Be (l4Offset + srcPortOffset))
  let dstPort ← orTruncated (cursor.readU16Be (l4Offset + dstPortOffset))
  let (tcpFlags, l4HeaderLen) ← parseL4 cursor protocol l4Offset declaredEnd
  return {
    srcAddr := wordStorage srcWord
    dstAddr := wordStorage dstWord
    srcPortBe := toBe srcPort
    dstPortBe := toBe dstPort
    protocol
    ipFamily := IpFamily.v4.toU8
    tcpFlags
    parseFlags := ipv4ParseFlags ihlWords fragment
    payloadOffset := l4Offset + l4HeaderLen
    payloadEnd := declaredEnd }

def isVlanTag (ethertype : UInt16) : Bool :=
  ethertype = etherTypeIeee8021q || ethertype = etherTypeIeee8021ad

/-- The inner EtherType, with the position of what it announces. -/
def parseEthernet : Except Unparsed (UInt16 × ℕ) := do
  let ethertype ← orTruncated (cursor.readU16Be EthHdr.etherType)
  if isVlanTag ethertype then
    let inner ← orTruncated (cursor.readU16Be (EthHdr.len + VlanHdr.etherType))
    return (inner, EthHdr.len + VlanHdr.len)
  else return (ethertype, EthHdr.len)

/-- Parses one captured packet into a Flow observation. -/
def parse : ParseResult := do
  let (ethertype, l3Offset) ← parseEthernet cursor
  demand (ethertype = etherTypeIpv4) .skipped
  parseIpv4 cursor l3Offset

end Parse

/-! ## What a Flow observation was read from -/

namespace PacketCursor

variable (cursor : PacketCursor)

def vlanTagged : Bool := (cursor.readU16Be EthHdr.etherType).any isVlanTag

def l3Offset : ℕ := if cursor.vlanTagged then EthHdr.len + VlanHdr.len else EthHdr.len

end PacketCursor

/-- The TCP or UDP header from a position on, by its protocol, its flags and its length. -/
inductive L4HeaderAt (cursor : PacketCursor) (l4Offset : ℕ) : UInt8 → UInt16 → ℕ → Prop
  | tcp {offsetFlags : UInt16}
      (hread : cursor.readU16Be (l4Offset + tcpDataOffsetAndFlagsOffset) = some offsetFlags)
      (hlen : TcpHdr.len ≤ (offsetFlags >>> 12).toNat * 4) :
      L4HeaderAt cursor l4Offset TransportProtocol.tcp.toU8 (offsetFlags &&& 0x01FF)
        ((offsetFlags >>> 12).toNat * 4)
  | udp : L4HeaderAt cursor l4Offset TransportProtocol.udp.toU8 0 UdpHdr.len

theorem L4HeaderAt.length_le {cursor : PacketCursor} {l4Offset l4HeaderLen : ℕ} {protocol : UInt8}
    {tcpFlags : UInt16} (h : L4HeaderAt cursor l4Offset protocol tcpFlags l4HeaderLen) :
    UdpHdr.len ≤ l4HeaderLen := by
  cases h with
  | tcp hread hlen => exact Nat.le_trans (by decide) hlen
  | udp => exact Nat.le_refl _

/-- The words of the IPv4 header that say where the headers end, and the length of the last one. -/
structure Headers where
  versionIhl : UInt8
  totalLength : UInt16
  fragment : UInt16
  l4HeaderLen : ℕ

namespace Headers

variable (headers : Headers) (cursor : PacketCursor)

def ihlWords : ℕ := (headers.versionIhl &&& 0x0F).toNat

def l4Offset : ℕ := cursor.l3Offset + headers.ihlWords * 4

end Headers

/-- A Flow observation was read from these headers. -/
structure HeadersAt (cursor : PacketCursor) (packet : ParsedPacket) (headers : Headers) : Prop where
  versionIhl : cursor.readU8 (cursor.l3Offset + Ipv4Hdr.vihl) = some headers.versionIhl
  totalLength : cursor.readU16Be (cursor.l3Offset + Ipv4Hdr.totLen) = some headers.totalLength
  fragment : cursor.readU16Be (cursor.l3Offset + Ipv4Hdr.frags) = some headers.fragment
  protocol : cursor.readU8 (cursor.l3Offset + Ipv4Hdr.proto) = some packet.protocol
  ihlWords : Ipv4Hdr.len / 4 ≤ headers.ihlWords
  l4Header : L4HeaderAt cursor (headers.l4Offset cursor) packet.protocol packet.tcpFlags headers.l4HeaderLen
  captured : cursor.has (headers.l4Offset cursor) headers.l4HeaderLen
  declared : headers.l4Offset cursor + headers.l4HeaderLen ≤ packet.payloadEnd
  payloadOffset : packet.payloadOffset = headers.l4Offset cursor + headers.l4HeaderLen
  payloadEnd : packet.payloadEnd = cursor.l3Offset + headers.totalLength.toNat
  parseFlags : packet.parseFlags = ipv4ParseFlags headers.ihlWords headers.fragment

section Inversion

variable {cursor : PacketCursor} {packet : ParsedPacket}

theorem parseEthernet_eq_ok {ethertype : UInt16} {l3Offset : ℕ}
    (h : parseEthernet cursor = .ok (ethertype, l3Offset)) : l3Offset = cursor.l3Offset := by
  unfold parseEthernet at h
  obtain ⟨outer, hread, h⟩ := orTruncated_bind_eq_ok.mp h
  have htagged : cursor.vlanTagged = isVlanTag outer := by
    unfold PacketCursor.vlanTagged
    rw [hread]
    rfl
  unfold PacketCursor.l3Offset
  rw [htagged]
  split at h
  · next htag =>
    obtain ⟨inner, -, h⟩ := orTruncated_bind_eq_ok.mp h
    cases h
    rw [if_pos htag]
  · next htag =>
    cases h
    rw [if_neg htag]

/-- What the two checks of the TCP or UDP header and the reads between them come to. -/
theorem l4Header_eq_ok {protocol : UInt8} {tcpFlags : UInt16} {l4Offset l4HeaderLen declaredEnd : ℕ}
    (hdemand : demandL4 cursor protocol l4Offset declaredEnd = .ok ())
    (h : parseL4 cursor protocol l4Offset declaredEnd = .ok (tcpFlags, l4HeaderLen)) :
    L4HeaderAt cursor l4Offset protocol tcpFlags l4HeaderLen ∧ cursor.has l4Offset l4HeaderLen ∧
      l4Offset + l4HeaderLen ≤ declaredEnd := by
  unfold demandL4 at hdemand
  unfold parseL4 at h
  split at h
  · next htcp =>
    subst htcp
    simp only [orTruncated_bind_eq_ok, demand_bind_eq_ok] at h
    obtain ⟨offsetFlags, hread, hlen, ⟨hdeclared, hcaptured⟩, h⟩ := h
    obtain ⟨rfl, rfl⟩ := Prod.mk.inj (Except.ok.inj h)
    refine ⟨.tcp hread ?_, hcaptured, hdeclared⟩
    unfold TcpHdr.len at *
    omega
  · next htcp =>
    rw [if_neg htcp] at hdemand
    obtain ⟨rfl, rfl⟩ := Prod.mk.inj (Except.ok.inj h)
    split at hdemand
    · next hudp =>
      subst hudp
      obtain ⟨hdeclared, hcaptured⟩ := demand_eq_ok.mp hdemand
      exact ⟨.udp, hcaptured, hdeclared⟩
    · cases hdemand

theorem parse_eq_ok (h : parse cursor = .ok packet) :
    ∃ headers, HeadersAt cursor packet headers := by
  unfold parse at h
  obtain ⟨⟨ethertype, l3Offset⟩, hethernet, h⟩ := Except.bind_eq_ok.mp h
  obtain rfl := parseEthernet_eq_ok hethernet
  obtain ⟨-, h⟩ := demand_bind_eq_ok.mp h
  simp only [parseIpv4, orTruncated_bind_eq_ok, demand_bind_eq_ok] at h
  obtain ⟨versionIhl, hversionIhl, -, hihl, totalLength, htotal, -, fragment, hfragment, -, protocol,
    hprotocol, src, -, dst, -, h⟩ := h
  obtain ⟨_, hdemand, h⟩ := Except.bind_eq_ok.mp h
  simp only [orTruncated_bind_eq_ok] at h
  obtain ⟨srcPort, -, dstPort, -, h⟩ := h
  obtain ⟨⟨tcpFlags, l4HeaderLen⟩, hl4, h⟩ := Except.bind_eq_ok.mp h
  cases h
  obtain ⟨hheader, hcaptured, hdeclared⟩ := l4Header_eq_ok hdemand hl4
  exact ⟨⟨versionIhl, totalLength, fragment, l4HeaderLen⟩, {
    versionIhl := hversionIhl
    totalLength := htotal
    fragment := hfragment
    protocol := hprotocol
    ihlWords := hihl
    l4Header := hheader
    captured := hcaptured
    declared := hdeclared
    payloadOffset := rfl
    payloadEnd := rfl
    parseFlags := rfl }⟩

end Inversion

end ZimaScope
