import ZimaScope.Ebpf.Parse
import ZimaScope.Ebpf.Wire

/-! # Frames

Well-formed frames as they are on the wire. Parsing recovers the addresses, the
ports, the flags and the payload of every frame; whatever else is parsed as a Flow
has its headers within the captured bytes and within the declared datagram.
-/

namespace ZimaScope

/-- An 802.1Q tag, or an 802.1ad one. -/
structure VlanTag where
  service : Bool
  control : UInt16

/-- The header of a datagram, or of its first fragment, without the lengths. -/
structure Ipv4Header where
  tos : UInt8
  identification : UInt16
  reserved : Bool
  dontFragment : Bool
  moreFragments : Bool
  ttl : UInt8
  checksum : UInt16
  source : Ipv4Addr
  destination : Ipv4Addr
  options : List UInt8
  optionWords : ∃ words ≤ 10, options.length = words * 4

/-- A TCP header without its data offset; the flags are nine bits. -/
structure TcpHeader where
  sequence : UInt32
  acknowledgment : UInt32
  reserved : Fin 8
  flags : Fin 512
  window : UInt16
  checksum : UInt16
  urgent : UInt16
  options : List UInt8
  optionWords : ∃ words ≤ 10, options.length = words * 4

/-- What follows the ports. -/
inductive L4Header
  | tcp (header : TcpHeader)
  | udp (length checksum : UInt16)

namespace Ipv4Header

variable (header : Ipv4Header)

def ihlWords : ℕ := 5 + header.options.length / 4

def fragmentWord : UInt16 :=
  .ofNat (header.reserved.toNat * 32768 + header.dontFragment.toNat * 16384 +
    header.moreFragments.toNat * 8192)

def encode (protocol : UInt8) (totalLength : ℕ) : List UInt8 :=
  .ofNat (64 + header.ihlWords) :: header.tos :: (u16Bytes (.ofNat totalLength) ++
    (u16Bytes header.identification ++ (u16Bytes header.fragmentWord ++
      header.ttl :: protocol :: (u16Bytes header.checksum ++
        (header.source.octets.toList ++ (header.destination.octets.toList ++ header.options))))))

end Ipv4Header

namespace TcpHeader

variable (header : TcpHeader)

def dataOffsetWords : ℕ := 5 + header.options.length / 4

def offsetFlags : UInt16 :=
  .ofNat (header.dataOffsetWords * 4096 + header.reserved * 512 + header.flags)

def encode : List UInt8 :=
  u32Bytes header.sequence ++ (u32Bytes header.acknowledgment ++ (u16Bytes header.offsetFlags ++
    (u16Bytes header.window ++ (u16Bytes header.checksum ++ (u16Bytes header.urgent ++
      header.options)))))

end TcpHeader

namespace L4Header

def protocol : L4Header → UInt8
  | tcp _ => TransportProtocol.tcp.toU8
  | udp _ _ => TransportProtocol.udp.toU8

def flags : L4Header → ℕ
  | tcp header => header.flags
  | udp _ _ => 0

theorem flags_lt (l4 : L4Header) : l4.flags < 512 := by
  cases l4 with
  | tcp header => exact header.flags.isLt
  | udp length checksum => exact Nat.zero_lt_succ 511

def encode : L4Header → List UInt8
  | tcp header => header.encode
  | udp length checksum => u16Bytes length ++ u16Bytes checksum

end L4Header

/-- An Ethernet frame that carries TCP or UDP; the padding is not part of the datagram. -/
structure Frame where
  destination : Vector UInt8 6
  source : Vector UInt8 6
  tag : Option VlanTag
  ipv4 : Ipv4Header
  srcPort : UInt16
  dstPort : UInt16
  l4 : L4Header
  payload : List UInt8
  padding : List UInt8
  totalLength_lt : ipv4.ihlWords * 4 + (4 + l4.encode.length + payload.length) < 65536

namespace Frame

variable (frame : Frame)

def ethernet : List UInt8 :=
  frame.destination.toList ++ (frame.source.toList ++
    match frame.tag with
    | none => u16Bytes etherTypeIpv4
    | some tag =>
      u16Bytes (if tag.service then etherTypeIeee8021ad else etherTypeIeee8021q) ++
        (u16Bytes tag.control ++ u16Bytes etherTypeIpv4))

def segment : List UInt8 :=
  u16Bytes frame.srcPort ++ (u16Bytes frame.dstPort ++ (frame.l4.encode ++ frame.payload))

def totalLength : ℕ := frame.ipv4.ihlWords * 4 + frame.segment.length

def encode : List UInt8 :=
  frame.ethernet ++ (frame.ipv4.encode frame.l4.protocol frame.totalLength ++
    (frame.segment ++ frame.padding))

def payloadOffset : ℕ :=
  frame.ethernet.length + frame.ipv4.ihlWords * 4 + (4 + frame.l4.encode.length)

/-- What the frame is parsed to. -/
def observation : ParsedPacket where
  srcAddr := ipv4Storage frame.ipv4.source
  dstAddr := ipv4Storage frame.ipv4.destination
  srcPortBe := toBe frame.srcPort
  dstPortBe := toBe frame.dstPort
  protocol := frame.l4.protocol
  ipFamily := IpFamily.v4.toU8
  tcpFlags := .ofNat frame.l4.flags
  parseFlags := ipv4ParseFlags frame.ipv4.ihlWords frame.ipv4.fragmentWord
  payloadOffset := frame.payloadOffset
  payloadEnd := frame.payloadOffset + frame.payload.length

end Frame

/-! ## The words of the headers -/

theorem exists_addressWord (address : Ipv4Addr) :
    ∃ word, u32Bytes word = address.octets.toList := by
  obtain ⟨⟨⟨octets⟩, hsize⟩⟩ := address
  match octets, hsize with
  | [a, b, c, d], _ => exact exists_u32Bytes a b c d

theorem versionIhl_bits {ihlWords : ℕ} (h : ihlWords ≤ 15) :
    UInt8.ofNat (64 + ihlWords) >>> 4 = 4 ∧ (UInt8.ofNat (64 + ihlWords) &&& 0x0F).toNat = ihlWords := by
  have hall : ∀ words : Fin 16, UInt8.ofNat (64 + words) >>> 4 = 4 ∧
      (UInt8.ofNat (64 + words) &&& 0x0F).toNat = words := by decide
  exact hall ⟨ihlWords, by omega⟩

theorem Ipv4Header.fragmentWord_first (header : Ipv4Header) :
    header.fragmentWord &&& 0x1FFF = 0 := by
  have hall : ∀ r d m : Bool,
      UInt16.ofNat (r.toNat * 32768 + d.toNat * 16384 + m.toNat * 8192) &&& 0x1FFF = 0 := by decide
  exact hall _ _ _

theorem TcpHeader.offsetFlags_bits (header : TcpHeader) :
    (header.offsetFlags >>> 12).toNat = header.dataOffsetWords ∧
      header.offsetFlags &&& 0x01FF = .ofNat header.flags := by
  obtain ⟨words, hwords, hlen⟩ := header.optionWords
  have hoffset : header.dataOffsetWords ≤ 15 := by
    unfold TcpHeader.dataOffsetWords
    omega
  have hreserved := header.reserved.isLt
  have hflags := header.flags.isLt
  have hword : header.offsetFlags.toNat =
      header.dataOffsetWords * 4096 + header.reserved * 512 + header.flags := by
    unfold TcpHeader.offsetFlags
    rw [UInt16.toNat_ofNat']
    omega
  constructor
  · rw [UInt16.toNat_shiftRight, hword, Nat.shiftRight_eq_div_pow]
    change _ / 2 ^ 12 = _
    omega
  · apply UInt16.toNat_inj.mp
    rw [UInt16.toNat_and, hword, UInt16.toNat_ofNat']
    change _ &&& 2 ^ 9 - 1 = _
    rw [Nat.and_two_pow_sub_one_eq_mod]
    omega

theorem Ipv4Header.ihlWords_le (header : Ipv4Header) : header.ihlWords ≤ 15 := by
  obtain ⟨words, hwords, hlen⟩ := header.optionWords
  unfold Ipv4Header.ihlWords
  omega

theorem Ipv4Header.length_encode (header : Ipv4Header) (protocol : UInt8) (totalLength : ℕ) :
    (header.encode protocol totalLength).length = header.ihlWords * 4 := by
  obtain ⟨words, hwords, hlen⟩ := header.optionWords
  simp only [encode, ihlWords, List.length_cons, List.length_append, length_u16Bytes,
    Vector.length_toList]
  omega

theorem TcpHeader.length_encode (header : TcpHeader) :
    4 + header.encode.length = header.dataOffsetWords * 4 := by
  obtain ⟨words, hwords, hlen⟩ := header.optionWords
  simp only [encode, dataOffsetWords, List.length_append, length_u16Bytes, length_u32Bytes]
  omega

/-! ## The round trip -/

section RoundTrip

variable {data : List UInt8}

theorem has_memoryCursor {p len : ℕ} :
    (memoryCursor data).has p len ↔ len = 0 ∨ p + len ≤ data.length := by
  unfold PacketCursor.has memoryCursor
  rw [Bool.or_eq_true, decide_eq_true_iff, isSome_getElem?]
  omega

theorem orTruncated_some_bind {α β : Type} {read : Option α} {a : α} {f : α → Except Unparsed β}
    (h : read = some a) : (orTruncated read >>= f) = f a := by
  rw [h]
  rfl

theorem demand_bind {β : Type} {ok : Prop} [Decidable ok] {unparsed : Unparsed}
    {f : Unit → Except Unparsed β} (h : ok) : (demand ok unparsed >>= f) = f () := by
  unfold demand
  rw [if_pos h]
  rfl

variable (frame : Frame) {rest : List UInt8}

theorem parseEthernet_encode (h : HasAt data 0 (frame.ethernet ++ rest)) :
    parseEthernet (memoryCursor data) = .ok (etherTypeIpv4, frame.ethernet.length) := by
  obtain ⟨destination, source, tag, ipv4, srcPort, dstPort, l4, payload, padding, hlt⟩ := frame
  unfold Frame.ethernet at h ⊢
  simp only [List.append_assoc, List.length_append, Vector.length_toList] at h ⊢
  have htype := h.skip.skip.cast (q := EthHdr.etherType) (by simp [EthHdr.etherType])
  unfold parseEthernet
  cases tag with
  | none =>
    simp only at htype ⊢
    rw [orTruncated_some_bind htype.readWord]
    rfl
  | some tag =>
    simp only [List.append_assoc] at htype ⊢
    have hinner : (memoryCursor data).readU16Be (EthHdr.len + VlanHdr.etherType) = some etherTypeIpv4 :=
      htype.skip.skip.readWord
    rw [orTruncated_some_bind htype.readWord, if_pos (by cases tag.service <;> rfl),
      orTruncated_some_bind hinner]
    rfl

/-- The fields of an IPv4 header that are read. -/
theorem Ipv4Header.reads {header : Ipv4Header} {p : ℕ} {protocol : UInt8} {totalLength : ℕ}
    (h : HasAt data p (header.encode protocol totalLength ++ rest)) :
    (memoryCursor data).readU8 (p + Ipv4Hdr.vihl) = some (.ofNat (64 + header.ihlWords)) ∧
      (memoryCursor data).readU16Be (p + Ipv4Hdr.totLen) = some (.ofNat totalLength) ∧
      (memoryCursor data).readU16Be (p + Ipv4Hdr.frags) = some header.fragmentWord ∧
      (memoryCursor data).readU8 (p + Ipv4Hdr.proto) = some protocol ∧
      (∃ word, (memoryCursor data).readU32Be (p + Ipv4Hdr.srcAddr) = some word ∧
        wordStorage word = ipv4Storage header.source) ∧
      ∃ word, (memoryCursor data).readU32Be (p + Ipv4Hdr.dstAddr) = some word ∧
        wordStorage word = ipv4Storage header.destination := by
  obtain ⟨src, hsrc⟩ := exists_addressWord header.source
  obtain ⟨dst, hdst⟩ := exists_addressWord header.destination
  unfold Ipv4Header.encode at h
  simp only [List.cons_append, List.append_assoc, ← hsrc, ← hdst] at h
  have htotal := h.tail.tail
  have hfrags := htotal.skip.skip
  have hprotocol := hfrags.skip.tail
  have hsource := hprotocol.tail.skip
  exact ⟨h.readByte, htotal.readWord, hfrags.readWord, hprotocol.readByte,
    ⟨src, hsource.readDoubleWord, wordStorage_eq hsrc⟩,
    ⟨dst, hsource.skip.readDoubleWord, wordStorage_eq hdst⟩⟩

/-- Both checks of a TCP or UDP header pass, and its flags and length are read. -/
theorem L4Header.parses {l4 : L4Header} {p declaredEnd : ℕ}
    (h : HasAt data (p + 4) (l4.encode ++ rest)) (hend : p + (4 + l4.encode.length) ≤ declaredEnd) :
    demandL4 (memoryCursor data) l4.protocol p declaredEnd = .ok () ∧
      parseL4 (memoryCursor data) l4.protocol p declaredEnd =
        .ok (.ofNat l4.flags, 4 + l4.encode.length) := by
  have hlength := h.length_eq
  rw [List.length_append] at hlength
  cases l4 with
  | tcp header =>
    have hlen := header.length_encode
    obtain ⟨hoffset, hflags⟩ := header.offsetFlags_bits
    have hwords : TcpHdr.len / 4 ≤ header.dataOffsetWords := Nat.le_add_right ..
    simp only [encode] at h hend hlength ⊢
    constructor
    · apply demand_eq_ok.mpr
      unfold TcpHdr.len at *
      exact ⟨by omega, has_memoryCursor.mpr (by omega)⟩
    · unfold TcpHeader.encode at h
      simp only [List.append_assoc] at h
      have hread : (memoryCursor data).readU16Be (p + tcpDataOffsetAndFlagsOffset) =
          some header.offsetFlags := h.skip.skip.readWord
      unfold parseL4 protocol
      rw [if_pos rfl, orTruncated_some_bind hread]
      simp only [hoffset, hflags]
      rw [demand_bind hwords, demand_bind ⟨by omega, has_memoryCursor.mpr (by omega)⟩, hlen]
      rfl
  | udp length checksum =>
    have hlen : (L4Header.udp length checksum).encode.length = 4 := rfl
    refine ⟨demand_eq_ok.mpr ⟨?_, has_memoryCursor.mpr ?_⟩, rfl⟩ <;> unfold UdpHdr.len <;> omega

theorem parseIpv4_encode (h : HasAt data frame.ethernet.length
    (frame.ipv4.encode frame.l4.protocol frame.totalLength ++ (frame.segment ++ rest))) :
    parseIpv4 (memoryCursor data) frame.ethernet.length = .ok frame.observation := by
  obtain ⟨hvihl, htotal, hfrags, hprotocol, ⟨src, hsrc, hsource⟩, dst, hdst, hdestination⟩ :=
    Ipv4Header.reads h
  obtain ⟨hversion, hihl⟩ := versionIhl_bits frame.ipv4.ihlWords_le
  have hsegment : frame.segment.length = 4 + frame.l4.encode.length + frame.payload.length := by
    simp only [Frame.segment, List.length_append, length_u16Bytes]
    omega
  have hlt := frame.totalLength_lt
  have htotalLength : (UInt16.ofNat frame.totalLength).toNat = frame.totalLength := by
    rw [UInt16.toNat_ofNat']
    unfold Frame.totalLength
    omega
  have hl4 := h.skip
  rw [Ipv4Header.length_encode] at hl4
  unfold Frame.segment at hl4
  simp only [List.append_assoc] at hl4
  have hends : frame.ethernet.length + frame.ipv4.ihlWords * 4 + (4 + frame.l4.encode.length) ≤
      frame.ethernet.length + frame.totalLength := by
    unfold Frame.totalLength
    omega
  obtain ⟨hdemand, hparse⟩ := L4Header.parses hl4.skip.skip hends
  have hports : (if frame.l4.protocol = TransportProtocol.tcp.toU8 then (TcpHdr.source, TcpHdr.dest)
      else (UdpHdr.src, UdpHdr.dst)) = (0, 2) := by
    split <;> rfl
  have hsrcPort : (memoryCursor data).readU16Be
      (frame.ethernet.length + frame.ipv4.ihlWords * 4 + 0) = some frame.srcPort := hl4.readWord
  have hdstPort : (memoryCursor data).readU16Be
      (frame.ethernet.length + frame.ipv4.ihlWords * 4 + 2) = some frame.dstPort := hl4.skip.readWord
  have hihlWords : Ipv4Hdr.len / 4 ≤ frame.ipv4.ihlWords := Nat.le_add_right ..
  have htotalWords : frame.ipv4.ihlWords * 4 ≤ frame.totalLength := Nat.le_add_right ..
  have hpayloadEnd : frame.ethernet.length + frame.totalLength =
      frame.payloadOffset + frame.payload.length := by
    unfold Frame.totalLength Frame.payloadOffset
    omega
  unfold parseIpv4
  rw [orTruncated_some_bind hvihl, demand_bind hversion]
  simp only [hihl]
  rw [demand_bind hihlWords, orTruncated_some_bind htotal]
  simp only [htotalLength]
  rw [demand_bind htotalWords, orTruncated_some_bind hfrags,
    demand_bind frame.ipv4.fragmentWord_first, orTruncated_some_bind hprotocol,
    orTruncated_some_bind hsrc, orTruncated_some_bind hdst, hdemand]
  simp only [hports]
  change (orTruncated _ >>= _) = _
  rw [orTruncated_some_bind hsrcPort, orTruncated_some_bind hdstPort, hparse]
  unfold Frame.observation
  rw [← hsource, ← hdestination, ← hpayloadEnd]
  rfl

theorem parse_encode :
    parse (memoryCursor frame.encode) = .ok frame.observation := by
  have hstart : HasAt frame.encode 0 (frame.ethernet ++ _) := HasAt.start _
  have hipv4 := hstart.skip
  rw [Nat.zero_add] at hipv4
  unfold parse
  rw [parseEthernet_encode frame hstart]
  exact parseIpv4_encode frame hipv4

/-- The payload of the frame lies between the bounds. -/
theorem payload_encode :
    (frame.encode.drop frame.payloadOffset).take frame.payload.length = frame.payload := by
  have hstart : HasAt frame.encode 0 (frame.ethernet ++ _) := HasAt.start _
  have hsegment := hstart.skip.skip
  rw [Ipv4Header.length_encode] at hsegment
  unfold Frame.segment at hsegment
  simp only [List.append_assoc] at hsegment
  have hpayload := hsegment.skip.skip.skip.cast (q := frame.payloadOffset) (by
    unfold Frame.payloadOffset
    simp only [length_u16Bytes]
    omega)
  rw [hpayload.2, List.take_left]

end RoundTrip

/-- Every frame is parsed to the Flow observation it carries, and a Flow observation of any bytes has its
headers within these bytes and within the datagram that they declare. -/
theorem parse_recovers_frame :
    (∀ frame : Frame, ∃ packet, parse (memoryCursor frame.encode) = .ok packet ∧
      packet.srcAddr = ipv4Storage frame.ipv4.source ∧
      packet.dstAddr = ipv4Storage frame.ipv4.destination ∧
      packet.srcPortBe = toBe frame.srcPort ∧ packet.dstPortBe = toBe frame.dstPort ∧
      packet.protocol = frame.l4.protocol ∧ packet.ipFamily = IpFamily.v4.toU8 ∧
      packet.tcpFlags.toNat = frame.l4.flags ∧ packet.payloadOffset ≤ packet.payloadEnd ∧
      (frame.encode.drop packet.payloadOffset).take (packet.payloadEnd - packet.payloadOffset) =
        frame.payload) ∧
    ∀ data packet, parse (memoryCursor data) = .ok packet →
      packet.payloadOffset ≤ packet.payloadEnd ∧ packet.payloadOffset ≤ data.length ∧
      ∃ headers, HeadersAt (memoryCursor data) packet headers ∧
        (memoryCursor data).l3Offset + Ipv4Hdr.len ≤ headers.l4Offset (memoryCursor data) ∧
        headers.l4Offset (memoryCursor data) + UdpHdr.len ≤ packet.payloadOffset := by
  constructor
  · intro frame
    refine ⟨frame.observation, parse_encode frame, rfl, rfl, rfl, rfl, rfl, rfl, ?_, ?_, ?_⟩
    · have hflags := frame.l4.flags_lt
      change (UInt16.ofNat frame.l4.flags).toNat = _
      rw [UInt16.toNat_ofNat']
      omega
    · exact Nat.le_add_right ..
    · have hlength : frame.observation.payloadEnd - frame.observation.payloadOffset =
          frame.payload.length := Nat.add_sub_cancel_left ..
      rw [hlength]
      exact payload_encode frame
  · intro data packet h
    obtain ⟨headers, hat⟩ := parse_eq_ok h
    have hlen := hat.l4Header.length_le
    have hpayload := hat.payloadOffset
    have hcaptured := has_memoryCursor.mp hat.captured
    have hihl := hat.ihlWords
    have hdeclared := hat.declared
    unfold UdpHdr.len Ipv4Hdr.len at *
    refine ⟨by omega, by omega, headers, hat, ?_, by omega⟩
    unfold Headers.l4Offset
    omega

end ZimaScope
