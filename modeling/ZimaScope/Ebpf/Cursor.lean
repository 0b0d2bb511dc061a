import ZimaScope.Ebpf.Capture

/-! # The cursor of the packet program

The packet program reads through verified packet pointers, and never beyond an offset
that the verifier can bound. The headers that are parsed all end before it.
-/

namespace ZimaScope

/-- Largest packet offset the header parser may touch. -/
def maxPacketOff : ℕ := 0x3fff

namespace BpfCursor

/-- `slice_at`: the bytes, if they end within the bound and within the packet. -/
def sliceAt (data : List UInt8) (offset len : ℕ) : Option (List UInt8) :=
  if offset + len > maxPacketOff then none
  else if offset + len > data.length then none
  else some ((data.drop offset).take len)

def readU8 (data : List UInt8) (offset : ℕ) : Option UInt8 :=
  (sliceAt data offset 1).bind List.head?

/-- The copy byte by byte that a cursor has when it brings no faster one. -/
def readBytes (data : List UInt8) (offset len : ℕ) : Option (List UInt8) :=
  (List.range len).mapM fun index => readU8 data (offset + index)

end BpfCursor

/-- Bounded packet access backed by verified packet pointers. -/
def bpfCursor (data : List UInt8) : PacketCursor where
  readU8 := BpfCursor.readU8 data
  readU16Be offset := (BpfCursor.sliceAt data offset 2).map fun bytes =>
    .ofNat (MemoryCursor.ofBeBytes bytes)
  readU32Be offset := (BpfCursor.sliceAt data offset 4).map fun bytes =>
    .ofNat (MemoryCursor.ofBeBytes bytes)
  readBytes := BpfCursor.readBytes data

/-- Cursors that read the same wherever a read ends by a position. -/
structure PacketCursor.AgreeUpTo (limit : ℕ) (cursor cursor' : PacketCursor) : Prop where
  readU8 : ∀ p, p + 1 ≤ limit → cursor.readU8 p = cursor'.readU8 p
  readU16Be : ∀ p, p + 2 ≤ limit → cursor.readU16Be p = cursor'.readU16Be p
  readU32Be : ∀ p, p + 4 ≤ limit → cursor.readU32Be p = cursor'.readU32Be p

theorem sliceAt_eq_slice (data : List UInt8) {offset len : ℕ} (h : offset + len ≤ maxPacketOff) :
    BpfCursor.sliceAt data offset len = MemoryCursor.slice data offset len := by
  unfold BpfCursor.sliceAt MemoryCursor.slice
  rw [if_neg (Nat.not_lt.mpr h)]
  by_cases hdata : offset + len ≤ data.length
  · rw [if_neg (Nat.not_lt.mpr hdata), if_pos hdata]
  · rw [if_pos (Nat.lt_of_not_le hdata), if_neg hdata]

/-- Up to the bound a packet pointer reads what a slice of the packet has. -/
theorem bpfCursor_agree (data : List UInt8) :
    (bpfCursor data).AgreeUpTo maxPacketOff (memoryCursor data) where
  readU8 p hp := by
    change (BpfCursor.sliceAt data p 1).bind List.head? = data[p]?
    rw [sliceAt_eq_slice data hp]
    unfold MemoryCursor.slice
    by_cases hdata : p + 1 ≤ data.length
    · rw [if_pos hdata, Option.bind_some, List.head?_take, if_neg Nat.one_ne_zero, List.head?_drop]
    · rw [if_neg hdata, Option.bind_none, List.getElem?_eq_none (by omega)]
  readU16Be p hp := congrArg (Option.map _) (sliceAt_eq_slice data hp)
  readU32Be p hp := congrArg (Option.map _) (sliceAt_eq_slice data hp)

/-! ## How far a parse reads -/

/-- The longest IPv4 or TCP header that its length field can announce. -/
def maxHeaderLen : ℕ := 15 * 4

theorem ihl_le (versionIhl : UInt8) : (versionIhl &&& 0x0F).toNat ≤ 15 := by
  rw [UInt8.toNat_and]
  exact Nat.and_le_right

theorem dataOffset_le (offsetFlags : UInt16) : (offsetFlags >>> 12).toNat ≤ 15 := by
  have h := offsetFlags.toNat_lt
  rw [UInt16.toNat_shiftRight]
  change offsetFlags.toNat >>> 12 ≤ 15
  rw [Nat.shiftRight_eq_div_pow]
  omega

section Parse

variable {limit : ℕ} {cursor cursor' : PacketCursor} (h : cursor.AgreeUpTo limit cursor')
include h

theorem PacketCursor.AgreeUpTo.has {offset len : ℕ} (hle : offset + len ≤ limit) :
    cursor.has offset len = cursor'.has offset len := by
  unfold PacketCursor.has
  by_cases hlen : len = 0
  · simp [hlen]
  · rw [h.readU8 _ (by omega)]

theorem demandL4_agree {protocol : UInt8} {l4Offset declaredEnd : ℕ}
    (hle : l4Offset + TcpHdr.len ≤ limit) :
    demandL4 cursor protocol l4Offset declaredEnd = demandL4 cursor' protocol l4Offset declaredEnd := by
  have hudp : l4Offset + UdpHdr.len ≤ limit := by
    unfold TcpHdr.len at hle
    unfold UdpHdr.len
    omega
  unfold demandL4
  simp only [h.has hle, h.has hudp]

theorem parseL4_agree {protocol : UInt8} {l4Offset declaredEnd : ℕ}
    (hle : l4Offset + maxHeaderLen ≤ limit) :
    parseL4 cursor protocol l4Offset declaredEnd = parseL4 cursor' protocol l4Offset declaredEnd := by
  unfold maxHeaderLen at hle
  unfold parseL4
  split
  · rw [h.readU16Be _ (by unfold tcpDataOffsetAndFlagsOffset; omega)]
    refine bind_congr fun offsetFlags => bind_congr fun _ => ?_
    have hoffset := dataOffset_le offsetFlags
    rw [h.has (by omega)]
  · rfl

theorem parseIpv4_agree {l3Offset : ℕ} (hle : l3Offset + maxHeaderLen + maxHeaderLen ≤ limit) :
    parseIpv4 cursor l3Offset = parseIpv4 cursor' l3Offset := by
  have hbound : l3Offset + 120 ≤ limit := by
    unfold maxHeaderLen at hle
    omega
  unfold parseIpv4
  rw [h.readU8 (l3Offset + Ipv4Hdr.vihl) (by unfold Ipv4Hdr.vihl; omega)]
  refine bind_congr fun versionIhl => bind_congr fun _ => bind_congr fun _ => ?_
  rw [h.readU16Be (l3Offset + Ipv4Hdr.totLen) (by unfold Ipv4Hdr.totLen; omega)]
  refine bind_congr fun totalLength => bind_congr fun _ => ?_
  rw [h.readU16Be (l3Offset + Ipv4Hdr.frags) (by unfold Ipv4Hdr.frags; omega)]
  refine bind_congr fun fragment => bind_congr fun _ => ?_
  rw [h.readU8 (l3Offset + Ipv4Hdr.proto) (by unfold Ipv4Hdr.proto; omega)]
  refine bind_congr fun protocol => ?_
  rw [h.readU32Be (l3Offset + Ipv4Hdr.srcAddr) (by unfold Ipv4Hdr.srcAddr; omega)]
  refine bind_congr fun src => ?_
  rw [h.readU32Be (l3Offset + Ipv4Hdr.dstAddr) (by unfold Ipv4Hdr.dstAddr; omega)]
  refine bind_congr fun dst => ?_
  have hihl := ihl_le versionIhl
  have hl4 : l3Offset + (versionIhl &&& 0x0F).toNat * 4 + 60 ≤ limit := by omega
  have hdemand : demandL4 cursor protocol (l3Offset + (versionIhl &&& 0x0F).toNat * 4)
      (l3Offset + totalLength.toNat) = demandL4 cursor' protocol
        (l3Offset + (versionIhl &&& 0x0F).toNat * 4) (l3Offset + totalLength.toNat) :=
    demandL4_agree h (by unfold TcpHdr.len; omega)
  have hport : ∀ port ≤ 2, cursor.readU16Be (l3Offset + (versionIhl &&& 0x0F).toNat * 4 + port) =
      cursor'.readU16Be (l3Offset + (versionIhl &&& 0x0F).toNat * 4 + port) := by
    intro port hle
    exact h.readU16Be _ (by omega)
  have hl4Header : parseL4 cursor protocol (l3Offset + (versionIhl &&& 0x0F).toNat * 4)
      (l3Offset + totalLength.toNat) = parseL4 cursor' protocol
        (l3Offset + (versionIhl &&& 0x0F).toNat * 4) (l3Offset + totalLength.toNat) := parseL4_agree h hl4
  by_cases htcp : protocol = TransportProtocol.tcp.toU8
  · simp only [if_pos htcp, hdemand, hl4Header, hport TcpHdr.source (by decide), hport TcpHdr.dest (by decide)]
  · simp only [if_neg htcp, hdemand, hl4Header, hport UdpHdr.src (by decide), hport UdpHdr.dst (by decide)]

theorem parse_agree (hle : EthHdr.len + VlanHdr.len + maxHeaderLen + maxHeaderLen ≤ limit) :
    parse cursor = parse cursor' := by
  have hbound : 138 ≤ limit := hle
  have hethernet : parseEthernet cursor = parseEthernet cursor' := by
    unfold parseEthernet
    rw [h.readU16Be EthHdr.etherType (by unfold EthHdr.etherType; omega),
      h.readU16Be (EthHdr.len + VlanHdr.etherType) (by unfold EthHdr.len VlanHdr.etherType; omega)]
  unfold parse
  rw [← hethernet]
  cases hl3 : parseEthernet cursor with
  | error e => rfl
  | ok found =>
    obtain ⟨ethertype, l3Offset⟩ := found
    have hl3Offset : l3Offset ≤ EthHdr.len + VlanHdr.len := by
      rw [parseEthernet_eq_ok hl3]
      unfold PacketCursor.l3Offset
      split
      · exact le_rfl
      · exact Nat.le_add_right _ _
    have hipv4 : parseIpv4 cursor l3Offset = parseIpv4 cursor' l3Offset :=
      parseIpv4_agree h (by omega)
    change (demand _ _ >>= fun _ => parseIpv4 cursor l3Offset) =
      (demand _ _ >>= fun _ => parseIpv4 cursor' l3Offset)
    rw [hipv4]

end Parse

/-- The packet program parses a frame of any length as user space does from a copy of it: the
bound of its packet pointers lies beyond every header. -/
theorem parse_bpfCursor (data : List UInt8) : parse (bpfCursor data) = parse (memoryCursor data) :=
  parse_agree (bpfCursor_agree data) (by decide)

end ZimaScope
