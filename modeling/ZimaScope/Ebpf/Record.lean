import ZimaScope.Common.Model
import ZimaScope.Ebpf.Frame
import ZimaScope.Ebpf.Sample

/-! # Flow entries

What the packet path makes of the frames of one Flow key. Counters, times and
flags are those of the frames, but no frame is ever recorded as VLAN-tagged.
-/

namespace ZimaScope

/-- A Flow value with the parse flags, which only the packet path writes. -/
structure FlowEntry extends FlowValue where
  parseFlags : UInt16 := 0
  deriving DecidableEq, Repr

def FlowEntry.record (value : FlowEntry) (packet : ParsedPacket) (now packetLen : ℕ) : FlowEntry where
  firstSeenMonoNs := if value.packets = 0 then now else value.firstSeenMonoNs
  packets := satAdd value.packets 1
  bytes := satAdd value.bytes packetLen
  lastSeenMonoNs := now
  tcpFlags := value.tcpFlags ||| packet.tcpFlags
  parseFlags := value.parseFlags ||| packet.parseFlags

/-! ## What a frame carries -/

namespace PacketCursor

variable (cursor : PacketCursor)

def ihlWords : ℕ := (cursor.readU8 (cursor.l3Offset + Ipv4Hdr.vihl)).elim 0 fun versionIhl =>
  (versionIhl &&& 0x0F).toNat

def hasIpOptions : Bool := 5 < cursor.ihlWords

def moreFragments : Bool := (cursor.readU16Be (cursor.l3Offset + Ipv4Hdr.frags)).any fun fragment =>
  fragment &&& 0x2000 ≠ 0

/-- The flags of a TCP segment; other frames carry none. -/
def segmentFlags : UInt16 :=
  if cursor.readU8 (cursor.l3Offset + Ipv4Hdr.proto) = some TransportProtocol.tcp.toU8 then
    (cursor.readU16Be (cursor.l3Offset + cursor.ihlWords * 4 + tcpDataOffsetAndFlagsOffset)).elim 0
      fun offsetFlags => offsetFlags &&& 0x01FF
  else 0

end PacketCursor

section Flags

variable {cursor : PacketCursor} {packet : ParsedPacket} {headers : Headers}

theorem HeadersAt.ihlWords_eq (h : HeadersAt cursor packet headers) :
    cursor.ihlWords = headers.ihlWords := by
  unfold PacketCursor.ihlWords
  rw [h.versionIhl]
  rfl

theorem HeadersAt.segmentFlags (h : HeadersAt cursor packet headers) :
    packet.tcpFlags = cursor.segmentFlags := by
  have hl4 := h.l4Header
  unfold PacketCursor.segmentFlags
  rw [h.protocol, h.ihlWords_eq]
  unfold Headers.l4Offset at hl4
  generalize packet.protocol = protocol, packet.tcpFlags = tcpFlags, headers.l4HeaderLen = len at hl4 ⊢
  cases hl4 with
  | tcp hread hlen =>
    rw [if_pos rfl, hread]
    rfl
  | udp => rw [if_neg (by decide)]

theorem ipv4ParseFlags_bits (ihlWords : ℕ) (fragment : UInt16) :
    ipv4ParseFlags ihlWords fragment &&& parseFlagVlanTagged = 0 ∧
      (ipv4ParseFlags ihlWords fragment &&& parseFlagIpOptions ≠ 0 ↔ 5 < ihlWords) ∧
      (ipv4ParseFlags ihlWords fragment &&& parseFlagIpFragmented ≠ 0 ↔ fragment &&& 0x2000 ≠ 0) := by
  have hbits : ∀ options fragmented : Bool,
      ((if options then parseFlagIpOptions else 0) |||
          (if fragmented then parseFlagIpFragmented else 0)) &&&
          parseFlagVlanTagged = 0 ∧
        (((if options then parseFlagIpOptions else 0) |||
          (if fragmented then parseFlagIpFragmented else 0)) &&& parseFlagIpOptions ≠ 0 ↔ options) ∧
        (((if options then parseFlagIpOptions else 0) |||
          (if fragmented then parseFlagIpFragmented else 0)) &&& parseFlagIpFragmented ≠ 0 ↔
            fragmented) := by decide
  have h := hbits (decide (5 < ihlWords)) (decide (fragment &&& 0x2000 ≠ 0))
  simp only [decide_eq_true_iff] at h
  exact h

theorem HeadersAt.parseFlags_bits (h : HeadersAt cursor packet headers) :
    packet.parseFlags &&& parseFlagVlanTagged = 0 ∧
      (packet.parseFlags &&& parseFlagIpOptions ≠ 0 ↔ cursor.hasIpOptions) ∧
      (packet.parseFlags &&& parseFlagIpFragmented ≠ 0 ↔ cursor.moreFragments) := by
  unfold PacketCursor.hasIpOptions PacketCursor.moreFragments
  rw [h.ihlWords_eq, h.fragment, h.parseFlags]
  simpa using ipv4ParseFlags_bits headers.ihlWords headers.fragment

end Flags

/-! ## The frames of a Flow -/

/-- A captured frame of a Flow key, with when it was seen and how long it was. -/
structure FlowFrame (key : AbiFlowKey) where
  bytes : List UInt8
  packet : ParsedPacket
  parsed : parse (memoryCursor bytes) = .ok packet
  key_eq : flowKey packet.toParsedFlow key.direction key.ifindex = key
  now : ℕ
  packetLen : ℕ

namespace FlowFrame

variable {key : AbiFlowKey}

abbrev cursor (frame : FlowFrame key) : PacketCursor := memoryCursor frame.bytes

def recordIn (value : FlowEntry) (frame : FlowFrame key) : FlowEntry :=
  value.record frame.packet frame.now frame.packetLen

end FlowFrame

/-- The entry of a Flow: its first frame finds none, and the others record into it. -/
def flowEntry {key : AbiFlowKey} (first : FlowFrame key) (rest : List (FlowFrame key)) : FlowEntry :=
  rest.foldl FlowFrame.recordIn (FlowFrame.recordIn {} first)

/-- A flag is set for some of the frames. -/
def FlagOf {key : AbiFlowKey} (value : FlowEntry) (flag : UInt16) (frames : List (FlowFrame key))
    (carries : PacketCursor → Bool) : Prop :=
  value.parseFlags &&& flag ≠ 0 ↔ ∃ frame ∈ frames, carries frame.cursor

/-- Counters, times, flags and parse flags but the VLAN flag are those of the frames. -/
structure Accumulated {key : AbiFlowKey} (frames : List (FlowFrame key)) (value : FlowEntry) : Prop where
  packets : value.packets = min frames.length u64Max
  bytes : value.bytes = min (frames.map FlowFrame.packetLen).sum u64Max
  firstSeen : frames.head?.map FlowFrame.now = some value.firstSeenMonoNs
  lastSeen : frames.getLast?.map FlowFrame.now = some value.lastSeenMonoNs
  tcpFlags : value.tcpFlags = (frames.map fun frame => frame.cursor.segmentFlags).foldl (· ||| ·) 0
  ipOptions : FlagOf value parseFlagIpOptions frames PacketCursor.hasIpOptions
  ipFragmented : FlagOf value parseFlagIpFragmented frames PacketCursor.moreFragments

section Run

variable {key : AbiFlowKey} {frames : List (FlowFrame key)} {value : FlowEntry} {flag : UInt16}
  {carries : PacketCursor → Bool}

theorem satAdd_min (a b : ℕ) : satAdd (min a u64Max) b = min (a + b) u64Max := by
  unfold satAdd
  omega

theorem or_and_flag (a b flag : UInt16) : (a ||| b) &&& flag = (a &&& flag) ||| (b &&& flag) := by
  apply UInt16.toBitVec_inj.mp
  exact BitVec.and_or_distrib_right ..

theorem FlagOf.step (h : FlagOf value flag frames carries) {frame : FlowFrame key}
    (hframe : frame.packet.parseFlags &&& flag ≠ 0 ↔ carries frame.cursor) :
    FlagOf (frame.recordIn value) flag (frames ++ [frame]) carries := by
  unfold FlagOf at *
  change (value.parseFlags ||| frame.packet.parseFlags) &&& flag ≠ 0 ↔ _
  rw [or_and_flag, ne_eq, UInt16.or_eq_zero_iff, not_and_or, ← ne_eq, ← ne_eq, h, hframe]
  simp [or_and_right, exists_or]

/-- One more frame. -/
theorem Accumulated.step (h : Accumulated frames value) (hframes : frames ≠ []) (frame : FlowFrame key) :
    Accumulated (frames ++ [frame]) (frame.recordIn value) := by
  obtain ⟨headers, hat⟩ := parse_eq_ok frame.parsed
  obtain ⟨-, hoptions, hfragmented⟩ := hat.parseFlags_bits
  have hseen : value.packets ≠ 0 := by
    have hlength := List.length_pos_iff.mpr hframes
    rw [h.packets]
    unfold u64Max
    omega
  exact {
    packets := by
      change satAdd value.packets 1 = _
      rw [h.packets, satAdd_min, List.length_append]
      rfl
    bytes := by
      change satAdd value.bytes frame.packetLen = _
      rw [h.bytes, satAdd_min, List.map_append, List.sum_append]
      rfl
    firstSeen := by
      change _ = some (if value.packets = 0 then _ else _)
      rw [if_neg hseen, List.head?_append_of_ne_nil _ hframes]
      exact h.firstSeen
    lastSeen := by
      rw [List.getLast?_append_cons]
      rfl
    tcpFlags := by
      change value.tcpFlags ||| frame.packet.tcpFlags = _
      rw [h.tcpFlags, hat.segmentFlags, List.map_append, List.foldl_append]
      rfl
    ipOptions := h.ipOptions.step hoptions
    ipFragmented := h.ipFragmented.step hfragmented }

/-- The frame that finds no entry. -/
theorem accumulated_first (frame : FlowFrame key) : Accumulated [frame] (frame.recordIn {}) := by
  obtain ⟨headers, hat⟩ := parse_eq_ok frame.parsed
  obtain ⟨-, hoptions, hfragmented⟩ := hat.parseFlags_bits
  have hnone (flag : UInt16) (carries : PacketCursor → Bool) :
      @FlagOf key {} flag [] carries := by
    simp [FlagOf]
  exact {
    packets := rfl
    bytes := by
      change satAdd (min 0 u64Max) frame.packetLen = min (frame.packetLen + 0) u64Max
      rw [satAdd_min, Nat.add_comm]
    firstSeen := rfl
    lastSeen := rfl
    tcpFlags := by
      change 0 ||| frame.packet.tcpFlags = _
      rw [hat.segmentFlags]
      rfl
    ipOptions := (hnone _ _).step hoptions
    ipFragmented := (hnone _ _).step hfragmented }

theorem Accumulated.run (h : Accumulated frames value) (hframes : frames ≠ [])
    (rest : List (FlowFrame key)) :
    Accumulated (frames ++ rest) (rest.foldl FlowFrame.recordIn value) := by
  induction rest generalizing frames value with
  | nil =>
    rw [List.append_nil]
    exact h
  | cons frame rest ih =>
    have hstep := ih (h.step hframes frame) (List.append_ne_nil_of_right_ne_nil _ nofun)
    rwa [List.append_assoc] at hstep

end Run

section Entry

variable {key : AbiFlowKey} (first : FlowFrame key) (rest : List (FlowFrame key))

theorem accumulated_flowEntry : Accumulated (first :: rest) (flowEntry first rest) :=
  (accumulated_first first).run nofun rest

/-- No frame is recorded as tagged. -/
theorem flowEntry_not_tagged : (flowEntry first rest).parseFlags &&& parseFlagVlanTagged = 0 := by
  have hframe (value : FlowEntry) (frame : FlowFrame key)
      (h : value.parseFlags &&& parseFlagVlanTagged = 0) :
      (frame.recordIn value).parseFlags &&& parseFlagVlanTagged = 0 := by
    obtain ⟨headers, hat⟩ := parse_eq_ok frame.parsed
    change (value.parseFlags ||| frame.packet.parseFlags) &&& parseFlagVlanTagged = 0
    rw [or_and_flag, h, hat.parseFlags_bits.1]
    rfl
  unfold flowEntry
  have hfirst := hframe {} first rfl
  generalize FlowFrame.recordIn {} first = value at hfirst
  induction rest generalizing value with
  | nil => exact hfirst
  | cons frame rest ih => exact ih _ (hframe value frame hfirst)

/-- The entry of a Flow says what its frames carried, with the VLAN flag set for tagged frames,
exactly if none of them is tagged. -/
theorem flowEntry_accumulates_iff :
    (Accumulated (first :: rest) (flowEntry first rest) ∧
      FlagOf (flowEntry first rest) parseFlagVlanTagged (first :: rest) PacketCursor.vlanTagged) ↔
    ∀ frame ∈ first :: rest, frame.cursor.vlanTagged = false := by
  have hrecorded := accumulated_flowEntry first rest
  have huntagged := flowEntry_not_tagged first rest
  unfold FlagOf
  simp only [hrecorded, huntagged, true_and, ne_eq, not_true_eq_false, false_iff, not_exists, not_and,
    Bool.not_eq_true]

end Entry

/-- A datagram without payload, in a frame with a customer tag. -/
def taggedFrame : Frame where
  destination := Vector.replicate 6 0xAA
  source := Vector.replicate 6 0xBB
  tag := some ⟨false, 100⟩
  ipv4 := {
    tos := 0
    identification := 0x1234
    reserved := false
    dontFragment := false
    moreFragments := false
    ttl := 64
    checksum := 0
    source := .new 192 168 1 10
    destination := .new 93 184 216 34
    options := []
    optionWords := ⟨0, Nat.zero_le _, rfl⟩ }
  srcPort := 53
  dstPort := 40000
  l4 := .udp 8 0
  payload := []
  padding := []
  totalLength_lt := by decide

/-- The only frame of its Flow. -/
def taggedFlowFrame :
    FlowFrame (flowKey taggedFrame.observation.toParsedFlow Direction.inbound.toU8 2) where
  bytes := taggedFrame.encode
  packet := taggedFrame.observation
  parsed := parse_encode taggedFrame
  key_eq := rfl
  now := 1
  packetLen := taggedFrame.encode.length

theorem tagged_frame_not_recorded :
    ¬ ∀ (key : AbiFlowKey) (first : FlowFrame key) (rest : List (FlowFrame key)),
      Accumulated (first :: rest) (flowEntry first rest) ∧
        FlagOf (flowEntry first rest) parseFlagVlanTagged (first :: rest) PacketCursor.vlanTagged := by
  intro h
  obtain ⟨-, hflag⟩ := h _ taggedFlowFrame []
  have hset := hflag.mpr ⟨taggedFlowFrame, List.mem_singleton_self _, rfl⟩
  exact hset (flowEntry_not_tagged taggedFlowFrame [])

end ZimaScope
