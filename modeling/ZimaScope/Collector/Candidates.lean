import ZimaScope.Collector.Domain
import ZimaScope.Ebpf.ClientHello
import ZimaScope.Ebpf.Dns

/-! # Candidates and parsers

The packet path peeks at eight bytes where user space parses the whole sample. What the
parsers need of these bytes, and for which of them the peek accepts.
-/

namespace ZimaScope

open MemoryCursor

/-! ## The peek -/

/-- The domain evidence that a packet is considered for, by its ports and direction. -/
def portKind (flow : ParsedFlow) (direction : UInt8) : Option SampleKind :=
  let isTcp : Bool := flow.protocol = TransportProtocol.tcp.toU8
  let isUdp : Bool := flow.protocol = TransportProtocol.udp.toU8
  let outbound : Bool := direction = Direction.outbound.toU8
  if (isTcp || isUdp) && (flow.srcPortBe = toBe dnsPort || flow.dstPortBe = toBe dnsPort) then some .dns
  else if outbound && isTcp && flow.dstPortBe = toBe tlsPort then some .tlsClientHello
  else if outbound && isTcp && flow.dstPortBe = toBe httpPort then some .httpRequest
  else none

/-- The first bytes of a payload pass for one with this evidence. -/
def PeekAccepts (transport : UInt8) (peek : List UInt8) : SampleKind → Prop
  | .dns => ∃ flags, peek[if transport = TransportProtocol.tcp.toU8 then 4 else 2]? = some flags ∧
      flags &&& 0x80 ≠ 0
  | .tlsClientHello => peek[0]? = some 0x16 ∧ peek[5]? = some 0x01
  | .httpRequest => ∃ first, peek[0]? = some first ∧
      (first = 71 ∨ first = 80 ∨ first = 72 ∨ first = 68)

section Peek

variable {flow : ParsedFlow} {direction : UInt8} {payload : PacketPayload} {kind : SampleKind}

theorem sampleKind_eq_some : sampleKind flow direction payload = some kind ↔
    portKind flow direction = some kind ∧
      ∃ peek, payload.load peekLen = some peek ∧ PeekAccepts flow.protocol peek kind := by
  unfold sampleKind portKind
  simp only [Option.bind_eq_bind, Option.bind_eq_some_iff, Option.guard_eq_some', exists_const]
  generalize ((decide (flow.protocol = TransportProtocol.tcp.toU8) ||
    decide (flow.protocol = TransportProtocol.udp.toU8)) &&
    (decide (flow.srcPortBe = toBe dnsPort) || decide (flow.dstPortBe = toBe dnsPort))) = isDns
  generalize (decide (direction = Direction.outbound.toU8) &&
    decide (flow.protocol = TransportProtocol.tcp.toU8) &&
    decide (flow.dstPortBe = toBe tlsPort)) = isTls
  generalize (decide (direction = Direction.outbound.toU8) &&
    decide (flow.protocol = TransportProtocol.tcp.toU8) &&
    decide (flow.dstPortBe = toBe httpPort)) = isHttp
  cases isDns with
  | true =>
    simp only [Bool.true_or, if_true, decide_eq_true_eq, Option.bind_eq_some_iff, Option.guard_eq_some',
      Option.pure_def, Option.some.injEq, exists_const, true_and]
    constructor
    · rintro ⟨peek, hload, flags, hflags, hset, rfl⟩
      exact ⟨rfl, peek, hload, flags, hflags, hset⟩
    · rintro ⟨rfl, peek, hload, flags, hflags, hset⟩
      exact ⟨peek, hload, flags, hflags, hset, rfl⟩
  | false =>
    cases isTls with
    | true =>
      simp only [Bool.or_true, Bool.true_or, Bool.false_eq_true, if_true, if_false,
        Option.bind_eq_some_iff, Option.guard_eq_some', Option.pure_def, Option.some.injEq,
        exists_const, true_and]
      constructor
      · rintro ⟨peek, hload, hpeek, rfl⟩
        exact ⟨rfl, peek, hload, hpeek⟩
      · rintro ⟨rfl, peek, hload, hpeek⟩
        exact ⟨peek, hload, hpeek, rfl⟩
    | false =>
      cases isHttp with
      | true =>
        simp only [Bool.or_self, Bool.or_true, Bool.false_eq_true, if_true, if_false,
          Option.bind_eq_some_iff, Option.guard_eq_some', Option.pure_def, Option.some.injEq,
          exists_const, true_and]
        constructor
        · rintro ⟨peek, hload, first, hfirst, hmethod, rfl⟩
          exact ⟨rfl, peek, hload, first, hfirst, hmethod⟩
        · rintro ⟨rfl, peek, hload, first, hfirst, hmethod⟩
          exact ⟨peek, hload, first, hfirst, hmethod, rfl⟩
      | false => simp

end Peek

/-! ## What the parsers read -/

section Read

variable {data : List UInt8} {name : List UInt8}

theorem readU16Be_eq_some {offset : ℕ} {value : UInt16}
    (h : (memoryCursor data).readU16Be offset = some value) :
    ∃ b0 b1, data[offset]? = some b0 ∧ data[offset + 1]? = some b1 ∧
      value = .ofNat (b0.toNat * 256 + b1.toNat) := by
  simp only [memoryCursor, slice, Option.map_eq_some_iff] at h
  obtain ⟨bytes, hslice, rfl⟩ := h
  rw [Option.ite_none_right_eq_some] at hslice
  obtain ⟨hle, heq⟩ := hslice
  obtain rfl := Option.some.inj heq
  have hfirst : offset < data.length := by omega
  have hsecond : offset + 1 < data.length := by omega
  refine ⟨data[offset], data[offset + 1], List.getElem?_eq_getElem hfirst,
    List.getElem?_eq_getElem hsecond, ?_⟩
  have htake : (data.drop offset).take 2 = [data[offset], data[offset + 1]] := by
    rw [List.drop_eq_getElem_cons hfirst, List.drop_eq_getElem_cons hsecond]
    rfl
  rw [htake]
  simp only [ofBeBytes, List.foldl_cons, List.foldl_nil, Nat.zero_mul, Nat.zero_add]

/-- The bit that the parser tests in a word is the one the peek tests in its first byte. -/
theorem response_bit {b0 b1 : UInt8} (h : UInt16.ofNat (b0.toNat * 256 + b1.toNat) &&& 0x8000 ≠ 0) :
    b0 &&& 0x80 ≠ 0 := by
  intro hzero
  have hlow : ∀ byte : BitVec 8, byte &&& 0x80 = 0 → byte.toNat < 128 := by decide
  have hfirst : b0.toNat < 128 := hlow b0.toBitVec (congrArg UInt8.toBitVec hzero)
  have hsecond := b1.toNat_lt
  have hword : b0.toNat * 256 + b1.toNat < 2 ^ 15 := by omega
  apply h
  apply UInt16.toNat_inj.mp
  rw [UInt16.toNat_and, UInt16.toNat_ofNat', Nat.mod_eq_of_lt (hword.trans (by decide))]
  apply Nat.eq_of_testBit_eq
  intro bit
  have hmask : UInt16.toNat 0x8000 = 2 ^ 15 := rfl
  rw [hmask, Nat.testBit_and, Nat.testBit_two_pow]
  by_cases hbit : 15 = bit
  · rw [← hbit, Nat.testBit_lt_two_pow hword]
    rfl
  · rw [decide_eq_false hbit, Bool.and_false]
    exact (Nat.zero_testBit bit).symm

/-- A DNS response has its flags where the peek looks for them. -/
theorem peekAccepts_dns {transport : UInt8}
    (h : parseDnsResponse (memoryCursor data) data.length
      (if transport = TransportProtocol.tcp.toU8 then 2 else 0) ≠ []) :
    peekLen ≤ data.length ∧ PeekAccepts transport (data.take peekLen) .dns := by
  generalize hoffset : (if transport = TransportProtocol.tcp.toU8 then 2 else 0) = offset at h
  have hflagsAt : (if transport = TransportProtocol.tcp.toU8 then 4 else 2) = offset + 2 := by
    rw [← hoffset]
    split <;> rfl
  have hsmall : offset + 2 < peekLen := by
    rw [← hflagsAt]
    split <;> decide
  rw [parseDnsResponse_eq] at h
  cases hread : readResponse (memoryCursor data) data.length offset with
  | none =>
    rw [hread] at h
    exact absurd rfl h
  | some response =>
    obtain ⟨questions, count, question, position⟩ := response
    obtain ⟨-, -, -, ⟨flags, hflags, hresponse⟩, -⟩ := readResponse_eq_some hread
    obtain ⟨b0, b1, hfirst, -, rfl⟩ := readU16Be_eq_some hflags
    unfold readResponse at hread
    rw [guard_bind_eq_some, within_iff] at hread
    have hlength : peekLen ≤ data.length := by
      unfold peekLen
      omega
    refine ⟨hlength, b0, ?_, response_bit hresponse⟩
    rw [hflagsAt, List.getElem?_take_of_lt hsmall]
    exact hfirst

theorem peekAccepts_tls {transport : UInt8}
    (h : extractTlsSni (memoryCursor data) 0 data.length = some name) :
    peekLen ≤ data.length ∧ PeekAccepts transport (data.take peekLen) .tlsClientHello := by
  obtain ⟨layout, hat, hchecked, -⟩ := extractTlsSni_eq_some.mp h
  have hlength := hchecked.recordStart
  have htype : data[0]? = some 0x16 := hat.contentType
  have hhandshake : data[5]? = some 0x01 := hat.handshakeType
  refine ⟨by unfold peekLen; omega, ?_, ?_⟩
  · rw [List.getElem?_take_of_lt (by decide)]
    exact htype
  · rw [List.getElem?_take_of_lt (by decide)]
    exact hhandshake

/-! ### HTTP -/

section Http

variable {cursor : PacketCursor} {stop : ℕ}

theorem le_findCrlf {scan position crlf : ℕ} (h : findCrlf cursor stop scan position = some crlf) :
    position ≤ crlf := by
  induction scan generalizing position with
  | zero => simp [findCrlf] at h
  | succ scan ih =>
    unfold findCrlf at h
    rw [guard_bind_eq_some] at h
    obtain ⟨b0, -, h⟩ := Option.bind_eq_some_iff.mp h.2
    have hnext : findCrlf cursor stop scan (position + 1) = some crlf → position ≤ crlf :=
      fun h => (Nat.le_succ position).trans (ih h)
    simp only at h
    split at h
    · obtain ⟨b1, -, h⟩ := Option.bind_eq_some_iff.mp h
      split at h
      · exact (Option.some.inj h).le
      · exact hnext h
    · exact hnext h

theorem le_skipBlanks {scan position : ℕ} : position ≤ skipBlanks cursor stop scan position := by
  induction scan generalizing position with
  | zero => exact le_rfl
  | succ scan ih =>
    unfold skipBlanks
    split
    · exact le_rfl
    · split
      · split
        · exact (Nat.le_succ position).trans ih
        · exact le_rfl
      · exact le_rfl

/-- A host starts before the end. -/
theorem lt_of_readHostValue {position : ℕ} (h : readHostValue cursor stop position = some name) :
    position < stop := by
  unfold readHostValue at h
  rw [guard_bind_eq_some] at h
  obtain ⟨⟨hmoved, -⟩, -⟩ := h
  by_contra hge
  apply hmoved
  have hstart : stop ≤ skipBlanks cursor stop maxHttpScan position :=
    (Nat.le_of_not_lt hge).trans le_skipBlanks
  unfold maxHttpScan readHost at *
  rw [if_pos hstart]

theorem lt_of_readHeaders {headers position : ℕ}
    (h : readHeaders cursor stop headers position = some name) : position + 5 < stop := by
  induction headers generalizing position with
  | zero => simp [readHeaders] at h
  | succ headers ih =>
    unfold readHeaders at h
    rw [guard_bind_eq_some] at h
    obtain ⟨b0, -, h⟩ := Option.bind_eq_some_iff.mp h.2
    have hhere : (if headerIsHost cursor stop position = true then
        readHostValue cursor stop (position + 5)
      else do
        let crlf ← findCrlf cursor stop maxHttpScan position
        readHeaders cursor stop headers (crlf + 2)) = some name → position + 5 < stop := by
      intro h
      split at h
      · exact lt_of_readHostValue h
      · obtain ⟨crlf, hcrlf, h⟩ := Option.bind_eq_some_iff.mp h
        have hle := le_findCrlf hcrlf
        have hrest := ih h
        omega
    simp only at h
    split at h
    · obtain ⟨b1, -, h⟩ := Option.bind_eq_some_iff.mp h
      rw [guard_bind_eq_some] at h
      exact hhere h.2
    · exact hhere h

end Http

/-- A request is as long as the peek, and begins with the first byte of a method. -/
theorem first_of_extractHttpHost (h : extractHttpHost (memoryCursor data) 0 data.length = some name) :
    peekLen ≤ data.length ∧ ∃ first ∈ ([71, 80, 72, 68, 79, 67] : List UInt8), data[0]? = some first := by
  unfold extractHttpHost at h
  simp only at h
  rw [guard_bind_eq_some] at h
  obtain ⟨hrequest, h⟩ := h
  obtain ⟨crlf, hcrlf, h⟩ := Option.bind_eq_some_iff.mp h
  have hlt := lt_of_readHeaders h
  have hend : min data.length (0 + maxHttpScan) ≤ data.length := min_le_left _ _
  refine ⟨by unfold peekLen; omega, ?_⟩
  unfold isHttpRequest at hrequest
  rw [Bool.and_eq_true, Option.any_eq_true] at hrequest
  obtain ⟨-, bytes, hbytes, hmethod⟩ := hrequest
  obtain ⟨b0, hb0, hbytes⟩ := Option.bind_eq_some_iff.mp hbytes
  obtain ⟨b1, -, hbytes⟩ := Option.bind_eq_some_iff.mp hbytes
  obtain ⟨b2, -, hbytes⟩ := Option.bind_eq_some_iff.mp hbytes
  obtain ⟨b3, -, hbytes⟩ := Option.bind_eq_some_iff.mp hbytes
  obtain rfl := Option.some.inj hbytes
  have hmethods : ∀ method ∈ httpMethods,
      ∃ first ∈ ([71, 80, 72, 68, 79, 67] : List UInt8), method.head? = some first := by
    decide +kernel
  obtain ⟨first, hfirst, hhead⟩ := hmethods _ (of_decide_eq_true hmethod)
  obtain rfl := Option.some.inj hhead
  exact ⟨b0, hfirst, hb0⟩

end Read

/-! ## Samples -/

open DomainDecoder

/-- Parsing the sample yields an observation, with some decoder. -/
def DomainDecoder.Extracts (sample : DomainSample) : Prop :=
  ∃ now clock progress, (decode sample now clock progress).2.2 ≠ progress.2

/-- What the parser for a kind finds in a sample's bytes. -/
def Parsed (transport : UInt8) (data : List UInt8) : SampleKind → Prop
  | .dns => parseDnsResponse (memoryCursor data) data.length
      (if transport = TransportProtocol.tcp.toU8 then 2 else 0) ≠ []
  | .tlsClientHello => ∃ name, extractTlsSni (memoryCursor data) 0 data.length = some name
  | .httpRequest => ∃ name, extractHttpHost (memoryCursor data) 0 data.length = some name

section Sample

variable {flow : ParsedFlow} {direction : UInt8} {ifindex : UInt32} {observedMonoNs : ℕ}
  {payload : PacketPayload} {kind : SampleKind} {address : Vector UInt8 16} {sample : DomainSample}

theorem take_sampleBuffer {bytes : List UInt8} (h : bytes.length ≤ 512) :
    (sampleBuffer bytes).toList.take bytes.length = bytes := by
  have hlist : (sampleBuffer bytes).toList = bytes ++ List.replicate (512 - bytes.length) 0 := by
    rw [sampleBuffer, Vector.toList_mk, List.toList_toArray, List.take_of_length_le h]
  rw [hlist, List.take_left]

/-- User space parses the kind of the sample in the first bytes of the packet's payload. -/
theorem samplePayload_emit {kind' : SampleKind} {data : List UInt8}
    (hemit : emitDomainSample flow direction ifindex observedMonoNs payload kind address = some sample)
    (h : samplePayload sample = some (kind', data)) :
    sample.transport = flow.protocol ∧ kind' = kind ∧
      data = payload.bytes.take (min (payload.available - 1) (domainSampleMax - 1) + 1) := by
  unfold emitDomainSample at hemit
  rw [guard_bind_eq_some] at hemit
  obtain ⟨bytes, hload, hemit⟩ := Option.bind_eq_some_iff.mp hemit.2
  obtain rfl := Option.some.inj hemit
  rw [PacketPayload.load, slice, Option.ite_none_right_eq_some] at hload
  obtain ⟨hlength, hbytes⟩ := hload
  obtain rfl := Option.some.inj hbytes
  generalize hlen : min (payload.available - 1) (domainSampleMax - 1) + 1 = len at h hlength ⊢
  have hmax : len ≤ 512 := by
    unfold domainSampleMax at hlen
    omega
  have htake : ((payload.bytes.drop 0).take len).length = len := by
    rw [List.drop_zero, List.length_take]
    omega
  unfold samplePayload at h
  simp only [Option.bind_eq_bind, Option.bind_eq_some_iff, Option.guard_eq_some', exists_const,
    Option.pure_def, Option.some.injEq, Prod.mk.injEq] at h
  obtain ⟨-, -, -, -, -, parsed, hkind, -, rfl, rfl⟩ := h
  have hround : SampleKind.fromAbi kind.toU8 = some kind := by
    cases kind <;> rfl
  rw [hround] at hkind
  refine ⟨rfl, (Option.some.inj hkind).symm, ?_⟩
  have hnat : (UInt16.ofNat len).toNat = len := by
    rw [UInt16.toNat_ofNat', Nat.mod_eq_of_lt (by omega)]
  rw [hnat]
  have hbuffer := take_sampleBuffer (htake.trans_le hmax)
  rw [htake] at hbuffer
  rw [hbuffer, List.drop_zero]

theorem parsed_of_extracts (h : Extracts sample) : ∃ kind data,
    samplePayload sample = some (kind, data) ∧ Parsed sample.transport data kind := by
  obtain ⟨now, clock, progress, hne⟩ := h
  unfold decode at hne
  cases hpayload : samplePayload sample with
  | none =>
    rw [hpayload] at hne
    exact absurd rfl hne
  | some parsed =>
    obtain ⟨kind, data⟩ := parsed
    rw [hpayload] at hne
    refine ⟨kind, data, rfl, ?_⟩
    have hdirect : ∀ evidence observedAt,
        (decodeDirect sample now evidence data observedAt progress).2 ≠ progress.2 →
          ∃ domain, directName evidence data = some domain := by
      intro evidence observedAt hne
      unfold decodeDirect at hne
      split at hne
      · exact absurd rfl hne
      · next domain hdomain => exact ⟨domain, hdomain⟩
    cases kind with
    | dns =>
      intro hnone
      apply hne
      simp only [decodeDns, hnone, List.foldl_nil, ite_self]
    | tlsClientHello =>
      obtain ⟨domain, hdomain⟩ := hdirect _ _ hne
      obtain ⟨name, hname, -⟩ := Option.bind_eq_some_iff.mp hdomain
      exact ⟨name, hname⟩
    | httpRequest =>
      obtain ⟨domain, hdomain⟩ := hdirect _ _ hne
      obtain ⟨name, hname, -⟩ := Option.bind_eq_some_iff.mp hdomain
      exact ⟨name, hname⟩

/-- The peek accepts what the parser of its kind accepts, but for two methods of requests. -/
theorem peekAccepts_iff {transport : UInt8} {data : List UInt8} (h : Parsed transport data kind) :
    peekLen ≤ data.length ∧ (PeekAccepts transport (data.take peekLen) kind ↔
      ¬ (kind = .httpRequest ∧ (data[0]? = some 79 ∨ data[0]? = some 67))) := by
  cases kind with
  | dns =>
    obtain ⟨hlength, haccepts⟩ := peekAccepts_dns h
    exact ⟨hlength, by simp [haccepts]⟩
  | tlsClientHello =>
    obtain ⟨name, hname⟩ := h
    obtain ⟨hlength, haccepts⟩ : peekLen ≤ data.length ∧
        PeekAccepts transport (data.take peekLen) .tlsClientHello := peekAccepts_tls hname
    exact ⟨hlength, by simp [haccepts]⟩
  | httpRequest =>
    obtain ⟨name, hname⟩ := h
    obtain ⟨hlength, first, hfirst, hread⟩ := first_of_extractHttpHost hname
    refine ⟨hlength, ?_⟩
    have hpeek : (data.take peekLen)[0]? = some first := by
      rw [List.getElem?_take_of_lt (by decide)]
      exact hread
    simp only [PeekAccepts, hpeek, hread, Option.some.injEq, exists_eq_left', true_and]
    have hmethods : ∀ first ∈ ([71, 80, 72, 68, 79, 67] : List UInt8),
        (first = 71 ∨ first = 80 ∨ first = 72 ∨ first = 68) ↔ ¬ (first = 79 ∨ first = 67) := by
      decide +kernel
    exact hmethods first hfirst

theorem sampleDomains_eq_some (hkind : portKind flow direction = some kind)
    (hemit : emitDomainSample flow direction ifindex observedMonoNs payload kind
      (if direction = Direction.outbound.toU8 then flow.dstAddr else flow.srcAddr) = some sample) :
    sampleDomains flow direction ifindex observedMonoNs payload = some sample ↔
      sampleKind flow direction payload = some kind := by
  unfold sampleDomains
  constructor
  · intro h
    obtain ⟨kind', hkind', -⟩ := Option.bind_eq_some_iff.mp h
    have hport := (sampleKind_eq_some.mp hkind').1
    rw [hkind] at hport
    rw [hkind', ← hport]
  · intro h
    rw [h]
    exact hemit

/-- A payload on a considered port and direction that the parser finds a domain in is sampled, if and
only if it is not an `OPTIONS` or `CONNECT` request. -/
theorem candidate_sampled_iff (hkind : portKind flow direction = some kind)
    (hemit : emitDomainSample flow direction ifindex observedMonoNs payload kind
      (if direction = Direction.outbound.toU8 then flow.dstAddr else flow.srcAddr) = some sample)
    (hextracts : Extracts sample) :
    sampleDomains flow direction ifindex observedMonoNs payload = some sample ↔
      ¬ (kind = .httpRequest ∧ (payload.bytes[0]? = some 79 ∨ payload.bytes[0]? = some 67)) := by
  obtain ⟨kind', data, hpayload, hparsed⟩ := parsed_of_extracts hextracts
  obtain ⟨htransport, rfl, htaken⟩ := samplePayload_emit hemit hpayload
  obtain ⟨rest, hbytes⟩ : data <+: payload.bytes := htaken ▸ List.take_prefix _ _
  rw [htransport] at hparsed
  obtain ⟨hlength, hiff⟩ := peekAccepts_iff hparsed
  have hload : payload.load peekLen = some (data.take peekLen) := by
    rw [PacketPayload.load, slice, if_pos (by rw [← hbytes, List.length_append]; omega), ← hbytes,
      List.drop_zero, List.take_append_of_le_length hlength]
  have hfirst : payload.bytes[0]? = data[0]? := by
    rw [← hbytes, List.getElem?_append_left (Nat.lt_of_lt_of_le (by decide) hlength)]
  rw [sampleDomains_eq_some hkind hemit, sampleKind_eq_some, hload, hfirst, ← hiff]
  constructor
  · rintro ⟨-, peek, hpeek, haccepts⟩
    rwa [Option.some.inj hpeek]
  · intro haccepts
    exact ⟨hkind, _, rfl, haccepts⟩

end Sample

/-! ## A method only one side knows -/

def requestBytes (text : String) : List UInt8 := text.toList.map fun c => .ofNat c.toNat

/-- A connection to port 80. -/
def httpFlow : ParsedFlow where
  srcAddr := ipv4Storage (.new 192 168 1 2)
  dstAddr := ipv4Storage (.new 203 0 113 1)
  srcPortBe := toBe 40000
  dstPortBe := toBe 80
  protocol := 6
  ipFamily := 4

def httpPayload (method : String) : PacketPayload :=
  let bytes := requestBytes (method ++ " * HTTP/1.1\r\nHost: a.example\r\n\r\n")
  ⟨bytes, bytes.length⟩

/-- The sample of a request, whatever the peek says. -/
def httpSample (method : String) : Option DomainSample :=
  emitDomainSample httpFlow 2 2 1000 (httpPayload method) .httpRequest httpFlow.dstAddr

theorem extracts_of_httpSample {method : String} {sample : DomainSample}
    (hemit : httpSample method = some sample)
    (hdecode : (httpSample method).map (fun sample => (decode sample 0 {} ({}, [])).2.2.length) = some 1) :
    Extracts sample := by
  refine ⟨0, {}, ({}, []), ?_⟩
  rw [hemit, Option.map_some, Option.some.injEq] at hdecode
  intro hnil
  rw [hnil] at hdecode
  simp at hdecode

theorem candidate_sampled_get : ∃ sample, httpSample "GET" = some sample ∧
    sampleDomains httpFlow 2 2 1000 (httpPayload "GET") = some sample := by
  have hdecode : (httpSample "GET").map (fun sample => (decode sample 0 {} ({}, [])).2.2.length) =
      some 1 := by
    decide +kernel
  obtain ⟨sample, hemit, -⟩ := Option.map_eq_some_iff.mp hdecode
  have hkind : portKind httpFlow 2 = some .httpRequest := by decide +kernel
  have hfirst : (httpPayload "GET").bytes[0]? = some 71 := by decide +kernel
  refine ⟨sample, hemit, (candidate_sampled_iff hkind hemit (extracts_of_httpSample hemit hdecode)).mpr ?_⟩
  rw [hfirst]
  decide

/-- The host of an `OPTIONS` request is never observed. -/
theorem options_not_sampled : ¬ ∀ (flow : ParsedFlow) (direction : UInt8) (ifindex : UInt32)
    (observedMonoNs : ℕ) (payload : PacketPayload) (kind : SampleKind) (sample : DomainSample),
    portKind flow direction = some kind →
      emitDomainSample flow direction ifindex observedMonoNs payload kind
        (if direction = Direction.outbound.toU8 then flow.dstAddr else flow.srcAddr) = some sample →
        Extracts sample → sampleDomains flow direction ifindex observedMonoNs payload = some sample := by
  intro hall
  have hdecode : (httpSample "OPTIONS").map (fun sample => (decode sample 0 {} ({}, [])).2.2.length) =
      some 1 := by
    decide +kernel
  obtain ⟨sample, hemit, -⟩ := Option.map_eq_some_iff.mp hdecode
  have hkind : portKind httpFlow 2 = some .httpRequest := by decide +kernel
  have hsampled := hall httpFlow 2 2 1000 (httpPayload "OPTIONS") .httpRequest sample hkind hemit
    (extracts_of_httpSample hemit hdecode)
  have hrefused : sampleKind httpFlow 2 (httpPayload "OPTIONS") = none := by decide +kernel
  rw [sampleDomains, hrefused] at hsampled
  simp at hsampled

end ZimaScope
