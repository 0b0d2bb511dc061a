import ZimaScope.Collector.Candidates
import ZimaScope.Ebpf.Truncation
import ZimaScope.Ebpf.Wire

/-! # Sampled ClientHellos

What user space finds in the sample of a ClientHello whose name the sample holds.
The parser compares the length of the record with the end of what it is given, so
a name is found there only if the whole record is sampled.
-/

namespace ZimaScope

open DomainDecoder

/-- A ClientHello, with whatever follows its record, whose `server_name` extension is among the first
that are read and within the bytes that are sampled. -/
structure SampledHello (data : List UInt8) (layout : HelloLayout) : Prop where
  hello : HelloAt (memoryCursor data) 0 layout
  nested : layout.Nested 0 data.length
  skipped : layout.skipped < maxTlsExtensions
  extension : layout.extension + layout.extensionLen ≤ domainSampleMax

section Hello

variable {data : List UInt8} {layout : HelloLayout}

/-- Nested lengths pass the comparisons with any end behind the record, and a name of a length that a
domain can have passes the one with its bounds. -/
theorem SampledHello.checked_iff (h : SampledHello data layout) (stop : ℕ) :
    layout.Checked 0 stop ↔
      layout.recordEnd 0 ≤ stop ∧ layout.nameLen ≠ 0 ∧ layout.nameLen ≤ domainMaxLen := by
  constructor
  · intro hchecked
    exact ⟨hchecked.record, hchecked.nameLen⟩
  · rintro ⟨hrecord, hlen⟩
    obtain ⟨-, hhandshake, hextensions, hextension, hlist, hname⟩ := h.nested
    have hserver := h.hello.serverName.le
    constructor
    case record => exact hrecord
    case extension => exact hextension
    case list => exact hlist
    case skipped => exact h.skipped
    case nameLen => exact hlen
    all_goals
      simp only [HelloLayout.recordEnd, HelloLayout.handshakeEnd, HelloLayout.extensionsEnd,
        HelloLayout.listEnd, HelloLayout.nameEnd, HelloLayout.extensionsStart,
        HelloLayout.compressionStart, HelloLayout.cipherStart, HelloLayout.sessionStart] at *
      omega

theorem SampledHello.extract_iff (h : SampledHello data layout) {stop : ℕ} {name : List UInt8} :
    extractTlsSni (memoryCursor data) 0 stop = some name ↔
      (layout.recordEnd 0 ≤ stop ∧ layout.nameLen ≠ 0 ∧ layout.nameLen ≤ domainMaxLen) ∧
        layout.name = name := by
  rw [extractTlsSni_eq_some, ← h.checked_iff]
  constructor
  · rintro ⟨layout', hat, hchecked, hname⟩
    obtain rfl := h.hello.eq hat
    exact ⟨hchecked, hname⟩
  · rintro ⟨hchecked, hname⟩
    exact ⟨layout, h.hello, hchecked, hname⟩

/-- A payload that is cut before its end is parsed as the whole with an earlier end. -/
theorem extractTlsSni_take (data : List UInt8) (k : ℕ) :
    extractTlsSni (memoryCursor (data.take k)) 0 (data.take k).length =
      extractTlsSni (memoryCursor data) 0 (min k data.length) := by
  have hsame : SamePayload 0 (min k data.length) (memoryCursor (data.take k)) (memoryCursor data) := by
    apply samePayload_memoryCursor
    intro i _ hi
    rw [List.getElem?_take_of_lt (by omega)]
  rw [List.length_take]
  exact (parsers_congr hsame).2.1

end Hello

section Sample

variable {flow : ParsedFlow} {direction : UInt8} {ifindex : UInt32} {observedMonoNs : ℕ}
  {kind : SampleKind} {address : Vector UInt8 16} {sample : DomainSample}

/-- User space gets the first bytes of a payload that is there as a whole. -/
theorem samplePayload_take {data payload : List UInt8} {kind' : SampleKind}
    (hemit : emitDomainSample flow direction ifindex observedMonoNs ⟨data, data.length⟩ kind address =
      some sample) (h : samplePayload sample = some (kind', payload)) :
    payload = data.take domainSampleMax := by
  obtain ⟨-, -, hpayload⟩ := samplePayload_emit hemit h
  have hpositive : data.length ≠ 0 := by
    unfold emitDomainSample at hemit
    rw [guard_bind_eq_some] at hemit
    exact hemit.1
  rw [hpayload, List.take_eq_take_iff]
  simp only
  unfold domainSampleMax
  omega

/-- The sample of a ClientHello gives the name that the whole gives, if and only if the sample holds the
whole record, or the name has a length for which none is given. -/
theorem sample_sni_iff {data payload : List UInt8} {layout : HelloLayout}
    (hhello : SampledHello data layout)
    (hemit : emitDomainSample flow direction ifindex observedMonoNs ⟨data, data.length⟩ .tlsClientHello
      address = some sample)
    (hpayload : samplePayload sample = some (.tlsClientHello, payload)) :
    extractTlsSni (memoryCursor payload) 0 payload.length =
        extractTlsSni (memoryCursor data) 0 data.length ↔
      layout.recordEnd 0 ≤ domainSampleMax ∨ layout.nameLen = 0 ∨ domainMaxLen < layout.nameLen := by
  obtain rfl := samplePayload_take hemit hpayload
  rw [extractTlsSni_take]
  have hrecord := hhello.nested.record
  constructor
  · intro hsame
    by_contra hnot
    have hwhole : extractTlsSni (memoryCursor data) 0 data.length = some layout.name :=
      hhello.extract_iff.mpr ⟨⟨hrecord, by omega, by omega⟩, rfl⟩
    rw [hwhole, hhello.extract_iff] at hsame
    omega
  · intro h
    apply Option.ext
    intro name
    rw [hhello.extract_iff, hhello.extract_iff]
    apply and_congr_left'
    omega

end Sample

/-! ## A padded ClientHello -/

/-- A ClientHello with a `server_name` extension and so many bytes of padding behind it. -/
def paddedHello (padding : ℕ) : List UInt8 :=
  [0x16, 3, 1] ++ u16Bytes (.ofNat (63 + padding)) ++ [1, 0] ++ u16Bytes (.ofNat (59 + padding)) ++ [3, 3] ++
    List.replicate 32 0 ++ [0, 0, 2, 0x13, 1, 1, 0] ++ u16Bytes (.ofNat (16 + padding)) ++
    [0, 0, 0, 8, 0, 6, 0, 0, 3, 97, 98, 99] ++ [0, 21] ++ u16Bytes (.ofNat padding) ++
    List.replicate padding 0

def paddedLayout (padding : ℕ) : HelloLayout :=
  ⟨63 + padding, 59 + padding, 0, 2, 1, 16 + padding, 0, 56, 8, 6, 3, [97, 98, 99]⟩

theorem paddedHello_sampled {padding : ℕ} (h : padding = 0 ∨ padding = 500) :
    SampledHello (paddedHello padding) (paddedLayout padding) := by
  refine ⟨?_, ?_, ?_, ?_⟩
  case refine_3 | refine_4 => rcases h with rfl | rfl <;> decide
  · constructor
    case handshakeLen =>
      refine ⟨0, .ofNat ((59 + padding) / 256), .ofNat (59 + padding), ?_⟩
      rcases h with rfl | rfl <;> decide +kernel
    case serverName =>
      have hread : (memoryCursor (paddedHello padding)).readU16Be 52 = some 0 ∧
          (memoryCursor (paddedHello padding)).readU16Be 54 = some 8 := by
        rcases h with rfl | rfl <;> decide +kernel
      exact .here hread.1 hread.2
    all_goals rcases h with rfl | rfl <;> decide +kernel
  · rcases h with rfl | rfl <;> constructor <;> decide +kernel

/-- A connection to port 443. -/
def tlsFlow : ParsedFlow := { httpFlow with dstPortBe := toBe tlsPort }

def helloSample (padding : ℕ) : Option DomainSample :=
  emitDomainSample tlsFlow 2 2 1000 ⟨paddedHello padding, (paddedHello padding).length⟩ .tlsClientHello
    tlsFlow.dstAddr

theorem helloSample_payload {padding : ℕ} (h : padding = 0 ∨ padding = 500) :
    ∃ sample payload, helloSample padding = some sample ∧
      samplePayload sample = some (.tlsClientHello, payload) := by
  have hkind : ((helloSample padding).bind samplePayload).map Prod.fst = some .tlsClientHello := by
    rcases h with rfl | rfl <;> decide +kernel
  obtain ⟨⟨kind, payload⟩, hpayload, rfl⟩ := Option.map_eq_some_iff.mp hkind
  obtain ⟨sample, hemit, hsample⟩ := Option.bind_eq_some_iff.mp hpayload
  exact ⟨sample, payload, hemit, hsample⟩

theorem sample_sni_short : ∃ sample payload, helloSample 0 = some sample ∧
    samplePayload sample = some (.tlsClientHello, payload) ∧
      extractTlsSni (memoryCursor payload) 0 payload.length =
        extractTlsSni (memoryCursor (paddedHello 0)) 0 (paddedHello 0).length := by
  obtain ⟨sample, payload, hemit, hsample⟩ := helloSample_payload (Or.inl rfl)
  refine ⟨sample, payload, hemit, hsample, ?_⟩
  exact (sample_sni_iff (paddedHello_sampled (Or.inl rfl)) hemit hsample).mpr (Or.inl (by decide +kernel))

/-- With padding behind the sampled bytes the name is lost. -/
theorem padded_hello_lost : ¬ ∀ (flow : ParsedFlow) (direction : UInt8) (ifindex : UInt32)
    (observedMonoNs : ℕ) (address : Vector UInt8 16) (sample : DomainSample) (data payload : List UInt8)
    (layout : HelloLayout), SampledHello data layout →
      emitDomainSample flow direction ifindex observedMonoNs ⟨data, data.length⟩ .tlsClientHello address =
        some sample →
      samplePayload sample = some (.tlsClientHello, payload) →
        extractTlsSni (memoryCursor payload) 0 payload.length =
          extractTlsSni (memoryCursor data) 0 data.length := by
  intro hall
  obtain ⟨sample, payload, hemit, hsample⟩ := helloSample_payload (Or.inr rfl)
  have hsame := hall _ _ _ _ _ sample (paddedHello 500) payload _ (paddedHello_sampled (Or.inr rfl)) hemit
    hsample
  obtain rfl := samplePayload_take hemit hsample
  revert hsame
  decide +kernel

end ZimaScope
