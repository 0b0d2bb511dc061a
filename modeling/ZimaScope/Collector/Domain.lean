import ZimaScope.Collector.Tracker
import ZimaScope.Common.Observation
import ZimaScope.Ebpf.Sample

/-! # Domain evidence

User space parses the payload samples, and does not repeat an observation before
the one it has given expires.
-/

namespace ZimaScope

structure DomainDedupeKey where
  domain : String
  address : IpAddr
  evidence : DomainEvidence
  clientContext : UInt64
  deriving DecidableEq

/-- Parses kernel payload samples and suppresses duplicates until expiry. -/
structure DomainDecoder where
  dedupe : HashMap DomainDedupeKey Instant := ∅

def domainLabelMaxLen : ℕ := 63

def minDnsTtl : Duration := fromSecs 10
def maxDnsTtl : Duration := fromSecs 3600
def directEvidenceTtl : Duration := fromSecs 300

def confidenceFor : DomainEvidence → AssociationConfidence
  | .dns => .inferred
  | .tlsSni | .httpHost => .direct

def clampDnsTtl (ttlSecs : UInt32) : Duration := max minDnsTtl (min maxDnsTtl (fromSecs ttlSecs.toNat))

/-- `char::is_control`. -/
def isControl (c : Char) : Bool := c.toNat < 0x20 || 0x7F ≤ c.toNat && c.toNat ≤ 0x9F

/-- The length in bytes. -/
def utf8Len (chars : List Char) : ℕ := (chars.map Char.utf8Size).sum

namespace DomainDecoder

/-- Lowercase ASCII, one trailing root dot removed, empty labels and oversized names rejected. -/
def normalizeDomain (raw : String) : Option String :=
  let trimmed := if raw.toList.getLast? = some '.' then raw.toList.dropLast else raw.toList
  if trimmed = [] || domainMaxLen < utf8Len trimmed then none
  else if (trimmed.splitOn '.').any fun label => label = [] || domainLabelMaxLen < utf8Len label then
    none
  else if trimmed.any fun c => isControl c || c = ' ' || c = '/' then none
  else some (String.ofList (trimmed.map Char.toLower))

def domainFromBuffer (name : List UInt8) : Option String := do
  guard (name ≠ [] ∧ name.length ≤ domainMaxLen)
  let raw ← String.fromUTF8? ⟨name.toArray⟩
  normalizeDomain raw

section Push

variable (domain : String) (address : IpAddr) (ifindex : UInt32) (evidence : DomainEvidence)
  (observedAt expiresAt now : Instant)

def push (progress : DomainDecoder × List DomainObservation) : DomainDecoder × List DomainObservation :=
  -- the interface is the client context
  let clientContext := ifindex.toUInt64
  let key := ⟨domain, address, evidence, clientContext⟩
  if (AList.lookup key progress.1.dedupe).any fun existingExpiry => now < existingExpiry then progress
  else
    (⟨progress.1.dedupe.insert key expiresAt⟩, progress.2 ++ [{
      domain
      address
      evidence
      confidence := confidenceFor evidence
      clientContext
      observedAt
      expiresAt }])

end Push

/-- The name a ClientHello or a request carries. -/
def directName (evidence : DomainEvidence) (payload : List UInt8) : Option String := do
  let name ← match evidence with
    | .tlsSni => extractTlsSni (memoryCursor payload) 0 payload.length
    | .httpHost => extractHttpHost (memoryCursor payload) 0 payload.length
    | .dns => none
  domainFromBuffer name

section Decode

variable (sample : DomainSample) (now : Instant)

/-- The sample's payload, if it is one that is parsed. -/
def samplePayload : Option (SampleKind × List UInt8) := do
  guard (sample.ipFamily = IpFamily.v4.toU8)
  let _ ← Direction.fromAbi sample.direction
  let _ ← TransportProtocol.fromAbi sample.transport
  let kind ← SampleKind.fromAbi sample.kind
  let length := sample.payloadLen.toNat
  guard (length ≠ 0 ∧ length ≤ domainSampleMax)
  return (kind, sample.payload.toList.take length)

/-- Pushes what a direct sample names. -/
def decodeDirect (evidence : DomainEvidence) (payload : List UInt8) (observedAt : Instant)
    (progress : DomainDecoder × List DomainObservation) : DomainDecoder × List DomainObservation :=
  match directName evidence payload with
  | none => progress
  | some domain =>
    push domain (.v4 (ipv4FromAbi sample.address)) sample.ifindex evidence observedAt
      (observedAt + directEvidenceTtl) now progress

/-- Pushes the answers of a DNS response. -/
def decodeDns (payload : List UInt8) (observedAt : Instant)
    (progress : DomainDecoder × List DomainObservation) : DomainDecoder × List DomainObservation :=
  let offset := if sample.transport = TransportProtocol.tcp.toU8 then 2 else 0
  if payload.length ≤ offset then progress
  else
    (parseDnsResponse (memoryCursor payload) payload.length offset).foldl (fun progress (name, answer) =>
      match domainFromBuffer name with
      | none => progress
      | some domain =>
        push domain (.v4 (ipv4FromAbi answer.address)) sample.ifindex .dns observedAt
          (observedAt + clampDnsTtl answer.ttlSecs) now progress) progress

/-- Parses one sample, appending every distinct observation it yields. -/
def decode (clock : MonoClock) (progress : DomainDecoder × List DomainObservation) :
    MonoClock × (DomainDecoder × List DomainObservation) :=
  match samplePayload sample with
  | none => (clock, progress)
  | some (kind, payload) =>
    let clock := clock.anchorIfNeeded sample.observedMonoNs now
    let observedAt := clock.toInstant now sample.observedMonoNs
    (clock, match kind with
      | .dns => decodeDns sample now payload observedAt progress
      | .tlsClientHello => decodeDirect sample now .tlsSni payload observedAt progress
      | .httpRequest => decodeDirect sample now .httpHost payload observedAt progress)

end Decode

def purgeExpired (decoder : DomainDecoder) (now : Instant) : DomainDecoder :=
  ⟨decoder.dedupe.retain fun _ expiry => now < expiry⟩

end DomainDecoder

end ZimaScope
