import ZimaScope.Collector.Domain
import ZimaScope.Lib.Suppression

/-! # What samples yield

The observations that a sample is good for, whatever has been observed before; a
decoder offers them one after the other and takes the ones that it does not suppress.
-/

namespace ZimaScope

namespace DomainDecoder

section Yields

variable (sample : DomainSample) (observedAt : Instant)

def observation (domain : String) (address : IpAddr) (evidence : DomainEvidence)
    (lifetime : Duration) : DomainObservation where
  domain
  address
  evidence
  confidence := confidenceFor evidence
  clientContext := sample.ifindex.toUInt64
  observedAt
  expiresAt := observedAt + lifetime

def answerYields (name : List UInt8) (answer : DnsAnswer) : Option DomainObservation :=
  (domainFromBuffer name).map fun domain =>
    observation sample observedAt domain (.v4 (ipv4FromAbi answer.address)) .dns
      (clampDnsTtl answer.ttlSecs)

def directYields (evidence : DomainEvidence) (payload : List UInt8) : List DomainObservation :=
  ((directName evidence payload).map fun domain =>
    observation sample observedAt domain (.v4 (ipv4FromAbi sample.address)) evidence
      directEvidenceTtl).toList

def kindYields (payload : List UInt8) : SampleKind → List DomainObservation
  | .dns =>
    let offset := if sample.transport = TransportProtocol.tcp.toU8 then 2 else 0
    if payload.length ≤ offset then []
    else (parseDnsResponse (memoryCursor payload) payload.length offset).filterMap fun (name, answer) =>
      answerYields sample observedAt name answer
  | .tlsClientHello => directYields sample observedAt .tlsSni payload
  | .httpRequest => directYields sample observedAt .httpHost payload

/-- All observations that a sample is good for. -/
def yields : List DomainObservation :=
  (samplePayload sample).elim [] fun (kind, payload) => kindYields sample observedAt payload kind

end Yields

/-- When a sample was observed, by a clock that is anchored now if it was not before. -/
def sampleTime (sample : DomainSample) (clock : MonoClock) (now : Instant) : Instant :=
  (clock.anchorIfNeeded sample.observedMonoNs now).toInstant now sample.observedMonoNs

def dedupeKey (o : DomainObservation) : DomainDedupeKey :=
  ⟨o.domain, o.address, o.evidence, o.clientContext⟩

/-- Appends an observation, unless one with its key has been given that has not expired. -/
def offer (now : Instant) (progress : DomainDecoder × List DomainObservation) (o : DomainObservation) :
    DomainDecoder × List DomainObservation :=
  if (AList.lookup (dedupeKey o) progress.1.dedupe).any fun existingExpiry => now < existingExpiry then
    progress
  else (⟨progress.1.dedupe.insert (dedupeKey o) o.expiresAt⟩, progress.2 ++ [o])

section Decode

variable {sample : DomainSample} {now : Instant}

theorem offer_observation (observedAt : Instant) (domain : String) (address : IpAddr)
    (evidence : DomainEvidence) (lifetime : Duration)
    (progress : DomainDecoder × List DomainObservation) :
    offer now progress (observation sample observedAt domain address evidence lifetime) =
      push domain address sample.ifindex evidence observedAt (observedAt + lifetime) now progress := rfl

theorem decodeDirect_eq (evidence : DomainEvidence) (payload : List UInt8) (observedAt : Instant)
    (progress : DomainDecoder × List DomainObservation) :
    decodeDirect sample now evidence payload observedAt progress =
      (directYields sample observedAt evidence payload).foldl (offer now) progress := by
  unfold decodeDirect directYields
  cases directName evidence payload with
  | none => rfl
  | some domain => exact (offer_observation ..).symm

theorem decodeDns_eq (payload : List UInt8) (observedAt : Instant)
    (progress : DomainDecoder × List DomainObservation) :
    decodeDns sample now payload observedAt progress =
      (kindYields sample observedAt payload .dns).foldl (offer now) progress := by
  unfold decodeDns kindYields
  generalize (if sample.transport = TransportProtocol.tcp.toU8 then 2 else 0) = offset
  simp only
  split
  · rfl
  · rw [List.foldl_filterMap]
    congr
    funext progress answer
    unfold answerYields
    cases domainFromBuffer answer.1 with
    | none => rfl
    | some domain => exact (offer_observation ..).symm

/-- A decoder offers what a sample yields. -/
theorem decode_eq (clock : MonoClock) (progress : DomainDecoder × List DomainObservation) :
    (decode sample now clock progress).2 =
      (yields sample (sampleTime sample clock now)).foldl (offer now) progress := by
  unfold decode yields sampleTime
  cases samplePayload sample with
  | none => rfl
  | some parsed =>
    obtain ⟨kind, payload⟩ := parsed
    cases kind with
    | dns => exact decodeDns_eq ..
    | tlsClientHello => exact decodeDirect_eq ..
    | httpRequest => exact decodeDirect_eq ..

end Decode

/-! ## Runs -/

/-- A sample is decoded with whatever anchor the clock has by then, for the tracker sets it too. -/
inductive Event
  | decode (sample : DomainSample) (clock : MonoClock) (now : Instant)
  | purgeExpired (now : Instant)

def Event.time : Event → Instant
  | decode _ _ now => now
  | purgeExpired now => now

def Event.isDecode : Event → Bool
  | decode .. => true
  | purgeExpired _ => false

/-- A decoder, and everything that it has emitted so far, with the times. -/
structure Run where
  decoder : DomainDecoder := {}
  emitted : List (Instant × DomainObservation) := []

def Run.next (s : Run) : Event → Run
  | .decode sample clock now =>
    let (decoder, observations) := (DomainDecoder.decode sample now clock (s.decoder, [])).2
    ⟨decoder, s.emitted ++ observations.map fun o => (now, o)⟩
  | .purgeExpired now => { s with decoder := s.decoder.purgeExpired now }

def run (events : List Event) : Run := events.foldl Run.next {}

end DomainDecoder

end ZimaScope
