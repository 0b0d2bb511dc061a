import ZimaScope.Collector.NormalDomain
import ZimaScope.Collector.Suppression
import ZimaScope.Ebpf.Bounds

/-! # Emitted observations

Decoding once more, with everything in it that could panic: slices, stores to the domain
buffer and sums of times. While the times are ones that a clock reads it does not, and
whatever it emits is a normalized domain with a bounded lifetime.
-/

namespace ZimaScope

namespace DomainDecoder

/-! ## What could panic -/

namespace Checked

/-- `&bytes[..length]`. -/
def slice (bytes : List UInt8) (length : ℕ) : Option (List UInt8) := do
  guard (length ≤ bytes.length)
  return bytes.take length

/-- `Instant + Duration`; like those of the wall clock, the seconds are a signed 64-bit number. -/
def addInstant (t : Instant) (d : Duration) : Option Instant := SystemTime.checkedAdd t d

/-- `Ord::clamp` asserts that the bounds are in order. -/
def clamp (d low high : Duration) : Option Duration := do
  guard (low ≤ high)
  return max low (min high d)

def toInstant (clock : MonoClock) (current : Instant) (monoNs : ℕ) : Instant :=
  match clock.anchor with
  | none => current
  | some (baseNs, base) =>
    if baseNs ≤ monoNs then (SystemTime.checkedAdd base (monoNs - baseNs)).getD base
    else (SystemTime.checkedSub base (baseNs - monoNs)).getD base

/-- A parser panics when it stores past the end of the domain buffer. -/
def parse {α : Type} (parser : Tracked.Parser α) (payload : List UInt8) : Option (Option α) := do
  guard (∀ access ∈ parser.asked (memoryCursor payload).answer, ∀ i ∈ access.writes, i < domainMaxLen)
  return parser.run (memoryCursor payload).answer

def domainFromBuffer (name : List UInt8) : Option (Option String) :=
  if name = [] ∨ domainMaxLen < name.length then some none
  else do
    let buffer := name ++ List.replicate (domainMaxLen - name.length) 0
    let raw ← slice buffer name.length
    return (String.fromUTF8? ⟨raw.toArray⟩).bind normalizeDomain

section Decode

variable (sample : DomainSample) (now : Instant)

def decodeDirect (evidence : DomainEvidence) (parser : Tracked.Parser (List UInt8))
    (payload : List UInt8) (observedAt : Instant) (progress : DomainDecoder × List DomainObservation) :
    Option (DomainDecoder × List DomainObservation) := do
  match ← parse parser payload with
  | none => return progress
  | some name =>
    match ← domainFromBuffer name with
    | none => return progress
    | some domain =>
      let expiresAt ← addInstant observedAt directEvidenceTtl
      return push domain (.v4 (ipv4FromAbi sample.address)) sample.ifindex evidence observedAt expiresAt
        now progress

def decodeAnswer (observedAt : Instant) (progress : DomainDecoder × List DomainObservation)
    (name : List UInt8) (answer : DnsAnswer) : Option (DomainDecoder × List DomainObservation) := do
  match ← domainFromBuffer name with
  | none => return progress
  | some domain =>
    let ttl ← clamp (fromSecs answer.ttlSecs.toNat) minDnsTtl maxDnsTtl
    let expiresAt ← addInstant observedAt ttl
    return push domain (.v4 (ipv4FromAbi answer.address)) sample.ifindex .dns observedAt expiresAt now
      progress

def decodeDns (payload : List UInt8) (observedAt : Instant)
    (progress : DomainDecoder × List DomainObservation) :
    Option (DomainDecoder × List DomainObservation) := do
  let offset := if sample.transport = TransportProtocol.tcp.toU8 then 2 else 0
  if payload.length ≤ offset then return progress
  else
    let answers ← parse (Tracked.parseDnsResponse payload.length offset) payload
    (answers.getD []).foldlM (fun progress (name, answer) =>
      decodeAnswer sample now observedAt progress name answer) progress

/-- The kind of a sample that is parsed, and the length of its payload. -/
def sampleLength : Option (SampleKind × ℕ) := do
  guard (sample.ipFamily = IpFamily.v4.toU8)
  let _ ← Direction.fromAbi sample.direction
  let _ ← TransportProtocol.fromAbi sample.transport
  let kind ← SampleKind.fromAbi sample.kind
  let length := sample.payloadLen.toNat
  guard (length ≠ 0 ∧ length ≤ domainSampleMax)
  return (kind, length)

def decode (clock : MonoClock) (progress : DomainDecoder × List DomainObservation) :
    Option (MonoClock × (DomainDecoder × List DomainObservation)) :=
  match sampleLength sample with
  | none => some (clock, progress)
  | some (kind, length) => do
    let payload ← slice sample.payload.toList length
    let clock := clock.anchorIfNeeded sample.observedMonoNs now
    let observedAt := toInstant clock now sample.observedMonoNs
    let progress ← match kind with
      | .dns => decodeDns sample now payload observedAt progress
      | .tlsClientHello =>
        decodeDirect sample now .tlsSni (Tracked.extractTlsSni 0 payload.length) payload observedAt
          progress
      | .httpRequest =>
        decodeDirect sample now .httpHost (Tracked.extractHttpHost 0 payload.length) payload observedAt
          progress
    return (clock, progress)

end Decode

/-! ## What does not -/

section Parse

variable {α : Type} {parser : Tracked.Parser α} {payload : List UInt8} {cursor : PacketCursor}
  {offset stop : ℕ}

/-- Every store of a parser lies within the domain buffer. -/
def StoresInside (cursor : PacketCursor) (parser : Tracked.Parser α) : Prop :=
  Inquiry.Asks cursor.answer (fun access => ∀ i ∈ access.writes, i < domainMaxLen) parser

theorem storesInside_of_staysInside {R : α → Prop} (h : Tracked.StaysInside cursor offset stop R parser) :
    StoresInside cursor parser := fun access haccess => (h.asks access haccess).1.2

theorem parse_eq (h : StoresInside (memoryCursor payload) parser) :
    parse parser payload = some (parser.run (memoryCursor payload).answer) := by
  unfold parse
  exact guard_bind_eq_some.mpr ⟨h, rfl⟩

/-- The lengths in a ClientHello are read, nothing is stored. -/
theorem storesInside_readHelloBody {p : ℕ} : StoresInside cursor (Tracked.readHelloBody stop p) := by
  simp [StoresInside, Tracked.readHelloBody, Inquiry.asks_bind, Inquiry.asks_guard, Tracked.readU8,
    Tracked.readU16Be, Access.writes]

theorem storesInside_extractTlsSni : StoresInside cursor (Tracked.extractTlsSni offset stop) := by
  unfold StoresInside Tracked.extractTlsSni
  rw [Inquiry.asks_bind]
  refine ⟨storesInside_of_staysInside Tracked.inside_readHelloHead, fun p _ => ?_⟩
  rw [Inquiry.asks_bind]
  refine ⟨storesInside_readHelloBody, fun body _ => ?_⟩
  exact storesInside_of_staysInside (Tracked.inside_readExtensions (Nat.zero_le body.1) le_rfl)

end Parse

theorem domainFromBuffer_eq (name : List UInt8) :
    domainFromBuffer name = some (DomainDecoder.domainFromBuffer name) := by
  unfold domainFromBuffer DomainDecoder.domainFromBuffer
  split
  · next hbad =>
    have hguard : ¬ (name ≠ [] ∧ name.length ≤ domainMaxLen) := by
      rintro ⟨hne, hle⟩
      rcases hbad with hnil | hlong
      · exact hne hnil
      · omega
    simp [guard, hguard]
  · next hgood =>
    rw [not_or, not_lt] at hgood
    have hslice : slice (name ++ List.replicate (domainMaxLen - name.length) 0) name.length =
        some name := by
      unfold slice
      refine guard_bind_eq_some.mpr ⟨by simp, ?_⟩
      rw [List.take_left]
      rfl
    simp [guard, hgood, hslice]

section Decode

variable {sample : DomainSample} {now : Instant} {payload : List UInt8} {observedAt : Instant}

theorem decodeDirect_eq {evidence : DomainEvidence} {parser : Tracked.Parser (List UInt8)}
    {name : Option (List UInt8)} (hparse : parse parser payload = some name)
    (hname : directName evidence payload = name.bind DomainDecoder.domainFromBuffer)
    (hroom : addInstant observedAt directEvidenceTtl = some (observedAt + directEvidenceTtl))
    (progress : DomainDecoder × List DomainObservation) :
    decodeDirect sample now evidence parser payload observedAt progress =
      some (DomainDecoder.decodeDirect sample now evidence payload observedAt progress) := by
  unfold decodeDirect DomainDecoder.decodeDirect
  rw [hparse, hname]
  cases name with
  | none => rfl
  | some name =>
    simp only [Option.bind_eq_bind, Option.bind_some, domainFromBuffer_eq]
    cases DomainDecoder.domainFromBuffer name with
    | none => rfl
    | some domain =>
      simp only [hroom, Option.bind_some]
      rfl

theorem clamp_eq (ttlSecs : UInt32) :
    clamp (fromSecs ttlSecs.toNat) minDnsTtl maxDnsTtl = some (clampDnsTtl ttlSecs) := by
  unfold clamp
  exact guard_bind_eq_some.mpr ⟨by decide, rfl⟩

theorem clampDnsTtl_bounds (ttlSecs : UInt32) :
    minDnsTtl ≤ clampDnsTtl ttlSecs ∧ clampDnsTtl ttlSecs ≤ maxDnsTtl := by
  have horder : minDnsTtl ≤ maxDnsTtl := by decide
  exact ⟨le_max_left _ _, max_le horder (min_le_left _ _)⟩

theorem decodeAnswer_eq (hroom : ∀ d ≤ maxDnsTtl, addInstant observedAt d = some (observedAt + d))
    (progress : DomainDecoder × List DomainObservation) (name : List UInt8) (answer : DnsAnswer) :
    decodeAnswer sample now observedAt progress name answer =
      some (match DomainDecoder.domainFromBuffer name with
        | none => progress
        | some domain => push domain (.v4 (ipv4FromAbi answer.address)) sample.ifindex .dns observedAt
            (observedAt + clampDnsTtl answer.ttlSecs) now progress) := by
  unfold decodeAnswer
  rw [domainFromBuffer_eq]
  cases DomainDecoder.domainFromBuffer name with
  | none => rfl
  | some domain =>
    simp only [Option.bind_eq_bind, Option.bind_some, clamp_eq, hroom _ (clampDnsTtl_bounds _).2]
    rfl

theorem decodeDns_eq (hroom : ∀ d ≤ maxDnsTtl, addInstant observedAt d = some (observedAt + d))
    (progress : DomainDecoder × List DomainObservation) :
    decodeDns sample now payload observedAt progress =
      some (DomainDecoder.decodeDns sample now payload observedAt progress) := by
  unfold decodeDns DomainDecoder.decodeDns
  generalize (if sample.transport = TransportProtocol.tcp.toU8 then 2 else 0) = offset
  simp only
  split
  · rfl
  · rw [parse_eq (storesInside_of_staysInside Tracked.inside_parseDnsResponse)]
    simp only [Option.bind_eq_bind, Option.bind_some, Tracked.run_parseDnsResponse]
    generalize parseDnsResponse (memoryCursor payload) payload.length offset = answers
    induction answers generalizing progress with
    | nil => rfl
    | cons answer answers ih =>
      rw [List.foldlM_cons, List.foldl_cons, decodeAnswer_eq hroom]
      exact ih _

end Decode

/-! ## Times -/

/-- What the monotonic clock reads: nanoseconds, as the kernel counts them in 64 bits. -/
def Reading (t : Instant) : Prop := 0 ≤ t ∧ t < 2 ^ 64

theorem representable_of_lt {t : ℤ} (hlow : -2 ^ 64 ≤ t) (hhigh : t < 2 ^ 67) :
    SystemTime.Representable t := by
  constructor
  · change (-(2 ^ 63) * 1000000000 : ℤ) ≤ t
    omega
  · change t < (2 ^ 63 * 1000000000 : ℤ)
    omega

/-- What is some nanoseconds of 64 bits before or after a reading. -/
theorem representable_shift {base : ℤ} {ns : ℕ} (hbase : 0 ≤ base ∧ base < 2 ^ 64) (hns : ns < 2 ^ 64) :
    SystemTime.Representable (base + ns) ∧ SystemTime.Representable (base - ns) := by
  constructor <;> apply representable_of_lt <;> omega

/-- A point of time that the clock can give leaves room for the longest lifetime. -/
theorem representable_lifetime {base : ℤ} {later earlier d : ℕ} (hbase : 0 ≤ base ∧ base < 2 ^ 64)
    (hlater : later < 2 ^ 64) (hearlier : earlier < 2 ^ 64) (hd : d ≤ 3600000000000) :
    SystemTime.Representable ((if earlier ≤ later then base + (later - earlier : ℕ)
      else base - (earlier - later : ℕ)) + d) := by
  apply representable_of_lt <;> split <;> omega

/-- Between two readings the clock is exact. -/
theorem toInstant_eq {clock : MonoClock} {current : Instant} {monoNs : ℕ} (hmono : monoNs < 2 ^ 64)
    (hanchor : ∀ baseNs base, clock.anchor = some (baseNs, base) → baseNs < 2 ^ 64 ∧ Reading base) :
    toInstant clock current monoNs = clock.toInstant current monoNs := by
  unfold toInstant MonoClock.toInstant
  cases hclock : clock.anchor with
  | none => rfl
  | some anchor =>
    obtain ⟨baseNs, base⟩ := anchor
    obtain ⟨hbaseNs, hbase⟩ := hanchor baseNs base hclock
    simp only
    split
    · have hfits := (representable_shift hbase (show monoNs - baseNs < 2 ^ 64 by omega)).1
      exact congrArg (Option.getD · base) (if_pos hfits)
    · have hfits := (representable_shift hbase (show baseNs - monoNs < 2 ^ 64 by omega)).2
      exact congrArg (Option.getD · base) (if_pos hfits)

/-- The times of a call are readings of the clock, on either side of the kernel. -/
structure Readable (sample : DomainSample) (clock : MonoClock) (now : Instant) : Prop where
  observed : sample.observedMonoNs < 2 ^ 64
  now : Reading now
  anchor : ∀ baseNs base, clock.anchor = some (baseNs, base) → baseNs < 2 ^ 64 ∧ Reading base

section Readable

variable {sample : DomainSample} {clock : MonoClock} {now : Instant}

theorem Readable.anchored (h : Readable sample clock now) (baseNs : ℕ) (base : Instant)
    (hanchor : (clock.anchorIfNeeded sample.observedMonoNs now).anchor = some (baseNs, base)) :
    baseNs < 2 ^ 64 ∧ Reading base := by
  unfold MonoClock.anchorIfNeeded at hanchor
  cases hclock : clock.anchor with
  | none =>
    rw [hclock] at hanchor
    obtain ⟨rfl, rfl⟩ := Prod.mk.inj (Option.some.inj hanchor)
    exact ⟨h.observed, h.now⟩
  | some anchor =>
    rw [hclock] at hanchor
    exact h.anchor baseNs base hanchor

/-- The time of a sample leaves room for every lifetime. -/
theorem Readable.room (h : Readable sample clock now) {d : ℕ} (hd : d ≤ maxDnsTtl) :
    addInstant (sampleTime sample clock now) d = some (sampleTime sample clock now + d) := by
  have hmax : d ≤ 3600000000000 := hd
  apply if_pos
  unfold sampleTime MonoClock.toInstant
  cases hclock : (clock.anchorIfNeeded sample.observedMonoNs now).anchor with
  | none => exact (representable_shift h.now (by omega)).1
  | some anchor =>
    obtain ⟨baseNs, base⟩ := anchor
    obtain ⟨hbaseNs, hbase⟩ := h.anchored baseNs base hclock
    exact representable_lifetime hbase h.observed hbaseNs hmax

theorem samplePayload_eq (sample : DomainSample) : samplePayload sample =
    (sampleLength sample).map fun (kind, length) => (kind, sample.payload.toList.take length) := by
  unfold samplePayload sampleLength
  simp only [Option.bind_eq_bind, Option.map_bind, Function.comp_def]
  rfl

theorem length_of_sampleLength {kind : SampleKind} {length : ℕ}
    (h : sampleLength sample = some (kind, length)) : length ≤ domainSampleMax := by
  unfold sampleLength at h
  simp only [Option.bind_eq_bind, Option.bind_eq_some_iff, Option.guard_eq_some', exists_const,
    Option.pure_def, Option.some.injEq, Prod.mk.injEq] at h
  obtain ⟨-, -, -, -, -, parsed, -, ⟨-, hle⟩, -, rfl⟩ := h
  exact hle

/-- Decoding does not panic, and does what it does without the checks. -/
theorem decode_eq (h : Readable sample clock now) (progress : DomainDecoder × List DomainObservation) :
    decode sample now clock progress = some (DomainDecoder.decode sample now clock progress) := by
  unfold decode DomainDecoder.decode
  rw [samplePayload_eq]
  cases hlength : sampleLength sample with
  | none => rfl
  | some parsed =>
    obtain ⟨kind, length⟩ := parsed
    have hslice : slice sample.payload.toList length = some (sample.payload.toList.take length) := by
      refine guard_bind_eq_some.mpr ⟨?_, rfl⟩
      rw [Vector.length_toList]
      exact length_of_sampleLength hlength
    have hroom : ∀ d ≤ maxDnsTtl, addInstant (sampleTime sample clock now) d =
        some (sampleTime sample clock now + d) := fun d hd => h.room hd
    have htime : toInstant (clock.anchorIfNeeded sample.observedMonoNs now) now sample.observedMonoNs =
        sampleTime sample clock now := toInstant_eq h.observed h.anchored
    simp only [hslice, htime, Option.map_some, Option.bind_eq_bind, Option.bind_some]
    generalize sample.payload.toList.take length = payload
    cases kind with
    | dns =>
      simp only [decodeDns_eq hroom, Option.bind_some]
      rfl
    | tlsClientHello =>
      have hparse : parse (Tracked.extractTlsSni 0 payload.length) payload =
          some (extractTlsSni (memoryCursor payload) 0 payload.length) := by
        rw [parse_eq storesInside_extractTlsSni, Tracked.run_extractTlsSni]
      have hdirect : decodeDirect sample now .tlsSni _ payload (sampleTime sample clock now)
          progress = _ := decodeDirect_eq hparse rfl (hroom _ (by decide)) progress
      simp only [hdirect, Option.bind_some]
      rfl
    | httpRequest =>
      have hparse : parse (Tracked.extractHttpHost 0 payload.length) payload =
          some (extractHttpHost (memoryCursor payload) 0 payload.length) := by
        rw [parse_eq (storesInside_of_staysInside Tracked.inside_extractHttpHost),
          Tracked.run_extractHttpHost]
      have hdirect : decodeDirect sample now .httpHost _ payload (sampleTime sample clock now)
          progress = _ := decodeDirect_eq hparse rfl (hroom _ (by decide)) progress
      simp only [hdirect, Option.bind_some]
      rfl

end Readable

end Checked

/-! ## Lifetimes -/

/-- A normalized domain with a lifetime within the bounds for its evidence. -/
structure Bounded (o : DomainObservation) : Prop where
  domain : NormalDomain o.domain
  dns : o.evidence = .dns →
    o.observedAt + fromSecs 10 ≤ o.expiresAt ∧ o.expiresAt ≤ o.observedAt + fromSecs 3600
  direct : o.evidence ≠ .dns → o.expiresAt = o.observedAt + fromSecs 300

section Yields

variable {sample : DomainSample} {observedAt : Instant} {o : DomainObservation}

theorem normalDomain_of_buffer {name : List UInt8} {domain : String}
    (h : domainFromBuffer name = some domain) : NormalDomain domain := by
  unfold domainFromBuffer at h
  rw [guard_bind_eq_some] at h
  obtain ⟨raw, -, hdomain⟩ := Option.bind_eq_some_iff.mp h.2
  exact normalDomain_of_normalize hdomain

theorem bounded_of_mem_directYields {evidence : DomainEvidence} {payload : List UInt8}
    (h : o ∈ directYields sample observedAt evidence payload) : Bounded o := by
  unfold directYields at h
  rw [Option.mem_toList, Option.map_eq_some_iff] at h
  obtain ⟨domain, hname, rfl⟩ := h
  have hnormal : NormalDomain domain ∧ evidence ≠ .dns := by
    cases evidence with
    | dns => cases hname
    | tlsSni | httpHost =>
      obtain ⟨name, -, hdomain⟩ := Option.bind_eq_some_iff.mp hname
      exact ⟨normalDomain_of_buffer hdomain, nofun⟩
  exact ⟨hnormal.1, fun hdns => absurd hdns hnormal.2, fun _ => rfl⟩

theorem bounded_of_answerYields {name : List UInt8} {answer : DnsAnswer}
    (h : answerYields sample observedAt name answer = some o) : Bounded o := by
  obtain ⟨domain, hdomain, rfl⟩ := Option.map_eq_some_iff.mp h
  obtain ⟨hmin, hmax⟩ := Checked.clampDnsTtl_bounds answer.ttlSecs
  refine ⟨normalDomain_of_buffer hdomain, fun _ => ⟨?_, ?_⟩, fun hne => absurd rfl hne⟩
  · exact Int.add_le_add_left (Int.ofNat_le.mpr hmin) observedAt
  · exact Int.add_le_add_left (Int.ofNat_le.mpr hmax) observedAt

theorem bounded_of_mem_yields (h : o ∈ yields sample observedAt) : Bounded o := by
  unfold yields at h
  cases hpayload : samplePayload sample with
  | none => simp [hpayload] at h
  | some parsed =>
    obtain ⟨kind, payload⟩ := parsed
    rw [hpayload, Option.elim_some] at h
    cases kind with
    | dns =>
      unfold kindYields at h
      generalize (if sample.transport = TransportProtocol.tcp.toU8 then 2 else 0) = offset at h
      simp only at h
      split at h
      · simp at h
      · obtain ⟨answer, -, hanswer⟩ := List.mem_filterMap.mp h
        exact bounded_of_answerYields hanswer
    | tlsClientHello => exact bounded_of_mem_directYields h
    | httpRequest => exact bounded_of_mem_directYields h

theorem mem_foldl_offer {now : Instant} {observations : List DomainObservation}
    {progress : DomainDecoder × List DomainObservation}
    (h : o ∈ (observations.foldl (offer now) progress).2) : o ∈ progress.2 ∨ o ∈ observations := by
  induction observations generalizing progress with
  | nil => exact Or.inl h
  | cons first observations ih =>
    rcases ih h with h | h
    · unfold offer at h
      split at h
      · exact Or.inl h
      · rcases List.mem_append.mp h with h | h
        · exact Or.inl h
        · exact Or.inr (List.mem_singleton.mp h ▸ List.mem_cons_self)
    · exact Or.inr (List.mem_cons_of_mem _ h)

end Yields

/-! ## Runs -/

def Event.Readable : Event → Prop
  | decode sample clock now => Checked.Readable sample clock now
  | purgeExpired _ => True

def Run.tryNext (s : Run) : Event → Option Run
  | .decode sample clock now => do
    let (_, decoder, observations) ← Checked.decode sample now clock (s.decoder, [])
    return ⟨decoder, s.emitted ++ observations.map fun o => (now, o)⟩
  | .purgeExpired now => return { s with decoder := s.decoder.purgeExpired now }

/-- A run; `none` when a call panics. -/
def tryRun (events : List Event) : Option Run := events.foldlM Run.tryNext {}

theorem tryRun_eq {events : List Event} (h : ∀ event ∈ events, event.Readable) :
    tryRun events = some (run events) := by
  have hloop : ∀ s : Run, events.foldlM Run.tryNext s = some (events.foldl Run.next s) := by
    induction events with
    | nil => exact fun _ => rfl
    | cons event events ih =>
      intro s
      have hnext : s.tryNext event = some (s.next event) := by
        cases event with
        | decode sample clock now =>
          have hread : Checked.Readable sample clock now := h _ List.mem_cons_self
          simp only [Run.tryNext, Checked.decode_eq hread]
          rfl
        | purgeExpired now => rfl
      rw [List.foldlM_cons, hnext]
      exact ih (fun event hevent => h event (List.mem_cons_of_mem _ hevent)) _
  exact hloop {}

theorem bounded_run (events : List Event) : ∀ a ∈ (run events).emitted, Bounded a.2 := by
  have hloop : ∀ s : Run, (∀ a ∈ s.emitted, Bounded a.2) →
      ∀ a ∈ (events.foldl Run.next s).emitted, Bounded a.2 := by
    induction events with
    | nil => exact fun _ h => h
    | cons event events ih =>
      intro s h
      apply ih
      cases event with
      | decode sample clock now =>
        intro a ha
        rcases List.mem_append.mp ha with ha | ha
        · exact h a ha
        · obtain ⟨o, ho, rfl⟩ := List.mem_map.mp ha
          have hoffered := congrArg Prod.snd (@decode_eq sample now clock (s.decoder, []))
          rcases mem_foldl_offer (hoffered ▸ ho) with ho | ho
          · simp at ho
          · exact bounded_of_mem_yields ho
      | purgeExpired now => exact h
  exact hloop {} (by simp)

/-- No run of calls at times that a clock reads panics, and whatever is emitted in it is a normalized
domain with a bounded lifetime. -/
theorem emissions_bounded {events : List Event} (h : ∀ event ∈ events, event.Readable) :
    ∃ s, tryRun events = some s ∧ ∀ a ∈ s.emitted, Bounded a.2 :=
  ⟨run events, tryRun_eq h, bounded_run events⟩

theorem repeatedRequest_readable : ∀ event ∈ repeatedRequest, event.Readable := by
  have hobserved : (httpSample "GET").map (·.observedMonoNs) = some 1000 := by decide +kernel
  obtain ⟨sample, hsample, hmono⟩ := Option.map_eq_some_iff.mp hobserved
  have hread {now : Instant} (hnow : Checked.Reading now) : Checked.Readable sample {} now :=
    ⟨by rw [hmono]; decide, hnow, nofun⟩
  intro event hevent
  simp only [repeatedRequest, hsample, Option.toList_some, List.flatMap_singleton, List.mem_cons,
    List.not_mem_nil, or_false] at hevent
  rcases hevent with rfl | rfl | rfl
  · exact hread ⟨by decide, by decide⟩
  · trivial
  · exact hread ⟨by decide, by decide⟩

theorem emissions_bounded_repeated : ∃ s, tryRun repeatedRequest = some s ∧
    ∀ a ∈ s.emitted, Bounded a.2 := emissions_bounded repeatedRequest_readable

end DomainDecoder

end ZimaScope
