import ZimaScope.Collector.Domain
import ZimaScope.Db.Timeliness

/-! # Direct evidence

From the packets that are sampled to the rows: what a sample names is stored for the
address and interface it was captured at, and every row there is given it. Beside the
state, a list keeps every sample with the key of its packet.
-/

namespace ZimaScope

open TrafficDb Storage DomainDecoder

/-- A sample, and the key of the packet it was copied from. -/
structure Capture where
  key : AbiFlowKey
  sample : DomainSample

/-- What the packet path captures of a packet. -/
def capturePacket (flow : ParsedFlow) (direction : UInt8) (ifindex : UInt32) (observedMonoNs : ℕ)
    (payload : PacketPayload) : Option Capture :=
  (sampleDomains flow direction ifindex observedMonoNs payload).map fun sample =>
    ⟨flowKey flow direction ifindex, sample⟩

namespace Capture

variable (c : Capture)

/-- The name that a TLS or HTTP sample carries, as it is stored. -/
def name : Option String := do
  let (kind, payload) ← samplePayload c.sample
  let domain ← match kind with
    | .dns => none
    | .tlsClientHello => directName .tlsSni payload
    | .httpRequest => directName .httpHost payload
  return normalizeDomain domain

/-- The peer of the packet. -/
def address : IpAddr := .v4 (ipv4FromAbi c.sample.address)

/-- The sample counts for this address and interface. -/
def At (place : IpAddr × ℤ) : Prop :=
  c.address = place.1 ∧ ((c.sample.ifindex.toNat : ℤ) = place.2 ∨ (c.sample.ifindex.toNat : ℤ) = 0)

/-- The flow's own packet was captured, with this name. -/
def Carries (key : FlowKey) (domain : String) : Prop :=
  decodeKey c.key = some key ∧ c.name = some domain

end Capture

/-- The packet path, the collector and the database. -/
structure Pipeline where
  ring : List DomainSample := []
  decoder : DomainDecoder := {}
  db : TrafficDb := {}
  /-- Every sample so far. -/
  captured : List Capture := []
  /-- Every observation of the decoder so far. -/
  emitted : List DomainObservation := []

inductive PipelineEvent
  | packet (flow : ParsedFlow) (direction : UInt8) (ifindex : UInt32) (observedMonoNs : ℕ)
      (payload : PacketPayload)
  | poll (clock : MonoClock) (now : Instant)
  | ingest (input : IngestInput) (faults : List (Option String))
  | saveSettings (settings : Settings) (nowInstant : Instant) (now : SystemTime)
      (faults : List (Option String))
  | restart (flowCapacity : ℕ)

/-- The samples of the ring, decoded one after the other. -/
def drainDomainEvents (now : Instant) (clock : MonoClock) (ring : List DomainSample)
    (decoder : DomainDecoder) : DomainDecoder × List DomainObservation :=
  (ring.foldl (fun (clock, progress) sample => decode sample now clock progress)
    (clock, (decoder, []))).2

section Pipeline

variable (flowId : FlowKey → UInt64)

def Pipeline.next (s : Pipeline) : PipelineEvent → Pipeline
  | .packet flow direction ifindex observedMonoNs payload =>
    match capturePacket flow direction ifindex observedMonoNs payload with
    | none => s
    | some c => { s with ring := s.ring ++ [c.sample], captured := s.captured ++ [c] }
  | .poll clock now =>
    let (decoder, observations) := drainDomainEvents now clock s.ring s.decoder
    { s with ring := [], decoder := decoder.purgeExpired now, emitted := s.emitted ++ observations }
  | .ingest input faults => { s with db := (tryIngest flowId input ⟨s.db, faults⟩).2.store }
  | .saveSettings settings nowInstant now faults =>
    { s with db := (saveSettings settings nowInstant now ⟨s.db, faults⟩).2.store }
  | .restart flowCapacity =>
    { s with ring := [], decoder := {}, db := TrafficDb.restart s.db.tables flowCapacity }

/-- Batches observe what the decoder has emitted. -/
def Pipeline.Possible (s : Pipeline) : PipelineEvent → Prop
  | .ingest input _ => ∀ o ∈ input.batch.domains, o ∈ s.emitted
  | _ => True

/-- The runs of events that meet a condition, from an empty database. -/
def pipelines (cond : Pipeline → PipelineEvent → Prop) : System Pipeline where
  init s := s.ring = [] ∧ s.db.tables = {} ∧ s.captured = [] ∧ s.emitted = []
  step s s' := ∃ event, s.Possible event ∧ cond s event ∧ s' = s.next flowId event

/-- Every direct association of a row is of a name that a packet of its own flow carried. -/
def DirectOwn (captured : List Capture) (t : Tables) : Prop :=
  ∀ id row, t.flows.find id = some row → ∀ d ∈ row.domainsJson, d.confidence = .direct →
    ∃ c ∈ captured, c.Carries row.key d.domain

/-- Of the names captured at an address, the ones that have direct evidence and come first there
are names of this row's own flow. -/
def CarriesAll (captured : List Capture) (candidates : List Candidate) (key : FlowKey)
    (place : IpAddr × ℤ) : Prop :=
  ∀ other ∈ captured, other.At place → ∀ domain, other.name = some domain →
    (∃ c ∈ candidates, c.1.domain = domain ∧ c.2.confidence = .direct ∧ Leading candidates c) →
      ∃ own ∈ captured, own.Carries key domain

/-- The flow of each row that an ingest rewrites carries all the names of its address. -/
def Unshared (s : Pipeline) : PipelineEvent → Prop
  | .ingest input faults =>
    (∃ recorded c, record input flowId (attached input s.db.interfaces) ⟨attachedDb input s.db, faults⟩ =
        (.ok recorded, c)) →
      ∀ id row place, (expected input flowId s.db).flows.find id = some row →
        rewriteAddress input flowId id (s.db.tables.flows.find id) = some place →
          CarriesAll s.captured
            ((observeAll input s.db.tables).candidates place.1 place.2 input.nowSystem) row.key place
  | _ => True

end Pipeline

/-! ## Provenance -/

section Decode

variable {c : Capture} {o : DomainObservation} {now : Instant} {clock : MonoClock}
  {progress : DomainDecoder × List DomainObservation} {captured : List Capture}

/-- The observation says what the sample names, where it was captured. -/
structure Capture.Yields (c : Capture) (o : DomainObservation) : Prop where
  address : o.address = c.address
  ifindex : o.ifindex = c.sample.ifindex
  name : c.name = some (normalizeDomain o.domain)

theorem mem_push {domain : String} {address : IpAddr} {ifindex : UInt32} {evidence : DomainEvidence}
    {observedAt expiresAt : Instant}
    (h : o ∈ (push domain address ifindex evidence observedAt expiresAt now progress).2) :
    o ∈ progress.2 ∨ o.domain = domain ∧ o.address = address ∧ o.ifindex = ifindex ∧
      o.confidence = confidenceFor evidence := by
  unfold push at h
  simp only at h
  split at h
  · exact Or.inl h
  · rcases List.mem_append.mp h with h | h
    · exact Or.inl h
    · right
      obtain rfl := List.mem_singleton.mp h
      exact ⟨rfl, rfl, by simp [DomainObservation.ifindex], rfl⟩

/-- DNS answers are inferred. -/
theorem mem_decodeDns {sample : DomainSample} {payload : List UInt8} {observedAt : Instant}
    (h : o ∈ (decodeDns sample now payload observedAt progress).2) (hdirect : o.confidence = .direct) :
    o ∈ progress.2 := by
  unfold decodeDns at h
  generalize (if sample.transport = TransportProtocol.tcp.toU8 then 2 else 0) = offset at h
  simp only at h
  split at h
  · exact h
  · generalize parseDnsResponse (memoryCursor payload) payload.length _ = answers at h
    induction answers generalizing progress with
    | nil => exact h
    | cons answer answers ih =>
      rw [List.foldl_cons] at h
      have hrest := ih h
      split at hrest
      · exact hrest
      · rcases mem_push hrest with hmem | ⟨-, -, -, hconfidence⟩
        · exact hmem
        · rw [hconfidence] at hdirect
          simp [confidenceFor] at hdirect

/-- What a sample adds that is direct is what it names. -/
theorem mem_decode (h : o ∈ (decode c.sample now clock progress).2.2) (hdirect : o.confidence = .direct) :
    o ∈ progress.2 ∨ c.Yields o := by
  unfold decode at h
  cases hpayload : samplePayload c.sample with
  | none =>
    rw [hpayload] at h
    exact Or.inl h
  | some parsed =>
    obtain ⟨kind, payload⟩ := parsed
    rw [hpayload] at h
    simp only at h
    have hname : ∀ evidence observedAt, (∀ domain, directName evidence payload = some domain →
        c.name = some (normalizeDomain domain)) →
          o ∈ (decodeDirect c.sample now evidence payload observedAt progress).2 →
            o ∈ progress.2 ∨ c.Yields o := by
      intro evidence observedAt hcarries hmem
      unfold decodeDirect at hmem
      split at hmem
      · exact Or.inl hmem
      · next domain hdomain =>
        rcases mem_push hmem with hmem | ⟨rfl, haddress, hifindex, -⟩
        · exact Or.inl hmem
        · exact Or.inr ⟨haddress, hifindex, hcarries _ hdomain⟩
    cases kind with
    | dns => exact Or.inl (mem_decodeDns h hdirect)
    | tlsClientHello =>
      exact hname _ _ (fun domain hdomain => by simp [Capture.name, hpayload, hdomain]) h
    | httpRequest =>
      exact hname _ _ (fun domain hdomain => by simp [Capture.name, hpayload, hdomain]) h

theorem mem_drainDomainEvents {ring : List DomainSample} {decoder : DomainDecoder}
    (hring : ∀ sample ∈ ring, ∃ c ∈ captured, c.sample = sample)
    (h : o ∈ (drainDomainEvents now clock ring decoder).2) (hdirect : o.confidence = .direct) :
    ∃ c ∈ captured, c.Yields o := by
  unfold drainDomainEvents at h
  have hloop : ∀ clock (progress : DomainDecoder × List DomainObservation),
      o ∈ (ring.foldl (fun (clock, progress) sample => decode sample now clock progress)
        (clock, progress)).2.2 → o ∈ progress.2 ∨ ∃ c ∈ captured, c.Yields o := by
    clear h
    induction ring with
    | nil => exact fun _ _ h => Or.inl h
    | cons sample ring ih =>
      intro clock progress h
      rcases ih (fun sample hs => hring sample (List.mem_cons_of_mem _ hs)) _ _ h with h | h
      · obtain ⟨c, hc, rfl⟩ := hring sample List.mem_cons_self
        rcases mem_decode h hdirect with h | h
        · exact Or.inl h
        · exact Or.inr ⟨c, hc, h⟩
      · exact Or.inr h
  rcases hloop _ _ h with h | h
  · simp at h
  · exact h

end Decode

section Stored

variable {captured captured' : List Capture} {t : Tables}

/-- Every direct row of `observations` is of a name captured at its address and interface. -/
def Evidenced (captured : List Capture) (t : Tables) : Prop :=
  ∀ key row, t.observations.find key = some row → row.confidence = .direct →
    ∃ c ∈ captured, c.address = key.address ∧ (c.sample.ifindex.toNat : ℤ) = key.ifindex ∧
      c.name = some key.domain

theorem stable_evidenced : Tables.Stable (Evidenced captured) := Tables.stable_observations

theorem stable_directOwn : Tables.Stable (DirectOwn captured) := Tables.stable_flows

theorem Evidenced.mono (h : Evidenced captured t) (hsub : captured ⊆ captured') :
    Evidenced captured' t := by
  intro key row hrow hdirect
  obtain ⟨c, hc, hevidence⟩ := h key row hrow hdirect
  exact ⟨c, hsub hc, hevidence⟩

/-- Storing an observation keeps evidence, if it has it. -/
theorem Evidenced.storeObservation {c : Candidate} (h : Evidenced captured t)
    (hc : c.2.confidence = .direct → ∃ o ∈ captured, o.address = c.1.address ∧
      (o.sample.ifindex.toNat : ℤ) = c.1.ifindex ∧ o.name = some c.1.domain) :
    Evidenced captured (t.storeObservation c.1 c.2) := by
  intro key row hrow hdirect
  unfold Tables.storeObservation at hrow
  rw [Table.find_upsert] at hrow
  split at hrow
  · next heq =>
    subst heq
    apply hc
    rw [← hdirect, ← Option.some.inj hrow]
    split <;> rfl
  · exact h key row hrow hdirect

theorem Evidenced.observe {observed : List Candidate} (h : Evidenced captured t)
    (hobserved : ∀ c ∈ observed, c.2.confidence = .direct → ∃ o ∈ captured, o.address = c.1.address ∧
      (o.sample.ifindex.toNat : ℤ) = c.1.ifindex ∧ o.name = some c.1.domain) :
    Evidenced captured (t.observe observed) := by
  unfold Tables.observe
  induction observed generalizing t with
  | nil => exact h
  | cons c observed ih =>
    apply ih (h.storeObservation (hobserved c List.mem_cons_self))
    intro c' hc'
    exact hobserved c' (List.mem_cons_of_mem _ hc')

/-- Storing what the decoder emitted keeps evidence. -/
theorem Evidenced.observeAll {input : IngestInput} (h : Evidenced captured t)
    (hdomains : ∀ o ∈ input.batch.domains, o.confidence = .direct → ∃ c ∈ captured, c.Yields o) :
    Evidenced captured (observeAll input t) := by
  apply h.observe
  intro c hc hdirect
  obtain ⟨o, ho, hrow⟩ := List.mem_filterMap.mp hc
  unfold observationRow at hrow
  simp only at hrow
  split at hrow
  · simp at hrow
  · obtain rfl := Option.some.inj hrow
    obtain ⟨capture, hcapture, hyields⟩ := hdomains o ho hdirect
    refine ⟨capture, hcapture, hyields.address.symm, ?_, hyields.name⟩
    rw [hyields.ifindex]

end Stored

/-! ## Runs -/

section Runs

variable {flowId : FlowKey → UInt64} {s : Pipeline} {event : PipelineEvent} {input : IngestInput}
  {faults : List (Option String)}

/-- Every direct observation on its way, and every one that is stored, was captured. -/
structure Provenance (s : Pipeline) : Prop where
  ring : ∀ sample ∈ s.ring, ∃ c ∈ s.captured, c.sample = sample
  emitted : ∀ o ∈ s.emitted, o.confidence = .direct → ∃ c ∈ s.captured, c.Yields o
  stored : Evidenced s.captured s.db.tables

theorem Provenance.observed (h : Provenance s)
    (hpossible : ∀ o ∈ input.batch.domains, o ∈ s.emitted) :
    Evidenced s.captured (observeAll input s.db.tables) := by
  apply h.stored.observeAll
  intro o ho hdirect
  exact h.emitted o (hpossible o ho) hdirect

theorem provenance_next (h : Provenance s) (hpossible : s.Possible event) :
    Provenance (s.next flowId event) := by
  cases event with
  | packet flow direction ifindex observedMonoNs payload =>
    unfold Pipeline.next
    simp only
    split
    · exact h
    · next c _ =>
      have hsub : s.captured ⊆ s.captured ++ [c] := List.subset_append_left _ _
      constructor
      · intro sample hsample
        rcases List.mem_append.mp hsample with hsample | hsample
        · obtain ⟨c', hc', heq⟩ := h.ring sample hsample
          exact ⟨c', hsub hc', heq⟩
        · obtain rfl := List.mem_singleton.mp hsample
          exact ⟨c, List.mem_append_right _ (List.mem_singleton.mpr rfl), rfl⟩
      · intro o ho hdirect
        obtain ⟨c', hc', hyields⟩ := h.emitted o ho hdirect
        exact ⟨c', hsub hc', hyields⟩
      · exact h.stored.mono hsub
  | poll clock now =>
    constructor
    · simp [Pipeline.next]
    · intro o ho hdirect
      rcases List.mem_append.mp ho with ho | ho
      · exact h.emitted o ho hdirect
      · exact mem_drainDomainEvents h.ring ho hdirect
    · exact h.stored
  | ingest input faults =>
    refine ⟨h.ring, h.emitted, ?_⟩
    rcases tryIngest_cases input flowId s.db faults with ⟨recorded, c, hrun, hrest⟩ | ⟨-, htables⟩
    · apply hrest stable_evidenced
      have hobservations := (ends_record_associates.of_eq hrun rfl).observations
      intro key row hrow
      rw [hobservations] at hrow
      exact h.observed hpossible key row hrow
    · intro key row hrow
      change (tryIngest flowId input ⟨s.db, faults⟩).2.store.tables.observations.find key = _ at hrow
      rw [htables] at hrow
      exact h.stored key row hrow
  | saveSettings settings nowInstant now faults =>
    refine ⟨h.ring, h.emitted, ?_⟩
    exact keeps_saveSettings stable_evidenced ⟨s.db, faults⟩ h.stored
  | restart flowCapacity => exact ⟨by simp [Pipeline.next], h.emitted, h.stored⟩

/-- A direct association at an address is of a name captured there. -/
theorem captured_of_candidate {captured : List Capture} {t : Tables} {place : IpAddr × ℤ}
    {now : SystemTime} {c : Candidate} (h : Evidenced captured t)
    (hc : c ∈ t.candidates place.1 place.2 now) (hdirect : c.2.confidence = .direct) :
    ∃ other ∈ captured, other.At place ∧ other.name = some c.1.domain := by
  obtain ⟨hrow, hplace⟩ := List.mem_filter.mp hc
  obtain ⟨haddress, hifindex, -⟩ := of_decide_eq_true hplace
  obtain ⟨other, hother, hpeer, hinterface, hname⟩ := h c.1 c.2 (Table.find_eq_some_iff.mpr hrow) hdirect
  refine ⟨other, hother, ⟨hpeer.trans haddress, ?_⟩, hname⟩
  rw [hinterface]
  exact hifindex

theorem directOwn_next (hprovenance : Provenance s) (h : DirectOwn s.captured s.db.tables)
    (hpossible : s.Possible event) (hcond : Unshared flowId s event) :
    DirectOwn (s.next flowId event).captured (s.next flowId event).db.tables := by
  cases event with
  | packet flow direction ifindex observedMonoNs payload =>
    unfold Pipeline.next
    simp only
    split
    · exact h
    · intro id row hrow d hd hdirect
      obtain ⟨c, hc, hcarries⟩ := h id row hrow d hd hdirect
      exact ⟨c, List.mem_append_left _ hc, hcarries⟩
  | poll clock now => exact h
  | ingest input faults =>
    rcases tryIngest_cases input flowId s.db faults with ⟨recorded, c, hrun, hrest⟩ | ⟨-, htables⟩
    · apply hrest stable_directOwn
      intro id row' hrow d hd hdirect
      rcases row_recorded hrun hrow with ⟨place, hplace, hdomains, hexpected⟩ |
        ⟨row, hold, hdomains, hsame⟩
      · rw [hdomains] at hd
        obtain ⟨candidate, hmem, rfl, hleading⟩ := Tables.mem_associateAddress hd
        obtain ⟨other, hother, hat, hname⟩ :=
          captured_of_candidate (hprovenance.observed hpossible) hmem hdirect
        exact hcond ⟨recorded, c, hrun⟩ id _ place hexpected hplace other hother hat _ hname
          ⟨candidate, hmem, rfl, hdirect, hleading⟩
      · rw [hdomains] at hd
        have hkey : row'.key = row.key := by
          have hundomained : row'.undomained.key = row.undomained.key := by rw [hsame]
          exact hundomained
        rw [hkey]
        exact h id row hold d hd hdirect
    · intro id row hrow
      change (tryIngest flowId input ⟨s.db, faults⟩).2.store.tables.flows.find id = some row at hrow
      rw [htables] at hrow
      exact h id row hrow
  | saveSettings settings nowInstant now faults =>
    exact keeps_saveSettings stable_directOwn ⟨s.db, faults⟩ h
  | restart flowCapacity => exact h

/-- In a run where the flow of every row that is rewritten carries all the names of its
address, direct evidence stays on the flow that carried it. -/
theorem direct_evidence_own (hr : (pipelines flowId (Unshared flowId)).Reachable s) :
    DirectOwn s.captured s.db.tables := by
  have hboth : Provenance s ∧ DirectOwn s.captured s.db.tables := by
    apply hr.invariant (P := fun s => Provenance s ∧ DirectOwn s.captured s.db.tables)
    · rintro s ⟨hring, htables, -, hemitted⟩
      refine ⟨⟨?_, ?_, ?_⟩, ?_⟩
      · simp [hring]
      · simp [hemitted]
      · intro key row hrow
        simp [htables, Table.find_empty] at hrow
      · intro id row hrow
        simp [htables, Table.find_empty] at hrow
    · rintro s _ ⟨hprovenance, hown⟩ ⟨event, hpossible, hcond, rfl⟩
      exact ⟨provenance_next hprovenance hpossible, directOwn_next hprovenance hown hpossible hcond⟩
  exact hboth.2

end Runs

/-! ## A shared address -/

/-- A ClientHello for `a.example`. -/
def clientHello : List UInt8 :=
  [0x16, 3, 1, 0, 65, 0x01, 0, 0, 61, 3, 3] ++ List.replicate 32 0 ++
    [0, 0, 2, 0x13, 0x01, 1, 0, 0, 18, 0, 0, 0, 14, 0, 12, 0, 0, 9] ++
    [97, 46, 101, 120, 97, 109, 112, 108, 101]

example : extractTlsSni (memoryCursor clientHello) 0 clientHello.length =
    some [97, 46, 101, 120, 97, 109, 112, 108, 101] := by decide +kernel

/-- The first payload of the connection from the local network. -/
def helloPacket : PipelineEvent :=
  .packet
    { srcAddr := ipv4Storage (.new 192 168 1 2)
      dstAddr := ipv4Storage (.new 203 0 113 1)
      srcPortBe := toBe 40000
      dstPortBe := toBe 443
      protocol := 6
      ipFamily := 4 }
    Direction.outbound.toU8 2 1000 ⟨clientHello, clientHello.length⟩

/-- Flows by the port they come from. -/
def portId (key : FlowKey) : UInt64 := if key.source.port = some 40000 then 7 else 8

/-- The packet, and the poll that finds its sample. -/
def helloPolled : Pipeline := (({} : Pipeline).next portId helloPacket).next portId (.poll {} 4)

/-- A batch with what the decoder found. -/
def helloInterval (updates : List Sighting) : IngestInput :=
  { lanInterval {} updates with
    batch := { (lanInterval {} updates).batch with domains := helloPolled.emitted } }

theorem helloPolled_reachable {cond : Pipeline → PipelineEvent → Prop}
    (hpacket : cond {} helloPacket) (hpoll : cond (({} : Pipeline).next portId helloPacket) (.poll {} 4)) :
    (pipelines portId cond).Reachable helloPolled :=
  .step (.step (.init ⟨rfl, rfl, rfl, rfl⟩) ⟨helloPacket, trivial, hpacket, rfl⟩)
    ⟨.poll {} 4, trivial, hpoll, rfl⟩

def ownInterval : IngestInput := helloInterval [lanUpdate ⟨3, 300⟩ ⟨3, 300⟩ .active]

theorem direct_evidence_own_hello : DirectOwn helloPolled.captured
    (tryIngest portId ownInterval ⟨helloPolled.db, []⟩).2.store.tables := by
  have hcond : Unshared portId helloPolled (.ingest ownInterval []) := by
    intro _ id row place hrow hplace other hother _ domain hname _
    have hid : id = 7 := by
      by_contra hne
      unfold expected at hrow
      rw [find_storedFlows] at hrow
      have hnone : sightingsOf portId id ownInterval.batch.flows = [] := by
        simp [sightingsOf, ownInterval, helloInterval, lanInterval, lanUpdate, lanFlow, portId,
          Ne.symm hne]
      have hempty : helloPolled.db.tables.flows = ∅ := by decide +kernel
      rw [hnone, Tables.find_undomained, hempty] at hrow
      simp [storeAll, Table.find_empty] at hrow
    subst hid
    have hkey : ((expected ownInterval portId helloPolled.db).flows.find 7).map FlowRow.key =
        some lanFlow := by
      decide +kernel
    rw [hrow, Option.map_some, Option.some.injEq] at hkey
    have hown : ∀ c ∈ helloPolled.captured, decodeKey c.key = some lanFlow := by decide +kernel
    exact ⟨other, hother, by rw [hkey]; exact hown other hother, hname⟩
  have hr : (pipelines portId (Unshared portId)).Reachable
      (helloPolled.next portId (.ingest ownInterval [])) :=
    .step (helloPolled_reachable trivial trivial)
      ⟨.ingest ownInterval [], fun _ ho => ho, hcond, rfl⟩
  exact direct_evidence_own hr

/-- Another connection to the same address. -/
def otherUpdate : Sighting :=
  { lanUpdate ⟨2, 200⟩ ⟨2, 200⟩ .active with
    key := { lanFlow with source := ⟨.v4 (.new 192 168 1 2), some 40001⟩ } }

def sharedInterval : IngestInput := helloInterval [lanUpdate ⟨3, 300⟩ ⟨3, 300⟩ .active, otherUpdate]

/-- Another flow to the address is given the name as direct evidence. -/
theorem shared_address_gets_direct : ¬ ∀ s : Pipeline,
    (pipelines portId fun _ _ => True).Reachable s → DirectOwn s.captured s.db.tables := by
  intro hall
  have hr : (pipelines portId fun _ _ => True).Reachable
      (helloPolled.next portId (.ingest sharedInterval [])) :=
    .step (helloPolled_reachable trivial trivial)
      ⟨.ingest sharedInterval [], fun _ ho => ho, trivial, rfl⟩
  have hrow : ((helloPolled.next portId (.ingest sharedInterval [])).db.tables.flows.find 8).map
      (fun row => (row.key, row.domainsJson)) =
      some (otherUpdate.key, [⟨"a.example", .tlsSni, .direct⟩]) := by
    decide +kernel
  obtain ⟨row, hfind, heq⟩ := Option.map_eq_some_iff.mp hrow
  obtain ⟨hkey, hdomains⟩ := Prod.mk.inj heq
  obtain ⟨c, hc, hcarries, -⟩ := hall _ hr 8 row hfind ⟨"a.example", .tlsSni, .direct⟩
    (by rw [hdomains]; exact List.mem_singleton.mpr rfl) rfl
  have hother : ∀ c ∈ helloPolled.captured, decodeKey c.key ≠ some otherUpdate.key := by
    decide +kernel
  rw [hkey] at hcarries
  exact hother c hc hcarries

end ZimaScope
