import ZimaScope.Db.Associations

/-! # Live events

What an ingest hands to subscribers: its traffic, the flows that moved or ended,
each as a full record or as a counter patch, the observations of the batch and
the overview. An ingest that fails hands them an empty event.
-/

namespace ZimaScope

open TrafficDb Storage

inductive FlowStateDto | active | ended
  deriving DecidableEq, Repr

inductive UnattributedReason | lanBroadcast
  deriving DecidableEq, Repr

structure ApplicationRefDto where
  id : String
  name : String
  kind : String
  deriving DecidableEq, Repr

/-- A flow as the API represents it. -/
structure FlowDto where
  id : UInt64
  direction : Direction
  protocol : TransportProtocol
  state : FlowStateDto
  endReason : Option EndReason
  source : Endpoint
  destination : Endpoint
  remote : Endpoint
  remoteProfile : IpProfile
  interface : Option String
  packets : ℕ
  bytes : ℕ
  inboundBps : ℕ
  outboundBps : ℕ
  firstSeen : ℤ
  lastSeen : ℤ
  durationMs : ℕ
  domains : List DomainRefDto
  application : Option ApplicationRefDto
  unattributedReason : Option UnattributedReason
  deriving DecidableEq

/-- `as u64`. -/
def asU64 (value : ℤ) : ℕ := (value % 2 ^ 64).toNat

theorem asU64_eq_iff {n : ℤ} : (asU64 n : ℤ) = n ↔ 0 ≤ n ∧ n < 2 ^ 64 := by
  unfold asU64
  constructor
  · intro h
    omega
  · rintro ⟨hnonneg, hlt⟩
    rw [Int.emod_eq_of_lt hnonneg hlt, Int.toNat_of_nonneg hnonneg]

/-- Explains an absent application of inbound LAN multicast or broadcast. -/
def unattributedReason (direction : Direction) (dstScope : Option AddressScope)
    (unattributed : Bool) : Option UnattributedReason :=
  if !unattributed || direction ≠ .inbound then none
  else if dstScope = some .multicast ∨ dstScope = some .broadcast then some .lanBroadcast
  else none

def FlowState.dto : FlowState → FlowStateDto
  | .active => .active
  | .ended _ => .ended

/-- `flow_dto_from_row`, and the rate of the flow, should it have one. -/
def FlowRecord.toDto (record : FlowRecord) (rates : Table EntityKey (ℤ × ℤ)) : FlowDto :=
  let row := record.row
  let rate := (rates.find (.flow record.id)).getD (0, 0)
  { id := record.id
    direction := row.key.direction
    protocol := row.key.protocol
    state := row.state.dto
    endReason := row.state.endReason
    source := row.key.source
    destination := row.key.destination
    remote := row.remote
    remoteProfile := row.profile
    interface := row.interface
    packets := asU64 row.packets
    bytes := asU64 row.bytes
    inboundBps := asU64 rate.1
    outboundBps := asU64 rate.2
    firstSeen := row.firstSeenMs
    lastSeen := row.lastSeenMs
    durationMs := (row.lastSeenMs - row.firstSeenMs).toNat
    domains := row.domainsJson
    application := record.application.map fun (id, name, kind) => ⟨id, name, kind⟩
    unattributedReason :=
      unattributedReason row.key.direction row.dstScope record.application.isNone }

structure DomainObservationDto where
  domain : String
  address : IpAddr
  evidence : DomainEvidence
  confidence : AssociationConfidence
  observedAt : ℤ
  deriving DecidableEq

/-- An observation that is stored, as subscribers see it. -/
def Candidate.event (c : Candidate) (observedAt : ℤ) : DomainObservationDto :=
  ⟨c.1.domain, c.1.address, c.1.evidence, c.2.confidence, observedAt⟩

/-- The observations of the batch that are stored. -/
def domainEvents (input : IngestInput) : List DomainObservationDto :=
  input.batch.domains.filterMap fun observation =>
    (observationRow input observation).map fun c => Candidate.event c
      (unixMillis (instantToSystem observation.observedAt input.nowInstant input.nowSystem))

/-- One collection interval prepared for subscribers. -/
structure LiveEvent where
  sequence : ℕ
  collectedAt : SystemTime
  inbound : TrafficCounters := {}
  outbound : TrafficCounters := {}
  flows : List FlowDto := []
  /-- Flows that travel as a counter patch. -/
  patchedFlows : List UInt64 := []
  observations : List DomainObservationDto := []
  overview : FlowStats := {}

/-! ## Ticks -/

/-- `{:?}` of the reason. -/
def EndReason.debug : EndReason → String
  | .idleTimeout => "IdleTimeout"
  | .tcpFin => "TcpFin"
  | .tcpReset => "TcpReset"
  | .evictedOrUnknown => "EvictedOrUnknown"

def DomainEvidence.debug : DomainEvidence → String
  | .dns => "Dns"
  | .tlsSni => "TlsSni"
  | .httpHost => "HttpHost"

def AssociationConfidence.debug : AssociationConfidence → String
  | .direct => "Direct"
  | .inferred => "Inferred"

def FlowStateDto.asStr : FlowStateDto → String
  | .active => "active"
  | .ended => "ended"

/-- Descriptive fields of a flow that force a full live record when they change. -/
def flowDetailSignature (flow : FlowDto) : String :=
  flow.state.asStr ++
    flow.endReason.elim "" (fun reason => "|" ++ reason.debug) ++
    flow.application.elim "" (fun application => "|" ++ application.id ++ ":" ++ application.kind) ++
    (if flow.unattributedReason.isSome then "|unattributed" else "") ++
    String.join (flow.domains.map fun d =>
      "|" ++ d.domain ++ ":" ++ d.evidence.debug ++ ":" ++ d.confidence.debug)

/-- The signatures sent last, and what goes into the tick. -/
structure TickProgress where
  details : HashMap UInt64 String
  flows : List FlowDto := []
  patched : List UInt64 := []

/-- One flow that was read back: flows that ended and details that changed travel in full. -/
def tickFlow (moved : UInt64 → Bool) (progress : TickProgress) (flow : FlowDto) : TickProgress :=
  if !moved flow.id && flow.state ≠ .ended then
    { progress with details := progress.details.erase flow.id }
  else if flow.state = .ended then
    { progress with
      details := progress.details.erase flow.id
      flows := progress.flows ++ [flow] }
  else
    let signature := flowDetailSignature flow
    { details := progress.details.insert flow.id signature
      flows := progress.flows ++ [flow]
      patched :=
        if AList.lookup flow.id progress.details = some signature then progress.patched.insert flow.id
        else progress.patched }

/-- The database with the signatures that subscribers were sent. -/
structure LiveDb where
  db : TrafficDb := {}
  tickDetails : HashMap UInt64 String := ∅

structure LiveInput extends IngestInput where
  sequence : ℕ

section Ingest

variable (flowId : FlowKey → UInt64)

/-- `Db::try_ingest` as far as statements go: the records read back, and the overview. -/
def runInterval (input : IngestInput) : Action (List FlowRecord × FlowStats) := do
  let recorded ← recordInterval flowId input
  let updated ← readBack input flowId recorded.touched
  storeBuckets input flowId updated
  storeEntityRates input.rates
  let moved := updated.filter fun record => flowMoved flowId input.batch.flows record.id
  let overview ← if input.publish then readTick recorded.changed moved else pure {}
  pure (updated, overview)

/-- The tick of the records that were read back. -/
def tickFlows (input : IngestInput) (details : HashMap UInt64 String) (updated : List FlowRecord) :
    TickProgress :=
  (updated.map fun record => record.toDto input.rates).foldl
    (tickFlow (flowMoved flowId input.batch.flows)) { details }

/-- `Db::ingest`. -/
def LiveDb.ingest (s : LiveDb) (input : LiveInput) (faults : List (Option String)) :
    LiveEvent × LiveDb :=
  match runInterval flowId input.toIngestInput ⟨s.db, faults⟩ with
  | (.ok (updated, overview), c) =>
    let progress := tickFlows flowId input.toIngestInput s.tickDetails updated
    ({ sequence := input.sequence
       collectedAt := input.batch.collectedAt
       inbound := batchTotal .inbound input.batch.flows
       outbound := batchTotal .outbound input.batch.flows
       flows := progress.flows
       patchedFlows := progress.patched
       observations := domainEvents input.toIngestInput
       overview },
      { db := c.store
        tickDetails :=
          if c.store.flowCapacity < progress.details.keys.length then ∅ else progress.details })
  | (.error _, c) =>
    ({ sequence := input.sequence, collectedAt := input.batch.collectedAt },
      { s with db := c.store })

end Ingest

/-- `Db::clear_history`. -/
def LiveDb.clearHistory (s : LiveDb) (faults : List (Option String)) : LiveDb where
  db := (TrafficDb.clearHistory ⟨s.db, faults⟩).2.store

/-- `Db::save_settings`: the signatures go as soon as the settings are stored. -/
def LiveDb.saveSettings (s : LiveDb) (settings : Settings) (nowInstant : Instant) (now : SystemTime)
    (faults : List (Option String)) : Except ApiError Unit × LiveDb :=
  let (result, c) := TrafficDb.saveSettings settings nowInstant now ⟨s.db, faults⟩
  (result, {
    db := c.store
    tickDetails := if ((execute id : Action Unit) ⟨s.db, faults⟩).1.isOk then ∅ else s.tickDetails })

section Ingest

variable {flowId : FlowKey → UInt64} {input : IngestInput}

/-- The event of storage, from what the statements return. -/
def storedEvent (flowId : FlowKey → UInt64) (input : IngestInput)
    (result : List FlowRecord × FlowStats) : StreamEvent where
  inbound := batchTotal .inbound input.batch.flows
  outbound := batchTotal .outbound input.batch.flows
  flows := result.1.filter fun record =>
    flowMoved flowId input.batch.flows record.id || record.row.ended
  overview := result.2

/-- The statements are those of `Db::try_ingest`. -/
theorem tryIngest_eq_runInterval :
    tryIngest flowId input = runInterval flowId input >>= fun result =>
      pure (storedEvent flowId input result) := by
  unfold tryIngest runInterval
  by_cases hpublish : input.publish = true
  · simp only [hpublish, if_true, Storage.bind_assoc]
    rfl
  · simp only [hpublish, Storage.bind_assoc]
    rfl

theorem store_runInterval {c : Conn TrafficDb} :
    (runInterval flowId input c).2 = (tryIngest flowId input c).2 := by
  rw [tryIngest_eq_runInterval, bind_apply]
  rcases runInterval flowId input c with ⟨_ | _, _⟩ <;> rfl

theorem db_ingest {s : LiveDb} {input : LiveInput} {faults : List (Option String)} :
    (s.ingest flowId input faults).2.db =
      (tryIngest flowId input.toIngestInput ⟨s.db, faults⟩).2.store := by
  rw [← store_runInterval]
  unfold LiveDb.ingest
  rcases runInterval flowId input.toIngestInput ⟨s.db, faults⟩ with ⟨_ | ⟨_, _⟩, _⟩ <;> rfl

/-- An interval that gets through. -/
theorem ingest_of_ok {s : LiveDb} {input : LiveInput} {faults : List (Option String)}
    {updated : List FlowRecord} {overview : FlowStats} {c : Conn TrafficDb}
    (h : runInterval flowId input.toIngestInput ⟨s.db, faults⟩ = (.ok (updated, overview), c)) :
    s.ingest flowId input faults =
      let progress := tickFlows flowId input.toIngestInput s.tickDetails updated
      ({ sequence := input.sequence
         collectedAt := input.batch.collectedAt
         inbound := batchTotal .inbound input.batch.flows
         outbound := batchTotal .outbound input.batch.flows
         flows := progress.flows
         patchedFlows := progress.patched
         observations := domainEvents input.toIngestInput
         overview },
        { db := c.store
          tickDetails :=
            if c.store.flowCapacity < progress.details.keys.length then ∅ else progress.details }) := by
  unfold LiveDb.ingest
  rw [h]

/-- An interval that fails. -/
theorem ingest_of_error {s : LiveDb} {input : LiveInput} {faults : List (Option String)}
    {err : ApiError} {c : Conn TrafficDb}
    (h : runInterval flowId input.toIngestInput ⟨s.db, faults⟩ = (.error err, c)) :
    s.ingest flowId input faults =
      ({ sequence := input.sequence, collectedAt := input.batch.collectedAt },
        { s with db := c.store }) := by
  unfold LiveDb.ingest
  rw [h]

end Ingest

end ZimaScope
