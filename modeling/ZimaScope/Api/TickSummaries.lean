import ZimaScope.Api.Lists
import ZimaScope.Api.Tick

/-! # Summaries of a tick

An event carries a summary of each endpoint, domain and application that its
interval touched, and a tick those that the full records of its flows touch. A
flow that travels as a patch touches them as well but takes none along.
-/

namespace ZimaScope

open TrafficDb Storage

/-! ## The summaries of an event -/

def tickAggregateLimit : ℕ := 256

/-- `ORDER BY total_bytes DESC`, and by the key. -/
def BytesFirst (a b : ℤ × String) : Prop := b.1 < a.1 ∨ a.1 = b.1 ∧ a.2 ≤ b.2

instance : DecidableRel BytesFirst := fun _ _ => inferInstanceAs (Decidable (_ ∨ _))

/-- The groups with the most bytes. -/
def largestGroups {α : Type} (rank : α → ℤ × String) (groups : List α) : List α :=
  (groups.insertionSort fun a b => BytesFirst (rank a) (rank b)).take tickAggregateLimit

namespace Tables

variable (t : Tables) (rates : Rates)

def endpointSummariesFor (addresses : List IpAddr) : List EndpointSummaryDto :=
  (largestGroups (fun group => (sqlSum (group.2.map Prod.snd) FlowRow.bytes, group.1.toString))
    (groupBy (fun r : IdRow => r.2.remote.address)
      (t.flows.rows.filter fun r => r.2.remote.address ∈ addresses))).map (endpointSummary rates)

def domainSummariesFor (domains : List String) : List DomainSummaryDto :=
  (largestGroups (fun group => (sqlSum (group.2.map fun pair => pair.1.2) FlowRow.bytes, group.1))
    (groupBy (fun pair : DomainPair => pair.2.domain)
      (t.domainJoin.filter fun pair => pair.2.domain ∈ domains))).map (domainSummary rates)

def applicationSummariesFor (ids : List String) : List ApplicationSummaryDto :=
  (largestGroups (fun group => (sqlSum (group.2.map Prod.snd) FlowRow.bytes, group.1))
    ((groupBy Prod.fst ((withApplication t.flows.rows).filter fun r => r.1 ∈ ids)).map fun group =>
      (group.1, group.2.map Prod.snd))).map (applicationSummary t.applications rates)

end Tables

/-- One collection interval prepared for subscribers, with its summaries. -/
structure SummaryEvent extends LiveEvent where
  endpoints : List EndpointSummaryDto := []
  domainSummaries : List DomainSummaryDto := []
  applications : List ApplicationSummaryDto := []

/-- The payload of one interval, with its summaries. -/
structure SummaryTick extends TickDto where
  endpoints : List EndpointSummaryDto
  domains : List DomainSummaryDto
  applications : List ApplicationSummaryDto

section Ingest

variable (input : IngestInput) (moved : List FlowRecord)

def touchedAddresses : List IpAddr :=
  (domainEvents input).map DomainObservationDto.address ++
    moved.map fun record => record.row.remote.address

def touchedDomains : List String :=
  (domainEvents input).map DomainObservationDto.domain ++
    moved.flatMap fun record => record.row.domainsJson.map DomainRefDto.domain

def touchedApplications : List String := moved.filterMap fun record => record.application.map Prod.fst

/-- The event of `Db::ingest`. The summaries are read of the tables the ingest leaves. -/
def LiveDb.ingestEvent (flowId : FlowKey → UInt64) (s : LiveDb) (input : LiveInput)
    (faults : List (Option String)) : SummaryEvent :=
  let event := (s.ingest flowId input faults).1
  match runInterval flowId input.toIngestInput ⟨s.db, faults⟩ with
  | (.ok (updated, _), c) =>
    let moved := updated.filter fun record => flowMoved flowId input.batch.flows record.id
    let t := c.store.tables
    if input.publish then
      { toLiveEvent := event
        endpoints := t.endpointSummariesFor input.rates (touchedAddresses input.toIngestInput moved)
        domainSummaries := t.domainSummariesFor input.rates (touchedDomains input.toIngestInput moved)
        applications := t.applicationSummariesFor input.rates (touchedApplications moved) }
    else { toLiveEvent := event }
  | (.error _, _) => { toLiveEvent := event }

end Ingest

/-- `StreamEvent::tick`. -/
def SummaryEvent.tick (event : SummaryEvent) (filter : StreamFilter) : SummaryTick :=
  let tick := event.toLiveEvent.tick filter
  let addresses := tick.flows.map fun flow => flow.remote.address
  let domains := tick.flows.flatMap fun flow => flow.domains.map DomainRefDto.domain
  let applications := tick.flows.filterMap fun flow => flow.application.map ApplicationRefDto.id
  { toTickDto := tick
    endpoints := event.endpoints.filter fun endpoint => endpoint.address ∈ addresses
    domains := event.domainSummaries.filter fun domain => domain.domain ∈ domains
    applications := event.applications.filter fun application => application.id ∈ applications }

/-! ## What the flows touch -/

/-- The entities that a flow touches. -/
def FlowDto.entities (flow : FlowDto) : List EntityKey :=
  .endpoint flow.remote.address ::
    (flow.application.toList.map (fun application => .application application.id) ++
      flow.domains.map fun d => .domain d.domain)

namespace SummaryEvent

variable (event : SummaryEvent) (filter : StreamFilter)

/-- The entities that the event has a summary of. -/
def summarized : List EntityKey :=
  event.endpoints.map (fun endpoint => .endpoint endpoint.address) ++
    (event.domainSummaries.map (fun domain => .domain domain.domain) ++
      event.applications.map fun application => .application application.id)

/-- A flow of the event that the filter accepts touches the entity. -/
def touches (entity : EntityKey) : Bool :=
  event.flows.any fun flow => filter.matches flow && decide (entity ∈ flow.entities)

/-- The tick has the summaries of all that its flows touch, and no others. -/
structure Carried : Prop where
  endpoints : (event.tick filter).endpoints = event.endpoints.filter fun endpoint =>
    event.touches filter (.endpoint endpoint.address)
  domains : (event.tick filter).domains = event.domainSummaries.filter fun domain =>
    event.touches filter (.domain domain.domain)
  applications : (event.tick filter).applications = event.applications.filter fun application =>
    event.touches filter (.application application.id)

/-- A flow that the filter accepts and that travels in full touches the entity. -/
def Told (entity : EntityKey) : Prop :=
  ∃ full ∈ event.flows, filter.matches full = true ∧ full.id ∉ event.patchedFlows ∧
    entity ∈ full.entities

/-- What a patched flow touches, as far as there is a summary of it, a flow that travels in full
touches as well. -/
def PatchesShared : Prop :=
  ∀ flow ∈ event.flows, filter.matches flow = true → flow.id ∈ event.patchedFlows →
    ∀ entity ∈ flow.entities, entity ∈ event.summarized → event.Told filter entity

end SummaryEvent

section Carried

variable {event : SummaryEvent} {filter : StreamFilter}

theorem FlowDto.endpoint_mem_entities {flow : FlowDto} {address : IpAddr} :
    .endpoint address ∈ flow.entities ↔ flow.remote.address = address := by
  simp [entities, eq_comm]

theorem FlowDto.domain_mem_entities {flow : FlowDto} {domain : String} :
    .domain domain ∈ flow.entities ↔ domain ∈ flow.domains.map DomainRefDto.domain := by
  simp [entities]

theorem FlowDto.application_mem_entities {flow : FlowDto} {id : String} :
    .application id ∈ flow.entities ↔ flow.application.map ApplicationRefDto.id = some id := by
  simp [entities]

/-- Narrowing a list further makes no difference if it removes nothing more. -/
theorem filter_eq_filter_iff {α : Type} {l : List α} {p q : α → Bool}
    (h : ∀ a ∈ l, p a = true → q a = true) :
    l.filter p = l.filter q ↔ ∀ a ∈ l, q a = true → p a = true := by
  constructor
  · intro heq a ha hq
    have hmem : a ∈ l.filter p := heq ▸ List.mem_filter.mpr ⟨ha, hq⟩
    exact (List.mem_filter.mp hmem).2
  · intro hback
    refine List.filter_congr fun a ha => ?_
    exact Bool.eq_iff_iff.mpr ⟨h a ha, hback a ha⟩

namespace SummaryEvent

theorem touches_iff {entity : EntityKey} : event.touches filter entity = true ↔
    ∃ flow ∈ event.flows, filter.matches flow = true ∧ entity ∈ flow.entities := by
  simp [touches]

theorem Told.touches {entity : EntityKey} (h : event.Told filter entity) :
    event.touches filter entity = true := by
  obtain ⟨full, hfull, hmatches, -, hentity⟩ := h
  exact touches_iff.mpr ⟨full, hfull, hmatches, hentity⟩

theorem mem_tick_flows {flow : FlowDto} : flow ∈ (event.toLiveEvent.tick filter).flows ↔
    flow ∈ event.flows ∧ filter.matches flow = true ∧ flow.id ∉ event.patchedFlows := by
  simp only [LiveEvent.tick, List.mem_filter, decide_eq_true_eq, and_assoc]

/-- The filters of the three lists ask whether the entity is told of. -/
theorem mem_addresses_iff {address : IpAddr} :
    address ∈ (event.toLiveEvent.tick filter).flows.map (fun flow => flow.remote.address) ↔
      event.Told filter (.endpoint address) := by
  simp only [List.mem_map, mem_tick_flows, Told, FlowDto.endpoint_mem_entities, and_assoc]

theorem mem_domains_iff {domain : String} :
    domain ∈ (event.toLiveEvent.tick filter).flows.flatMap
        (fun flow => flow.domains.map DomainRefDto.domain) ↔
      event.Told filter (.domain domain) := by
  simp only [List.mem_flatMap, mem_tick_flows, Told, FlowDto.domain_mem_entities, and_assoc]

theorem mem_applications_iff {id : String} :
    id ∈ (event.toLiveEvent.tick filter).flows.filterMap
        (fun flow => flow.application.map ApplicationRefDto.id) ↔
      event.Told filter (.application id) := by
  simp only [List.mem_filterMap, mem_tick_flows, Told, FlowDto.application_mem_entities, and_assoc]

variable (event filter) in
/-- What is touched of these entities is told of. -/
def AllTold (entities : List EntityKey) : Prop :=
  ∀ entity ∈ entities, event.touches filter entity = true → event.Told filter entity

/-- A list of the tick is complete if what is touched is told of. -/
theorem filter_told_iff {α : Type} {summaries : List α} {key : α → EntityKey} {told : α → Bool}
    (htold : ∀ a, told a = true ↔ event.Told filter (key a)) :
    (summaries.filter told = summaries.filter fun a => event.touches filter (key a)) ↔
      event.AllTold filter (summaries.map key) := by
  unfold AllTold
  rw [filter_eq_filter_iff fun a _ ha => ((htold a).mp ha).touches, List.forall_mem_map]
  simp only [htold]

theorem carried_iff_allTold : event.Carried filter ↔ event.AllTold filter event.summarized := by
  have hendpoints : (event.tick filter).endpoints = event.endpoints.filter (fun endpoint =>
      event.touches filter (.endpoint endpoint.address)) ↔
        event.AllTold filter (event.endpoints.map fun endpoint => .endpoint endpoint.address) :=
    filter_told_iff fun _ => decide_eq_true_iff.trans mem_addresses_iff
  have hdomains : (event.tick filter).domains = event.domainSummaries.filter (fun domain =>
      event.touches filter (.domain domain.domain)) ↔
        event.AllTold filter (event.domainSummaries.map fun domain => .domain domain.domain) :=
    filter_told_iff fun _ => decide_eq_true_iff.trans mem_domains_iff
  have happlications : (event.tick filter).applications = event.applications.filter
      (fun application => event.touches filter (.application application.id)) ↔
        event.AllTold filter (event.applications.map fun application => .application application.id) :=
    filter_told_iff fun _ => decide_eq_true_iff.trans mem_applications_iff
  have hall : event.AllTold filter event.summarized ↔
      event.AllTold filter (event.endpoints.map fun endpoint => .endpoint endpoint.address) ∧
      event.AllTold filter (event.domainSummaries.map fun domain => .domain domain.domain) ∧
        event.AllTold filter (event.applications.map fun application => .application application.id) := by
    unfold AllTold summarized
    rw [List.forall_mem_append, List.forall_mem_append]
  rw [hall, ← hendpoints, ← hdomains, ← happlications]
  exact ⟨fun h => ⟨h.endpoints, h.domains, h.applications⟩, fun ⟨h, h', h''⟩ => ⟨h, h', h''⟩⟩

/-- Only flows that travel as patches touch what is not told of. -/
theorem allTold_iff_patchesShared :
    event.AllTold filter event.summarized ↔ event.PatchesShared filter := by
  constructor
  · intro h flow hflow hmatches _ entity hentity hsummarized
    exact h entity hsummarized (touches_iff.mpr ⟨flow, hflow, hmatches, hentity⟩)
  · intro h entity hsummarized htouches
    obtain ⟨flow, hflow, hmatches, hentity⟩ := touches_iff.mp htouches
    by_cases hpatched : flow.id ∈ event.patchedFlows
    · exact h flow hflow hmatches hpatched entity hentity hsummarized
    · exact ⟨flow, hflow, hmatches, hpatched, hentity⟩

/-- For every event and every filter, the tick has exactly the summaries of the event that the
flows of the filter touch, if and only if every summary that a patched one touches is touched by
one that travels in full. -/
theorem tick_carries_iff (event : SummaryEvent) (filter : StreamFilter) :
    event.Carried filter ↔ event.PatchesShared filter :=
  carried_iff_allTold.trans allTold_iff_patchesShared

end SummaryEvent

end Carried

/-! ## The flows that travel as patches -/

/-- The flow goes on, and subscribers were sent its details as they are. -/
def Unchanged (details : HashMap UInt64 String) (flow : FlowDto) : Prop :=
  flow.state = .active ∧ AList.lookup flow.id details = some (flowDetailSignature flow)

/-- How the flows of an interval are split. -/
structure SplitFlows (moved : UInt64 → Bool) (details : HashMap UInt64 String) (flows : List FlowDto)
    (p : TickProgress) : Prop where
  taken : p.flows = flows.filter fun flow => moved flow.id || flow.state = .ended
  patched : ∀ flow ∈ flows, flow.id ∈ p.patched ↔ moved flow.id = true ∧ Unchanged details flow
  known : ∀ id ∈ p.patched, id ∈ flows.map FlowDto.id
  details : ∀ id ∉ flows.map FlowDto.id, AList.lookup id p.details = AList.lookup id details

section Split

variable {moved : UInt64 → Bool} {details : HashMap UInt64 String} {flows : List FlowDto}

theorem flows_tickFlow (p : TickProgress) (flow : FlowDto) : (tickFlow moved p flow).flows =
    p.flows ++ [flow].filter fun flow => moved flow.id || flow.state = .ended := by
  unfold tickFlow
  cases hmoved : moved flow.id <;> cases hstate : flow.state <;> simp [hmoved, hstate]

theorem mem_patched_tickFlow {p : TickProgress} {flow : FlowDto} {id : UInt64} :
    id ∈ (tickFlow moved p flow).patched ↔
      id ∈ p.patched ∨ id = flow.id ∧ moved flow.id = true ∧ Unchanged p.details flow := by
  unfold tickFlow Unchanged
  cases hmoved : moved flow.id <;> cases hstate : flow.state <;> simp
  split
  · next hsent => simp [hsent, or_comm]
  · next hsent => simp [hsent]

theorem details_tickFlow {p : TickProgress} {flow : FlowDto} {id : UInt64} (h : id ≠ flow.id) :
    AList.lookup id (tickFlow moved p flow).details = AList.lookup id p.details := by
  unfold tickFlow
  split
  · exact AList.lookup_erase_ne h
  · split
    · exact AList.lookup_erase_ne h
    · exact AList.lookup_insert_ne h

theorem splitFlows_foldl (hnodup : (flows.map FlowDto.id).Nodup) :
    SplitFlows moved details flows (flows.foldl (tickFlow moved) { details }) := by
  induction flows using List.reverseRecOn with
  | nil => exact ⟨rfl, by simp, by simp, fun _ _ => rfl⟩
  | append_singleton done flow ih =>
    rw [List.map_append, List.nodup_append] at hnodup
    obtain ⟨hdone, -, hdisjoint⟩ := hnodup
    have hnew : flow.id ∉ done.map FlowDto.id := fun hmem => hdisjoint _ hmem _ (by simp) rfl
    obtain ⟨htaken, hpatched, hknown, hdetails⟩ := ih hdone
    rw [List.foldl_append, List.foldl_cons, List.foldl_nil]
    generalize done.foldl (tickFlow moved) { details } = p at *
    have hsame : Unchanged p.details flow ↔ Unchanged details flow := by
      unfold Unchanged
      rw [hdetails _ hnew]
    constructor
    · rw [flows_tickFlow, htaken, List.filter_append]
    · intro other hother
      rw [mem_patched_tickFlow]
      rcases List.mem_append.mp hother with hother | hother
      · have hne : other.id ≠ flow.id := fun heq => hnew (heq ▸ List.mem_map_of_mem hother)
        rw [hpatched other hother]
        simp [hne]
      · obtain rfl := List.mem_singleton.mp hother
        have hfresh : other.id ∉ p.patched := fun hmem => hnew (hknown _ hmem)
        simp [hfresh, hsame]
    · intro id hid
      rw [List.map_append, List.mem_append]
      rcases mem_patched_tickFlow.mp hid with hid | ⟨rfl, -⟩
      · exact .inl (hknown id hid)
      · exact .inr (by simp)
    · intro id hid
      rw [List.map_append, List.mem_append, not_or] at hid
      rw [details_tickFlow (by simpa using hid.2), hdetails id hid.1]

end Split

section Ingested

variable {flowId : FlowKey → UInt64} {s : LiveDb} {input : LiveInput} {faults : List (Option String)}
  {filter : StreamFilter}

theorem toLiveEvent_ingestEvent :
    (s.ingestEvent flowId input faults).toLiveEvent = (s.ingest flowId input faults).1 := by
  unfold LiveDb.ingestEvent
  split
  · simp only
    split <;> rfl
  · rfl

/-- Of the flows of an event, those go as patches whose details subscribers know. -/
theorem mem_patchedFlows_iff {flow : FlowDto}
    (hflow : flow ∈ (s.ingestEvent flowId input faults).flows) :
    flow.id ∈ (s.ingestEvent flowId input faults).patchedFlows ↔ Unchanged s.tickDetails flow := by
  rw [toLiveEvent_ingestEvent] at hflow ⊢
  generalize hrun : runInterval flowId input.toIngestInput ⟨s.db, faults⟩ = run at hflow
  obtain ⟨error | ⟨updated, overview⟩, c⟩ := run
  · rw [ingest_of_error hrun] at hflow
    cases hflow
  · have hreads : Reads input.toIngestInput flowId s.db (updated, overview) c.store :=
      ends_runInterval.of_eq hrun rfl
    have hnodup : ((updated.map fun record => record.toDto input.rates).map FlowDto.id).Nodup := by
      rw [List.map_map]
      exact hreads.nodup
    have hsplit : SplitFlows (flowMoved flowId input.batch.flows) s.tickDetails
        (updated.map fun record => record.toDto input.rates)
        (tickFlows flowId input.toIngestInput s.tickDetails updated) := splitFlows_foldl hnodup
    rw [ingest_of_ok hrun] at hflow ⊢
    change flow ∈ (tickFlows flowId input.toIngestInput s.tickDetails updated).flows at hflow
    change flow.id ∈ (tickFlows flowId input.toIngestInput s.tickDetails updated).patched ↔ _
    rw [hsplit.taken, List.mem_filter, Bool.or_eq_true, decide_eq_true_iff] at hflow
    rw [hsplit.patched flow hflow.1, and_iff_right_iff_imp]
    rintro ⟨hactive, -⟩
    refine hflow.2.resolve_right fun hended => ?_
    rw [hactive] at hended
    cases hended

/-- What that comes to for the event of an ingest: a summary that a flow touches whose details did
not change since they were sent is touched by a flow that is new, changed or ended. -/
theorem ingest_carries_iff : (s.ingestEvent flowId input faults).Carried filter ↔
    ∀ flow ∈ (s.ingestEvent flowId input faults).flows, filter.matches flow = true →
      Unchanged s.tickDetails flow → ∀ entity ∈ flow.entities,
        entity ∈ (s.ingestEvent flowId input faults).summarized →
          ∃ full ∈ (s.ingestEvent flowId input faults).flows, filter.matches full = true ∧
            ¬ Unchanged s.tickDetails full ∧ entity ∈ full.entities := by
  rw [SummaryEvent.carried_iff_allTold, SummaryEvent.allTold_iff_patchesShared]
  have htold : ∀ entity, (s.ingestEvent flowId input faults).Told filter entity ↔
      ∃ full ∈ (s.ingestEvent flowId input faults).flows, filter.matches full = true ∧
        ¬ Unchanged s.tickDetails full ∧ entity ∈ full.entities := by
    intro entity
    refine exists_congr fun full => and_congr_right fun hfull => ?_
    rw [mem_patchedFlows_iff hfull]
  unfold SummaryEvent.PatchesShared
  simp only [htold]
  refine forall_congr' fun flow => forall_congr' fun hflow => ?_
  rw [mem_patchedFlows_iff hflow]

/-- Steady traffic: a tick whose flows all go as patches has no summaries. -/
theorem steady_tick_empty (hsteady : ∀ flow ∈ (s.ingestEvent flowId input faults).flows,
      filter.matches flow = true → Unchanged s.tickDetails flow) :
    ((s.ingestEvent flowId input faults).tick filter).endpoints = [] ∧
      ((s.ingestEvent flowId input faults).tick filter).domains = [] ∧
        ((s.ingestEvent flowId input faults).tick filter).applications = [] := by
  have hflows : ((s.ingestEvent flowId input faults).toLiveEvent.tick filter).flows = [] := by
    refine List.eq_nil_iff_forall_not_mem.mpr fun flow hflow => ?_
    obtain ⟨hmem, hmatches, hfull⟩ := SummaryEvent.mem_tick_flows.mp hflow
    exact hfull ((mem_patchedFlows_iff hmem).mpr (hsteady flow hmem hmatches))
  unfold SummaryEvent.tick
  simp [hflows]

end Ingested

/-! ## Steady traffic -/

def openedFlow : LiveInput where
  toIngestInput := { oneUpdate with publish := true }
  sequence := 1

/-- The same flow with more packets. -/
def steadyFlow : LiveInput where
  toIngestInput := { lanInterval {} [lanUpdate ⟨3, 300⟩ ⟨6, 600⟩ .active] with publish := true }
  sequence := 2

/-- The event of the second interval. -/
def steadyEvent : SummaryEvent :=
  (({} : LiveDb).ingest (fun _ => 7) openedFlow []).2.ingestEvent (fun _ => 7) steadyFlow []

/-- The summary of the endpoint is in the event, and not in the tick of any subscriber. -/
theorem steady_tick_lacks_endpoint : ¬ ∀ (event : SummaryEvent) (filter : StreamFilter),
    event.Carried filter := by
  intro h
  have hendpoints := (h steadyEvent .all).endpoints
  have hcounts : (steadyEvent.tick .all).endpoints.length = 0 ∧
      (steadyEvent.endpoints.filter fun endpoint =>
        steadyEvent.touches .all (.endpoint endpoint.address)).length = 1 := by
    decide +kernel
  rw [hendpoints] at hcounts
  omega

end ZimaScope
