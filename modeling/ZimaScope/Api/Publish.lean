import ZimaScope.Api.Tick
import ZimaScope.Db.Atomicity
import ZimaScope.Db.Invariants
import ZimaScope.Lib.Broadcast

/-! # Published ticks

An ingest first looks whether anybody listens, then stores the batch, and then
sends its event to whoever listens by then. Streams open and close in between,
and what storage did not get through is sent as an event without traffic.
-/

namespace ZimaScope

open TrafficDb Storage Broadcast

/-- The totals of the batch in one direction. -/
def trafficOf (direction : Direction) (flows : List Sighting) : TrafficCounters where
  packets := ((flows.filter fun update => update.key.direction = direction).map
    fun update => update.delta.packets).sum
  bytes := ((flows.filter fun update => update.key.direction = direction).map
    fun update => update.delta.bytes).sum

/-- An event, and beside it the batch it is of and the tables the ingest left. -/
structure Published where
  event : LiveEvent
  flows : List Sighting
  tables : Tables

/-- How far an ingest has come. -/
inductive IngestPhase
  | idle
  | counted (publish : Bool)
  | prepared (publish : Bool) (sent : Published)

/-- An open stream, with the ticks it has got. -/
structure StreamClient where
  filter : StreamFilter
  next : ℕ
  ticks : List (TickDto × Published) := []

/-- The database, the broadcast channel and the streams. -/
structure ApiState where
  live : LiveDb := {}
  phase : IngestPhase := .idle
  events : List Published := []
  clients : List StreamClient := []

inductive ApiEvent
  | stream (query : StreamQuery)
  | close (i : ℕ)
  /-- A stream takes the next message of the channel. -/
  | poll (i : ℕ)
  /-- `events.receiver_count() > 0`. -/
  | countReceivers
  | ingest (input : LiveInput) (faults : List (Option String))
  /-- `events.send`. -/
  | send
  | clearHistory (faults : List (Option String))
  | saveSettings (settings : Settings) (nowInstant : Instant) (now : SystemTime)
      (faults : List (Option String))

/-- A tick tells the truth about the batch and about the history. -/
structure Truthful (tick : TickDto) (sent : Published) : Prop where
  inbound : tick.inbound = trafficOf .inbound sent.flows
  outbound : tick.outbound = trafficOf .outbound sent.flows
  overview : tick.overview = sent.tables.flowStats
  history : tick.overview.flowsTotal = 0 → ∀ id, sent.tables.flows.find id = none

section Publish

variable (channel : Channel Published) (flowId : FlowKey → UInt64)

def StreamClient.poll (events : List Published) (client : StreamClient) : StreamClient :=
  match channel.recv events client.next with
  | some (.value sent, next) =>
    { client with next, ticks := client.ticks ++ [(sent.event.tick client.filter, sent)] }
  | some (.lagged, next) => { client with next }
  | none => client

def ApiState.next (s : ApiState) : ApiEvent → ApiState
  | .stream query => { s with clients := s.clients ++ [⟨query.filter, s.events.length, []⟩] }
  | .close i => { s with clients := s.clients.eraseIdx i }
  | .poll i => { s with clients := s.clients.modify i (StreamClient.poll channel s.events) }
  | .countReceivers =>
    match s.phase with
    | .idle => { s with phase := .counted !s.clients.isEmpty }
    | _ => s
  | .ingest input faults =>
    match s.phase with
    | .counted publish =>
      let result := s.live.ingest flowId { input with publish } faults
      { s with
        live := result.2
        phase := .prepared publish ⟨result.1, input.batch.flows, result.2.db.tables⟩ }
    | _ => s
  | .send =>
    match s.phase with
    | .prepared _ sent => { s with phase := .idle, events := s.events ++ [sent] }
    | _ => s
  | .clearHistory faults => { s with live := s.live.clearHistory faults }
  | .saveSettings settings nowInstant now faults =>
    { s with live := (s.live.saveSettings settings nowInstant now faults).2 }

/-- The runs of events that meet a condition, from a database whose counters are exact. -/
def publishers (cond : ApiState → ApiEvent → Prop) : System ApiState where
  init s := s.live.db.tables.StatsExact ∧ s.phase = .idle ∧ s.events = [] ∧ s.clients = []
  step s s' := ∃ event, cond s event ∧ s' = s.next channel flowId event

end Publish

/-- Storage gets through and the totals of the batch fit; and if nobody listened when an ingest
began, nobody does when its event is sent, or there is no history. -/
def Heard (s : ApiState) : ApiEvent → Prop
  | .ingest input faults => (∃ publish, s.phase = .counted publish) →
    (∀ fault ∈ faults, fault = none) ∧ ∀ direction,
      (trafficOf direction input.batch.flows).packets < 2 ^ 64 ∧
        (trafficOf direction input.batch.flows).bytes < 2 ^ 64
  | .send => ∀ sent, s.phase = .prepared false sent →
    s.clients = [] ∨ sent.tables.flowStats = {}
  | _ => True

/-! ## One event -/

section Event

variable {flowId : FlowKey → UInt64} {input : LiveInput} {db : TrafficDb} {s : LiveDb}
  {faults : List (Option String)}

theorem foldl_add_of_fits {updates : List Sighting} {total : TrafficCounters}
    (hpackets : total.packets + (updates.map fun update => update.delta.packets).sum < 2 ^ 64)
    (hbytes : total.bytes + (updates.map fun update => update.delta.bytes).sum < 2 ^ 64) :
    updates.foldl (fun total update => total.add update.delta) total =
      ⟨total.packets + (updates.map fun update => update.delta.packets).sum,
        total.bytes + (updates.map fun update => update.delta.bytes).sum⟩ := by
  induction updates generalizing total with
  | nil => rfl
  | cons update updates ih =>
    rw [List.map_cons, List.sum_cons] at hpackets hbytes
    have hadd : total.add update.delta =
        ⟨total.packets + update.delta.packets, total.bytes + update.delta.bytes⟩ := by
      unfold TrafficCounters.add
      congr 1
      · omega
      · omega
    rw [List.foldl_cons, hadd, ih (by simp only; omega) (by simp only; omega)]
    simp only [List.map_cons, List.sum_cons, Nat.add_assoc]

/-- Totals that fit are the sums. -/
theorem batchTotal_of_fits {direction : Direction} {flows : List Sighting}
    (hpackets : (trafficOf direction flows).packets < 2 ^ 64)
    (hbytes : (trafficOf direction flows).bytes < 2 ^ 64) :
    batchTotal direction flows = trafficOf direction flows := by
  unfold batchTotal
  rw [foldl_add_of_fits (by rwa [Nat.zero_add]) (by rwa [Nat.zero_add]), Nat.zero_add, Nat.zero_add]
  rfl

/-- Without a fault the statements get through. -/
theorem runInterval_of_unfailing {input : IngestInput} (hnone : ∀ fault ∈ faults, fault = none) :
    ∃ updated overview c, runInterval flowId input ⟨db, faults⟩ = (.ok (updated, overview), c) := by
  obtain ⟨event, s', stops, htrail, -⟩ : ∃ event s', Visits (tryIngest flowId input) db
    (intervalStarts flowId input db) event s' := visits_tryIngest
  have hends := htrail.ends faults fun fault h => hnone fault (List.mem_of_mem_take h)
  rw [tryIngest_eq_runInterval, bind_eq_ok] at hends
  obtain ⟨⟨updated, overview⟩, c, hrun, -⟩ := hends
  exact ⟨updated, overview, c, hrun⟩

theorem Tables.StatsExact.find_eq_none {t : Tables} (h : t.StatsExact)
    (hzero : t.flowStats.flowsTotal = 0) (id : UInt64) : t.flows.find id = none := by
  have hlength : (t.flows.rows.length : ℤ) = 0 := by
    rw [show t.flowStats = t.recount from h] at hzero
    unfold recount Table.total at hzero
    simpa using hzero
  have hrows : t.flows.rows = [] := List.length_eq_zero_iff.mp (by omega)
  cases hfind : t.flows.find id with
  | none => rfl
  | some row =>
    have hmem := Table.find_eq_some_iff.mp hfind
    simp [hrows] at hmem

/-- What an ingest makes of exact counters. -/
theorem statsExact_ingest (h : s.db.tables.StatsExact) :
    (s.ingest flowId input faults).2.db.tables.StatsExact := by
  rw [db_ingest]
  exact keeps_tryIngest Tables.kept_statsExact ⟨s.db, faults⟩ h

/-- A clear keeps them exact, wherever it stops. -/
theorem statsExact_clearHistory (h : s.db.tables.StatsExact) :
    (s.clearHistory faults).db.tables.StatsExact := by
  have hdeletes : ∀ f ∈ clearDeletes, Keeps (execute f) fun db => db.tables.StatsExact := by
    intro f hf
    apply keeps_execute
    intro t ht
    fin_cases hf
    · exact Tables.deleteFlows_stats ht
    all_goals exact ht.of_eq rfl rfl
  exact (Keeps.forM hdeletes) ⟨s.db, faults⟩ h

/-- The event of an interval that gets through. -/
theorem event_ingest (hnone : ∀ fault ∈ faults, fault = none)
    (hfits : ∀ direction, (trafficOf direction input.batch.flows).packets < 2 ^ 64 ∧
      (trafficOf direction input.batch.flows).bytes < 2 ^ 64) :
    (s.ingest flowId input faults).1.inbound = trafficOf .inbound input.batch.flows ∧
      (s.ingest flowId input faults).1.outbound = trafficOf .outbound input.batch.flows ∧
      (s.ingest flowId input faults).1.overview =
        if input.publish then (s.ingest flowId input faults).2.db.tables.flowStats else {} := by
  obtain ⟨updated, overview, c, hrun⟩ : ∃ updated overview c,
      runInterval flowId input.toIngestInput ⟨s.db, faults⟩ = (.ok (updated, overview), c) :=
    runInterval_of_unfailing hnone
  have hreads := ends_runInterval faults (updated, overview) c hrun
  rw [ingest_of_ok hrun]
  exact ⟨batchTotal_of_fits (hfits .inbound).1 (hfits .inbound).2,
    batchTotal_of_fits (hfits .outbound).1 (hfits .outbound).2, hreads.overview⟩

end Event

/-! ## Runs -/

section Runs

variable {channel : Channel Published} {flowId : FlowKey → UInt64} {s : ApiState} {event : ApiEvent}

/-- An event whose ticks are true, whatever the filter. -/
def Published.Honest (sent : Published) : Prop := ∀ filter, Truthful (sent.event.tick filter) sent

/-- What an ingest has prepared is true of the batch, and of the history if somebody listened. -/
structure Published.Prepared (publish : Bool) (sent : Published) : Prop where
  inbound : sent.event.inbound = trafficOf .inbound sent.flows
  outbound : sent.event.outbound = trafficOf .outbound sent.flows
  overview : sent.event.overview = if publish then sent.tables.flowStats else {}
  stats : sent.tables.StatsExact

theorem Published.Prepared.honest {publish : Bool} {sent : Published} (h : sent.Prepared publish)
    (hheard : publish = false → sent.tables.flowStats = {}) : sent.Honest := by
  have hoverview : sent.event.overview = sent.tables.flowStats := by
    rw [h.overview]
    cases publish with
    | true => rfl
    | false => exact (hheard rfl).symm
  intro filter
  constructor
  · exact h.inbound
  · exact h.outbound
  · exact hoverview
  · intro hzero
    have hstats : sent.tables.flowStats.flowsTotal = 0 := hoverview ▸ hzero
    exact h.stats.find_eq_none hstats

/-- What a stream has got is true, and what is still to come. -/
structure StreamClient.Honest (events : List Published) (client : StreamClient) : Prop where
  ticks : ∀ r ∈ client.ticks, Truthful r.1 r.2
  coming : ∀ i sent, client.next ≤ i → events[i]? = some sent → sent.Honest

theorem StreamClient.Honest.poll {events : List Published} {client : StreamClient}
    (h : client.Honest events) : (client.poll channel events).Honest events := by
  unfold StreamClient.poll
  split
  · next sent next hrecv =>
    obtain ⟨hsent, hcoming⟩ := Channel.recv_forall hrecv h.coming
    constructor
    · intro r hr
      rcases List.mem_append.mp hr with hr | hr
      · exact h.ticks r hr
      · obtain rfl := List.mem_singleton.mp hr
        exact hsent sent rfl client.filter
    · exact hcoming
  · next next hrecv => exact ⟨h.ticks, (Channel.recv_forall hrecv h.coming).2⟩
  · exact h

/-- A stream that begins gets nothing of what was sent before. -/
theorem StreamClient.Honest.join {events : List Published} (filter : StreamFilter) :
    StreamClient.Honest events ⟨filter, events.length, []⟩ := by
  refine ⟨by simp, ?_⟩
  intro i sent hi hsent
  have hlt : i < events.length := (List.getElem?_eq_some_iff.mp hsent).1
  exact absurd hi (Nat.not_le.mpr hlt)

theorem StreamClient.Honest.send {events : List Published} {client : StreamClient}
    {sent : Published} (h : client.Honest events) (hsent : sent.Honest) :
    client.Honest (events ++ [sent]) := by
  refine ⟨h.ticks, ?_⟩
  intro i sent' hi hget
  rw [List.getElem?_append] at hget
  split at hget
  · exact h.coming i sent' hi hget
  · rw [List.getElem?_singleton] at hget
    split at hget
    · exact Option.some.inj hget ▸ hsent
    · simp at hget

/-- What an ingest prepares to send. -/
theorem prepared_ingest {live : LiveDb} {input : LiveInput} {faults : List (Option String)}
    (hstats : live.db.tables.StatsExact) (hnone : ∀ fault ∈ faults, fault = none)
    (hfits : ∀ direction, (trafficOf direction input.batch.flows).packets < 2 ^ 64 ∧
      (trafficOf direction input.batch.flows).bytes < 2 ^ 64) (publish : Bool) :
    Published.Prepared publish ⟨(live.ingest flowId { input with publish } faults).1,
      input.batch.flows, (live.ingest flowId { input with publish } faults).2.db.tables⟩ := by
  obtain ⟨hinbound, houtbound, hoverview⟩ :=
    @event_ingest flowId { input with publish } live faults hnone hfits
  exact ⟨hinbound, houtbound, hoverview, statsExact_ingest hstats⟩

structure ApiState.Honest (s : ApiState) : Prop where
  stats : s.live.db.tables.StatsExact
  phase : ∀ publish sent, s.phase = .prepared publish sent → sent.Prepared publish
  clients : ∀ client ∈ s.clients, client.Honest s.events

theorem ApiState.Honest.next (hs : s.Honest) (hheard : Heard s event) :
    (s.next channel flowId event).Honest := by
  cases event with
  | stream query =>
    refine ⟨hs.stats, hs.phase, ?_⟩
    intro client hclient
    rcases List.mem_append.mp hclient with hclient | hclient
    · exact hs.clients client hclient
    · obtain rfl := List.mem_singleton.mp hclient
      exact .join _
  | close i =>
    exact ⟨hs.stats, hs.phase, fun client hclient =>
      hs.clients client (List.mem_of_mem_eraseIdx hclient)⟩
  | poll i =>
    refine ⟨hs.stats, hs.phase, ?_⟩
    intro client hclient
    obtain ⟨j, hj⟩ := List.mem_iff_getElem?.mp hclient
    rw [ApiState.next, List.getElem?_modify] at hj
    obtain ⟨old, hold, rfl⟩ := Option.map_eq_some_iff.mp hj
    have honest := hs.clients old (List.mem_of_getElem? hold)
    split
    · exact honest.poll
    · exact honest
  | countReceivers =>
    cases hphase : s.phase with
    | idle =>
      simp only [ApiState.next, hphase]
      exact ⟨hs.stats, by simp, hs.clients⟩
    | counted publish =>
      simp only [ApiState.next, hphase]
      exact hs
    | prepared publish sent =>
      simp only [ApiState.next, hphase]
      exact hs
  | ingest input faults =>
    cases hphase : s.phase with
    | counted publish =>
      obtain ⟨hnone, hfits⟩ := hheard ⟨publish, hphase⟩
      simp only [ApiState.next, hphase]
      refine ⟨statsExact_ingest hs.stats, ?_, hs.clients⟩
      intro publish' sent hprepared
      obtain ⟨rfl, rfl⟩ := IngestPhase.prepared.inj hprepared
      exact prepared_ingest hs.stats hnone hfits publish
    | idle =>
      simp only [ApiState.next, hphase]
      exact hs
    | prepared publish sent =>
      simp only [ApiState.next, hphase]
      exact hs
  | send =>
    cases hphase : s.phase with
    | prepared publish sent =>
      simp only [ApiState.next, hphase]
      refine ⟨hs.stats, by simp, ?_⟩
      intro client hclient
      apply (hs.clients client hclient).send
      apply (hs.phase publish sent hphase).honest
      rintro rfl
      rcases hheard sent hphase with hnobody | hempty
      · rw [hnobody] at hclient
        simp at hclient
      · exact hempty
    | idle =>
      simp only [ApiState.next, hphase]
      exact hs
    | counted publish =>
      simp only [ApiState.next, hphase]
      exact hs
  | clearHistory faults => exact ⟨statsExact_clearHistory hs.stats, hs.phase, hs.clients⟩
  | saveSettings settings nowInstant now faults =>
    have hstats : (s.live.saveSettings settings nowInstant now faults).2.db.tables.StatsExact :=
      keeps_saveSettings Tables.kept_statsExact.toStable ⟨s.live.db, faults⟩ hs.stats
    exact ⟨hstats, hs.phase, hs.clients⟩

/-- In every run in which storage gets through and nobody joins while a batch is stored that nobody
waited for, every tick is true. -/
theorem ticks_truthful (hr : (publishers channel flowId Heard).Reachable s) :
    ∀ client ∈ s.clients, ∀ r ∈ client.ticks, Truthful r.1 r.2 := by
  have hs : s.Honest := by
    apply hr.invariant
    · rintro s ⟨hstats, hphase, -, hclients⟩
      exact ⟨hstats, by simp [hphase], by simp [hclients]⟩
    · rintro s _ hs ⟨event, hheard, rfl⟩
      exact hs.next hheard
  intro client hclient
  exact (hs.clients client hclient).ticks

end Runs

/-! ## One batch -/

/-- A stream without a filter, opened before anything is stored, and an ingest that found it. -/
def listening : ApiState :=
  (({ live.db := TrafficDb.restart {} 65536 } : ApiState).next (bounded 64) (fun _ => 7)
    (.stream {})).next (bounded 64) (fun _ => 7) .countReceivers

/-- One update, whose statements meet the faults, sent and received. -/
def oneTick (faults : List (Option String)) : ApiState :=
  ((listening.next (bounded 64) (fun _ => 7) (.ingest { oneUpdate with sequence := 1 } faults)).next
    (bounded 64) (fun _ => 7) .send).next (bounded 64) (fun _ => 7) (.poll 0)

example : (oneTick []).clients.map (fun client => client.ticks.map fun r =>
    (r.1.outbound, r.1.overview.flowsTotal)) = [[(⟨3, 300⟩, 1)]] := by
  decide +kernel

theorem reachable_oneTick {cond : ApiState → ApiEvent → Prop} {faults : List (Option String)}
    (hother : ∀ s, cond s (.stream {}) ∧ cond s .countReceivers ∧ cond s (.poll 0))
    (hingest : cond listening (.ingest { oneUpdate with sequence := 1 } faults))
    (hsend : cond (listening.next (bounded 64) (fun _ => 7)
      (.ingest { oneUpdate with sequence := 1 } faults)) .send) :
    (publishers (bounded 64) (fun _ => 7) cond).Reachable (oneTick faults) := by
  have hstart : (publishers (bounded 64) (fun _ => 7) cond).Reachable
      { live.db := TrafficDb.restart {} 65536 } := .init ⟨rfl, rfl, rfl, rfl⟩
  have hlistening : (publishers (bounded 64) (fun _ => 7) cond).Reachable listening :=
    .step (.step hstart ⟨_, (hother _).1, rfl⟩) ⟨_, (hother _).2.1, rfl⟩
  exact .step (.step (.step hlistening ⟨_, hingest, rfl⟩) ⟨_, hsend, rfl⟩)
    ⟨_, (hother _).2.2, rfl⟩

theorem ticks_truthful_oneTick :
    (oneTick []).clients.map (fun client => client.ticks.length) = [1] ∧
    ∀ client ∈ (oneTick []).clients, ∀ r ∈ client.ticks, Truthful r.1 r.2 := by
  refine ⟨by decide +kernel, ticks_truthful (reachable_oneTick ?_ ?_ ?_)⟩
  · intro s
    exact ⟨trivial, trivial, trivial⟩
  · intro _
    constructor
    · simp
    · rintro (_ | _)
      · decide
      · decide
  · rintro sent hphase
    obtain ⟨hpublish, -⟩ := IngestPhase.prepared.inj hphase
    exact absurd hpublish (by decide)

/-- The disk is full, and the tick says that there was no traffic. -/
theorem failed_ingest_hides_traffic : ¬ ∀ s : ApiState,
    (publishers (bounded 64) (fun _ => 7) fun _ _ => True).Reachable s →
      ∀ client ∈ s.clients, ∀ r ∈ client.ticks, Truthful r.1 r.2 := by
  intro hall
  have hr : (publishers (bounded 64) (fun _ => 7) fun _ _ => True).Reachable
      (oneTick [some "disk full"]) :=
    reachable_oneTick (fun _ => ⟨trivial, trivial, trivial⟩) trivial trivial
  obtain ⟨client, hclient, r, hr', htraffic⟩ : ∃ client ∈ (oneTick [some "disk full"]).clients,
      ∃ r ∈ client.ticks, (r.1.outbound, trafficOf .outbound r.2.flows) = (⟨0, 0⟩, ⟨3, 300⟩) := by
    decide +kernel
  have houtbound := (hall _ hr client hclient r hr').outbound
  obtain ⟨hshown, hcarried⟩ := Prod.mk.inj htraffic
  rw [hshown, hcarried] at houtbound
  simp at houtbound

end ZimaScope
