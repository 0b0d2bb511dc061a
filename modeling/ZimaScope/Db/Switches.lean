import ZimaScope.Db.Live
import ZimaScope.Db.Timeliness

/-! # Observation switches

The settings switch collection and each kind of domain evidence on and off, and an
ingest does not look at the switches. A run keeps a record of each interval: the
settings it ran under, the tables before and after, and what subscribers were told.
-/

namespace ZimaScope

open TrafficDb Storage

/-- Whether the kind of evidence is to be observed. -/
def DomainObservationSettings.observes (s : DomainObservationSettings) (evidence : DomainEvidence) :
    Bool :=
  s.enabled && match evidence with
    | .dns => s.dns
    | .tlsSni => s.tlsSni
    | .httpHost => s.httpHost

/-- Flows with their mirrors, observations and buckets. -/
def Tables.traffic (t : Tables) :=
  (t.observed, t.trafficBuckets, t.entityBuckets)

/-- One interval of a run. -/
structure IntervalRecord where
  settings : Settings
  before : Tables
  after : Tables
  observations : List DomainObservationDto

/-- The interval did what the switches say. -/
structure IntervalRecord.Honoured (r : IntervalRecord) : Prop where
  disabled : r.settings.enabled = false → r.after.traffic = r.before.traffic
  stored : ∀ key row, r.settings.domains.observes key.evidence = false →
    r.after.observations.find key = some row → r.before.observations.find key = some row
  attached : ∀ id row', r.after.flows.find id = some row' → ∀ d ∈ row'.domainsJson,
    r.settings.domains.observes d.evidence = false →
      (∃ row, r.before.flows.find id = some row ∧ d ∈ row.domainsJson) ∨
        ∃ c : Candidate, r.before.observations.find c.1 = some c.2 ∧ d = c.association
  live : ∀ o ∈ r.observations, r.settings.domains.observes o.evidence = true

/-- The settings resource, the database and the intervals so far. -/
structure Observer where
  settings : Settings := {}
  live : LiveDb := {}
  intervals : List IntervalRecord := []

inductive ObserverEvent
  | putSettings (body : Settings) (nowInstant : Instant) (now : SystemTime)
      (faults : List (Option String))
  | patchSettings (patch : SettingsPatch) (nowInstant : Instant) (now : SystemTime)
      (faults : List (Option String))
  | ingest (input : LiveInput) (faults : List (Option String))

section Observers

variable (flowId : FlowKey → UInt64)

/-- Normalised and valid settings take effect once they are stored. -/
def Observer.changeSettings (s : Observer) (settings : Settings) (nowInstant : Instant)
    (now : SystemTime) (faults : List (Option String)) : Observer :=
  let settings := settings.normalize
  match settings.validate with
  | .error _ => s
  | .ok () =>
    match s.live.saveSettings settings nowInstant now faults with
    | (.ok (), live) => { s with settings, live }
    | (.error _, live) => { s with live }

/-- An ingest runs under the settings of the moment. -/
def Observer.under (s : Observer) (input : LiveInput) : LiveInput :=
  { input with settings := s.settings }

def Observer.next (s : Observer) : ObserverEvent → Observer
  | .putSettings body nowInstant now faults => s.changeSettings body nowInstant now faults
  | .patchSettings patch nowInstant now faults =>
    s.changeSettings (patch.apply s.settings) nowInstant now faults
  | .ingest input faults =>
    let (event, live) := s.live.ingest flowId (s.under input) faults
    { s with
      live
      intervals := s.intervals ++ [{
        settings := s.settings
        before := s.live.db.tables
        after := live.db.tables
        observations := event.observations }] }

/-- The runs of events that meet a condition, from an empty database. -/
def observers (cond : Observer → ObserverEvent → Prop) : System Observer where
  init s := s.live.db.tables = {} ∧ s.intervals = []
  step s s' := ∃ event, cond s event ∧ s' = s.next flowId event

/-- The retention policy has nothing to remove. -/
structure Settled (settings : Settings) (now : SystemTime) (t : Tables) : Prop where
  capacity : t.overflow settings ≤ 0
  flows : ∀ id row, t.flows.find id = some row → row.expired settings now = false
  observations : ∀ key row, t.observations.find key = some row → unixMillis now < row.expiresAtMs
  traffic : ∀ key row, t.trafficBuckets.find key = some row → keptBuckets now key = true
  entities : ∀ key row, t.entityBuckets.find key = some row → keptBuckets now key.bucket = true

/-- The batch brings nothing that is switched off: only kinds of evidence that are observed,
and nothing at all while collection is off. -/
def Quiet (s : Observer) : ObserverEvent → Prop
  | .ingest input faults =>
    (∃ recorded c, record (s.under input).toIngestInput flowId
      (attached input.toIngestInput s.live.db.interfaces)
      ⟨attachedDb input.toIngestInput s.live.db, faults⟩ = (.ok recorded, c)) →
      (∀ c ∈ input.batch.domains.filterMap (observationRow input.toIngestInput),
        s.settings.domains.observes c.1.evidence = true) ∧
      (s.settings.enabled = false →
        input.batch.flows = [] ∧
          input.batch.domains.filterMap (observationRow input.toIngestInput) = [] ∧
          (s.live.db.policyDue input.policyInstant = true →
            Settled s.settings input.nowSystem s.live.db.tables))
  | _ => True

end Observers

/-! ## Nothing to record -/

section Idle

variable {input : IngestInput} {flowId : FlowKey → UInt64} {t t' : Tables} {settings : Settings}
  {nowInstant : Instant} {now : SystemTime} {c : Conn TrafficDb}

theorem traffic_eq_iff : t'.traffic = t.traffic ↔ t'.observed = t.observed ∧
    t'.trafficBuckets = t.trafficBuckets ∧ t'.entityBuckets = t.entityBuckets := by
  simp only [Tables.traffic, Prod.mk.injEq]

/-- Deleting no flow changes nothing. -/
theorem deleteFlows_eq_self {cond : UInt64 → FlowRow → Bool}
    (h : ∀ id row, t.flows.find id = some row → cond id row = false) : t.deleteFlows cond = t := by
  have hnone : (t.flows.filter cond).rows = [] := by
    refine List.filter_eq_nil_iff.mpr fun r hr => ?_
    rw [h r.1 r.2 (Table.find_eq_some_iff.mpr hr)]
    exact Bool.false_ne_true
  have hall : (t.flows.filter fun id row => !cond id row) = t.flows :=
    Table.filter_eq_self fun id row hrow => by rw [h id row hrow]; rfl
  unfold Tables.deleteFlows
  rw [hnone, hall]
  rfl

theorem deleteTrafficBuckets_eq_self {resolution : BucketResolution} {cutoff : ℤ}
    (h : ∀ key row, t.trafficBuckets.find key = some row →
      Tables.keptBucket resolution cutoff key = true) :
    t.deleteTrafficBuckets resolution cutoff = t := by
  unfold Tables.deleteTrafficBuckets
  rw [Table.filter_eq_self h]

theorem deleteEntityBuckets_eq_self {resolution : BucketResolution} {cutoff : ℤ}
    (h : ∀ key row, t.entityBuckets.find key = some row →
      Tables.keptBucket resolution cutoff key.bucket = true) :
    t.deleteEntityBuckets resolution cutoff = t := by
  unfold Tables.deleteEntityBuckets
  rw [Table.filter_eq_self h]

theorem keptBuckets_iff {key : TimeBucketKey} : keptBuckets now key = true ↔
    Tables.keptBucket .minute (unixMillis now - minuteBucketRetentionMs) key = true ∧
      Tables.keptBucket .hour (unixMillis now - hourBucketRetentionMs) key = true := by
  unfold keptBuckets
  rw [Bool.and_eq_true]

/-- Without expired flows and buckets, a retention delete is one of applications or of observations,
or changes nothing. -/
theorem policyDelete_idle {f : Tables → Tables} (hf : f ∈ policyDeletes settings now)
    (hflows : ∀ id row, t.flows.find id = some row → row.expired settings now = false)
    (htraffic : ∀ key row, t.trafficBuckets.find key = some row → keptBuckets now key = true)
    (hentities : ∀ key row, t.entityBuckets.find key = some row →
      keptBuckets now key.bucket = true) :
    f t = t ∨ (∃ keep, f t = t.deleteApplications keep) ∨
      f t = t.deleteObservations (unixMillis now) := by
  have hexpired : ∀ cond : UInt64 → FlowRow → Bool, (∀ id row, row.expired settings now = false →
      cond id row = false) → t.deleteFlows cond = t :=
    fun cond hcond => deleteFlows_eq_self fun id row hrow => hcond id row (hflows id row hrow)
  have hbuckets : ∀ resolution cutoff, (∀ key, keptBuckets now key = true →
      Tables.keptBucket resolution cutoff key = true) →
        t.deleteTrafficBuckets resolution cutoff = t ∧
          t.deleteEntityBuckets resolution cutoff = t := by
    intro resolution cutoff hkeep
    exact ⟨deleteTrafficBuckets_eq_self fun key row hrow => hkeep key (htraffic key row hrow),
      deleteEntityBuckets_eq_self fun key row hrow => hkeep key.bucket (hentities key row hrow)⟩
  have hminute := hbuckets .minute _ fun key hkey => (keptBuckets_iff.mp hkey).1
  have hhour := hbuckets .hour _ fun key hkey => (keptBuckets_iff.mp hkey).2
  rw [Tables.policyDeletes_eq] at hf
  rcases List.mem_append.mp hf with hf | hf
  · unfold Tables.flowDeletes policyDeletes at hf
    cases henabled : settings.history.enabled <;> rw [henabled] at hf <;> fin_cases hf
    · exact .inl (hexpired _ fun _ row hrow => by simpa [FlowRow.expired, henabled] using hrow)
    · exact .inr (.inl ⟨_, rfl⟩)
    · exact .inl (hexpired _ fun _ row hrow => by simpa [FlowRow.expired, henabled] using hrow)
    · exact .inr (.inl ⟨_, rfl⟩)
  · fin_cases hf
    · exact .inr (.inr rfl)
    · exact .inl hminute.1
    · exact .inl hhour.1
    · exact .inl hminute.2
    · exact .inl hhour.2

/-- What there is nothing of stays so. -/
theorem Settled.traffic_delete (h : Settled settings now t) {f : Tables → Tables}
    (hf : f ∈ policyDeletes settings now) (ht : t'.traffic = t.traffic) :
    (f t').traffic = t.traffic := by
  obtain ⟨hobserved, htraffic, hentities⟩ := traffic_eq_iff.mp ht
  obtain ⟨hflows, -, -, hobservations⟩ := Tables.observed_eq_iff.mp hobserved
  rcases policyDelete_idle hf (hflows ▸ h.flows) (htraffic ▸ h.traffic) (hentities ▸ h.entities) with
    hself | ⟨keep, happlications⟩ | hobservation
  · rw [hself, ht]
  · rw [happlications]
    exact ht
  · have hall : (t'.observations.filter fun _ row => unixMillis now < row.expiresAtMs) =
        t'.observations := Table.filter_eq_self fun key row hrow =>
      decide_eq_true (h.observations key row (hobservations ▸ hrow))
    rw [hobservation, Tables.deleteObservations, hall, ← ht]

/-- The statements of a retention policy that is due. -/
def runPolicy (settings : Settings) (nowInstant : Instant) (now : SystemTime) : Action Unit := do
  Storage.modify fun db => { db with lastPolicyAt := some nowInstant }
  let count ← select fun t => t.flowStats.flowsTotal
  let overflow := count - settings.resources.maxFlowEntries
  if 0 < overflow then execute fun t => t.deleteOldestFlows overflow else pure ()
  (policyDeletes settings now).forM execute

theorem enforcePolicy_eq : enforcePolicy settings nowInstant now c =
    (if c.store.policyDue nowInstant then runPolicy settings nowInstant now else pure ())
      ⟨{ c.store with flowCapacity := settings.resources.maxFlowEntries }, c.faults⟩ := by
  unfold policyDue
  change (if c.store.lastPolicyAt.any fun last =>
      nowInstant.saturatingDurationSince last < policyInterval then pure ()
    else runPolicy settings nowInstant now) _ = _
  cases c.store.lastPolicyAt.any fun last =>
      decide (nowInstant.saturatingDurationSince last < policyInterval) <;> rfl

theorem Settled.keeps_runPolicy (h : Settled settings now t) :
    Keeps (runPolicy settings nowInstant now) fun db => db.tables.traffic = t.traffic := by
  have hdeletes : Keeps ((policyDeletes settings now).forM execute)
      fun db => db.tables.traffic = t.traffic :=
    .forM fun f hf => .execute fun db hdb => h.traffic_delete hf hdb
  refine .bind (.modify fun _ hdb => hdb) fun _ =>
    .bind_of (Q := fun count => count = t.flowStats.flowsTotal) .query ?_ ?_
  · intro db hdb
    exact .query (congrArg FlowStats.flowsTotal
      (Tables.observed_eq_iff.mp (traffic_eq_iff.mp hdb).1).2.2.1)
  · rintro _ rfl
    have hcapacity : ¬ 0 < t.flowStats.flowsTotal - settings.resources.maxFlowEntries :=
      not_lt.mpr h.capacity
    simp only [hcapacity, if_false]
    exact hdeletes

/-- A retention policy with nothing to remove removes nothing, wherever it stops. -/
theorem traffic_enforcePolicy
    (h : c.store.policyDue nowInstant = true → Settled settings now c.store.tables) :
    (enforcePolicy settings nowInstant now c).2.store.tables.traffic = c.store.tables.traffic := by
  rw [enforcePolicy_eq]
  split
  · next hdue => exact (h hdue).keeps_runPolicy _ rfl
  · rfl

/-- A batch without flows whose observations are not to be stored records nothing. -/
theorem tables_record_idle {interfaces : HashMap UInt32 String} {recorded : Recorded}
    {c' : Conn TrafficDb} (hflows : input.batch.flows = [])
    (hdomains : input.batch.domains.filterMap (observationRow input) = [])
    (hrun : record input flowId interfaces c = (.ok recorded, c')) :
    c'.store = c.store ∧ recorded.touched = [] := by
  have hends : Ends (record input flowId interfaces)
      (fun recorded s => s = c.store ∧ recorded.touched = []) c.store := by
    refine .transaction (.bind ((ends_observe c.store).mono ?_))
    rintro changed s ⟨hs, hchanged⟩
    have hnone : changed = [] := by
      refine List.eq_nil_iff_forall_not_mem.mpr fun place hplace => ?_
      obtain ⟨candidate, hcandidate, -⟩ := (hchanged place).mp hplace
      rw [hdomains] at hcandidate
      simp at hcandidate
    unfold observeAll at hs
    rw [hdomains] at hs
    subst hs hnone
    rw [hflows]
    exact .bind (.pure (.bind (.pure (.pure ⟨rfl, rfl⟩))))
  exact hends.of_eq hrun rfl

/-- With no flows, the rest of an interval writes only rates. -/
theorem keeps_finishInterval_idle {recorded : Recorded} (hflows : input.batch.flows = [])
    (htouched : recorded.touched = []) : Keeps (finishInterval input flowId recorded)
      fun db => db.tables.traffic = t.traffic := by
  have hselect : ∀ {α : Type} {f : Tables → α}, Keeps (select f)
      fun db => db.tables.traffic = t.traffic := .query
  unfold finishInterval
  rw [htouched]
  refine .bind (.foldlM (fun _ _ => .bind hselect fun _ => .pure) _) fun updated => ?_
  refine .bind ?_ fun _ => .bind ?_ fun _ => ?_
  · unfold storeBuckets
    rw [if_pos hflows]
    exact .pure
  · refine .bind .get fun db => ?_
    simp only
    split
    · exact .pure
    · refine .bind (.transaction (.bind (.forM fun _ _ => ?_) fun _ => .forM fun _ _ => ?_)) fun _ =>
        .modify fun _ h => h
      · exact .execute fun _ h => h
      · exact .execute fun _ h => h
  · split
    · refine .bind (.bind (.forM fun any _ => ?_) fun _ => hselect) fun _ => .pure
      split
      · exact hselect
      · exact .pure
    · exact .pure

/-- An idle interval does to flows, observations and buckets what its policy does. -/
theorem traffic_tryIngest_recorded {db : TrafficDb} {faults : List (Option String)}
    {recorded : Recorded} (hflows : input.batch.flows = [])
    (hdomains : input.batch.domains.filterMap (observationRow input) = [])
    (hrun : record input flowId (attached input db.interfaces) ⟨attachedDb input db, faults⟩ =
      (.ok recorded, c)) :
    (tryIngest flowId input ⟨db, faults⟩).2.store.tables.traffic =
      (enforcePolicy input.settings input.policyInstant input.nowSystem
        ⟨attachedDb input db, c.faults⟩).2.store.tables.traffic := by
  obtain ⟨hstore, htouched⟩ := tables_record_idle hflows hdomains hrun
  obtain ⟨store, faults'⟩ := c
  obtain rfl : store = attachedDb input db := hstore
  rw [tryIngest_eq, bind_apply, recordInterval_eq, bind_of_ok hrun, bind_apply]
  generalize enforcePolicy input.settings input.policyInstant input.nowSystem
    ⟨attachedDb input db, faults'⟩ = enforced
  obtain ⟨e | ⟨⟩, c'⟩ := enforced
  · rfl
  · exact keeps_finishInterval_idle hflows htouched c' rfl

/-- An idle interval leaves flows, observations and buckets as they are. -/
theorem traffic_tryIngest_idle {db : TrafficDb} {faults : List (Option String)}
    (hflows : input.batch.flows = [])
    (hdomains : input.batch.domains.filterMap (observationRow input) = [])
    (hsettled : db.policyDue input.policyInstant = true →
      Settled input.settings input.nowSystem db.tables) :
    (tryIngest flowId input ⟨db, faults⟩).2.store.tables.traffic = db.tables.traffic := by
  rcases tryIngest_cases input flowId db faults with ⟨recorded, c, hrun, -⟩ | ⟨-, htables⟩
  · rw [traffic_tryIngest_recorded hflows hdomains hrun]
    exact traffic_enforcePolicy hsettled
  · rw [htables]

end Idle

/-! ## Runs -/

section Runs

variable {flowId : FlowKey → UInt64} {s : Observer} {input : LiveInput} {event : ObserverEvent}
  {faults : List (Option String)} {t : Tables}

/-- Observations change the rows of their own kind only. -/
theorem find_observe {observed : List Candidate} {key : ObservationKey}
    (h : ∀ c ∈ observed, c.1.evidence ≠ key.evidence) :
    (t.observe observed).observations.find key = t.observations.find key := by
  unfold Tables.observe
  induction observed generalizing t with
  | nil => rfl
  | cons c observed ih =>
    rw [List.foldl_cons, ih fun c' hc' => h c' (List.mem_cons_of_mem _ hc')]
    unfold Tables.storeObservation
    refine Table.find_upsert_of_ne ?_
    rintro rfl
    exact h c List.mem_cons_self rfl

/-- The observations of the event are those that were stored, if the interval got through. -/
theorem observations_ingest {s : LiveDb} : ∀ o ∈ (s.ingest flowId input faults).1.observations,
    o ∈ domainEvents input.toIngestInput ∧
      ∃ recorded c, record input.toIngestInput flowId
        (attached input.toIngestInput s.db.interfaces)
        ⟨attachedDb input.toIngestInput s.db, faults⟩ = (.ok recorded, c) := by
  intro o ho
  unfold LiveDb.ingest at ho
  cases hrun : runInterval flowId input.toIngestInput ⟨s.db, faults⟩ with
  | mk result c =>
    rw [hrun] at ho
    cases result with
    | error e => simp at ho
    | ok result =>
      refine ⟨ho, ?_⟩
      obtain ⟨recorded, c₁, hrecord, -⟩ := bind_eq_ok.mp hrun
      rw [recordInterval_eq] at hrecord
      obtain ⟨recorded', c₂, hrecorded, -⟩ := bind_eq_ok.mp hrecord
      exact ⟨recorded', c₂, hrecorded⟩

/-- A batch of observed kinds of evidence leaves the rows of the other kinds. -/
theorem find_observeAll_off {key : ObservationKey}
    (hoff : s.settings.domains.observes key.evidence = false)
    (hobserves : ∀ c ∈ input.batch.domains.filterMap (observationRow input.toIngestInput),
      s.settings.domains.observes c.1.evidence = true) :
    (observeAll (s.under input).toIngestInput s.live.db.tables).observations.find key =
      s.live.db.tables.observations.find key := by
  refine find_observe fun c hc heq => ?_
  have hon := hobserves c hc
  rw [heq, hoff] at hon
  simp at hon

theorem honoured_ingest (hquiet : Quiet flowId s (.ingest input faults)) :
    IntervalRecord.Honoured {
      settings := s.settings
      before := s.live.db.tables
      after := (s.live.ingest flowId (s.under input) faults).2.db.tables
      observations := (s.live.ingest flowId (s.under input) faults).1.observations } := by
  have hcases := tryIngest_cases (s.under input).toIngestInput flowId s.live.db faults
  constructor
  · intro hdisabled
    simp only [db_ingest]
    rcases hcases with ⟨recorded, c, hrun, -⟩ | ⟨-, htables⟩
    · obtain ⟨hflows, hdomains, hsettled⟩ := (hquiet ⟨recorded, c, hrun⟩).2 hdisabled
      exact traffic_tryIngest_idle hflows hdomains hsettled
    · rw [htables]
  · intro key row hoff hrow
    simp only [db_ingest] at hrow
    rcases hcases with ⟨recorded, c, hrun, hrest⟩ | ⟨-, htables⟩
    · have hobserves := (hquiet ⟨recorded, c, hrun⟩).1
      have hobservations := (ends_record_associates.of_eq hrun rfl).observations
      have hstored : ∀ key row, c.store.tables.observations.find key = some row →
          s.settings.domains.observes key.evidence = false →
            s.live.db.tables.observations.find key = some row := by
        intro key row hrow hoff
        rw [hobservations, attachedDb, find_observeAll_off hoff hobserves] at hrow
        exact hrow
      exact hrest Tables.stable_observations hstored key row hrow hoff
    · rw [htables] at hrow
      exact hrow
  · intro id row' hrow d hd hoff
    simp only [db_ingest] at hrow
    rcases hcases with ⟨recorded, c, hrun, hrest⟩ | ⟨-, htables⟩
    · have hobserves := (hquiet ⟨recorded, c, hrun⟩).1
      have hstored : ∀ id row, c.store.tables.flows.find id = some row →
          c.store.tables.flows.find id = some row := fun _ _ h => h
      rcases row_recorded hrun (hrest Tables.stable_flows hstored id row' hrow) with
        ⟨place, -, hdomains, -⟩ | ⟨row, hold, hdomains, -⟩
      · rw [hdomains] at hd
        obtain ⟨candidate, hmem, rfl, -⟩ := Tables.mem_associateAddress hd
        have hfind := Table.find_eq_some_iff.mpr (List.mem_filter.mp hmem).1
        rw [find_observeAll_off hoff hobserves] at hfind
        exact Or.inr ⟨candidate, hfind, rfl⟩
      · exact Or.inl ⟨row, hold, hdomains ▸ hd⟩
    · rw [htables] at hrow
      exact Or.inl ⟨row', hrow, hd⟩
  · intro o ho
    obtain ⟨hevent, hrun⟩ := observations_ingest o ho
    obtain ⟨observation, hobservation, hrow⟩ := List.mem_filterMap.mp hevent
    obtain ⟨candidate, hcandidate, rfl⟩ := Option.map_eq_some_iff.mp hrow
    exact (hquiet hrun).1 candidate (List.mem_filterMap.mpr ⟨observation, hobservation, hcandidate⟩)

/-- In a run whose batches bring nothing that is switched off, every interval does what the
switches say. -/
theorem switches_honoured (hr : (observers flowId (Quiet flowId)).Reachable s) :
    ∀ r ∈ s.intervals, r.Honoured := by
  apply hr.invariant (P := fun s => ∀ r ∈ s.intervals, r.Honoured)
  · rintro s ⟨-, hintervals⟩
    simp [hintervals]
  · rintro s _ hs ⟨event, hquiet, rfl⟩
    have hchange : ∀ settings nowInstant now faults,
        (s.changeSettings settings nowInstant now faults).intervals = s.intervals := by
      intro settings nowInstant now faults
      unfold Observer.changeSettings
      simp only
      split
      · rfl
      · split <;> rfl
    cases event with
    | putSettings body nowInstant now faults =>
      change ∀ r ∈ (s.changeSettings body nowInstant now faults).intervals, r.Honoured
      rw [hchange]
      exact hs
    | patchSettings patch nowInstant now faults =>
      change ∀ r ∈ (s.changeSettings (patch.apply s.settings) nowInstant now faults).intervals,
        r.Honoured
      rw [hchange]
      exact hs
    | ingest input faults =>
      intro r hmem
      rcases List.mem_append.mp hmem with hmem | hmem
      · exact hs r hmem
      · obtain rfl := List.mem_singleton.mp hmem
        exact honoured_ingest hquiet

end Runs

/-! ## Settings that say no -/

def freshObserver : Observer where
  live.db := TrafficDb.restart {} 65536

/-- Observers of everything but TLS handshakes. -/
def withoutTls : Observer :=
  freshObserver.next (fun _ => 7)
    (.patchSettings { domains := { tlsSni := some false } } 5 1700000000000000000 [])

theorem switches_honoured_lookedUp :
    (withoutTls.next (fun _ => 7) (.ingest { lookedUp with sequence := 1 } [])).intervals.length = 1 ∧
    ∀ r ∈ (withoutTls.next (fun _ => 7) (.ingest { lookedUp with sequence := 1 } [])).intervals,
      r.Honoured := by
  have hquiet : Quiet (fun _ => 7) withoutTls (.ingest { lookedUp with sequence := 1 } []) := by
    intro _
    constructor
    · decide +kernel
    · intro hdisabled
      have henabled : withoutTls.settings.enabled = true := by decide +kernel
      rw [henabled] at hdisabled
      simp at hdisabled
  constructor
  · decide +kernel
  · exact switches_honoured (.step (.step (.init ⟨rfl, rfl⟩)
      ⟨.patchSettings { domains := { tlsSni := some false } } 5 1700000000000000000 [], trivial, rfl⟩)
      ⟨.ingest { lookedUp with sequence := 1 } [], hquiet, rfl⟩)

/-- Collection and all domain observation switched off. -/
def switchedOff : Observer :=
  freshObserver.next (fun _ => 7)
    (.patchSettings { enabled := some false, domains := { enabled := some false } } 5
      1700000000000000000 [])

/-- A lookup is stored and put on the live stream though its kind is switched off. -/
theorem switched_off_still_observes : ¬ ∀ s : Observer,
    (observers (fun _ => 7) fun _ _ => True).Reachable s → ∀ r ∈ s.intervals, r.Honoured := by
  intro hall
  have hr : (observers (fun _ => 7) fun _ _ => True).Reachable
      (switchedOff.next (fun _ => 7) (.ingest { lookedUp with sequence := 1 } [])) :=
    .step (.step (.init ⟨rfl, rfl⟩) ⟨_, trivial, rfl⟩) ⟨_, trivial, rfl⟩
  have hoff : ∀ r ∈ (switchedOff.next (fun _ => 7)
      (.ingest { lookedUp with sequence := 1 } [])).intervals,
      r.settings.domains.observes .dns = false ∧ r.observations.map (·.evidence) = [.dns] := by
    decide +kernel
  obtain ⟨r, hr'⟩ : ∃ r, r ∈ (switchedOff.next (fun _ => 7)
      (.ingest { lookedUp with sequence := 1 } [])).intervals := ⟨_, List.mem_singleton.mpr rfl⟩
  obtain ⟨hdns, hlive⟩ := hoff r hr'
  obtain ⟨o, ho, hevidence⟩ := List.mem_map.mp (hlive ▸ List.mem_singleton.mpr rfl)
  have hon := (hall _ hr r hr').live o ho
  rw [hevidence, hdns] at hon
  simp at hon

end ZimaScope
