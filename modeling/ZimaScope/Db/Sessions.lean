import ZimaScope.Db.Invariants

/-! # Retention across restarts

A row leaves the active state by an update that ends its flow, and only the
process that reported the flow sends one. What the current process has reported
is kept beside the database, in a list that a restart empties.
-/

namespace ZimaScope

open TrafficDb Storage

/-- A database, and what the collector of the current process has reported. -/
structure Session where
  db : TrafficDb
  reported : List Sighting := []

/-- What happens to a database; any statement may fail, and a process that ends in the middle
is one whose statement fails and that starts anew. -/
inductive SessionEvent
  | ingest (input : IngestInput) (faults : List (Option String))
  | saveSettings (settings : Settings) (nowInstant : Instant) (now : SystemTime)
      (faults : List (Option String))
  | restart (flowCapacity : ℕ)

section Sessions

variable (flowId : FlowKey → UInt64)

/-- The collector has reported the flow active, and not ended since. -/
def Live (reported : List Sighting) (id : UInt64) : Prop :=
  ∃ last, (sightingsOf flowId id reported).getLast? = some last ∧ last.state = .active

def Session.next (s : Session) : SessionEvent → Session
  | .ingest input faults =>
    ⟨(tryIngest flowId input ⟨s.db, faults⟩).2.store, s.reported ++ input.batch.flows⟩
  | .saveSettings settings nowInstant now faults =>
    ⟨(saveSettings settings nowInstant now ⟨s.db, faults⟩).2.store, s.reported⟩
  | .restart flowCapacity => ⟨TrafficDb.restart s.db.tables flowCapacity, []⟩

/-- The runs of events that meet a condition, from an empty database. -/
def sessions (cond : Session → SessionEvent → Prop) : System Session where
  init s := s.db.tables = {} ∧ s.reported = []
  step s s' := ∃ event, cond s event ∧ s' = s.next flowId event

/-- The event leaves no row active whose flow the process does not know as active: at a
restart every row has ended, and a batch that is lost ends no flow of an active row. -/
def Accounted (s : Session) : SessionEvent → Prop
  | .ingest input faults =>
    (∃ e c, record input flowId (attached input s.db.interfaces) ⟨attachedDb input s.db, faults⟩ =
        (.error e, c)) →
      ∀ id row, s.db.tables.flows.find id = some row → row.state = .active →
        ∀ last, (sightingsOf flowId id input.batch.flows).getLast? = some last → last.state = .active
  | .saveSettings .. => True
  | .restart _ => ∀ id row, s.db.tables.flows.find id = some row → row.state ≠ .active

/-- What retention is to leave: flows that are past it are live, and only live flows count
as active. -/
structure Effective (reported : List Sighting) (settings : Settings) (now : SystemTime)
    (t : Tables) : Prop where
  kept : ∀ id row, t.flows.find id = some row →
    row.lastSeenMs < unixMillis now - settings.history.retentionDays * msPerDay →
      Live flowId reported id
  counted : ∃ ids : List UInt64, ids.Nodup ∧ t.flowStats.activeFlows = ids.length ∧
    ∀ id ∈ ids, Live flowId reported id

/-- Every retention policy that runs, and runs to its end, is effective. -/
def RetentionEffective (s : Session) : Prop :=
  (∀ input faults recorded c, recordInterval flowId input ⟨s.db, faults⟩ = (.ok recorded, c) →
    input.settings.history.enabled = true → s.db.policyDue input.policyInstant = true →
      Effective flowId (s.reported ++ input.batch.flows) input.settings input.nowSystem
        c.store.tables) ∧
  ∀ settings nowInstant now faults c,
    saveSettings settings nowInstant now ⟨s.db, faults⟩ = (.ok (), c) →
      settings.history.enabled = true → s.db.policyDue nowInstant = true →
        Effective flowId s.reported settings now c.store.tables

end Sessions

/-! ## Active rows -/

section Active

variable {flowId : FlowKey → UInt64} {reported flows : List Sighting} {id : UInt64} {t : Tables}

/-- Every active row is of a live flow, and the counters are exact. -/
structure ActiveLive (flowId : FlowKey → UInt64) (reported : List Sighting) (t : Tables) : Prop where
  stats : t.StatsExact
  live : ∀ id row, t.flows.find id = some row → row.state = .active → Live flowId reported id

theorem stable_activeLive : Tables.Stable (ActiveLive flowId reported) where
  delete t cond h :=
    ⟨Tables.deleteFlows_stats h.stats, Tables.stable_flows.delete t cond h.live⟩
  expire _ _ h := ⟨h.stats, h.live⟩
  other t t' ht h :=
    ⟨Tables.kept_statsExact.other t t' ht h.stats, Tables.stable_flows.other t t' ht h.live⟩

theorem live_append (h : ∀ last, (sightingsOf flowId id flows).getLast? = some last →
    last.state = .active) (hlive : (sightingsOf flowId id flows).getLast? = none →
      Live flowId reported id) : Live flowId (reported ++ flows) id := by
  unfold Live sightingsOf at *
  rw [List.filter_append, List.getLast?_append]
  cases hlast : (flows.filter fun update => flowId update.key = id).getLast? with
  | none => simpa [hlast] using hlive
  | some last => exact ⟨last, rfl, h last hlast⟩

theorem state_storeAll {input : IngestInput} {interfaces : HashMap UInt32 String}
    {old : Option FlowRow} {updates : List Sighting} {row : FlowRow}
    (h : storeAll input interfaces old updates = some row) :
    (∀ last, updates.getLast? = some last → row.state = last.state) ∧
      (updates.getLast? = none → old = some row) := by
  induction updates using List.reverseRecOn with
  | nil => exact ⟨by simp, fun _ => h⟩
  | append_singleton updates update _ =>
    unfold storeAll at h
    rw [List.foldl_append, List.foldl_cons, List.foldl_nil] at h
    obtain rfl := Option.some.inj h
    constructor
    · intro last hlast
      obtain rfl : update = last := by simpa using hlast
      exact Sighting.state_storeIn ..
    · simp

/-- The active rows, counted. -/
theorem activeFlows_eq (h : t.StatsExact) : t.flowStats.activeFlows =
    ((t.flows.filter fun _ row => row.state = .active).rows.map Prod.fst).length := by
  have hones : ((t.flows.filter fun _ row => row.state = .active).total fun _ _ => (1 : ℤ)) =
      ((t.flows.filter fun _ row => row.state = .active).rows.map Prod.fst).length := by
    unfold Table.total
    rw [List.map_const', List.sum_replicate, List.length_map]
    simp
  rw [← hones, Table.total_filter, show t.flowStats = t.recount from h]
  unfold Tables.recount sqlBool
  simp only [decide_eq_true_eq]

/-- A retention policy that runs to its end on tables whose active rows are live. -/
theorem ActiveLive.effective {settings : Settings} {nowInstant : Instant}
    {now : SystemTime} {c c' : Conn TrafficDb} (h : ActiveLive flowId reported c.store.tables)
    (hrun : enforcePolicy settings nowInstant now c = (.ok (), c'))
    (henabled : settings.history.enabled = true) (hdue : c.store.policyDue nowInstant = true) :
    Effective flowId reported settings now c'.store.tables := by
  have henforced : ActiveLive flowId reported c'.store.tables :=
    (keeps_enforcePolicy stable_activeLive).of_eq hrun h
  have hstore : c'.store = c.store.enforced settings nowInstant now :=
    ends_enforcePolicy.of_eq hrun rfl
  constructor
  · intro id row hrow hold
    apply henforced.live id row hrow
    rw [hstore] at hrow
    unfold enforced at hrow
    rw [if_pos hdue] at hrow
    simp only [Tables.flows_enforced, Table.find_filter] at hrow
    have hkept := (Option.filter_eq_some_iff.mp hrow).2
    simp only [Tables.keptFlow, FlowRow.expired, FlowRow.ended, henabled, hold, Bool.and_eq_true,
      Bool.not_eq_true'] at hkept
    simpa using hkept.2
  · refine ⟨_, Table.nodup _, activeFlows_eq henforced.stats, ?_⟩
    intro id hid
    obtain ⟨⟨id', row⟩, hmem, rfl⟩ := List.mem_map.mp hid
    obtain ⟨hrow, hactive⟩ := Tables.mem_rows_filter.mp hmem
    exact henforced.live id' row hrow (by simpa using hactive)

/-- The active rows after a first transaction that gets through. -/
theorem activeLive_recorded {input : IngestInput} {interfaces : HashMap UInt32 String}
    {recorded : Recorded} {c c' : Conn TrafficDb} (h : ActiveLive flowId reported c.store.tables)
    (hrun : record input flowId interfaces c = (.ok recorded, c')) :
    ActiveLive flowId (reported ++ input.batch.flows) c'.store.tables := by
  refine ⟨(keeps_record Tables.kept_statsExact).of_eq hrun h.stats, fun id row hrow hactive => ?_⟩
  have hstores := (ends_record.of_eq hrun rfl).1
  have hfind := congrArg (fun t => t.find id) hstores.rows
  rw [Tables.find_undomained, hrow, find_storedFlows] at hfind
  obtain ⟨hlast, hnone⟩ := state_storeAll hfind.symm
  apply live_append
  · intro last hsome
    exact (hlast last hsome).symm.trans hactive
  · intro hnil
    have hold := hnone hnil
    change c.store.tables.undomained.find id = _ at hold
    rw [Tables.find_undomained] at hold
    obtain ⟨old, hfind, heq⟩ := Option.map_eq_some_iff.mp hold
    have hstate : old.undomained.state = row.undomained.state := congrArg FlowRow.state heq
    exact h.live id old hfind (hstate.trans hactive)

/-- The active rows after an interval whose first transaction gets through, or ends no flow. -/
theorem activeLive_ingest {s : Session} {input : IngestInput} {faults : List (Option String)}
    (h : ActiveLive flowId s.reported s.db.tables) (hcond : Accounted flowId s (.ingest input faults)) :
    ActiveLive flowId (s.reported ++ input.batch.flows)
      (tryIngest flowId input ⟨s.db, faults⟩).2.store.tables := by
  rw [tryIngest_eq, bind_apply, recordInterval_eq, bind_apply]
  generalize hrun : record input flowId (attached input s.db.interfaces)
    ⟨attachedDb input s.db, faults⟩ = run
  obtain ⟨e | recorded, c⟩ := run
  · have hstore : c.store = attachedDb input s.db := store_of_transaction_error hrun
    simp only [hstore]
    refine ⟨h.stats, fun id row hrow hactive => live_append ?_ fun _ => h.live id row hrow hactive⟩
    exact hcond ⟨e, c, hrun⟩ id row hrow hactive
  · have hrecorded := activeLive_recorded (c := ⟨attachedDb input s.db, faults⟩) h hrun
    have hrest : Keeps ((enforcePolicy input.settings input.policyInstant input.nowSystem >>= fun _ =>
        pure recorded) >>= finishInterval input flowId)
          fun db => ActiveLive flowId (s.reported ++ input.batch.flows) db.tables :=
      .bind (.bind (keeps_enforcePolicy stable_activeLive) fun _ => .pure)
        fun _ => keeps_finishInterval stable_activeLive
    exact hrest c hrecorded

theorem activeLive_next {s : Session} {event : SessionEvent} (h : ActiveLive flowId s.reported s.db.tables)
    (hcond : Accounted flowId s event) :
    ActiveLive flowId (s.next flowId event).reported (s.next flowId event).db.tables := by
  cases event with
  | ingest input faults => exact activeLive_ingest h hcond
  | saveSettings settings nowInstant now faults =>
    exact keeps_saveSettings stable_activeLive ⟨s.db, faults⟩ h
  | restart flowCapacity =>
    exact ⟨h.stats, fun id row hrow hactive => absurd hactive (hcond id row hrow)⟩

theorem activeLive_reachable {s : Session} (hr : (sessions flowId (Accounted flowId)).Reachable s) :
    ActiveLive flowId s.reported s.db.tables := by
  apply hr.invariant (P := fun s => ActiveLive flowId s.reported s.db.tables)
  · rintro s ⟨htables, -⟩
    rw [htables]
    exact ⟨rfl, fun id row hrow => by simp [Table.find_empty] at hrow⟩
  · rintro s _ hs ⟨event, hcond, rfl⟩
    exact activeLive_next hs hcond

/-- In a run whose restarts find every row ended and whose lost batches end no active row,
retention is effective. -/
theorem retention_effective {s : Session}
    (hr : (sessions flowId (Accounted flowId)).Reachable s) : RetentionEffective flowId s := by
  have hs := activeLive_reachable hr
  constructor
  · intro input faults recorded c hrun henabled hdue
    rw [recordInterval_eq] at hrun
    obtain ⟨recorded', c₁, hrecord, hrest⟩ := bind_eq_ok.mp hrun
    obtain ⟨⟨⟩, c₂, henforce, hend⟩ := bind_eq_ok.mp hrest
    obtain ⟨-, rfl⟩ := Prod.ext_iff.mp hend
    have hrecorded := activeLive_recorded (c := ⟨attachedDb input s.db, faults⟩) hs hrecord
    have hstores := (ends_record.of_eq hrecord rfl).1
    apply hrecorded.effective henforce henabled
    unfold policyDue at hdue ⊢
    rw [hstores.live]
    exact hdue
  · intro settings nowInstant now faults c hrun henabled hdue
    obtain ⟨⟨⟩, c₁, hsave, henforce⟩ := bind_eq_ok.mp hrun
    have hsaved : c₁.store = s.db := by
      have hends : Ends (Storage.execute .ofStorage id : TrafficDb.Action Unit)
          (fun _ db => db = s.db) s.db := .execute rfl
      exact hends.of_eq hsave rfl
    rw [← hsaved] at hs hdue
    exact hs.effective henforce henabled hdue

end Active

/-! ## A daemon that starts again -/

def freshSession : Session := ⟨TrafficDb.restart {} 65536, []⟩

/-- One flow, and then a restart. -/
def restartedSession : Session :=
  (freshSession.next (fun _ => 7) (.ingest oneUpdate [])).next (fun _ => 7) (.restart 65536)

/-- Eight days later, without traffic. -/
def quietInterval : IngestInput :=
  { lanInterval {} [] with nowSystem := 1700000000123456789 + 8 * 24 * 60 * 60 * 1000000000 }

theorem retention_effective_oneUpdate :
    RetentionEffective (fun _ => 7) (freshSession.next (fun _ => 7) (.ingest oneUpdate [])) := by
  refine retention_effective (.step (.init ⟨rfl, rfl⟩) ⟨.ingest oneUpdate [], ?_, rfl⟩)
  intro _ id row hrow
  simp [freshSession, TrafficDb.restart, Table.find_empty] at hrow

/-- The flow of the process before is kept as active, for good. -/
theorem restart_keeps_active_row : ¬ ∀ s : Session,
    (sessions (fun _ => 7) fun _ _ => True).Reachable s → RetentionEffective (fun _ => 7) s := by
  intro hall
  have hr : (sessions (fun _ => 7) fun _ _ => True).Reachable restartedSession :=
    .step (.step (.init ⟨rfl, rfl⟩) ⟨.ingest oneUpdate [], trivial, rfl⟩)
      ⟨.restart 65536, trivial, rfl⟩
  obtain ⟨recorded, c, hrun⟩ := exists_of_isOk
    (x := recordInterval (fun _ => 7) quietInterval) (c := ⟨restartedSession.db, []⟩)
    (by decide +kernel)
  have heffective := (hall _ hr).1 quietInterval [] recorded c hrun rfl (by decide +kernel)
  have hc : c = (recordInterval (fun _ => 7) quietInterval ⟨restartedSession.db, []⟩).2 := by
    rw [hrun]
  have hseen : (c.store.tables.flows.find 7).map FlowRow.lastSeenMs = some 1700000000123 := by
    rw [hc]
    decide +kernel
  obtain ⟨row, hrow, hlast⟩ := Option.map_eq_some_iff.mp hseen
  obtain ⟨last, hlive, -⟩ := heffective.kept 7 row hrow (by rw [hlast]; decide +kernel)
  simp [restartedSession, Session.next, sightingsOf, quietInterval, lanInterval] at hlive

end ZimaScope
