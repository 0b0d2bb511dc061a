import ZimaScope.Db.Atomicity
import ZimaScope.Db.Histories
import ZimaScope.Db.Records

/-! # Applications that flows refer to

A flow keeps its application through updates that carry none, and these do not
move the time the application was last seen, by which alone the retention policy
deletes it. No reference dangles as long as every policy that runs finds the
applications of the flows it keeps to be recent.
-/

namespace ZimaScope

open TrafficDb Storage

namespace Tables

/-- Whatever application a flow refers to is stored. -/
def NoDangling (t : Tables) : Prop :=
  ∀ id row app, t.flows.find id = some row → row.appId = some app →
    ∃ application, t.applications.find app = some application

/-- The applications of the flows that the retention policy keeps are within retention. -/
def ReferencesRecent (t : Tables) (settings : Settings) (now : SystemTime) : Prop :=
  settings.history.enabled = true → ∀ id row app application, t.flows.find id = some row →
    t.keptFlow settings now id row = true → row.appId = some app →
      t.applications.find app = some application →
        unixMillis now - settings.history.retentionDays * msPerDay ≤ application.lastSeenMs

/-- `application_comm`. -/
def applicationComm (t : Tables) (id : String) : Option String :=
  ((t.applications.find id).bind ApplicationRow.comm).filter fun comm => comm ≠ ""

/-- What is stored of the application comes with the record in a list, and is found by its id. -/
structure Shows (t : Tables) (record : FlowRecord) (app : String) (application : ApplicationRow) :
    Prop where
  stored : t.applications.find app = some application
  listed : record.application =
    some (app, application.name, if application.kind = "container" then "container" else "process")
  resolved : t.applicationComm app = application.comm.filter fun comm => comm ≠ ""

section References

variable {t t' : Tables} {settings : Settings} {now : SystemTime}

theorem NoDangling.shows (h : t.NoDangling) {id : UInt64} {record : FlowRecord} {app : String}
    (hrecord : recordOf t id = some record) (happ : record.row.appId = some app) :
    ∃ application, t.Shows record app application := by
  obtain ⟨row, hrow, rfl⟩ := Option.map_eq_some_iff.mp hrecord
  obtain ⟨application, hfind⟩ := h id row app hrow happ
  refine ⟨application, hfind, ?_, ?_⟩
  · change row.appId.map _ = _
    change row.appId = some app at happ
    simp [happ, hfind]
  · unfold applicationComm
    rw [hfind, Option.bind_some]

/-- Flows may leave, and their other columns change. -/
theorem NoDangling.of_flows (h : t.NoDangling) (happ : t'.applications = t.applications)
    (hflows : ∀ id row', t'.flows.find id = some row' →
      ∃ row, t.flows.find id = some row ∧ row.appId = row'.appId) : t'.NoDangling := by
  intro id row' app hrow' hid
  obtain ⟨row, hrow, hsame⟩ := hflows id row' hrow'
  rw [happ]
  exact h id row app hrow (hsame.trans hid)

theorem NoDangling.of_references (h : t.NoDangling) (hflows : t'.flows = t.flows)
    (happ : t'.applications = t.applications) : t'.NoDangling :=
  h.of_flows happ fun _ row' hrow' => ⟨row', hflows ▸ hrow', rfl⟩

theorem noDangling_congr (hflows : t'.flows = t.flows) (happ : t'.applications = t.applications) :
    t'.NoDangling ↔ t.NoDangling :=
  ⟨fun h => h.of_references hflows.symm happ.symm, fun h => h.of_references hflows happ⟩

theorem NoDangling.deleteFlows (h : t.NoDangling) (cond : UInt64 → FlowRow → Bool) :
    (t.deleteFlows cond).NoDangling := by
  refine h.of_flows applications_deleteFlows fun id row hrow => ⟨row, ?_, rfl⟩
  rw [flows_deleteFlows, Table.find_filter] at hrow
  exact (Option.filter_eq_some_iff.mp hrow).1

/-! ## A policy that is due -/

variable (settings now) in
/-- The applications that the policy keeps. -/
def keptApplication (t : Tables) (id : String) (row : ApplicationRow) : Bool :=
  if settings.history.enabled then
    !(row.lastSeenMs < unixMillis now - settings.history.retentionDays * msPerDay)
  else t.referenced id

variable (t settings now) in
/-- The tables without the flows that the policy deletes. -/
def retained : Tables :=
  (t.deleteOverflow settings).deleteFlows fun _ row => row.expired settings now

theorem flowDeletes_eq : flowDeletes settings now =
    [fun t => t.deleteFlows fun _ row => row.expired settings now,
      fun t => t.deleteApplications (t.keptApplication settings now)] := by
  unfold flowDeletes policyDeletes FlowRow.expired keptApplication
  cases settings.history.enabled <;> simp

theorem enforced_eq : t.enforced settings now = after (bucketDeletes now)
    ((t.retained settings now).deleteApplications
      ((t.retained settings now).keptApplication settings now)) := by
  unfold enforced
  rw [policyDeletes_eq, after_append, flowDeletes_eq]
  rfl

theorem applications_bucketDeletes : (after (bucketDeletes now) t).applications = t.applications := rfl

theorem applications_retained : (t.retained settings now).applications = t.applications :=
  applications_deleteFlows.trans applications_deleteOverflow

theorem find_retained {id : UInt64} : (t.retained settings now).flows.find id =
    (t.flows.find id).filter (t.keptFlow settings now id) := by
  unfold retained
  rw [flows_deleteFlows, flows_deleteOverflow, Table.filter_filter, Table.find_filter]
  rfl

theorem NoDangling.deleteOverflow (h : t.NoDangling) : (t.deleteOverflow settings).NoDangling := by
  unfold Tables.deleteOverflow
  split
  · exact h.deleteFlows _
  · exact h

theorem NoDangling.retained (h : t.NoDangling) : (t.retained settings now).NoDangling :=
  h.deleteOverflow.deleteFlows _

/-- With history off, the delete of applications asks whether they are referred to; with history
on, it does not. -/
theorem noDangling_deleteApplications_iff (h : t.NoDangling) :
    (t.deleteApplications (t.keptApplication settings now)).NoDangling ↔
      (settings.history.enabled = true → ∀ id row app application, t.flows.find id = some row →
        row.appId = some app → t.applications.find app = some application →
          unixMillis now - settings.history.retentionDays * msPerDay ≤ application.lastSeenMs) := by
  constructor
  · intro hkept henabled id row app application hrow happ hfind
    obtain ⟨application', hfind'⟩ := hkept id row app hrow happ
    change (t.applications.filter _).find app = _ at hfind'
    rw [Table.find_filter, hfind, Option.filter_eq_some_iff] at hfind'
    obtain ⟨hsame, hkeep⟩ := hfind'
    unfold keptApplication at hkeep
    simpa [henabled, Option.some.inj hsame] using hkeep
  · intro hrecent id row app hrow happ
    obtain ⟨application, hfind⟩ := h id row app hrow happ
    refine ⟨application, ?_⟩
    change (t.applications.filter _).find app = _
    rw [Table.find_filter, hfind, Option.filter_eq_some_iff]
    refine ⟨rfl, ?_⟩
    unfold keptApplication
    cases henabled : settings.history.enabled with
    | true => simpa using hrecent henabled id row app application hrow happ hfind
    | false =>
      simp only [Bool.false_eq_true, if_false]
      exact List.any_eq_true.mpr ⟨(id, row), Table.find_eq_some_iff.mp hrow, decide_eq_true happ⟩

theorem noDangling_retained_iff : (t.enforced settings now).NoDangling ↔
    ((t.retained settings now).deleteApplications
      ((t.retained settings now).keptApplication settings now)).NoDangling := by
  rw [enforced_eq]
  exact noDangling_congr flows_bucketDeletes applications_bucketDeletes

theorem noDangling_enforced_iff (h : t.NoDangling) :
    (t.enforced settings now).NoDangling ↔ t.ReferencesRecent settings now := by
  rw [noDangling_retained_iff, noDangling_deleteApplications_iff h.retained]
  unfold ReferencesRecent
  simp only [find_retained, applications_retained, Option.filter_eq_some_iff, and_imp]

/-- Wherever a policy stops that would leave no reference dangling, none dangles. -/
theorem noDangling_policyStarts (h : t.NoDangling) (hrecent : t.ReferencesRecent settings now) :
    ∀ t' ∈ starts (policyStatements settings now t) t, t'.NoDangling := by
  have hcapacity : ∀ t' ∈ starts (id :: (if 0 < t.overflow settings then
      [fun t' : Tables => t'.deleteOldestFlows (t.overflow settings)] else [])) t, t'.NoDangling := by
    refine forall_starts (fun f hf t' ht' => ?_) h
    rcases List.mem_cons.mp hf with rfl | hf
    · exact ht'
    · split at hf
      · obtain rfl := List.mem_singleton.mp hf
        exact ht'.deleteFlows _
      · cases hf
  have hoverflow : after (id :: (if 0 < t.overflow settings then
      [fun t' : Tables => t'.deleteOldestFlows (t.overflow settings)] else [])) t =
        t.deleteOverflow settings := after_capacity
  have hdeleted := noDangling_retained_iff.mp ((noDangling_enforced_iff h).mpr hrecent)
  intro t' ht'
  unfold policyStatements at ht'
  rw [policyDeletes_eq, ← List.cons_append, mem_starts_append, mem_starts_append] at ht'
  rcases ht' with ht' | ht' | ht'
  · exact hcapacity t' ht'
  · change t' ∈ starts (flowDeletes settings now) (after _ t) at ht'
    rw [hoverflow, flowDeletes_eq] at ht'
    rcases List.mem_cons.mp ht' with rfl | ht'
    · exact h.deleteOverflow
    · obtain rfl := List.mem_singleton.mp ht'
      exact h.retained
  · have hlater : ∀ f ∈ bucketDeletes now, ∀ t : Tables, t.NoDangling → (f t).NoDangling := by
      intro f hf t ht
      fin_cases hf <;> exact ht
    refine forall_starts hlater ?_ t' ht'
    change (after (flowDeletes settings now) (after _ t)).NoDangling
    rw [hoverflow, flowDeletes_eq]
    exact hdeleted

end References

end Tables

namespace TrafficDb

/-! ## What a batch leaves for the policy -/

section Staged

variable (input : IngestInput) (flowId : FlowKey → UInt64) (db : TrafficDb)

/-- The flows and applications as the updates of the batch leave them, associations aside, for the
policy to choose from. -/
def staged : Tables :=
  { expected input flowId db with
    applications := (registered input input.batch.flows db.tables).applications }

variable {input flowId db}

theorem appId_storeIn (update : Sighting) (interfaces : HashMap UInt32 String) (old : Option FlowRow) :
    (update.storeIn input interfaces old).appId =
      (update.resolved.map ResolvedApplication.id).or (old.bind FlowRow.appId) := by
  cases old with
  | none => exact (Option.or_none).symm
  | some old => rfl

/-- An application that is stored stays when another one is registered. -/
theorem exists_upsertApplication {t : Tables} {app : String} {application : ResolvedApplication}
    {firstSeen lastSeen : SystemTime} (h : ∃ stored, t.applications.find app = some stored) :
    ∃ stored, (t.upsertApplication application firstSeen lastSeen).applications.find app =
      some stored := by
  obtain ⟨stored, hfind⟩ := h
  unfold Tables.upsertApplication
  rw [Table.find_upsert]
  split
  · exact ⟨_, rfl⟩
  · exact ⟨stored, hfind⟩

/-- An update registers its application before it stores its flow. -/
theorem noDangling_storedFlows {interfaces : HashMap UInt32 String} {flows : List Sighting}
    {rows : Table UInt64 FlowRow} {t : Tables}
    (h : Tables.NoDangling { flows := rows, applications := t.applications }) :
    Tables.NoDangling {
      flows := storedFlows input flowId interfaces flows rows
      applications := (registered input flows t).applications } := by
  induction flows generalizing rows t with
  | nil => exact h
  | cons update flows ih =>
    let t' := update.resolved.elim t fun application => t.upsertApplication application
      (instantToSystem update.firstSeen input.nowInstant input.nowSystem)
      (instantToSystem update.lastSeen input.nowInstant input.nowSystem)
    have hstay : ∀ app, (∃ stored, t.applications.find app = some stored) →
        ∃ stored, t'.applications.find app = some stored := by
      intro app hstored
      unfold t'
      cases update.resolved with
      | none => exact hstored
      | some application => exact exists_upsertApplication hstored
    suffices hstep : Tables.NoDangling {
        flows := rows.upsert (flowId update.key) (update.storeIn input interfaces)
        applications := t'.applications } from ih hstep
    intro id row app hrow happ
    change (rows.upsert _ _).find id = some row at hrow
    rw [Table.find_upsert] at hrow
    split at hrow
    · obtain rfl := Option.some.inj hrow
      rw [appId_storeIn] at happ
      cases hresolved : update.resolved with
      | none =>
        rw [hresolved, Option.map_none, Option.none_or] at happ
        obtain ⟨old, hold, hid⟩ := Option.bind_eq_some_iff.mp happ
        exact hstay app (h (flowId update.key) old app hold hid)
      | some application =>
        rw [hresolved, Option.map_some, Option.some_or] at happ
        obtain rfl := Option.some.inj happ
        simp only [t', hresolved, Option.elim_some]
        exact ⟨_, Table.find_upsert_self⟩
    · exact hstay app (h id row app hrow happ)

theorem noDangling_staged (h : db.tables.NoDangling) : (staged input flowId db).NoDangling := by
  refine noDangling_storedFlows (h.of_flows rfl fun id row hrow => ?_)
  change (db.tables.flows.mapRows _).find id = _ at hrow
  rw [Table.find_mapRows] at hrow
  obtain ⟨old, hold, rfl⟩ := Option.map_eq_some_iff.mp hrow
  exact ⟨old, hold, rfl⟩

variable {stored : TrafficDb}

/-- The first transaction, when it ends, leaves what was foreseen. -/
structure Foreseen (input : IngestInput) (flowId : FlowKey → UInt64) (db stored : TrafficDb) :
    Prop where
  stores : Stores input flowId (attached input db.interfaces) (attachedDb input db)
    input.batch.flows stored
  applications : stored.tables.applications = (staged input flowId db).applications

namespace Foreseen

variable (h : Foreseen input flowId db stored)
include h

theorem find_staged (id : UInt64) : (staged input flowId db).flows.find id =
    (stored.tables.flows.find id).map FlowRow.undomained := by
  have hrows : (staged input flowId db).flows = stored.tables.undomained := h.stores.rows.symm
  rw [hrows]
  exact Tables.find_undomained

theorem policyDue_eq : stored.policyDue input.policyInstant = db.policyDue input.policyInstant := by
  unfold policyDue
  rw [h.stores.live]
  rfl

theorem keptFlow_eq (id : UInt64) (row : FlowRow) :
    stored.tables.keptFlow input.settings input.nowSystem id row =
      (staged input flowId db).keptFlow input.settings input.nowSystem id row.undomained := by
  apply Tables.keptFlow_congr
  · have hrows : (staged input flowId db).flows = stored.tables.undomained := h.stores.rows.symm
    unfold Tables.undomained at hrows ⊢
    rw [hrows]
    exact (Table.mapRows_mapRows stored.tables.flows (f := fun _ row => row.undomained)
      (g := fun _ row => row.undomained)).symm
  · rw [h.stores.drift]
    exact (add_sub_cancel_right _ _).symm

theorem noDangling (hdb : db.tables.NoDangling) : stored.tables.NoDangling := by
  have hstaged : (staged input flowId db).NoDangling := noDangling_staged hdb
  refine hstaged.of_flows h.applications ?_
  intro id row hrow
  refine ⟨row.undomained, ?_, rfl⟩
  rw [h.find_staged, hrow, Option.map_some]

theorem referencesRecent_iff : stored.tables.ReferencesRecent input.settings input.nowSystem ↔
    (staged input flowId db).ReferencesRecent input.settings input.nowSystem := by
  unfold Tables.ReferencesRecent
  rw [h.applications]
  constructor
  · intro hrecent henabled id row app application hrow hkept
    rw [h.find_staged] at hrow
    obtain ⟨old, hold, rfl⟩ := Option.map_eq_some_iff.mp hrow
    rw [← h.keptFlow_eq] at hkept
    exact hrecent henabled id old app application hold hkept
  · intro hrecent henabled id row app application hrow hkept
    refine hrecent henabled id row.undomained app application ?_ ?_
    · rw [h.find_staged, hrow, Option.map_some]
    · rw [← h.keptFlow_eq]
      exact hkept

end Foreseen

theorem foreseen_of_record {recorded : Recorded} {faults : List (Option String)} {c : Conn TrafficDb}
    (hrun : record input flowId (attached input db.interfaces) ⟨attachedDb input db, faults⟩ =
      (.ok recorded, c)) : Foreseen input flowId db c.store := by
  have happlications : Ends (record input flowId (attached input db.interfaces))
      (fun _ s => s.tables.applications = (staged input flowId db).applications)
      (attachedDb input db) := ends_record_applications
  exact ⟨(ends_record.of_eq hrun rfl).1, happlications.of_eq hrun rfl⟩

end Staged

/-! ## Whole runs -/

section Policies

variable {settings : Settings} {nowInstant : Instant} {now : SystemTime} {c : Conn TrafficDb}

/-- Whatever statement of a policy fails, no reference dangles that would not after the whole. -/
theorem noDangling_enforcePolicy (h : c.store.tables.NoDangling)
    (hrecent : c.store.policyDue nowInstant = true → c.store.tables.ReferencesRecent settings now) :
    (enforcePolicy settings nowInstant now c).2.store.tables.NoDangling := by
  refine Visits.leaves (P := Tables.NoDangling) visits_enforcePolicy ?_ ?_ c.faults
  · unfold enforced
    split
    · next hdue => exact (Tables.noDangling_enforced_iff h).mpr (hrecent hdue)
    · exact h
  · split
    · next hdue => exact Tables.noDangling_policyStarts h (hrecent hdue)
    · intro t ht
      cases ht

/-- A policy that runs to its end. -/
theorem noDangling_enforcePolicy_iff (h : c.store.tables.NoDangling) (hfaults : c.faults = []) :
    (enforcePolicy settings nowInstant now c).2.store.tables.NoDangling ↔
      (c.store.policyDue nowInstant = true → c.store.tables.ReferencesRecent settings now) := by
  refine ⟨fun hkept hdue => ?_, noDangling_enforcePolicy h⟩
  obtain ⟨db, faults⟩ := c
  obtain rfl : faults = [] := hfaults
  rw [visits_enforcePolicy.result] at hkept
  change (db.enforced settings nowInstant now).tables.NoDangling at hkept
  unfold enforced at hkept
  rw [if_pos hdue] at hkept
  exact (Tables.noDangling_enforced_iff h).mp hkept

theorem noDangling_saveSettings (h : c.store.tables.NoDangling)
    (hrecent : c.store.policyDue nowInstant = true → c.store.tables.ReferencesRecent settings now) :
    (saveSettings settings nowInstant now c).2.store.tables.NoDangling := by
  have hsave : saveSettings settings nowInstant now =
      execute id >>= fun _ => enforcePolicy settings nowInstant now := rfl
  rw [hsave]
  cases hfault : c.faults.headD none with
  | none =>
    rw [execute_then_of_none hfault]
    exact noDangling_enforcePolicy h hrecent
  | some error =>
    rw [execute_then_of_some hfault]
    exact h

end Policies

section Runs

variable {flowId : FlowKey → UInt64} {input : IngestInput} {db : TrafficDb}
  {faults : List (Option String)} {recorded : Recorded} {c : Conn TrafficDb}

/-- What an ingest does after its policy leaves the flows and the applications alone. -/
theorem noDangling_tryIngest_iff
    (hrun : record input flowId (attached input db.interfaces) ⟨attachedDb input db, faults⟩ =
      (.ok recorded, c)) :
    (tryIngest flowId input ⟨db, faults⟩).2.store.tables.NoDangling ↔
      (enforcePolicy input.settings input.policyInstant input.nowSystem c).2.store.tables.NoDangling := by
  rw [tryIngest_eq, bind_apply, recordInterval_eq, bind_of_ok hrun, bind_apply]
  generalize enforcePolicy input.settings input.policyInstant input.nowSystem c = run
  obtain ⟨error | ⟨⟩, c'⟩ := run
  · rfl
  · have hsame : Keeps (finishInterval input flowId recorded) fun s =>
        s.tables.flows = c'.store.tables.flows ∧
          s.tables.applications = c'.store.tables.applications := by
      refine keeps_finishInterval_of (P := fun t => t.flows = c'.store.tables.flows ∧
        t.applications = c'.store.tables.applications) ?_
      rintro t t' hobserved happ ⟨hflows, happlications⟩
      exact ⟨(Tables.observed_eq_iff.mp hobserved).1.trans hflows, happ.trans happlications⟩
    obtain ⟨hflows, happ⟩ := hsame c' ⟨rfl, rfl⟩
    exact Tables.noDangling_congr hflows happ

theorem noDangling_tryIngest (h : db.tables.NoDangling)
    (hrecent : db.policyDue input.policyInstant = true →
      (staged input flowId db).ReferencesRecent input.settings input.nowSystem) :
    (tryIngest flowId input ⟨db, faults⟩).2.store.tables.NoDangling := by
  rcases tryIngest_cases input flowId db faults with ⟨recorded, c, hrun, -⟩ | ⟨-, htables⟩
  · have hforeseen : Foreseen input flowId db c.store := foreseen_of_record hrun
    rw [noDangling_tryIngest_iff hrun]
    refine noDangling_enforcePolicy (hforeseen.noDangling h) fun hdue => ?_
    rw [hforeseen.policyDue_eq] at hdue
    exact hforeseen.referencesRecent_iff.mpr (hrecent hdue)
  · rw [htables]
    exact h

theorem noDangling_tryIngest_undisturbed (h : db.tables.NoDangling) :
    (tryIngest flowId input ⟨db, []⟩).2.store.tables.NoDangling ↔
      (db.policyDue input.policyInstant = true →
        (staged input flowId db).ReferencesRecent input.settings input.nowSystem) := by
  obtain ⟨recorded, stored, hrecord⟩ : ∃ recorded stored, Visits
      (record input flowId (attached input db.interfaces)) (attachedDb input db)
        [(attachedDb input db).tables] recorded stored := visits_record
  have hforeseen : Foreseen input flowId db stored := foreseen_of_record hrecord.result
  rw [noDangling_tryIngest_iff hrecord.result,
    noDangling_enforcePolicy_iff (hforeseen.noDangling h) rfl, hforeseen.policyDue_eq,
    hforeseen.referencesRecent_iff]

/-- A clear deletes the flows before the applications. -/
theorem noDangling_clearHistory (h : db.tables.NoDangling) :
    (TrafficDb.clearHistory ⟨db, faults⟩).2.store.tables.NoDangling := by
  have hrest : Keeps (clearDeletes.tail.forM execute)
      fun s => ∀ id, s.tables.flows.find id = none := by
    refine .forM fun f hf => ?_
    refine keeps_execute (P := fun t => ∀ id, t.flows.find id = none) fun t ht => ?_
    fin_cases hf <;> exact ht
  change ((execute (fun t => t.deleteFlows fun _ _ => true) >>= fun _ =>
    clearDeletes.tail.forM execute : Action Unit) ⟨db, faults⟩).2.store.tables.NoDangling
  cases hfault : faults.headD none with
  | none =>
    rw [execute_then_of_none hfault]
    intro id row app hrow
    rw [hrest _ fun id => ?_] at hrow
    · cases hrow
    · change (db.tables.deleteFlows _).flows.find id = none
      rw [Tables.flows_deleteFlows, Table.find_filter]
      exact Option.filter_eq_none_iff.mpr fun _ _ => by simp
  | some error =>
    rw [execute_then_of_some hfault]
    exact h

end Runs

/-- A policy that runs at this event finds the applications of the flows it keeps to be recent. -/
def ReferencesKept (flowId : FlowKey → UInt64) (db : TrafficDb) : DbEvent → Prop
  | .ingest input _ => db.policyDue input.policyInstant = true →
      (staged input flowId db).ReferencesRecent input.settings input.nowSystem
  | .saveSettings settings nowInstant now _ => db.policyDue nowInstant = true →
      db.tables.ReferencesRecent settings now
  | .clearHistory _ | .restart _ => True

end TrafficDb

/-- No statement of the event fails. -/
def DbEvent.Undisturbed : DbEvent → Prop
  | .ingest _ faults | .saveSettings _ _ _ faults | .clearHistory faults => faults = []
  | .restart _ => True

section Events

variable {flowId : FlowKey → UInt64} {db : TrafficDb} {event : DbEvent}

theorem noDangling_next (h : db.tables.NoDangling) (hcond : ReferencesKept flowId db event) :
    (db.next flowId event).tables.NoDangling := by
  cases event with
  | ingest input faults => exact noDangling_tryIngest h hcond
  | saveSettings settings nowInstant now faults => exact noDangling_saveSettings h hcond
  | clearHistory faults => exact noDangling_clearHistory h
  | restart flowCapacity => exact h

theorem referencesKept_of_noDangling (h : db.tables.NoDangling) (hevent : event.Undisturbed)
    (hnext : (db.next flowId event).tables.NoDangling) : ReferencesKept flowId db event := by
  cases event with
  | ingest input faults =>
    obtain rfl : faults = [] := hevent
    exact (noDangling_tryIngest_undisturbed h).mp hnext
  | saveSettings settings nowInstant now faults =>
    obtain rfl : faults = [] := hevent
    have hsaved : (enforcePolicy settings nowInstant now ⟨db, []⟩).2.store.tables.NoDangling := hnext
    exact (noDangling_enforcePolicy_iff h rfl).mp hsaved
  | clearHistory faults => trivial
  | restart flowCapacity => trivial

/-- In every run whose policies find the applications of the flows they keep to be recent, no
reference dangles, and what it refers to is listed and found; from there on, an event of which no
statement fails leaves no reference dangling if and only if its policy finds them so as well. -/
theorem references_kept (hr : (databases flowId (ReferencesKept flowId)).Reachable db) :
    db.tables.NoDangling ∧
      (∀ id record app, recordOf db.tables id = some record → record.row.appId = some app →
        ∃ application, db.tables.Shows record app application) ∧
      ∀ event : DbEvent, event.Undisturbed →
        ((db.next flowId event).tables.NoDangling ↔ ReferencesKept flowId db event) := by
  have h : db.tables.NoDangling := by
    apply hr.invariant (P := fun db => db.tables.NoDangling)
    · rintro _ ⟨flowCapacity, rfl⟩ id row app hrow
      change (∅ : Table UInt64 FlowRow).find id = some row at hrow
      rw [Table.find_empty] at hrow
      cases hrow
    · rintro db _ hdb ⟨event, hcond, rfl⟩
      exact noDangling_next hdb hcond
  refine ⟨h, fun id record app hrecord happ => h.shows hrecord happ, fun event hevent => ?_⟩
  exact ⟨referencesKept_of_noDangling h hevent, noDangling_next h⟩

end Events

/-- A process opens a connection. -/
def claimedInterval : IngestInput :=
  lanInterval {} [{ lanUpdate ⟨3, 300⟩ ⟨3, 300⟩ .active with
    resolved := some ⟨"exe:/usr/bin/curl", "process", "curl", some "/usr/bin/curl", "curl", 1000, none⟩ }]

def claimedDb : TrafficDb :=
  (TrafficDb.restart {} 65536).next (fun _ => 7) (.ingest claimedInterval [])

theorem references_kept_claimed : claimedDb.tables.NoDangling ∧
    (claimedDb.tables.flows.find 7).bind FlowRow.appId = some "exe:/usr/bin/curl" := by
  have hcond : ReferencesKept (fun _ => 7) (TrafficDb.restart {} 65536)
      (.ingest claimedInterval []) := by
    intro _ _ id row app application _ _ _ hfind
    have hrecent : ∀ r ∈ (staged claimedInterval (fun _ => 7)
        (TrafficDb.restart {} 65536)).applications.rows,
        unixMillis claimedInterval.nowSystem -
          claimedInterval.settings.history.retentionDays * msPerDay ≤ r.2.lastSeenMs := by
      decide +kernel
    exact hrecent _ (Table.find_eq_some_iff.mp hfind)
  exact ⟨(references_kept (.step (.init ⟨65536, rfl⟩) ⟨_, hcond, rfl⟩)).1, by decide +kernel⟩

/-- The connection still moves after eight days, and no update since named the process. -/
def unclaimedInterval : IngestInput :=
  { lanInterval {} [{ lanUpdate ⟨1, 100⟩ ⟨4, 400⟩ .active with lastSeen := 691200000000005 }] with
    nowInstant := 691200000000010
    nowSystem := 1700691200123456789
    policyInstant := 691200000000011 }

def outlivedDb : TrafficDb := claimedDb.next (fun _ => 7) (.ingest unclaimedInterval [])

/-- The policy deletes the application of a flow it keeps. -/
theorem outlived_application_dangles :
    ¬ ∀ (flowId : FlowKey → UInt64) (db : TrafficDb),
      (databases flowId fun _ _ => True).Reachable db → db.tables.NoDangling := by
  intro h
  have hr : (databases (fun _ => 7) fun _ _ => True).Reachable outlivedDb :=
    .step (.step (.init ⟨65536, rfl⟩) ⟨.ingest claimedInterval [], trivial, rfl⟩)
      ⟨.ingest unclaimedInterval [], trivial, rfl⟩
  have hrefers : (outlivedDb.tables.flows.find 7).bind FlowRow.appId = some "exe:/usr/bin/curl" := by
    decide +kernel
  have hgone : outlivedDb.tables.applications.find "exe:/usr/bin/curl" = none := by
    decide +kernel
  obtain ⟨row, hrow, happ⟩ := Option.bind_eq_some_iff.mp hrefers
  obtain ⟨application, hfind⟩ := h _ _ hr 7 row _ hrow happ
  rw [hgone] at hfind
  cases hfind

end ZimaScope
