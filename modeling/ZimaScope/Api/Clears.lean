import ZimaScope.Api.Exports
import ZimaScope.Db.Records

/-! # History clears

A clear deletes seven tables one after the other, stops at the first delete that
fails, and then forgets what it remembered of them all the same. The rates in
memory stay those of the table, and a clear is all or nothing, over every run
whose clears leave no rows behind.
-/

namespace ZimaScope

open Storage

/-- The tables of a history clear, in the order in which it deletes them. -/
inductive HistoryTable
  | flows | observations | trafficBuckets | entityBuckets | entityRates | applications | exports
  deriving DecidableEq, Repr

def Db.withTables (db : Db) (tables : Tables) : Db := { db with traffic := { db.traffic with tables } }

namespace HistoryTable

def IsEmpty : HistoryTable → Db → Prop
  | flows, db => db.traffic.tables.flows = ∅
  | observations, db => db.traffic.tables.observations = ∅
  | trafficBuckets, db => db.traffic.tables.trafficBuckets = ∅
  | entityBuckets, db => db.traffic.tables.entityBuckets = ∅
  | entityRates, db => db.traffic.tables.entityRates = ∅
  | applications, db => db.traffic.tables.applications = ∅
  | exports, db => db.exports = ∅

def Unchanged : HistoryTable → Db → Db → Prop
  | flows, db, db' => db'.traffic.tables.flows = db.traffic.tables.flows
  | observations, db, db' => db'.traffic.tables.observations = db.traffic.tables.observations
  | trafficBuckets, db, db' => db'.traffic.tables.trafficBuckets = db.traffic.tables.trafficBuckets
  | entityBuckets, db, db' => db'.traffic.tables.entityBuckets = db.traffic.tables.entityBuckets
  | entityRates, db, db' => db'.traffic.tables.entityRates = db.traffic.tables.entityRates
  | applications, db, db' => db'.traffic.tables.applications = db.traffic.tables.applications
  | exports, db, db' => db'.exports = db.exports

def all : List HistoryTable :=
  [flows, observations, trafficBuckets, entityBuckets, entityRates, applications, exports]

/-- The statement of a clear that deletes the table. -/
def delete : HistoryTable → Db → Db
  | flows, db => db.withTables (db.traffic.tables.deleteFlows fun _ _ => true)
  | observations, db => db.withTables { db.traffic.tables with observations := ∅ }
  | trafficBuckets, db => db.withTables { db.traffic.tables with trafficBuckets := ∅ }
  | entityBuckets, db => db.withTables { db.traffic.tables with entityBuckets := ∅ }
  | entityRates, db => db.withTables { db.traffic.tables with entityRates := ∅ }
  | applications, db => db.withTables { db.traffic.tables with applications := ∅ }
  | exports, db => { db with exports := ∅ }

/-- How many statements of a clear come before. -/
def position (table : HistoryTable) : ℕ := all.idxOf table

end HistoryTable

/-- The clear gets as far as the table. -/
def Deletes (faults : List (Option String)) (table : HistoryTable) : Prop :=
  ∀ fault ∈ faults.take (table.position + 1), fault = none

/-- What a clear audits when it is done. -/
def clearEntry (now : SystemTime) : AuditEntry := ⟨now, "history.clear", "completed"⟩

/-- A clear at a time leaves no rows, or every row and no record that it is done. -/
def AllOrNothing (now : SystemTime) (db db' : Db) : Prop :=
  (∀ table : HistoryTable, table.IsEmpty db') ∨
    (∀ table : HistoryTable, table.Unchanged db db') ∧ clearEntry now ∉ db'.audit.getLast?

/-- Every table that a clear does not get to has no rows. -/
def ClearsWhole (db : Db) : StoreEvent → Prop
  | .clearHistory _ faults => ∀ table, Deletes faults table ∨ table.IsEmpty db
  | _ => True

section Clear

variable {db : Db} {now : SystemTime} {faults : List (Option String)}

theorem deleteAll_flows {t : Tables} : (t.deleteFlows fun _ _ => true).flows = ∅ := by
  rw [Tables.flows_deleteFlows]
  ext1
  exact List.filter_eq_nil_iff.mpr fun _ _ => by simp

theorem clearStatements_eq : Db.clearStatements = HistoryTable.all.map HistoryTable.delete := rfl

/-- Without its flows a database has the other tables as they were. -/
theorem isEmpty_deleteFlows {table : HistoryTable} (h : table ≠ .flows) :
    table.IsEmpty (HistoryTable.flows.delete db) ↔ table.IsEmpty db := by
  have hbuckets : (db.traffic.tables.deleteFlows fun _ _ => true).buckets =
      db.traffic.tables.buckets := Tables.buckets_deleteFlows
  simp only [Tables.buckets, Prod.mk.injEq] at hbuckets
  cases table with
  | flows => exact absurd rfl h
  | observations =>
    have hobservations : (db.traffic.tables.deleteFlows fun _ _ => true).observations =
        db.traffic.tables.observations :=
      Tables.frame_foldl (g := Tables.observations) (f := Tables.onDelete) fun _ _ _ => rfl
    exact iff_of_eq (congrArg (· = ∅) hobservations)
  | trafficBuckets => exact iff_of_eq (congrArg (· = ∅) hbuckets.1)
  | entityBuckets => exact iff_of_eq (congrArg (· = ∅) hbuckets.2.1)
  | entityRates => exact iff_of_eq (congrArg (· = ∅) hbuckets.2.2)
  | applications => exact iff_of_eq (congrArg (· = ∅) Tables.applications_deleteFlows)
  | exports => exact Iff.rfl

/-- A delete empties its table, and leaves the others as they are. -/
theorem isEmpty_delete {table table' : HistoryTable} (h : table ≠ table') :
    table.IsEmpty (table'.delete db) ↔ table.IsEmpty db := by
  cases table' with
  | flows => exact isEmpty_deleteFlows h
  | _ =>
    cases table with
    | _ => first | exact Iff.rfl | exact absurd rfl h

theorem isEmpty_delete_self (table : HistoryTable) : table.IsEmpty (table.delete db) := by
  cases table with
  | flows => exact deleteAll_flows
  | _ => rfl

theorem all_eq (table : HistoryTable) : ∃ before after,
    HistoryTable.all = before ++ table :: after ∧ before.length = table.position ∧
      table ∉ before ∧ table ∉ after := by
  refine ⟨HistoryTable.all.take table.position, HistoryTable.all.drop (table.position + 1), ?_⟩
  cases table <;> decide

/-- The statements of a clear leave no rows in the tables that they get to. -/
theorem isEmpty_clear (table : HistoryTable) :
    table.IsEmpty (Db.clearStatements.forM (Storage.execute ApiError.ofStorage) ⟨db, faults⟩).2.store ↔
      Deletes faults table ∨ table.IsEmpty db := by
  obtain ⟨before, after, hall, hlength, hbefore, hafter⟩ := all_eq table
  have hother : ∀ tables : List HistoryTable, table ∉ tables →
      ∀ g ∈ tables.map HistoryTable.delete, ∀ db, table.IsEmpty (g db) ↔ table.IsEmpty db := by
    intro tables hnot g hg db
    obtain ⟨table', htable', rfl⟩ := List.mem_map.mp hg
    refine isEmpty_delete ?_
    rintro rfl
    exact hnot htable'
  rw [clearStatements_eq, hall, List.map_append, List.map_cons,
    forM_execute_iff_ran (fun _ => isEmpty_delete_self table) (hother before hbefore)
      (hother after hafter), List.length_map, hlength]
  rfl

variable {flowId : FlowKey → UInt64}

theorem clearHistory_eq : db.next flowId (.clearHistory now faults) =
    Db.clearMemory now (Db.clearStatements.forM (Storage.execute ApiError.ofStorage) ⟨db, faults⟩).1
      (Db.clearStatements.forM (Storage.execute ApiError.ofStorage) ⟨db, faults⟩).2.store := rfl

theorem isEmpty_clearHistory (table : HistoryTable) :
    table.IsEmpty (db.next flowId (.clearHistory now faults)) ↔
      Deletes faults table ∨ table.IsEmpty db := by
  rw [← isEmpty_clear table, clearHistory_eq]
  cases table <;> rfl

/-- Whatever became of its statements, a clear is recorded as completed. -/
theorem clearEntry_mem_audit :
    clearEntry now ∈ (db.next flowId (.clearHistory now faults)).audit.getLast? := by
  rw [clearHistory_eq]
  exact List.getLast?_concat

theorem allOrNothing_iff : AllOrNothing now db (db.next flowId (.clearHistory now faults)) ↔
    ClearsWhole db (.clearHistory now faults) := by
  unfold AllOrNothing ClearsWhole
  simp only [isEmpty_clearHistory]
  constructor
  · rintro (h | ⟨-, hrecord⟩)
    · exact h
    · exact absurd clearEntry_mem_audit hrecord
  · exact Or.inl

end Clear

/-! ## Over whole runs -/

section Runs

variable {flowId : FlowKey → UInt64} {db : Db} {event : StoreEvent}

theorem traffic_ingest {input : IngestInput} {faults : List (Option String)} :
    (db.ingest flowId input faults).traffic =
      (TrafficDb.tryIngest flowId input ⟨db.traffic, faults⟩).2.store := by
  unfold Db.ingest Db.onTraffic
  rcases TrafficDb.tryIngest flowId input ⟨db.traffic, faults⟩ with ⟨_ | _, _⟩ <;> rfl

theorem traffic_createExport {request : CreateExportRequest} {context : ExportContext}
    {clock : ExportClock} {faults : List (Option String)} :
    (Db.createExport request context clock ⟨db, faults⟩).2.store.traffic = db.traffic := by
  rcases Db.store_createExport request context clock db faults with h | h | ⟨-, row, h⟩
  · rw [h]
  · rw [h]
    rfl
  · rw [h]
    rfl

theorem traffic_deleteExport {id : String} {now : SystemTime} {faults : List (Option String)} :
    (Db.deleteExport id now ⟨db, faults⟩).2.store.traffic = db.traffic := by
  have hkeeps : Keeps (Db.deleteExport id now) fun s => s.traffic = db.traffic := by
    refine .bind (.statement fun _ h => h) fun removed => ?_
    split
    · exact .modify fun _ h => h
    · exact fun _ h => h
  exact hkeeps ⟨db, faults⟩ rfl

/-- The rates in memory stay those of the table. -/
theorem rates_next (h : db.traffic.RatesStored) (hcond : ClearsWhole db event) :
    (db.next flowId event).traffic.RatesStored := by
  cases event with
  | ingest input faults =>
    change (db.ingest flowId input faults).traffic.RatesStored
    rw [traffic_ingest]
    exact keeps_tryIngest_rates ⟨db.traffic, faults⟩ h
  | saveSettings settings nowInstant now faults =>
    have hnext : (db.traffic.next flowId (.saveSettings settings nowInstant now faults)).RatesStored :=
      ratesStored_next h trivial
    exact hnext
  | createExport request context clock faults =>
    change (Db.createExport request context clock ⟨db, faults⟩).2.store.traffic.RatesStored
    rw [traffic_createExport]
    exact h
  | deleteExport id now faults =>
    change (Db.deleteExport id now ⟨db, faults⟩).2.store.traffic.RatesStored
    rw [traffic_deleteExport]
    exact h
  | clearHistory now faults =>
    have hempty : HistoryTable.entityRates.IsEmpty (db.next flowId (.clearHistory now faults)) :=
      (isEmpty_clearHistory .entityRates).mpr (hcond .entityRates)
    intro key
    exact congrArg (fun rates => rates.find key) hempty.symm
  | restart flowCapacity exportTtl => exact fun _ => rfl

/-- The rates remembered are those stored after every operation, and every clear is all or
nothing, exactly as long as no clear leaves rows in a table that it does not get to. -/
theorem whole_clears_keep_rates (hr : (stores flowId ClearsWhole).Reachable db) :
    db.traffic.RatesStored ∧ ∀ now faults,
      AllOrNothing now db (db.next flowId (.clearHistory now faults)) ↔
        ClearsWhole db (.clearHistory now faults) := by
  refine ⟨?_, fun now faults => allOrNothing_iff⟩
  apply hr.invariant (P := fun db => db.traffic.RatesStored)
  · rintro _ ⟨tables, exports, flowCapacity, exportTtl, rfl⟩
    exact fun _ => rfl
  · rintro db _ hdb ⟨event, hcond, rfl⟩
    exact rates_next hdb hcond

end Runs

/-- A flow with its rate, beside an export of an earlier process. -/
def measuredInterval : IngestInput :=
  { oneUpdate with rates := (∅ : Table EntityKey (ℤ × ℤ)).upsert (.flow 7) fun _ => (0, 2400) }

def openedDb : Db :=
  Db.restart {} ((∅ : Table String ExportRow).upsert "exp-1" fun _ =>
    ⟨.csv, none, 1700000000123, 1700086400123, 0, false, "text/csv", ""⟩) 65536 (fromSecs 86400)

def measuredDb : Db := openedDb.next (fun _ => 7) (.ingest measuredInterval [])

theorem reachable_measuredDb {cond : Db → StoreEvent → Prop}
    (h : cond openedDb (.ingest measuredInterval [])) :
    (stores (fun _ => 7) cond).Reachable measuredDb :=
  .step (.init ⟨_, _, _, _, rfl⟩) ⟨.ingest measuredInterval [], h, rfl⟩

theorem whole_clears_keep_rates_measured : measuredDb.traffic.RatesStored ∧
    AllOrNothing 0 measuredDb (measuredDb.next (fun _ => 7) (.clearHistory 0 [])) := by
  have hstep := whole_clears_keep_rates (reachable_measuredDb trivial)
  refine ⟨hstep.1, (hstep.2 0 []).mpr fun table => .inl ?_⟩
  intro fault hfault
  simp at hfault

/-- The second delete fails: the flows are gone, the rates are forgotten but stored, and the clear
is recorded as completed. -/
theorem failed_clear_not_whole : ¬ ∀ db : Db, (stores (fun _ => 7) fun _ _ => True).Reachable db →
    db.traffic.RatesStored ∧ ∀ now faults,
      AllOrNothing now db (db.next (fun _ => 7) (.clearHistory now faults)) := by
  intro h
  have hr : (stores (fun _ => 7) fun _ _ => True).Reachable measuredDb := reachable_measuredDb trivial
  have hrates := (h _ (.step hr
    ⟨.clearHistory 0 [none, some "disk I/O error"], trivial, rfl⟩)).1 (.flow 7)
  have hstored : (measuredDb.next (fun _ => 7)
      (.clearHistory 0 [none, some "disk I/O error"])).traffic.tables.entityRates.find (.flow 7) =
        some (0, 2400) := by
    decide +kernel
  rw [hstored] at hrates
  exact absurd hrates (by decide +kernel)

end ZimaScope
