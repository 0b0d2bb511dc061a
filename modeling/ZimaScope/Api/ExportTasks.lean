import ZimaScope.Api.Clears

/-! # Export tasks

The exports that are to be there: created, and not deleted, cleared or expired
since. The table holds just these, each under its own id, as long as the counter
of a new process does not come to an id that is stored and no stored export
expires.
-/

namespace ZimaScope

open Storage

/-- A database, and the exports that are to be in it. -/
structure TaskLog where
  db : Db
  tasks : List (String × ExportRow)

instance (faults : List (Option String)) (table : HistoryTable) : Decidable (Deletes faults table) :=
  inferInstanceAs (Decidable (∀ fault ∈ faults.take (table.position + 1), fault = none))

/-- What a creation is to store: its queries succeed, and no fault stops the insert. -/
def createdTask (db : Db) (request : CreateExportRequest) (context : ExportContext)
    (clock : ExportClock) (faults : List (Option String)) : Option (String × ExportRow) :=
  match Db.exportRow request context clock ⟨db, faults⟩ with
  | (.ok row, c) => if c.faults.headD none = none then some (db.nextId, row) else none
  | (.error _, _) => none

/-- The last policy run is long enough ago. -/
def policyDue (db : Db) (nowInstant : Instant) : Bool :=
  !db.traffic.lastPolicyAt.any fun last =>
    nowInstant.saturatingDurationSince last < TrafficDb.policyInterval

section Tasks

variable (flowId : FlowKey → UInt64)

/-- The time of the policy run that an event gets through. -/
def policyRun (db : Db) : StoreEvent → Option SystemTime
  | .ingest input faults =>
    if policyDue db input.policyInstant ∧
        (TrafficDb.recordInterval flowId input ⟨db.traffic, faults⟩).1.isOk then
      some input.nowSystem
    else none
  | .saveSettings settings nowInstant now faults =>
    if policyDue db nowInstant ∧
        (TrafficDb.saveSettings settings nowInstant now ⟨db.traffic, faults⟩).1.isOk then
      some now
    else none
  | _ => none

/-- A creation adds its export, a deletion and a clear remove theirs, and a policy run those whose
content has expired. -/
def TaskLog.next (s : TaskLog) (event : StoreEvent) : TaskLog where
  db := s.db.next flowId event
  tasks :=
    match event with
    | .createExport request context clock faults =>
      s.tasks ++ (createdTask s.db request context clock faults).toList
    | .deleteExport id _ faults =>
      if faults.headD none = none then s.tasks.filter fun task => task.1 ≠ id else s.tasks
    | .clearHistory _ faults => if Deletes faults .exports then [] else s.tasks
    | event =>
      match policyRun flowId s.db event with
      | some now => s.tasks.filter fun task => unixMillis now < task.2.expiresAtMs
      | none => s.tasks

/-- The runs of events that meet a condition, from any file. -/
def taskLogs (cond : Db → StoreEvent → Prop) : System TaskLog where
  init s := ∃ tables exports flowCapacity exportTtl,
    s = ⟨Db.restart tables exports flowCapacity exportTtl, exports.rows⟩
  step s s' := ∃ event, cond s.db event ∧ s' = s.next flowId event

/-- The stored exports are those that are to be there, each under an id of its own. -/
structure TaskLog.Kept (s : TaskLog) : Prop where
  unique : (s.tasks.map Prod.fst).Nodup
  stored : ∀ id row, s.db.exports.find id = some row ↔ (id, row) ∈ s.tasks

/-- Reading an id changes nothing, and answers the content of the export created under it before
it expires. -/
def TaskLog.ReadsOwn (s : TaskLog) : Prop :=
  ∀ id now faults, (Db.exportContent id now ⟨s.db, faults⟩).2.store = s.db ∧
    ∀ content, (Db.exportContent id now ⟨s.db, faults⟩).1 = .ok content →
      ∃ row, (id, row) ∈ s.tasks ∧ content.bytes = row.content ∧ unixMillis now < row.expiresAtMs

/-- A creation whose queries succeed comes to an id that is not stored, and a policy run finds no
stored export that has expired. -/
def TaskSafe (db : Db) : StoreEvent → Prop
  | .createExport request context clock faults =>
    ∀ task ∈ createdTask db request context clock faults, db.exports.find task.1 = none
  | event => ∀ now ∈ policyRun flowId db event, ∀ id row, db.exports.find id = some row →
    unixMillis now < row.expiresAtMs

end Tasks

section Steps

variable {flowId : FlowKey → UInt64} {s : TaskLog}

theorem TaskLog.Kept.of_same {s' : TaskLog} (h : s.Kept) (hexports : s'.db.exports = s.db.exports)
    (htasks : s'.tasks = s.tasks) : s'.Kept := by
  constructor
  · rw [htasks]
    exact h.unique
  · rw [hexports, htasks]
    exact h.stored

/-! ## Creation -/

section Creation

variable {request : CreateExportRequest} {context : ExportContext} {clock : ExportClock}
  {faults : List (Option String)}

/-- A creation that is to store nothing leaves the exports, as does one that is refused. -/
theorem createdTask_cases (request : CreateExportRequest) (context : ExportContext)
    (clock : ExportClock) (faults : List (Option String)) (db : Db) :
    createdTask db request context clock faults = none ∧
        (Db.createExport request context clock ⟨db, faults⟩).2.store.exports = db.exports ∨
      ∃ row, createdTask db request context clock faults = some (db.nextId, row) ∧
        (db.exports.find db.nextId = none →
          (Db.createExport request context clock ⟨db, faults⟩).2.store = db.stored row clock) ∧
        (db.exports.find db.nextId ≠ none →
          (Db.createExport request context clock ⟨db, faults⟩).2.store.exports = db.exports) := by
  unfold createdTask
  rcases Db.createExport_cases request context clock db faults with
    ⟨error, rest, hrow, hrun⟩ | ⟨row, rest, hrow, hrun⟩
  · rw [hrow, hrun]
    exact .inl ⟨rfl, rfl⟩
  · rw [hrow, hrun]
    by_cases hfault : rest.headD none = none
    · refine .inr ⟨row, if_pos hfault, fun hid => Db.storeExport_of_none hid hfault, fun hid => ?_⟩
      obtain ⟨error, hstore⟩ : ∃ error, Db.storeExport row clock ⟨db, rest⟩ =
          (.error error, ⟨db.counted, rest.tail⟩) := Db.storeExport_of_refused row clock (.inl hid)
      rw [hstore]
      rfl
    · obtain ⟨error, hstore⟩ : ∃ error, Db.storeExport row clock ⟨db, rest⟩ =
          (.error error, ⟨db.counted, rest.tail⟩) := Db.storeExport_of_refused row clock (.inr hfault)
      rw [hstore]
      exact .inl ⟨if_neg hfault, rfl⟩

theorem kept_createExport (h : s.Kept) :
    (s.next flowId (.createExport request context clock faults)).Kept ↔
      ∀ task ∈ createdTask s.db request context clock faults, s.db.exports.find task.1 = none := by
  rcases createdTask_cases request context clock faults s.db with
    ⟨hnone, hexports⟩ | ⟨row, hsome, hstored, hrefused⟩
  · have hkept : (s.next flowId (.createExport request context clock faults)).Kept := by
      refine h.of_same hexports ?_
      change s.tasks ++ (createdTask s.db request context clock faults).toList = s.tasks
      rw [hnone]
      exact List.append_nil _
    simp [hnone, hkept]
  · have htasks : (s.next flowId (.createExport request context clock faults)).tasks =
        s.tasks ++ [(s.db.nextId, row)] := by
      change s.tasks ++ (createdTask s.db request context clock faults).toList = _
      rw [hsome]
      rfl
    rw [hsome]
    simp only [Option.mem_some_iff, forall_eq']
    constructor
    · intro hkept
      by_contra hid
      obtain ⟨old, hold⟩ := Option.ne_none_iff_exists'.mp hid
      have hunique := hkept.unique
      rw [htasks, List.map_append, List.nodup_append] at hunique
      exact hunique.2.2 s.db.nextId (List.mem_map_of_mem ((h.stored _ _).mp hold)) s.db.nextId
        (by simp) rfl
    · intro hid
      have hdb : (s.next flowId (.createExport request context clock faults)).db =
          s.db.stored row clock := hstored hid
      have hfresh : ∀ other, (s.db.nextId, other) ∉ s.tasks := by
        intro other hother
        rw [← h.stored, hid] at hother
        cases hother
      constructor
      · rw [htasks, List.map_append, List.nodup_append]
        refine ⟨h.unique, by simp, ?_⟩
        rintro id hmem _ hnew rfl
        obtain ⟨⟨id', other⟩, hother, rfl⟩ := List.mem_map.mp hmem
        obtain rfl : id' = s.db.nextId := by simpa using hnew
        exact hfresh other hother
      · intro id row'
        rw [htasks, hdb]
        change (s.db.exports.upsert s.db.nextId fun _ => row).find id = some row' ↔ _
        rw [Table.find_upsert, List.mem_append, List.mem_singleton, ← h.stored]
        split
        · next heq =>
          subst heq
          rw [hid]
          simp [eq_comm]
        · next hne => simp [hne]

end Creation

/-! ## The other events -/

theorem exports_deleteExport {db : Db} {id : String} {now : SystemTime}
    {faults : List (Option String)} : (db.next flowId (.deleteExport id now faults)).exports =
      if faults.headD none = none then db.exports.filter fun key _ => key ≠ id else db.exports := by
  change (Db.deleteExport id now ⟨db, faults⟩).2.store.exports = _
  unfold Db.deleteExport
  cases hfault : faults.headD none with
  | none =>
    rw [bind_of_ok (statement_of_none hfault)]
    split <;> rfl
  | some error =>
    rw [bind_of_error (statement_of_some hfault)]
    rfl

theorem kept_deleteExport {id : String} {now : SystemTime} {faults : List (Option String)}
    (h : s.Kept) : (s.next flowId (.deleteExport id now faults)).Kept := by
  have hexports : (s.db.next flowId (.deleteExport id now faults)).exports =
      if faults.headD none = none then s.db.exports.filter fun key _ => key ≠ id else s.db.exports :=
    exports_deleteExport
  have htasks : (s.next flowId (.deleteExport id now faults)).tasks =
      if faults.headD none = none then s.tasks.filter fun task => task.1 ≠ id else s.tasks := rfl
  by_cases hfault : faults.headD none = none
  · rw [if_pos hfault] at hexports htasks
    constructor
    · rw [htasks]
      exact (List.filter_sublist.map Prod.fst).nodup h.unique
    · intro id' row
      change (s.db.next flowId (.deleteExport id now faults)).exports.find id' = some row ↔ _
      rw [hexports, htasks, Table.find_filter, Option.filter_eq_some_iff, List.mem_filter, h.stored]
  · rw [if_neg hfault] at hexports htasks
    exact h.of_same hexports htasks

theorem exports_clearHistory {db : Db} {now : SystemTime} {faults : List (Option String)} :
    (db.next flowId (.clearHistory now faults)).exports =
      if Deletes faults .exports then ∅ else db.exports := by
  have hempty : (db.next flowId (.clearHistory now faults)).exports = ∅ ↔
      Deletes faults .exports ∨ db.exports = ∅ := isEmpty_clearHistory .exports
  have hkept : (db.next flowId (.clearHistory now faults)).exports = db.exports ∨
      (db.next flowId (.clearHistory now faults)).exports = ∅ := by
    have hrun : Keeps (Db.clearStatements.forM (Storage.execute ApiError.ofStorage))
        fun s => s.exports = db.exports ∨ s.exports = ∅ := by
      rw [clearStatements_eq]
      refine .forM fun f hf => .execute fun s hs => ?_
      obtain ⟨table, -, rfl⟩ := List.mem_map.mp hf
      cases table with
      | exports => exact .inr rfl
      | _ => exact hs
    exact hrun ⟨db, faults⟩ (.inl rfl)
  split
  · next hdeletes => exact hempty.mpr (.inl hdeletes)
  · next hdeletes =>
    rcases hkept with h | h
    · exact h
    · rw [h, (hempty.mp h).resolve_left hdeletes]

theorem kept_clearHistory {now : SystemTime} {faults : List (Option String)} (h : s.Kept) :
    (s.next flowId (.clearHistory now faults)).Kept := by
  have hexports : (s.db.next flowId (.clearHistory now faults)).exports =
      if Deletes faults .exports then ∅ else s.db.exports := exports_clearHistory
  have htasks : (s.next flowId (.clearHistory now faults)).tasks =
      if Deletes faults .exports then [] else s.tasks := rfl
  by_cases hdeletes : Deletes faults .exports
  · rw [if_pos hdeletes] at hexports htasks
    constructor
    · rw [htasks]
      exact List.nodup_nil
    · intro id row
      change (s.db.next flowId (.clearHistory now faults)).exports.find id = some row ↔ _
      rw [hexports, htasks, Table.find_empty]
      simp
  · rw [if_neg hdeletes] at hexports htasks
    exact h.of_same hexports htasks

/-- What leaves the exports as they are keeps those that are to be there, should none expire. -/
theorem kept_iff_of_policyRun {event : StoreEvent} {ran : Option SystemTime} (h : s.Kept)
    (hexports : (s.db.next flowId event).exports = s.db.exports)
    (htasks : (s.next flowId event).tasks = match ran with
      | some now => s.tasks.filter fun task => unixMillis now < task.2.expiresAtMs
      | none => s.tasks) :
    (s.next flowId event).Kept ↔ ∀ now ∈ ran, ∀ id row, s.db.exports.find id = some row →
      unixMillis now < row.expiresAtMs := by
  cases ran with
  | none =>
    have hkept : (s.next flowId event).Kept := h.of_same hexports htasks
    simp [hkept]
  | some now =>
    simp only [Option.mem_some_iff, forall_eq'] at htasks ⊢
    constructor
    · intro hkept id row hrow
      have hmem := (hkept.stored id row).mp ((congrArg (fun t => t.find id) hexports).trans hrow)
      rw [htasks] at hmem
      exact of_decide_eq_true (List.mem_filter.mp hmem).2
    · intro hall
      refine h.of_same hexports (htasks.trans (List.filter_eq_self.mpr fun task htask => ?_))
      exact decide_eq_true (hall task.1 task.2 ((h.stored _ _).mpr htask))

/-- One event keeps the exports exactly if it is safe. -/
theorem kept_next (h : s.Kept) (event : StoreEvent) :
    (s.next flowId event).Kept ↔ TaskSafe flowId s.db event := by
  cases event with
  | ingest input faults =>
    refine kept_iff_of_policyRun h ?_ rfl
    change (s.db.ingest flowId input faults).exports = _
    unfold Db.ingest Db.onTraffic
    rcases TrafficDb.tryIngest flowId input ⟨s.db.traffic, faults⟩ with ⟨_ | _, _⟩ <;> rfl
  | saveSettings settings nowInstant now faults => exact kept_iff_of_policyRun h rfl rfl
  | createExport request context clock faults => exact kept_createExport h
  | deleteExport id now faults => simp [TaskSafe, policyRun, kept_deleteExport h]
  | clearHistory now faults => simp [TaskSafe, policyRun, kept_clearHistory h]
  | restart flowCapacity exportTtl => exact kept_iff_of_policyRun h rfl rfl

theorem TaskLog.Kept.readsOwn (h : s.Kept) : s.ReadsOwn := by
  intro id now faults
  have hanswer : ∀ content, (Db.exportContent id now ⟨s.db, faults⟩).1 = .ok content →
      ∃ row, s.db.exports.find id = some row ∧ content.bytes = row.content ∧
        unixMillis now < row.expiresAtMs := by
    intro content hcontent
    unfold Db.exportContent at hcontent
    obtain ⟨row, c, hquery, hcontent⟩ := fst_bind_eq_ok.mp hcontent
    cases hfault : faults.headD none with
    | none =>
      obtain ⟨hrow, -⟩ := Prod.mk.inj ((statement_of_none hfault).symm.trans hquery)
      obtain rfl := Except.ok.inj hrow
      cases hfind : s.db.exports.find id with
      | none =>
        simp [hfind, Storage.ofExcept] at hcontent
      | some row =>
        simp only [hfind] at hcontent
        split at hcontent
        · simp [Storage.ofExcept] at hcontent
        · next hexpires =>
          obtain rfl := Except.ok.inj hcontent
          exact ⟨row, rfl, rfl, not_le.mp hexpires⟩
    | some error => cases (statement_of_some hfault).symm.trans hquery
  refine ⟨?_, fun content hcontent => ?_⟩
  · have hread : ReadOnly (Db.exportContent id now) := by
      refine .bind .query fun row => ?_
      cases row with
      | none => exact .ofExcept
      | some row =>
        simp only
        split
        · exact .ofExcept
        · exact .pure
    exact hread ⟨s.db, faults⟩
  · obtain ⟨row, hrow, hbytes⟩ := hanswer content hcontent
    exact ⟨row, (h.stored id row).mp hrow, hbytes⟩

/-! ## Over whole runs -/

/-- Every stored export is there until it is deleted, cleared or expired, under an id that no other
has, and reading an id concerns it alone, exactly as long as no creation comes to an id of an
earlier process and no policy run to content that has expired. -/
theorem tasks_kept (hr : (taskLogs flowId (TaskSafe flowId)).Reachable s) :
    s.Kept ∧ s.ReadsOwn ∧ ∀ event, (s.next flowId event).Kept ↔ TaskSafe flowId s.db event := by
  have hkept : s.Kept := by
    apply hr.invariant (P := TaskLog.Kept)
    · rintro _ ⟨tables, exports, flowCapacity, exportTtl, rfl⟩
      exact ⟨exports.nodup, fun _ _ => Table.find_eq_some_iff⟩
    · rintro s _ hs ⟨event, hsafe, rfl⟩
      exact (kept_next hs event).mpr hsafe
  exact ⟨hkept, hkept.readsOwn, kept_next hkept⟩

end Steps

/-- A daemon on a new file, which keeps exports for a day. -/
def newLog : TaskLog := ⟨Db.restart {} ∅ 65536 (fromSecs 86400), []⟩

/-- An export of all flows. -/
def exportAll (now : SystemTime) : StoreEvent :=
  .createExport { format := .csv } ⟨∅, none, List.head?, id, fun _ => .ok ""⟩
    ⟨now, now, now, now, now⟩ []

theorem tasks_kept_exportAll : (newLog.next (fun _ => 7) (exportAll 0)).Kept :=
  (tasks_kept (.step (.init ⟨{}, ∅, 65536, fromSecs 86400, rfl⟩)
    ⟨exportAll 0, fun _ _ => rfl, rfl⟩)).1

/-- The first export of the next process is refused: its id is that of the first export before. -/
theorem restarted_counter_collides : ¬ ∀ s : TaskLog,
    (taskLogs (fun _ => 7) fun _ _ => True).Reachable s → s.Kept := by
  intro h
  have hr : (taskLogs (fun _ => 7) fun _ _ => True).Reachable
      (((newLog.next (fun _ => 7) (exportAll 0)).next (fun _ => 7)
        (.restart 65536 (fromSecs 86400))).next (fun _ => 7) (exportAll 60000000000)) :=
    .step (.step (.step (.init ⟨{}, ∅, 65536, fromSecs 86400, rfl⟩) ⟨exportAll 0, trivial, rfl⟩)
      ⟨.restart 65536 (fromSecs 86400), trivial, rfl⟩) ⟨exportAll 60000000000, trivial, rfl⟩
  exact absurd (h _ hr).unique (by decide +kernel)

end ZimaScope
