import ZimaScope.Db.Deltas
import ZimaScope.Db.Live

/-! # Records of an interval

The record that an ingest reads back of a flow, from the tables before it and the
batch: the row its updates make, the associations of its address, and the
application as it is registered.
-/

namespace ZimaScope

open TrafficDb Storage

namespace Tables

variable {t : Tables}

theorem applications_insertFlow {id : UInt64} {row : FlowRow} :
    (t.insertFlow id row).applications = t.applications := by
  unfold insertFlow
  split <;> rfl

theorem applications_updateFlows {set : FlowRow → FlowRow} {cond : UInt64 → FlowRow → Bool} :
    (t.updateFlows set cond).applications = t.applications :=
  frame_foldl (g := applications) (f := fun t id row => t.onUpdate id row (set row)) fun _ _ _ => rfl

theorem applications_deleteFlows {cond : UInt64 → FlowRow → Bool} :
    (t.deleteFlows cond).applications = t.applications :=
  frame_foldl (g := applications) (f := onDelete) fun _ _ _ => rfl

theorem applications_deleteOverflow {settings : Settings} :
    (t.deleteOverflow settings).applications = t.applications := by
  unfold deleteOverflow
  split
  · exact applications_deleteFlows
  · rfl

/-- The applications the retention policy leaves, as far as flows refer to them. -/
theorem find_applications_enforced {settings : Settings} {now : SystemTime} {app : String}
    (href : (t.enforced settings now).referenced app = true) :
    (t.enforced settings now).applications.find app =
      (if settings.history.enabled then t.applications.filter fun _ row =>
        !(row.lastSeenMs < unixMillis now - settings.history.retentionDays * msPerDay)
      else t.applications).find app := by
  have hsame : ∀ {cond : UInt64 → FlowRow → Bool},
      ((t.deleteOverflow settings).deleteFlows cond).applications = t.applications :=
    applications_deleteFlows.trans applications_deleteOverflow
  cases henabled : settings.history.enabled with
  | true =>
    have happ : (t.enforced settings now).applications =
        ((t.deleteOverflow settings).deleteFlows fun _ row => row.ended && row.lastSeenMs <
          unixMillis now - settings.history.retentionDays * msPerDay).applications.filter
            fun _ row => !(row.lastSeenMs <
              unixMillis now - settings.history.retentionDays * msPerDay) := by
      unfold enforced policyDeletes
      rw [henabled]
      rfl
    rw [happ, hsame]
    rfl
  | false =>
    generalize hleft : (t.deleteOverflow settings).deleteFlows (fun _ row => row.ended) = left
    have henforced : (t.enforced settings now).flows = left.flows ∧
        (t.enforced settings now).applications =
          left.applications.filter fun id _ => left.referenced id := by
      unfold enforced policyDeletes
      rw [henabled]
      simp only [Bool.false_eq_true, if_false, after, List.cons_append, List.nil_append,
        List.foldl_cons, List.foldl_nil, hleft]
      exact ⟨rfl, rfl⟩
    unfold referenced at href
    rw [henforced.1] at href
    rw [henforced.2, ← hleft, hsame, Table.find_filter, hleft]
    unfold referenced
    rw [href]
    cases hfind : t.applications.find app <;> simp [Option.filter, hfind]

end Tables

section Next

variable (input : IngestInput) (flowId : FlowKey → UInt64) (db : TrafficDb)

/-- The applications that the updates of the batch register. -/
def registered (flows : List Sighting) (t : Tables) : Tables :=
  flows.foldl (fun t update => update.resolved.elim t fun application =>
    t.upsertApplication application
      (instantToSystem update.firstSeen input.nowInstant input.nowSystem)
      (instantToSystem update.lastSeen input.nowInstant input.nowSystem)) t

/-- The applications after an interval, as far as flows refer to them. -/
def nextApplications : Table String ApplicationRow :=
  let applications := (registered input input.batch.flows db.tables).applications
  if db.policyDue input.policyInstant && input.settings.history.enabled then
    applications.filter fun _ row => !(row.lastSeenMs <
      unixMillis input.nowSystem - input.settings.history.retentionDays * msPerDay)
  else applications

/-- The associations of a flow after an interval. -/
def nextDomains (id : UInt64) : List DomainRefDto :=
  match rewriteAddress input flowId id (db.tables.flows.find id) with
  | some place => associationsOf input db.tables place
  | none => (db.tables.flows.find id).elim [] FlowRow.domainsJson

/-- The record of a flow after an interval that keeps it. -/
def nextRecord (id : UInt64) : Option FlowRecord :=
  recordOf {
    flows := (expected input flowId db).flows.mapRows fun id row =>
      { row with domainsJson := nextDomains input flowId db id }
    applications := nextApplications input db } id

end Next

section Records

variable {input : IngestInput} {flowId : FlowKey → UInt64} {db stored : TrafficDb} {id : UInt64}

/-- What the first transaction makes of the applications. -/
theorem ends_record_applications {interfaces : HashMap UInt32 String} :
    Ends (record input flowId interfaces) (fun _ s =>
      s.tables.applications = (registered input input.batch.flows db.tables).applications) db := by
  have hobservations : Ends (storeObservations input)
      (fun _ s => s.tables.applications = db.tables.applications) db := by
    refine .foldlM (I := fun _ _ (s : TrafficDb) => s.tables.applications = db.tables.applications) ?_ rfl
    intro done observation later changed s _ hs
    refine .bind ?_
    unfold storeObservation
    simp only
    split
    · exact .pure (.pure hs)
    · exact .bind (ends_execute (.pure (.pure hs)))
  refine .transaction (.bind (hobservations.mono fun changed s₁ h₁ => ?_))
  have hassociate : Ends (changed.foldlM (associateFlows input) [])
      (fun _ s => s.tables.applications = db.tables.applications) s₁ := by
    refine .foldlM (I := fun _ _ (s : TrafficDb) => s.tables.applications = db.tables.applications) ?_ h₁
    intro done place later touched s _ hs
    exact .bind (ends_select (.bind (ends_execute (.bind (ends_select
      (.pure (Tables.applications_updateFlows.trans hs)))))))
  refine .bind (hassociate.mono fun touched s₂ h₂ => ?_)
  refine .bind (Ends.mono (Ends.foldlM (I := fun done _ (s : TrafficDb) =>
    s.tables.applications = (registered input done db.tables).applications) ?_ h₂)
      fun _ _ h => .pure h)
  intro done update later progress s _ hs
  have hcached : Ends (cachedDomains input update.key progress.2) (fun _ s' => s' = s) s := by
    unfold cachedDomains
    simp only
    split
    · exact .pure rfl
    · exact .bind (ends_select (.pure rfl))
  refine .bind (.bind (hcached.mono ?_))
  rintro ⟨domains, cache⟩ _ rfl
  unfold registered
  rw [List.foldl_append, List.foldl_cons, List.foldl_nil]
  cases update.resolved with
  | none =>
    exact .bind (ends_execute (.pure (.pure (Tables.applications_insertFlow.trans hs))))
  | some application =>
    have hupsert : ∀ {t t' : Tables} {firstSeen lastSeen : SystemTime},
        t.applications = t'.applications →
          (t.upsertApplication application firstSeen lastSeen).applications =
            (t'.upsertApplication application firstSeen lastSeen).applications := by
      intro t t' firstSeen lastSeen h
      unfold Tables.upsertApplication
      rw [h]
    exact .bind (ends_execute (.bind (ends_execute
      (.pure (.pure (Tables.applications_insertFlow.trans (hupsert hs)))))))

/-- What the first transaction leaves and the policy keeps is the next record. -/
theorem nextRecord_of_kept {record : FlowRecord}
    (hstores : Stores input flowId (attached input db.interfaces)
      { db with interfaces := attached input db.interfaces } input.batch.flows stored)
    (hassociates : Associates input flowId db.tables stored.tables)
    (happlications : stored.tables.applications =
      (registered input input.batch.flows db.tables).applications)
    (h : recordOf (keptOf input stored).tables id = some record) :
    nextRecord input flowId db id = some record := by
  obtain ⟨row, hrow, rfl⟩ := Option.map_eq_some_iff.mp h
  have hdue : stored.policyDue input.policyInstant = db.policyDue input.policyInstant := by
    unfold policyDue
    rw [hstores.live]
  have hstored : stored.tables.flows.find id = some row := by
    unfold keptOf enforced at hrow
    split at hrow
    · simp only [Tables.flows_enforced, Table.find_filter, Option.filter_eq_some_iff] at hrow
      exact hrow.1
    · exact hrow
  have hnext : ((expected input flowId db).flows.mapRows fun id row =>
      { row with domainsJson := nextDomains input flowId db id }).find id = some row := by
    have hrows := congrArg (fun t => t.find id) hstores.rows
    rw [Tables.find_undomained, hstored] at hrows
    have hdomains := hassociates.rows id
    rw [hstored] at hdomains
    have hsame : nextDomains input flowId db id = row.domainsJson := by
      unfold nextDomains
      cases hplace : rewriteAddress input flowId id (db.tables.flows.find id) with
      | some place =>
        rw [hplace] at hdomains
        exact (Option.some.inj hdomains).symm
      | none =>
        rw [hplace] at hdomains
        obtain ⟨old, hold, heq⟩ := Option.map_eq_some_iff.mp hdomains.symm
        rw [hold]
        exact heq
    rw [Table.find_mapRows]
    refine (congrArg (Option.map _) hrows.symm).trans ?_
    rw [Option.map_some, Option.map_some, hsame]
    rfl
  have hfind : ∀ app, row.appId = some app → (keptOf input stored).tables.applications.find app =
      (nextApplications input db).find app := by
    intro app happ
    have href : (keptOf input stored).tables.referenced app = true :=
      List.any_eq_true.mpr ⟨(id, row), Table.find_eq_some_iff.mp hrow, decide_eq_true happ⟩
    unfold keptOf enforced at href ⊢
    unfold nextApplications
    rw [hdue] at href ⊢
    cases hpolicy : db.policyDue input.policyInstant with
    | true =>
      simp only [hpolicy, if_true] at href ⊢
      rw [Tables.find_applications_enforced href, happlications]
      simp
    | false => simp [happlications]
  unfold nextRecord recordOf
  simp only
  rw [hnext, Option.map_some]
  cases happ : row.appId with
  | none => rfl
  | some app => simp only [Option.map_some, hfind app happ]

/-- What an interval that gets through has read: records as they are stored at its end, and for
subscribers the overview of the history. -/
structure Reads (input : IngestInput) (flowId : FlowKey → UInt64) (db : TrafficDb)
    (result : List FlowRecord × FlowStats) (db' : TrafficDb) : Prop where
  stored : ∀ record ∈ result.1, recordOf db'.tables record.id = some record
  next : ∀ record ∈ result.1, nextRecord input flowId db record.id = some record
  nodup : (result.1.map FlowRecord.id).Nodup
  overview : result.2 = if input.publish then db'.tables.flowStats else {}

theorem ends_readTick_overview {changed : List (IpAddr × ℤ)} {moved : List FlowRecord} :
    Ends (readTick changed moved) (fun overview s => overview = s.tables.flowStats) db := by
  refine .bind (Ends.mono (Ends.forM (I := fun _ (_ : TrafficDb) => True) ?_ trivial) ?_)
  · rintro done any later _ - -
    split
    · exact ends_select trivial
    · exact .pure trivial
  · rintro _ _ -
    exact ends_select rfl

theorem ends_runInterval : Ends (runInterval flowId input) (Reads input flowId db) db := by
  refine .bind (.bind (.modify (.bind (.get (.bind
    ((ends_record.and (ends_record_associates.and ends_record_applications)).mono ?_))))))
  rintro recorded stored ⟨⟨hstores, -⟩, hassociates, happlications⟩
  refine .bind (ends_enforcePolicy.mono ?_)
  rintro _ _ rfl
  refine .pure (.bind (ends_readBack.mono ?_))
  rintro _ _ ⟨rfl, rfl⟩
  refine .bind (ends_storeBuckets.mono ?_)
  rintro _ _ rfl
  refine .bind (ends_storeEntityRates.mono ?_)
  rintro _ _ ⟨rates, storedRates, rfl⟩
  generalize hupdated : (readIds input flowId recorded.touched).filterMap
    (recordOf (stored.enforced input.settings input.policyInstant input.nowSystem).tables) = updated
  have hrecords : ∀ record ∈ updated, recordOf (keptOf input stored).tables record.id = some record := by
    intro record hmem
    rw [← hupdated] at hmem
    obtain ⟨id, -, hrecord⟩ := List.mem_filterMap.mp hmem
    rw [(recordOf_eq_some_iff hrecord).1]
    exact hrecord
  have hnodup : (updated.map FlowRecord.id).Nodup := by
    rw [← hupdated, List.map_filterMap]
    refine readIds_nodup.filterMap fun id id' a ha ha' => ?_
    obtain ⟨record, hrecord, rfl⟩ := Option.map_eq_some_iff.mp ha
    obtain ⟨record', hrecord', hid⟩ := Option.map_eq_some_iff.mp ha'
    rw [← (recordOf_eq_some_iff hrecord).1, ← (recordOf_eq_some_iff hrecord').1, hid]
  have hnext : ∀ record ∈ updated, nextRecord input flowId db record.id = some record :=
    fun record hmem => nextRecord_of_kept hstores hassociates happlications (hrecords record hmem)
  simp only
  by_cases hpublish : input.publish = true
  · rw [if_pos hpublish]
    refine .bind ((ends_readTick.and ends_readTick_overview).mono ?_)
    rintro overview _ ⟨rfl, hoverview⟩
    exact .pure ⟨hrecords, hnext, hnodup, hoverview.trans (if_pos hpublish).symm⟩
  · rw [if_neg hpublish]
    exact .bind (.pure (.pure ⟨hrecords, hnext, hnodup, (if_neg hpublish).symm⟩))

end Records

end ZimaScope
