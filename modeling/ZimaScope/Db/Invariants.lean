import Mathlib.Tactic.FinCases
import ZimaScope.Db.Migration
import ZimaScope.Db.Operations
import ZimaScope.Lib.Faults

/-! # Invariants of the flows

What every statement on the flows keeps, and every delete, an ingest keeps
wherever it stops.
-/

namespace ZimaScope

open TrafficDb Storage

/-- Flows with their mirrors, and observations. -/
def Tables.observed (t : Tables) :
    Table UInt64 FlowRow × FlowDomains × FlowStats × Table ObservationKey ObservationRow :=
  (t.flows, t.flowDomains, t.flowStats, t.observations)

/-- Deletes keep the property, and what leaves the flows and the observations alone. -/
structure Tables.Stable (P : Tables → Prop) : Prop where
  delete : ∀ t cond, P t → P (t.deleteFlows cond)
  expire : ∀ t now, P t → P (t.deleteObservations now)
  other : ∀ t t' : Tables, t'.observed = t.observed → P t → P t'

/-- So do inserts and updates. -/
structure Tables.Kept (P : Tables → Prop) : Prop extends Tables.Stable P where
  insert : ∀ t id row, P t → P (t.insertFlow id row)
  update : ∀ t set cond, P t → P (t.updateFlows set cond)
  observe : ∀ t key row, P t → P (t.storeObservation key row)

namespace TrafficDb

variable {P : Tables → Prop} {input : IngestInput} {flowId : FlowKey → UInt64}

theorem keeps_select {α : Type} {f : Tables → α} : Keeps (select f) fun db => P db.tables := .query

theorem keeps_execute {f : Tables → Tables} (h : ∀ t, P t → P (f t)) :
    Keeps (execute f) fun db => P db.tables :=
  .execute fun db => h db.tables

section Stable

variable (h : Tables.Stable P)
include h

theorem keeps_other {f : Tables → Tables} (hf : ∀ t, (f t).observed = t.observed) :
    Keeps (execute f) fun db => P db.tables :=
  keeps_execute fun t ht => h.other t (f t) (hf t) ht

theorem keeps_enforcePolicy {settings : Settings} {nowInstant : Instant} {now : SystemTime} :
    Keeps (enforcePolicy settings nowInstant now) fun db => P db.tables := by
  have hdeletes : ∀ f ∈ policyDeletes settings now, Keeps (execute f) fun db => P db.tables := by
    have hbuckets : ∀ f ∈ Tables.bucketDeletes now, Keeps (execute f) fun db => P db.tables := by
      intro f hf
      fin_cases hf
      · exact keeps_execute fun t ht => h.expire t _ ht
      all_goals exact keeps_other h fun _ => rfl
    have hflows : ∀ f ∈ Tables.flowDeletes settings now, Keeps (execute f) fun db => P db.tables := by
      unfold Tables.flowDeletes policyDeletes
      cases settings.history.enabled <;>
        · intro f hf
          fin_cases hf
          · exact keeps_execute fun t ht => h.delete t _ ht
          · exact keeps_other h fun _ => rfl
    intro f hf
    rw [Tables.policyDeletes_eq] at hf
    exact (List.mem_append.mp hf).elim (hflows f) (hbuckets f)
  refine .bind (.modify fun _ ht => ht) fun _ => .bind .get fun db => ?_
  split
  · exact .pure
  · refine .bind (.modify fun _ ht => ht) fun _ => .bind keeps_select fun count => ?_
    simp only
    split
    · exact .bind (keeps_execute fun t ht => h.delete t _ ht) fun _ => .forM hdeletes
    · exact .forM hdeletes

/-- Everything after the retention policy. -/
def finishInterval (input : IngestInput) (flowId : FlowKey → UInt64) (recorded : Recorded) :
    Action StreamEvent := do
  let updated ← readBack input flowId recorded.touched
  storeBuckets input flowId updated
  storeEntityRates input.rates
  let moved := updated.filter fun record => flowMoved flowId input.batch.flows record.id
  let overview ← if input.publish then readTick recorded.changed moved else pure {}
  pure {
    inbound := batchTotal .inbound input.batch.flows
    outbound := batchTotal .outbound input.batch.flows
    flows := updated.filter fun record =>
      flowMoved flowId input.batch.flows record.id || record.row.ended
    overview }

omit h in
theorem tryIngest_eq : tryIngest flowId input =
    recordInterval flowId input >>= finishInterval input flowId := rfl

omit h in
/-- What is stored after it is neither a flow nor an observation nor an application. -/
theorem keeps_finishInterval_of {recorded : Recorded} (hother : ∀ t t' : Tables,
      t'.observed = t.observed → t'.applications = t.applications → P t → P t') :
    Keeps (finishInterval input flowId recorded) fun db => P db.tables := by
  have hstore : ∀ {f : Tables → Tables}, (∀ t, (f t).observed = t.observed) →
      (∀ t, (f t).applications = t.applications) → Keeps (execute f) fun db => P db.tables :=
    fun hf happ => keeps_execute fun t ht => hother t _ (hf t) (happ t) ht
  have hadd : ∀ totals record, Keeps (addFlow input flowId totals record) fun db => P db.tables := by
    intro totals record
    unfold addFlow
    split
    · exact .pure
    · split
      · exact .pure
      · refine .bind (.forM fun _ _ => .forM fun _ _ => ?_) fun _ => .pure
        exact hstore (fun _ => rfl) fun _ => rfl
  refine .bind (.foldlM (fun _ _ => .bind keeps_select fun _ => .pure) _) fun updated => ?_
  refine .bind ?_ fun _ => .bind ?_ fun _ => ?_
  · unfold storeBuckets
    split
    · exact .pure
    · refine .transaction (.bind (.foldlM hadd _) fun totals => .forM fun _ _ => .forM fun _ _ => ?_)
      exact hstore (fun _ => rfl) fun _ => rfl
  · refine .bind .get fun db => ?_
    simp only
    split
    · exact .pure
    · refine .bind (.transaction (.bind (.forM fun _ _ => ?_) fun _ => .forM fun _ _ => ?_)) fun _ =>
        .modify fun _ ht => ht
      · exact hstore (fun _ => rfl) fun _ => rfl
      · exact hstore (fun _ => rfl) fun _ => rfl
  · split
    · refine .bind (.bind (.forM fun any _ => ?_) fun _ => keeps_select) fun _ => .pure
      split
      · exact keeps_select
      · exact .pure
    · exact .pure

theorem keeps_finishInterval {recorded : Recorded} :
    Keeps (finishInterval input flowId recorded) fun db => P db.tables :=
  keeps_finishInterval_of fun t t' ht _ => h.other t t' ht

end Stable

/-- The first transaction runs on tables with the interfaces of the batch. -/
def attachedDb (input : IngestInput) (db : TrafficDb) : TrafficDb :=
  { db with interfaces := attached input db.interfaces }

/-- An interval up to the retention policy goes as far as its first transaction does. -/
theorem recordInterval_eq {c : Conn TrafficDb} : recordInterval flowId input c =
    (record input flowId (attached input c.store.interfaces) >>= fun recorded =>
      enforcePolicy input.settings input.policyInstant input.nowSystem >>= fun _ =>
        pure recorded) ⟨attachedDb input c.store, c.faults⟩ := rfl

theorem keeps_record (h : Tables.Kept P) {interfaces : HashMap UInt32 String} :
    Keeps (record input flowId interfaces) fun db => P db.tables := by
  have hobservation : ∀ observation,
      Keeps (storeObservation input observation) fun db => P db.tables := by
    intro observation
    unfold storeObservation
    simp only
    split
    · exact .pure
    · exact .bind (keeps_execute fun t ht => h.observe t _ _ ht) fun _ => .pure
  have hflow : ∀ progress update,
      Keeps (recordFlow input flowId interfaces progress update) fun db => P db.tables := by
    intro progress update
    have hdomains : Keeps (cachedDomains input update.key progress.2) fun db => P db.tables := by
      unfold cachedDomains
      simp only
      split
      · exact .pure
      · exact .bind keeps_select fun _ => .pure
    refine .bind (.bind hdomains fun cached => ?_) fun _ => .pure
    obtain ⟨domains, cache⟩ := cached
    have hinsert : Keeps (execute fun t => t.insertFlow (flowId update.key) (update.flowRow
        input.nowInstant input.nowSystem (AList.lookup update.key.interfaceIndex.val interfaces)
          domains)) fun db => P db.tables := keeps_execute fun t ht => h.insert t _ _ ht
    simp only
    split
    · refine .bind ?_ fun _ => .bind hinsert fun _ => .pure
      exact keeps_other h.toStable fun _ => rfl
    · exact .bind hinsert fun _ => .pure
  refine .transaction (.bind (.foldlM (fun _ observation => ?_) _) fun changed => .bind
    (.foldlM (fun _ _ => ?_) _) fun touched => .bind (.foldlM hflow _) fun _ => .pure)
  · exact .bind (hobservation observation) fun _ => .pure
  · exact .bind keeps_select fun _ => .bind (keeps_execute fun t ht => h.update t _ _ ht) fun _ =>
      .bind keeps_select fun _ => .pure

theorem keeps_recordInterval (h : Tables.Kept P) :
    Keeps (recordInterval flowId input) fun db => P db.tables := by
  refine .bind (.modify fun _ ht => ht) fun _ => .bind .get fun db => ?_
  exact .bind (keeps_record h) fun _ => .bind (keeps_enforcePolicy h.toStable) fun _ => .pure

/-- An invariant of the statements is one of an ingest, whatever statement of it fails. -/
theorem keeps_tryIngest (h : Tables.Kept P) :
    Keeps (tryIngest flowId input) fun db => P db.tables :=
  .bind (keeps_recordInterval h) fun _ => keeps_finishInterval h.toStable

theorem keeps_saveSettings (h : Tables.Stable P) {settings : Settings} {nowInstant : Instant}
    {now : SystemTime} : Keeps (saveSettings settings nowInstant now) fun db => P db.tables :=
  .bind (.execute fun _ ht => ht) fun _ => keeps_enforcePolicy h

end TrafficDb

namespace Tables

variable {t t' : Tables}

theorem observed_eq_iff : t'.observed = t.observed ↔ t'.flows = t.flows ∧
    t'.flowDomains = t.flowDomains ∧ t'.flowStats = t.flowStats ∧ t'.observations = t.observations := by
  simp only [observed, Prod.mk.injEq]

theorem kept_statsExact : Kept StatsExact where
  delete _ _ h := deleteFlows_stats h
  expire _ _ h := h
  other _ _ ht h := by
    obtain ⟨hflows, -, hstats, -⟩ := observed_eq_iff.mp ht
    exact h.of_eq hflows hstats
  insert _ _ _ h := insertFlow_stats h
  update _ _ _ h := updateFlows_stats h
  observe _ _ _ h := h

/-- What is left of the flows is what was there. -/
theorem stable_flows {R : UInt64 → FlowRow → Prop} :
    Stable fun t => ∀ id row, t.flows.find id = some row → R id row where
  delete t cond h id row hrow := by
    rw [flows_deleteFlows, Table.find_filter] at hrow
    exact h id row (Option.filter_eq_some_iff.mp hrow).1
  expire _ _ h := h
  other t t' ht h id row hrow := by
    rw [(observed_eq_iff.mp ht).1] at hrow
    exact h id row hrow

/-- What is left of the observations is what was there. -/
theorem stable_observations {R : ObservationKey → ObservationRow → Prop} :
    Stable fun t => ∀ key row, t.observations.find key = some row → R key row where
  delete t cond h key row hrow := by
    have hobservations : (t.deleteFlows cond).observations = t.observations :=
      frame_foldl (g := observations) (f := onDelete) fun _ _ _ => rfl
    rw [hobservations] at hrow
    exact h key row hrow
  expire t now h key row hrow := by
    unfold deleteObservations at hrow
    rw [Table.find_filter] at hrow
    exact h key row (Option.filter_eq_some_iff.mp hrow).1
  other t t' ht h key row hrow := by
    rw [(observed_eq_iff.mp ht).2.2.2] at hrow
    exact h key row hrow

end Tables

end ZimaScope
