import ZimaScope.Db.Delivery
import ZimaScope.Db.Totals
import ZimaScope.Lib.Ledger

/-! # What was reported

A database beside the batches it ingested. As long as no flow is evicted and no
counter starts anew, a row is worth everything that was reported of its flow,
and was last seen when the latest report says; and buckets that retention keeps
are worth the batches of their time.
-/

namespace ZimaScope

open TrafficDb Ledger Table

/-- An update with the ingest that stores it. -/
abbrev Report := IngestInput × Sighting

namespace Report

variable (report : Report)

/-- When the last packet was seen, by the system's clock. -/
def lastSeen : SystemTime :=
  instantToSystem report.2.lastSeen report.1.nowInstant report.1.nowSystem

/-- The delta, in the direction of the flow. -/
def counters : Counters := report.2.flowDelta.counters

/-- The flow carried something since the report before. -/
def moved : Bool := report.2.flowDelta.moved

theorem counters_nonneg : 0 ≤ report.counters := report.2.flowDelta.counters_nonneg

theorem counters_eq_zero_iff : report.counters = 0 ↔ report.moved = false :=
  FlowDelta.counters_eq_zero

end Report

/-- The reports of an ingest. -/
def IngestInput.reports (input : IngestInput) : List Report := input.batch.flows.map (input, ·)

def reportsOf (batches : List IngestInput) : List Report := batches.flatMap IngestInput.reports

theorem reportsOf_concat {batches : List IngestInput} {input : IngestInput} :
    reportsOf (batches ++ [input]) = reportsOf batches ++ input.reports := by
  unfold reportsOf
  rw [List.flatMap_append, List.flatMap_singleton]

theorem mem_reportsOf {batches : List IngestInput} {report : Report} :
    report ∈ reportsOf batches ↔ report.1 ∈ batches ∧ report.2 ∈ report.1.batch.flows := by
  unfold reportsOf IngestInput.reports
  obtain ⟨input, update⟩ := report
  simp only [List.mem_flatMap, List.mem_map, Prod.mk.injEq]
  constructor
  · rintro ⟨input', hinput, update', hupdate, rfl, rfl⟩
    exact ⟨hinput, hupdate⟩
  · rintro ⟨hinput, hupdate⟩
    exact ⟨input, hinput, update, hupdate, rfl, rfl⟩

/-- Packets and bytes of a direction. -/
def Credit.counters (credit : Credit) : Direction → Counters
  | .inbound => (credit.1, credit.2, 0, 0)
  | .outbound => (0, 0, credit.1, credit.2)

def FlowRow.counters (row : FlowRow) : Counters := Credit.counters row.credit row.key.direction

theorem Report.counters_eq (report : Report) :
    report.counters = Credit.counters report.2.credit report.2.key.direction := by
  unfold Report.counters FlowDelta.counters Sighting.flowDelta FlowDelta.both
  cases report.2.key.direction <;> rfl

theorem Credit.counters_sum {credits : List Credit} {direction : Direction} :
    Credit.counters credits.sum direction =
      (credits.map fun credit => Credit.counters credit direction).sum := by
  induction credits with
  | nil => cases direction <;> rfl
  | cons credit credits ih =>
    rw [List.sum_cons, List.map_cons, List.sum_cons, ← ih]
    cases direction <;> simp [Credit.counters, Prod.ext_iff]

/-! ## Rows -/

section Rows

variable {flowId : FlowKey → UInt64} {input : IngestInput} {interfaces : HashMap UInt32 String}
  {reports : List Report} {row row' : FlowRow} {key : FlowKey} {update : Sighting}
  {updates : List Sighting}

/-- A row tells the key of its reports, and the latest time of them. -/
structure Told (reports : List Report) (row : FlowRow) : Prop where
  key : ∀ r ∈ reports, r.2.key = row.key
  lastSeen : ∀ time, time ≤ row.lastSeenMs ↔ ∃ r ∈ reports, time ≤ unixMillis r.lastSeen

theorem Told.stored_none : Told [(input, update)] (update.storeIn input interfaces none) := by
  constructor
  · intro r hr
    obtain rfl := List.mem_singleton.mp hr
    rfl
  · intro time
    simp only [List.mem_singleton, exists_eq_left]
    rfl

theorem Told.stored (h : Told reports row) (hkey : update.key = row.key) :
    Told (reports ++ [(input, update)]) (update.storeIn input interfaces (some row)) := by
  constructor
  · intro r hr
    rcases List.mem_append.mp hr with hr | hr
    · exact h.key r hr
    · obtain rfl := List.mem_singleton.mp hr
      exact hkey
  · intro time
    change time ≤ max row.lastSeenMs (unixMillis (Report.lastSeen (input, update))) ↔ _
    rw [le_max_iff, h.lastSeen]
    simp only [List.mem_append, List.mem_singleton, or_and_right, exists_or, exists_eq_left]

theorem Told.storedAll (h : Told reports row) (hkeys : ∀ update ∈ updates, update.key = row.key)
    (hrow : storeAll input interfaces (some row) updates = some row') :
    Told (reports ++ updates.map (input, ·)) row' := by
  induction updates generalizing reports row with
  | nil =>
    obtain rfl := Option.some.inj hrow
    rwa [List.map_nil, List.append_nil]
  | cons update updates ih =>
    have hstored : Told (reports ++ [(input, update)])
        (update.storeIn input interfaces (some row)) := h.stored (hkeys update List.mem_cons_self)
    rw [List.map_cons, List.append_cons]
    apply ih hstored _ hrow
    exact fun other hother => hkeys other (List.mem_cons_of_mem _ hother)

/-- The same of a row that is not there before. -/
theorem Told.storedAll_none (hkeys : ∀ u ∈ updates, ∀ v ∈ updates, u.key = v.key)
    (hrow : storeAll input interfaces none updates = some row') :
    Told (updates.map (input, ·)) row' := by
  cases updates with
  | nil => exact absurd hrow (by simp [storeAll])
  | cons update updates =>
    have hfirst : Told [(input, update)] (update.storeIn input interfaces none) :=
      Told.stored_none
    apply hfirst.storedAll _ hrow
    exact fun other hother => hkeys other (List.mem_cons_of_mem _ hother) update List.mem_cons_self

/-- What updates of one key are worth to its row. -/
theorem credited_eq_sum {old : Option FlowRow}
    (hold : ∀ row, old = some row → ∀ update ∈ updates, update.key = row.key)
    (hkeys : ∀ u ∈ updates, ∀ v ∈ updates, u.key = v.key) :
    credited (old.map FlowRow.key) (old.elim 0 FlowRow.credit) updates =
      old.elim 0 FlowRow.credit + (updates.map Sighting.credit).sum := by
  have hsome : ∀ (key : FlowKey) (credit : Credit) (updates : List Sighting),
      (∀ update ∈ updates, update.key = key) →
        credited (some key) credit updates = credit + (updates.map Sighting.credit).sum := by
    intro key credit updates h
    induction updates generalizing credit with
    | nil => exact (add_zero _).symm
    | cons update updates ih =>
      unfold credited
      rw [if_pos (h update List.mem_cons_self), ih _ fun other hother =>
        h other (List.mem_cons_of_mem _ hother), List.map_cons, List.sum_cons, add_assoc]
  cases old with
  | some row => exact hsome row.key row.credit updates (hold row rfl)
  | none =>
    cases updates with
    | nil => rfl
    | cons update updates =>
      change credited (some update.key) update.credit updates = _
      rw [hsome update.key update.credit updates fun other hother =>
        hkeys other (List.mem_cons_of_mem _ hother) update List.mem_cons_self, List.map_cons,
        List.sum_cons]
      exact (zero_add _).symm

variable (input interfaces) in
theorem exists_storeAll (row : FlowRow) (updates : List Sighting) :
    ∃ row', storeAll input interfaces (some row) updates = some row' := by
  induction updates generalizing row with
  | nil => exact ⟨row, rfl⟩
  | cons update updates ih => exact ih (update.storeIn input interfaces (some row))

end Rows

/-- The reports of one flow. -/
def reportsFor (flowId : FlowKey → UInt64) (id : UInt64) (reports : List Report) : List Report :=
  reports.filter fun r => flowId r.2.key = id

/-- The rows are there, and each tells all that was reported of its flow. -/
structure RowsTold (flowId : FlowKey → UInt64) (reports : List Report)
    (flows : Table UInt64 FlowRow) : Prop where
  present : ∀ r ∈ reports, ∃ row, flows.find (flowId r.2.key) = some row
  told : ∀ id row, flows.find id = some row → Told (reportsFor flowId id reports) row
  worth : ∀ id row, flows.find id = some row →
    row.credit = ((reportsFor flowId id reports).map fun r => r.2.credit).sum

/-- An ingest that keeps the flows and continues their counters. Each flow moves once, under an
id of its own, and what moves on an interface fits the columns. -/
structure FlowsContinue (flowId : FlowKey → UInt64) (input : IngestInput) (db : TrafficDb) : Prop where
  stays : ∀ id, Stays input flowId db id
  continues : (Operation.ingest input).Continues flowId db
  keys : ∀ u ∈ input.batch.flows, ∀ v ∈ input.batch.flows,
    flowId u.key = flowId v.key → u.key = v.key
  rowKeys : ∀ u ∈ input.batch.flows, ∀ row,
    db.tables.flows.find (flowId u.key) = some row → u.key = row.key
  once : Once flowId input.batch.flows
  fits : TrafficDb.Fits (input.batch.flows.map Sighting.flowDelta)

section Step

variable {flowId : FlowKey → UInt64} {input : IngestInput} {db stored db' : TrafficDb}
  {touched : List UInt64} {event : StreamEvent} {reports : List Report} {id : UInt64}
  {row row' : FlowRow}

theorem reportsFor_concat : reportsFor flowId id (reports ++ input.reports) =
    reportsFor flowId id reports ++ (sightingsOf flowId id input.batch.flows).map (input, ·) := by
  unfold reportsFor IngestInput.reports sightingsOf
  rw [List.filter_append, List.filter_map]
  rfl

theorem RowsTold.reportsFor_eq_nil (h : RowsTold flowId reports db.tables.flows)
    (hnone : db.tables.flows.find id = none) : reportsFor flowId id reports = [] := by
  refine List.filter_eq_nil_iff.mpr fun r hr hid => ?_
  obtain ⟨row, hrow⟩ := h.present r hr
  rw [of_decide_eq_true hid, hnone] at hrow
  simp at hrow

/-- What was there of a row, and the updates it got. -/
theorem storeAll_of_stored (h : Interval input flowId db stored touched event db')
    (hrow : stored.tables.flows.find id = some row) :
    storeAll input (attached input db.interfaces) ((db.tables.flows.find id).map FlowRow.undomained)
      (sightingsOf flowId id input.batch.flows) = some row.undomained := by
  have hfind := congrArg (fun t => t.find id) h.stores.rows
  simp only at hfind
  rw [Tables.find_undomained, hrow, find_storedFlows] at hfind
  change some row.undomained = storeAll _ _ (db.tables.undomained.find id) _ at hfind
  rw [Tables.find_undomained] at hfind
  exact hfind.symm

theorem stored_of_find_end (h : Interval input flowId db stored touched event db')
    (hrow : db'.tables.flows.find id = some row) : stored.tables.flows.find id = some row := by
  rw [find_end h] at hrow
  exact (Option.filter_eq_some_iff.mp hrow).1

theorem FlowsContinue.keys_eq (hu : FlowsContinue flowId input db) :
    ∀ u ∈ sightingsOf flowId id input.batch.flows, ∀ v ∈ sightingsOf flowId id input.batch.flows,
      u.key = v.key := by
  intro u hmem v hmem'
  obtain ⟨hmem, hid⟩ := List.mem_filter.mp hmem
  obtain ⟨hmem', hid'⟩ := List.mem_filter.mp hmem'
  exact hu.keys u hmem v hmem' ((of_decide_eq_true hid).trans (of_decide_eq_true hid').symm)

theorem FlowsContinue.key_eq (hu : FlowsContinue flowId input db)
    (hrow : db.tables.flows.find id = some row) :
    ∀ u ∈ sightingsOf flowId id input.batch.flows, u.key = row.key := by
  intro u hmem
  obtain ⟨hmem, hid⟩ := List.mem_filter.mp hmem
  exact hu.rowKeys u hmem row ((of_decide_eq_true hid).symm ▸ hrow)

theorem RowsTold.told_step (h : RowsTold flowId reports db.tables.flows)
    (hu : FlowsContinue flowId input db) (hi : Interval input flowId db stored touched event db')
    (hrow : stored.tables.flows.find id = some row') :
    Told (reportsFor flowId id (reports ++ input.reports)) row' := by
  have hstore := storeAll_of_stored hi hrow
  suffices htold : Told (reportsFor flowId id (reports ++ input.reports)) row'.undomained from
    ⟨htold.key, htold.lastSeen⟩
  rw [reportsFor_concat]
  cases hold : db.tables.flows.find id with
  | none =>
    rw [hold] at hstore
    rw [h.reportsFor_eq_nil hold, List.nil_append]
    exact Told.storedAll_none hu.keys_eq hstore
  | some row =>
    rw [hold] at hstore
    obtain ⟨hkey, hseen⟩ := h.told id row hold
    have htold : Told (reportsFor flowId id reports) row.undomained := ⟨hkey, hseen⟩
    have hkeys : ∀ u ∈ sightingsOf flowId id input.batch.flows, u.key = row.key :=
      hu.key_eq hold
    exact htold.storedAll hkeys hstore

theorem RowsTold.worth_step (h : RowsTold flowId reports db.tables.flows)
    (hu : FlowsContinue flowId input db) (hi : Interval input flowId db stored touched event db')
    (hrow : stored.tables.flows.find id = some row') :
    row'.credit = ((reportsFor flowId id (reports ++ input.reports)).map fun r => r.2.credit).sum := by
  have hold : (db.tables.flows.find id).elim 0 FlowRow.credit =
      ((reportsFor flowId id reports).map fun r => r.2.credit).sum := by
    cases hold : db.tables.flows.find id with
    | none => rw [h.reportsFor_eq_nil hold]; rfl
    | some row => exact h.worth id row hold
  rw [reportsFor_concat, List.map_append, List.sum_append, ← hold, List.map_map]
  cases hupdates : sightingsOf flowId id input.batch.flows with
  | nil =>
    obtain ⟨row, hfind, heq⟩ := find_stored_nil hi hupdates hrow
    have hcredit : row'.undomained.credit = row.undomained.credit := congrArg FlowRow.credit heq
    change row'.credit = row.credit at hcredit
    rw [hfind, hcredit]
    exact (add_zero _).symm
  | cons update updates =>
    obtain ⟨hmem, hid⟩ := List.mem_filter.mp (hupdates ▸ List.mem_cons_self :
      update ∈ sightingsOf flowId id input.batch.flows)
    obtain ⟨last, hlast, hlastId⟩ : ∃ last ∈ finals flowId input.batch.flows,
      flowId last.key = flowId update.key := mem_finals_of_mem hmem
    obtain rfl : flowId last.key = id := hlastId.trans (of_decide_eq_true hid)
    obtain ⟨row, hfind, -, hcredit⟩ := find_stored hi hlast
    obtain rfl := Option.some.inj (hrow.symm.trans hfind)
    rw [hcredit, hu.continues last hlast (hu.stays _), credited_eq_sum (fun row => hu.key_eq)
      hu.keys_eq, hupdates]
    rfl

theorem RowsTold.step (h : RowsTold flowId reports db.tables.flows)
    (hu : FlowsContinue flowId input db) (hi : Interval input flowId db stored touched event db') :
    RowsTold flowId (reports ++ input.reports) db'.tables.flows where
  present r hr := by
    rcases List.mem_append.mp hr with hr | hr
    · obtain ⟨row, hrow⟩ := h.present r hr
      have hfind := congrArg (fun t => t.find (flowId r.2.key)) hi.stores.rows
      simp only at hfind
      rw [find_storedFlows] at hfind
      change _ = storeAll _ _ (db.tables.undomained.find _) _ at hfind
      rw [Tables.find_undomained, Tables.find_undomained, hrow] at hfind
      obtain ⟨row', hrow'⟩ := exists_storeAll input (attached input db.interfaces)
        row.undomained (sightingsOf flowId (flowId r.2.key) input.batch.flows)
      obtain ⟨row, hstored, -⟩ := Option.map_eq_some_iff.mp (hfind.trans hrow')
      exact ⟨row, find_of_stays hi hstored (hu.stays _)⟩
    · obtain ⟨update, hupdate, rfl⟩ := List.mem_map.mp hr
      obtain ⟨row, hrow, -⟩ := exists_row hi hupdate (hu.stays _)
      exact ⟨row, hrow⟩
  told id row hrow := h.told_step hu hi (stored_of_find_end hi hrow)
  worth id row hrow := h.worth_step hu hi (stored_of_find_end hi hrow)

/-- What a row is worth, in the direction of its flow. -/
theorem RowsTold.counters {flows : Table UInt64 FlowRow} (h : RowsTold flowId reports flows)
    (hrow : flows.find id = some row) :
    row.counters = sumIf (fun r => flowId r.2.key = id) Report.counters reports := by
  unfold FlowRow.counters
  rw [sumIf_eq_filter, h.worth id row hrow, Credit.counters_sum, List.map_map]
  refine congrArg List.sum (List.map_congr_left fun r hr => ?_)
  rw [Report.counters_eq, (h.told id row hrow).key r hr]
  rfl

theorem RowsTold.credit_nonneg {flows : Table UInt64 FlowRow} (h : RowsTold flowId reports flows)
    (hrow : flows.find id = some row) : 0 ≤ row.credit := by
  rw [h.worth id row hrow]
  refine List.sum_nonneg fun x hx => ?_
  obtain ⟨r, -, rfl⟩ := List.mem_map.mp hx
  exact r.2.credit_nonneg

end Step

/-! ## Buckets -/

/-- What the buckets of one start hold together. -/
def bucketTotal (t : Table TimeBucketKey TimeBucket) (b : BucketResolution × ℤ) : Counters :=
  totalOf TimeBucket.counters (fun k => (k.resolution, k.startMs) = b) t

/-- No ingest of these is late enough to delete the buckets of this start. -/
def BucketsRetained (batches : List IngestInput) (b : BucketResolution × ℤ) : Prop :=
  ∀ input ∈ batches, keptBuckets input.nowSystem ⟨b.1, b.2, 0⟩ = true

/-- Buckets that are retained hold what was reported in their time. -/
def BucketsTold (batches : List IngestInput) (t : Table TimeBucketKey TimeBucket) : Prop :=
  ∀ b, BucketsRetained batches b →
    bucketTotal t b = sumIf (fun r => b ∈ bucketStarts r.1) Report.counters (reportsOf batches)

section Buckets

variable {flowId : FlowKey → UInt64} {input : IngestInput} {db stored db' : TrafficDb}
  {touched : List UInt64} {event : StreamEvent} {batches : List IngestInput}
  {b : BucketResolution × ℤ} {moves : List (FlowRecord × FlowDelta)}

theorem spread_start : spread input (fun k => (k.resolution, k.startMs) = b)
    (fun c => c.2.counters) moves =
      if b ∈ bucketStarts input then movedOn (fun _ => True) (moves.map Prod.snd) else 0 := by
  have hone : ∀ x : Counters,
      ((bucketStarts input).map fun b' => if (b'.1, b'.2) = b then x else 0).sum =
        if b ∈ bucketStarts input then x else 0 := by
    intro x
    obtain ⟨resolution, start⟩ := b
    rw [sum_bucketStarts]
    unfold bucketStarts minuteStart hourStart
    cases resolution <;> simp [eq_comm]
  unfold spread movedOn
  simp only [hone, if_true, List.map_map, Function.comp_def]
  split
  · rfl
  · exact List.sum_eq_zero fun x hx => (List.mem_map.mp hx).elim fun _ h => h.2.symm

theorem sumIf_reports : sumIf (fun r => b ∈ bucketStarts r.1) Report.counters input.reports =
    if b ∈ bucketStarts input then
      movedOn (fun _ => True) (input.batch.flows.map Sighting.flowDelta) else 0 := by
  unfold IngestInput.reports movedOn
  rw [sumIf_map]
  unfold sumIf
  simp only [if_true, List.map_map, Function.comp_def]
  split
  · rfl
  · exact List.sum_eq_zero fun x hx => (List.mem_map.mp hx).elim fun _ h => h.2.symm

theorem BucketsTold.step (h : BucketsTold batches db.tables.trafficBuckets)
    (hu : FlowsContinue flowId input db) (hi : Interval input flowId db stored touched event db') :
    BucketsTold (batches ++ [input]) db'.tables.trafficBuckets := by
  intro b hb
  have hretained : BucketsRetained batches b :=
    fun other hother => hb other (List.mem_append_left _ hother)
  have hkept : bucketTotal (keptOf input stored).tables.trafficBuckets b =
      bucketTotal db.tables.trafficBuckets b := by
    rw [trafficBuckets_keptOf hi]
    split
    · refine totalOf_filter fun k hk => ?_
      have hinput := hb input (List.mem_append_right _ (List.mem_singleton_self _))
      rw [← hk] at hinput
      exact hinput
    · rfl
  unfold bucketTotal at hkept ⊢
  rw [hi.traffic, totalOf_addAll TimeBucket.counters_onConflict,
    amount_trafficWrites (fits_movesOf hi.touches hu.fits), spread_start, hkept,
    movedOn_moves hi hu.once fun update _ _ => hu.stays _, reportsOf_concat, sumIf_append,
    sumIf_reports]
  exact congrArg (· + _) (h b hretained)

end Buckets

end ZimaScope
