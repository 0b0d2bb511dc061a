import ZimaScope.Db.Ingest
import ZimaScope.Db.Mirrors

/-! # What an interval records

The flows after the first transaction: the row of each flow is what its updates
make of it one after the other, but for the associations; everything else the
transaction leaves alone.
-/

namespace ZimaScope

open TrafficDb Storage

/-- The row less its associations. -/
def FlowRow.undomained (row : FlowRow) : FlowRow := { row with domainsJson := [] }

theorem FlowRow.undomained_onConflict (old row : FlowRow) :
    (old.onConflict row).undomained = old.undomained.onConflict row.undomained := rfl

theorem Sighting.undomained_flowRow (s : Sighting) (nowInstant : Instant) (nowSystem : SystemTime)
    (interface : Option String) (domains : List DomainRefDto) :
    (s.flowRow nowInstant nowSystem interface domains).undomained =
      s.flowRow nowInstant nowSystem interface [] := by
  simp only [FlowRow.undomained, flowRow]

/-- What a stored update makes of the row of its flow, associations aside. -/
def Sighting.storeIn (update : Sighting) (input : IngestInput) (interfaces : HashMap UInt32 String)
    (old : Option FlowRow) : FlowRow :=
  let row := update.flowRow input.nowInstant input.nowSystem
    (AList.lookup update.key.interfaceIndex.val interfaces) []
  old.elim row fun old => old.onConflict row

/-- Packets and bytes. -/
abbrev Credit := ℤ × ℤ

def FlowRow.credit (row : FlowRow) : Credit := (row.packets, row.bytes)

/-- The kernel's counters as the row stores them. -/
def Sighting.kernelTotal (update : Sighting) : Credit :=
  (asI64 update.total.packets, asI64 update.total.bytes)

/-- When the update says that its flow was first seen. -/
def Sighting.seenMs (update : Sighting) (input : IngestInput) : ℤ :=
  unixMillis (instantToSystem update.firstSeen input.nowInstant input.nowSystem)

section StoreIn

variable (update : Sighting) (input : IngestInput) (interfaces : HashMap UInt32 String)
  (old : Option FlowRow)

theorem Sighting.state_storeIn : (update.storeIn input interfaces old).state = update.state := by
  cases old <;> simp only [storeIn, flowRow, FlowRow.onConflict, Option.elim_none, Option.elim_some]

theorem Sighting.credit_storeIn :
    (update.storeIn input interfaces old).credit = update.kernelTotal := by
  cases old <;> simp only [storeIn, flowRow, FlowRow.onConflict, FlowRow.credit, kernelTotal,
    Option.elim_none, Option.elim_some]

theorem Sighting.firstSeenMs_storeIn (old : FlowRow) :
    (update.storeIn input interfaces (some old)).firstSeenMs =
      min old.firstSeenMs (update.seenMs input) := by
  simp only [storeIn, flowRow, FlowRow.onConflict, seenMs, Option.elim_some]

end StoreIn

namespace Tables

variable {t : Tables} {id id' : UInt64}

/-- The tables the first transaction does not touch. -/
def buckets (t : Tables) :
    Table TimeBucketKey TimeBucket × Table EntityBucketKey TimeBucket × Table EntityKey (ℤ × ℤ) :=
  (t.trafficBuckets, t.entityBuckets, t.entityRates)

theorem flows_insertFlow {row : FlowRow} : (t.insertFlow id row).flows =
    t.flows.upsert id fun old => old.elim row fun old => old.onConflict row := by
  cases h : t.flows.find id with
  | none =>
    rw [insertFlow_of_none h]
    change t.flows.upsert id (fun _ => row) = _
    refine Table.upsert_congr ?_
    rw [h]
    rfl
  | some old =>
    rw [insertFlow_of_some h]
    change t.flows.upsert id (fun _ => old.onConflict row) = _
    refine Table.upsert_congr ?_
    rw [h]
    rfl

theorem buckets_insertFlow {row : FlowRow} : (t.insertFlow id row).buckets = t.buckets := by
  cases h : t.flows.find id with
  | none => rw [insertFlow_of_none h]; rfl
  | some old => rw [insertFlow_of_some h]; rfl

theorem buckets_updateFlows {set : FlowRow → FlowRow} {cond : UInt64 → FlowRow → Bool} :
    (t.updateFlows set cond).buckets = t.buckets :=
  frame_foldl (g := buckets) (f := fun t id row => t.onUpdate id row (set row)) fun _ _ _ => rfl

theorem buckets_deleteFlows {cond : UInt64 → FlowRow → Bool} :
    (t.deleteFlows cond).buckets = t.buckets :=
  frame_foldl (g := buckets) (f := onDelete) fun _ _ _ => rfl

/-- The flows less their associations. -/
def undomained (t : Tables) : Table UInt64 FlowRow := t.flows.mapRows fun _ row => row.undomained

theorem find_undomained : t.undomained.find id = (t.flows.find id).map FlowRow.undomained :=
  Table.find_mapRows

theorem undomained_updateDomains {domains : List DomainRefDto} {address : IpAddr} {ifindex : ℤ} :
    (t.updateDomains domains address ifindex).undomained = t.undomained := by
  unfold undomained updateDomains
  rw [flows_updateFlows, Table.mapRows_mapRows]
  refine Table.mapRows_congr _ fun id row => ?_
  split <;> rfl

/-- By how much the counter of the rows is off. -/
def drift (t : Tables) : ℤ := t.flowStats.flowsTotal - t.recount.flowsTotal

theorem drift_insertFlow {row : FlowRow} : (t.insertFlow id row).drift = t.drift := by
  have htotal : ∀ {f : Option FlowRow → FlowRow} {d : ℤ}, 1 = (t.flows.find id).elim 0 (fun _ => 1) + d →
      (t.flows.upsert id f).total (fun _ _ => (1 : ℤ)) = t.flows.total (fun _ _ => 1) + d :=
    fun h => Table.total_upsert_of_add h
  cases h : t.flows.find id with
  | none =>
    rw [insertFlow_of_none h]
    change t.flowStats.flowsTotal + 1 - (t.flows.upsert id fun _ => row).total (fun _ _ => 1) = _
    rw [htotal (d := 1) (by rw [h]; rfl), add_sub_add_right_eq_sub]
    rfl
  | some old =>
    rw [insertFlow_of_some h]
    change t.flowStats.flowsTotal - (t.flows.upsert id fun _ => old.onConflict row).total (fun _ _ => 1) = _
    rw [htotal (d := 0) (by rw [h]; rfl), add_zero]
    rfl

theorem drift_updateFlows {set : FlowRow → FlowRow} {cond : UInt64 → FlowRow → Bool} :
    (t.updateFlows set cond).drift = t.drift := by
  have hstats : (t.updateFlows set cond).flowStats.flowsTotal = t.flowStats.flowsTotal :=
    frame_foldl (g := fun t => t.flowStats.flowsTotal)
      (f := fun t id row => t.onUpdate id row (set row)) fun _ _ _ => rfl
  unfold drift
  change _ - (t.updateFlows set cond).flows.total (fun _ _ => 1) = _
  rw [hstats, flows_updateFlows, Table.total_mapRows]
  rfl

end Tables

section Record

variable (input : IngestInput) (flowId : FlowKey → UInt64) (interfaces : HashMap UInt32 String)

/-- The rows after these updates, associations aside. -/
def storedFlows (flows : List Sighting) (t : Table UInt64 FlowRow) : Table UInt64 FlowRow :=
  flows.foldl (fun t update => t.upsert (flowId update.key) (update.storeIn input interfaces)) t

/-- The updates of one flow. -/
def sightingsOf (id : UInt64) (flows : List Sighting) : List Sighting :=
  flows.filter fun update => flowId update.key = id

/-- The row of one flow after its updates. -/
def storeAll (old : Option FlowRow) (updates : List Sighting) : Option FlowRow :=
  updates.foldl (fun old update => some (update.storeIn input interfaces old)) old

theorem find_storedFlows {flows : List Sighting} {t : Table UInt64 FlowRow} {id : UInt64} :
    (storedFlows input flowId interfaces flows t).find id =
      storeAll input interfaces (t.find id) (sightingsOf flowId id flows) := by
  unfold storedFlows sightingsOf
  induction flows generalizing t with
  | nil => rfl
  | cons update flows ih =>
    rw [List.foldl_cons, ih, Table.find_upsert]
    by_cases hid : id = flowId update.key
    · subst hid
      rw [if_pos rfl, List.filter_cons_of_pos (by simp)]
      rfl
    · rw [if_neg hid, List.filter_cons_of_neg (by simpa using Ne.symm hid)]

/-- These updates are stored, on top of what was there. -/
structure Stores (db : TrafficDb) (flows : List Sighting) (db' : TrafficDb) : Prop where
  live : db' = { db with tables := db'.tables }
  buckets : db'.tables.buckets = db.tables.buckets
  rows : db'.tables.undomained = storedFlows input flowId interfaces flows db.tables.undomained
  drift : db'.tables.drift = db.tables.drift

variable {input flowId interfaces} {db db' : TrafficDb} {flows : List Sighting}

theorem Stores.refl : Stores input flowId interfaces db [] db := ⟨rfl, rfl, rfl, rfl⟩

/-- A statement on other tables, or one that only changes associations. -/
theorem Stores.other {f : Tables → Tables} (h : Stores input flowId interfaces db flows db')
    (hb : (f db'.tables).buckets = db'.tables.buckets)
    (hf : (f db'.tables).undomained = db'.tables.undomained)
    (hd : (f db'.tables).drift = db'.tables.drift) :
    Stores input flowId interfaces db flows { db' with tables := f db'.tables } := by
  refine ⟨?_, hb.trans h.buckets, hf.trans h.rows, hd.trans h.drift⟩
  rw [h.live]

theorem Stores.insert {update : Sighting} {domains : List DomainRefDto}
    (h : Stores input flowId interfaces db flows db') :
    Stores input flowId interfaces db (flows ++ [update]) { db' with
      tables := db'.tables.insertFlow (flowId update.key) (update.flowRow input.nowInstant
        input.nowSystem (AList.lookup update.key.interfaceIndex.val interfaces) domains) } := by
  refine ⟨?_, Tables.buckets_insertFlow.trans h.buckets, ?_, Tables.drift_insertFlow.trans h.drift⟩
  · rw [h.live]
  · unfold storedFlows
    rw [List.foldl_append, List.foldl_cons, List.foldl_nil]
    refine Eq.trans ?_ (congrArg (fun t => Table.upsert t _ _) h.rows)
    unfold Tables.undomained
    rw [Tables.flows_insertFlow]
    refine Table.mapRows_upsert fun old => ?_
    cases old with
    | none => exact Sighting.undomained_flowRow ..
    | some old =>
      change FlowRow.undomained (old.onConflict _) = old.undomained.onConflict _
      rw [FlowRow.undomained_onConflict, Sighting.undomained_flowRow]

/-! ## The first transaction -/

theorem ends_select {α : Type} {f : Tables → α} {Q : α → TrafficDb → Prop}
    (h : Q (f db.tables) db) : Ends (select f) Q db := .query h

theorem ends_execute {f : Tables → Tables} {Q : Unit → TrafficDb → Prop}
    (h : Q () { db with tables := f db.tables }) : Ends (execute f) Q db := .execute h

theorem ends_upsertFlow {update : Sighting} {cache : DomainsCache}
    (h : Stores input flowId interfaces db flows db') :
    Ends (upsertFlow input interfaces (flowId update.key) update cache)
      (fun _ s => Stores input flowId interfaces db (flows ++ [update]) s) db' := by
  have hdomains : Ends (cachedDomains input update.key cache) (fun _ s => s = db') db' := by
    unfold cachedDomains
    simp only
    split
    · exact .pure rfl
    · exact .bind (ends_select (.pure rfl))
  refine .bind (hdomains.mono ?_)
  rintro ⟨domains, cache⟩ _ rfl
  cases update.resolved with
  | none =>
    simp only
    exact .bind (ends_execute (.pure h.insert))
  | some application =>
    simp only
    have hother := h.other
      (f := fun t => t.upsertApplication application
        (instantToSystem update.firstSeen input.nowInstant input.nowSystem)
        (instantToSystem update.lastSeen input.nowInstant input.nowSystem)) rfl rfl rfl
    exact .bind (ends_execute (.bind (ends_execute (.pure hother.insert))))

theorem ends_storeObservations : Ends (storeObservations input)
    (fun _ s => Stores input flowId interfaces db [] s) db := by
  unfold storeObservations
  refine .foldlM (I := fun _ _ s => Stores input flowId interfaces db [] s) ?_ .refl
  intro earlier observation later changed s _ hs
  refine .bind ?_
  unfold storeObservation
  simp only
  split
  · exact .pure (.pure hs)
  · refine .bind (ends_execute (.pure (.pure ?_)))
    exact hs.other (f := fun t => t.storeObservation _ _) rfl rfl rfl

theorem ends_associateFlows {touched : List UInt64} {changed : IpAddr × ℤ}
    (h : Stores input flowId interfaces db flows db') : Ends (associateFlows input touched changed)
      (fun _ s => Stores input flowId interfaces db flows s) db' := by
  refine .bind (ends_select (.bind (ends_execute (.bind (ends_select (.pure ?_))))))
  exact h.other (f := fun t => t.updateDomains _ _ _) Tables.buckets_updateFlows
    Tables.undomained_updateDomains Tables.drift_updateFlows

/-- What the first transaction leaves. -/
theorem ends_record : Ends (record input flowId interfaces) (fun recorded s =>
    Stores input flowId interfaces db input.batch.flows s ∧
      ∀ update ∈ input.batch.flows, flowId update.key ∈ recorded.touched) db := by
  have hobservations : Ends (storeObservations input)
      (fun _ s => Stores input flowId interfaces db [] s) db := ends_storeObservations
  refine .transaction (.bind (hobservations.mono fun changed s₁ h₁ => ?_))
  have hassociate : Ends (changed.foldlM (associateFlows input) [])
      (fun _ s => Stores input flowId interfaces db [] s) s₁ :=
    .foldlM (I := fun _ _ s => Stores input flowId interfaces db [] s)
      (fun _ _ _ _ _ _ hs => ends_associateFlows hs) h₁
  refine .bind (hassociate.mono fun touched s₂ h₂ => ?_)
  refine .bind (Ends.mono (Ends.foldlM
    (I := fun done progress s => Stores input flowId interfaces db done s ∧
      ∀ update ∈ done, flowId update.key ∈ progress.1) ?_ ⟨h₂, by simp⟩) fun _ _ h => .pure h)
  rintro done update later progress s _ ⟨hs, htouched⟩
  refine .bind ((ends_upsertFlow hs).mono fun cache s' hs' => .pure ⟨hs', ?_⟩)
  intro other hother
  rw [List.mem_append, List.mem_singleton] at hother ⊢
  rcases hother with hother | rfl
  · exact Or.inl (htouched other hother)
  · exact Or.inr rfl

end Record

end ZimaScope
