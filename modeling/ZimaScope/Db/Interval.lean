import ZimaScope.Db.Buckets

/-! # A whole interval

What an ingest that succeeds leaves: the flows are those of the first
transaction that the retention policy keeps, and the buckets get what is read
back of them.
-/

namespace ZimaScope

namespace TrafficDb

open Storage

section Interval

variable (input : IngestInput) (flowId : FlowKey → UInt64)

/-- The interfaces known to an interval. -/
def attached (interfaces : HashMap UInt32 String) : HashMap UInt32 String :=
  input.batch.attachedInterfaces.foldl (fun m i => m.insert i.1 i.2) interfaces

/-- What the retention policy leaves of the stored rows. -/
def keptOf (stored : TrafficDb) : TrafficDb :=
  stored.enforced input.settings input.policyInstant input.nowSystem

/-- The records of the flows that moved or ended. -/
def updatedOf (touched : List UInt64) (stored : TrafficDb) : List FlowRecord :=
  (readIds input flowId touched).filterMap (recordOf (keptOf input stored).tables)

/-- The moves of an interval. -/
def movesOf (touched : List UInt64) (stored : TrafficDb) : List (FlowRecord × FlowDelta) :=
  contributions input flowId (updatedOf input flowId touched stored)

/-- An interval that stored these rows and touched these flows. -/
structure Interval (db stored : TrafficDb) (touched : List UInt64) (event : StreamEvent)
    (db' : TrafficDb) : Prop where
  stores : Stores input flowId (attached input db.interfaces)
    { db with interfaces := attached input db.interfaces } input.batch.flows stored
  touches : ∀ update ∈ input.batch.flows, flowId update.key ∈ touched
  flows : db'.tables.flows = (keptOf input stored).tables.flows
  applications : db'.tables.applications = (keptOf input stored).tables.applications
  traffic : db'.tables.trafficBuckets = Table.addAll TimeBucket.onConflict
    (trafficWrites input (totalsOf (movesOf input flowId touched stored)))
    (keptOf input stored).tables.trafficBuckets
  entities : db'.tables.entityBuckets = Table.addAll TimeBucket.onConflict
    (entityWrites input (movesOf input flowId touched stored))
    (keptOf input stored).tables.entityBuckets
  event : event.flows = (updatedOf input flowId touched stored).filter fun record =>
    flowMoved flowId input.batch.flows record.id || record.row.ended

/-- The flows as the updates of the batch leave them, associations aside, for the retention
policy to choose from. -/
def expected (db : TrafficDb) : Tables :=
  let flows := storedFlows input flowId (attached input db.interfaces) input.batch.flows
    db.tables.undomained
  { flows, flowStats := { flowsTotal := db.tables.drift + flows.total fun _ _ => 1 } }

/-- The retention policy keeps the flow, should it be due. -/
def Stays (db : TrafficDb) (id : UInt64) : Prop :=
  db.policyDue input.policyInstant = true → ∀ row, (expected input flowId db).flows.find id = some row →
    (expected input flowId db).keptFlow input.settings input.nowSystem id row = true

variable {input flowId} {db : TrafficDb}

variable (db) in
/-- Only the entity rates differ. -/
def OnlyRates (s : TrafficDb) : Prop :=
  ∃ rates stored, s = { db with
    tables := { db.tables with entityRates := rates }
    storedRates := stored }

theorem ends_forM_onlyRates {β : Type} {items : List β}
    {f : β → Table EntityKey (ℤ × ℤ) → Table EntityKey (ℤ × ℤ)} {s : TrafficDb} (hs : OnlyRates db s) :
    Ends (items.forM fun item => execute fun t => { t with entityRates := f item t.entityRates })
      (fun _ s => OnlyRates db s) s := by
  refine .forM (I := fun _ s => OnlyRates db s) ?_ hs
  rintro done item later _ - ⟨rates, stored, rfl⟩
  exact ends_execute ⟨_, _, rfl⟩

theorem ends_storeEntityRates {next : Table EntityKey (ℤ × ℤ)} :
    Ends (storeEntityRates next) (fun _ s => OnlyRates db s) db := by
  refine .bind (.get ?_)
  simp only
  split
  · exact .pure ⟨_, _, rfl⟩
  · have hupserts : ∀ chunks : List (List (EntityKey × ℤ × ℤ)),
        Ends (chunks.forM fun chunk => execute fun t =>
          { t with entityRates := chunk.foldl (fun rates r => rates.upsert r.1 fun _ => r.2) t.entityRates })
          (fun _ s => OnlyRates db s) db := fun chunks =>
      ends_forM_onlyRates (f := fun (chunk : List (EntityKey × ℤ × ℤ)) rates =>
        chunk.foldl (fun rates r => rates.upsert r.1 fun _ => r.2) rates)
        ⟨db.tables.entityRates, db.storedRates, rfl⟩
    have hgone : ∀ (s : TrafficDb) (gone : List (EntityKey × ℤ × ℤ)), OnlyRates db s →
        Ends (gone.forM fun r => execute fun t =>
          { t with entityRates := t.entityRates.filter fun key _ => key ≠ r.1 })
          (fun _ s => OnlyRates db s) s := fun s gone hs =>
      ends_forM_onlyRates
        (f := fun (r : EntityKey × ℤ × ℤ) rates => rates.filter fun key _ => key ≠ r.1) hs
    refine .bind (.mono (.transaction (.bind ((hupserts _).mono fun _ s hs => hgone s _ hs))) ?_)
    rintro _ _ ⟨rates, stored, rfl⟩
    exact .modify ⟨_, _, rfl⟩

theorem ends_readTick {changed : List (IpAddr × ℤ)} {moved : List FlowRecord} :
    Ends (readTick changed moved) (fun _ s => s = db) db := by
  refine .bind (Ends.mono (Ends.forM (I := fun _ s => s = db) ?_ rfl) ?_)
  · rintro done any later _ - rfl
    split
    · exact ends_select rfl
    · exact .pure rfl
  · rintro _ _ rfl
    exact ends_select rfl

/-- What an ingest that succeeds leaves. -/
theorem ends_tryIngest : Ends (tryIngest flowId input)
    (fun event s => ∃ stored touched, Interval input flowId db stored touched event s) db := by
  refine .bind (.bind (.modify (.bind (.get (.bind (ends_record.mono ?_))))))
  rintro recorded stored ⟨hstores, htouched⟩
  refine .bind (ends_enforcePolicy.mono ?_)
  rintro _ _ rfl
  refine .pure (.bind (ends_readBack.mono ?_))
  rintro _ _ ⟨rfl, rfl⟩
  refine .bind (ends_storeBuckets.mono ?_)
  rintro _ _ rfl
  refine .bind (ends_storeEntityRates.mono ?_)
  rintro _ _ ⟨rates, storedRates, rfl⟩
  simp only
  have hend : ∀ overview, Ends (pure {
      inbound := batchTotal .inbound input.batch.flows
      outbound := batchTotal .outbound input.batch.flows
      flows := (updatedOf input flowId recorded.touched stored).filter fun record =>
        flowMoved flowId input.batch.flows record.id || record.row.ended
      overview } : Action StreamEvent)
      (fun event s => ∃ stored touched, Interval input flowId db stored touched event s)
      { (keptOf input stored).withBuckets
          (trafficWrites input (totalsOf (movesOf input flowId recorded.touched stored)))
          (entityWrites input (movesOf input flowId recorded.touched stored)) with
        tables := { ((keptOf input stored).withBuckets
          (trafficWrites input (totalsOf (movesOf input flowId recorded.touched stored)))
          (entityWrites input (movesOf input flowId recorded.touched stored))).tables with
            entityRates := rates }
        storedRates } :=
    fun overview => .pure ⟨stored, recorded.touched, hstores, htouched, rfl, rfl, rfl, rfl, rfl⟩
  split
  · refine .bind (ends_readTick.mono ?_)
    rintro overview _ rfl
    exact hend overview
  · exact hend _

section Effect

variable {stored db' : TrafficDb} {touched : List UInt64} {event : StreamEvent}

/-! ## The flows to choose from -/

theorem undomained_expected (h : Interval input flowId db stored touched event db') :
    (expected input flowId db).flows = stored.tables.undomained := h.stores.rows.symm

theorem keptFlow_expected (h : Interval input flowId db stored touched event db') (id : UInt64)
    (row : FlowRow) : stored.tables.keptFlow input.settings input.nowSystem id row =
      (expected input flowId db).keptFlow input.settings input.nowSystem id row.undomained := by
  apply Tables.keptFlow_congr
  · unfold Tables.undomained
    rw [undomained_expected h]
    exact (Table.mapRows_mapRows stored.tables.flows (f := fun _ row => row.undomained)
      (g := fun _ row => row.undomained)).symm
  · rw [h.stores.drift]
    exact (add_sub_cancel_right _ _).symm

theorem policyDue_stored (h : Interval input flowId db stored touched event db') :
    stored.policyDue input.policyInstant = db.policyDue input.policyInstant := by
  unfold policyDue
  rw [h.stores.live]

/-- Which rows are still there at the end. -/
theorem find_end (h : Interval input flowId db stored touched event db') (id : UInt64) :
    db'.tables.flows.find id = (stored.tables.flows.find id).filter fun row =>
      !db.policyDue input.policyInstant ||
        stored.tables.keptFlow input.settings input.nowSystem id row := by
  rw [h.flows]
  unfold keptOf enforced
  rw [policyDue_stored h]
  cases db.policyDue input.policyInstant with
  | true =>
    simp only [if_true, Tables.flows_enforced, Table.find_filter, Bool.not_true, Bool.false_or]
  | false =>
    simp only [Bool.false_eq_true, if_false, Bool.not_false, Bool.true_or]
    cases stored.tables.flows.find id <;> rfl

end Effect

end Interval

end TrafficDb

/-! ## A small interval -/

/-- A connection from the local network. -/
def lanFlow : FlowKey where
  source := ⟨.v4 (.new 192 168 1 2), some 40000⟩
  destination := ⟨.v4 (.new 203 0 113 1), some 443⟩
  interfaceIndex := ⟨2, ifindex_two_ne_zero⟩
  protocol := .tcp
  direction := .outbound

def lanUpdate (delta total : TrafficCounters) (state : FlowState) : Sighting where
  key := lanFlow
  delta
  total
  firstSeen := 0
  lastSeen := 5
  state
  service := none
  application := none
  resolved := none
  profile := { scope := .publicScope }

def lanInterval (settings : Settings) (updates : List Sighting) : IngestInput where
  batch := {
    collectedAt := 1700000000123456789
    flows := updates
    domains := []
    attachedInterfaces := [(2, "eth0")] }
  settings
  nowInstant := 10
  nowSystem := 1700000000123456789
  policyInstant := 11

/-- One update of one flow. -/
def oneUpdate : IngestInput := lanInterval {} [lanUpdate ⟨3, 300⟩ ⟨3, 300⟩ .active]

end ZimaScope
