import ZimaScope.Db.Interval
import ZimaScope.Lib.Faults

/-! # Interrupted intervals

An interval commits more than once. Whatever statement fails, the tables are as
they were at the start of the transaction or of the lone statement it belongs
to, and everything committed before stays.
-/

namespace ZimaScope

/-- What an interval stores, less the mirrors the triggers keep. -/
def Tables.persisted (t : Tables) :=
  (t.flows, t.observations, t.applications, t.trafficBuckets, t.entityBuckets, t.entityRates)

namespace TrafficDb

open Storage

/-! ## The starts of an interval -/

/-- The statements of a retention policy that is due. -/
def policyStatements (settings : Settings) (now : SystemTime) (t : Tables) : List (Tables → Tables) :=
  id :: ((if 0 < t.overflow settings then [fun t' => t'.deleteOldestFlows (t.overflow settings)]
    else []) ++ policyDeletes settings now)

/-- The delete for capacity, when there is one. -/
theorem after_capacity {settings : Settings} {t : Tables} :
    Tables.after (if 0 < t.overflow settings then
      [fun t' : Tables => t'.deleteOldestFlows (t.overflow settings)] else []) t =
        t.deleteOverflow settings := by
  unfold Tables.deleteOverflow
  split <;> rfl

section Starts

variable (flowId : FlowKey → UInt64) (input : IngestInput) (db : TrafficDb)

/-- The first transaction, when no statement of it fails. -/
def recordedOf : Except ApiError Recorded × TrafficDb :=
  let c := record input flowId (attached input db.interfaces)
    ⟨{ db with interfaces := attached input db.interfaces }, []⟩
  (c.1, c.2.store)

def touchedOf : List UInt64 :=
  match (recordedOf flowId input db).1 with
  | .ok recorded => recorded.touched
  | .error _ => []

/-- The database with the buckets of the interval. -/
def bucketsOf : TrafficDb :=
  let stored := (recordedOf flowId input db).2
  let moves := movesOf input flowId (touchedOf flowId input db) stored
  (keptOf input stored).withBuckets (trafficWrites input (totalsOf moves)) (entityWrites input moves)

/-- With the entity rates. -/
def ratesOf : TrafficDb := (storeEntityRates input.rates ⟨bucketsOf flowId input db, []⟩).2.store

/-- The tables at the start of each transaction of an interval, and of each statement outside
of one. -/
def intervalStarts : List Tables :=
  let stored := (recordedOf flowId input db).2
  let kept := keptOf input stored
  db.tables ::
    (if stored.policyDue input.policyInstant then
      starts (policyStatements input.settings input.nowSystem stored.tables) stored.tables
    else []) ++
    (if readIds input flowId (touchedOf flowId input db) = [] then [] else [kept.tables]) ++
    (if input.batch.flows = [] then [] else [kept.tables]) ++
    (if sameRates input.rates (bucketsOf flowId input db).storedRates then []
      else [(bucketsOf flowId input db).tables]) ++
    (if input.publish then [(ratesOf flowId input db).tables] else [])

end Starts

/-! ## Where an interval may stop -/

/-- The action runs to its end, and these are the tables its failures leave. -/
def Visits {α : Type} (x : Action α) (s : TrafficDb) (ts : List Tables) (a : α) (s' : TrafficDb) :
    Prop :=
  ∃ stops, Trail x s stops a s' ∧ ∀ t, t ∈ stops.map tables ↔ t ∈ ts

namespace Visits

variable {α β : Type} {x : Action α} {s s₁ s' : TrafficDb} {a : α} {b : β} {ts ts' : List Tables}

theorem of_trail {stops : List TrafficDb} (h : Trail x s stops a s') :
    Visits x s (stops.map tables) a s' := ⟨stops, h, fun _ => Iff.rfl⟩

theorem pure : Visits (pure a) s [] a s := of_trail .pure

theorem bind {f : α → Action β} (hx : Visits x s ts a s₁) (hf : Visits (f a) s₁ ts' b s') :
    Visits (x >>= f) s (ts ++ ts') b s' := by
  obtain ⟨stops, hx, hts⟩ := hx
  obtain ⟨stops', hf, hts'⟩ := hf
  refine ⟨_, hx.bind hf, fun t => ?_⟩
  rw [List.map_append, List.mem_append, List.mem_append, hts, hts']

theorem mono (h : Visits x s ts a s') (hts : ∀ t, t ∈ ts ↔ t ∈ ts') : Visits x s ts' a s' := by
  obtain ⟨stops, htrail, hstops⟩ := h
  exact ⟨stops, htrail, fun t => (hstops t).trans (hts t)⟩

theorem transaction (h : Visits x s ts a s') :
    Visits (TrafficDb.transaction x) s [s.tables] a s' := by
  obtain ⟨stops, htrail, -⟩ := h
  refine ⟨_, htrail.transaction, fun t => ?_⟩
  rw [List.map_replicate, List.mem_replicate, List.mem_singleton]
  exact and_iff_right (by omega)

theorem ends (h : Visits x s ts a s') {Q : α → TrafficDb → Prop} (hq : Ends x Q s) : Q a s' := by
  obtain ⟨stops, htrail, -⟩ := h
  exact hq.of_eq (htrail.ends [] (by simp)) rfl

theorem result (h : Visits x s ts a s') : x ⟨s, []⟩ = (.ok a, ⟨s', []⟩) := by
  obtain ⟨stops, htrail, -⟩ := h
  simpa using htrail.ends [] (by simp)

/-- A loop whose every turn is one read. -/
theorem foldlM_select {items : List β} {f : α → β → Action α} {next : α → β → α}
    (h : ∀ a item, Visits (f a item) s [s.tables] (next a item) s) :
    Visits (items.foldlM f a) s (if items = [] then [] else [s.tables]) (items.foldl next a) s := by
  induction items generalizing a with
  | nil => exact pure
  | cons item items ih =>
    rw [List.foldlM_cons, List.foldl_cons]
    refine ((h a item).bind ih).mono fun t => ?_
    split <;> simp

theorem leaves (h : Visits x s ts a s') {P : Tables → Prop} (hend : P s'.tables)
    (hts : ∀ t ∈ ts, P t) (faults : List (Option String)) : P (x ⟨s, faults⟩).2.store.tables := by
  obtain ⟨stops, htrail, hstops⟩ := h
  refine htrail.leaves (P := fun s => P s.tables) hend (fun stop hstop => ?_) faults
  exact hts _ ((hstops _).mp (List.mem_map_of_mem hstop))

theorem iff (h : Visits x s ts a s') {P : Tables → Prop} :
    (∀ faults e c, x ⟨s, faults⟩ = (.error e, c) → P c.store.tables) ↔ ∀ t ∈ ts, P t := by
  obtain ⟨stops, htrail, hts⟩ := h
  rw [htrail.stops_iff (P := fun s => P s.tables)]
  simp only [← hts, List.forall_mem_map]

end Visits

section Phases

variable {flowId : FlowKey → UInt64} {input : IngestInput} {db : TrafficDb}

theorem visits_select {α : Type} {f : Tables → α} :
    Visits (select f) db [db.tables] (f db.tables) db := .of_trail .query

theorem runs_select {α : Type} {f : Tables → α} : Runs (select f) := .query

theorem runs_execute {f : Tables → Tables} : Runs (execute f) := .execute

theorem runs_cachedDomains {key : FlowKey} {cache : DomainsCache} :
    Runs (cachedDomains input key cache) := by
  unfold cachedDomains
  simp only
  split
  · exact .pure
  · exact runs_select.bind fun _ => .pure

theorem visits_transaction {α : Type} {x : Action α} (h : Runs x) :
    ∃ a s', Visits (TrafficDb.transaction x) db [db.tables] a s' := by
  obtain ⟨stops, a, s', htrail⟩ := h db
  exact ⟨a, s', .transaction (.of_trail htrail)⟩

theorem visits_record {interfaces : HashMap UInt32 String} :
    ∃ recorded s', Visits (record input flowId interfaces) db [db.tables] recorded s' := by
  have hobservation : ∀ observation, Runs (storeObservation input observation) := by
    intro observation
    unfold storeObservation
    simp only
    split
    · exact .pure
    · exact runs_execute.bind fun _ => .pure
  have hflow : ∀ progress update, Runs (recordFlow input flowId interfaces progress update) := by
    intro progress update
    refine .bind (.bind runs_cachedDomains fun cached => ?_) fun _ => .pure
    obtain ⟨domains, cache⟩ := cached
    simp only
    split
    · exact .bind runs_execute fun _ => runs_execute.bind fun _ => .pure
    · exact runs_execute.bind fun _ => .pure
  refine visits_transaction
    (.bind (.foldlM ?_ _) fun changed => .bind (.foldlM ?_ _) fun touched => ?_)
  · exact fun _ observation => (hobservation observation).bind fun _ => .pure
  · exact fun _ _ => runs_select.bind fun _ => runs_execute.bind fun _ => runs_select.bind fun _ => .pure
  · exact .bind (.foldlM hflow _) fun _ => .pure

theorem execute_then_of_none {f : Tables → Tables} {x : Action Unit} {c : Conn TrafficDb}
    (h : c.faults.headD none = none) :
    (execute f >>= fun _ => x) c = x ⟨{ c.store with tables := f c.store.tables }, c.faults.tail⟩ := by
  have hrun : execute f c = (.ok (), ⟨{ c.store with tables := f c.store.tables }, c.faults.tail⟩) := by
    unfold execute Storage.execute
    exact statement_of_none h
  rw [bind_of_ok hrun]

theorem execute_then_of_some {f : Tables → Tables} {x : Action Unit} {c : Conn TrafficDb}
    {error : String} (h : c.faults.headD none = some error) :
    ((execute f >>= fun _ => x) c).2.store = c.store := by
  have hrun : execute f c = (.error (.ofStorage error), ⟨c.store, c.faults.tail⟩) := by
    unfold execute Storage.execute
    exact statement_of_some h
  rw [bind_of_error hrun]

theorem trail_forM_execute {statements : List (Tables → Tables)} :
    ∃ stops, stops.map tables = starts statements db.tables ∧
      Trail (statements.forM execute) db stops ()
        { db with tables := Tables.after statements db.tables } := by
  induction statements generalizing db with
  | nil => exact ⟨[], rfl, .pure⟩
  | cons f statements ih =>
    obtain ⟨stops, hstops, hrest⟩ := @ih { db with tables := f db.tables }
    refine ⟨[db] ++ stops, ?_, Trail.bind .execute hrest⟩
    rw [List.singleton_append, List.map_cons, hstops]
    rfl

/-- A policy that is due stops at the start of each of its statements, and no other stops. -/
theorem trail_enforcePolicy {settings : Settings} {nowInstant : Instant} {now : SystemTime} :
    ∃ stops, stops.map tables = (if db.policyDue nowInstant then
        starts (policyStatements settings now db.tables) db.tables else []) ∧
      Trail (enforcePolicy settings nowInstant now) db stops ()
        (db.enforced settings nowInstant now) := by
  unfold enforcePolicy enforced policyDue
  cases hrecent : db.lastPolicyAt.any fun last =>
      decide (nowInstant.saturatingDurationSince last < policyInterval) with
  | true =>
    refine ⟨[] ++ ([] ++ []), rfl, Trail.bind .modify (Trail.bind .get ?_)⟩
    simp only [hrecent, if_true]
    exact .pure
  | false =>
    simp only [Bool.not_false, if_true]
    unfold policyStatements Tables.enforced Tables.deleteOverflow
    let counted : TrafficDb :=
      { db with flowCapacity := settings.resources.maxFlowEntries, lastPolicyAt := some nowInstant }
    by_cases hover : 0 < db.tables.overflow settings
    · let deleted : TrafficDb :=
        { counted with tables := db.tables.deleteOldestFlows (db.tables.overflow settings) }
      obtain ⟨stops, hstops, hrest⟩ := @trail_forM_execute deleted (policyDeletes settings now)
      refine ⟨[] ++ ([] ++ ([] ++ ([counted] ++ ([counted] ++ stops)))), ?_,
        Trail.bind .modify (Trail.bind .get ?_)⟩
      · simp only [hover, if_true, List.nil_append, List.singleton_append, List.map_cons, hstops]
        rfl
      · simp only [hrecent, hover, Bool.false_eq_true, if_false, if_true]
        refine Trail.bind .modify (Trail.bind .query ?_)
        unfold Tables.overflow at hover
        simp only [hover, if_true]
        exact Trail.bind .execute hrest
    · obtain ⟨stops, hstops, hrest⟩ := @trail_forM_execute counted (policyDeletes settings now)
      refine ⟨[] ++ ([] ++ ([] ++ ([counted] ++ ([] ++ stops)))), ?_,
        Trail.bind .modify (Trail.bind .get ?_)⟩
      · simp only [hover, if_false, List.nil_append, List.singleton_append, List.map_cons, hstops]
        rfl
      · simp only [hrecent, hover, Bool.false_eq_true, if_false]
        refine Trail.bind .modify (Trail.bind .query ?_)
        unfold Tables.overflow at hover
        simp only [hover, if_false]
        exact Trail.bind .pure hrest

theorem visits_enforcePolicy {settings : Settings} {nowInstant : Instant} {now : SystemTime} :
    Visits (enforcePolicy settings nowInstant now) db
      (if db.policyDue nowInstant then starts (policyStatements settings now db.tables) db.tables
        else []) () (db.enforced settings nowInstant now) := by
  obtain ⟨stops, hstops, htrail⟩ := @trail_enforcePolicy db settings nowInstant now
  exact ⟨stops, htrail, fun t => by rw [hstops]⟩

theorem visits_storeEntityRates {next : Table EntityKey (ℤ × ℤ)} :
    Visits (storeEntityRates next) db (if sameRates next db.storedRates then [] else [db.tables]) ()
      (storeEntityRates next ⟨db, []⟩).2.store := by
  have hvisits : ∃ a s', Visits (storeEntityRates next) db
      (if sameRates next db.storedRates then [] else [db.tables]) a s' := by
    unfold storeEntityRates
    split
    · next hsame =>
      refine ⟨(), db, .bind (.of_trail .get) ?_⟩
      simp only [hsame, if_true]
      exact .pure
    · next hsame =>
      have hends : ∀ {x : Action Unit}, Runs x → ∃ a s', Visits (TrafficDb.transaction x >>= fun _ =>
          Storage.modify fun db => { db with storedRates := next }) db [db.tables] a s' := by
        intro x hx
        obtain ⟨a, s', h⟩ := visits_transaction hx
        exact ⟨(), _, h.bind (.of_trail .modify)⟩
      obtain ⟨a, s', h⟩ := hends (.bind (.forM fun _ => runs_execute) fun _ => .forM fun _ =>
        runs_execute)
      refine ⟨a, s', .bind (.of_trail .get) ?_⟩
      simp only [hsame]
      exact h
  obtain ⟨_, s', h⟩ := hvisits
  rw [h.result]
  exact h

theorem visits_readTick {changed : List (IpAddr × ℤ)} {moved : List FlowRecord} :
    Visits (readTick changed moved) db [db.tables] db.tables.flowStats db := by
  have hreads : ∀ anys : List Bool, ∃ ts, (∀ t ∈ ts, t = db.tables) ∧
      Visits (anys.forM fun any => if any then select fun _ => () else pure ()) db ts () db := by
    intro anys
    induction anys with
    | nil => exact ⟨[], by simp, .pure⟩
    | cons any anys ih =>
      obtain ⟨ts, hts, h⟩ := ih
      cases any with
      | true =>
        have hread : Visits (select fun _ => ()) db [db.tables] () db := visits_select
        exact ⟨db.tables :: ts, by simpa using hts, hread.bind h⟩
      | false => exact ⟨ts, hts, .bind .pure h⟩
  obtain ⟨ts, hts, h⟩ := hreads _
  refine (h.bind visits_select).mono fun t => ?_
  rw [List.mem_append, List.mem_singleton]
  exact or_iff_right_of_imp (hts t)

theorem runs_addFlow {totals : InterfaceTotals} {record : FlowRecord} :
    Runs (addFlow input flowId totals record) := by
  unfold addFlow
  split
  · exact .pure
  · split
    · exact .pure
    · exact .bind (.forM fun _ => .forM fun _ => runs_execute) fun _ => .pure

theorem visits_storeBuckets {updated : List FlowRecord} :
    Visits (storeBuckets input flowId updated) db (if input.batch.flows = [] then [] else [db.tables])
      () (db.withBuckets (trafficWrites input (totalsOf (contributions input flowId updated)))
        (entityWrites input (contributions input flowId updated))) := by
  have hvisits : ∃ a s', Visits (storeBuckets input flowId updated) db
      (if input.batch.flows = [] then [] else [db.tables]) a s' := by
    unfold storeBuckets
    split
    · exact ⟨(), db, .pure⟩
    · exact visits_transaction (.bind (.foldlM (fun _ _ => runs_addFlow) ∅) fun _ =>
        .forM fun _ => .forM fun _ => runs_execute)
  obtain ⟨_, s', h⟩ := hvisits
  have hs : s' = _ := h.ends ends_storeBuckets
  rwa [← hs]

theorem visits_readBack {touched : List UInt64} :
    Visits (readBack input flowId touched) db
      (if readIds input flowId touched = [] then [] else [db.tables])
      ((readIds input flowId touched).filterMap (recordOf db.tables)) db := by
  have h : Visits (readBack input flowId touched) db
      (if readIds input flowId touched = [] then [] else [db.tables])
      ((readIds input flowId touched).foldl (fun updated id => updated ++ (recordOf db.tables id).toList)
        []) db :=
    .foldlM_select fun updated id => visits_select.bind .pure
  obtain ⟨-, hupdated⟩ := h.ends ends_readBack
  rwa [hupdated] at h

/-- Everything an interval goes through. -/
theorem visits_tryIngest : ∃ event s', Visits (tryIngest flowId input) db
    (intervalStarts flowId input db) event s' := by
  obtain ⟨recorded, stored, hrecord⟩ : ∃ recorded stored,
      Visits (record input flowId (attached input db.interfaces))
        { db with interfaces := attached input db.interfaces } [db.tables] recorded stored :=
    visits_record
  have hrecorded : recordedOf flowId input db = (.ok recorded, stored) := by
    unfold recordedOf
    rw [hrecord.result]
  have htouched : touchedOf flowId input db = recorded.touched := by
    unfold touchedOf
    rw [hrecorded]
  let updated := updatedOf input flowId recorded.touched stored
  have hread : Visits (readBack input flowId recorded.touched) (keptOf input stored)
      (if readIds input flowId recorded.touched = [] then [] else [(keptOf input stored).tables])
      updated (keptOf input stored) := visits_readBack
  have hbuckets : Visits (storeBuckets input flowId updated) (keptOf input stored)
      (if input.batch.flows = [] then [] else [(keptOf input stored).tables]) ()
      (bucketsOf flowId input db) := by
    unfold bucketsOf
    rw [hrecorded, htouched]
    exact visits_storeBuckets
  have hrates : Visits (storeEntityRates input.rates) (bucketsOf flowId input db)
      (if sameRates input.rates (bucketsOf flowId input db).storedRates then []
        else [(bucketsOf flowId input db).tables]) () (ratesOf flowId input db) :=
    visits_storeEntityRates
  have htick : ∀ f : FlowStats → StreamEvent, ∃ event, Visits
      (if input.publish then readTick recorded.changed (updated.filter fun record =>
          flowMoved flowId input.batch.flows record.id) >>= fun overview => pure (f overview)
        else pure {} >>= fun overview => pure (f overview))
      (ratesOf flowId input db) (if input.publish then [(ratesOf flowId input db).tables] else [])
      event (ratesOf flowId input db) := by
    intro f
    split
    · have hend : Visits (pure (f (ratesOf flowId input db).tables.flowStats)) (ratesOf flowId input db)
          [] (f (ratesOf flowId input db).tables.flowStats) (ratesOf flowId input db) := .pure
      exact ⟨_, visits_readTick.bind hend⟩
    · exact ⟨_, .pure⟩
  have hinterval : Visits (recordInterval flowId input) db
      (db.tables :: ((if stored.policyDue input.policyInstant then
        starts (policyStatements input.settings input.nowSystem stored.tables) stored.tables else [])
          ++ [])) recorded (keptOf input stored) :=
    .bind (.of_trail .modify) (.bind (.of_trail .get)
      (hrecord.bind (visits_enforcePolicy.bind .pure)))
  obtain ⟨event, htick⟩ := htick _
  have h : Visits (tryIngest flowId input) db _ event (ratesOf flowId input db) :=
    hinterval.bind (hread.bind (hbuckets.bind (hrates.bind htick)))
  refine ⟨event, _, h.mono fun t => ?_⟩
  unfold intervalStarts
  rw [hrecorded, htouched]
  simp

end Phases

end TrafficDb

end ZimaScope
