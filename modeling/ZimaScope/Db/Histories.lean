import Mathlib.Tactic.FinCases
import ZimaScope.Db.Timeliness

/-! # Databases over whole runs

What holds of every database a daemon comes to, whichever statements failed on
the way: the domain mirror repeats the associations of each flow, a flow has one
association for a domain, and the rates remembered are those stored.
-/

namespace ZimaScope

open TrafficDb Storage

/-- What happens to a database; any statement may fail. -/
inductive DbEvent
  | ingest (input : IngestInput) (faults : List (Option String))
  | saveSettings (settings : Settings) (nowInstant : Instant) (now : SystemTime)
      (faults : List (Option String))
  | clearHistory (faults : List (Option String))
  | restart (flowCapacity : ℕ)

section Databases

variable (flowId : FlowKey → UInt64)

def TrafficDb.next (db : TrafficDb) : DbEvent → TrafficDb
  | .ingest input faults => (tryIngest flowId input ⟨db, faults⟩).2.store
  | .saveSettings settings nowInstant now faults =>
    (saveSettings settings nowInstant now ⟨db, faults⟩).2.store
  | .clearHistory faults => (TrafficDb.clearHistory ⟨db, faults⟩).2.store
  | .restart flowCapacity => TrafficDb.restart db.tables flowCapacity

/-- The runs of events that meet a condition, from an empty file. -/
def databases (cond : TrafficDb → DbEvent → Prop) : System TrafficDb where
  init db := ∃ flowCapacity, db = TrafficDb.restart {} flowCapacity
  step db db' := ∃ event, cond db event ∧ db' = db.next flowId event

end Databases

/-! ## The domain mirror -/

namespace Tables

variable {t : Tables}

/-- A flow has one association for a domain. -/
def UniqueDomains (t : Tables) : Prop :=
  ∀ id row, t.flows.find id = some row → (row.domainsJson.map DomainRefDto.domain).Nodup

/-- What a list of flows with their domains relies on. -/
structure Listed (t : Tables) : Prop where
  domains : t.DomainsExact
  unique : t.UniqueDomains

theorem kept_domainsExact : Kept DomainsExact where
  delete _ _ h := deleteFlows_domains h
  expire _ _ h := h
  other _ _ ht h := by
    obtain ⟨hflows, hdomains, -⟩ := observed_eq_iff.mp ht
    exact h.of_eq hflows hdomains
  insert _ _ _ h := insertFlow_domains h
  update _ _ _ h := updateFlows_domains h
  observe _ _ _ h := h

theorem nodup_associateAddress {address : IpAddr} {ifindex : ℤ} {now : SystemTime} :
    ((t.associateAddress address ifindex now).map DomainRefDto.domain).Nodup := by
  rw [associateAddress_eq]
  exact nodup_firstDomains List.nodup_nil

theorem listed_empty : ({} : Tables).Listed where
  domains _ _ := rfl
  unique id row hrow := by
    rw [Table.find_empty] at hrow
    cases hrow

theorem Listed.clear (h : t.Listed) : ∀ f ∈ clearDeletes, (f t).Listed := by
  intro f hf
  fin_cases hf
  · constructor
    · exact deleteFlows_domains h.domains
    · exact stable_flows.delete t _ h.unique
  all_goals exact ⟨h.domains.of_eq rfl rfl, h.unique⟩

end Tables

section Listed

variable {flowId : FlowKey → UInt64} {db : TrafficDb} {event : DbEvent}

theorem uniqueDomains_recorded {input : IngestInput} {faults : List (Option String)}
    {recorded : Recorded} {c : Conn TrafficDb} (h : db.tables.UniqueDomains)
    (hrun : record input flowId (attached input db.interfaces) ⟨attachedDb input db, faults⟩ =
      (.ok recorded, c)) : c.store.tables.UniqueDomains := by
  intro id row' hrow
  rcases row_recorded hrun hrow with ⟨place, -, hdomains, -⟩ | ⟨row, hold, hdomains, -⟩
  · rw [hdomains]
    exact Tables.nodup_associateAddress
  · rw [hdomains]
    exact h id row hold

theorem listed_next (h : db.tables.Listed) : (db.next flowId event).tables.Listed := by
  cases event with
  | ingest input faults =>
    constructor
    · exact keeps_tryIngest Tables.kept_domainsExact ⟨db, faults⟩ h.domains
    · rcases tryIngest_cases input flowId db faults with ⟨recorded, c, hrun, hrest⟩ | ⟨-, htables⟩
      · exact hrest Tables.stable_flows (uniqueDomains_recorded h.unique hrun)
      · change (tryIngest flowId input ⟨db, faults⟩).2.store.tables.UniqueDomains
        rw [htables]
        exact h.unique
  | saveSettings settings nowInstant now faults =>
    constructor
    · exact keeps_saveSettings Tables.kept_domainsExact.toStable ⟨db, faults⟩ h.domains
    · exact keeps_saveSettings Tables.stable_flows ⟨db, faults⟩ h.unique
  | clearHistory faults =>
    have hdeletes : ∀ f ∈ clearDeletes, Keeps (execute f) fun db => db.tables.Listed :=
      fun f hf => keeps_execute fun t ht => ht.clear f hf
    exact (Keeps.forM hdeletes) ⟨db, faults⟩ h
  | restart flowCapacity => exact h

theorem listed_reachable {cond : TrafficDb → DbEvent → Prop}
    (hr : (databases flowId cond).Reachable db) : db.tables.Listed := by
  apply hr.invariant (P := fun db => db.tables.Listed)
  · rintro _ ⟨flowCapacity, rfl⟩
    exact Tables.listed_empty
  · rintro db _ hdb ⟨event, -, rfl⟩
    exact listed_next hdb

end Listed

/-! ## Rows -/

section Rows

variable {flowId : FlowKey → UInt64} {db : TrafficDb} {event : DbEvent} {R : FlowRow → Prop}

/-- Storing an update keeps the property of a row, whatever its associations. -/
structure KeptByStoring (R : FlowRow → Prop) : Prop where
  store : ∀ (update : Sighting) (input : IngestInput) (interfaces : HashMap UInt32 String)
    (old : Option FlowRow), (∀ row ∈ old, R row) → R (update.storeIn input interfaces old)
  domains : ∀ row row' : FlowRow, row.undomained = row'.undomained → R row → R row'

theorem KeptByStoring.storeAll (h : KeptByStoring R) {input : IngestInput}
    {interfaces : HashMap UInt32 String} {updates : List Sighting} {old : Option FlowRow}
    (hold : ∀ row ∈ old, R row) : ∀ row ∈ storeAll input interfaces old updates, R row := by
  induction updates generalizing old with
  | nil => exact hold
  | cons update updates ih =>
    apply ih
    rintro _ ⟨rfl⟩
    exact h.store update input interfaces old hold

theorem KeptByStoring.recorded (h : KeptByStoring R) {input : IngestInput}
    {faults : List (Option String)} {recorded : Recorded} {c : Conn TrafficDb}
    (hrows : ∀ id row, db.tables.flows.find id = some row → R row)
    (hrun : record input flowId (attached input db.interfaces) ⟨attachedDb input db, faults⟩ =
      (.ok recorded, c)) : ∀ id row, c.store.tables.flows.find id = some row → R row := by
  intro id row' hrow
  rcases row_recorded hrun hrow with ⟨-, -, -, hexpected⟩ | ⟨row, hold, -, hsame⟩
  · unfold expected at hexpected
    rw [find_storedFlows, Tables.find_undomained] at hexpected
    refine h.domains row'.undomained row' rfl (h.storeAll ?_ row'.undomained hexpected)
    intro row hrow
    obtain ⟨old, hold, rfl⟩ := Option.map_eq_some_iff.mp hrow
    exact h.domains old old.undomained rfl (hrows id old hold)
  · exact h.domains row row' hsame.symm (hrows id row hold)

theorem KeptByStoring.next (h : KeptByStoring R)
    (hrows : ∀ id row, db.tables.flows.find id = some row → R row) :
    ∀ id row, (db.next flowId event).tables.flows.find id = some row → R row := by
  have hstable : Tables.Stable fun t => ∀ id row, t.flows.find id = some row → R row :=
    Tables.stable_flows
  cases event with
  | ingest input faults =>
    rcases tryIngest_cases input flowId db faults with ⟨recorded, c, hrun, hrest⟩ | ⟨-, htables⟩
    · exact hrest hstable (h.recorded hrows hrun)
    · change ∀ id row, (tryIngest flowId input ⟨db, faults⟩).2.store.tables.flows.find id = some row → _
      rw [htables]
      exact hrows
  | saveSettings settings nowInstant now faults =>
    exact keeps_saveSettings hstable ⟨db, faults⟩ hrows
  | clearHistory faults =>
    have hdeletes : ∀ f ∈ clearDeletes, Keeps (execute f) fun db =>
        ∀ id row, db.tables.flows.find id = some row → R row := by
      intro f hf
      refine .execute fun db ht => ?_
      fin_cases hf
      · exact hstable.delete db.tables _ ht
      all_goals exact ht
    exact (Keeps.forM hdeletes) ⟨db, faults⟩ hrows
  | restart flowCapacity => exact hrows

/-- What storing keeps holds of every row of every database. -/
theorem KeptByStoring.reachable (h : KeptByStoring R) {cond : TrafficDb → DbEvent → Prop}
    (hr : (databases flowId cond).Reachable db) {id : UInt64} {row : FlowRow}
    (hrow : db.tables.flows.find id = some row) : R row := by
  have hall : ∀ id row, db.tables.flows.find id = some row → R row := by
    apply hr.invariant (P := fun db => ∀ id row, db.tables.flows.find id = some row → R row)
    · rintro _ ⟨flowCapacity, rfl⟩ id row hrow
      change (∅ : Table UInt64 FlowRow).find id = some row at hrow
      rw [Table.find_empty] at hrow
      cases hrow
    · rintro db _ hdb ⟨event, -, rfl⟩
      exact h.next hdb
  exact hall id row hrow

end Rows

/-! ## The stored rates -/

/-- The same rate for every entity. -/
def SameRates (a b : Table EntityKey (ℤ × ℤ)) : Prop := ∀ key, a.find key = b.find key

/-- The rates that the next interval is compared with are those in the table. -/
def TrafficDb.RatesStored (db : TrafficDb) : Prop := SameRates db.storedRates db.tables.entityRates

/-- No history clear stops before it has deleted the rates. -/
def ClearsRates (db : TrafficDb) : DbEvent → Prop
  | .clearHistory faults => ((clearDeletes.take 5).forM execute ⟨db, faults⟩).1 = .ok ()
  | _ => True

section Rates

variable {flowId : FlowKey → UInt64} {input : IngestInput} {db : TrafficDb} {event : DbEvent}

theorem sameRates_iff {a b : Table EntityKey (ℤ × ℤ)} : sameRates a b = true ↔ SameRates a b := by
  unfold sameRates
  simp only [Bool.and_eq_true, List.all_eq_true, decide_eq_true_eq]
  constructor
  · rintro ⟨hab, hba⟩ key
    cases ha : a.find key with
    | some rate => exact (hab _ (Table.find_eq_some_iff.mp ha)).symm
    | none =>
      cases hb : b.find key with
      | none => rfl
      | some rate =>
        rw [hba _ (Table.find_eq_some_iff.mp hb)] at ha
        cases ha
  · intro h
    constructor
    · intro r hr
      rw [← h r.1]
      exact Table.find_eq_some_iff.mpr hr
    · intro r hr
      rw [h r.1]
      exact Table.find_eq_some_iff.mpr hr

section Beside

/-! Most statements leave the rates alone. -/

variable {settings : Settings} {nowInstant : Instant} {now : SystemTime}
  {interfaces : HashMap UInt32 String}

theorem keeps_beside {f : Tables → Tables} (hf : ∀ t, (f t).entityRates = t.entityRates) :
    Keeps (execute f) RatesStored := by
  apply Keeps.execute
  intro db h key
  exact (h key).trans (congrArg (fun rates => rates.find key) (hf db.tables)).symm

theorem entityRates_of_buckets {t t' : Tables} (h : t'.buckets = t.buckets) :
    t'.entityRates = t.entityRates := (Prod.ext_iff.mp (Prod.ext_iff.mp h).2).2

theorem keeps_enforcePolicy_rates : Keeps (enforcePolicy settings nowInstant now) RatesStored := by
  have hdeletes : ∀ f ∈ policyDeletes settings now, Keeps (execute f) RatesStored := by
    unfold policyDeletes
    cases settings.history.enabled <;>
      · intro f hf
        fin_cases hf
        · exact keeps_beside fun t => entityRates_of_buckets Tables.buckets_deleteFlows
        all_goals exact keeps_beside fun _ => rfl
  refine .bind (.modify fun _ h => h) fun _ => .bind .get fun db => ?_
  split
  · exact .pure
  · refine .bind (.modify fun _ h => h) fun _ => .bind .query fun count => ?_
    simp only
    split
    · refine .bind (keeps_beside fun t => ?_) fun _ => .forM hdeletes
      exact entityRates_of_buckets Tables.buckets_deleteFlows
    · exact .forM hdeletes

theorem keeps_record_rates : Keeps (record input flowId interfaces) RatesStored := by
  have hflow : ∀ progress update,
      Keeps (recordFlow input flowId interfaces progress update) RatesStored := by
    intro progress update
    have hdomains : Keeps (cachedDomains input update.key progress.2) RatesStored := by
      unfold cachedDomains
      simp only
      split
      · exact .pure
      · exact .bind .query fun _ => .pure
    refine .bind (.bind hdomains fun cached => ?_) fun _ => .pure
    have hinsert : ∀ row, Keeps (execute fun t => t.insertFlow (flowId update.key) row) RatesStored :=
      fun row => keeps_beside fun t => entityRates_of_buckets Tables.buckets_insertFlow
    obtain ⟨domains, cache⟩ := cached
    simp only
    split
    · exact .bind (keeps_beside fun _ => rfl) fun _ => .bind (hinsert _) fun _ => .pure
    · exact .bind (hinsert _) fun _ => .pure
  refine .transaction (.bind (.foldlM (fun _ observation => ?_) _) fun changed => .bind
    (.foldlM (fun _ _ => ?_) _) fun touched => .bind (.foldlM hflow _) fun _ => .pure)
  · refine .bind ?_ fun _ => .pure
    unfold storeObservation
    simp only
    split
    · exact .pure
    · exact .bind (keeps_beside fun _ => rfl) fun _ => .pure
  · refine .bind .query fun _ => .bind (keeps_beside fun t => ?_) fun _ => .bind .query fun _ => .pure
    exact entityRates_of_buckets Tables.buckets_updateFlows

theorem keeps_storeBuckets_rates {updated : List FlowRecord} :
    Keeps (storeBuckets input flowId updated) RatesStored := by
  have hadd : ∀ totals record, Keeps (addFlow input flowId totals record) RatesStored := by
    intro totals record
    unfold addFlow
    split
    · exact .pure
    · split
      · exact .pure
      · exact .bind (.forM fun _ _ => .forM fun _ _ => keeps_beside fun _ => rfl) fun _ => .pure
  unfold storeBuckets
  split
  · exact .pure
  · refine .transaction (.bind (.foldlM hadd _) fun totals => .forM fun _ _ => .forM fun _ _ => ?_)
    exact keeps_beside fun _ => rfl

end Beside

theorem flatten_toChunks {α : Type} (n : ℕ) (items : List α) : (items.toChunks n).flatten = items := by
  have hgo : ∀ (n : ℕ) (items : List α) (chunk : Array α) (chunks : Array (List α)),
      (List.toChunks.go n items chunk chunks).flatten =
        chunks.toList.flatten ++ chunk.toList ++ items := by
    intro n items
    induction items with
    | nil => simp [List.toChunks.go]
    | cons item items ih =>
      intro chunk chunks
      unfold List.toChunks.go
      split
      · simp [ih]
      · simp [ih]
  cases items with
  | nil => simp [List.toChunks]
  | cons item items =>
    cases n with
    | zero => simp [List.toChunks]
    | succ n => simp [List.toChunks, hgo]

/-- A chunk of changed rates after the other. -/
def upsertRates (rates : Table EntityKey (ℤ × ℤ)) (rows : List (EntityKey × ℤ × ℤ)) :
    Table EntityKey (ℤ × ℤ) := rows.foldl (fun rates r => rates.upsert r.1 fun _ => r.2) rates

def deleteRates (rates : Table EntityKey (ℤ × ℤ)) (rows : List (EntityKey × ℤ × ℤ)) :
    Table EntityKey (ℤ × ℤ) := rows.foldl (fun rates r => rates.filter fun key _ => key ≠ r.1) rates

/-- The changed rows and then the deletes make the table what it is to be. -/
theorem find_deleteRates_upsertRates {next stored rates : Table EntityKey (ℤ × ℤ)}
    (h : SameRates stored rates) :
    SameRates (deleteRates (upsertRates rates (next.rows.filter fun r => stored.find r.1 ≠ some r.2))
      (stored.rows.filter fun r => next.find r.1 = none)) next := by
  intro key
  unfold deleteRates upsertRates
  have hrows : ∀ r ∈ next.rows.filter (fun r => stored.find r.1 ≠ some r.2),
      next.find r.1 = some r.2 :=
    fun r hr => Table.find_eq_some_iff.mpr (List.mem_filter.mp hr).1
  rw [Table.find_foldl_filter, Table.find_foldl_upsert hrows]
  cases hnext : next.find key with
  | none =>
    have hkept : ¬ ∃ r ∈ next.rows.filter (fun r => stored.find r.1 ≠ some r.2), r.1 = key := by
      rintro ⟨r, hr, rfl⟩
      rw [Table.find_eq_some_iff.mpr (List.mem_filter.mp hr).1] at hnext
      cases hnext
    rw [if_neg hkept, ← h key]
    cases hstored : stored.find key with
    | none => exact ite_self _
    | some rate =>
      refine if_pos ⟨(key, rate), List.mem_filter.mpr ⟨Table.find_eq_some_iff.mp hstored, ?_⟩, rfl⟩
      exact decide_eq_true hnext
  | some rate =>
    have hkept : ¬ ∃ r ∈ stored.rows.filter (fun r => next.find r.1 = none), r.1 = key := by
      rintro ⟨r, hr, rfl⟩
      rw [of_decide_eq_true (List.mem_filter.mp hr).2] at hnext
      cases hnext
    rw [if_neg hkept]
    by_cases hmoved : stored.find key = some rate
    · rw [← h key, hmoved]
      exact ite_self _
    · refine if_pos ⟨(key, rate), List.mem_filter.mpr ⟨Table.find_eq_some_iff.mp hnext, ?_⟩, rfl⟩
      exact decide_eq_true hmoved

/-- Storing the rates of an interval. -/
theorem ends_storeEntityRates_same {next : Table EntityKey (ℤ × ℤ)} (h : db.RatesStored) :
    Ends (storeEntityRates next)
      (fun _ s => SameRates s.tables.entityRates next ∧ s.RatesStored) db := by
  refine .bind (.get ?_)
  simp only
  split
  · next hsame =>
    refine .pure ⟨?_, h⟩
    intro key
    rw [← h key, sameRates_iff.mp hsame key]
  · have hupserts : Ends (((next.rows.filter fun r => db.storedRates.find r.1 ≠ some r.2).toChunks
          entityRateChunk).forM fun chunk => execute fun t =>
            { t with entityRates := upsertRates t.entityRates chunk })
        (fun _ s => s = { db with tables := { db.tables with
          entityRates := upsertRates db.tables.entityRates
            (next.rows.filter fun r => db.storedRates.find r.1 ≠ some r.2) } }) db := by
      refine Ends.mono (Ends.forM (I := fun done s => s = { db with tables := { db.tables with
        entityRates := upsertRates db.tables.entityRates done.flatten } }) ?_ rfl) ?_
      · rintro done chunk later _ - rfl
        refine ends_execute ?_
        unfold upsertRates
        simp
      · rintro _ _ rfl
        rw [flatten_toChunks]
    have hdeletes : ∀ s : TrafficDb, Ends ((db.storedRates.rows.filter fun r => next.find r.1 = none).forM
          fun r => execute fun t => { t with entityRates := t.entityRates.filter fun key _ => key ≠ r.1 })
        (fun _ s' => s' = { s with tables := { s.tables with
          entityRates := deleteRates s.tables.entityRates
            (db.storedRates.rows.filter fun r => next.find r.1 = none) } }) s := by
      intro s
      refine Ends.forM (I := fun done s' => s' = { s with tables := { s.tables with
        entityRates := deleteRates s.tables.entityRates done } }) ?_ rfl
      rintro done r later _ - rfl
      refine ends_execute ?_
      unfold deleteRates
      simp
    refine .bind (Ends.mono (.transaction (Q := fun _ s => SameRates s.tables.entityRates next)
      (.bind (hupserts.mono ?_))) fun _ s hs => .modify ⟨hs, fun key => (hs key).symm⟩)
    rintro _ _ rfl
    refine (hdeletes _).mono ?_
    rintro _ _ rfl
    exact find_deleteRates_upsertRates h

theorem keeps_storeEntityRates_rates {next : Table EntityKey (ℤ × ℤ)} :
    Keeps (storeEntityRates next) RatesStored := by
  intro c hc
  generalize hrun : storeEntityRates next c = run
  obtain ⟨e | ⟨⟩, c'⟩ := run
  · -- the transaction is undone, and what is remembered is not touched before it commits
    have hstore : c'.store = c.store := by
      unfold storeEntityRates at hrun
      rw [bind_apply] at hrun
      change (if sameRates next c.store.storedRates then pure () else
        TrafficDb.transaction _ >>= fun _ => Storage.modify _ : Action Unit) c = _ at hrun
      split at hrun
      · cases hrun
      · rw [bind_apply] at hrun
        split at hrun
        · cases hrun
        · next e' c'' htransaction =>
          obtain ⟨-, rfl⟩ := Prod.mk.inj hrun
          exact store_of_transaction_error htransaction
    change c'.store.RatesStored
    rw [hstore]
    exact hc
  · exact ((ends_storeEntityRates_same hc).of_eq hrun rfl).2

theorem keeps_readTick_rates {changed : List (IpAddr × ℤ)} {moved : List FlowRecord} :
    Keeps (readTick changed moved) RatesStored := by
  refine .bind (.forM fun any _ => ?_) fun _ => .query
  split
  · exact .query
  · exact .pure

theorem keeps_recordInterval_rates : Keeps (recordInterval flowId input) RatesStored :=
  .bind (.modify fun _ h => h) fun _ => .bind .get fun _ => .bind keeps_record_rates fun _ =>
    .bind keeps_enforcePolicy_rates fun _ => .pure

theorem keeps_readBack_rates {touched : List UInt64} :
    Keeps (readBack input flowId touched) RatesStored := by
  unfold readBack
  refine .foldlM (fun updated id => ?_) _
  have hread : Keeps (flowById id) RatesStored := .query
  exact .bind hread fun _ => .pure

theorem keeps_tryIngest_rates : Keeps (tryIngest flowId input) RatesStored := by
  refine .bind keeps_recordInterval_rates fun recorded => .bind keeps_readBack_rates fun updated =>
    .bind keeps_storeBuckets_rates fun _ => .bind keeps_storeEntityRates_rates fun _ => ?_
  simp only
  split
  · exact .bind keeps_readTick_rates fun _ => .pure
  · exact .bind .pure fun _ => .pure

/-- An ingest that succeeds leaves the rates of its interval. -/
theorem ends_tryIngest_rates (h : db.RatesStored) : Ends (tryIngest flowId input)
    (fun _ s => SameRates s.tables.entityRates input.rates) db := by
  refine .bind ((keeps_recordInterval_rates.ends h).mono fun recorded s hs => ?_)
  refine .bind ((keeps_readBack_rates.ends hs).mono fun updated s hs => ?_)
  refine .bind ((keeps_storeBuckets_rates.ends hs).mono fun _ s hs => ?_)
  refine .bind ((ends_storeEntityRates_same hs).mono fun _ s hs => ?_)
  simp only
  split
  · refine .bind (ends_readTick.mono ?_)
    rintro _ _ rfl
    exact .pure hs.1
  · exact .bind (.pure (.pure hs.1))

theorem forM_execute_append {fs gs : List (Tables → Tables)} : (fs ++ gs).forM execute =
    fs.forM execute >>= fun _ => gs.forM execute := by
  induction fs with
  | nil => rfl
  | cons f fs ih =>
    change (execute f >>= fun _ => (fs ++ gs).forM execute) =
      (execute f >>= fun _ => fs.forM execute) >>= fun _ => gs.forM execute
    rw [ih, Storage.bind_assoc]

/-- A clear that gets past the rates leaves none, in the table or in memory. -/
theorem ratesStored_clearHistory {faults : List (Option String)}
    (h : ClearsRates db (.clearHistory faults)) :
    (db.next flowId (.clearHistory faults)).RatesStored := by
  change ((clearDeletes.take 5).forM execute ⟨db, faults⟩).1 = .ok () at h
  generalize hrun : (clearDeletes.take 5).forM execute ⟨db, faults⟩ = run at h
  obtain ⟨result, c⟩ := run
  obtain rfl : result = .ok () := h
  have hcleared : c.store.tables.entityRates = ∅ := by
    rw [ends_forM_execute.of_eq hrun rfl]
    rfl
  have hrest : Keeps ((clearDeletes.drop 5).forM execute) fun db => db.tables.entityRates = ∅ := by
    refine .forM fun f hf => ?_
    fin_cases hf
    exact .execute fun _ h => h
  have hend : (clearDeletes.forM execute ⟨db, faults⟩).2 = ((clearDeletes.drop 5).forM execute c).2 := by
    have hsplit : clearDeletes.forM execute = (clearDeletes.take 5).forM execute >>= fun _ =>
        (clearDeletes.drop 5).forM execute := by
      rw [← forM_execute_append, List.take_append_drop]
    rw [hsplit, bind_of_ok hrun]
  intro key
  change (∅ : Table EntityKey (ℤ × ℤ)).find key =
    (clearDeletes.forM execute ⟨db, faults⟩).2.store.tables.entityRates.find key
  rw [hend, hrest c hcleared]

theorem ratesStored_next (h : db.RatesStored) (hcond : ClearsRates db event) :
    (db.next flowId event).RatesStored := by
  cases event with
  | ingest input faults => exact keeps_tryIngest_rates ⟨db, faults⟩ h
  | saveSettings settings nowInstant now faults =>
    have hsave : Keeps (saveSettings settings nowInstant now) RatesStored :=
      .bind (keeps_beside fun _ => rfl) fun _ => keeps_enforcePolicy_rates
    exact hsave ⟨db, faults⟩ h
  | clearHistory faults => exact ratesStored_clearHistory hcond
  | restart flowCapacity => exact fun _ => rfl

theorem ratesStored_reachable (hr : (databases flowId ClearsRates).Reachable db) :
    db.RatesStored := by
  apply hr.invariant (P := RatesStored)
  · rintro _ ⟨flowCapacity, rfl⟩ key
    rfl
  · rintro db _ hdb ⟨event, hcond, rfl⟩
    exact ratesStored_next hdb hcond

end Rates

end ZimaScope
