import ZimaScope.Db.Consistency

/-! # Delivery of an interval

When every delta of a batch reaches the buckets of its collection time, and
every flow that moved or ended the prepared event. The condition is one on the
batch, the settings and the database before the ingest.
-/

namespace ZimaScope

namespace TrafficDb

open Storage Table

section Delivery

variable (input : IngestInput) (flowId : FlowKey → UInt64) (db : TrafficDb)

/-- The flow moved or ended, as far as the update says. -/
def MovedOrEnded (update : Sighting) : Prop :=
  update.flowDelta.moved = true ∨ update.state ≠ .active

/-- The buckets grow by the deltas of the batch, and the event has the final records. -/
structure Delivered (event : StreamEvent) (db' : TrafficDb) : Prop where
  buckets : ∀ b ∈ bucketStarts input, ∀ ifindex,
    amountAt TimeBucket.counters db'.tables.trafficBuckets ⟨b.1, b.2, ifindex⟩ =
        amountAt TimeBucket.counters db.tables.trafficBuckets ⟨b.1, b.2, ifindex⟩ +
          movedOn (· = ifindex) (input.batch.flows.map Sighting.flowDelta) ∧
      amountAt TimeBucket.counters db'.tables.trafficBuckets ⟨b.1, b.2, ifindex⟩ ≤ maxCounters
  flows : ∀ update ∈ input.batch.flows, MovedOrEnded update →
    ∃ record ∈ event.flows, recordOf db'.tables (flowId update.key) = some record

/-- The condition for delivery. -/
structure Deliverable : Prop where
  /-- The grown buckets fit the columns. -/
  fits : ∀ b ∈ bucketStarts input, ∀ ifindex,
    amountAt TimeBucket.counters db.tables.trafficBuckets ⟨b.1, b.2, ifindex⟩ +
      movedOn (· = ifindex) (input.batch.flows.map Sighting.flowDelta) ≤ maxCounters
  /-- Only the last update of a flow has a delta. -/
  once : Once flowId input.batch.flows
  /-- A flow that ended ends with the batch, or moves at its end. -/
  ends : ∀ update ∈ input.batch.flows, update.state ≠ .active →
    ∀ last ∈ finals flowId input.batch.flows, flowId last.key = flowId update.key →
      MovedOrEnded last
  /-- A retention policy that is due keeps the flows that moved or ended. -/
  stays : ∀ update ∈ input.batch.flows, MovedOrEnded update →
    Stays input flowId db (flowId update.key)
  /-- It keeps the buckets of the collection time, unless there is nothing in them. -/
  current : db.policyDue input.policyInstant = true → ∀ b ∈ bucketStarts input, ∀ ifindex,
    keptBuckets input.nowSystem ⟨b.1, b.2, ifindex⟩ = false →
      amountAt TimeBucket.counters db.tables.trafficBuckets ⟨b.1, b.2, ifindex⟩ = 0

end Delivery

section Proof

variable {input : IngestInput} {flowId : FlowKey → UInt64} {db stored db' : TrafficDb}
  {touched : List UInt64} {event : StreamEvent}

theorem recordOf_end (h : Interval input flowId db stored touched event db') (id : UInt64) :
    recordOf db'.tables id = recordOf (keptOf input stored).tables id := by
  unfold recordOf
  rw [h.flows, h.applications]

/-! ## The buckets of the collection time -/

/-- The traffic buckets that the retention policy leaves, should it be due. -/
theorem trafficBuckets_keptOf (h : Interval input flowId db stored touched event db') :
    (keptOf input stored).tables.trafficBuckets =
      if db.policyDue input.policyInstant then
        db.tables.trafficBuckets.filter fun key _ => keptBuckets input.nowSystem key
      else db.tables.trafficBuckets := by
  have hstored : stored.tables.trafficBuckets = db.tables.trafficBuckets :=
    congrArg Prod.fst h.stores.buckets
  have hbuckets : (stored.tables.enforced input.settings input.nowSystem).trafficBuckets = _ :=
    congrArg Prod.fst Tables.buckets_enforced
  unfold keptOf enforced
  rw [policyDue_stored h, ← hstored]
  split
  · exact hbuckets
  · rfl

theorem amountAt_kept (h : Interval input flowId db stored touched event db')
    (key : TimeBucketKey) :
    amountAt TimeBucket.counters (keptOf input stored).tables.trafficBuckets key =
      if db.policyDue input.policyInstant = true ∧ keptBuckets input.nowSystem key = false then 0
      else amountAt TimeBucket.counters db.tables.trafficBuckets key := by
  rw [trafficBuckets_keptOf h]
  cases db.policyDue input.policyInstant with
  | true =>
    rw [if_pos rfl, amountAt_filter]
    cases keptBuckets input.nowSystem key <;> simp
  | false => simp

theorem amountAt_end (h : Interval input flowId db stored touched event db')
    (hfits : Fits (input.batch.flows.map Sighting.flowDelta)) {b : BucketResolution × ℤ}
    (hb : b ∈ bucketStarts input) (ifindex : ℤ) :
    amountAt TimeBucket.counters db'.tables.trafficBuckets ⟨b.1, b.2, ifindex⟩ =
      amountAt TimeBucket.counters (keptOf input stored).tables.trafficBuckets ⟨b.1, b.2, ifindex⟩ +
        movedOn (· = ifindex) ((movesOf input flowId touched stored).map Prod.snd) := by
  rw [h.traffic, amountAt_addAll TimeBucket.counters_onConflict,
    amount_trafficWrites (fits_movesOf h.touches hfits), spread_eq_movedOn hb]

/-! ## Delivery -/

/-- The row of a flow that stays is the stored one. -/
theorem find_of_stays (h : Interval input flowId db stored touched event db') {id : UInt64}
    {row : FlowRow} (hrow : stored.tables.flows.find id = some row)
    (hstays : Stays input flowId db id) : db'.tables.flows.find id = some row := by
  rw [find_end h, hrow, Option.filter_some, if_pos]
  cases hdue : db.policyDue input.policyInstant with
  | false => rfl
  | true =>
    have hexpected : (expected input flowId db).flows.find id = some row.undomained := by
      rw [undomained_expected h, Tables.find_undomained, hrow]
      rfl
    rw [keptFlow_expected h]
    exact hstays hdue _ hexpected

/-- The rows of flows that stay are still there. -/
theorem exists_row (h : Interval input flowId db stored touched event db') {update : Sighting}
    (hmem : update ∈ input.batch.flows) (hstays : Stays input flowId db (flowId update.key)) :
    ∃ row, db'.tables.flows.find (flowId update.key) = some row ∧
      ∀ last ∈ finals flowId input.batch.flows, flowId last.key = flowId update.key →
        row.state = last.state := by
  obtain ⟨last, hlast, hid⟩ : ∃ last ∈ finals flowId input.batch.flows,
    flowId last.key = flowId update.key := mem_finals_of_mem hmem
  obtain ⟨row, hrow, hstate, -⟩ := find_stored h hlast
  rw [hid] at hrow
  refine ⟨row, find_of_stays h hrow hstays, ?_⟩
  intro other hother hotherid
  rw [hstate, List.inj_on_of_nodup_map finals_nodup hother hlast (hotherid.trans hid.symm)]

theorem movedOn_filter {f : ℤ → Prop} [DecidablePred f] {p : Sighting → Bool}
    {updates : List Sighting}
    (h : ∀ update ∈ updates, p update = false → update.flowDelta.moved = false) :
    movedOn f ((updates.filter p).map Sighting.flowDelta) =
      movedOn f (updates.map Sighting.flowDelta) := by
  induction updates with
  | nil => rfl
  | cons update updates ih =>
    have hrest := ih fun other hother => h other (List.mem_cons_of_mem _ hother)
    rw [List.map_cons, movedOn_cons, ← hrest]
    cases hp : p update with
    | true => rw [List.filter_cons_of_pos hp, List.map_cons, movedOn_cons]
    | false =>
      rw [List.filter_cons_of_neg (by simp [hp]),
        FlowDelta.counters_eq_zero.mpr (h update List.mem_cons_self hp), ite_self, zero_add]

theorem movedOn_moves (h : Interval input flowId db stored touched event db')
    (honce : Once flowId input.batch.flows)
    (hstays : ∀ update ∈ input.batch.flows, update.flowDelta.moved = true →
      Stays input flowId db (flowId update.key)) {f : ℤ → Prop} [DecidablePred f] :
    movedOn f ((movesOf input flowId touched stored).map Prod.snd) =
      movedOn f (input.batch.flows.map Sighting.flowDelta) := by
  rw [movedOn_perm (movesOf_perm h.touches), movedOn_filter, movedOn_finals honce]
  intro update hupdate harrives
  by_contra hmoved
  rw [Bool.not_eq_false] at hmoved
  have hmem : update ∈ input.batch.flows := finals_sublist.mem hupdate
  obtain ⟨row, hrow, -⟩ := exists_row h hmem (hstays update hmem hmoved)
  rw [h.flows] at hrow
  simp [arrives, hmoved, hrow] at harrives

theorem fits_of_fits (hnonneg : ∀ key, 0 ≤ amountAt TimeBucket.counters db.tables.trafficBuckets key)
    (h : ∀ b ∈ bucketStarts input, ∀ ifindex,
      amountAt TimeBucket.counters db.tables.trafficBuckets ⟨b.1, b.2, ifindex⟩ +
        movedOn (· = ifindex) (input.batch.flows.map Sighting.flowDelta) ≤ maxCounters) :
    Fits (input.batch.flows.map Sighting.flowDelta) := by
  intro ifindex
  exact (le_add_of_nonneg_left (hnonneg _)).trans (h _ List.mem_cons_self ifindex)

theorem flowMoved_eq {flows : List Sighting} {last : Sighting} (hlast : last ∈ finals flowId flows) :
    flowMoved flowId flows (flowId last.key) = last.flowDelta.moved := by
  unfold flowMoved
  rw [lookup_flowDeltas_of_mem hlast]
  rfl

theorem mem_endedIds {flows : List Sighting} {update : Sighting} (hmem : update ∈ flows)
    (hended : update.state ≠ .active) : flowId update.key ∈ endedIds flowId flows :=
  List.mem_map.mpr ⟨update, List.mem_filter.mpr ⟨hmem, decide_eq_true hended⟩, rfl⟩

theorem delivered (h : Interval input flowId db stored touched event db')
    (hnonneg : ∀ key, 0 ≤ amountAt TimeBucket.counters db.tables.trafficBuckets key)
    (hc : Deliverable input flowId db) : Delivered input flowId db event db' where
  buckets b hb ifindex := by
    have hmoves : ∀ update ∈ input.batch.flows, update.flowDelta.moved = true →
        Stays input flowId db (flowId update.key) :=
      fun update hmem hmoved => hc.stays update hmem (Or.inl hmoved)
    have hamount : amountAt TimeBucket.counters db'.tables.trafficBuckets ⟨b.1, b.2, ifindex⟩ =
        amountAt TimeBucket.counters db.tables.trafficBuckets ⟨b.1, b.2, ifindex⟩ +
          movedOn (· = ifindex) (input.batch.flows.map Sighting.flowDelta) := by
      rw [amountAt_end h (fits_of_fits hnonneg hc.fits) hb, movedOn_moves h hc.once hmoves, amountAt_kept h]
      split
      · next hdrop => rw [hc.current hdrop.1 b hb ifindex hdrop.2]
      · rfl
    rw [hamount]
    exact ⟨rfl, hc.fits b hb ifindex⟩
  flows update hmem hmoved := by
    obtain ⟨row, hrow, hstate⟩ := exists_row h hmem (hc.stays update hmem hmoved)
    obtain ⟨last, hlast, hid⟩ : ∃ last ∈ finals flowId input.batch.flows,
      flowId last.key = flowId update.key := mem_finals_of_mem hmem
    have hlastMoved : MovedOrEnded last := by
      rcases hmoved with hmoved | hended
      · have hfinal := mem_finals_of_once hc.once hmem hmoved
        rw [List.inj_on_of_nodup_map finals_nodup hlast hfinal hid]
        exact Or.inl hmoved
      · exact hc.ends update hmem hended last hlast hid
    obtain ⟨record, hrecord⟩ : ∃ record, recordOf db'.tables (flowId update.key) = some record := by
      unfold recordOf
      rw [hrow]
      exact ⟨_, rfl⟩
    obtain ⟨hrecordId, hrecordRow⟩ := recordOf_eq_some_iff hrecord
    obtain rfl : row = record.row := Option.some.inj (hrow.symm.trans hrecordRow)
    refine ⟨record, ?_, hrecord⟩
    rw [h.event, List.mem_filter, hrecordId, ← hid]
    constructor
    · refine List.mem_filterMap.mpr ⟨flowId update.key, mem_readIds.mpr ⟨h.touches update hmem, ?_⟩, ?_⟩
      · rw [← hid]
        exact hlastMoved.imp (flowMoved_eq hlast).trans (mem_endedIds (finals_sublist.mem hlast))
      · rw [← recordOf_end h, hrecord]
    · rw [Bool.or_eq_true]
      refine hlastMoved.imp (flowMoved_eq hlast).trans fun hended => ?_
      unfold FlowRow.ended
      rw [hstate last hlast hid]
      exact decide_eq_true hended

/-- Delivery loses nothing: neither what was in a bucket nor a delta of the batch. -/
theorem Delivered.parts (h : Interval input flowId db stored touched event db')
    (hnonneg : ∀ key, 0 ≤ amountAt TimeBucket.counters db.tables.trafficBuckets key)
    (hd : Delivered input flowId db event db') {b : BucketResolution × ℤ}
    (hb : b ∈ bucketStarts input) (ifindex : ℤ) :
    amountAt TimeBucket.counters (keptOf input stored).tables.trafficBuckets ⟨b.1, b.2, ifindex⟩ =
        amountAt TimeBucket.counters db.tables.trafficBuckets ⟨b.1, b.2, ifindex⟩ ∧
      movedOn (· = ifindex) ((movesOf input flowId touched stored).map Prod.snd) =
        movedOn (· = ifindex) (input.batch.flows.map Sighting.flowDelta) := by
  have hfits : Fits (input.batch.flows.map Sighting.flowDelta) :=
    fits_of_fits hnonneg fun b hb ifindex => by
      obtain ⟨heq, hle⟩ := hd.buckets b hb ifindex
      rwa [heq] at hle
  apply (add_eq_add_iff_eq_and_eq ?_ (movedOn_movesOf_le h.touches)).mp
  · rw [← amountAt_end h hfits hb]
    exact (hd.buckets b hb ifindex).1
  · rw [amountAt_kept h]
    split
    · exact hnonneg _
    · exact le_rfl

theorem deliverable (h : Interval input flowId db stored touched event db')
    (hnonneg : ∀ key, 0 ≤ amountAt TimeBucket.counters db.tables.trafficBuckets key)
    (hd : Delivered input flowId db event db') : Deliverable input flowId db where
  fits b hb ifindex := by
    obtain ⟨heq, hle⟩ := hd.buckets b hb ifindex
    rwa [heq] at hle
  once := by
    apply once_of_movedOn_finals
    intro ifindex
    have hmoves := (hd.parts h hnonneg List.mem_cons_self ifindex).2
    rw [movedOn_perm (movesOf_perm h.touches)] at hmoves
    apply le_antisymm movedOn_finals_le
    rw [← hmoves]
    exact movedOn_sublist (List.filter_sublist.map _)
  ends update hmem hended last hlast hid := by
    obtain ⟨record, hrecord, hfinal⟩ := hd.flows update hmem (Or.inr hended)
    obtain ⟨hrecordId, hrow⟩ := recordOf_eq_some_iff hfinal
    rw [h.event, List.mem_filter, hrecordId, ← hid, flowMoved_eq hlast, Bool.or_eq_true] at hrecord
    refine hrecord.2.imp_right fun hrowEnded => ?_
    obtain ⟨row, hfind, hstate, -⟩ := find_stored h hlast
    rw [find_end h, ← hid, hfind] at hrow
    obtain ⟨hrow, -⟩ := Option.filter_eq_some_iff.mp hrow
    rw [← hstate, Option.some.inj hrow]
    exact of_decide_eq_true hrowEnded
  stays update hmem hmoved hdue row hexpected := by
    obtain ⟨record, -, hfinal⟩ := hd.flows update hmem hmoved
    have hrow := (recordOf_eq_some_iff hfinal).2
    rw [find_end h, hdue] at hrow
    obtain ⟨hstored, hkept⟩ := Option.filter_eq_some_iff.mp hrow
    rw [undomained_expected h, Tables.find_undomained, hstored] at hexpected
    rw [keptFlow_expected h] at hkept
    rw [← Option.some.inj hexpected]
    exact hkept
  current hdue b hb ifindex hdrop := by
    have hold := (hd.parts h hnonneg hb ifindex).1
    rw [amountAt_kept h, if_pos ⟨hdue, hdrop⟩] at hold
    exact hold.symm

end Proof

/-- In a database that a run of operations leads to, no traffic is counted negative. -/
theorem counters_nonneg {flowId : FlowKey → UInt64} {s : BucketHistory}
    (hr : (bucketHistories flowId).Reachable s) (key : TimeBucketKey) :
    0 ≤ amountAt TimeBucket.counters s.db.tables.trafficBuckets key :=
  (BucketHistory.inv hr).nonneg key

/-- An ingest that succeeds delivers its batch exactly under the condition. -/
theorem delivered_iff {input : IngestInput} {flowId : FlowKey → UInt64} {c c' : Conn TrafficDb}
    {event : StreamEvent} (hrun : tryIngest flowId input c = (.ok event, c'))
    (hnonneg : ∀ key, 0 ≤ amountAt TimeBucket.counters c.store.tables.trafficBuckets key) :
    Delivered input flowId c.store event c'.store ↔ Deliverable input flowId c.store := by
  obtain ⟨stored, touched, h⟩ := ends_tryIngest.of_eq hrun rfl
  constructor
  · exact deliverable h hnonneg
  · exact delivered h hnonneg

/-- An interval with one update of one flow. -/
theorem delivered_iff_oneUpdate : ∃ event c',
    tryIngest (fun _ => 7) oneUpdate ⟨{}, []⟩ = (.ok event, c') ∧
      (Delivered oneUpdate (fun _ => 7) {} event c'.store ↔
        Deliverable oneUpdate (fun _ => 7) {}) := by
  obtain ⟨event, c', h⟩ := exists_of_isOk (x := tryIngest (fun _ => 7) oneUpdate) (c := ⟨{}, []⟩)
    (by decide +kernel)
  exact ⟨event, c', h, delivered_iff h fun _ => le_rfl⟩

/-- Settings that keep no history. -/
def noHistory : Settings := { history := { enabled := false } }

/-- A flow that moves twice within a batch, and one that ends without a history. -/
theorem intervals_lose_traffic :
    (∃ event c', tryIngest (fun _ => 7) (lanInterval {}
        [lanUpdate ⟨1, 100⟩ ⟨1, 100⟩ .active, lanUpdate ⟨1, 50⟩ ⟨2, 150⟩ .active]) ⟨{}, []⟩ =
          (.ok event, c') ∧
      ¬ Delivered (lanInterval {}
        [lanUpdate ⟨1, 100⟩ ⟨1, 100⟩ .active, lanUpdate ⟨1, 50⟩ ⟨2, 150⟩ .active]) (fun _ => 7) {}
          event c'.store) ∧
    ∃ event c', tryIngest (fun _ => 7) (lanInterval noHistory
        [lanUpdate ⟨1, 100⟩ ⟨1, 100⟩ (.ended .tcpFin)]) ⟨{}, []⟩ = (.ok event, c') ∧
      ¬ Delivered (lanInterval noHistory [lanUpdate ⟨1, 100⟩ ⟨1, 100⟩ (.ended .tcpFin)])
        (fun _ => 7) {} event c'.store := by
  constructor
  · obtain ⟨event, c', h⟩ := exists_of_isOk (x := tryIngest (fun _ => 7) (lanInterval {}
      [lanUpdate ⟨1, 100⟩ ⟨1, 100⟩ .active, lanUpdate ⟨1, 50⟩ ⟨2, 150⟩ .active]))
      (c := ⟨{}, []⟩) (by decide +kernel)
    refine ⟨event, c', h, fun hd => ?_⟩
    obtain ⟨stored, touched, hinterval⟩ := ends_tryIngest.of_eq h rfl
    have honce := (deliverable hinterval (fun _ => le_rfl) hd).once
    have hmoved := (List.pairwise_cons.mp honce).1 _ List.mem_cons_self rfl
    exact absurd hmoved (by decide)
  · obtain ⟨event, c', h⟩ := exists_of_isOk (x := tryIngest (fun _ => 7) (lanInterval noHistory
      [lanUpdate ⟨1, 100⟩ ⟨1, 100⟩ (.ended .tcpFin)])) (c := ⟨{}, []⟩) (by decide +kernel)
    refine ⟨event, c', h, fun hd => ?_⟩
    obtain ⟨stored, touched, hinterval⟩ := ends_tryIngest.of_eq h rfl
    have hstays := (deliverable hinterval (fun _ => le_rfl) hd).stays _ List.mem_cons_self
      (Or.inl (by decide)) rfl
    have hall := (Option.all_eq_true _ _).mpr hstays
    exact absurd hall (by decide +kernel)

end TrafficDb

end ZimaScope
