import ZimaScope.Db.Retention
import ZimaScope.Lib.Accumulate
import Mathlib.Algebra.Order.Monoid.Prod

/-! # What an interval adds to the buckets

The stored rows of the flows that moved or ended are read back, and each one's
delta is written to the buckets of its entities and, summed up for its
interface, to those of the traffic.
-/

namespace ZimaScope

open Storage

/-- Packets and bytes in, packets and bytes out. -/
abbrev Counters := ℤ × ℤ × ℤ × ℤ

/-- What fits in the columns. -/
def maxCounters : Counters := (2 ^ 63 - 1, 2 ^ 63 - 1, 2 ^ 63 - 1, 2 ^ 63 - 1)

namespace TimeBucket

def counters (b : TimeBucket) : Counters := (b.inPackets, b.inBytes, b.outPackets, b.outBytes)

theorem counters_onConflict (excluded : TimeBucket) (old : Option TimeBucket) :
    (excluded.onConflict old).counters = old.elim 0 counters + excluded.counters := by
  cases old with
  | none => exact (zero_add _).symm
  | some old => rfl

end TimeBucket

/-- The counters of both directions. -/
def directed (totals : TrafficCounters × TrafficCounters) : Counters :=
  (totals.1.packets, totals.1.bytes, totals.2.packets, totals.2.bytes)

theorem directed_nonneg (totals : TrafficCounters × TrafficCounters) : 0 ≤ directed totals := by
  refine ⟨?_, ?_, ?_, ?_⟩ <;> exact Int.natCast_nonneg _

theorem counters_ofCounters {interface : String} {inbound outbound : TrafficCounters}
    (h : directed (inbound, outbound) ≤ maxCounters) :
    (TimeBucket.ofCounters interface inbound outbound).counters = directed (inbound, outbound) := by
  obtain ⟨h₁, h₂, h₃, h₄⟩ := h
  simp only [directed, maxCounters] at h₁ h₂ h₃ h₄
  unfold TimeBucket.ofCounters TimeBucket.counters directed
  simp only
  rw [asI64_of_lt (by omega), asI64_of_lt (by omega), asI64_of_lt (by omega),
    asI64_of_lt (by omega)]

namespace TrafficDb

namespace FlowDelta

/-- The delta, in the direction of the flow. -/
def both (d : FlowDelta) : TrafficCounters × TrafficCounters :=
  match d.direction with
  | .inbound => (d.delta, {})
  | .outbound => ({}, d.delta)

def counters (d : FlowDelta) : Counters := directed d.both

/-- The bucket a delta is written as. -/
def bucket (d : FlowDelta) (interface : String) : TimeBucket :=
  TimeBucket.ofCounters interface d.both.1 d.both.2

theorem counters_bucket {d : FlowDelta} (interface : String) (h : d.counters ≤ maxCounters) :
    (d.bucket interface).counters = d.counters := counters_ofCounters h

theorem counters_nonneg (d : FlowDelta) : 0 ≤ d.counters := directed_nonneg _

theorem counters_eq_zero {d : FlowDelta} : d.counters = 0 ↔ d.moved = false := by
  obtain ⟨direction, ⟨packets, bytes⟩, ifindex⟩ := d
  cases direction <;> simp [counters, both, directed, moved, Prod.ext_iff]

end FlowDelta

/-! ## Totals of the interfaces -/

namespace InterfaceTotals

variable (f : ℤ → Prop) [DecidablePred f]

/-- What the totals of these interfaces add up to. -/
def sum (totals : InterfaceTotals) : Counters :=
  (totals.entries.map fun e => if f e.1.1 then directed e.2 else 0).sum

variable {f} {totals : InterfaceTotals} {interface : ℤ × String} {d : FlowDelta}

/-- A sum over entries is the part of one key and that of the others. -/
theorem sum_kerase {κ α M : Type*} [DecidableEq κ] [AddCommMonoid M]
    {g : (Sigma fun _ : κ => α) → M} (key : κ) (entries : List (Sigma fun _ : κ => α)) :
    (entries.map g).sum =
      (entries.dlookup key).elim 0 (fun a => g ⟨key, a⟩) + ((entries.kerase key).map g).sum := by
  induction entries with
  | nil => exact (add_zero _).symm
  | cons e entries ih =>
    by_cases h : key = e.1
    · obtain ⟨k, a⟩ := e
      obtain rfl : key = k := h
      have hrest : (⟨key, a⟩ :: entries : List (Sigma fun _ : κ => α)).kerase key = entries :=
        List.kerase_cons_eq rfl
      rw [List.dlookup_cons_eq, hrest]
      rfl
    · rw [List.dlookup_cons_ne _ _ h, List.kerase_cons_ne h, List.map_cons, List.sum_cons, ih,
        List.map_cons, List.sum_cons, add_left_comm]

theorem sum_nonneg : 0 ≤ sum f totals := by
  refine List.sum_nonneg fun x hx => ?_
  obtain ⟨e, -, rfl⟩ := List.mem_map.mp hx
  split
  · exact directed_nonneg _
  · exact le_rfl

/-- The totals of one interface are part of what those of its index add up to. -/
theorem lookup_le_sum {old : TrafficCounters × TrafficCounters}
    (h : AList.lookup interface totals = some old) : directed old ≤ sum (· = interface.1) totals := by
  have hrest : 0 ≤ ((totals.entries.kerase interface).map fun e =>
      if e.1.1 = interface.1 then directed e.2 else 0).sum := by
    refine List.sum_nonneg fun x hx => ?_
    obtain ⟨e, -, rfl⟩ := List.mem_map.mp hx
    split
    · exact directed_nonneg _
    · exact le_rfl
  unfold sum
  rw [sum_kerase interface, show totals.entries.dlookup interface = some old from h,
    Option.elim_some, if_pos rfl]
  exact le_add_of_nonneg_right hrest

/-- The totals of the interface of a delta that fits, after it. -/
theorem exists_add {old : TrafficCounters × TrafficCounters}
    (hold : (AList.lookup interface totals).getD ({}, {}) = old)
    (h : directed old + d.counters ≤ maxCounters) :
    ∃ new, totals.add interface d = totals.insert interface new ∧
      directed new = directed old + d.counters := by
  subst hold
  refine ⟨_, rfl, ?_⟩
  generalize (AList.lookup interface totals).getD ({}, {}) = old at h
  obtain ⟨direction, ⟨packets, bytes⟩, ifindex⟩ := d
  obtain ⟨⟨inPackets, inBytes⟩, outPackets, outBytes⟩ := old
  obtain ⟨h₁, h₂, h₃, h₄⟩ := h
  cases direction with
  | inbound =>
    simp only [directed, FlowDelta.counters, FlowDelta.both, maxCounters, Prod.fst_add, Prod.snd_add]
      at h₁ h₂
    simp only [directed, FlowDelta.counters, FlowDelta.both, TrafficCounters.add, Prod.mk_add_mk]
    rw [min_eq_left (by omega), min_eq_left (by omega)]
    simp
  | outbound =>
    simp only [directed, FlowDelta.counters, FlowDelta.both, maxCounters, Prod.fst_add, Prod.snd_add]
      at h₃ h₄
    simp only [directed, FlowDelta.counters, FlowDelta.both, TrafficCounters.add, Prod.mk_add_mk]
    rw [min_eq_left (by omega), min_eq_left (by omega)]
    simp

/-- Adding a delta that fits adds it to the sum of its interfaces. -/
theorem sum_add (h : sum (· = interface.1) totals + d.counters ≤ maxCounters) :
    sum f (totals.add interface d) =
      sum f totals + if f interface.1 then d.counters else 0 := by
  have hle : directed ((AList.lookup interface totals).getD ({}, {})) ≤
      sum (· = interface.1) totals := by
    cases hl : AList.lookup interface totals with
    | none => exact sum_nonneg
    | some old => exact lookup_le_sum hl
  obtain ⟨new, hadd, hnew⟩ := exists_add rfl ((add_le_add_left hle _).trans h)
  have hsum : sum f totals = (AList.lookup interface totals).elim 0
      (fun old => if f interface.1 then directed old else 0) +
        ((totals.entries.kerase interface).map fun e => if f e.1.1 then directed e.2 else 0).sum :=
    sum_kerase interface totals.entries
  rw [hadd, hsum]
  unfold sum
  rw [AList.entries_insert, List.map_cons, List.sum_cons, add_right_comm]
  congr 1
  cases hl : AList.lookup interface totals with
  | none =>
    rw [hl] at hnew
    simp only [hnew]
    split
    · rfl
    · exact (add_zero _).symm
  | some old =>
    rw [hl] at hnew
    simp only [hnew, Option.elim_some]
    split
    · rfl
    · exact (add_zero _).symm

end InterfaceTotals

/-! ## Reading back -/

section Interval

variable (input : IngestInput) (flowId : FlowKey → UInt64)

/-- A flow as it is read back. -/
def recordOf (t : Tables) (id : UInt64) : Option FlowRecord :=
  (t.flows.find id).map fun row =>
    { id
      row
      application := row.appId.map fun appId =>
        (appId, (t.applications.find appId).elim "" ApplicationRow.name,
          if (t.applications.find appId).map ApplicationRow.kind = some "container" then "container"
          else "process") }

/-- The flows to read back. -/
def readIds (touched : List UInt64) : List UInt64 :=
  (touched.insertionSort (· ≤ ·)).dedup.filter fun id =>
    flowMoved flowId input.batch.flows id || id ∈ endedIds flowId input.batch.flows

/-- A record with its delta, if it moved. -/
def moveOf (record : FlowRecord) : Option (FlowRecord × FlowDelta) :=
  ((AList.lookup record.id (flowDeltas flowId input.batch.flows)).filter FlowDelta.moved).map
    (record, ·)

/-- The records that moved. -/
def contributions (updated : List FlowRecord) : List (FlowRecord × FlowDelta) :=
  updated.filterMap (moveOf input flowId)

variable {input flowId} {db : TrafficDb}

theorem recordOf_eq_some_iff {t : Tables} {id : UInt64} {record : FlowRecord}
    (h : recordOf t id = some record) : record.id = id ∧ t.flows.find id = some record.row := by
  obtain ⟨row, hrow, rfl⟩ := Option.map_eq_some_iff.mp h
  exact ⟨rfl, hrow⟩

theorem ends_readBack {touched : List UInt64} : Ends (readBack input flowId touched)
    (fun updated s => s = db ∧
      updated = (readIds input flowId touched).filterMap (recordOf db.tables)) db := by
  refine .foldlM (I := fun done updated s => s = db ∧
    updated = done.filterMap (recordOf db.tables)) ?_ ⟨rfl, rfl⟩
  rintro done id later updated s - ⟨rfl, rfl⟩
  refine .bind (ends_select (.pure ⟨rfl, ?_⟩))
  rw [List.filterMap_append]
  refine congrArg _ ?_
  change (recordOf s.tables id).toList = _
  cases hr : recordOf s.tables id <;> simp [hr]

/-! ## Writing -/

variable (input flowId)

/-- The totals of the interfaces the records moved on. -/
def totalsOf (moves : List (FlowRecord × FlowDelta)) : InterfaceTotals :=
  moves.foldl (fun totals c => totals.add (c.2.ifindex, c.1.row.interface.getD "") c.2) ∅

/-- What is written for one flow that moved. -/
def movedWrites (c : FlowRecord × FlowDelta) : List (EntityBucketKey × TimeBucket) :=
  (bucketStarts input).flatMap fun b => (FlowRecord.entities c.1).map fun entity =>
    (⟨entity, ⟨b.1, b.2, c.2.ifindex⟩⟩, c.2.bucket (c.1.row.interface.getD ""))

def entityWrites (moves : List (FlowRecord × FlowDelta)) : List (EntityBucketKey × TimeBucket) :=
  moves.flatMap (movedWrites input)

def trafficWrites (totals : InterfaceTotals) : List (TimeBucketKey × TimeBucket) :=
  totals.entries.flatMap fun e => (bucketStarts input).map fun b =>
    (⟨b.1, b.2, e.1.1⟩, TimeBucket.ofCounters e.1.2 e.2.1 e.2.2)

end Interval

end TrafficDb

namespace Tables

/-- The tables after these writes to the buckets. -/
def withBuckets (t : Tables) (traffic : List (TimeBucketKey × TimeBucket))
    (entities : List (EntityBucketKey × TimeBucket)) : Tables :=
  { t with
    trafficBuckets := Table.addAll TimeBucket.onConflict traffic t.trafficBuckets
    entityBuckets := Table.addAll TimeBucket.onConflict entities t.entityBuckets }

theorem addEntityBucket_eq {t : Tables} {entity : EntityKey} {key : TimeBucketKey}
    {interface : String} {d : TrafficDb.FlowDelta} :
    t.addEntityBucket entity key interface d.direction d.delta =
      t.withBuckets [] [(⟨entity, key⟩, d.bucket interface)] := by
  unfold addEntityBucket TrafficDb.FlowDelta.bucket TrafficDb.FlowDelta.both
  cases d.direction <;> rfl

theorem withBuckets_append {t : Tables} {traffic traffic' : List (TimeBucketKey × TimeBucket)}
    {entities entities' : List (EntityBucketKey × TimeBucket)} :
    t.withBuckets (traffic ++ traffic') (entities ++ entities') =
      (t.withBuckets traffic entities).withBuckets traffic' entities' := by
  unfold withBuckets
  rw [Table.addAll_append, Table.addAll_append]

end Tables

namespace TrafficDb

def withBuckets (db : TrafficDb) (traffic : List (TimeBucketKey × TimeBucket))
    (entities : List (EntityBucketKey × TimeBucket)) : TrafficDb :=
  { db with tables := db.tables.withBuckets traffic entities }

theorem withBuckets_append {db : TrafficDb} {traffic traffic' : List (TimeBucketKey × TimeBucket)}
    {entities entities' : List (EntityBucketKey × TimeBucket)} :
    db.withBuckets (traffic ++ traffic') (entities ++ entities') =
      (db.withBuckets traffic entities).withBuckets traffic' entities' := by
  unfold withBuckets
  rw [Tables.withBuckets_append]

section Loops

variable {β : Type} {items : List β} {f : β → Action Unit} {db : TrafficDb}
  {T : β → List (TimeBucketKey × TimeBucket)} {E : β → List (EntityBucketKey × TimeBucket)}

/-- Statements that add to the buckets, one after the other. -/
theorem ends_forM_withBuckets
    (h : ∀ item db, Ends (f item) (fun _ s => s = db.withBuckets (T item) (E item)) db) :
    Ends (items.forM f) (fun _ s => s = db.withBuckets (items.flatMap T) (items.flatMap E)) db := by
  refine .forM (I := fun done s => s = db.withBuckets (done.flatMap T) (done.flatMap E)) ?_ rfl
  rintro done item later _ - rfl
  refine (h item _).mono fun _ s hs => ?_
  rw [hs, List.flatMap_append, List.flatMap_append, List.flatMap_singleton, List.flatMap_singleton,
    withBuckets_append]

theorem ends_forM_traffic
    (h : ∀ item db, Ends (f item) (fun _ s => s = db.withBuckets (T item) []) db) :
    Ends (items.forM f) (fun _ s => s = db.withBuckets (items.flatMap T) []) db := by
  refine Ends.mono (ends_forM_withBuckets (E := fun _ => []) h) fun _ s hs => ?_
  rw [hs, List.flatMap_eq_nil_iff.mpr fun _ _ => rfl]

theorem ends_forM_entities
    (h : ∀ item db, Ends (f item) (fun _ s => s = db.withBuckets [] (E item)) db) :
    Ends (items.forM f) (fun _ s => s = db.withBuckets [] (items.flatMap E)) db := by
  refine Ends.mono (ends_forM_withBuckets (T := fun _ => []) h) fun _ s hs => ?_
  rw [hs, List.flatMap_eq_nil_iff.mpr fun _ _ => rfl]

end Loops

section Interval

variable {input : IngestInput} {flowId : FlowKey → UInt64} {db : TrafficDb}

theorem ends_addFlow {moves : List (FlowRecord × FlowDelta)} {record : FlowRecord} :
    Ends (addFlow input flowId (totalsOf moves) record) (fun totals s =>
      totals = totalsOf (moves ++ (moveOf input flowId record).toList) ∧
      s = db.withBuckets [] (entityWrites input (moveOf input flowId record).toList)) db := by
  unfold addFlow moveOf
  cases hd : AList.lookup record.id (flowDeltas flowId input.batch.flows) with
  | none => exact .pure ⟨(congrArg totalsOf (List.append_nil _)).symm, rfl⟩
  | some d =>
    simp only
    cases hm : d.moved with
    | false =>
      rw [Option.filter_some, hm]
      exact .pure ⟨(congrArg totalsOf (List.append_nil _)).symm, rfl⟩
    | true =>
      rw [Option.filter_some, hm]
      have hwrites : Ends ((bucketStarts input).forM fun b =>
          (FlowRecord.entities record).forM fun entity =>
            execute fun t => t.addEntityBucket entity ⟨b.1, b.2, d.ifindex⟩
              (record.row.interface.getD "") d.direction d.delta)
          (fun _ s => s = db.withBuckets [] (movedWrites input (record, d))) db := by
        refine ends_forM_entities fun b db => ?_
        rw [List.map_eq_flatMap]
        refine ends_forM_entities fun entity db => ends_execute ?_
        rw [Tables.addEntityBucket_eq]
        rfl
      refine .bind (hwrites.mono fun _ s hs => .pure ⟨?_, ?_⟩)
      · unfold totalsOf
        rw [List.foldl_append]
        rfl
      · rw [hs]
        unfold entityWrites
        exact congrArg _ (List.flatMap_singleton ..).symm

theorem ends_storeBuckets {updated : List FlowRecord} : Ends (storeBuckets input flowId updated)
    (fun _ s => s = db.withBuckets
      (trafficWrites input (totalsOf (contributions input flowId updated)))
      (entityWrites input (contributions input flowId updated))) db := by
  unfold storeBuckets
  split
  · next hnil =>
    have hempty : contributions input flowId updated = [] := by
      refine List.filterMap_eq_nil_iff.mpr fun record _ => ?_
      unfold moveOf
      rw [hnil]
      rfl
    rw [hempty]
    exact .pure rfl
  · have hflows : Ends (updated.foldlM (addFlow input flowId) (∅ : InterfaceTotals))
        (fun totals s => totals = totalsOf (contributions input flowId updated) ∧
          s = db.withBuckets [] (entityWrites input (contributions input flowId updated))) db := by
      refine .foldlM (I := fun done totals s =>
        totals = totalsOf (contributions input flowId done) ∧
          s = db.withBuckets [] (entityWrites input (contributions input flowId done))) ?_ ⟨rfl, rfl⟩
      rintro done record later totals s - ⟨rfl, rfl⟩
      refine ends_addFlow.mono fun totals s hs => ?_
      unfold contributions at hs ⊢
      rw [List.filterMap_append]
      have hone : [record].filterMap (moveOf input flowId) = (moveOf input flowId record).toList := by
        cases hm : moveOf input flowId record <;> simp [hm]
      rw [hone]
      refine ⟨hs.1, ?_⟩
      rw [hs.2, ← withBuckets_append]
      unfold entityWrites
      rw [List.flatMap_append]
      rfl
    refine .transaction (.bind (hflows.mono ?_))
    rintro totals s ⟨rfl, rfl⟩
    refine Ends.mono (ends_forM_traffic (T := fun e => (bucketStarts input).map fun b =>
      (⟨b.1, b.2, e.1.1⟩, TimeBucket.ofCounters e.1.2 e.2.1 e.2.2)) fun e db => ?_) fun _ s hs => ?_
    · rw [List.map_eq_flatMap]
      exact ends_forM_traffic fun b db => ends_execute rfl
    · rw [hs, ← withBuckets_append]
      unfold trafficWrites
      rw [List.nil_append, List.append_nil]

end Interval

end TrafficDb

end ZimaScope
